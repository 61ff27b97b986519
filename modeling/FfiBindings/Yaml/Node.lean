import FfiBindings.Yaml.Fault
import FfiBindings.Yaml.Tag
import FfiBindings.Yaml.Token

set_option autoImplicit false

namespace FfiBindings.Yaml

inductive Node where
  | scalar (tag : Tag) (text : String)
  | sequence (tag : Tag) (items : List Node)
  | mapping (tag : Tag) (entries : List (Node × Node))
  | loop (keyed : Bool)
deriving Repr

namespace Node

def absent : Node := .scalar .null ""

-- What reading has left to do, and what it has to remember: the nodes with anchors (unfinished ones
-- as loops) and the expansions of tag handles.
structure Reader where
  rest : List Token
  anchors : List (String × Node) := []
  handles : List (String × String) := []

abbrev Read := StateT Reader (Except Fault)

def malformed {α : Type} : Read α :=
  throw .malformed

def peek : Read Token :=
  return (← get).rest.headD .streamEnd

def advance : Read Unit :=
  modify fun reader => { reader with rest := reader.rest.tail }

def accept (token : Token) : Read Bool := do
  if (← peek) == token then
    advance
    return true
  else
    return false

def expect (token : Token) : Read Unit := do
  if !(← accept token) then malformed

def nextIsIn (tokens : List Token) : Read Bool :=
  return tokens.contains (← peek)

def setAnchor (anchor : Option String) (node : Node) : Read Unit :=
  match anchor with
  | none => pure ()
  | some name =>
    modify fun reader => { reader with anchors := (name, node) :: reader.anchors }

def checkAnchor (anchor : Option String) : Read Unit := do
  match anchor with
  | none => pure ()
  | some name => if ((← get).anchors.lookup name).isSome then malformed

def tagName (handle : Option String) (suffix : String) : Read String := do
  match handle with
  | none => return suffix
  | some handle =>
    match (← get).handles.lookup handle with
    | some expansion => return expansion ++ suffix
    | none => malformed

def properties : Read (Option String × Option String) := do
  match ← peek with
  | .anchor name =>
    advance
    match ← peek with
    | .tag handle suffix =>
      advance
      return (some name, some (← tagName handle suffix))
    | _ => return (some name, none)
  | .tag handle suffix =>
    advance
    match ← peek with
    | .anchor name =>
      advance
      return (some name, some (← tagName handle suffix))
    | _ => return (none, some (← tagName handle suffix))
  | _ => return (none, none)

def scalarTag (tag : Option String) (text : String) (plain : Bool) : Tag :=
  match tag with
  | some "!" => Tag.ofSpelling text
  | some name => Tag.ofName name
  | none => if plain then Tag.ofSpelling text else .text

def collectionTag (tag : Option String) (standard : Tag) : Tag :=
  match tag with
  | none | some "!" => standard
  | some name => Tag.ofName name

structure Context where
  block : Bool
  dashes : Bool
deriving DecidableEq, Repr

def flowContext : Context := { block := false, dashes := false }

def blockContext : Context := { block := true, dashes := false }

def entryContext : Context := { block := true, dashes := true }

def absentAt (ends : List Token) (read : Read Node) : Read Node := do
  if ← nextIsIn ends then return absent else read

-- Read a collection whose anchor is known inside it as a loop.
def collection (anchor : Option String) (keyed : Bool) (read : Read Node) : Read Node := do
  setAnchor anchor (.loop keyed)
  let node ← read
  setAnchor anchor node
  return node

def blockEnds : List Token := [.key, .value, .blockEnd]

mutual

def node (context : Context) : Nat → Read Node
  | 0 => malformed
  | fuel + 1 => do
    match ← peek with
    | .alias name =>
      advance
      match (← get).anchors.lookup name with
      -- An alias is its target once more; a loop if the target is not finished.
      | some target => return target
      | none => malformed
    | _ =>
      let (anchor, tag) ← properties
      checkAnchor anchor
      match ← peek with
      | .scalar text plain =>
        advance
        let scalar := Node.scalar (scalarTag tag text plain) text
        setAnchor anchor scalar
        return scalar
      | .flowSequenceStart =>
        advance
        collection anchor false do
          return .sequence (collectionTag tag .sequence) (← flowItems true fuel)
      | .flowMappingStart =>
        advance
        collection anchor true do
          return .mapping (collectionTag tag .mapping) (← flowEntries true fuel)
      | token =>
        if token == .blockEntry && context.dashes then
          collection anchor false do
            return .sequence (collectionTag tag .sequence) (← dashItems fuel)
        else if token == .blockSequenceStart && context.block then
          advance
          collection anchor false do
            let items ← blockItems fuel
            expect .blockEnd
            return .sequence (collectionTag tag .sequence) items
        else if token == .blockMappingStart && context.block then
          advance
          collection anchor true do
            let entries ← blockEntries fuel
            expect .blockEnd
            return .mapping (collectionTag tag .mapping) entries
        -- Properties with nothing behind them describe an empty scalar.
        else if anchor.isSome || tag.isSome then
          let scalar := Node.scalar (scalarTag tag "" true) ""
          setAnchor anchor scalar
          return scalar
        else
          malformed

def blockItems : Nat → Read (List Node)
  | 0 => malformed
  | fuel + 1 => do
    if ← accept .blockEntry then
      let item ← absentAt [.blockEntry, .blockEnd] (node blockContext fuel)
      return item :: (← blockItems fuel)
    else
      return []

-- The items of a sequence that is not indented against the key before it.
def dashItems : Nat → Read (List Node)
  | 0 => malformed
  | fuel + 1 => do
    if ← accept .blockEntry then
      let item ← absentAt (.blockEntry :: blockEnds) (node blockContext fuel)
      return item :: (← dashItems fuel)
    else
      return []

def blockEntries : Nat → Read (List (Node × Node))
  | 0 => malformed
  | fuel + 1 => do
    if ← accept .key then
      let key ← absentAt blockEnds (node entryContext fuel)
      let value ←
        if ← accept .value then absentAt blockEnds (node entryContext fuel) else pure absent
      return (key, value) :: (← blockEntries fuel)
    else
      return []

def flowPair (close : Token) : Nat → Read (Node × Node)
  | 0 => malformed
  | fuel + 1 => do
    let key ← absentAt [.value, .flowEntry, close] (node flowContext fuel)
    if ← accept .value then
      return (key, ← absentAt [.flowEntry, close] (node flowContext fuel))
    else
      return (key, absent)

def flowItems (first : Bool) : Nat → Read (List Node)
  | 0 => malformed
  | fuel + 1 => do
    if ← accept .flowSequenceEnd then
      return []
    if !first then expect .flowEntry
    -- A key inside brackets makes a mapping of one entry.
    if ← accept .key then
      let item := Node.mapping .mapping [← flowPair .flowSequenceEnd fuel]
      return item :: (← flowItems false fuel)
    else if ← accept .flowSequenceEnd then
      return []
    else
      let item ← node flowContext fuel
      return item :: (← flowItems false fuel)

def flowEntries (first : Bool) : Nat → Read (List (Node × Node))
  | 0 => malformed
  | fuel + 1 => do
    if ← accept .flowMappingEnd then
      return []
    if !first then expect .flowEntry
    if ← accept .key then
      let entry ← flowPair .flowMappingEnd fuel
      return entry :: (← flowEntries false fuel)
    else if ← accept .flowMappingEnd then
      return []
    else
      let key ← node flowContext fuel
      return (key, absent) :: (← flowEntries false fuel)

end

def standardHandles : List (String × String) :=
  [("!", "!"), ("!!", standardTag)]

def directives (versioned : Bool) (handles : List (String × String)) :
    List Token → Except Fault (List (String × String) × List Token)
  | .directive (.version major _) :: rest =>
    if versioned || major != 1 then .error .malformed else directives true handles rest
  | .directive (.tagHandle handle expansion) :: rest =>
    if (handles.lookup handle).isSome then .error .malformed
    else directives versioned ((handle, expansion) :: handles) rest
  | .directive .other :: rest => directives versioned handles rest
  | rest => .ok (handles ++ standardHandles, rest)

def isFinished (rest : List Token) : Bool :=
  rest.dropWhile (· == .documentEnd) == [.streamEnd]

def contentEnd : Token → Bool
  | .directive _ | .documentStart | .documentEnd | .streamEnd => true
  | _ => false

def content (read : Nat → Read Node) (handles : List (String × String)) (rest : List Token) :
    Except Fault Node := do
  let (root, reader) ← (read (4 * rest.length + 4)).run { rest, handles }
  if isFinished reader.rest then return root else .error .malformed

def ofTokens (tokens : List Token) : Except Fault (Option Node) := do
  match tokens with
  | [.streamEnd] => return none
  | .directive _ :: _ | .documentStart :: _ =>
    let (handles, rest) ← directives false [] tokens
    match rest with
    | .documentStart :: rest =>
      if contentEnd (rest.headD .streamEnd) then
        if isFinished rest then return some absent else .error .malformed
      else
        return some (← content (node blockContext) handles rest)
    | _ => .error .malformed
  | _ => return some (← content (node blockContext) standardHandles tokens)

end Node

end FfiBindings.Yaml
