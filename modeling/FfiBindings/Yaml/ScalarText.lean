import FfiBindings.Text.Utf8
import FfiBindings.Yaml.Scanner

set_option autoImplicit false

namespace FfiBindings.Yaml.Scan

def hexValue? (c : Char) : Option Nat :=
  if c.isDigit then some (c.toNat - 0x30)
  else if 'a' ≤ c && c ≤ 'f' then some (c.toNat - 0x61 + 10)
  else if 'A' ≤ c && c ≤ 'F' then some (c.toNat - 0x41 + 10)
  else none

def hexNumber? (digits : List Char) : Option Nat :=
  digits.foldlM (fun value digit => (hexValue? digit).map (value * 16 + ·)) 0

def hexDigits (count : Nat) : Scan Nat := do
  let digits := (← get).rest.take count
  if digits.length < count then malformed
  match hexNumber? digits with
  | some value =>
    forward count
    return value
  | none => malformed

def isNameChar (c : Char) : Bool :=
  c.isAlphanum || c == '-' || c == '_'

def endsPlain (inFlow : Bool) (c next : Char) : Bool :=
  isGap c ||
    (c == ':' && (isGap next || (inFlow && [',', '[', ']', '\x7b', '\x7d'].contains next))) ||
    (inFlow && [',', '?', '[', ']', '\x7b', '\x7d'].contains c)

def plainRun (inFlow : Bool) : List Char → List Char
  | [] => []
  | c :: rest =>
    if endsPlain inFlow c (rest.headD endMark) then [] else c :: plainRun inFlow rest

def plainBreaks : Scan (Option (List Char)) := do
  if ← atSeparator then
    return none
  repeatFrom (some []) fun breaks => do
    -- Only a line that starts with a separator ends the scalar; an indented one is text.
    if (← peek) == ' ' then
      forward 1
      return (breaks, true)
    match ← lineBreak? with
    | none => return (breaks, false)
    | some c =>
      if ← atSeparator then return (none, false)
      return (breaks.map (· ++ [c]), true)

-- How breaks between two lines of a scalar read.
def foldBreaks (first : Char) (breaks : List Char) : List Char :=
  if first != '\n' then first :: breaks
  else if breaks.isEmpty then [' ']
  else breaks

def plainSpaces : Scan (List Char) := do
  let blanks ← takeWhile (· == ' ')
  match ← lineBreak? with
  | none => return blanks
  | some first =>
    setKeyAllowed true
    return match ← plainBreaks with
      | none => []
      | some breaks => foldBreaks first breaks

def plainScalar : Scan Token := do
  let inFlow := (← get).flowLevel != 0
  let indent := (← get).indent + 1
  let step (state : List Char × List Char) : Scan ((List Char × List Char) × Bool) := do
    if (← peek) == '#' then
      return (state, false)
    let run := plainRun inFlow (← get).rest
    if run.isEmpty then
      return (state, false)
    setKeyAllowed false
    forward run.length
    let spaces ← plainSpaces
    let found := (state.1 ++ state.2 ++ run, spaces)
    -- A line that is not indented enough does not go on with the scalar.
    let ended := spaces.isEmpty || (← peek) == '#' ||
      (!inFlow && ((← get).column : Int) < indent)
    return (found, !ended)
  let (text, _) ← repeatFrom ([], []) step
  return .scalar (String.ofList text) true

def escapes : List (Char × Nat) :=
  [('0', 0), ('a', 7), ('b', 8), ('t', 9), ('\t', 9), ('n', 10), ('v', 11), ('f', 12), ('r', 13),
   ('e', 0x1B), (' ', 0x20), ('"', 0x22), ('\\', 0x5C), ('/', 0x2F), ('N', 0x85), ('_', 0xA0),
   ('L', 0x2028), ('P', 0x2029)]

def quotedBreaks : Scan (List Char) :=
  repeatFrom [] fun breaks => do
    if ← atSeparator then malformed
    skipWhile fun c => c == ' ' || c == '\t'
    match ← lineBreak? with
    | some c => return (breaks ++ [c], true)
    | none => return (breaks, false)

-- The second of two escapes that stand together for one character beyond the first plane.
def lowHalf? : Scan (Option Nat) := do
  match (← get).rest with
  | '\\' :: 'u' :: rest =>
    let half := (hexNumber? (rest.take 4)).filter fun code => 0xDC00 ≤ code && code ≤ 0xDFFF
    if half.isSome then forward 6
    return half
  | _ => return none

def characterOf (code : Nat) : Scan Char := do
  if 0x7FFFFFFF < code then throw .codePointSize
  if 0x10FFFF < code then throw .codePoint
  if 0xD800 ≤ code && code ≤ 0xDBFF then
    if let some half ← lowHalf? then
      return Char.ofNat (0x10000 + (code - 0xD800) * 0x400 + (half - 0xDC00))
  -- Half of a pair on its own is no character.
  return if 0xD800 ≤ code && code ≤ 0xDFFF then Text.Utf8.replacement else Char.ofNat code

def escaped : Scan (List Char) := do
  forward 1
  let c ← peek
  if let some code := escapes.lookup c then
    forward 1
    return [Char.ofNat code]
  if let some count := [('x', 2), ('u', 4), ('U', 8)].lookup c then
    forward 1
    let code ← hexDigits count
    return [← characterOf code]
  match ← lineBreak? with
  | some _ => quotedBreaks
  | none => malformed

def isQuotedPlain (c : Char) : Bool :=
  !(isGap c || c == '\'' || c == '"' || c == '\\')

def quotedRun (double : Bool) : Scan (List Char) :=
  repeatFrom [] fun text => do
    let text := text ++ (← takeWhile isQuotedPlain)
    let c ← peek
    if !double && c == '\'' && (← peekAt 1) == '\'' then
      forward 2
      return (text ++ ['\''], true)
    else if (double && c == '\'') || (!double && (c == '"' || c == '\\')) then
      forward 1
      return (text ++ [c], true)
    else if double && c == '\\' then
      return (text ++ (← escaped), true)
    else
      return (text, false)

def quotedSpaces : Scan (List Char) := do
  let blanks ← takeWhile fun c => c == ' ' || c == '\t'
  match ← lineBreak? with
  | some first => return foldBreaks first (← quotedBreaks)
  | none =>
    if (← peek) == endMark then malformed
    return blanks

def quotedScalar (double : Bool) : Scan Token := do
  let quote := if double then '"' else '\''
  forward 1
  let first ← quotedRun double
  let text ← repeatFrom first fun text => do
    if (← peek) == quote then
      return (text, false)
    let spaces ← quotedSpaces
    let run ← quotedRun double
    return (text ++ spaces ++ run, true)
  forward 1
  return .scalar (String.ofList text) false

def restOfLine : Scan Unit := do
  skipWhile (· == ' ')
  if (← peek) == '#' then
    skipWhile fun c => !isBreakOrEnd c
  if !isBreakOrEnd (← peek) then malformed
  let _ ← lineBreak?

inductive Chomping where
  | clip
  | strip
  | keep
deriving DecidableEq

def chomping? : Scan (Option Chomping) := do
  let c ← peek
  if c == '+' || c == '-' then
    forward 1
    return some (if c == '+' then .keep else .strip)
  else
    return none

def increment? : Scan (Option Nat) := do
  let c ← peek
  if c.isDigit then
    if c == '0' then malformed
    forward 1
    return some (c.toNat - 0x30)
  else
    return none

def blockHeader : Scan (Chomping × Option Nat) := do
  let before ← chomping?
  let increment ← increment?
  let after ← if before.isNone && increment.isSome then chomping? else pure none
  let c ← peek
  if c != ' ' && !isBreakOrEnd c then malformed
  return ((before <|> after).getD .clip, increment)

def blockIndentation : Scan (List Char × Nat) :=
  repeatFrom ([], 0) fun (breaks, deepest) => do
    if (← peek) == ' ' then
      forward 1
      return ((breaks, max deepest (← get).column), true)
    match ← lineBreak? with
    | some c => return ((breaks ++ [c], deepest), true)
    | none => return ((breaks, deepest), false)

def skipIndent (indent : Nat) : Scan Unit := do
  let missing := indent - (← get).column
  let spaces := ((← get).rest.take missing).takeWhile (· == ' ')
  forward spaces.length

def blockBreaks (indent : Nat) : Scan (List Char) := do
  skipIndent indent
  repeatFrom [] fun breaks => do
    match ← lineBreak? with
    | some c =>
      skipIndent indent
      return (breaks ++ [c], true)
    | none => return (breaks, false)

structure BlockText where
  text : List Char
  last : List Char
  breaks : List Char

def blockLine (folded : Bool) (indent : Nat) (block : BlockText) : Scan (BlockText × Bool) := do
  let atLine : Scan Bool := do
    return (← get).column == indent && (← peek) != endMark
  if !(← atLine) then
    return (block, false)
  let first ← peek
  let line ← takeWhile fun c => !isBreakOrEnd c
  let last := (← lineBreak?).toList
  let breaks ← blockBreaks indent
  let text := block.text ++ block.breaks ++ line
  if ← atLine then
    let next ← peek
    let joins := folded && last == ['\n'] && first != ' ' && first != '\t' &&
      next != ' ' && next != '\t'
    let separator := if !joins then last else if breaks.isEmpty then [' '] else []
    return ({ text := text ++ separator, last, breaks }, true)
  else
    return ({ text, last, breaks }, false)

def blockScalar (folded : Bool) : Scan Token := do
  forward 1
  let (chomping, increment) ← blockHeader
  restOfLine
  let least := max 1 ((← get).indent + 1).toNat
  let (breaks, indent) ← match increment with
    | none => do
      let (breaks, deepest) ← blockIndentation
      pure (breaks, max least deepest)
    | some increment => do
      let indent := least + increment - 1
      pure (← blockBreaks indent, indent)
  let block ← repeatFrom { text := [], last := [], breaks } (blockLine folded indent)
  let text := match chomping with
    | .strip => block.text
    | .clip => block.text ++ block.last
    | .keep => block.text ++ block.last ++ block.breaks
  return .scalar (String.ofList text) false

def anchorName : Scan String := do
  forward 1
  let name ← takeWhile isNameChar
  let next ← peek
  if name.isEmpty || !(isGap next || "?:,]\x7d%@`".toList.contains next) then
    malformed
  return String.ofList name

def isUriChar (c : Char) : Bool :=
  c.isAlphanum || "-;/?:@&=+$,_.!~*'()[]".toList.contains c

def uriEscapes : Scan (List Char) := do
  let bytes ← repeatFrom ([] : Text.Bytes) fun bytes => do
    if (← peek) == '%' then
      forward 1
      let value ← hexDigits 2
      return (bytes ++ [UInt8.ofNat value], true)
    else
      return (bytes, false)
  match Text.Utf8.decode? bytes with
  | .ok text => return text
  | .error _ => malformed

def tagUri : Scan String := do
  let text ← repeatFrom [] fun text => do
    let run ← takeWhile isUriChar
    let escapes ← uriEscapes
    return (text ++ run ++ escapes, !(run.isEmpty && escapes.isEmpty))
  if text.isEmpty then malformed
  return String.ofList text

def tagHandle : Scan String := do
  if (← peek) != '!' then malformed
  forward 1
  if (← peek) == ' ' then
    return "!"
  let name ← takeWhile isNameChar
  if (← peek) == '!' then
    forward 1
    return "!" ++ String.ofList name ++ "!"
  else
    malformed

def tag : Scan Token := do
  let next ← peekAt 1
  let token ←
    if next == '<' then do
      forward 2
      let uri ← tagUri
      if (← peek) != '>' then malformed
      forward 1
      pure (Token.tag none uri)
    else if isGap next then do
      forward 1
      pure (Token.tag none "!")
    else do
      let word := ((← get).rest.drop 1).takeWhile fun c => c != ' ' && !isBreakOrEnd c
      let handle ← if word.contains '!' then tagHandle else do
        forward 1
        pure "!"
      pure (Token.tag (some handle) (← tagUri))
  let c ← peek
  if c != ' ' && !isBreakOrEnd c then malformed
  return token

def versionNumber : Scan Nat := do
  let digits ← takeWhile Char.isDigit
  if digits.isEmpty then malformed
  return digits.foldl (fun value digit => value * 10 + (digit.toNat - 0x30)) 0

def needGap : Scan Unit := do
  let c ← peek
  if c != ' ' && !isBreakOrEnd c then malformed

def directive : Scan Token := do
  forward 1
  let name ← takeWhile isNameChar
  if name.isEmpty then malformed
  needGap
  let found ←
    if name == "YAML".toList then do
      skipWhile (· == ' ')
      let major ← versionNumber
      if (← peek) != '.' then malformed
      forward 1
      let minor ← versionNumber
      needGap
      pure (Directive.version major minor)
    else if name == "TAG".toList then do
      skipWhile (· == ' ')
      let handle ← tagHandle
      if (← peek) != ' ' then malformed
      skipWhile (· == ' ')
      let expansion ← tagUri
      needGap
      pure (Directive.tagHandle handle expansion)
    else do
      skipWhile fun c => !isBreakOrEnd c
      pure Directive.other
  restOfLine
  return .directive found

end FfiBindings.Yaml.Scan
