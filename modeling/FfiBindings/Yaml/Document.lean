import FfiBindings.Yaml.Node
import FfiBindings.Yaml.Scalar
import FfiBindings.Yaml.Tokens

-- Outer nodes are evaluated before inner ones, so of several faults the one nearest to the root
-- counts, and of those at one depth the first.

set_option autoImplicit false

namespace FfiBindings.Yaml

structure DeepFault where
  depth : Nat
  fault : Fault
deriving DecidableEq, Repr

abbrev Attempt (α : Type) := Except DeepFault α

namespace Attempt

variable {α β : Type}

def malformed (depth : Nat) : Attempt α :=
  .error { depth, fault := .malformed }

def atDepth (depth : Nat) : Except Fault α → Attempt α
  | .ok value => .ok value
  | .error fault => .error { depth, fault }

-- Both results, or the fault that counts.
def both (first : Attempt α) (second : Attempt β) : Attempt (α × β) :=
  match first, second with
  | .ok a, .ok b => .ok (a, b)
  -- At equal depth the first one counts.
  | .error e, .error e' => .error (if e'.depth < e.depth then e' else e)
  | .error e, .ok _ => .error e
  | .ok _, .error e => .error e

def all : List (Attempt α) → Attempt (List α)
  | [] => .ok []
  | attempt :: rest => (fun pair => pair.1 :: pair.2) <$> both attempt (all rest)

end Attempt

-- Types whose nodes are filled after the node around them.
def Tag.isCollection : Tag → Bool
  | .sequence | .mapping | .set | .orderedMapping | .pairs => true
  | _ => false

namespace Node

def text? : Node → Option String
  | .scalar _ text => some text
  | .mapping _ entries => entryText? entries
  | _ => none
where
  entryText? : List (Node × Node) → Option String
    | [] => none
    | entry :: rest => (defaultText? entry).getD (entryText? rest)
  defaultText? : Node × Node → Option (Option String)
    | (.scalar .value _, node) => some (text? node)
    | _ => none

-- A key is a scalar value; a collection is refused before it is filled.
def keyAttempt (depth : Nat) : Attempt Value → Attempt Value
  | .ok value => if value.isKey then .ok value else Attempt.malformed depth
  | .error e => if depth < e.depth then Attempt.malformed depth else .error e

abbrev EntryAttempt := Attempt (Value × Value)

-- Entries of a mapping, the merged ones apart; nothing if what is to be merged is no mapping.
abbrev Merge := Option (List EntryAttempt × List EntryAttempt)

def Merge.entries (merge : Merge) : Option (List EntryAttempt) :=
  merge.map fun parts => parts.1 ++ parts.2

def Merge.append : Merge → Merge → Merge
  | some (merged, own), some (merged', own') => some (merged ++ merged', own ++ own')
  | _, _ => none

def dictOf (depth : Nat) (merge : Merge) : Attempt (List (Value × Value)) :=
  match merge.entries with
  | none => Attempt.malformed depth
  | some entries => Value.entriesOf <$> Attempt.all entries

mutual

def value : Node → Nat → Attempt Value
  | .scalar tag text, depth =>
    if tag.isCollection then Attempt.malformed (depth + 1)
    else Attempt.atDepth depth (Scalar.value tag text)
  | .loop keyed, _ => .ok (.loop keyed)
  | .sequence tag items, depth =>
    match tag with
    | .sequence => .list <$> Attempt.all (values items (depth + 1))
    | .orderedMapping | .pairs => .list <$> Attempt.all (pairs items (depth + 1))
    | .mapping | .set => Attempt.malformed (depth + 1)
    | _ => Attempt.malformed depth
  | .mapping tag entries, depth =>
    match tag with
    | .mapping => .dict <$> dictOf (depth + 1) (mappingEntries entries (depth + 1))
    | .set =>
      (fun found => .set (found.map (·.1))) <$>
        dictOf (depth + 1) (mappingEntries entries (depth + 1))
    | .sequence | .orderedMapping | .pairs => Attempt.malformed (depth + 1)
    | _ =>
      match text?.entryText? entries with
      | some text => Attempt.atDepth depth (Scalar.value tag text)
      | none => Attempt.malformed depth

def values : List Node → Nat → List (Attempt Value)
  | [], _ => []
  | item :: rest, depth => value item depth :: values rest depth

def pairs : List Node → Nat → List (Attempt Value)
  | [], _ => []
  | item :: rest, depth => pair item depth :: pairs rest depth

def pair : Node → Nat → Attempt Value
  | .mapping _ entries, depth =>
    match pairEntries entries depth with
    | [attempt] => attempt
    | _ => Attempt.malformed depth
  | _, depth => Attempt.malformed depth

def pairEntries : List (Node × Node) → Nat → List (Attempt Value)
  | [], _ => []
  | entry :: rest, depth => pairEntry entry depth :: pairEntries rest depth

def pairEntry : Node × Node → Nat → Attempt Value
  | (key, node), depth =>
    (fun both => .pair both.1 both.2) <$> Attempt.both (value key depth) (value node depth)

def mappingEntries : List (Node × Node) → Nat → Merge
  | [], _ => some ([], [])
  | entry :: rest, depth => (mappingEntry entry depth).append (mappingEntries rest depth)

def mappingEntry : Node × Node → Nat → Merge
  | (.scalar .merge _, source), depth => (mergeSource source depth).map fun entries => (entries, [])
  | (.scalar .value text, node), depth =>
    some ([], [Attempt.both (.ok (.text text)) (value node depth)])
  | (key, node), depth =>
    some ([], [Attempt.both (keyAttempt depth (value key depth)) (value node depth)])

-- The entries to merge from one mapping, or from a list of mappings, of which the first wins.
def mergeSource : Node → Nat → Option (List EntryAttempt)
  | .mapping _ entries, depth => Merge.entries (mappingEntries entries depth)
  | .sequence _ items, depth => mergeSources items depth
  | .loop keyed, _ => if keyed then some [] else none
  | .scalar _ _, _ => none

def mergeSources : List Node → Nat → Option (List EntryAttempt)
  | [], _ => some []
  | item :: rest, depth =>
    match mergeItem item depth, mergeSources rest depth with
    -- Later entries override earlier ones, so the first mapping comes last.
    | some first, some others => some (others ++ first)
    | _, _ => none

def mergeItem : Node → Nat → Option (List EntryAttempt)
  | .mapping _ entries, depth => Merge.entries (mappingEntries entries depth)
  | .loop keyed, _ => if keyed then some [] else none
  | _, _ => none

end

end Node

def load (text : List Char) : Except Fault Value := do
  match ← Node.ofTokens (← tokens text) with
  | none => return .null
  | some root =>
    match root.value 0 with
    | .ok value => return value
    | .error e => throw e.fault

end FfiBindings.Yaml
