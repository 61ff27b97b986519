import FfiBindings.Yaml.Fault
import FfiBindings.Yaml.Token

set_option autoImplicit false

namespace FfiBindings.Yaml

def endMark : Char := Char.ofNat 0

def isBreak (c : Char) : Bool :=
  c == '\n' || c == '\r' || c.toNat == 0x85 || c.toNat == 0x2028 || c.toNat == 0x2029

def isBreakOrEnd (c : Char) : Bool :=
  c == endMark || isBreak c

def isGap (c : Char) : Bool :=
  c == ' ' || c == '\t' || isBreakOrEnd c

-- A token that becomes a mapping key if a colon follows it.
structure PendingKey where
  tokenNumber : Nat
  required : Bool
  index : Nat
  line : Nat
  column : Nat
deriving Repr

structure Scanner where
  rest : List Char
  index : Nat := 0
  line : Nat := 0
  column : Nat := 0
  flowLevel : Nat := 0
  indent : Int := -1
  outerIndents : List Int := []
  keyAllowed : Bool := true
  pendingKeys : List (Nat × PendingKey) := []
  tokens : Array Token := #[]

abbrev Scan := StateT Scanner (Except Fault)

namespace Scan

def malformed {α : Type} : Scan α :=
  throw .malformed

def peekAt (offset : Nat) : Scan Char :=
  return (← get).rest.getD offset endMark

def peek : Scan Char :=
  peekAt 0

def afterChar (scanner : Scanner) (c : Char) (rest : List Char) : Scanner :=
  let moved := { scanner with rest, index := scanner.index + 1 }
  if c == '\n' || c.toNat == 0x85 || c.toNat == 0x2028 || c.toNat == 0x2029 ||
      (c == '\r' && rest.head? != some '\n') then
    { moved with line := scanner.line + 1, column := 0 }
  -- A byte order mark takes no column.
  else if c.toNat == 0xFEFF then
    moved
  else
    { moved with column := scanner.column + 1 }

def forward : Nat → Scan Unit
  | 0 => pure ()
  | count + 1 => do
    let scanner ← get
    match scanner.rest with
    | [] => pure ()
    | c :: rest =>
      set (afterChar scanner c rest)
      forward count

def takeWhile (keep : Char → Bool) : Scan (List Char) := do
  let run := (← get).rest.takeWhile keep
  forward run.length
  return run

def skipWhile (keep : Char → Bool) : Scan Unit := do
  let _ ← takeWhile keep

-- Repeat a step until it answers that it is done; the text ahead bounds the repetitions.
def iterate {α : Type} (step : α → Scan (α × Bool)) : Nat → α → Scan α
  | 0, _ => malformed
  | fuel + 1, state => do
    let (next, more) ← step state
    if more then iterate step fuel next else return next

def repeatFrom {α : Type} (state : α) (step : α → Scan (α × Bool)) : Scan α := do
  iterate step ((← get).rest.length + 2) state

def lineBreak? : Scan (Option Char) := do
  let c ← peek
  if c == '\r' && (← peekAt 1) == '\n' then
    forward 2
    return some '\n'
  else if c == '\n' || c == '\r' || c.toNat == 0x85 then
    forward 1
    return some '\n'
  else if c.toNat == 0x2028 || c.toNat == 0x2029 then
    forward 1
    return some c
  else
    return none

def atSeparator : Scan Bool := do
  match (← get).rest with
  | a :: b :: c :: rest =>
    let marker := [a, b, c]
    return (marker == ['-', '-', '-'] || marker == ['.', '.', '.']) && isGap (rest.headD endMark)
  | _ => return false

def emit (token : Token) : Scan Unit :=
  modify fun scanner => { scanner with tokens := scanner.tokens.push token }

def insertTokens (number : Nat) (tokens : List Token) : Scan Unit :=
  modify fun scanner =>
    let found := scanner.tokens.toList
    { scanner with tokens := (found.take number ++ tokens ++ found.drop number).toArray }

def setKeyAllowed (allowed : Bool) : Scan Unit :=
  modify fun scanner => { scanner with keyAllowed := allowed }

def unwindIndent (column : Int) : Scan Unit := do
  let scanner ← get
  -- Inside brackets indentation means nothing.
  if scanner.flowLevel == 0 then
    let closed := (scanner.indent :: scanner.outerIndents).takeWhile (column < ·)
    match (scanner.indent :: scanner.outerIndents).drop closed.length with
    | indent :: outerIndents =>
      set { scanner with
        indent, outerIndents
        tokens := scanner.tokens ++ (closed.map fun _ => Token.blockEnd).toArray }
    | [] => malformed

def addIndent (column : Nat) : Scan Bool := do
  let scanner ← get
  if scanner.indent < column then
    set { scanner with
      indent := column, outerIndents := scanner.indent :: scanner.outerIndents }
    return true
  else
    return false

def removePendingKey : Scan Unit := do
  let scanner ← get
  match scanner.pendingKeys.lookup scanner.flowLevel with
  | some key =>
    if key.required then
      malformed
    else
      set { scanner with
        pendingKeys := scanner.pendingKeys.filter fun pending => pending.1 != scanner.flowLevel }
  | none => pure ()

def savePendingKey : Scan Unit := do
  if (← get).keyAllowed then
    removePendingKey
    modify fun scanner =>
      let key :=
        { tokenNumber := scanner.tokens.size
          -- At the indentation of its block nothing but a key can stand.
          required := scanner.flowLevel == 0 && scanner.indent == (scanner.column : Int)
          index := scanner.index
          line := scanner.line
          column := scanner.column }
      { scanner with pendingKeys := (scanner.flowLevel, key) :: scanner.pendingKeys }

-- A pending key does not outlive its line or 1024 characters.
def dropStaleKeys : Scan Unit := do
  let scanner ← get
  let stale (key : PendingKey) : Bool :=
    key.line != scanner.line || 1024 < scanner.index - key.index
  if scanner.pendingKeys.any fun pending => stale pending.2 && pending.2.required then
    malformed
  else
    set { scanner with
      pendingKeys := scanner.pendingKeys.filter fun pending => !stale pending.2 }

end Scan

end FfiBindings.Yaml
