import FfiBindings.FfiType
import FfiBindings.Number.Numeral
import FfiBindings.Text.Casing
import FfiBindings.Value.Text

set_option autoImplicit false

namespace FfiBindings.Value

-- Every whole number is taken to have a text; an interpreter may refuse one of more than 4300
-- digits, which only a numeral in another base can bring in.
def text? (value : Value) : Option String :=
  match value with
  | .text _ | .int _ | .float _ | .bool _ => some value.shown
  | _ => none

-- A whole number that exceeds every number with a point.
structure Overflow where
deriving DecidableEq, Repr

def Overflow.message (_ : Overflow) : String :=
  "int too large to convert to float"

def number? : Value → Except Overflow (Option Double)
  | .int value =>
    match Double.ofInt value with
    | .infinite _ => .error {}
    | number => .ok (some number)
  | .float value => .ok (some value)
  | .text value => .ok (Numeral.double? value)
  | _ => .ok none

def truth? : Value → Option Bool
  | .bool value => some value
  | .text value =>
    let word := Text.lower (Text.trim value)
    if ["true", "yes", "1"].contains word then some true
    else if ["false", "no", "0"].contains word then some false
    else none
  | _ => none

-- The texts of a list, or a single text. Of bytes, every byte is an item.
def texts : Value → List String
  | .text value => [value]
  | .list items => items.filterMap text?
  | .bytes value => value.map fun byte => toString byte.toNat
  | _ => []

def entries : Value → Entries
  | .dict entries => entries
  | _ => []

end FfiBindings.Value

namespace FfiBindings

structure UnknownTarget where
  token : String
  target : String
deriving DecidableEq, Repr

def UnknownTarget.message (error : UnknownTarget) : String :=
  let known := ", ".intercalate (FfiType.all.map FfiType.name)
  s!"Type alias '{error.token}' targets unknown FFI type '{error.target}'; " ++
    s!"expected one of: {known}"

namespace TypeAliases

def insert (token target : String) : TypeAliases → TypeAliases
  | [] => [(token, target)]
  | (token', target') :: rest =>
    if token == token' then (token, target) :: rest
    else (token', target') :: insert token target rest

-- Add the entries of a dictionary one by one; a later entry for the same words wins.
def addAll (aliases : TypeAliases) : List (Value × Value) → Except UnknownTarget TypeAliases
  | [] => .ok aliases
  | (token, target) :: rest =>
    match target.text?.bind FfiType.ofName? with
    -- The message shows the target as it was given, whatever kind of value it is.
    | none => .error { token := token.shown, target := target.shown }
    | some type => addAll (insert (Text.normalise token.shown) type.name aliases) rest

def ofValue (value : Value) : Except UnknownTarget TypeAliases :=
  addAll [] value.entries

end TypeAliases

end FfiBindings
