import FfiBindings.Number.Double
import FfiBindings.Text.Utf8
import FfiBindings.Value.Moment

set_option autoImplicit false

namespace FfiBindings

inductive Value where
  | null
  | bool (value : Bool)
  | int (value : Int)
  | float (value : Double)
  | text (value : String)
  | bytes (value : Text.Bytes)
  | date (value : Date)
  | moment (value : Moment)
  | list (items : List Value)
  | pair (first second : Value)
  | dict (entries : List (Value × Value))
  | set (members : List Value)
  | loop (keyed : Bool)
deriving Repr, Inhabited

namespace Value

def isWhole (number : Double) (whole : Int) : Bool :=
  match number with
  | .finite negative mantissa exponent =>
    let (numerator, denominator) := Double.fraction mantissa exponent
    let signed : Int := if negative then -numerator else numerator
    signed == whole * denominator
  | _ => false

def sameNumber : Double → Double → Bool
  | .finite _ 0 _, .finite _ 0 _ => true
  | .nan, _ => false
  | first, second => first == second

def whole? : Value → Option Int
  | .bool value => some (if value then 1 else 0)
  | .int value => some value
  | _ => none

def sameKey : Value → Value → Bool
  | .null, .null => true
  | .text first, .text second => first == second
  | .bytes first, .bytes second => first == second
  | .date first, .date second => first == second
  | .moment first, .moment second => first.same second
  | .float first, .float second => sameNumber first second
  | .float number, other | other, .float number =>
    match other.whole? with
    | some whole => isWhole number whole
    | none => false
  | first, second =>
    match first.whole?, second.whole? with
    | some whole, some other => whole == other
    | _, _ => false

def isKey : Value → Bool
  | .list _ | .dict _ | .set _ | .loop _ => false
  | .pair first second => first.isKey && second.isKey
  | _ => true

abbrev Entries := List (Value × Value)

-- Set a key: in place if it is there, else at the end.
def insert (key value : Value) : Entries → Entries
  | [] => [(key, value)]
  | (key', value') :: rest =>
    if sameKey key key' then (key', value) :: rest else (key', value') :: insert key value rest

def entriesOf (pairs : List (Value × Value)) : Entries :=
  pairs.foldl (fun entries pair => insert pair.1 pair.2 entries) []

def get? (entries : Entries) (name : String) : Option Value :=
  (entries.find? fun entry => sameKey (.text name) entry.1).map (·.2)

def isGiven : Value → Bool
  | .null => false
  | .bool value => value
  | .int value => value != 0
  | .float value => !isWhole value 0
  | .text value => !value.isEmpty
  | .bytes value => !value.isEmpty
  | .list items => !items.isEmpty
  | .dict entries => !entries.isEmpty
  | .set members => !members.isEmpty
  | _ => true

end Value

end FfiBindings
