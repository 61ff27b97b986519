import FfiBindings.FfiType
import FfiBindings.Template.Error
import FfiBindings.Text.Quoted

set_option autoImplicit false

namespace FfiBindings.Template

inductive Datum where
  -- Nothing is known under a name; the message says so.
  | undefined (message : String)
  | nothing
  | truth (value : Bool)
  | number (value : Int)
  | text (value : String)
  | type (value : FfiType)
  | list (items : List Datum)
  | tuple (items : List Datum)
  | record (kind : String) (fields derived : List (String × Datum))
deriving Repr, Inhabited

namespace Datum

def joined (pieces : List String) : String :=
  ", ".intercalate pieces

mutual

def literal : Datum → String
  | .undefined _ => "Undefined"
  | .nothing => "None"
  | .truth value => if value then "True" else "False"
  | .number value => toString value
  | .text value => Text.quote value
  | .type value => "<FFIType." ++ value.name ++ ": " ++ Text.quote value.name ++ ">"
  | .list items => "[" ++ joined (literals items) ++ "]"
  | .tuple [] => "()"
  | .tuple [item] => "(" ++ literal item ++ ",)"
  | .tuple (first :: second :: rest) =>
    "(" ++ joined (literal first :: literal second :: literals rest) ++ ")"
  | .record kind fields _ => kind ++ "(" ++ joined (fieldLiterals fields) ++ ")"

def literals : List Datum → List String
  | [] => []
  | item :: rest => literal item :: literals rest

def fieldLiterals : List (String × Datum) → List String
  | [] => []
  | field :: rest => fieldLiteral field :: fieldLiterals rest

def fieldLiteral : String × Datum → String
  | (name, value) => name ++ "=" ++ literal value

end

def shown : Datum → String
  | .undefined _ => ""
  | .text value => value
  | .type value => "FFIType." ++ value.name
  | datum => datum.literal

def text? : Datum → Option String
  | .text value => some value
  | .type value => some value.name
  | _ => none

def asText (datum : Datum) : String :=
  datum.text?.getD datum.shown

def isTrue : Datum → Bool
  | .undefined _ | .nothing => false
  | .truth value => value
  | .number value => value != 0
  | .text value => !value.isEmpty
  | .list items | .tuple items => !items.isEmpty
  | _ => true

def kind : Datum → String
  | .undefined _ => "Undefined"
  | .nothing => "NoneType"
  | .truth _ => "bool"
  | .number _ => "int"
  | .text _ => "str"
  | .type _ => "FFIType"
  | .list _ => "list"
  | .tuple _ => "tuple"
  | .record kind _ _ => kind

def items : Datum → Except TemplateError (List Datum)
  | .undefined _ => .ok []
  | .list items | .tuple items => .ok items
  | datum =>
    match datum.text? with
    | some found => .ok (found.toList.map fun c => .text c.toString)
    | none => .error (.wrongType s!"'{datum.kind}' object is not iterable")

def size : Datum → Except TemplateError Nat
  | .undefined _ => .ok 0
  | .list items | .tuple items => .ok items.length
  | datum =>
    match datum.text? with
    | some found => .ok found.length
    | none => .error (.wrongType s!"object of type '{datum.kind}' has no len()")

def field (datum : Datum) (name : String) : Except TemplateError Datum :=
  match datum with
  | .undefined message => .error (.undefined message)
  | .record kind fields derived =>
    .ok (((fields ++ derived).lookup name).getD
      (.undefined s!"'{kind} object' has no attribute '{name}'"))
  | .type value =>
    if name == "value" || name == "name" then .ok (.text value.name)
    else .ok (.undefined s!"'FFIType object' has no attribute '{name}'")
  | datum => .ok (.undefined s!"'{datum.kind} object' has no attribute '{name}'")

def item (datum index : Datum) : Except TemplateError Datum :=
  match datum, index with
  | .list items, .number position | .tuple items, .number position =>
    if position < 0 then
      .ok (items.reverse.getD (position.natAbs - 1) (.undefined "list object has no such element"))
    else
      .ok (items.getD position.natAbs (.undefined "list object has no such element"))
  | datum, .text name => datum.field name
  | .undefined message, _ => .error (.undefined message)
  | datum, _ => .ok (.undefined s!"'{datum.kind} object' has no such element")

mutual

def same : Datum → Datum → Bool
  | .nothing, .nothing => true
  | .truth first, .truth second => first == second
  | .number first, .number second => first == second
  | .truth first, .number second => second == (if first then 1 else 0)
  | .number first, .truth second => first == (if second then 1 else 0)
  | .list first, .list second => sameItems first second
  | .tuple first, .tuple second => sameItems first second
  | .undefined _, .undefined _ => true
  | .text first, second => second.text? == some first
  | .type first, second => second.text? == some first.name
  | _, _ => false

def sameItems : List Datum → List Datum → Bool
  | [], [] => true
  | first :: rest, second :: others => same first second && sameItems rest others
  | _, _ => false

end

end Datum

end FfiBindings.Template
