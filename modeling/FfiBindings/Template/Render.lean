import FfiBindings.Template.Datum
import FfiBindings.Template.Statement
import FfiBindings.Text.Casing

set_option autoImplicit false

namespace FfiBindings.Template

abbrev Scope := List (String × Datum)

def standardFilters : List String :=
  ["map", "join", "length", "count", "upper", "lower", "trim", "first", "last", "list", "default",
   "d", "string"]

structure Context where
  scope : Scope
  typeFilter : Bool := true

def Context.knows (context : Context) (filter : String) : Bool :=
  standardFilters.contains filter || (context.typeFilter && filter == "ffi")

def Context.find (context : Context) (name : String) : Datum :=
  (context.scope.lookup name).getD (.undefined s!"'{name}' is undefined")

def Context.with (context : Context) (values : Scope) : Context :=
  { context with scope := values ++ context.scope }

def typeText : Datum → Except TemplateError Datum
  | .type value => .ok (.text ("$FFIType." ++ value.name))
  | .undefined message => .error (.undefined message)
  | datum => .error (.wrongAttribute s!"'{datum.kind}' object has no attribute 'value'")

def simpleFilter (name : String) (value : Datum) : Except TemplateError Datum :=
  match name with
  | "ffi" => typeText value
  | "upper" => .ok (.text (Text.upper value.asText))
  | "lower" => .ok (.text (Text.lower value.asText))
  | "trim" => .ok (.text (Text.trim value.asText))
  | "string" => .ok (.text value.asText)
  | "length" | "count" => return .number (← value.size)
  | "list" => return .list (← value.items)
  | "first" => return (← value.items).headD (.undefined "No first item, sequence was empty.")
  | "last" => return (← value.items).getLastD (.undefined "No last item, sequence was empty.")
  | _ => .error (.failed s!"No filter named '{name}'.")

def joinFilter (value : Datum) (separator : String) (member : Option String) :
    Except TemplateError Datum := do
  let items ← value.items
  let items ← match member with
    | some name => items.mapM fun item => item.field name
    | none => pure items
  return .text (separator.intercalate (items.map Datum.shown))

def mapFilter (value : Datum) (arguments : List Datum) (named : Scope) :
    Except TemplateError Datum := do
  let items ← value.items
  match arguments, named.lookup "attribute" with
  | filter :: rest, _ =>
    match filter.text?, rest with
    | some "join", separator :: _ =>
      return .list (← items.mapM fun item => joinFilter item separator.shown none)
    | some "join", [] => return .list (← items.mapM fun item => joinFilter item "" none)
    | some name, _ => return .list (← items.mapM (simpleFilter name))
    | none, _ => throw (.failed "map requires a filter argument")
  | [], some member => return .list (← items.mapM fun item => item.field member.shown)
  | [], none => throw (.failed "map requires a filter argument")

def applyFilter (name : String) (value : Datum) (arguments : List Datum) (named : Scope) :
    Except TemplateError Datum :=
  match name with
  | "map" => mapFilter value arguments named
  | "join" =>
    let separator := (arguments.head?.or (named.lookup "d")).map Datum.shown
    joinFilter value (separator.getD "") ((named.lookup "attribute").map Datum.shown)
  | "default" | "d" =>
    let fallback := arguments.headD (.text "")
    let strict := (arguments.getD 1 ((named.lookup "boolean").getD (.truth false))).isTrue
    match value with
    | .undefined _ => .ok fallback
    | _ => .ok (if strict && !value.isTrue then fallback else value)
  | _ => simpleFilter name value

def compareData (relation : Comparison) (first second : Datum) : Except TemplateError Datum :=
  let ordered (lessThan equal : Bool) : Bool := match relation with
    | .less => lessThan
    | .lessEqual => lessThan || equal
    | .greater => !(lessThan || equal)
    | _ => !lessThan
  match relation with
  | .equal => .ok (.truth (first.same second))
  | .unequal => .ok (.truth (!first.same second))
  | _ =>
    match first, second with
    | .number a, .number b => .ok (.truth (ordered (a < b) (a == b)))
    | _, _ =>
      match first.text?, second.text? with
      | some a, some b => .ok (.truth (ordered (a < b) (a == b)))
      | _, _ => .error (.wrongType "these values cannot be compared")

def addData : Datum → Datum → Except TemplateError Datum
  | .number first, .number second => .ok (.number (first + second))
  | .list first, .list second => .ok (.list (first ++ second))
  | first, second =>
    match first.text?, second.text? with
    | some a, some b => .ok (.text (a ++ b))
    | _, _ => .error (.wrongType "these values cannot be added")

def subtractData : Datum → Datum → Except TemplateError Datum
  | .number first, .number second => .ok (.number (first - second))
  | _, _ => .error (.wrongType "these values cannot be subtracted")

namespace Expression

mutual

def value (context : Context) : Expression → Except TemplateError Datum
  | .name word => .ok (context.find word)
  | .literal word => .ok (.text word)
  | .number count => .ok (.number count)
  | .truth flag => .ok (.truth flag)
  | .nothing => .ok .nothing
  | .list items => return .list (← values context items)
  | .member base field => do (← value context base).field field
  | .item base index => do
    let datum ← value context base
    datum.item (← value context index)
  | .filter base used arguments named => do
    -- A filter inside a choice is looked up only when the choice comes to it.
    if !context.knows used then
      throw (.failed s!"No filter named '{used}' found.")
    let datum ← value context base
    applyFilter used datum (← values context arguments) (← namedValues context named)
  | .not operand => return .truth !(← value context operand).isTrue
  | .and first second => do
    let datum ← value context first
    if datum.isTrue then value context second else return datum
  | .or first second => do
    let datum ← value context first
    if datum.isTrue then return datum else value context second
  | .compare relation first second => do
    let datum ← value context first
    compareData relation datum (← value context second)
  | .concat first second => do
    let datum ← value context first
    return .text (datum.shown ++ (← value context second).shown)
  | .sum first second => do
    let datum ← value context first
    addData datum (← value context second)
  | .difference first second => do
    let datum ← value context first
    subtractData datum (← value context second)
  | .choice condition positive negative => do
    if (← value context condition).isTrue then value context positive else value context negative

def values (context : Context) : List Expression → Except TemplateError (List Datum)
  | [] => .ok []
  | first :: rest => do
    let datum ← value context first
    return datum :: (← values context rest)

def namedValues (context : Context) : List (String × Expression) → Except TemplateError Scope
  | [] => .ok []
  | first :: rest => do
    let datum ← namedValue context first
    return datum :: (← namedValues context rest)

def namedValue (context : Context) : String × Expression → Except TemplateError (String × Datum)
  | (key, expression) => return (key, ← value context expression)

end

mutual

def filters : Expression → List String
  | .list items => filtersOfAll items
  | .member base _ => filters base
  | .item base index => filters base ++ filters index
  | .filter base used arguments named =>
    used :: filters base ++ filtersOfAll arguments ++ filtersOfNamed named
  | .not operand => filters operand
  | .and first second | .or first second | .compare _ first second | .concat first second
  | .sum first second | .difference first second => filters first ++ filters second
  | _ => []

def filtersOfAll : List Expression → List String
  | [] => []
  | first :: rest => filters first ++ filtersOfAll rest

def filtersOfNamed : List (String × Expression) → List String
  | [] => []
  | first :: rest => filtersOfPair first ++ filtersOfNamed rest

def filtersOfPair : String × Expression → List String
  | (_, expression) => filters expression

end

end Expression

def loopRecord (position count : Nat) : Datum :=
  .record "LoopContext" []
    [ ("index", .number (position + 1)), ("index0", .number position),
      ("revindex", .number (count - position)), ("revindex0", .number (count - position - 1)),
      ("first", .truth (position == 0)), ("last", .truth (position + 1 == count)),
      ("length", .number count), ("depth", .number 1), ("depth0", .number 0) ]

def bind (targets : List String) (item : Datum) : Except TemplateError Scope :=
  match targets with
  | [target] => .ok [(target, item)]
  | targets => do
    let parts ← item.items
    if parts.length < targets.length then
      throw (.wrongCount
        s!"not enough values to unpack (expected {targets.length}, got {parts.length})")
    if targets.length < parts.length then
      throw (.wrongCount s!"too many values to unpack (expected {targets.length})")
    return targets.zip parts

namespace Statement

mutual

def renderAll (context : Context) : List Statement → Except TemplateError String
  | [] => .ok ""
  | .assign target value :: rest => do
    let datum ← value.value context
    renderAll (context.with [(target, datum)]) rest
  | statement :: rest => do
    let text ← render context statement
    return text ++ (← renderAll context rest)

def render (context : Context) : Statement → Except TemplateError String
  | .text content => .ok content
  | .output value => return (← value.value context).shown
  | .assign _ _ => .ok ""
  | .loop targets items condition body otherwise => do
    let items ← (← items.value context).items
    -- The condition filters before the loop counts its rounds.
    let bound ← items.mapM (bind targets)
    let kept ← match condition with
      | none => pure bound
      | some condition => bound.filterM fun values => do
        return (← condition.value (context.with values)).isTrue
    if kept.isEmpty then
      renderAll context otherwise
    else
      let rounds ← kept.zipIdx.mapM fun (values, position) =>
        renderAll (context.with (values ++ [("loop", loopRecord position kept.length)])) body
      return String.join rounds
  | .choice branches otherwise => do
    match ← renderBranches context branches with
    | some found => return found
    | none => renderAll context otherwise

def renderBranches (context : Context) :
    List (Expression × List Statement) → Except TemplateError (Option String)
  | [] => .ok none
  | branch :: rest => do
    match ← renderBranch context branch with
    | some found => return some found
    | none => renderBranches context rest

def renderBranch (context : Context) :
    Expression × List Statement → Except TemplateError (Option String)
  | (condition, body) => do
    if (← condition.value context).isTrue then return some (← renderAll context body)
    else return none

end

mutual

def filtersOfAll (certain : Bool) : List Statement → List String
  | [] => []
  | first :: rest => filters certain first ++ filtersOfAll certain rest

def filters (certain : Bool) : Statement → List String
  | .text _ => []
  | .output value | .assign _ value => if certain then value.filters else []
  | .loop _ items condition body otherwise =>
    (if certain then items.filters else []) ++ (condition.map Expression.filters).getD [] ++
      filtersOfAll true body ++ filtersOfAll true otherwise
  | .choice branches otherwise => filtersOfBranches branches ++ filtersOfAll false otherwise

def filtersOfBranches : List (Expression × List Statement) → List String
  | [] => []
  | branch :: rest => filtersOfBranch branch ++ filtersOfBranches rest

def filtersOfBranch : Expression × List Statement → List String
  | (_, body) => filtersOfAll false body

end

end Statement

def renderText (context : Context) (source : List Char) : Except TemplateError String := do
  let statements ← Statement.ofText source
  match (Statement.filtersOfAll true statements).find? fun name => !context.knows name with
  | some name => throw (.unknownFilter name)
  | none => Statement.renderAll context statements

end FfiBindings.Template
