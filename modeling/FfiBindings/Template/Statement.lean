import FfiBindings.Template.Expression

set_option autoImplicit false

namespace FfiBindings.Template

inductive Statement where
  | text (content : String)
  | output (value : Expression)
  | loop (targets : List String) (items : Expression) (condition : Option Expression)
      (body otherwise : List Statement)
  | choice (branches : List (Expression × List Statement)) (otherwise : List Statement)
  | assign (target : String) (value : Expression)
deriving Repr

namespace Statement

abbrev Read := StateT (List Segment) (Except TemplateError)

def fail {α : Type} (message : String) : Read α :=
  throw (.malformed message)

def whole {α : Type} (read : Expression.Read α) (lexemes : List Lexeme) :
    Except TemplateError α := do
  let (value, rest) ← read.run lexemes
  match rest with
  | [] => return value
  | lexeme :: _ =>
    throw (.malformed s!"expected token 'end of statement block', got '{lexeme.shown}'")

def moreTargets : Nat → Expression.Read (List String)
  | 0 => return []
  | fuel + 1 => do
    if ← Expression.accept (.symbol ",") then
      match ← Expression.peek with
      | some (.name "in") => return []
      | _ => return (← Expression.takeName) :: (← moreTargets fuel)
    else
      return []

def targets (fuel : Nat) : Expression.Read (List String) := do
  let bracketed ← Expression.accept (.symbol "(")
  let first ← Expression.takeName
  let others ← moreTargets fuel
  if bracketed then Expression.expect ")"
  return first :: others

def loopHead (lexemes : List Lexeme) :
    Except TemplateError (List String × Expression × Option Expression) :=
  let fuel := Expression.fuelFor lexemes
  whole (do
    let names ← targets fuel
    if !(← Expression.accept (.name "in")) then
      Expression.fail "expected token 'in'"
    let items ← Expression.disjunction fuel
    let condition ←
      if ← Expression.accept (.name "if") then some <$> Expression.expression fuel else pure none
    return (names, items, condition)) lexemes

def assignment (lexemes : List Lexeme) : Except TemplateError (String × Expression) :=
  let fuel := Expression.fuelFor lexemes
  whole (do
    let target ← Expression.takeName
    Expression.expect "="
    return (target, ← Expression.expression fuel)) lexemes

structure Stop where
  word : Option String
  lexemes : List Lexeme

def requireEnd (stop : Stop) : Read Unit :=
  match stop.lexemes with
  | [] => pure ()
  | lexeme :: _ => fail s!"expected token 'end of statement block', got '{lexeme.shown}'"

def endingWords : List String := ["endfor", "endif", "else", "elif"]

mutual

def statements : Nat → Read (List Statement × Stop)
  | 0 => fail "template too deep"
  | fuel + 1 => do
    match ← get with
    | [] => return ([], { word := none, lexemes := [] })
    | .plain content :: rest =>
      set rest
      let (others, stop) ← statements fuel
      return (.text content :: others, stop)
    | .output lexemes :: rest =>
      set rest
      let value ← (Expression.ofLexemes lexemes : Except TemplateError Expression)
      let (others, stop) ← statements fuel
      return (.output value :: others, stop)
    | .statement lexemes :: rest =>
      set rest
      match lexemes with
      | .name word :: lexemes =>
        if endingWords.contains word then
          return ([], { word := some word, lexemes })
        else
          let first ← statement fuel word lexemes
          let (others, stop) ← statements fuel
          return (first :: others, stop)
      | _ => fail "tag name expected"

def statement : Nat → String → List Lexeme → Read Statement
  | 0, _, _ => fail "template too deep"
  | fuel + 1, word, lexemes => do
    match word with
    | "for" =>
      let (names, items, condition) ←
        (loopHead lexemes : Except TemplateError (List String × Expression × Option Expression))
      let (body, stop) ← statements fuel
      match stop.word with
      | some "endfor" =>
        requireEnd stop
        return .loop names items condition body []
      | some "else" =>
        requireEnd stop
        let (otherwise, stop) ← statements fuel
        if stop.word != some "endfor" then fail "Encountered unknown tag in a loop"
        requireEnd stop
        return .loop names items condition body otherwise
      | _ => fail "Unexpected end of template: a loop is not closed"
    | "if" =>
      let condition ← (Expression.ofLexemes lexemes : Except TemplateError Expression)
      let (branches, otherwise) ← branches fuel condition
      return .choice branches otherwise
    | "set" =>
      let (target, value) ← (assignment lexemes : Except TemplateError (String × Expression))
      return .assign target value
    | _ => fail s!"Encountered unknown tag '{word}'."

def branches : Nat → Expression →
    Read (List (Expression × List Statement) × List Statement)
  | 0, _ => fail "template too deep"
  | fuel + 1, condition => do
    let (body, stop) ← statements fuel
    match stop.word with
    | some "endif" =>
      requireEnd stop
      return ([(condition, body)], [])
    | some "elif" =>
      let next ← (Expression.ofLexemes stop.lexemes : Except TemplateError Expression)
      let (others, otherwise) ← branches fuel next
      return ((condition, body) :: others, otherwise)
    | some "else" =>
      requireEnd stop
      let (otherwise, stop) ← statements fuel
      if stop.word != some "endif" then fail "Encountered unknown tag in a choice"
      requireEnd stop
      return ([(condition, body)], otherwise)
    | _ => fail "Unexpected end of template: a choice is not closed"

end

def ofText (source : List Char) : Except TemplateError (List Statement) := do
  let segments ← Segment.ofText source
  let ((found, stop), _) ← (statements (4 * segments.length + 4)).run segments
  match stop.word with
  | none => return found
  | some word => throw (.malformed s!"Encountered unknown tag '{word}'.")

end Statement

end FfiBindings.Template
