import FfiBindings.Template.Segment

set_option autoImplicit false

namespace FfiBindings.Template

inductive Comparison where
  | equal | unequal | less | lessEqual | greater | greaterEqual
deriving DecidableEq, Repr

inductive Expression where
  | name (text : String)
  | literal (text : String)
  | number (value : Int)
  | truth (value : Bool)
  | nothing
  | list (items : List Expression)
  | member (base : Expression) (name : String)
  | item (base index : Expression)
  | filter (base : Expression) (name : String) (arguments : List Expression)
      (named : List (String × Expression))
  | not (operand : Expression)
  | and (first second : Expression)
  | or (first second : Expression)
  | compare (relation : Comparison) (first second : Expression)
  | concat (first second : Expression)
  | sum (first second : Expression)
  | difference (first second : Expression)
  | choice (condition positive negative : Expression)
deriving Repr

namespace Expression

abbrev Read := StateT (List Lexeme) (Except TemplateError)

def fail {α : Type} (message : String) : Read α :=
  throw (.malformed message)

def peek : Read (Option Lexeme) :=
  return (← get).head?

def advance : Read Unit :=
  modify List.tail

def accept (lexeme : Lexeme) : Read Bool := do
  if (← peek) == some lexeme then
    advance
    return true
  else
    return false

def expect (symbol : String) : Read Unit := do
  if !(← accept (.symbol symbol)) then
    match ← peek with
    | some lexeme => fail s!"expected token '{symbol}', got '{lexeme.shown}'"
    | none => fail s!"expected token '{symbol}', got 'end of statement block'"

def takeName : Read String := do
  match ← peek with
  | some (.name text) =>
    advance
    return text
  | some lexeme => fail s!"expected token 'name', got '{lexeme.shown}'"
  | none => fail "expected token 'name', got 'end of statement block'"

def literalOf? : Lexeme → Option String
  | .literal text => some text
  | _ => none

def takeLiterals : Read (List String) := do
  let ahead := (← get).takeWhile fun lexeme => (literalOf? lexeme).isSome
  modify (List.drop ahead.length)
  return ahead.filterMap literalOf?

def comparison? : Option Lexeme → Option Comparison
  | some (.symbol "==") => some .equal
  | some (.symbol "!=") => some .unequal
  | some (.symbol "<") => some .less
  | some (.symbol "<=") => some .lessEqual
  | some (.symbol ">") => some .greater
  | some (.symbol ">=") => some .greaterEqual
  | _ => none

mutual

def expression : Nat → Read Expression
  | 0 => fail "expression too deep"
  | fuel + 1 => do
    let value ← disjunction fuel
    if ← accept (.name "if") then
      let condition ← disjunction fuel
      let negative ← if ← accept (.name "else") then expression fuel else pure (.name "")
      return .choice condition value negative
    else
      return value

def disjunction : Nat → Read Expression
  | 0 => fail "expression too deep"
  | fuel + 1 => do
    let first ← conjunction fuel
    if ← accept (.name "or") then return .or first (← disjunction fuel) else return first

def conjunction : Nat → Read Expression
  | 0 => fail "expression too deep"
  | fuel + 1 => do
    let first ← negation fuel
    if ← accept (.name "and") then return .and first (← conjunction fuel) else return first

def negation : Nat → Read Expression
  | 0 => fail "expression too deep"
  | fuel + 1 => do
    if ← accept (.name "not") then
      return .not (← negation fuel)
    else
      let first ← sums fuel
      match comparison? (← peek) with
      | some relation =>
        advance
        return .compare relation first (← sums fuel)
      | none => return first

def sums : Nat → Read Expression
  | 0 => fail "expression too deep"
  | fuel + 1 => do
    moreSums fuel (← concatenation fuel)

def moreSums : Nat → Expression → Read Expression
  | 0, _ => fail "expression too deep"
  | fuel + 1, first => do
    if ← accept (.symbol "+") then moreSums fuel (.sum first (← concatenation fuel))
    else if ← accept (.symbol "-") then moreSums fuel (.difference first (← concatenation fuel))
    else return first

def concatenation : Nat → Read Expression
  | 0 => fail "expression too deep"
  | fuel + 1 => do
    let first ← primary fuel
    if ← accept (.symbol "~") then return .concat first (← concatenation fuel) else return first

def primary : Nat → Read Expression
  | 0 => fail "expression too deep"
  | fuel + 1 => do
    match ← peek with
    | some (.name text) =>
      advance
      let base := match text with
        | "true" | "True" => Expression.truth true
        | "false" | "False" => .truth false
        | "none" | "None" => .nothing
        | _ => .name text
      suffixes fuel base
    | some (.literal _) =>
      -- Literals that follow one another are one text.
      suffixes fuel (.literal (String.join (← takeLiterals)))
    | some (.number value) =>
      advance
      suffixes fuel (.number value)
    | some (.symbol "(") =>
      advance
      let inner ← expression fuel
      expect ")"
      suffixes fuel inner
    | some (.symbol "[") =>
      advance
      suffixes fuel (.list (← listItems fuel))
    | some lexeme => fail s!"unexpected '{lexeme.shown}'"
    | none => fail "Expected an expression, got 'end of print statement'"

def listItems : Nat → Read (List Expression)
  | 0 => fail "expression too deep"
  | fuel + 1 => do
    if ← accept (.symbol "]") then
      return []
    let item ← expression fuel
    if ← accept (.symbol ",") then
      return item :: (← listItems fuel)
    else
      expect "]"
      return [item]

def suffixes : Nat → Expression → Read Expression
  | 0, _ => fail "expression too deep"
  | fuel + 1, base => do
    if ← accept (.symbol ".") then
      match ← peek with
      | some (.number index) =>
        advance
        suffixes fuel (.item base (.number index))
      | _ => suffixes fuel (.member base (← takeName))
    else if ← accept (.symbol "[") then
      let index ← expression fuel
      expect "]"
      suffixes fuel (.item base index)
    else if ← accept (.symbol "|") then
      let name ← takeName
      let (arguments, named) ←
        if ← accept (.symbol "(") then filterArguments fuel else pure ([], [])
      suffixes fuel (.filter base name arguments named)
    else
      return base

def filterArguments : Nat → Read (List Expression × List (String × Expression))
  | 0 => fail "expression too deep"
  | fuel + 1 => do
    if ← accept (.symbol ")") then
      return ([], [])
    let argument ← filterArgument fuel
    let others ←
      if ← accept (.symbol ",") then filterArguments fuel
      else do
        expect ")"
        pure ([], [])
    match argument with
    | (none, value) => return (value :: others.1, others.2)
    | (some key, value) => return (others.1, (key, value) :: others.2)

def filterArgument : Nat → Read (Option String × Expression)
  | 0 => fail "expression too deep"
  | fuel + 1 => do
    match (← get) with
    | .name key :: .symbol "=" :: rest =>
      set rest
      return (some key, ← expression fuel)
    | _ => return (none, ← expression fuel)

end

-- Each level of an expression takes a lexeme at least every ten steps.
def fuelFor (lexemes : List Lexeme) : Nat :=
  12 * (lexemes.length + 1)

def ofLexemes (lexemes : List Lexeme) : Except TemplateError Expression := do
  let (value, rest) ← (expression (fuelFor lexemes)).run lexemes
  match rest with
  | [] => return value
  | lexeme :: _ =>
    throw (.malformed s!"expected token 'end of print statement', got '{lexeme.shown}'")

end Expression

end FfiBindings.Template
