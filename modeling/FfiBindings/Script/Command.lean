import FfiBindings.Script.Word

set_option autoImplicit false

namespace FfiBindings.Script

inductive RedirectionKind where
  | truncate
  | append
  | input
  | duplicate
deriving DecidableEq, Repr

structure Redirection where
  descriptor : Nat
  kind : RedirectionKind
  target : Word
deriving DecidableEq, Repr

inductive Command where
  | simple (line : Nat) (assignments : List (String × Word)) (words : List Word)
  | redirected (body : Command) (redirections : List Redirection)
  | pipe (commands : List Command)
  | not (body : Command)
  | both (first second : Command)
  | either (first second : Command)
  | sequence (commands : List Command)
  | choice (condition positive negative : Command)
  | case (subject : Word) (arms : List (List Word × Command))
  | each (variableName : String) (words : List Word) (body : Command)
  | repeated (inverted : Bool) (condition body : Command)
  | subshell (body : Command)
deriving Repr, Inhabited

namespace Command

def nothing : Command := .sequence []

abbrev Read := StateT (List Token) Option

def peek : Read (Option Token) :=
  return (← get).head?

def advance : Read Unit :=
  modify List.tail

def skipNewlines : Read Unit :=
  modify fun tokens => tokens.dropWhile (· == .newline)

def plainText? (word : Word) : Option String :=
  let pieces := word.map fun
    | .text false value => some value
    | _ => none
  if pieces.all Option.isSome then some (String.ofList (pieces.filterMap id).flatten) else none

def reserved? (token : Option Token) : Option String :=
  match token with
  | some (.word _ word) => plainText? word
  | _ => none

def expectWord (text : String) : Read Unit := do
  if reserved? (← peek) == some text then advance else failure

def acceptOperator (text : String) : Read Bool := do
  if (← peek) == some (.operator text) then
    advance
    return true
  else
    return false

def takeWord : Read Word := do
  match ← peek with
  | some (.word _ word) =>
    advance
    return word
  | _ => failure

def redirection? : String → Option (Nat × RedirectionKind)
  | ">" | "1>" | ">|" => some (1, .truncate)
  | ">>" | "1>>" => some (1, .append)
  | ">&" | "1>&" => some (1, .duplicate)
  | "2>" => some (2, .truncate)
  | "2>>" => some (2, .append)
  | "2>&" => some (2, .duplicate)
  | "<" | "0<" => some (0, .input)
  | _ => none

def takeRedirection? : Read (Option Redirection) := do
  match ← peek with
  | some (.operator text) =>
    match redirection? text with
    | some (descriptor, kind) =>
      advance
      return some { descriptor, kind, target := ← takeWord }
    | none => return none
  | _ => return none

def withRedirections (body : Command) (redirections : List Redirection) : Command :=
  if redirections.isEmpty then body else .redirected body redirections

def redirections : Nat → Read (List Redirection)
  | 0 => failure
  | fuel + 1 => do
    match ← takeRedirection? with
    | some redirection => return redirection :: (← redirections fuel)
    | none => return []

def assignment? (word : Word) : Option (String × Word) :=
  let name := word.takeWhile fun
    | .text false [c] => Token.isNameChar c
    | _ => false
  match plainText? name, word.drop name.length with
  | some text, .text false ['='] :: value =>
    if text.isEmpty || (text.toList.head?.any Char.isDigit) then none else some (text, value)
  | _, _ => none

def simpleParts : Nat → Bool → Read (List (String × Word) × List Word × List Redirection)
  | 0, _ => failure
  | fuel + 1, started => do
    match ← takeRedirection? with
    | some redirection =>
      let (assignments, words, others) ← simpleParts fuel started
      return (assignments, words, redirection :: others)
    | none =>
      match ← peek with
      | some (.word _ word) =>
        advance
        match if started then none else assignment? word with
        | some assigned =>
          let (assignments, words, others) ← simpleParts fuel false
          return (assigned :: assignments, words, others)
        | none =>
          let (assignments, words, others) ← simpleParts fuel true
          return (assignments, word :: words, others)
      | _ => return ([], [], [])

def closingWords : List String :=
  ["then", "else", "elif", "fi", "do", "done", "esac", "\x7d"]

def lineOf : Option Token → Nat
  | some (.word line _) => line
  | _ => 0

def wordList : Nat → Read (List Word)
  | 0 => failure
  | fuel + 1 => do
    match ← peek with
    | some (.word _ word) =>
      advance
      return word :: (← wordList fuel)
    | _ => return []

def patterns : Nat → Read (List Word)
  | 0 => failure
  | fuel + 1 => do
    let first ← takeWord
    if ← acceptOperator "|" then
      return first :: (← patterns fuel)
    else if ← acceptOperator ")" then
      return [first]
    else
      failure

mutual

def list : Nat → Read Command
  | 0 => failure
  | fuel + 1 => do
    skipNewlines
    let stop ← match ← peek with
      | none => pure true
      | some (.operator text) => pure (text == ")" || text == ";;")
      | token => pure ((reserved? token).any closingWords.contains)
    if stop then
      return nothing
    let first ← chain fuel
    let separated ← if ← acceptOperator ";" then pure true else acceptOperator "&"
    if separated || (← peek) == some .newline then
      match ← list fuel with
      | .sequence others => return .sequence (first :: others)
      | other => return .sequence [first, other]
    else
      return .sequence [first]

def chain : Nat → Read Command
  | 0 => failure
  | fuel + 1 => do
    moreChain fuel (← pipeline fuel)

def moreChain : Nat → Command → Read Command
  | 0, _ => failure
  | fuel + 1, first => do
    if ← acceptOperator "&&" then
      skipNewlines
      moreChain fuel (.both first (← pipeline fuel))
    else if ← acceptOperator "||" then
      skipNewlines
      moreChain fuel (.either first (← pipeline fuel))
    else
      return first

def pipeline : Nat → Read Command
  | 0 => failure
  | fuel + 1 => do
    if reserved? (← peek) == some "!" then
      advance
      return .not (← pipeline fuel)
    let commands ← stages fuel
    match commands with
    | [single] => return single
    | commands => return .pipe commands

def stages : Nat → Read (List Command)
  | 0 => failure
  | fuel + 1 => do
    let first ← command fuel
    if ← acceptOperator "|" then
      skipNewlines
      return first :: (← stages fuel)
    else
      return [first]

def command : Nat → Read Command
  | 0 => failure
  | fuel + 1 => do
    let token ← peek
    if ← acceptOperator "(" then
      let body ← list fuel
      if !(← acceptOperator ")") then failure
      return withRedirections (.subshell body) (← redirections fuel)
    match reserved? token with
    | some "if" =>
      advance
      let body ← branches fuel
      return withRedirections body (← redirections fuel)
    | some "case" =>
      advance
      let subject ← takeWord
      skipNewlines
      expectWord "in"
      let found ← arms fuel
      return withRedirections (.case subject found) (← redirections fuel)
    | some "for" =>
      advance
      let name ← takeWord
      skipNewlines
      let words ← if reserved? (← peek) == some "in" then
          advance
          wordList fuel
        else
          pure [[.parameter true "@" none]]
      let _ ← acceptOperator ";"
      skipNewlines
      expectWord "do"
      let body ← list fuel
      expectWord "done"
      match plainText? name with
      | some name => return withRedirections (.each name words body) (← redirections fuel)
      | none => failure
    | some "while" => repetition fuel false
    | some "until" => repetition fuel true
    | some "\x7b" =>
      advance
      let body ← list fuel
      expectWord "\x7d"
      return withRedirections body (← redirections fuel)
    | _ =>
      let (assignments, words, redirections) ← simpleParts fuel false
      if assignments.isEmpty && words.isEmpty && redirections.isEmpty then failure
      return withRedirections (.simple (lineOf token) assignments words) redirections

def repetition : Nat → Bool → Read Command
  | 0, _ => failure
  | fuel + 1, inverted => do
    advance
    let condition ← list fuel
    expectWord "do"
    let body ← list fuel
    expectWord "done"
    return withRedirections (.repeated inverted condition body) (← redirections fuel)

def branches : Nat → Read Command
  | 0 => failure
  | fuel + 1 => do
    let condition ← list fuel
    expectWord "then"
    let positive ← list fuel
    match reserved? (← peek) with
    | some "elif" =>
      advance
      return .choice condition positive (← branches fuel)
    | some "else" =>
      advance
      let negative ← list fuel
      expectWord "fi"
      return .choice condition positive negative
    | _ =>
      expectWord "fi"
      return .choice condition positive nothing

def arms : Nat → Read (List (List Word × Command))
  | 0 => failure
  | fuel + 1 => do
    skipNewlines
    if reserved? (← peek) == some "esac" then
      advance
      return []
    let _ ← acceptOperator "("
    let found ← patterns fuel
    let body ← list fuel
    let _ ← acceptOperator ";;"
    return (found, body) :: (← arms fuel)

end

def ofText? (text : List Char) : Option Command := do
  let tokens ← Token.ofText 1 (text.length + 1) text
  let (found, rest) ← (list (12 * (tokens.length + 2))).run tokens
  if rest.isEmpty then some found else none

end Command

end FfiBindings.Script
