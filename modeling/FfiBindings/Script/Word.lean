import FfiBindings.Text.Alphanumeric

set_option autoImplicit false

namespace FfiBindings.Script

inductive Part where
  | text (quoted : Bool) (value : List Char)
  | parameter (quoted : Bool) (name : String) (operation : Option (String × List Char))
  | command (quoted : Bool) (source : List Char)
deriving DecidableEq, Repr

abbrev Word := List Part

inductive Token where
  | word (line : Nat) (word : Word)
  | operator (text : String)
  | newline
deriving DecidableEq, Repr

namespace Token

def operators : List String :=
  ["2>&", "2>>", "2>", "1>&", "1>>", "1>", "0<", "&&", "||", ";;", ">>", ">&", "<&", ">|", "|", ";",
   "&", ">", "<", "(", ")"]

def isSpace (c : Char) : Bool :=
  c == ' ' || c == '\t'

def endsWord (c : Char) : Bool :=
  isSpace c || c == '\n' || c == '|' || c == ';' || c == '&' || c == '>' || c == '<' || c == '(' ||
    c == ')'

def isNameChar (c : Char) : Bool :=
  c.isAlphanum || c == '_'

-- The quote around a command whose output is used.
def backQuote : Char := Char.ofNat 0x60

def specialParameters : List Char := ['@', '*', '#', '?', '$', '!', '-']

def balanced (opening closing : Char) (depth : Nat) :
    List Char → Option (List Char × List Char)
  | [] => none
  | c :: rest =>
    if c == closing then
      match depth with
      | 0 => some ([], rest)
      | depth + 1 =>
        (balanced opening closing depth rest).map fun (inner, after) => (c :: inner, after)
    else
      let depth := if c == opening then depth + 1 else depth
      (balanced opening closing depth rest).map fun (inner, after) => (c :: inner, after)

def parameterOperators : List String := [":-", ":=", ":+", "%%", "##", "-", "+", "=", "%", "#"]

def bracedPart (quoted : Bool) (inside : List Char) : Option Part :=
  if inside.head? == some '#' && inside.length > 1 then
    some (.parameter quoted (String.ofList (inside.drop 1)) (some ("length", [])))
  else
    let named := inside.takeWhile isNameChar
    let name := if named.isEmpty then inside.take 1 else named
    let rest := inside.drop name.length
    if rest.isEmpty then
      some (.parameter quoted (String.ofList name) none)
    else
      (parameterOperators.find? fun operator => operator.toList.isPrefixOf rest).map fun operator =>
        .parameter quoted (String.ofList name) (some (operator, rest.drop operator.length))

def dollar (quoted : Bool) (text : List Char) : Option (Part × List Char) :=
  match text with
  | '\x7b' :: rest => do
    let (inside, after) ← balanced '\x7b' '\x7d' 0 rest
    return (← bracedPart quoted inside, after)
  | '(' :: rest => do
    let (inside, after) ← balanced '(' ')' 0 rest
    return (.command quoted inside, after)
  | c :: rest =>
    if specialParameters.contains c || c.isDigit then
      some (.parameter quoted c.toString none, rest)
    else if isNameChar c then
      let name := (c :: rest).takeWhile isNameChar
      some (.parameter quoted (String.ofList name) none, (c :: rest).drop name.length)
    else
      some (.text quoted ['$'], text)
  | [] => some (.text quoted ['$'], [])

def doubleQuoted : Nat → List Char → Option (Word × List Char)
  | 0, _ => none
  | fuel + 1, text =>
    match text with
    | [] => none
    | '"' :: rest => some ([], rest)
    | '\\' :: c :: rest =>
      let piece :=
        if c == '$' || c == backQuote || c == '"' || c == '\\' then [c]
        else if c == '\n' then []
        else ['\\', c]
      (doubleQuoted fuel rest).map fun (parts, after) => (.text true piece :: parts, after)
    | '$' :: rest => do
      let (part, rest) ← dollar true rest
      let (parts, after) ← doubleQuoted fuel rest
      return (part :: parts, after)
    | c :: rest =>
      if c == backQuote then do
        let (inside, rest) ← balanced backQuote backQuote 0 rest
        let (parts, after) ← doubleQuoted fuel rest
        return (.command true inside :: parts, after)
      else
        (doubleQuoted fuel rest).map fun (parts, after) => (.text true [c] :: parts, after)

def wordParts : Nat → List Char → Option (Word × List Char)
  | 0, _ => none
  | fuel + 1, text =>
    match text with
    | [] => some ([], [])
    | '\'' :: rest => do
      let (inside, rest) ← balanced '\'' '\'' 0 rest
      let (parts, after) ← wordParts fuel rest
      return (.text true inside :: parts, after)
    | '"' :: rest => do
      let (inside, rest) ← doubleQuoted fuel rest
      let (parts, after) ← wordParts fuel rest
      return (.text true [] :: inside ++ parts, after)
    | '\\' :: c :: rest => do
      let (parts, after) ← wordParts fuel rest
      return (if c == '\n' then parts else .text true [c] :: parts, after)
    | '$' :: rest => do
      let (part, rest) ← dollar false rest
      let (parts, after) ← wordParts fuel rest
      return (part :: parts, after)
    | c :: rest =>
      if c == backQuote then do
        let (inside, rest) ← balanced backQuote backQuote 0 rest
        let (parts, after) ← wordParts fuel rest
        return (.command false inside :: parts, after)
      else if endsWord c then
        some ([], text)
      else do
        let (parts, after) ← wordParts fuel rest
        return (.text false [c] :: parts, after)

def ofText (line : Nat) : Nat → List Char → Option (List Token)
  | 0, _ => none
  | fuel + 1, text =>
    match text with
    | [] => some []
    | '\n' :: rest => (.newline :: ·) <$> ofText (line + 1) fuel rest
    | '\\' :: '\n' :: rest => ofText (line + 1) fuel rest
    | '#' :: rest => ofText line fuel (rest.dropWhile (· != '\n'))
    | c :: rest =>
      if isSpace c then
        ofText line fuel rest
      else
        match operators.find? fun operator => operator.toList.isPrefixOf text with
        | some found => (.operator found :: ·) <$> ofText line fuel (text.drop found.length)
        | none => do
          let (parts, after) ← wordParts (text.length + 1) text
          let taken := text.take (text.length - after.length)
          (.word line parts :: ·) <$> ofText (line + taken.count '\n') fuel after

end Token

end FfiBindings.Script
