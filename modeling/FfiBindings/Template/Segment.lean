import FfiBindings.Number.Numeral
import FfiBindings.Template.Error
import FfiBindings.Text.Alphanumeric
import FfiBindings.Text.Blank
import FfiBindings.Text.Quoted
import FfiBindings.Text.Utf8

-- A line break directly behind a statement or a comment belongs to it, and so do the blanks in
-- front of one that stands first on its line. A hyphen inside the delimiters takes all blanks on
-- its side away, a plus keeps them.

set_option autoImplicit false

namespace FfiBindings.Template

inductive Lexeme where
  | name (text : String)
  | literal (text : String)
  | number (value : Nat)
  | symbol (text : String)
deriving DecidableEq, Repr

def Lexeme.shown : Lexeme → String
  | .name text => text
  | .literal text => text
  | .number value => toString value
  | .symbol text => text

inductive Segment where
  | plain (content : String)
  | output (lexemes : List Lexeme)
  | statement (lexemes : List Lexeme)
deriving DecidableEq, Repr

namespace Segment

def fail {α : Type} (message : String) : Except TemplateError α :=
  .error (.malformed message)

def close? (isOutput : Bool) (text : List Char) : Option (List Char × Bool) :=
  let last := if isOutput then '\x7d' else '%'
  match text with
  | '-' :: a :: '\x7d' :: rest =>
    if a == last then
      let blanks := rest.takeWhile Text.isBlank
      some (rest.drop blanks.length, blanks.getLast? == some '\n')
    else none
  | '+' :: a :: '\x7d' :: rest => if a == last && !isOutput then some (rest, false) else none
  | a :: '\x7d' :: rest =>
    if a == last then
      match rest with
      -- The line break behind a statement belongs to it, that behind an output does not.
      | '\n' :: after => if isOutput then some (rest, false) else some (after, true)
      | _ => some (rest, false)
    else none
  | _ => none

def symbols : List String :=
  ["**", "//", "==", "!=", ">=", "<=", "+", "-", "/", "*", "%", "~", "[", "]", "(", ")", "\x7b",
   "\x7d", ">", "<", "=", ".", ":", "|", ",", ";"]

def letterEscapes : List (Char × Nat) :=
  [('\\', 0x5C), ('\'', 0x27), ('"', 0x22), ('a', 7), ('b', 8), ('t', 9), ('n', 10), ('v', 11),
   ('f', 12), ('r', 13)]

def numberEscapes : List (Char × Nat) := [('x', 2), ('u', 4), ('U', 8)]

def isOctal (c : Char) : Bool :=
  '0' ≤ c && c ≤ '7'

-- The character with a number, if there is one; half of a pair reads as unknown.
def characterOf? (code : Nat) : Option Char :=
  if 0x10FFFF < code then none
  else some (if 0xD800 ≤ code && code ≤ 0xDFFF then Text.Utf8.replacement else Char.ofNat code)

def writtenEscape (c : Char) : List Char :=
  if c.toNat < 0x80 then [c]
  else if c.toNat < 0x100 then 'x' :: Text.Quoted.hex 2 c.toNat
  else if c.toNat < 0x10000 then 'u' :: Text.Quoted.hex 4 c.toNat
  else 'U' :: Text.Quoted.hex 8 c.toNat

-- What a backslash and the text behind it stand for, and the rest of the text. An unknown escape
-- stands for itself.
def unescape? : List Char → Option (List Char × List Char)
  | [] => none
  | '\n' :: rest => some ([], rest)
  | c :: rest =>
    if let some code := letterEscapes.lookup c then
      some ([Char.ofNat code], rest)
    else if isOctal c then
      let digits := ((c :: rest).take 3).takeWhile isOctal
      let code := digits.foldl (fun value digit => value * 8 + (digit.toNat - 0x30)) 0
      some ([Char.ofNat code], (c :: rest).drop digits.length)
    else if let some count := numberEscapes.lookup c then
      let digits := rest.take count
      if digits.length < count then
        none
      else do
        let code ← digits.foldlM (fun value digit =>
          (Numeral.digitIn? 16 digit).map (value * 16 + ·)) 0
        return ([← characterOf? code], rest.drop count)
    else if c == 'N' then
      none
    else
      some ('\\' :: writtenEscape c, rest)

def literalValue? : Nat → List Char → Option (List Char)
  | 0, _ => none
  | _, [] => some []
  | fuel + 1, '\\' :: rest => do
    let (found, after) ← unescape? rest
    return found ++ (← literalValue? fuel after)
  | fuel + 1, c :: rest => (c :: ·) <$> literalValue? fuel rest

def quoted? (quote : Char) : List Char → Option (List Char × List Char)
  | [] => none
  | '\\' :: c :: rest =>
    (quoted? quote rest).map fun (inside, after) => ('\\' :: c :: inside, after)
  | c :: rest =>
    if c == quote then some ([], rest)
    else (quoted? quote rest).map fun (inside, after) => (c :: inside, after)

def literal? (quote : Char) (text : List Char) : Option (List Char × List Char) := do
  let (inside, after) ← quoted? quote text
  return (← literalValue? (inside.length + 1) inside, after)

def brackets (openBrackets : List String) (symbol : String) : Except TemplateError (List String) :=
  match symbol with
  | "(" => .ok (")" :: openBrackets)
  | "[" => .ok ("]" :: openBrackets)
  | "\x7b" => .ok ("\x7d" :: openBrackets)
  | ")" | "]" | "\x7d" =>
    match openBrackets with
    | [] => fail s!"unexpected '{symbol}'"
    | expected :: rest =>
      if expected == symbol then .ok rest else fail s!"unexpected '{symbol}', expected '{expected}'"
  | _ => .ok openBrackets

def lexemes (isOutput : Bool) (openBrackets : List String) :
    Nat → List Char → Except TemplateError (List Lexeme × List Char × Bool)
  | 0, _ => fail "unexpected end of template"
  | fuel + 1, text => do
    -- Inside brackets the closing delimiter is two symbols like any others.
    match if openBrackets.isEmpty then close? isOutput text else none with
    | some (rest, lineStart) => return ([], rest, lineStart)
    | none =>
      match text with
      | [] => fail "unexpected end of template"
      | c :: rest =>
        if Text.isBlank c then
          lexemes isOutput openBrackets fuel rest
        else if c.isDigit then
          let digits := text.takeWhile Char.isDigit
          let number := Lexeme.number (digits.foldl (fun n d => n * 10 + (d.toNat - 0x30)) 0)
          let (found, after) ← lexemes isOutput openBrackets fuel (text.drop digits.length)
          return (number :: found, after)
        else if Text.isWordChar c then
          let word := text.takeWhile Text.isWordChar
          let (found, after) ← lexemes isOutput openBrackets fuel (text.drop word.length)
          return (.name (String.ofList word) :: found, after)
        else if c == '\'' || c == '"' then
          match literal? c rest with
          | none => fail s!"unexpected char {c}"
          | some (value, rest) =>
            let (found, after) ← lexemes isOutput openBrackets fuel rest
            return (.literal (String.ofList value) :: found, after)
        else
          match symbols.find? fun symbol => symbol.toList.isPrefixOf text with
          | none => fail s!"unexpected char {c}"
          | some symbol =>
            let openBrackets ← brackets openBrackets symbol
            let (found, after) ← lexemes isOutput openBrackets fuel (text.drop symbol.length)
            return (.symbol symbol :: found, after)

def comment? : List Char → Option (List Char × Bool)
  | [] => none
  | '-' :: '#' :: '\x7d' :: rest =>
    let blanks := rest.takeWhile Text.isBlank
    some (rest.drop blanks.length, blanks.getLast? == some '\n')
  | '+' :: '#' :: '\x7d' :: rest => some (rest, false)
  | '#' :: '\x7d' :: '\n' :: rest => some (rest, true)
  | '#' :: '\x7d' :: rest => some (rest, false)
  | _ :: rest => comment? rest

def opening? : List Char → List Char × Option (Char × List Char)
  | [] => ([], none)
  | '\x7b' :: c :: rest =>
    if c == '%' || c == '\x7b' || c == '#' then
      ([], some (c, rest))
    else
      let found := opening? (c :: rest)
      ('\x7b' :: found.1, found.2)
  | c :: rest =>
    let found := opening? rest
    (c :: found.1, found.2)

def trimEnd (text : List Char) : List Char :=
  (text.reverse.dropWhile Text.isBlank).reverse

-- The text without the blanks between its last line break and its end.
def trimLastLine (lineStart : Bool) (text : List Char) : List Char :=
  let lastLine := (text.reverse.takeWhile (· != '\n')).reverse
  let before := text.take (text.length - lastLine.length)
  if (lineStart || !before.isEmpty) && lastLine.all Text.isBlank then before else text

def textBefore (lineStart isOutput : Bool) (sign : Option Char) (text : List Char) : List Char :=
  match sign with
  | some '-' => trimEnd text
  | some '+' => text
  | _ => if isOutput then text else trimLastLine lineStart text

def takeSign : List Char → Option Char × List Char
  | '-' :: rest => (some '-', rest)
  | '+' :: rest => (some '+', rest)
  | text => (none, text)

def textSegment (text : List Char) : List Segment :=
  if text.isEmpty then [] else [.plain (String.ofList text)]

def segmentsFrom (lineStart : Bool) : Nat → List Char → Except TemplateError (List Segment)
  | 0, _ => fail "unexpected end of template"
  | fuel + 1, source => do
    match opening? source with
    | (text, none) => return textSegment text
    | (text, some (kind, rest)) =>
      let (sign, rest) := takeSign rest
      let before := textSegment (textBefore lineStart (kind == '\x7b') sign text)
      if kind == '#' then
        match comment? rest with
        | none => fail "Missing end of comment tag"
        | some (after, lineStart) => return before ++ (← segmentsFrom lineStart fuel after)
      else
        let isOutput := kind == '\x7b'
        let (found, after, lineStart) ← lexemes isOutput [] (rest.length + 1) rest
        let segment := if isOutput then Segment.output found else .statement found
        return before ++ segment :: (← segmentsFrom lineStart fuel after)

def ofText (source : List Char) : Except TemplateError (List Segment) :=
  segmentsFrom true (source.length + 1) source

end Segment

end FfiBindings.Template
