import FfiBindings.Text.Utf8

set_option autoImplicit false

namespace FfiBindings.Script.Format

def isOctal (c : Char) : Bool :=
  '0' ≤ c && c ≤ '7'

def octalValue (digits : List Char) : Nat :=
  digits.foldl (fun value digit => value * 8 + (digit.toNat - 0x30)) 0

def simpleEscape? : Char → Option UInt8
  | 'n' => some 10
  | 't' => some 9
  | 'r' => some 13
  | 'a' => some 7
  | 'b' => some 8
  | 'f' => some 12
  | 'v' => some 11
  | '\\' => some 92
  | _ => none

def escape? (text : List Char) : Option (UInt8 × List Char) :=
  match text with
  | [] => none
  | c :: rest =>
    match simpleEscape? c with
    | some byte => some (byte, rest)
    | none =>
      if isOctal c then
        let digits := ((if c == '0' then rest else text).take 3).takeWhile isOctal
        let used := if c == '0' then digits.length + 1 else digits.length
        some (UInt8.ofNat (octalValue digits), text.drop used)
      else
        none

def unescaped : Nat → List Char → Text.Bytes × Bool
  | 0, _ => ([], false)
  | _, [] => ([], false)
  | fuel + 1, '\\' :: rest =>
    if rest.head? == some 'c' then
      ([], true)
    else
      match escape? rest with
      | some (byte, after) =>
        let (bytes, ended) := unescaped fuel after
        (byte :: bytes, ended)
      | none =>
        let (bytes, ended) := unescaped fuel rest
        (92 :: bytes, ended)
  | fuel + 1, c :: rest =>
    let (bytes, ended) := unescaped fuel rest
    (Text.Utf8.encode [c] ++ bytes, ended)

def echo (words : List String) : Text.Bytes :=
  let (words, lineEnd) := match words with
    | "-n" :: rest => (rest, false)
    | words => (words, true)
  let text := (" ".intercalate words).toList
  let (bytes, ended) := unescaped (text.length + 1) text
  if lineEnd && !ended then bytes ++ [10] else bytes

def integer (text : String) : Int :=
  match text.toList with
  | '-' :: digits => -((String.ofList digits).toNat?.getD 0 : Nat)
  | _ => (text.toNat?.getD 0 : Nat)

def pass : Nat → List Char → List String → Text.Bytes × List String
  | 0, _, arguments => ([], arguments)
  | _, [], arguments => ([], arguments)
  | fuel + 1, '\\' :: rest, arguments =>
    match escape? rest with
    | some (byte, after) =>
      let (bytes, left) := pass fuel after arguments
      (byte :: bytes, left)
    | none =>
      let (bytes, left) := pass fuel rest arguments
      (92 :: bytes, left)
  | fuel + 1, '%' :: directive :: rest, arguments =>
    let argument := arguments.headD ""
    let (piece, arguments) := match directive with
      | '%' => (Text.utf8 "%", arguments)
      | 'd' | 'i' | 'u' => (Text.utf8 (toString (integer argument)), arguments.tail)
      | 'c' => (Text.Utf8.encode (argument.toList.take 1), arguments.tail)
      | 'b' => ((unescaped (argument.length + 1) argument.toList).1, arguments.tail)
      | _ => (Text.utf8 argument, arguments.tail)
    let (bytes, left) := pass fuel rest arguments
    (piece ++ bytes, left)
  | fuel + 1, c :: rest, arguments =>
    let (bytes, left) := pass fuel rest arguments
    (Text.Utf8.encode [c] ++ bytes, left)

def repeated (format : List Char) : Nat → List String → Text.Bytes
  | 0, _ => []
  | fuel + 1, arguments =>
    let (bytes, left) := pass (format.length + 1) format arguments
    if left.isEmpty || left.length == arguments.length then bytes
    else bytes ++ repeated format fuel left

def printf : List String → Text.Bytes
  | [] => []
  | format :: arguments => repeated format.toList (arguments.length + 1) arguments

inductive Atom where
  | any
  | char (c : Char)
  | oneOf (negated : Bool) (members : List Char)
deriving DecidableEq, Repr

def Atom.accepts (atom : Atom) (c : Char) : Bool :=
  match atom with
  | .any => true
  | .char expected => c == expected
  | .oneOf negated members => members.contains c != negated

structure Item where
  atom : Atom
  starred : Bool
deriving DecidableEq, Repr

structure Pattern where
  atStart : Bool
  items : List Item
  atEnd : Bool
deriving DecidableEq, Repr

def itemsOf : Nat → List Char → List Item
  | 0, _ => []
  | _, [] => []
  | fuel + 1, c :: rest =>
    let (atom, rest) : Atom × List Char := match c, rest with
      | '.', rest => (.any, rest)
      | '\\', escaped :: rest => (.char escaped, rest)
      | '[', '^' :: rest =>
        let members := rest.takeWhile (· != ']')
        (.oneOf true members, rest.drop (members.length + 1))
      | '[', rest =>
        let members := rest.takeWhile (· != ']')
        (.oneOf false members, rest.drop (members.length + 1))
      | c, rest => (.char c, rest)
    match rest with
    | '*' :: after => { atom, starred := true } :: itemsOf fuel after
    | _ => { atom, starred := false } :: itemsOf fuel rest

def Pattern.ofText (text : List Char) : Pattern :=
  let atStart := text.head? == some '^'
  let text := if atStart then text.drop 1 else text
  let atEnd := text.getLast? == some '$'
  let text := if atEnd then text.dropLast else text
  { atStart, items := itemsOf text.length text, atEnd }

-- What follows the longest stretch of accepted characters after which the rest matches.
def longest (accepts : Char → Bool) (rest : List Char → Option (List Char)) :
    List Char → Option (List Char)
  | [] => rest []
  | c :: text =>
    let more := if accepts c then longest accepts rest text else none
    more.or (rest (c :: text))

def matchItems (atEnd : Bool) : List Item → List Char → Option (List Char)
  | [], text => if atEnd && !text.isEmpty then none else some text
  | item :: rest, text =>
    if item.starred then
      longest item.atom.accepts (matchItems atEnd rest) text
    else
      match text with
      | c :: text => if item.atom.accepts c then matchItems atEnd rest text else none
      | [] => none

def substituteFrom (pattern : Pattern) (replacement : List Char) (everywhere start : Bool) :
    Nat → List Char → List Char
  | 0, line => line
  | fuel + 1, line =>
    let found := if pattern.atStart && !start then none else matchItems pattern.atEnd pattern.items line
    match found, line with
    | some after, _ =>
      if everywhere && after.length < line.length then
        replacement ++ substituteFrom pattern replacement everywhere false fuel after
      else
        replacement ++ after
    | none, [] => []
    | none, c :: rest => c :: substituteFrom pattern replacement everywhere false fuel rest

def Pattern.occursIn (pattern : Pattern) : List Char → Bool
  | [] => (matchItems pattern.atEnd pattern.items []).isSome
  | c :: rest =>
    (matchItems pattern.atEnd pattern.items (c :: rest)).isSome ||
      (!pattern.atStart && occursIn pattern rest)

def Pattern.literal (text : List Char) : Pattern :=
  { atStart := false, items := text.map fun c => { atom := .char c, starred := false },
    atEnd := false }

def substitution? (script : List Char) : Option (Pattern × List Char × Bool) :=
  match script with
  | 's' :: mark :: rest =>
    let pattern := rest.takeWhile (· != mark)
    let behind := rest.drop (pattern.length + 1)
    let replacement := behind.takeWhile (· != mark)
    let flags := behind.drop (replacement.length + 1)
    if pattern.length < rest.length && replacement.length < behind.length then
      some (Pattern.ofText pattern, replacement, flags.contains 'g')
    else
      none
  | _ => none

def linesOf (text : List Char) : List (List Char) × Bool :=
  let ended := text.getLast? == some '\n'
  let text := if ended then text.dropLast else text
  (text.splitOn '\n', ended)

def substitute (script : String) (text : List Char) : Option (List Char) :=
  if text.isEmpty then
    some []
  else
    (substitution? script.toList).map fun (pattern, replacement, everywhere) =>
      let (lines, ended) := linesOf text
      let changed := lines.map fun line =>
        substituteFrom pattern replacement everywhere true (line.length + 1) line
      ['\n'].intercalate changed ++ (if ended then ['\n'] else [])

end FfiBindings.Script.Format
