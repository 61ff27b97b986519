import FfiBindings.Text.Split

set_option autoImplicit false

namespace FfiBindings.Yaml

inductive Tag where
  | null | bool | int | float | binary | timestamp | text
  | sequence | mapping | set | orderedMapping | pairs
  | merge | value
  | unknown
deriving DecidableEq, Repr

def standardTag : String := "tag:yaml.org,2002:"

def Tag.ofName (name : String) : Tag :=
  match Text.dropPrefix? standardTag.toList name.toList with
  | none => .unknown
  | some rest =>
    match String.ofList rest with
    | "null" => .null
    | "bool" => .bool
    | "int" => .int
    | "float" => .float
    | "binary" => .binary
    | "timestamp" => .timestamp
    | "str" => .text
    | "seq" => .sequence
    | "map" => .mapping
    | "set" => .set
    | "omap" => .orderedMapping
    | "pairs" => .pairs
    | "merge" => .merge
    | "value" => .value
    | _ => .unknown

namespace Spelling

def truthWords : List String :=
  ["yes", "Yes", "YES", "no", "No", "NO", "true", "True", "TRUE", "false", "False", "FALSE",
   "on", "On", "ON", "off", "Off", "OFF"]

def nullWords : List String :=
  ["", "~", "null", "Null", "NULL"]

def dropSign : List Char → List Char
  | '-' :: rest => rest
  | '+' :: rest => rest
  | text => text

def isDigitOrLine (c : Char) : Bool :=
  c.isDigit || c == '_'

def isBinary (c : Char) : Bool :=
  c == '0' || c == '1' || c == '_'

def isOctal (c : Char) : Bool :=
  ('0' ≤ c && c ≤ '7') || c == '_'

def isHex (c : Char) : Bool :=
  c.isDigit || ('a' ≤ c && c ≤ 'f') || ('A' ≤ c && c ≤ 'F') || c == '_'

def isNumberRun : List Char → Bool
  | [] => false
  | first :: rest => first.isDigit && rest.all isDigitOrLine

def isPositiveRun (text : List Char) : Bool :=
  isNumberRun text && text.head? != some '0'

def isSixtieth : List Char → Bool
  | [digit] => digit.isDigit
  | [tens, digit] => '0' ≤ tens && tens ≤ '5' && digit.isDigit
  | _ => false

def isInt (text : List Char) : Bool :=
  match dropSign text with
  | ['0'] => true
  | '0' :: 'b' :: digits => !digits.isEmpty && digits.all isBinary
  | '0' :: 'x' :: digits => !digits.isEmpty && digits.all isHex
  | '0' :: digits => digits.all isOctal
  | unsigned =>
    match Text.splitAt ':' unsigned with
    | first :: others => isPositiveRun first && others.all isSixtieth
    | [] => false

def isExponent : List Char → Bool
  | [] => true
  | mark :: sign :: digits =>
    (mark == 'e' || mark == 'E') && (sign == '-' || sign == '+') && !digits.isEmpty &&
      digits.all Char.isDigit
  | _ => false

def isFraction (text : List Char) : Bool :=
  isExponent (text.dropWhile isDigitOrLine)

def isSixtiethFraction (whole fraction : List Char) : Bool :=
  match Text.splitAt ':' whole with
  | first :: next :: others =>
    isNumberRun first && (next :: others).all isSixtieth && fraction.all isDigitOrLine
  | _ => false

def isFloat (text : List Char) : Bool :=
  match text with
  | '.' :: digit :: rest =>
    (digit.isDigit && isFraction rest) ||
      [".inf", ".Inf", ".INF", ".nan", ".NaN", ".NAN"].contains (String.ofList text)
  | _ =>
    let unsigned := dropSign text
    match Text.cutAt '.' unsigned with
    | (_, none) => false
    | (whole, some fraction) =>
      (isNumberRun whole && isFraction fraction) ||
        isSixtiethFraction whole fraction ||
        [".inf", ".Inf", ".INF"].contains (String.ofList unsigned)

end Spelling

structure TimestampText where
  year : List Char
  month : List Char
  day : List Char
  clock : Option (List Char × List Char × List Char × List Char)
  zone : Option (Option (Bool × List Char × List Char))
deriving DecidableEq, Repr

namespace TimestampText

def digits? (least most : Nat) (text : List Char) : Option (List Char × List Char) :=
  let run := (text.take most).takeWhile Char.isDigit
  if least ≤ run.length then some (run, text.drop run.length) else none

def char? (c : Char) : List Char → Option (List Char)
  | first :: rest => if first == c then some rest else none
  | [] => none

def isSpace (c : Char) : Bool :=
  c == ' ' || c == '\t'

def gap? : List Char → Option (List Char)
  | 'T' :: rest => some rest
  | 't' :: rest => some rest
  | c :: rest => if isSpace c then some (rest.dropWhile isSpace) else none
  | [] => none

def zone? (text : List Char) : Option (Option (Option (Bool × List Char × List Char))) :=
  match text, text.dropWhile isSpace with
  | [], _ => some none
  | _, ['Z'] => some (some none)
  | _, sign :: rest => do
    if sign != '-' && sign != '+' then none
    let (hours, rest) ← digits? 1 2 rest
    match rest with
    | [] => some (some (some (sign == '-', hours, [])))
    | ':' :: rest =>
      let (minutes, rest) ← digits? 2 2 rest
      if rest.isEmpty then some (some (some (sign == '-', hours, minutes))) else none
    | _ => none
  | _, [] => none

def ofText? (text : List Char) : Option TimestampText := do
  let (year, rest) ← digits? 4 4 text
  let (month, rest) ← digits? 1 2 (← char? '-' rest)
  let (day, rest) ← digits? 1 2 (← char? '-' rest)
  if rest.isEmpty then
    return { year, month, day, clock := none, zone := none }
  let (hour, rest) ← digits? 1 2 (← gap? rest)
  let (minute, rest) ← digits? 2 2 (← char? ':' rest)
  let (second, rest) ← digits? 2 2 (← char? ':' rest)
  let (fraction, rest) := match rest with
    | '.' :: rest => (rest.takeWhile Char.isDigit, rest.dropWhile Char.isDigit)
    | rest => ([], rest)
  let zone ← zone? rest
  return { year, month, day, clock := some (hour, minute, second, fraction), zone }

-- A date alone is recognised only with two digits for month and day.
def isRecognised (timestamp : TimestampText) : Bool :=
  timestamp.clock.isSome || (timestamp.month.length == 2 && timestamp.day.length == 2)

end TimestampText

def Tag.ofSpelling (text : String) : Tag :=
  let chars := text.toList
  if Spelling.truthWords.contains text then .bool
  else if Spelling.isFloat chars then .float
  else if Spelling.isInt chars then .int
  else if text == "<<" then .merge
  else if Spelling.nullWords.contains text then .null
  else if (TimestampText.ofText? chars).any TimestampText.isRecognised then .timestamp
  else if text == "=" then .value
  else .text

end FfiBindings.Yaml
