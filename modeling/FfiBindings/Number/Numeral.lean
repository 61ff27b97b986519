import FfiBindings.Number.Double
import FfiBindings.Text.Blank
import FfiBindings.Text.Digit

set_option autoImplicit false

namespace FfiBindings.Numeral

def isPadding (c : Char) : Bool :=
  c == ' ' || (9 ≤ c.toNat && c.toNat ≤ 13)

def plain (c : Char) : Char :=
  if c.toNat < 127 then c
  else if Text.isBlank c then ' '
  else match Text.decimalValue? c with
    | some value => Char.ofNat (0x30 + value)
    | none => '?'

def stripPadding (text : List Char) : List Char :=
  ((text.dropWhile isPadding).reverse.dropWhile isPadding).reverse

-- The text without its underscores, each of which has to stand between two digits.
def dropUnderscores? (previous : Char) : List Char → Option (List Char)
  | [] => if previous == '_' then none else some []
  | '_' :: rest => if previous.isDigit then dropUnderscores? '_' rest else none
  | c :: rest =>
    if previous == '_' && !c.isDigit then none else (c :: ·) <$> dropUnderscores? c rest

def natOfDigits (digits : List Char) : Nat :=
  digits.foldl (fun value digit => value * 10 + (digit.toNat - 0x30)) 0

def takeDigits (text : List Char) : List Char × List Char :=
  (text.takeWhile Char.isDigit, text.dropWhile Char.isDigit)

def takeSign : List Char → Bool × List Char
  | '-' :: rest => (true, rest)
  | '+' :: rest => (false, rest)
  | text => (false, text)

def exponent? : List Char → Option Int
  | [] => some 0
  | mark :: rest =>
    if mark == 'e' || mark == 'E' then
      let (negative, rest) := takeSign rest
      let (digits, remaining) := takeDigits rest
      if digits.isEmpty || !remaining.isEmpty then none
      else
        let power : Int := natOfDigits digits
        some (if negative then -power else power)
    else
      none

def bareDouble? (text : List Char) : Option Double :=
  let (negative, text) := takeSign text
  let word := text.map Char.toLower
  if word == "inf".toList || word == "infinity".toList then
    some (.infinite negative)
  else if word == "nan".toList then
    some .nan
  else
    let (whole, rest) := takeDigits text
    let (fraction, rest) := match rest with
      | '.' :: rest => takeDigits rest
      | rest => ([], rest)
    if whole.isEmpty && fraction.isEmpty then
      none
    else
      (exponent? rest).map fun power =>
        Double.ofDecimal negative (natOfDigits (whole ++ fraction)) (power - fraction.length)

def double? (text : String) : Option Double :=
  (dropUnderscores? ' ' (stripPadding (text.toList.map plain))).bind bareDouble?

def digitIn? (base : Nat) (c : Char) : Option Nat :=
  let value :=
    if c.isDigit then c.toNat - 0x30
    else if c.toLower.isLower then c.toLower.toNat - 0x61 + 10
    else base
  if value < base then some value else none

def dropBaseMark (base : Nat) : List Char → List Char
  | text@('0' :: mark :: rest) =>
    let marks := if base == 16 then 'x' else if base == 8 then 'o' else 'b'
    if base != 10 && mark.toLower == marks then rest else text
  | text => text

def int? (base : Nat) (text : String) : Option Int := do
  let (negative, unsigned) := takeSign (stripPadding (text.toList.map plain))
  let digits := dropBaseMark base unsigned
  if digits.isEmpty then none
  let size ← digits.foldlM (fun value c => (digitIn? base c).map (value * base + ·)) 0
  return if negative then -(size : Int) else size

end FfiBindings.Numeral
