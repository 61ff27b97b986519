import FfiBindings.Number.Double

set_option autoImplicit false

namespace FfiBindings.Double

def scaleTen (numerator denominator : Nat) (power : Int) : Nat × Nat :=
  if power < 0 then
    (numerator, denominator * Nat.pow 10 power.natAbs)
  else
    (numerator * Nat.pow 10 power.natAbs, denominator)

def leadingPower (numerator denominator : Nat) : Int :=
  -- A binary length times log 2 is off by one at most.
  let guess : Int := (((numerator.log2 : Int) - (denominator.log2 : Int)) * 30103).fdiv 100000
  let atLeast (power : Int) : Bool :=
    let (scaled, unit) := scaleTen numerator denominator (-power)
    unit ≤ scaled
  if atLeast (guess + 1) then guess + 1 else if atLeast guess then guess else guess - 1

-- The digits, and the power of ten of the last one, if `count` digits are enough.
def digitsWith? (value : Double) (numerator denominator : Nat) (leading : Int) (count : Nat) :
    Option (Nat × Int) :=
  let power := leading - count + 1
  let (scaled, unit) := scaleTen numerator denominator (-power)
  let below := scaled / unit
  let negative := match value with
    | .finite negative _ _ => negative
    | _ => false
  let readsBack (digits : Nat) : Bool := ofDecimal negative digits power == value
  let near := nearest scaled unit
  -- If a grid point reads back, so does one of the two around the number.
  let far := if near == below then below + 1 else below
  if readsBack near then some (near, power)
  else if readsBack far then some (far, power)
  else none

-- The shortest digits; seventeen are always enough.
def shortestDigits (value : Double) (numerator denominator : Nat) : Nat × Int :=
  let leading := leadingPower numerator denominator
  ((List.range 17).findSome? fun index =>
    digitsWith? value numerator denominator leading (index + 1)).getD (0, 0)

def stripZeros (digits : List Char) : List Char :=
  (digits.reverse.dropWhile (· == '0')).reverse

def layOut (digits : List Char) (point : Int) : String :=
  let exponent := point - 1
  if -4 ≤ exponent && exponent < 16 then
    if point ≤ 0 then
      "0." ++ String.ofList (List.replicate point.natAbs '0' ++ digits)
    else if digits.length ≤ point.natAbs then
      String.ofList (digits ++ List.replicate (point.natAbs - digits.length) '0') ++ ".0"
    else
      String.ofList (digits.take point.natAbs) ++ "." ++ String.ofList (digits.drop point.natAbs)
  else
    let mantissa := match digits with
      | first :: second :: rest => String.ofList (first :: '.' :: second :: rest)
      | few => String.ofList few
    let power := toString exponent.natAbs
    let padded := if power.length < 2 then "0" ++ power else power
    mantissa ++ "e" ++ (if exponent < 0 then "-" else "+") ++ padded

def text : Double → String
  | .nan => "nan"
  | .infinite negative => if negative then "-inf" else "inf"
  | .finite negative mantissa exponent =>
    let unsigned :=
      if mantissa == 0 then
        "0.0"
      else
        let (numerator, denominator) := fraction mantissa exponent
        let (digits, power) :=
          shortestDigits (.finite negative mantissa exponent) numerator denominator
        let digits := Nat.toDigits 10 digits
        layOut (stripZeros digits) (digits.length + power)
    if negative then "-" ++ unsigned else unsigned

end FfiBindings.Double
