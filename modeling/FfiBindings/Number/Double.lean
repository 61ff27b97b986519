-- A finite number is `± mantissa · 2 ^ exponent`; every operation computes the exact rational
-- result and rounds it once, on a tie to the even mantissa.

set_option autoImplicit false

namespace FfiBindings

inductive Double where
  | nan
  | infinite (negative : Bool)
  | finite (negative : Bool) (mantissa : Nat) (exponent : Int)
deriving DecidableEq, Repr

namespace Double

def leastExponent : Int := -1074

def greatestExponent : Int := 971

def mantissaLimit : Nat := Nat.pow 2 53

def scale (numerator denominator : Nat) (shift : Int) : Nat × Nat :=
  if shift < 0 then
    (numerator, denominator * Nat.pow 2 shift.natAbs)
  else
    (numerator * Nat.pow 2 shift.natAbs, denominator)

def nearest (numerator denominator : Nat) : Nat :=
  let quotient := numerator / denominator
  let remainder := numerator % denominator
  if denominator < 2 * remainder || (denominator == 2 * remainder && quotient % 2 == 1) then
    quotient + 1
  else
    quotient

-- The exponent at which the mantissa of a positive fraction has 53 bits, or the least one.
def exponentOf (numerator denominator : Nat) : Int :=
  let low : Int := (numerator.log2 : Int) - (denominator.log2 : Int) - 53
  let (scaled, unit) := scale numerator denominator (-low)
  let exact := if mantissaLimit ≤ scaled / unit then low + 1 else low
  max exact leastExponent

def ofFraction (negative : Bool) (numerator denominator : Nat) : Double :=
  if numerator == 0 then
    .finite negative 0 leastExponent
  else
    let exponent := exponentOf numerator denominator
    let (scaled, unit) := scale numerator denominator (-exponent)
    let mantissa := nearest scaled unit
    let (mantissa, exponent) :=
      if mantissa == mantissaLimit then (mantissaLimit / 2, exponent + 1) else (mantissa, exponent)
    if greatestExponent < exponent then .infinite negative else .finite negative mantissa exponent

def ofInt (value : Int) : Double :=
  ofFraction (value < 0) value.natAbs 1

def fraction (mantissa : Nat) (exponent : Int) : Nat × Nat :=
  scale mantissa 1 exponent

-- The number nearest to `± digits · 10 ^ power`. Powers beyond every finite number are answered
-- without computing them.
def ofDecimal (negative : Bool) (digits : Nat) (power : Int) : Double :=
  if digits == 0 then
    .finite negative 0 leastExponent
  else
    let size : Int := (Nat.toDigits 10 digits).length
    if 400 < size + power then .infinite negative
    else if size + power < -400 then .finite negative 0 leastExponent
    else if power < 0 then ofFraction negative digits (Nat.pow 10 power.natAbs)
    else ofFraction negative (digits * Nat.pow 10 power.natAbs) 1

def negate : Double → Double
  | .nan => .nan
  | .infinite negative => .infinite (!negative)
  | .finite negative mantissa exponent => .finite (!negative) mantissa exponent

def signed (negative : Bool) (size : Nat) : Int :=
  if negative then -size else size

def times : Double → Double → Double
  | .nan, _ | _, .nan => .nan
  | .infinite negative, .infinite negative' => .infinite (negative != negative')
  | .infinite negative, .finite negative' mantissa _
  | .finite negative' mantissa _, .infinite negative =>
    if mantissa == 0 then .nan else .infinite (negative != negative')
  | .finite negative mantissa exponent, .finite negative' mantissa' exponent' =>
    let (numerator, denominator) := fraction mantissa exponent
    let (numerator', denominator') := fraction mantissa' exponent'
    ofFraction (negative != negative') (numerator * numerator') (denominator * denominator')

def plus : Double → Double → Double
  | .nan, _ | _, .nan => .nan
  | .infinite negative, .infinite negative' =>
    if negative == negative' then .infinite negative else .nan
  | .infinite negative, _ | _, .infinite negative => .infinite negative
  | .finite negative mantissa exponent, .finite negative' mantissa' exponent' =>
    let (numerator, denominator) := fraction mantissa exponent
    let (numerator', denominator') := fraction mantissa' exponent'
    let sum := signed negative (numerator * denominator') + signed negative' (numerator' * denominator)
    let bothNegative := negative && negative'
    ofFraction (if sum == 0 then bothNegative else sum < 0) sum.natAbs (denominator * denominator')

end Double

end FfiBindings
