import FfiBindings.Number.Numeral
import FfiBindings.Text.Base64
import FfiBindings.Text.Casing
import FfiBindings.Value.Basic
import FfiBindings.Yaml.Fault
import FfiBindings.Yaml.Tag

set_option autoImplicit false

namespace FfiBindings.Yaml.Scalar

def natOf (digits : List Char) : Nat :=
  Numeral.natOfDigits digits

def dropLines (text : String) : List Char :=
  text.toList.filter (· != '_')

def truth (text : String) : Except Fault Value :=
  let word := Text.lower text
  if ["yes", "true", "on"].contains word then .ok (.bool true)
  else if ["no", "false", "off"].contains word then .ok (.bool false)
  else .error (.boolean word)

-- The longest decimal numeral that is read.
def digitLimit : Nat := 4300

def intIn (base : Nat) (digits : List Char) : Except Fault Int :=
  let text := String.ofList digits
  match Numeral.int? base text with
  | none => .error (.integer base text)
  | some value =>
    let count := (Numeral.stripPadding (Spelling.dropSign digits)).length
    if base == 10 && digitLimit < count then .error (.integerSize count) else .ok value

def ofSixtieths (parts : List Int) : Int :=
  parts.foldl (fun value part => value * 60 + part) 0

def unsignedInt (digits : List Char) : Except Fault Int :=
  match digits with
  | [] => .error .emptyNumber
  | ['0'] => .ok 0
  | '0' :: 'b' :: rest => intIn 2 rest
  | '0' :: 'x' :: rest => intIn 16 rest
  | '0' :: _ => intIn 8 digits
  | _ =>
    if digits.contains ':' then
      ofSixtieths <$> (Text.splitAt ':' digits).mapM (intIn 10)
    else
      intIn 10 digits

def int (text : String) : Except Fault Value := do
  let digits := dropLines text
  let value ← unsignedInt (Spelling.dropSign digits)
  return .int (if digits.head? == some '-' then -value else value)

def double (digits : List Char) : Except Fault Double :=
  let text := String.ofList digits
  match Numeral.double? text with
  | none => .error (.float text)
  | some value => .ok value

-- Parts of a number in base sixty, the least first, added up from there.
def sixtiethSum (total : Double) (weight : Nat) : List Double → Double
  | [] => total
  | part :: rest =>
    sixtiethSum (total.plus (part.times (Double.ofInt weight))) (weight * 60) rest

def unsignedFloat (digits : List Char) : Except Fault Double :=
  if String.ofList digits == ".inf" then .ok (.infinite false)
  else if String.ofList digits == ".nan" then .ok .nan
  else if digits.contains ':' then do
    let parts ← (Text.splitAt ':' digits).mapM double
    return sixtiethSum (Double.ofInt 0) 1 parts.reverse
  else double digits

def float (text : String) : Except Fault Value := do
  let digits := (Text.lower (String.ofList (dropLines text))).toList
  if digits.isEmpty then throw .emptyNumber
  let value ← unsignedFloat (Spelling.dropSign digits)
  return .float (if digits.head? == some '-' then value.negate else value)

def binary (text : String) : Except Fault Value :=
  if text.toList.all (·.toNat < 0x80) then
    match Text.Base64.decode? text with
    | some bytes => .ok (.bytes bytes)
    | none => .error .malformed
  else
    .error .malformed

def dateDefect? (date : Date) : Option DateDefect :=
  if date.year == 0 then some (.year date.year)
  else if date.month == 0 || 12 < date.month then some .month
  else if date.day == 0 || Date.daysInMonth date.year date.month < date.day then some .day
  else none

def momentDefect? (moment : Moment) : Option DateDefect :=
  let offsetDefect := moment.offset.bind fun offset =>
    if offset.natAbs < 1440 then none else some (DateDefect.offset (Moment.distanceLiteral offset))
  let clockDefect :=
    if 23 < moment.hour then some DateDefect.hour
    else if 59 < moment.minute then some .minute
    else if 59 < moment.second then some .second
    else none
  (offsetDefect.or (dateDefect? moment.date)).or clockDefect

def microseconds (fraction : List Char) : Nat :=
  let digits := fraction.take 6
  natOf (digits ++ List.replicate (6 - digits.length) '0')

def offsetMinutes : Option (Bool × List Char × List Char) → Int
  | none => 0
  | some (negative, hours, minutes) =>
    let distance : Int := natOf hours * 60 + natOf minutes
    if negative then -distance else distance

def dropLastBreak (text : List Char) : List Char :=
  if text.getLast? == some '\n' then text.dropLast else text

def timestamp (text : String) : Except Fault Value :=
  match TimestampText.ofText? (dropLastBreak text.toList) with
  | none => .error .timestamp
  | some written =>
    let date : Date :=
      { year := natOf written.year, month := natOf written.month, day := natOf written.day }
    match written.clock with
    | none =>
      match dateDefect? date with
      | some defect => .error (.date defect)
      | none => .ok (.date date)
    | some (hour, minute, second, fraction) =>
      let moment : Moment :=
        { date
          hour := natOf hour
          minute := natOf minute
          second := natOf second
          microsecond := microseconds fraction
          offset := written.zone.map offsetMinutes }
      match momentDefect? moment with
      | some defect => .error (.date defect)
      | none => .ok (.moment moment)

def value (tag : Tag) (text : String) : Except Fault Value :=
  match tag with
  | .null => .ok .null
  | .bool => truth text
  | .int => int text
  | .float => float text
  | .binary => binary text
  | .timestamp => timestamp text
  | .text => .ok (.text text)
  | _ => .error .malformed

end FfiBindings.Yaml.Scalar
