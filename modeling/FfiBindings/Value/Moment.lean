set_option autoImplicit false

namespace FfiBindings

structure Date where
  year : Nat
  month : Nat
  day : Nat
deriving DecidableEq, Repr

-- A date and a time of day; `offset` is the distance to universal time in minutes, if known.
structure Moment where
  date : Date
  hour : Nat
  minute : Nat
  second : Nat
  microsecond : Nat
  offset : Option Int
deriving DecidableEq, Repr

def padded (width value : Nat) : String :=
  let digits := Nat.toDigits 10 value
  String.ofList (List.replicate (width - digits.length) '0' ++ digits)

namespace Date

def isLeapYear (year : Nat) : Bool :=
  year % 4 == 0 && (year % 100 != 0 || year % 400 == 0)

def daysInMonth (year month : Nat) : Nat :=
  match month with
  | 2 => if isLeapYear year then 29 else 28
  | 4 | 6 | 9 | 11 => 30
  | _ => 31

def text (date : Date) : String :=
  s!"{padded 4 date.year}-{padded 2 date.month}-{padded 2 date.day}"

def literal (date : Date) : String :=
  s!"datetime.date({date.year}, {date.month}, {date.day})"

-- The number of days since the first of March of the year before the first.
def dayNumber (date : Date) : Nat :=
  let years := date.year + (if date.month ≤ 2 then 0 else 1)
  let months := (date.month + 9) % 12
  365 * years + years / 4 - years / 100 + years / 400 + (153 * months + 2) / 5 + date.day

end Date

namespace Moment

def offsetText (offset : Int) : String :=
  let sign := if offset < 0 then "-" else "+"
  s!"{sign}{padded 2 (offset.natAbs / 60)}:{padded 2 (offset.natAbs % 60)}"

def distanceLiteral (offset : Int) : String :=
  let days := offset.fdiv 1440
  let seconds := (offset.fmod 1440) * 60
  let parts :=
    (if days == 0 then [] else [s!"days={days}"]) ++
      (if seconds == 0 then [] else [s!"seconds={seconds}"])
  let shown := if parts.isEmpty then "0" else ", ".intercalate parts
  s!"datetime.timedelta({shown})"

def text (moment : Moment) : String :=
  let clock := s!"{padded 2 moment.hour}:{padded 2 moment.minute}:{padded 2 moment.second}"
  let fraction :=
    if moment.microsecond == 0 then "" else "." ++ padded 6 moment.microsecond
  moment.date.text ++ " " ++ clock ++ fraction ++ (moment.offset.map offsetText).getD ""

def zoneLiteral (offset : Int) : String :=
  if offset == 0 then "datetime.timezone.utc"
  else s!"datetime.timezone({distanceLiteral offset})"

def literal (moment : Moment) : String :=
  let small :=
    if moment.microsecond != 0 then [moment.second, moment.microsecond]
    else if moment.second != 0 then [moment.second]
    else []
  let numbers :=
    [moment.date.year, moment.date.month, moment.date.day, moment.hour, moment.minute] ++ small
  let zone := match moment.offset with
    | some offset => ["tzinfo=" ++ zoneLiteral offset]
    | none => []
  let shown := ", ".intercalate (numbers.map toString ++ zone)
  s!"datetime.datetime({shown})"

-- Minutes of universal time since a fixed day; equal for one moment written with two offsets.
def universalMinutes (moment : Moment) (offset : Int) : Int :=
  ((moment.date.dayNumber * 24 + moment.hour) * 60 + moment.minute : Nat) - offset

def same (first second : Moment) : Bool :=
  match first.offset, second.offset with
  | none, none => first == second
  | some offset, some offset' =>
    first.universalMinutes offset == second.universalMinutes offset' &&
      first.second == second.second && first.microsecond == second.microsecond
  | _, _ => false

end Moment

end FfiBindings
