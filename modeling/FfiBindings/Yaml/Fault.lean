import FfiBindings.Text.Quoted

set_option autoImplicit false

namespace FfiBindings.Yaml

inductive DateDefect where
  | year (value : Nat)
  | month
  | day
  | hour
  | minute
  | second
  | offset (description : String)
deriving DecidableEq, Repr

def DateDefect.message : DateDefect → String
  | .year value => s!"year {value} is out of range"
  | .month => "month must be in 1..12"
  | .day => "day is out of range for month"
  | .hour => "hour must be in 0..23"
  | .minute => "minute must be in 0..59"
  | .second => "second must be in 0..59"
  | .offset description =>
    "offset must be a timedelta strictly between -timedelta(hours=24) and " ++
      s!"timedelta(hours=24), not {description}."

inductive Fault where
  | malformed
  | integer (base : Nat) (digits : String)
  | integerSize (digits : Nat)
  | emptyNumber
  | float (text : String)
  | boolean (text : String)
  | timestamp
  | date (defect : DateDefect)
  | codePoint
  | codePointSize
deriving DecidableEq, Repr

def Fault.message : Fault → String
  | .malformed => ""
  | .integer base digits => s!"invalid literal for int() with base {base}: {Text.quote digits}"
  | .integerSize digits =>
    s!"Exceeds the limit (4300 digits) for integer string conversion: value has {digits} " ++
      "digits; use sys.set_int_max_str_digits() to increase the limit"
  | .emptyNumber => "string index out of range"
  | .float text => s!"could not convert string to float: {Text.quote text}"
  | .boolean text => Text.quote text
  | .timestamp => "'NoneType' object has no attribute 'groupdict'"
  | .date defect => defect.message
  | .codePoint => "chr() arg not in range(0x110000)"
  | .codePointSize => "Python int too large to convert to C int"

end FfiBindings.Yaml
