import FfiBindings.Number.Shortest
import FfiBindings.Text.Quoted
import FfiBindings.Value.Basic

set_option autoImplicit false

namespace FfiBindings.Value

def escapeByte (quote : Char) (byte : UInt8) : List Char :=
  let c := Char.ofNat byte.toNat
  if c == quote || c == '\\' then ['\\', c]
  else if c == '\n' then ['\\', 'n']
  else if c == '\r' then ['\\', 'r']
  else if c == '\t' then ['\\', 't']
  else if 0x20 ≤ byte && byte < 0x7F then [c]
  else ['\\', 'x'] ++ Text.Quoted.hex 2 byte.toNat

def bytesLiteral (bytes : Text.Bytes) : String :=
  let quote := Text.Quoted.quoteFor (bytes.map fun byte => Char.ofNat byte.toNat)
  String.ofList ('b' :: quote :: bytes.flatMap (escapeByte quote) ++ [quote])

def joined (pieces : List String) : String :=
  ", ".intercalate pieces

mutual

-- Whole numbers are written out in full here too, even beyond 4300 digits.
def literal : Value → String
  | .null => "None"
  | .bool value => if value then "True" else "False"
  | .int value => toString value
  | .float value => value.text
  | .text value => Text.quote value
  | .bytes value => bytesLiteral value
  | .date value => value.literal
  | .moment value => value.literal
  | .list items => "[" ++ joined (literals items) ++ "]"
  | .pair first second => "(" ++ literal first ++ ", " ++ literal second ++ ")"
  | .dict entries => "\x7b" ++ joined (entryLiterals entries) ++ "\x7d"
  | .set [] => "set()"
  | .set (first :: rest) => "\x7b" ++ joined (literal first :: literals rest) ++ "\x7d"
  | .loop keyed => if keyed then "\x7b...\x7d" else "[...]"

def literals : List Value → List String
  | [] => []
  | value :: rest => literal value :: literals rest

def entryLiterals : List (Value × Value) → List String
  | [] => []
  | entry :: rest => entryLiteral entry :: entryLiterals rest

def entryLiteral : Value × Value → String
  | (key, value) => literal key ++ ": " ++ literal value

end

def shown : Value → String
  | .text value => value
  | .date value => value.text
  | .moment value => value.text
  | value => value.literal

end FfiBindings.Value
