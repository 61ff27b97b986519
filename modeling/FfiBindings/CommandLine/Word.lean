import FfiBindings.CommandLine.Option
import FfiBindings.Text.Digit
import FfiBindings.Text.Quoted
import FfiBindings.Text.Split

set_option autoImplicit false

namespace FfiBindings.CommandLine

inductive UsageError where
  | ambiguous (word : String) (candidates : List Flag)
  | unexpectedValue (flag : Flag) (value : String)
  | missingValue (flag : Flag)
  | unknownCommand (word : String)
  | missingOperand (name : String)
  | unrecognised (words : List String)
deriving DecidableEq, Repr

namespace UsageError

def message : UsageError → String
  | ambiguous word candidates =>
    let names := ", ".intercalate (candidates.map Flag.long)
    s!"ambiguous option: {word} could match {names}"
  | unexpectedValue flag value =>
    s!"argument {flag.names}: ignored explicit argument {Text.quote value}"
  | missingValue flag => s!"argument {flag.names}: expected one argument"
  | unknownCommand word =>
    let choices := ", ".intercalate (CommandName.all.map fun name => Text.quote name.text)
    s!"argument command: invalid choice: {Text.quote word} (choose from {choices})"
  | missingOperand name => s!"the following arguments are required: {name}"
  | unrecognised words =>
    let listed := " ".intercalate words
    s!"unrecognized arguments: {listed}"

end UsageError

inductive Word where
  | operand (text : String)
  | separator
  | switches (flags : List Flag)
  | valued (flag : Flag) (value : Option String)
  | unknown (text : String)
  | misused (flag : Flag) (value : String)
deriving DecidableEq, Repr

namespace Word

def flagOfShort? (flags : List Flag) (c : Char) : Option Flag :=
  flags.find? fun flag => flag.short? == some c

-- Single-letter options behind one hyphen. What follows the letters is a value, which none of them
-- takes.
def cluster (flags : List Flag) (found : List Flag) (flag : Flag) : List Char → Word
  | [] => .switches (found ++ [flag])
  | c :: rest =>
    match flagOfShort? flags c with
    | some next => cluster flags (found ++ [flag]) next rest
    | none => .misused flag (String.ofList (c :: rest))

def ofLong (flag : Flag) (value : Option String) : Word :=
  match flag.takesValue, value with
  | true, value => .valued flag value
  | false, none => .switches [flag]
  | false, some value => .misused flag value

def ofShort (flags : List Flag) (flag : Flag) : List Char → Word
  | ['='] => .misused flag ""
  | '=' :: c :: rest => cluster flags [] flag (c :: rest)
  | rest => cluster flags [] flag rest

def isNegativeNumber (text : List Char) : Bool :=
  let isDigit (c : Char) : Bool := (Text.decimalValue? c).isSome
  -- One line break at the end does not count.
  let digits := if text.getLast? == some '\n' then text.dropLast else text
  match Text.cutAt '.' digits with
  | (whole, none) => !whole.isEmpty && whole.all isDigit
  | (whole, some fraction) => whole.all isDigit && !fraction.isEmpty && fraction.all isDigit

def operandOrUnknown (text : String) : Word :=
  let behind := text.toList.drop 1
  if isNegativeNumber behind || text.toList.contains ' ' then .operand text else .unknown text

def ofLongText (flags : List Flag) (text : String) : Except UsageError Word :=
  match flags.find? fun flag => flag.long == text with
  | some flag => .ok (ofLong flag none)
  | none =>
    let (name, value) := Text.cutAt '=' text.toList
    let value := value.map String.ofList
    match flags.filter fun flag => flag.long == String.ofList name && value.isSome with
    | flag :: _ => .ok (ofLong flag value)
    | [] =>
      match flags.filter fun flag => name.isPrefixOf flag.long.toList with
      | [] => .ok (operandOrUnknown text)
      | [flag] => .ok (ofLong flag value)
      | candidates => .error (.ambiguous text candidates)

def ofText (flags : List Flag) (text : String) : Except UsageError Word :=
  match text.toList with
  | '-' :: '-' :: _ => ofLongText flags text
  | '-' :: c :: rest =>
    match flagOfShort? flags c with
    | some flag => .ok (ofShort flags flag rest)
    | none => .ok (operandOrUnknown text)
  | _ => .ok (.operand text)

-- Classify all words; an ambiguous one spoils the whole command line.
def ofTexts (flags : List Flag) : List String → Except UsageError (List Word)
  | [] => .ok []
  -- Only the first separator is one.
  | "--" :: rest => .ok (.separator :: rest.map .operand)
  | text :: rest => do return (← ofText flags text) :: (← ofTexts flags rest)

end Word

end FfiBindings.CommandLine
