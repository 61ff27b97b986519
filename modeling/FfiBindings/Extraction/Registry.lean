import FfiBindings.Extraction.Scan
import FfiBindings.Text.Casing

set_option autoImplicit false

namespace FfiBindings.Extraction

structure SignatureParser where
  name : String
  extract : List Char → List Signature

def declarationParser : SignatureParser where
  name := "regex"
  extract := extract

inductive Plugin where
  | parser (parser : SignatureParser)
  | otherObject
  | unavailable (reason : String)

inductive LookupError where
  | unknown (name : String)
  | unavailable (name reason : String)
  | noParser
deriving DecidableEq, Repr

def LookupError.message : LookupError → String
  | .unknown name => s!"Unknown signature parser: {name}"
  | .unavailable name reason => s!"Failed to load parser entry point '{name}': {reason}"
  | .noParser => "Parser entry point must be a SignatureParser subclass or factory"

abbrev Plugins := List (String × Plugin)

def findParser (plugins : Plugins) (name : String) : Except LookupError SignatureParser :=
  let key := Text.lower name
  if key == declarationParser.name then
    .ok declarationParser
  else
    match plugins.find? fun plugin => Text.lower plugin.1 == key with
    | none => .error (.unknown name)
    | some (_, .parser parser) => .ok parser
    | some (_, .otherObject) => .error .noParser
    | some (_, .unavailable reason) => .error (.unavailable name reason)

end FfiBindings.Extraction
