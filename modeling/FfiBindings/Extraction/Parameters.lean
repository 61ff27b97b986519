import FfiBindings.Signature
import FfiBindings.Text.Blank

set_option autoImplicit false

namespace FfiBindings.Extraction

open Text

-- The binding name of a parameter, a leading `mut` and the space after it taken off.
def bindingName (text : List Char) : List Char :=
  let name := trimChars text
  match dropPrefix? "mut ".toList name with
  | some bound => trimChars bound
  | none => name

def parameter? (part : List Char) : Option Parameter :=
  let part := trimChars part
  if part.isEmpty then
    none
  else
    let cut := cutAt ':' part
    some
      { name := String.ofList (bindingName cut.1)
        type := String.ofList (normaliseChars (cut.2.getD [])) }

def parameters (text : List Char) : List Parameter :=
  (splitAt ',' text).filterMap parameter?

end FfiBindings.Extraction
