import FfiBindings.Text.Alphanumeric
import FfiBindings.Text.Blank
import FfiBindings.Text.Digit
import FfiBindings.Text.Utf8

set_option autoImplicit false

namespace FfiBindings

def librarySuffix (platform : String) : String :=
  if ["win32", "cygwin", "msys"].any fun family => platform.startsWith family then "dll"
  else if platform == "darwin" then "dylib"
  else "so"

def straySuffixes : List String := [".pdb", ".dll.lib", ".dll.exp", ".dll.a"]

-- A stem as a crate name: word characters only, and no digit in front.
def crateName (stem : String) : String :=
  let name := stem.toList.map fun c => if Text.isWordChar c then c else '_'
  match name with
  | [] => "_"
  | first :: _ => String.ofList (if Text.isDigit first then '_' :: name else name)

inductive Output where
  | none
  | text (value : String)
  | bytes (value : Text.Bytes)
deriving DecidableEq, Repr

def Output.decoded : Output → String
  | .none => ""
  | .text value => Text.trim value
  | .bytes value => String.ofList (Text.trimChars (Text.Utf8.decodeLossy value))

end FfiBindings
