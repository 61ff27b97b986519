import FfiBindings.Text.Blank

set_option autoImplicit false

namespace FfiBindings

inductive FfiType where
  | u8 | u16 | u32 | u64
  | i8 | i16 | i32 | i64
  | f32 | f64
  | bool | char | ptr | cstring | void
deriving DecidableEq, Repr

namespace FfiType

def name : FfiType → String
  | u8 => "u8"
  | u16 => "u16"
  | u32 => "u32"
  | u64 => "u64"
  | i8 => "i8"
  | i16 => "i16"
  | i32 => "i32"
  | i64 => "i64"
  | f32 => "f32"
  | f64 => "f64"
  | bool => "bool"
  | char => "char"
  | ptr => "ptr"
  | cstring => "cstring"
  | void => "void"

def all : List FfiType :=
  [u8, u16, u32, u64, i8, i16, i32, i64, f32, f64, bool, char, ptr, cstring, void]

def ofName? (name : String) : Option FfiType :=
  all.find? fun type => type.name == name

def fallback : FfiType := u64

end FfiType

abbrev TypeAliases := List (String × String)

-- The type of a declared token. Spelling differences in blanks do not matter, and the result of an
-- alias is not looked up among the aliases again.
def mapType (aliases : TypeAliases) (token : String) : FfiType :=
  let token := Text.normalise token
  let target := (aliases.lookup token).getD token
  (FfiType.ofName? target).getD FfiType.fallback

end FfiBindings
