import FfiBindings.Path.Basic

set_option autoImplicit false

namespace FfiBindings.Template

inductive Place where
  | directory (path : Path)
  | standard
deriving DecidableEq, Repr

def searchPath (preferred : Option Place) : List Place :=
  (preferred.toList ++ [Place.standard]).eraseDups

end FfiBindings.Template
