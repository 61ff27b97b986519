import FfiBindings.Binding.Text
import FfiBindings.Index.Basic

set_option autoImplicit false

namespace FfiBindings

def ExportIndex.Collision.exportLine (collision : ExportIndex.Collision) : String :=
  "export \x7b " ++ collision.name ++ " \x7d from \"" ++ collision.first ++ "\";"

def indexLines (importPaths : List String) (collisions : List ExportIndex.Collision) :
    List String :=
  [ "// Generated by rustport. Do not edit." ] ++
  importPaths.map (fun path => "export * from \"" ++ path ++ "\";") ++
  if collisions.isEmpty then
    []
  else
    [ "", "// Names exported by more than one module resolve to the first one." ] ++
    collisions.map ExportIndex.Collision.exportLine

def indexText (index : ExportIndex) : String :=
  textOfLines (indexLines index.importPaths index.collisions)

end FfiBindings
