import FfiBindings.Path.Location

set_option autoImplicit false

namespace FfiBindings

structure LayoutNames where
  sourceDir : String := "rs"
  modulesDir : String := "mod"
  binDir : String := "bin"
  indexFile : String := "index.ts"
deriving DecidableEq, Repr

structure Layout where
  root : Path
  sourceDir : Path
  modulesDir : Path
  binDir : Path
  indexFile : Path
deriving DecidableEq, Repr

namespace Layout

def ofNames (root : Path) (names : LayoutNames) : Layout :=
  { root
    sourceDir := root / names.sourceDir
    modulesDir := root / names.modulesDir
    binDir := root / names.binDir
    indexFile := root / names.indexFile }

def modulePath (layout : Layout) (moduleName : String) : Path :=
  layout.modulesDir / (moduleName ++ ".ts")

def artifactPath (layout : Layout) (moduleName suffix : String) : Path :=
  layout.binDir / (moduleName ++ "." ++ suffix)

def importPath (layout : Layout) (moduleName : String) : String :=
  let relative := Location.relativePath layout.indexFile.parent.location
    (layout.modulesDir / moduleName).location
  let specifier := relative.toString
  if specifier.startsWith "../" then specifier else "./" ++ specifier

-- The compiled library of a module, without suffix, seen from the directory of its binding.
def libraryPath (layout : Layout) (moduleName : String) : String :=
  (Location.relativePath (layout.modulePath moduleName).parent.location
    (layout.binDir / moduleName).location).toString

end Layout

end FfiBindings
