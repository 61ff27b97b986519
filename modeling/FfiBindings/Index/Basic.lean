import FfiBindings.Log.Record

set_option autoImplicit false

namespace FfiBindings

structure ExportIndex where
  entries : List (String × List String)
deriving DecidableEq, Repr

structure AlreadyIndexed where
  importPath : String
deriving DecidableEq, Repr

def AlreadyIndexed.message (error : AlreadyIndexed) : String :=
  s!"Module already indexed: {error.importPath}"

namespace ExportIndex

def empty : ExportIndex := { entries := [] }

def importPaths (index : ExportIndex) : List String :=
  index.entries.map (·.1)

def size (index : ExportIndex) : Nat :=
  index.entries.length

def contains (index : ExportIndex) (importPath : String) : Bool :=
  index.importPaths.contains importPath

def add (index : ExportIndex) (importPath : String) (names : List String) :
    Except AlreadyIndexed ExportIndex :=
  if index.contains importPath then
    .error { importPath }
  else
    .ok { entries := index.entries ++ [(importPath, names)] }

def names (index : ExportIndex) : List String :=
  (index.entries.flatMap (·.2)).eraseDups

def owners (index : ExportIndex) (name : String) : List String :=
  index.entries.flatMap fun entry => (entry.2.filter (· == name)).map fun _ => entry.1

structure Collision where
  name : String
  first : String
  others : List String
deriving DecidableEq, Repr

def Collision.paths (collision : Collision) : List String :=
  collision.first :: collision.others

def collisions (index : ExportIndex) : List Collision :=
  index.names.filterMap fun name =>
    match index.owners name with
    | first :: second :: rest => some { name, first, others := second :: rest }
    | _ => none

def Collision.record (collision : Collision) : Log.Record :=
  let owners := ", ".intercalate collision.paths
  { level := .warning
    component := "index"
    message :=
      s!"Function '{collision.name}' is exported by {owners}; " ++
        s!"index re-exports it from {collision.first}" }

def records (index : ExportIndex) : List Log.Record :=
  index.collisions.map Collision.record

end ExportIndex

end FfiBindings
