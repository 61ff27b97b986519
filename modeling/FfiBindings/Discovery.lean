import FfiBindings.Glob.Exclusion
import FfiBindings.Layout
import FfiBindings.Tree.Change

set_option autoImplicit false

namespace FfiBindings

structure SourceFile where
  path : Path
  relativePath : String
  moduleName : String
deriving DecidableEq, Repr

def stemOf (moduleName : String) : String :=
  String.ofList ((Text.splitAt '/' moduleName.toList).getLastD [])

def SourceFile.stem (source : SourceFile) : String :=
  stemOf source.moduleName

def sourceSuffix : String := ".rs"

def dropSourceSuffix? (text : String) : Option String :=
  (Text.dropPrefix? sourceSuffix.toList.reverse text.toList.reverse).map fun rest =>
    String.ofList rest.reverse

namespace Discovery

def skippedDirectories : List String := ["target", "__pycache__"]

def isSkippedName (name : String) : Bool :=
  skippedDirectories.contains name || name.startsWith "."

def enters (exclude : List String) (parts : List String) : Bool :=
  !isSkippedName (parts.getLastD "") && !Glob.isExcluded exclude ("/".intercalate parts) true

-- Whether an entry counts as a file; a link counts as what it leads to.
def isFileEntry (tree : Tree) (location : Location) : Entry → Bool
  | .file _ _ => true
  | .directory => false
  | .link _ =>
    -- A link that leads nowhere is listed like a file.
    match tree.status [] location.path with
    | .ok .directory => false
    | _ => true

def isFileAt (tree : Tree) (location : Location) : Bool :=
  (tree.entry? location).any (isFileEntry tree location)

-- The files that a walk comes to in a directory and below it, as places relative to `start`; the
-- directory itself is at `parts`. Links to directories are not entered.
def filesBelow (tree : Tree) (exclude : List String) (start : Location) :
    Nat → List String → List (List String)
  | 0, _ => []
  | depth + 1, parts =>
    let places := (tree.names (start ++ parts)).map fun name => parts ++ [name]
    let directories := places.filter fun place =>
      tree.entry? (start ++ place) == some .directory && enters exclude place
    places.filter (fun place => isFileAt tree (start ++ place)) ++
      directories.flatMap (filesBelow tree exclude start depth)

def source? (exclude : List String) (sourceDir : Path) (parts : List String) : Option SourceFile :=
  let relativePath := "/".intercalate parts
  match dropSourceSuffix? relativePath with
  | none => none
  | some moduleName =>
    if Glob.isExcluded exclude relativePath false then
      none
    else
      some { path := { sourceDir with parts := sourceDir.parts ++ parts }, relativePath, moduleName }

def unsorted (tree : Tree) (start : Location) (sourceDir : Path) (exclude : List String) :
    List SourceFile :=
  (filesBelow tree exclude start tree.height []).filterMap (source? exclude sourceDir)

end Discovery

def discover (tree : Tree) (sourceDir : Path) (exclude : List String) : List SourceFile :=
  match tree.locate [] true sourceDir with
  | .error _ => []
  | .ok start =>
    (Discovery.unsorted tree start sourceDir exclude).mergeSort fun first second =>
      first.relativePath ≤ second.relativePath

end FfiBindings
