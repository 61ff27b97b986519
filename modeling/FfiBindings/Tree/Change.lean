import FfiBindings.Tree.Walk

set_option autoImplicit false

namespace FfiBindings

abbrev TreeM := ExceptT FileError (StateM Tree)

namespace Tree

def refused (path : Path) (defect : FileDefect) : FileError :=
  .system defect path.toString

def containsNulPart (path : Path) : Bool :=
  path.parts.any containsNul

-- Whether a path leads to something with a property; nothing there is no failure.
def leadsTo (tree : Tree) (cwd : Location) (path : Path) (property : Entry → Bool) :
    Except FileError Bool :=
  match tree.status cwd path with
  | .ok entry => .ok (property entry)
  | .error .nameTooLong =>
    -- The NUL is noticed before the length.
    if containsNulPart path then .ok false else .error (refused path .nameTooLong)
  | .error _ => .ok false

def pathExists (tree : Tree) (cwd : Location) (path : Path) : Except FileError Bool :=
  tree.leadsTo cwd path fun _ => true

def isDirectory (tree : Tree) (cwd : Location) (path : Path) : Except FileError Bool :=
  tree.leadsTo cwd path (· == .directory)

-- Whether a path leads to a regular file; every failure means no.
def isFile (tree : Tree) (cwd : Location) (path : Path) : Bool :=
  match tree.status cwd path with
  | .ok (.file _ _) => true
  | _ => false

def readBytes (tree : Tree) (cwd : Location) (path : Path) : Except FileError Text.Bytes :=
  match tree.status cwd path with
  | .ok (.file content _) => .ok content
  | .ok _ => .error (refused path .isDirectory)
  | .error defect => .error (refused path defect)

def endsInName (path : Path) : Bool :=
  match path.parts.getLast? with
  | none => false
  | some part => part != ".."

def makeDirectory (tree : Tree) (cwd : Location) (path : Path) : Except FileDefect Tree := do
  let location ← tree.locate cwd false path
  match tree.entry? location with
  | some _ => throw .alreadyExists
  | none => return tree.put location .directory

def acceptExisting (cwd : Location) (path : Path) (defect : FileDefect) : TreeM Unit := do
  if ← (← get).isDirectory cwd path then pure () else throw (refused path defect)

-- Make a directory and the directories above it; the components are given last one first.
def makeAll (cwd : Location) (anchor : Anchor) : List String → TreeM Unit
  | [] => pure ()
  | part :: parents => do
    let path : Path := { anchor, parts := (part :: parents).reverse }
    match (← get).makeDirectory cwd path with
    | .ok tree => set tree
    -- Only a missing parent is worth a second attempt.
    | .error .missing =>
      makeAll cwd anchor parents
      match (← get).makeDirectory cwd path with
      | .ok tree => set tree
      | .error .missing => throw (refused path .missing)
      | .error defect => acceptExisting cwd path defect
    | .error defect => acceptExisting cwd path defect

def makeDirectories (cwd : Location) (path : Path) : TreeM Unit :=
  if containsNulPart path then throw .nulInPath
  else makeAll cwd path.anchor path.parts.reverse

-- Change the content of a file, links followed; a missing file counts as empty. Answers where the
-- file is.
def update (cwd : Location) (path : Path) (change : Text.Bytes → Text.Bytes) : TreeM Location := do
  if containsNulPart path then throw .nulInPath
  let tree ← get
  match tree.locate cwd true path with
  | .error defect => throw (refused path defect)
  | .ok location =>
    match tree.entry? location with
    | none =>
      modify fun tree => tree.put location (.file (change []) false)
      return location
    | some (.file content executable) =>
      modify fun tree => tree.put location (.file (change content) executable)
      return location
    | some _ => throw (refused path .isDirectory)

def write (cwd : Location) (path : Path) (text : String) : TreeM Unit := do
  let _ ← update cwd path fun _ => Text.utf8 text

def unlink (cwd : Location) (path : Path) : TreeM Unit := do
  let tree ← get
  match tree.locate cwd false path with
  | .error defect => throw (refused path defect)
  | .ok location =>
    match tree.entry? location with
    | none => throw (refused path .missing)
    | some .directory => throw (refused path .isDirectory)
    | some _ => set (tree.erase location)

def removeDirectory (cwd : Location) (path : Path) : TreeM Unit := do
  let tree ← get
  match tree.locate cwd false path with
  | .error defect => throw (refused path defect)
  | .ok location =>
    if tree.entry? location == none then throw (refused path .missing)
    -- A path that ends in `..` names a directory that is still in use.
    else if endsInName path then set (tree.erase location)
    else throw (refused path .notEmpty)

-- Remove a directory with everything in it, which must not be a link to one.
def removeTree (cwd : Location) (path : Path) : TreeM Unit := do
  let tree ← get
  match tree.locate cwd false path with
  | .error defect => throw (refused path defect)
  | .ok location =>
    match tree.entry? location with
    | none => throw (refused path .missing)
    | some (.link _) => throw .treeIsLink
    | some (.file _ _) => throw (refused path .notDirectory)
    | some .directory =>
      -- What is inside goes first and stays gone if the directory itself cannot go.
      set (tree.eraseBelow location)
      removeDirectory cwd path

end Tree

end FfiBindings
