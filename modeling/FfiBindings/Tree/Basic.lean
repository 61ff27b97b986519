import FfiBindings.Path.Location
import FfiBindings.Text.Utf8

-- The root is a directory, and a location without an entry is free. A file is told by its location
-- alone: that two names share one file, as hard links do, is left out.

set_option autoImplicit false

namespace FfiBindings

inductive Entry where
  | file (content : Text.Bytes) (executable : Bool)
  | directory
  | link (target : String)
deriving DecidableEq, Repr

structure Tree where
  entries : List (Location × Entry)
deriving DecidableEq, Repr

namespace Tree

def empty : Tree := { entries := [] }

def entry? (tree : Tree) (location : Location) : Option Entry :=
  if location.isEmpty then some .directory else tree.entries.lookup location

def erase (tree : Tree) (location : Location) : Tree :=
  { entries := tree.entries.filter fun entry => entry.1 != location }

def put (tree : Tree) (location : Location) (entry : Entry) : Tree :=
  { entries := (location, entry) :: (tree.erase location).entries }

-- The tree without everything below a location; the location itself stays.
def eraseBelow (tree : Tree) (location : Location) : Tree :=
  { entries := tree.entries.filter fun entry => !location.strictlyCovers entry.1 }

def names (tree : Tree) (location : Location) : List String :=
  tree.entries.filterMap fun entry =>
    if entry.1.dropLast == location then entry.1.getLast? else none

-- The length of the longest location bounds how deep directories are nested.
def height (tree : Tree) : Nat :=
  tree.entries.foldr (fun entry longest => max entry.1.length longest) 0

-- The number of links bounds how deep links can lead.
def linkCount (tree : Tree) : Nat :=
  (tree.entries.filter fun entry => match entry.2 with
    | .link _ => true
    | _ => false).length

end Tree

end FfiBindings
