import FfiBindings.Tree.Basic

set_option autoImplicit false

namespace FfiBindings.Tree

def entryName (below : Location) (location : Location) (entry : Entry) : String :=
  let name := "/".intercalate (location.drop below.length)
  if entry == .directory then name ++ "/" else name

-- The content of an entry; that a file is executable does not count.
def sameContent : Entry → Entry → Bool
  | .file content _, .file content' _ => content == content'
  | first, second => first == second

def listing (tree : Tree) (below : Location) : List (String × Entry) :=
  let inside := tree.entries.filter fun entry => below.strictlyCovers entry.1
  let named := inside.map fun entry => (entryName below entry.1 entry.2, entry.2)
  named.mergeSort fun first second => first.1 ≤ second.1

def changed (before after : Tree) (below : Location) : List (String × Entry) :=
  let old := before.listing below
  (after.listing below).filter fun (name, entry) =>
    !((old.lookup name).any fun entry' => sameContent entry' entry)

def gone (before after : Tree) (below : Location) : List String :=
  let new := after.listing below
  ((before.listing below).filter fun (name, _) => (new.lookup name).isNone).map (·.1)

end FfiBindings.Tree
