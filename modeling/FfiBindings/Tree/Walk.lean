import FfiBindings.Tree.Basic
import FfiBindings.Tree.FileError

set_option autoImplicit false

namespace FfiBindings

def nameLimit : Nat := 255

def linkLimit : Nat := 40

def containsNul (text : String) : Bool :=
  text.toList.contains (Char.ofNat 0)

namespace Tree

-- Where a link points, seen from the directory it stands in.
def linkStart (target : Path) (directory : Location) : Location :=
  if target.isAbsolute then [] else directory

/-- Follow components from a directory; the place they lead to may be free if only the last one is
missing. With `follow`, a link in the last place is followed too. -/
def walk (tree : Tree) (follow : Bool) (links : Nat) (here : Location) :
    List String → Except FileDefect Location
  | [] => .ok here
  | ".." :: rest => walk tree follow links here.dropLast rest
  | part :: rest =>
    let next := here ++ [part]
    if nameLimit < part.utf8ByteSize then
      .error .nameTooLong
    else
      match tree.entry? next with
      | none => if rest.isEmpty then .ok next else .error .missing
      | some .directory => walk tree follow links next rest
      | some (.file _ _) => if rest.isEmpty then .ok next else .error .notDirectory
      | some (.link target) =>
        if rest.isEmpty && !follow then
          .ok next
        else if target.isEmpty then
          .error .missing
        else
          -- Every link followed is one link less to follow, so the walk ends.
          match links with
          | 0 => .error .linkLoop
          | links + 1 =>
            let target := Path.ofString target
            walk tree follow links (linkStart target here) (target.parts ++ rest)
termination_by parts => (links, parts.length)

def startOf (path : Path) (cwd : Location) : Location :=
  if path.isAbsolute then [] else cwd

def locate (tree : Tree) (cwd : Location) (follow : Bool) (path : Path) :
    Except FileDefect Location :=
  walk tree follow linkLimit (startOf path cwd) path.parts

def status (tree : Tree) (cwd : Location) (path : Path) : Except FileDefect Entry := do
  let location ← tree.locate cwd true path
  match tree.entry? location with
  | some entry => return entry
  | none => throw .missing

-- Where resolving stopped: at a place, or in a loop with the components not yet resolved.
inductive Resolution where
  | found (location : Location)
  | loop (location : Location) (rest : List String)
  | nul
deriving DecidableEq, Repr

/-- Resolve components from a place. `active` are the links being followed, and `depth` bounds how
many of them there can be. -/
def resolveFrom (tree : Tree) (depth : Nat) (active : List Location) (here : Location) :
    List String → Resolution
  | [] => .found here
  | ".." :: rest => resolveFrom tree depth active here.dropLast rest
  | part :: rest =>
    let next := here ++ [part]
    if containsNul part then
      .nul
    else
      match tree.entry? next with
      | some (.link target) =>
        -- A link met again while it is being followed leads back to itself.
        if active.contains next then
          .loop next rest
        else
          match depth with
          | 0 => .loop next rest
          | depth + 1 =>
            let target := Path.ofString target
            match resolveFrom tree depth (next :: active) (linkStart target here) target.parts with
            | .found location => resolveFrom tree (depth + 1) active location rest
            | .loop location unresolved => .loop location (unresolved ++ rest)
            | .nul => .nul
      | _ => resolveFrom tree depth active next rest
termination_by parts => (depth, parts.length)

-- The place a path stands for, all links followed, whether something is there or not.
def resolve (tree : Tree) (cwd : Location) (path : Path) : Except FileError Location :=
  match resolveFrom tree tree.linkCount [] (startOf path cwd) path.parts with
  | .found location => .ok location
  | .loop location rest =>
    let place := Location.steps location rest
    -- The links in the rest may lead out of the loop after all.
    match tree.status [] place.path with
    | .error .linkLoop => .error (.linksLoop place.path.toString)
    | _ => .ok place
  | .nul => .error .nulInPath

end Tree

end FfiBindings
