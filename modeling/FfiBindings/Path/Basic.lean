import FfiBindings.Text.Split

set_option autoImplicit false

namespace FfiBindings

inductive Anchor where
  | here
  | root
  | doubleRoot
deriving DecidableEq, Repr

def Anchor.text : Anchor → String
  | .here => ""
  | .root => "/"
  | .doubleRoot => "//"

structure Path where
  anchor : Anchor
  parts : List String
deriving DecidableEq, Repr

namespace Path

def anchorOf : List Char → Anchor
  | '/' :: '/' :: '/' :: _ => .root
  | '/' :: '/' :: _ => .doubleRoot
  | '/' :: _ => .root
  | _ => .here

def partsOf (text : List Char) : List String :=
  ((Text.splitAt '/' text).filter fun part => !part.isEmpty && part != ['.']).map String.ofList

def ofString (text : String) : Path :=
  { anchor := anchorOf text.toList, parts := partsOf text.toList }

def toString (path : Path) : String :=
  match path.anchor, path.parts with
  | .here, [] => "."
  | anchor, parts => anchor.text ++ "/".intercalate parts

instance : ToString Path := ⟨toString⟩

def isAbsolute (path : Path) : Bool :=
  path.anchor != .here

def join (base other : Path) : Path :=
  if other.isAbsolute then other else { base with parts := base.parts ++ other.parts }

instance : HDiv Path String Path := ⟨fun base text => base.join (ofString text)⟩

def parent (path : Path) : Path :=
  { path with parts := path.parts.dropLast }

def name (path : Path) : String :=
  path.parts.getLastD ""

def withName (path : Path) (name : String) : Path :=
  { path with parts := path.parts.dropLast ++ [name] }

def relativeTo? (path base : Path) : Option Path :=
  if path.anchor == base.anchor && base.parts.isPrefixOf path.parts then
    some { anchor := .here, parts := path.parts.drop base.parts.length }
  else
    none

end Path

end FfiBindings
