import FfiBindings.Path.Basic

set_option autoImplicit false

namespace FfiBindings

abbrev Location := List String

namespace Location

def step (location : Location) (part : String) : Location :=
  if part == ".." then location.dropLast else location ++ [part]

def steps (start : Location) (parts : List String) : Location :=
  parts.foldl step start

def path (location : Location) : Path :=
  { anchor := .root, parts := location }

def covers (upper lower : Location) : Bool :=
  upper.isPrefixOf lower

def strictlyCovers (upper lower : Location) : Bool :=
  upper.covers lower && upper != lower

def overlaps (first second : Location) : Bool :=
  first.covers second || second.covers first

-- The components that lead from `start` to `target`: up to where they part, then down.
def relativeParts : Location → Location → List String
  | first :: start, second :: target =>
    if first == second then
      relativeParts start target
    else
      List.replicate (start.length + 1) ".." ++ second :: target
  | start, target => List.replicate start.length ".." ++ target

def relativePath (start target : Location) : Path :=
  { anchor := .here, parts := relativeParts start target }

end Location

def Path.location (path : Path) : Location :=
  Location.steps [] path.parts

end FfiBindings
