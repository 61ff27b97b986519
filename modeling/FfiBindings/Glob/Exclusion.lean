import FfiBindings.Glob.Basic
import FfiBindings.Text.Blank

-- A pattern without a slash is also tried on every component of the path; one that ends in a slash
-- is for directories only.

set_option autoImplicit false

namespace FfiBindings.Glob

structure Exclusion where
  pattern : List Char
  directoriesOnly : Bool
deriving DecidableEq, Repr

namespace Exclusion

def ofText? (text : String) : Option Exclusion :=
  let pattern := (Text.trimChars text.toList).dropWhile (· == '/')
  if pattern.isEmpty then none
  -- One slash at the end is the mark, further ones belong to the pattern.
  else if pattern.getLast? == some '/' then
    some { pattern := pattern.dropLast, directoriesOnly := true }
  else some { pattern, directoriesOnly := false }

def applies (exclusion : Exclusion) (path : List Char) (isDirectory : Bool) : Bool :=
  (isDirectory || !exclusion.directoriesOnly) &&
    (isMatch exclusion.pattern path ||
      (!exclusion.pattern.contains '/' && (Text.splitAt '/' path).any (isMatch exclusion.pattern)))

end Exclusion

def isExcluded (patterns : List String) (path : String) (isDirectory : Bool) : Bool :=
  (patterns.filterMap Exclusion.ofText?).any fun exclusion =>
    exclusion.applies path.toList isDirectory

end FfiBindings.Glob
