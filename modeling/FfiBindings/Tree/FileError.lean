import FfiBindings.Text.Quoted

set_option autoImplicit false

namespace FfiBindings

inductive FileDefect where
  | missing
  | badFormat
  | notPermitted
  | alreadyExists
  | notDirectory
  | isDirectory
  | nameTooLong
  | notEmpty
  | linkLoop
deriving DecidableEq, Repr

namespace FileDefect

def number : FileDefect → Nat
  | missing => 2
  | badFormat => 8
  | notPermitted => 13
  | alreadyExists => 17
  | notDirectory => 20
  | isDirectory => 21
  | nameTooLong => 36
  | notEmpty => 39
  | linkLoop => 40

def description : FileDefect → String
  | missing => "No such file or directory"
  | badFormat => "Exec format error"
  | notPermitted => "Permission denied"
  | alreadyExists => "File exists"
  | notDirectory => "Not a directory"
  | isDirectory => "Is a directory"
  | nameTooLong => "File name too long"
  | notEmpty => "Directory not empty"
  | linkLoop => "Too many levels of symbolic links"

end FileDefect

inductive FileError where
  -- The system refuses an operation on a path; the path is empty if the operation has none.
  | system (defect : FileDefect) (path : String)
  | treeIsLink
  | linksLoop (path : String)
  | nulInPath
  | noHome
deriving DecidableEq, Repr

def FileError.message : FileError → String
  | .system defect path =>
    let reason := s!"[Errno {defect.number}] {defect.description}"
    if path.isEmpty then reason else s!"{reason}: {Text.quote path}"
  | .treeIsLink => "Cannot call rmtree on a symbolic link"
  | .linksLoop path => "Symlink loop from " ++ Text.quote path
  | .nulInPath => "embedded null byte"
  | .noHome => "Could not determine home directory."

end FfiBindings
