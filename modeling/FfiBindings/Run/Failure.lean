import FfiBindings.Compiler.Runner
import FfiBindings.Extraction.Registry
import FfiBindings.Index.Basic
import FfiBindings.Settings.Basic
import FfiBindings.Template.Error

set_option autoImplicit false

namespace FfiBindings

inductive Failure where
  | file (error : FileError)
  | settings (error : SettingsError)
  | noProject (root : Path)
  | noSources (directory : Path) (name : String)
  | compilation (error : Compiler.CompileError)
  | launch (error : Compiler.LaunchError)
  | parser (error : Extraction.LookupError)
  | indexed (error : AlreadyIndexed)
  | template (error : Template.TemplateError)
  | templateEncoding (failure : Text.Utf8.Failure)
deriving DecidableEq, Repr

def Failure.message : Failure → String
  | .file error => error.message
  | .settings error => error.message
  | .noProject root => s!"Directory {root} does not exist"
  | .noSources directory name =>
    s!"{directory} directory not found. " ++
      s!"Make sure your Rust files are in the {name}/ subdirectory."
  | .compilation error => error.message
  | .launch error => error.message
  | .parser error => error.message
  | .indexed error => error.message
  | .template error => error.message
  | .templateEncoding failure => failure.message

end FfiBindings
