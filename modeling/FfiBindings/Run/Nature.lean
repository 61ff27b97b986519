import FfiBindings.Run.Failure

set_option autoImplicit false

namespace FfiBindings

inductive Nature where
  | layout
  | compilation
  | configuration
  | invalidValue
  | system
  | other
deriving DecidableEq, Repr

def FileError.nature : FileError → Nature
  | .system _ _ | .treeIsLink => .system
  | .nulInPath => .invalidValue
  | .linksLoop _ | .noHome => .other

def Yaml.Fault.nature : Yaml.Fault → Nature
  | .malformed => .configuration
  | .boolean _ | .emptyNumber | .timestamp | .codePointSize => .other
  | _ => .invalidValue

def SettingsError.nature : SettingsError → Nature
  | .file error => error.nature
  | .encoding _ => .invalidValue
  | .document fault => fault.nature
  | .timeout _ => .other
  | _ => .configuration

def Compiler.LaunchError.nature : Compiler.LaunchError → Nature
  | .file error => error.nature
  | .denied _ => .system
  | .undecodable _ | .limit .notNumber => .invalidValue
  | .limit _ => .other

def Extraction.LookupError.nature : Extraction.LookupError → Nature
  | .unknown _ => .invalidValue
  | _ => .other

def Template.TemplateError.nature : Template.TemplateError → Nature
  | .wrongCount _ => .invalidValue
  | _ => .other

def Failure.nature : Failure → Nature
  | .file error => error.nature
  | .settings error => error.nature
  | .noProject _ | .noSources _ _ => .layout
  | .compilation _ => .compilation
  | .launch error => error.nature
  | .parser error => error.nature
  | .indexed _ => .invalidValue
  | .template error => error.nature
  | .templateEncoding _ => .invalidValue

end FfiBindings
