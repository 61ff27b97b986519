import FfiBindings.Layout
import FfiBindings.Settings.Coercion
import FfiBindings.Tree.FileError
import FfiBindings.Yaml.Fault

set_option autoImplicit false

namespace FfiBindings

structure CompilerSettings where
  enabled : Bool := true
  command : String := "rustc"
  arguments : List String := []
  timeout : Option Double := none
deriving DecidableEq, Repr

structure Settings where
  root : Path
  layout : LayoutNames := {}
  parser : String := "regex"
  compiler : CompilerSettings := {}
  aliases : TypeAliases := []
  excludePaths : List String := []
  templatesDir : Option Path := none
deriving DecidableEq, Repr

def settingsFileName : String := ".rustport.yml"

inductive OutputKey where
  | modulesDir
  | binDir
  | indexFile
deriving DecidableEq, Repr

namespace OutputKey

def name : OutputKey → String
  | modulesDir => "modules_dir"
  | binDir => "bin_dir"
  | indexFile => "index_file"

def all : List OutputKey := [modulesDir, binDir, indexFile]

def valueIn (names : LayoutNames) : OutputKey → String
  | modulesDir => names.modulesDir
  | binDir => names.binDir
  | indexFile => names.indexFile

end OutputKey

inductive SettingsError where
  | file (error : FileError)
  | encoding (failure : Text.Utf8.Failure)
  | document (fault : Yaml.Fault)
  | noMapping
  | sourceOutside (root : Path) (source : String)
  | outputOutside (key : OutputKey) (root : Path) (output : String)
  | outputOverlaps (key : OutputKey) (source output : String)
  | aliasTarget (error : UnknownTarget)
  | timeout (error : Value.Overflow)
deriving DecidableEq, Repr

def SettingsError.message : SettingsError → String
  | .file error => error.message
  | .encoding failure => failure.message
  | .document .malformed => "Failed to parse " ++ settingsFileName
  | .document fault => fault.message
  | .noMapping => settingsFileName ++ " must contain a mapping at the root"
  | .sourceOutside root source =>
    s!"layout.source_dir must be a subdirectory of {root}: {Text.quote source}"
  | .outputOutside key root output =>
    s!"layout.{key.name} must point inside {root}: {Text.quote output}"
  | .outputOverlaps key source output =>
    s!"layout.{key.name} overlaps the source directory {Text.quote source}: {Text.quote output}"
  | .aliasTarget error => error.message
  | .timeout error => error.message

end FfiBindings
