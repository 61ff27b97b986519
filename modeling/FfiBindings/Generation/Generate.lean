import FfiBindings.Compiler.Native
import FfiBindings.Generation.Emit

set_option autoImplicit false

namespace FfiBindings

abbrev CompileStep := Layout → List SourceFile → Run (List Path)

structure Tools where
  plugins : Extraction.Plugins := []
  parser : Option Extraction.SignatureParser := none
  compiler : Option CompileStep := none
  platform : String := "linux"
  runner : Compiler.Runner

structure Report where
  layout : Layout
  modules : List BindingModule
  skipped : List String
  artifacts : List Path
  index : Path
deriving DecidableEq, Repr

namespace Generation

def startRecord (count : Nat) (sourceDir : Path) : Log.Record :=
  { level := .info
    component := "generator"
    message := s!"Generating bindings for {count} Rust files in {sourceDir}" }

def skippedRecord (source : String) : Log.Record :=
  { level := .warning
    component := "generator"
    message := s!"No exported functions found in {source}" }

def doneRecord (written skipped : Nat) : Log.Record :=
  { level := .info
    component := "generator"
    message := s!"Generated {written} binding modules ({skipped} skipped)" }

def sourceText (bytes : Text.Bytes) : List Char :=
  Text.unifyNewlines (Text.Utf8.decodeLossy bytes)

def moduleOf? (parser : Extraction.SignatureParser) (source : SourceFile) (bytes : Text.Bytes) :
    Option (BindingModule × List Log.Record) :=
  match parser.extract (sourceText bytes) with
  | [] => none
  | signatures =>
    let result := deduplicate source.relativePath signatures
    some
      ({ source := source.relativePath, name := source.moduleName, signatures := result.kept },
        result.records)

def addToIndex (layout : Layout) (bindings : BindingModule) (index : ExportIndex) :
    Run ExportIndex :=
  match index.add (layout.importPath bindings.name) bindings.functionNames with
  | .ok index => return index
  | .error error => throw (.indexed error)

structure Progress where
  modules : List BindingModule := []
  skipped : List String := []
  index : ExportIndex := ExportIndex.empty
deriving DecidableEq, Repr

def processSource (emission : Emission) (parser : Extraction.SignatureParser)
    (progress : Progress) (source : SourceFile) : Run Progress := do
  let here ← Run.cwd
  let bytes ← Run.ask fun tree => tree.readBytes here source.path
  match moduleOf? parser source bytes with
  | none =>
    Run.log (skippedRecord source.relativePath)
    return { progress with skipped := progress.skipped ++ [source.relativePath] }
  | some (bindings, records) =>
    Run.logAll records
    let _ ← emission.writeModule bindings
    let index ← addToIndex emission.layout bindings progress.index
    return { progress with modules := progress.modules ++ [bindings], index }

def processAll (emission : Emission) (parser : Extraction.SignatureParser)
    (progress : Progress) : List SourceFile → Run Progress
  | [] => return progress
  | source :: rest => do
    processAll emission parser (← processSource emission parser progress source) rest

def compileStep (tools : Tools) (settings : Settings) : CompileStep :=
  tools.compiler.getD
    (Compiler.Native.ofSettings settings.compiler tools.platform tools.runner).compile

def findParser (tools : Tools) (settings : Settings) : Run Extraction.SignatureParser :=
  match tools.parser with
  | some parser => return parser
  | none =>
    match Extraction.findParser tools.plugins settings.parser with
    | .ok parser => return parser
    | .error error => throw (.parser error)

def layoutOf (directory : Path) (names : LayoutNames) : Run Layout := do
  return Layout.ofNames (← Run.resolve directory).path names

def artifactsOf (tools : Tools) (settings : Settings) (skipCompile : Bool) (layout : Layout)
    (sources : List SourceFile) : Run (List Path) :=
  if skipCompile || !settings.compiler.enabled then return []
  else compileStep tools settings layout sources

end Generation

open Generation in
def generate (tools : Tools) (skipCompile : Bool) (directory : Path) : Run Report := do
  let root := (← Run.resolve directory).path
  if !(← Run.isDirectory root) then
    throw (.noProject root)
  let settings ← Run.loadSettings root
  let layout ← layoutOf root settings.layout
  if !(← Run.isDirectory layout.sourceDir) then
    throw (.noSources layout.sourceDir settings.layout.sourceDir)
  let sources := discover (← get).tree layout.sourceDir settings.excludePaths
  Run.log (startRecord sources.length layout.sourceDir)
  -- Compiling comes first: if it fails, no binding has been touched.
  let artifacts ← artifactsOf tools settings skipCompile layout sources
  let parser ← findParser tools settings
  let emission : Emission :=
    { layout, aliases := settings.aliases, templatesDir := settings.templatesDir }
  -- The directory is there afterwards even if no source exports anything.
  Run.makeDirectories layout.modulesDir
  let progress ← processAll emission parser {} sources
  let index ← emission.writeIndex true progress.index
  Run.log (doneRecord progress.modules.length progress.skipped.length)
  return { layout, modules := progress.modules, skipped := progress.skipped, artifacts, index }

end FfiBindings
