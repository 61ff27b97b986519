import FfiBindings.Discovery
import FfiBindings.Run.World

set_option autoImplicit false

namespace FfiBindings.Compiler

structure Native where
  command : String := "rustc"
  extraArguments : List String := []
  timeout : Option Double := none
  suffix : String
  runner : Runner

namespace Native

def ofSettings (settings : CompilerSettings) (platform : String) (runner : Runner) : Native :=
  { command := settings.command
    extraArguments := settings.arguments
    timeout := settings.timeout
    suffix := librarySuffix platform
    runner }

def invocation (compiler : Native) (layout : Layout) (source : SourceFile) (output : Path) :
    Invocation :=
  { arguments :=
      [compiler.command, "--crate-type", "cdylib", "--crate-name", crateName source.stem, "-o",
        output.toString] ++ compiler.extraArguments ++ [source.path.toString]
    directory := layout.root
    timeout := compiler.timeout }

def call (compiler : Native) (source : SourceFile) (invocation : Invocation) : Run Unit := do
  let world ← get
  let (outcome, tree) := compiler.runner.run world.calls.length invocation world.tree
  -- The call is on record whatever came of it.
  set { world.withTree tree with calls := world.calls ++ [invocation] }
  match outcome with
  | .succeeded => pure ()
  | .notFound => throw (.compilation (.notFound compiler.command))
  | .timedOut output =>
    throw (.compilation (.timedOut source.relativePath compiler.timeout output))
  | .exited code output errorOutput =>
    throw (.compilation (.exited source.relativePath code output errorOutput))
  | .crashed error => throw (.launch error)

def stemOfName (name : String) : String :=
  match (name.toList.reverse.dropWhile (· != '.')) with
  | [] => name
  | _ :: rest => String.ofList rest.reverse

def strays (output : Path) : List Path :=
  straySuffixes.map fun suffix => output.withName (stemOfName output.name ++ suffix)

def removeStray (stray : Path) : Run Unit := do
  if ← Run.pathExists stray then Run.unlink stray

def compileRecord (source : SourceFile) (output : Path) : Log.Record :=
  { level := .debug
    component := "compiler"
    message := s!"Compiling {source.relativePath} -> {output}" }

def compileOne (compiler : Native) (layout : Layout) (source : SourceFile) : Run Path := do
  let output := layout.artifactPath source.moduleName compiler.suffix
  Run.makeDirectories output.parent
  Run.log (compileRecord source output)
  compiler.call source (compiler.invocation layout source output)
  -- A failed call has left by now, so its side products stay.
  (strays output).forM removeStray
  return output

def compile (compiler : Native) (layout : Layout) : List SourceFile → Run (List Path)
  | [] => return []
  | source :: rest => do
    let output ← compiler.compileOne layout source
    return output :: (← compiler.compile layout rest)

end Native

end FfiBindings.Compiler
