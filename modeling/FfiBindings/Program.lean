import FfiBindings.Cleanup
import FfiBindings.CommandLine.Parse
import FfiBindings.Generation.Generate
import FfiBindings.Log.Configure
import FfiBindings.Run.Nature

set_option autoImplicit false

namespace FfiBindings.Program

structure Exit where
  code : Nat
  output : String
deriving DecidableEq, Repr

def relativized (cwd : Location) : Option Path → String
  | none => "-"
  | some path => ((path.relativeTo? cwd.path).getD path).toString

def generateReport (failure : Failure) : String :=
  match failure, failure.nature with
  | _, .layout => s!"Error: {failure.message}\n"
  | .compilation error, _ =>
    -- What the compiler printed is shown only here.
    let details := if error.output.isEmpty then "" else "\n" ++ error.output
    s!"Error compiling Rust files: {error.message}{details}\n" ++
      "Run `rustport clean` before retrying.\n"
  | _, .configuration | _, .invalidValue => s!"Error generating bindings: {failure.message}\n"
  | _, _ =>
    s!"Error generating bindings: {failure.message}\nRun with --verbose for more details.\n"

def cleanReport? (failure : Failure) : Option String :=
  match failure.nature with
  | .configuration | .system => some s!"Error cleaning files: {failure.message}\n"
  | _ => none

def exitWith (message : String) : Run Exit := do
  modify fun world => { world with console := world.console ++ message }
  return { code := 1, output := "" }

def reporting {α : Type} (report? : Failure → Option String) (work : Run α)
    (finish : α → Run Exit) : Run Exit := do
  let result : Except String α ← tryCatch (Except.ok <$> work) fun failure =>
    match report? failure with
    | some message => return .error message
    | none => throw failure
  match result with
  -- What goes wrong from here on is not reported.
  | .ok value => finish value
  | .error message => exitWith message

-- The current directory. It may have been removed since the program started.
def currentDirectory : Run Location := do
  let world ← get
  if world.tree.entry? world.session.cwd == some .directory then
    return world.session.cwd
  else
    throw (.file (.system .missing ""))

def runGenerate (tools : Tools) (directory : String) (skipCompile : Bool) : Run Exit :=
  reporting (fun failure => some (generateReport failure))
    (generate tools skipCompile (Path.ofString directory)) fun report => do
      let index := relativized (← currentDirectory) (some report.index)
      return {
        code := 0
        output :=
          s!"Generated {report.modules.length} binding modules; index written to {index}\n" }

def cleanProject (directory : Path) : Run Path := do
  let root := (← Run.resolve directory).path
  let settings ← Run.loadSettings root
  let layout ← Generation.layoutOf root settings.layout
  let _ ← Cleanup.clean layout
  return layout.root

def runClean (directory : String) : Run Exit :=
  reporting cleanReport? (cleanProject (Path.ofString directory)) fun root => do
    let shown := relativized (← currentDirectory) (some root)
    return { code := 0, output := s!"Cleaned generated files in {shown}\n" }

def runRequest (tools : Tools) (request : CommandLine.Request) : Run Exit := do
  -- Failing to open the log file is no failure of the command, so it is not reported here.
  Log.configure request.verbose request.logFile
  match request.command with
  | .generate directory skipCompile => runGenerate tools directory skipCompile
  | .clean directory => runClean directory

def run (tools : Tools) (arguments : List String) : Run Exit := do
  match CommandLine.parse arguments with
  | .ok request => runRequest tools request
  | .error ending =>
    modify fun world => { world with console := world.console ++ ending.errorOutput }
    return { code := ending.exitCode, output := ending.output }

end FfiBindings.Program
