import FfiBindings.Compiler.Runner
import FfiBindings.Script.Evaluate
import FfiBindings.Text.Newline

set_option autoImplicit false

namespace FfiBindings.Script

open Compiler

inductive Program where
  | script (source : Text.Bytes) (stopOnError : Bool)
  | utility (name : String)
  | shell
  | strict (name : String)
  | absent (name : String)
deriving DecidableEq, Repr

def systemDirectories : List String := ["/bin/", "/usr/bin/"]

def shells : List String := ["sh", "dash", "bash"]

def utilities : List String := ["true", "false", "echo"]

def strictUtilities : List String :=
  ["basename", "cat", "chmod", "cp", "dirname", "ln", "mkdir", "mv", "rm", "sleep", "touch"]

def systemProgram? (name : String) : Option Program :=
  if shells.contains name then some .shell
  else if utilities.contains name then some (.utility name)
  else if strictUtilities.contains name then some (.strict name)
  else none

def systemName? (command : String) : Option String :=
  let name := (Path.ofString command).name
  if systemDirectories.any fun directory => command == directory ++ name then some name else none

def isBlankByte (byte : UInt8) : Bool :=
  byte == 0x20 || byte == 0x09

def interpreterOf? (content : Text.Bytes) : Option (String × String) :=
  match content with
  | 0x23 :: 0x21 :: rest =>
    let line := (rest.takeWhile (· != 0x0A)).dropWhile isBlankByte
    let path := line.takeWhile fun byte => !isBlankByte byte
    let argument := ((line.drop path.length).dropWhile isBlankByte).reverse.dropWhile isBlankByte
    if path.isEmpty then none
    else some (String.ofList (Shell.lossy path), String.ofList (Shell.lossy argument.reverse))
  | _ => none

def interpreted (content : Text.Bytes) (interpreter argument : String) :
    Except FileDefect Program :=
  match systemName? interpreter with
  | none => .error .missing
  | some "env" =>
    if shells.contains argument then .ok (.script content false)
    else match systemProgram? argument with
      | some program => .ok program
      | none => .ok (.absent argument)
  | some name =>
    match systemProgram? name with
    | some .shell => .ok (.script content (argument.toList.contains 'e'))
    | some program => .ok program
    | none => .error .missing

def fileProgram (tree : Tree) (cwd : Location) (command : String) : Except FileDefect Program := do
  match ← tree.status cwd (Path.ofString command) with
  | .file content executable =>
    if command.endsWith "/" then throw .notDirectory
    if !executable then throw .notPermitted
    match interpreterOf? content with
    | some (interpreter, argument) => interpreted content interpreter argument
    | none => throw .badFormat
  | _ => throw .notPermitted

def programOf (tree : Tree) (cwd : Location) (command : String) : Except FileDefect Program :=
  if command.toList.contains '/' then
    match (systemName? command).bind systemProgram? with
    | some program => .ok program
    | none => fileProgram tree cwd command
  else if ["", ".", ".."].contains command then
    .error .notPermitted
  else if nameLimit < command.utf8ByteSize then
    .error .nameTooLong
  else
    match systemProgram? command with
    | some program => .ok program
    | none => .error .missing

def failWith (status : Nat) (message : String) : Eval Unit := do
  Shell.print 2 (Text.utf8 message)
  setStatus status

def work (command : String) (arguments : List String) : Program → Eval Unit
  | .script source stopOnError => do
    modify fun shell => { shell with stopOnError }
    let (result, shell) := evaluate (Shell.lossy source) (← get)
    set shell
    match result with
    | .ok _ => pure ()
    | .error stop => throw stop
  | .utility name =>
    match Shell.utility? name arguments with
    | some work => do setStatus (← work)
    | none => pure ()
  | .shell => failWith 2 s!"{command}: 0: Illegal option --\n"
  | .strict _ =>
    let first := arguments.headD ""
    failWith 1
      (s!"{command}: unrecognized option '{first}'\n" ++
        s!"Try '{command} --help' for more information.\n")
  | .absent name => failWith 127 s!"env: ‘{name}’: No such file or directory\n"

def outputText (bytes : Text.Bytes) : Except Text.Utf8.Failure String :=
  (fun text => String.ofList (Text.unifyNewlines text)) <$> Text.Utf8.decode? bytes

def ended (code : Int) (written : Written) : Outcome :=
  match outputText (joinedOutput written 1), outputText (joinedOutput written 2) with
  | .ok output, .ok errorOutput =>
    if code == 0 then .succeeded else .exited code (.text output) (.text errorOutput)
  | .error failure, _ | _, .error failure => .crashed (.undecodable failure)

def outcomeOf (result : Except Stop Unit) (shell : Shell) : Outcome :=
  match result with
  | .ok _ => ended shell.status shell.written
  | .error (.exit code) => ended code shell.written
  | .error .timeout =>
    let output := joinedOutput shell.written 1
    .timedOut (if output.isEmpty then .none else .bytes output)

-- The longest time that a call can be limited to, in microseconds.
def longestLimit : Nat := 2147483647000

def longestTime : Nat := 9223372036854775

def limitOf : Double → Except LimitDefect Nat
  | .nan => .error .notNumber
  | .infinite true => .ok 0
  | .infinite false => .error .infinite
  | .finite true _ _ => .ok 0
  | .finite false mantissa exponent =>
    let (numerator, denominator) := Double.scale (mantissa * 1000000) 1 exponent
    let limit := numerator / denominator
    if longestTime < limit then .error .uncountable
    else if longestLimit < limit then .error .tooLong
    else .ok limit

def supervised (invocation : Invocation) (command : String) (arguments : List String)
    (program : Program) (tree : Tree) : Outcome × Tree :=
  let shell : Shell :=
    { tree, cwd := invocation.directory.location, name := command, arguments }
  let start (limit : Option Nat) : Outcome × Tree :=
    let (result, shell) :=
      Id.run (StateT.run (ExceptT.run (work command arguments program)) { shell with limit })
    (outcomeOf result shell, shell.tree)
  match invocation.timeout.map limitOf with
  | none => start none
  | some (.ok 0) => (.timedOut .none, tree)
  | some (.ok limit) => start (some limit)
  | some (.error defect) => (.crashed (.limit defect), tree)

def launch (invocation : Invocation) (tree : Tree) : Outcome × Tree :=
  if invocation.arguments.any containsNul then
    (.crashed (.file .nulInPath), tree)
  else
    match invocation.arguments with
    | [] => (.notFound, tree)
    | command :: arguments =>
      match programOf tree invocation.directory.location command with
      | .ok program => supervised invocation command arguments program tree
      | .error .missing => (.notFound, tree)
      | .error defect => (.crashed (.file (.system defect command)), tree)

def runner : Runner := { run := fun _ => launch }

end FfiBindings.Script
