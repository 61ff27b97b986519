import FfiBindings.Compiler.Basic
import FfiBindings.Number.Shortest
import FfiBindings.Path.Basic
import FfiBindings.Tree.Basic
import FfiBindings.Tree.FileError

set_option autoImplicit false

namespace FfiBindings.Compiler

structure Invocation where
  arguments : List String
  directory : Path
  timeout : Option Double
deriving DecidableEq, Repr

inductive LimitDefect where
  | notNumber
  | infinite
  | tooLong
  | uncountable
deriving DecidableEq, Repr

def LimitDefect.message : LimitDefect → String
  | .notNumber => "cannot convert float NaN to integer"
  | .infinite => "cannot convert float infinity to integer"
  | .tooLong => "timeout is too large"
  | .uncountable => "timestamp too large to convert to C _PyTime_t"

inductive LaunchError where
  | file (error : FileError)
  | denied (reason : String)
  | undecodable (failure : Text.Utf8.Failure)
  | limit (defect : LimitDefect)
deriving DecidableEq, Repr

def LaunchError.message : LaunchError → String
  | .file error => error.message
  | .denied reason => reason
  | .undecodable failure => failure.message
  | .limit defect => defect.message

inductive Outcome where
  | succeeded
  | notFound
  | timedOut (output : Output)
  | exited (code : Int) (output errorOutput : Output)
  | crashed (error : LaunchError)
deriving DecidableEq, Repr

structure Runner where
  run : Nat → Invocation → Tree → Outcome × Tree

inductive CompileError where
  | notFound (command : String)
  | timedOut (source : String) (timeout : Option Double) (output : Output)
  | exited (source : String) (code : Int) (output errorOutput : Output)
deriving DecidableEq, Repr

namespace CompileError

def timeoutText : Option Double → String
  | none => "None"
  | some seconds => seconds.text

def message : CompileError → String
  | notFound command => "Compiler not found: " ++ command
  | timedOut source timeout _ => s!"Compiling {source} timed out after {timeoutText timeout}s"
  | exited source code _ _ => s!"Compiling {source} failed with exit code {code}"

def output : CompileError → String
  | notFound _ => ""
  | timedOut _ _ output => output.decoded
  | exited _ _ output errorOutput =>
    "\n".intercalate ([output.decoded, errorOutput.decoded].filter fun part => !part.isEmpty)

end CompileError

end FfiBindings.Compiler
