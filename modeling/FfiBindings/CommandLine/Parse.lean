import FfiBindings.CommandLine.Word
import FfiBindings.Path.Basic

set_option autoImplicit false

namespace FfiBindings.CommandLine

def defaultDirectory : String := "lib"

inductive Command where
  | generate (directory : String) (skipCompile : Bool)
  | clean (directory : String)
deriving DecidableEq, Repr

structure Request where
  verbose : Bool
  logFile : Option Path
  command : Command
deriving DecidableEq, Repr

inductive Ending where
  | help (level : Level)
  | version
  | refused (level : Level) (error : UsageError)
deriving DecidableEq, Repr

namespace Ending

def exitCode : Ending → Nat
  | refused _ _ => 2
  | _ => 0

def linesText (lines : List String) : String :=
  String.join (lines.map (· ++ "\n"))

def output : Ending → String
  | help level => linesText level.help
  | version => versionLine ++ "\n"
  | refused _ _ => ""

def errorOutput : Ending → String
  | refused level error =>
    linesText (level.usage ++ [s!"{level.title}: error: {error.message}"])
  | _ => ""

end Ending

structure Given where
  verbose : Bool := false
  logFile : Option Path := none
  skipCompile : Bool := false
  directory : Option String := none
  unrecognised : List String := []
deriving DecidableEq, Repr

namespace Given

def switch (level : Level) (given : Given) : Flag → Except Ending Given
  | .help => .error (.help level)
  | .version => .error .version
  | .verbose => .ok { given with verbose := true }
  | .skipCompile => .ok { given with skipCompile := true }
  | .logFile => .error (.refused level (.missingValue .logFile))

def switches (level : Level) (given : Given) (flags : List Flag) : Except Ending Given :=
  flags.foldlM (switch level) given

def value (given : Given) (value : String) : Given :=
  { given with logFile := some (Path.ofString value) }

def pass (given : Given) (word : String) : Given :=
  { given with unrecognised := given.unrecognised ++ [word] }

end Given

def readCommand (name : CommandName) (given : Given) : List Word → Except Ending Given
  | [] => .ok given
  | .switches flags :: rest => do
    readCommand name (← given.switches (.command name) flags) rest
  | .valued _ (some value) :: rest => readCommand name (given.value value) rest
  | .valued _ none :: .operand value :: rest => readCommand name (given.value value) rest
  | .valued flag none :: _ => .error (.refused (.command name) (.missingValue flag))
  | .unknown text :: rest => readCommand name (given.pass text) rest
  | .misused flag value :: _ => .error (.refused (.command name) (.unexpectedValue flag value))
  | .operand text :: .separator :: rest =>
    match given.directory with
    | none => readCommand name { given with directory := some text } rest
    | some _ => readCommand name (given.pass text) (.separator :: rest)
  | .operand text :: rest =>
    match given.directory with
    | none => readCommand name { given with directory := some text } rest
    | some _ => readCommand name (given.pass text) rest
  | .separator :: .operand text :: rest =>
    match given.directory with
    | none => readCommand name { given with directory := some text } rest
    | some _ => readCommand name (given.pass "--") (.operand text :: rest)
  | .separator :: rest =>
    -- Only an operand that may be left out takes a separator with nothing behind it.
    match name, given.directory with
    | .clean, none => readCommand name given rest
    | _, _ => readCommand name (given.pass "--") rest

def commandOf (name : CommandName) (given : Given) : Except Ending Command :=
  match name, given.directory with
  | .generate, some directory => .ok (.generate directory given.skipCompile)
  | .generate, none => .error (.refused (.command name) (.missingOperand "dir"))
  | .clean, directory => .ok (.clean (directory.getD defaultDirectory))

def requestOf (outer : Given) (name : CommandName) (texts : List String) :
    Except Ending Request := do
  let level := Level.command name
  let words ← (Word.ofTexts level.flags texts).mapError (.refused level)
  let inner ← readCommand name {} words
  let command ← commandOf name inner
  match outer.unrecognised ++ inner.unrecognised with
  | [] =>
    return {
      verbose := outer.verbose || inner.verbose
      -- What stands nearer to the end of the line wins.
      logFile := inner.logFile.or outer.logFile
      command }
  | words => throw (.refused .program (.unrecognised words))

def readProgram (given : Given) : List (String × Word) → Except Ending Request
  | [] => .error (.refused .program (.missingOperand "command"))
  | (_, .switches flags) :: rest => do readProgram (← given.switches .program flags) rest
  | (_, .valued _ (some value)) :: rest => readProgram (given.value value) rest
  | (_, .valued _ none) :: (_, .operand value) :: rest => readProgram (given.value value) rest
  | (_, .valued flag none) :: _ => .error (.refused .program (.missingValue flag))
  | (_, .unknown text) :: rest => readProgram (given.pass text) rest
  | (_, .misused flag value) :: _ => .error (.refused .program (.unexpectedValue flag value))
  | (_, .separator) :: [] => .error (.refused .program (.missingOperand "command"))
  -- In front of the command a separator is taken for it.
  | (text, .separator) :: _ => .error (.refused .program (.unknownCommand text))
  | (text, .operand _) :: rest =>
    match CommandName.ofText? text with
    | some name => requestOf given name (rest.map (·.1))
    | none => .error (.refused .program (.unknownCommand text))

def parse (texts : List String) : Except Ending Request := do
  let words ← (Word.ofTexts (Level.flags .program) texts).mapError (.refused .program)
  readProgram {} (texts.zip words)

end FfiBindings.CommandLine
