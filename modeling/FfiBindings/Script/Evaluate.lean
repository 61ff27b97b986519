import FfiBindings.Script.Shell

set_option autoImplicit false

namespace FfiBindings.Script

structure Fields where
  done : List (List Char) := []
  current : Option (List Char) := none

namespace Fields

def add (fields : Fields) (text : List Char) : Fields :=
  { fields with current := some (fields.current.getD [] ++ text) }

def finish (fields : Fields) : Fields :=
  match fields.current with
  | some text => { done := fields.done ++ [text], current := none }
  | none => fields

def isBlank (c : Char) : Bool :=
  c == ' ' || c == '\t' || c == '\n'

def addSplit (fields : Fields) : List Char → Fields
  | [] => fields
  | c :: rest => if isBlank c then addSplit fields.finish rest else addSplit (fields.add [c]) rest

def addAll (fields : Fields) : List String → Fields
  | [] => fields
  | [word] => fields.add word.toList
  | word :: next :: rest => addAll (fields.add word.toList).finish (next :: rest)

def texts (fields : Fields) : List String :=
  fields.finish.done.map String.ofList

end Fields

def quotedPattern (text : List Char) : List Char :=
  text.flatMap fun c => if c == '*' || c == '?' || c == '[' then ['[', c, ']'] else [c]

def dropMatch (pattern : List Char) (text : List Char) (lengths : List Nat) : List Char :=
  match lengths.find? fun length => Glob.isMatch pattern (text.take length) with
  | some length => text.drop length
  | none => text

def dropEndMatch (pattern : List Char) (text : List Char) (lengths : List Nat) : List Char :=
  match lengths.find? fun length => Glob.isMatch pattern (text.drop (text.length - length)) with
  | some length => text.take (text.length - length)
  | none => text

def operated (value : Option String) (operation : Option (String × List Char)) : String :=
  let text := (value.getD "").toList
  let upward := List.range (text.length + 1)
  match operation with
  | none => value.getD ""
  | some ("length", _) => toString text.length
  | some (":-", argument) | some (":=", argument) =>
    if text.isEmpty then String.ofList argument else String.ofList text
  | some ("-", argument) | some ("=", argument) => value.getD (String.ofList argument)
  | some (":+", argument) => if text.isEmpty then "" else String.ofList argument
  | some ("+", argument) => if value.isSome then String.ofList argument else ""
  | some ("#", pattern) => String.ofList (dropMatch pattern text upward)
  | some ("##", pattern) => String.ofList (dropMatch pattern text upward.reverse)
  | some ("%", pattern) => String.ofList (dropEndMatch pattern text upward)
  | some ("%%", pattern) => String.ofList (dropEndMatch pattern text upward.reverse)
  | some _ => value.getD ""

def dropLastBreaks (text : List Char) : List Char :=
  (text.reverse.dropWhile (· == '\n')).reverse

inductive Sink where
  | descriptor (number : Nat)
  | file (path : String)
  | nowhere
deriving DecidableEq, Repr

def deviceSink? : String → Option Sink
  | "/dev/null" => some .nowhere
  | "/dev/stdout" => some (.descriptor 1)
  | "/dev/stderr" => some (.descriptor 2)
  | _ => none

def specialCommands : List String :=
  [":", "exit", "export", "readonly", "set", "shift", "trap", "unset", "exec", "eval"]

-- Whether a failed redirection ends the script.
def isSpecial : Command → Bool
  | .simple _ _ (word :: _) => (Command.plainText? word).any specialCommands.contains
  | _ => false

def redirectionProblem : FileError → String
  | .system .missing _ => "Directory nonexistent"
  | error => Shell.defectText error

def lineOfCommand : Command → Nat
  | .simple line _ _ => line
  | .redirected (.simple line _ _) _ => line
  | _ => 1

def deliver (sinks : List (Nat × Sink)) : Written → Eval Unit
  | [] => pure ()
  | (descriptor, bytes) :: rest => do
    match (sinks.lookup descriptor).getD (.descriptor descriptor) with
    | .descriptor number => Shell.print number bytes
    | .nowhere => pure ()
    | .file path =>
      let _ ← Shell.onTree fun cwd => Tree.update cwd (Path.ofString path) (· ++ bytes)
    deliver sinks rest

def captured (work : Eval Unit) : Eval (Option Stop × Written) := do
  let outer := (← get).written
  modify fun shell => { shell with written := [] }
  let stop ← tryCatch (do work; pure none) fun stop => pure (some stop)
  let inner := (← get).written
  modify fun shell => { shell with written := outer }
  return (stop, inner)

def isNumeral (word : String) : Bool :=
  !word.isEmpty && word.toList.all Char.isDigit

def setStatus (status : Nat) : Eval Unit :=
  modify fun shell => { shell with status }

def joinedOutput (written : Written) (descriptor : Nat) : Text.Bytes :=
  (written.filter fun piece => piece.1 == descriptor).flatMap (·.2)

mutual

def expandParts : Nat → Fields → Word → Eval Fields
  | 0, fields, _ => return fields
  | _, fields, [] => return fields
  | fuel + 1, fields, part :: rest => do
    let shell ← get
    let fields ← match part with
      | .text _ value => pure (fields.add value)
      | .parameter true "@" none => pure (fields.addAll shell.arguments)
      | .parameter quoted name operation =>
        let value := operated (shell.parameter name) operation
        pure (if quoted then fields.add value.toList else fields.addSplit value.toList)
      | .command quoted source =>
        let output ← commandOutput fuel source
        pure (if quoted then fields.add output else fields.addSplit output)
    expandParts fuel fields rest

def commandOutput : Nat → List Char → Eval (List Char)
  | 0, _ => return []
  | fuel + 1, source => do
    match Command.ofText? source with
    | none => return []
    | some body =>
      let (stop, written) ← captured (inSubshell fuel body)
      match stop with
      | some .timeout => throw .timeout
      | _ =>
        written.forM fun (descriptor, bytes) =>
          if descriptor == 1 then pure () else Shell.print descriptor bytes
        return dropLastBreaks (Shell.lossy (joinedOutput written 1))

def inSubshell : Nat → Command → Eval Unit
  | 0, _ => pure ()
  | fuel + 1, body => do
    let before ← get
    let stop ← tryCatch (do run fuel body; pure none) fun stop => pure (some stop)
    modify fun shell =>
      { shell with
        cwd := before.cwd, bindings := before.bindings, arguments := before.arguments
        stopOnError := before.stopOnError }
    match stop with
    | some (.exit code) => setStatus (code % 256).toNat
    | some .timeout => throw .timeout
    | none => pure ()

def expandAll : Nat → List Word → Eval (List String)
  | 0, _ => return []
  | _, [] => return []
  | fuel + 1, word :: rest => do
    let fields ← expandParts fuel {} word
    return fields.texts ++ (← expandAll fuel rest)

def expandText : Nat → Word → Eval String
  | 0, _ => return ""
  | fuel + 1, word => do
    return " ".intercalate (← expandParts fuel {} word).texts

def expandPattern : Nat → Word → Eval (List Char)
  | 0, _ => return []
  | _, [] => return []
  | fuel + 1, part :: rest => do
    let text ← match part with
      | .text quoted value => pure (if quoted then quotedPattern value else value)
      | other => do
        let text := (← expandText fuel [other]).toList
        pure (quotedPattern text)
    return text ++ (← expandPattern fuel rest)

def openAll : Nat → List (Nat × Sink) → List Redirection →
    Eval (Except String (List (Nat × Sink)))
  | 0, sinks, _ => return .ok sinks
  | _, sinks, [] => return .ok sinks
  | fuel + 1, sinks, redirection :: rest => do
    let target ← expandText fuel redirection.target
    match redirection.kind with
    | .duplicate =>
      let number := (target.toNat?).getD 1
      let sink := (sinks.lookup number).getD (.descriptor number)
      openAll fuel ((redirection.descriptor, sink) :: sinks) rest
    | .input =>
      let shell ← get
      match shell.tree.readBytes shell.cwd (Path.ofString target) with
      | .ok bytes =>
        set { shell with input := bytes }
        openAll fuel sinks rest
      | .error _ =>
        if target == "/dev/null" then
          set { shell with input := [] }
          openAll fuel sinks rest
        else
          return .error s!"cannot open {target}: No such file"
    | kind =>
      match deviceSink? target with
      | some sink => openAll fuel ((redirection.descriptor, sink) :: sinks) rest
      | none =>
        let change : Text.Bytes → Text.Bytes := if kind == .append then id else fun _ => []
        match ← Shell.onTree fun cwd => Tree.update cwd (Path.ofString target) change with
        | .ok _ => openAll fuel ((redirection.descriptor, .file target) :: sinks) rest
        | .error error => return .error s!"cannot create {target}: {redirectionProblem error}"

def runPipe : Nat → Text.Bytes → List Command → Eval Unit
  | 0, _, _ => pure ()
  | _, _, [] => pure ()
  | fuel + 1, input, [last] => do
    modify fun shell => { shell with input }
    inSubshell fuel last
  | fuel + 1, input, first :: second :: rest => do
    modify fun shell => { shell with input }
    let (stop, written) ← captured (inSubshell fuel first)
    if stop == some .timeout then throw .timeout
    written.forM fun (descriptor, bytes) =>
      if descriptor == 1 then pure () else Shell.print descriptor bytes
    runPipe fuel (joinedOutput written 1) (second :: rest)

def runArms : Nat → String → List (List Word × Command) → Eval Unit
  | 0, _, _ => pure ()
  | _, _, [] => setStatus 0
  | fuel + 1, subject, (patterns, body) :: rest => do
    let texts ← patterns.mapM (expandPattern fuel)
    if texts.any fun pattern => Glob.isMatch pattern subject.toList then
      setStatus 0
      run fuel body
    else
      runArms fuel subject rest

def runEach : Nat → String → List String → Command → Eval Unit
  | 0, _, _, _ => pure ()
  | _, _, [], _ => pure ()
  | fuel + 1, name, value :: rest, body => do
    Shell.assign name value
    run fuel body
    runEach fuel name rest body

-- Run one command after the other; with `set -e`, a failing one is the last.
def runAll : Nat → List Command → Eval Unit
  | 0, _ => pure ()
  | _, [] => pure ()
  | fuel + 1, first :: rest => do
    run fuel first
    let shell ← get
    let tested := match first with
      | .both _ _ | .either _ _ | .not _ => true
      | _ => false
    if shell.stopOnError && shell.status != 0 && !tested then
      throw (.exit shell.status)
    runAll fuel rest

def runSimple : Nat → Nat → List (String × Word) → List Word → Eval Unit
  | 0, _, _, _ => pure ()
  | fuel + 1, line, assignments, words => do
    let fields ← expandAll fuel words
    assignments.forM fun (name, word) => do
      Shell.assign name (← expandText fuel word)
    match fields with
    | [] => if !assignments.isEmpty then setStatus 0
    | "exec" :: name :: rest => do
      runNamed fuel line name rest
      throw (.exit (← get).status)
    | "eval" :: rest =>
      match Command.ofText? (" ".intercalate rest).toList with
      | some body => run fuel body
      | none => throw (.exit 2)
    | name :: rest => runNamed fuel line name rest

def runNamed : Nat → Nat → String → List String → Eval Unit
  | 0, _, _, _ => pure ()
  | _ + 1, line, name, words => do
    let short := (Path.ofString name).name
    let isSystem := ["/bin/", "/usr/bin/"].any fun directory => name == directory ++ short
    if ["exit", "return"].contains name && !(words.head?.all isNumeral) then
      Shell.complain line s!"{name}: Illegal number: {words.headD name}"
      throw (.exit 2)
    match Shell.utility? (if isSystem then short else name) words with
    | some work => setStatus (← work)
    | none =>
      Shell.complain line s!"{name}: not found"
      setStatus 127

def run : Nat → Command → Eval Unit
  | 0, _ => pure ()
  | fuel + 1, command => do
    match command with
    | .simple line assignments words => runSimple fuel line assignments words
    | .redirected body redirections =>
      let input := (← get).input
      match ← openAll fuel [] redirections with
      | .ok sinks =>
        let (stop, written) ← captured (run fuel body)
        deliver sinks written
        modify fun shell => { shell with input }
        match stop with
        | some stop => throw stop
        | none => pure ()
      | .error message =>
        Shell.complain (lineOfCommand body) message
        if isSpecial body then throw (.exit 2) else setStatus 2
    | .pipe commands => runPipe fuel (← get).input commands
    | .not body =>
      run fuel body
      setStatus (if (← get).status == 0 then 1 else 0)
    | .both first second =>
      run fuel first
      if (← get).status == 0 then run fuel second
    | .either first second =>
      run fuel first
      if (← get).status != 0 then run fuel second
    | .sequence commands => runAll fuel commands
    | .choice condition positive negative =>
      tested fuel condition
      if (← get).status == 0 then
        run fuel positive
      else
        setStatus 0
        run fuel negative
    | .case subject arms => runArms fuel (← expandText fuel subject) arms
    | .each name words body => runEach fuel name (← expandAll fuel words) body
    | .repeated inverted condition body =>
      tested fuel condition
      if ((← get).status == 0) != inverted then
        run fuel body
        run fuel command
      else
        setStatus 0
    | .subshell body => inSubshell fuel body

-- Run a condition, whose failure never ends the script.
def tested : Nat → Command → Eval Unit
  | 0, _ => pure ()
  | fuel + 1, condition => do
    let stopOnError := (← get).stopOnError
    modify fun shell => { shell with stopOnError := false }
    run fuel condition
    modify fun shell => { shell with stopOnError }

end

-- How many steps a script may nest and take.
def stepLimit : Nat := 10000

def evaluate (source : List Char) (shell : Shell) : Except Stop Unit × Shell :=
  match Command.ofText? source with
  | none =>
    let problem := Text.utf8 s!"{shell.name}: 1: Syntax error\n"
    (.error (.exit 2), { shell with written := shell.written ++ [(2, problem)] })
  | some command => Id.run (StateT.run (ExceptT.run (run stepLimit command)) shell)

end FfiBindings.Script
