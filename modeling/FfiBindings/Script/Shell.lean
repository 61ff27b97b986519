import FfiBindings.Glob.Basic
import FfiBindings.Script.Command
import FfiBindings.Script.Format
import FfiBindings.Tree.Change

set_option autoImplicit false

namespace FfiBindings.Script

-- Output in the order in which it was written, each piece with its descriptor.
abbrev Written := List (Nat × Text.Bytes)

structure Shell where
  tree : Tree
  cwd : Location
  name : String
  arguments : List String
  bindings : List (String × String) := []
  status : Nat := 0
  stopOnError : Bool := false
  input : Text.Bytes := []
  written : Written := []
  -- Time spent and time allowed, in microseconds.
  elapsed : Nat := 0
  limit : Option Nat := none

inductive Stop where
  | exit (code : Int)
  | timeout
deriving DecidableEq, Repr

abbrev Eval := ExceptT Stop (StateM Shell)

namespace Shell

def print (descriptor : Nat) (bytes : Text.Bytes) : Eval Unit :=
  if bytes.isEmpty then pure ()
  else modify fun shell => { shell with written := shell.written ++ [(descriptor, bytes)] }

def complain (line : Nat) (message : String) : Eval Unit := do
  let name := (← get).name
  print 2 (Text.utf8 s!"{name}: {line}: {message}\n")

def onTree {α : Type} (work : Location → TreeM α) : Eval (Except FileError α) := do
  let shell ← get
  let (result, tree) := Id.run (StateT.run (ExceptT.run (work shell.cwd)) shell.tree)
  set { shell with tree }
  return result

def entry? (shell : Shell) (path : String) : Option Entry :=
  if path.isEmpty then none
  else (shell.tree.status shell.cwd (Path.ofString path)).toOption

def readFile (shell : Shell) (path : String) : Except FileError Text.Bytes :=
  if path.isEmpty then .error (.system .missing path)
  else shell.tree.readBytes shell.cwd (Path.ofString path)

def defectText : FileError → String
  | .system defect _ => defect.description
  | error => error.message

def report {α : Type} (command path : String) (result : Except FileError α) : Eval Nat := do
  match result with
  | .ok _ => return 0
  | .error error =>
    print 2 (Text.utf8 s!"{command}: {path}: {defectText error}\n")
    return 1

def parameter (shell : Shell) (name : String) : Option String :=
  match name with
  | "#" => some (toString shell.arguments.length)
  | "?" => some (toString shell.status)
  | "$" => some "1"
  | "0" => some shell.name
  | "@" | "*" => some (" ".intercalate shell.arguments)
  | _ =>
    match name.toNat? with
    | some (position + 1) => shell.arguments[position]?
    | _ => shell.bindings.lookup name

def assign (name value : String) : Eval Unit :=
  modify fun shell =>
    { shell with bindings := (name, value) :: shell.bindings.filter fun entry => entry.1 != name }

def compareNumbers? (operator : String) (first second : Int) : Option Bool :=
  match operator with
  | "-eq" => some (first == second)
  | "-ne" => some (first != second)
  | "-lt" => some (first < second)
  | "-le" => some (first ≤ second)
  | "-gt" => some (second < first)
  | "-ge" => some (second ≤ first)
  | _ => none

def unaryTest (shell : Shell) (operator argument : String) : Bool :=
  match operator, shell.entry? argument with
  | "-n", _ => !argument.isEmpty
  | "-z", _ => argument.isEmpty
  | "-e", entry => entry.isSome
  | "-f", some (.file _ _) => true
  | "-d", some .directory => true
  | "-s", some (.file content _) => !content.isEmpty
  | "-x", some (.file _ executable) => executable
  | "-x", some .directory => true
  | "-r", entry => entry.isSome
  | "-w", entry => entry.isSome
  | _, _ => false

def test (shell : Shell) : List String → Bool
  | [] => false
  | [text] => !text.isEmpty
  | "!" :: rest => !test shell rest
  | [operator, argument] => unaryTest shell operator argument
  | first :: operator :: second :: rest =>
    let result := match operator with
      | "=" | "==" => first == second
      | "!=" => first != second
      | _ => (compareNumbers? operator (Format.integer first) (Format.integer second)).getD false
    match rest with
    | "-a" :: others => result && test shell others
    | "-o" :: others => result || test shell others
    | _ => result

def duration (text : String) : Nat :=
  let number := text.toList.takeWhile fun c => c.isDigit || c == '.'
  let unit := match text.toList.drop number.length with
    | ['m'] => 60
    | ['h'] => 3600
    | _ => 1
  let whole := number.takeWhile (· != '.')
  let fraction := ((number.drop (whole.length + 1)).take 6)
  let value (digits : List Char) : Nat :=
    digits.foldl (fun total digit => total * 10 + (digit.toNat - 0x30)) 0
  (value whole * 1000000 + value fraction * Nat.pow 10 (6 - fraction.length)) * unit

def sleep (text : String) : Eval Nat := do
  let shell ← get
  let elapsed := shell.elapsed + duration text
  set { shell with elapsed }
  match shell.limit with
  | some limit => if limit ≤ elapsed then throw .timeout else return 0
  | none => return 0

def contents (command : String) : List String → Eval (Text.Bytes × Nat)
  | [] => return ([], 0)
  | path :: rest => do
    let shell ← get
    let result := shell.readFile path
    let status ← report command path result
    let (others, otherStatus) ← contents command rest
    return ((result.toOption.getD []) ++ others, max status otherStatus)

def lossy (bytes : Text.Bytes) : List Char :=
  Text.Utf8.decodeLossy bytes

def isFlag (word : String) : Bool :=
  word.startsWith "-" && word != "-"

def splitFlags (words : List String) : String × List String :=
  (String.join (words.filter isFlag), words.filter fun word => !isFlag word)

def forEach (paths : List String) (work : String → Eval Nat) : Eval Nat :=
  paths.foldlM (fun status path => do return max status (← work path)) 0

def removeOne (recursive force : Bool) (path : String) : Eval Nat := do
  let shell ← get
  match shell.entry? path with
  | some .directory =>
    if recursive then report "rm" path (← onTree fun cwd => Tree.removeTree cwd (Path.ofString path))
    else report "rm" path (Except.error (.system .isDirectory path) : Except FileError Unit)
  | _ =>
    let result ← onTree fun cwd => Tree.unlink cwd (Path.ofString path)
    if force then return 0 else report "rm" path result

def copy (source target : String) : Eval Nat := do
  let shell ← get
  match shell.readFile source with
  | .error error => report "cp" source (Except.error error : Except FileError Unit)
  | .ok bytes =>
    let place := match shell.entry? target with
      | some .directory => Path.ofString target / (Path.ofString source).name
      | _ => Path.ofString target
    report "cp" target (← onTree fun cwd => Tree.update cwd place fun _ => bytes)

def makeOne (parents : Bool) (path : String) : Eval Nat := do
  if parents then
    report "mkdir" path (← onTree fun cwd => Tree.makeDirectories cwd (Path.ofString path))
  else
    report "mkdir" path (← onTree fun cwd => do
      match (← get).makeDirectory cwd (Path.ofString path) with
      | .ok tree => set tree
      | .error defect => throw (.system defect path))

def changeDirectory (path : String) : Eval Nat := do
  let shell ← get
  match shell.tree.locate shell.cwd true (Path.ofString path) with
  | .ok location =>
    if shell.tree.entry? location == some .directory then
      set { shell with cwd := location }
      return 0
    else
      return 2
  | .error _ => return 2

def signalNumber (text : String) : Nat :=
  match text with
  | "-KILL" | "-SIGKILL" => 9
  | "-TERM" | "-SIGTERM" => 15
  | "-INT" | "-SIGINT" => 2
  | "-SEGV" | "-SIGSEGV" => 11
  | "-ABRT" | "-SIGABRT" => 6
  | _ => ((String.ofList (text.toList.drop 1)).toNat?).getD 15

def sed (words : List String) : Eval Nat := do
  let words := words.filter (· != "-e")
  match words with
  | script :: files =>
    let (bytes, status) ←
      if files.isEmpty then pure ((← get).input, 0) else contents "sed" files
    match Format.substitute script (lossy bytes) with
    | some text =>
      print 1 (Text.Utf8.encode text)
      return status
    | none => return 1
  | [] => return 1

def grep (words : List String) : Eval Nat := do
  let (flags, operands) := splitFlags words
  let has (c : Char) : Bool := flags.toList.contains c
  match operands with
  | [] => return 2
  | pattern :: files =>
    let (bytes, status) ←
      if files.isEmpty then pure ((← get).input, 0) else contents "grep" files
    let matcher :=
      if has 'F' then Format.Pattern.literal pattern.toList else Format.Pattern.ofText pattern.toList
    let lines := if bytes.isEmpty then [] else (Format.linesOf (lossy bytes)).1
    let found := lines.filter fun line => matcher.occursIn line != has 'v'
    if has 'c' then
      print 1 (Text.utf8 s!"{found.length}\n")
    else if !has 'q' then
      print 1 (Text.Utf8.encode (found.flatMap fun line => line ++ ['\n']))
    return if has 'q' && !found.isEmpty then 0
      else if status != 0 then 2
      else if found.isEmpty then 1 else 0

def assignAll (words : List String) : Eval Unit :=
  words.forM fun word =>
    match Text.cutAt '=' word.toList with
    | (name, some value) => assign (String.ofList name) (String.ofList value)
    | _ => pure ()

def utility? (name : String) (words : List String) : Option (Eval Nat) :=
  match name with
  | ":" | "true" | "trap" | "umask" | "chmod" => some (pure 0)
  | "export" | "readonly" => some do
    assignAll words
    return 0
  | "unset" => some do
    modify fun shell =>
      { shell with bindings := shell.bindings.filter fun entry => !words.contains entry.1 }
    return 0
  | "false" => some (pure 1)
  | "echo" => some do
    print 1 (Format.echo words)
    return 0
  | "printf" => some do
    print 1 (Format.printf words)
    return 0
  | "pwd" => some do
    print 1 (Text.utf8 ((← get).cwd.path.toString ++ "\n"))
    return 0
  | "cat" => some do
    let (bytes, status) ← if words.isEmpty then pure ((← get).input, 0) else contents "cat" words
    print 1 bytes
    return status
  | "touch" => some (forEach words fun path => do
      report "touch" path (← onTree fun cwd => Tree.update cwd (Path.ofString path) id))
  | "mkdir" =>
    let (flags, paths) := splitFlags words
    some (forEach paths (makeOne (flags.toList.contains 'p')))
  | "rm" =>
    let (flags, paths) := splitFlags words
    let has (c : Char) : Bool := flags.toList.contains c
    some (forEach paths (removeOne (has 'r' || has 'R') (has 'f')))
  | "cp" =>
    match (splitFlags words).2 with
    | [source, target] => some (copy source target)
    | _ => some (pure 1)
  | "mv" =>
    match (splitFlags words).2 with
    | [source, target] => some do
      let status ← copy source target
      if status == 0 then removeOne false true source else return status
    | _ => some (pure 1)
  | "test" => some do return if (← get).test words then 0 else 1
  | "[" => some do return if (← get).test words.dropLast then 0 else 1
  | "sleep" => some (sleep (words.headD "0"))
  | "cd" => some (changeDirectory (words.headD "."))
  | "basename" => some do
    let name := (Path.ofString (words.headD "")).name
    let suffix := (words.getD 1 "").toList
    let stem := (Text.dropPrefix? suffix.reverse name.toList.reverse).map fun rest =>
      String.ofList rest.reverse
    print 1 (Text.utf8 (stem.getD name ++ "\n"))
    return 0
  | "dirname" => some do
    print 1 (Text.utf8 ((Path.ofString (words.headD "")).parent.toString ++ "\n"))
    return 0
  | "sed" => some (sed words)
  | "grep" => some (grep words)
  | "set" => some do
    match words with
    | "--" :: rest => modify fun shell => { shell with arguments := rest }
    | flag :: _ =>
      if flag.startsWith "-" && flag.toList.contains 'e' then
        modify fun shell => { shell with stopOnError := true }
    | [] => pure ()
    return 0
  | "shift" => some do
    let count := ((words.headD "1").toNat?).getD 1
    modify fun shell => { shell with arguments := shell.arguments.drop count }
    return 0
  | "exit" | "return" => some do
    match words with
    | code :: _ => throw (.exit (Format.integer code % 256))
    | [] => throw (.exit (← get).status)
  | "kill" => some do
    match words with
    | first :: _ => throw (.exit (-(signalNumber (if first.startsWith "-" then first else "-TERM") : Nat)))
    | [] => return 2
  | _ => none

end Shell

end FfiBindings.Script
