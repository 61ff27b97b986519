import FfiBindings.Log.Hierarchy
import FfiBindings.Run.Failure
import FfiBindings.Settings.Load

set_option autoImplicit false

namespace FfiBindings

namespace Log

inductive LogFile where
  | none
  | attached (location : Location)
  | detached
deriving DecidableEq, Repr

structure Handlers where
  threshold : Level
  file : LogFile
deriving DecidableEq, Repr

def Handlers.count (handlers : Handlers) : Nat :=
  match handlers.file with
  | .none => 1
  | _ => 2

end Log

structure World where
  tree : Tree
  session : Session
  time : String
  handlers : Option Log.Handlers := none
  records : List Log.Record := []
  console : String := ""
  calls : List Compiler.Invocation := []

abbrev Run := ExceptT Failure (StateM World)

namespace World

def appendLine (tree : Tree) (file : Log.LogFile) (line : String) : Tree :=
  match file with
  | .attached location =>
    match tree.entry? location with
    | some (.file content executable) =>
      -- Other writers of the file are respected: a line goes to its current end.
      tree.put location (.file (content ++ Text.utf8 (line ++ "\n")) executable)
    | _ => tree
  | _ => tree

def detach (tree : Tree) (handlers : Log.Handlers) : Log.Handlers :=
  match handlers.file with
  | .attached location =>
    if (tree.entry? location).isNone then { handlers with file := .detached } else handlers
  | _ => handlers

def withTree (world : World) (tree : Tree) : World :=
  { world with tree, handlers := world.handlers.map (detach tree) }

def handlersFor (world : World) (record : Log.Record) : Option Log.Handlers :=
  if Log.reachesProgram (world.records.map (·.component)) record.component then world.handlers
  else none

-- Pass a record to its handlers. Without any, only warnings reach the console.
def log (world : World) (record : Log.Record) : World :=
  let handlers := world.handlersFor record
  let world := { world with records := world.records ++ [record] }
  match handlers with
  | none =>
    if Log.Level.warning.rank ≤ record.level.rank then
      { world with console := world.console ++ record.message ++ "\n" }
    else
      world
  | some handlers =>
    if handlers.threshold.rank ≤ record.level.rank then
      { world with
        console := world.console ++ record.consoleLine ++ "\n"
        tree := appendLine world.tree handlers.file (world.time ++ " " ++ record.detailedLine) }
    else
      world

end World

namespace Run

def onTree {α : Type} (work : TreeM α) : Run α := do
  let world ← get
  let (result, tree) := Id.run (StateT.run (ExceptT.run work) world.tree)
  set (world.withTree tree)
  match result with
  | .ok value => return value
  | .error error => throw (.file error)

def ask {α : Type} (question : Tree → Except FileError α) : Run α := do
  match question (← get).tree with
  | .ok value => return value
  | .error error => throw (.file error)

def log (record : Log.Record) : Run Unit :=
  modify fun world => world.log record

def logAll (records : List Log.Record) : Run Unit :=
  records.forM log

def cwd : Run Location :=
  return (← get).session.cwd

def pathExists (path : Path) : Run Bool := do
  let here ← cwd
  ask fun tree => tree.pathExists here path

def isDirectory (path : Path) : Run Bool := do
  let here ← cwd
  ask fun tree => tree.isDirectory here path

def makeDirectories (path : Path) : Run Unit := do
  onTree (Tree.makeDirectories (← cwd) path)

def write (path : Path) (text : String) : Run Unit := do
  onTree (Tree.write (← cwd) path text)

def unlink (path : Path) : Run Unit := do
  onTree (Tree.unlink (← cwd) path)

def removeTree (path : Path) : Run Unit := do
  onTree (Tree.removeTree (← cwd) path)

def resolve (path : Path) : Run Location := do
  let session := (← get).session
  ask fun tree => session.resolve tree path

def loadSettings (path : Path) : Run Settings := do
  let world ← get
  match Settings.load world.session world.tree path with
  | .ok settings => return settings
  | .error error => throw (.settings error)

end Run

end FfiBindings
