import FfiBindings.Program
import FfiBindings.Script.Launch
import FfiBindings.Tree.Difference
import Std.Time.Format

set_option autoImplicit false

namespace FfiBindings.Main

def bytesOf (content : ByteArray) : Text.Bytes :=
  content.toList

-- Without access rights at hand, a file that names its interpreter counts as executable.
def fileOf (content : Text.Bytes) : Entry :=
  .file content (Script.interpreterOf? content).isSome

partial def readAt (deep : Bool) (tree : Tree) (location : Location) : IO Tree := do
  let path := (← IO.currentDir) / location.path.toString
  match ← path.symlinkMetadata.toBaseIO with
  | .error _ => return tree
  | .ok found =>
    match found.type with
    | .dir =>
      let tree := tree.put location .directory
      if deep then
        (← path.readDir).toList.foldlM (fun tree entry =>
          readAt deep tree (location ++ [entry.fileName])) tree
      else
        return tree
    | .file => return tree.put location (fileOf (bytesOf (← IO.FS.readBinFile path)))
    | .symlink => return tree.put location (.link (toString (← IO.FS.realPath path)))
    | .other => return tree

def readWithParents (deep : Bool) (tree : Tree) (location : Location) : IO Tree := do
  let above := (List.range location.length).map location.take
  let tree ← above.foldlM (readAt false) tree
  readAt deep tree location

def placesOf (cwd : Location) (request : CommandLine.Request) : List (Location × Bool) :=
  let placeOf (path : Path) : Location := (Tree.startOf path cwd).steps path.parts
  let directory := match request.command with
    | .generate directory _ => directory
    | .clean directory => directory
  (placeOf (Path.ofString directory), true) ::
    (request.logFile.toList.map fun file => (placeOf file, false))

def readFor (cwd : Location) (arguments : List String) : IO Tree := do
  let tree ← readWithParents false Tree.empty cwd
  match CommandLine.parse arguments with
  | .error _ => return tree
  | .ok request =>
    (placesOf cwd request).foldlM (fun tree (location, deep) =>
      readWithParents deep tree location) tree

def putBack (name : String) : Entry → IO Unit
  | .directory => IO.FS.createDirAll name
  | .file content _ => IO.FS.writeBinFile name ⟨content.toArray⟩
  | .link _ => pure ()

def takeAway (name : String) : IO Unit :=
  if name.endsWith "/" then IO.FS.removeDir name else IO.FS.removeFile name

def applyChange (before after : Tree) : IO Unit := do
  (Tree.gone before after []).reverse.forM fun name => takeAway ("/" ++ name)
  (Tree.changed before after []).forM fun (name, entry) => putBack ("/" ++ name) entry

def locationOf (text : String) : Location :=
  (Path.ofString text).location

def startWorld (arguments : List String) : IO World := do
  let cwd := locationOf (toString (← IO.currentDir))
  let homes := (← IO.getEnv "HOME").toList.map fun home => ("", locationOf home)
  let now ← Std.Time.PlainDateTime.now
  return {
    tree := ← readFor cwd arguments
    session := { cwd, homes }
    time := now.format "uuuu-MM-dd HH:mm:ss,SSS" }

end FfiBindings.Main

open FfiBindings in
def main (arguments : List String) : IO UInt32 := do
  let world ← Main.startWorld arguments
  let work := Program.run { runner := Script.runner } arguments
  let (result, after) := Id.run (StateT.run (ExceptT.run work) world)
  Main.applyChange world.tree after.tree
  (← IO.getStderr).putStr after.console
  match result with
  | .ok exit =>
    (← IO.getStdout).putStr exit.output
    return exit.code.toUInt32
  | .error failure =>
    (← IO.getStderr).putStrLn failure.message
    return 1
