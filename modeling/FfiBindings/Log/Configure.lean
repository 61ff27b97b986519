import FfiBindings.Run.World

set_option autoImplicit false

namespace FfiBindings.Log

def thresholdFor (verbose : Bool) : Level :=
  if verbose then .debug else .info

def openFile (file : Path) : Run Location := do
  Run.makeDirectories file.parent
  let here ← Run.cwd
  let place := (Tree.startOf file here).steps file.parts
  Run.onTree (Tree.update here place.path id)

def configure (verbose : Bool) (file : Option Path) : Run Unit := do
  let threshold := thresholdFor verbose
  -- The console is attached before the file is tried.
  modify fun world => { world with handlers := some { threshold, file := .none } }
  match file with
  | none => pure ()
  | some file =>
    let location ← openFile file
    modify fun world => { world with handlers := some { threshold, file := .attached location } }

end FfiBindings.Log
