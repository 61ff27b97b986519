import FfiBindings.Run.World

set_option autoImplicit false

namespace FfiBindings.Cleanup

def removeOutput (path : Path) : Run (List Path) := do
  if ← Run.isDirectory path then
    Run.removeTree path
    return [path]
  else if ← Run.pathExists path then
    Run.unlink path
    return [path]
  else
    return []

def removeFile (path : Path) : Run (List Path) := do
  if ← Run.pathExists path then
    Run.unlink path
    return [path]
  else
    return []

def removedRecord (path : Path) : Log.Record :=
  { level := .debug, component := "cleanup", message := s!"Removed {path}" }

def clean (layout : Layout) : Run (List Path) := do
  let modules ← removeOutput layout.modulesDir
  let libraries ← removeOutput layout.binDir
  let index ← removeFile layout.indexFile
  let removed := modules ++ libraries ++ index
  -- Nothing is logged unless everything could be removed.
  Run.logAll (removed.map removedRecord)
  return removed

end FfiBindings.Cleanup
