import FfiBindings.Log.Record

-- A logger stands below the nearest one in use whose name is its own, cut off at a point. Of points
-- side by side only every other one is a cut, counted from behind.

set_option autoImplicit false

namespace FfiBindings.Log

-- Whether the loggers above a name lead to the program's own. The names are written backwards.
def leadsToProgram (used : List (List Char)) : List Char → Bool
  | '.' :: c :: rest =>
    if c :: rest == programLogger.toList.reverse then true
    else if used.contains (c :: rest) then leadsToProgram used (c :: rest)
    -- The search goes on in front of the character before the point.
    else leadsToProgram used rest
  | _ :: rest => leadsToProgram used rest
  | [] => false

def reachesProgram (used : List String) (component : String) : Bool :=
  let backwards (component : String) : List Char := (loggerName component).toList.reverse
  component.isEmpty || leadsToProgram (used.map backwards) (backwards component)

end FfiBindings.Log
