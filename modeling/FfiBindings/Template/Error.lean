set_option autoImplicit false

namespace FfiBindings.Template

inductive TemplateError where
  | malformed (message : String)
  | unknownFilter (name : String)
  | failed (message : String)
  | undefined (message : String)
  | wrongType (message : String)
  | wrongAttribute (message : String)
  | wrongCount (message : String)
deriving DecidableEq, Repr

def TemplateError.message : TemplateError → String
  | .malformed message => message
  | .unknownFilter name => s!"No filter named '{name}'."
  | .failed message => message
  | .undefined message => message
  | .wrongType message => message
  | .wrongAttribute message => message
  | .wrongCount message => message

end FfiBindings.Template
