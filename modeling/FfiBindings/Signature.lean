set_option autoImplicit false

namespace FfiBindings

def voidType : String := "void"

structure Parameter where
  name : String
  type : String
deriving DecidableEq, Repr

structure Signature where
  name : String
  parameters : List Parameter
  returns : String
deriving DecidableEq, Repr

namespace Signature

def parameterTypes (signature : Signature) : List String :=
  signature.parameters.map (·.type)

def describe (signature : Signature) : String :=
  let parameters := ", ".intercalate
    (signature.parameters.map fun parameter => s!"{parameter.name}: {parameter.type}")
  let head := s!"{signature.name}({parameters})"
  if signature.returns == voidType then head else s!"{head} -> {signature.returns}"

end Signature

end FfiBindings
