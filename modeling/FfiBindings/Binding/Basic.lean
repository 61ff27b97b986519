import FfiBindings.FfiType
import FfiBindings.Layout
import FfiBindings.Log.Record
import FfiBindings.Signature

set_option autoImplicit false

namespace FfiBindings

structure BindingModule where
  source : String
  name : String
  signatures : List Signature
deriving DecidableEq, Repr

def BindingModule.functionNames (bindings : BindingModule) : List String :=
  bindings.signatures.map (·.name)

structure Deduplication where
  kept : List Signature
  records : List Log.Record
deriving DecidableEq, Repr

def duplicateRecord (source : String) (name : String) : Log.Record :=
  { level := .warning
    component := "emitter"
    message := s!"Duplicate exported function '{name}' in {source}; keeping the first declaration" }

def keepFirst (source : String) (seen : List String) : List Signature → Deduplication
  | [] => { kept := [], records := [] }
  | signature :: rest =>
    if seen.contains signature.name then
      let others := keepFirst source seen rest
      { others with records := duplicateRecord source signature.name :: others.records }
    else
      let others := keepFirst source (signature.name :: seen) rest
      { others with kept := signature :: others.kept }

def deduplicate (source : String) (signatures : List Signature) : Deduplication :=
  keepFirst source [] signatures

structure FunctionBinding where
  name : String
  declaration : String
  arguments : List FfiType
  returns : FfiType
deriving DecidableEq, Repr

def FunctionBinding.ofSignature (aliases : TypeAliases) (signature : Signature) :
    FunctionBinding :=
  { name := signature.name
    declaration := signature.describe
    arguments := signature.parameterTypes.map (mapType aliases)
    returns := mapType aliases signature.returns }

def BindingModule.functions (aliases : TypeAliases) (bindings : BindingModule) :
    List FunctionBinding :=
  bindings.signatures.map (FunctionBinding.ofSignature aliases)

end FfiBindings
