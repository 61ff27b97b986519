import FfiBindings.Binding.Basic
import FfiBindings.Run.World
import FfiBindings.Template.Render
import FfiBindings.Template.SearchPath

set_option autoImplicit false

namespace FfiBindings.Template

def bindingTemplate : String := "binding.ts.j2"

def indexTemplate : String := "index.ts.j2"

-- The source of a template at the first of these places that has one; the standard place has its
-- own for every name.
def findTemplate? (name : String) : List Place → Run (Option (List Char))
  | [] | .standard :: _ => return none
  | .directory directory :: others => do
    let path := directory / name
    let world ← get
    if world.tree.isFile world.session.cwd path then
      let bytes ← Run.ask fun tree => tree.readBytes world.session.cwd path
      match Text.Utf8.decode? bytes with
      | .ok text => return some (Text.unifyNewlines text)
      | .error failure => throw (.templateEncoding failure)
    else
      findTemplate? name others

def ownTemplate? (directory : Option Path) (name : String) : Run (Option (List Char)) :=
  findTemplate? name (searchPath (directory.map .directory))

def rendered (context : Context) (source : List Char) : Run String := do
  match renderText context source with
  | .ok text => return text
  | .error error => throw (.template error)

def parameterDatum (parameter : Parameter) : Datum :=
  .record "FunctionArg" [("name", .text parameter.name), ("type", .text parameter.type)] []

def signatureDatum (signature : Signature) : Datum :=
  .record "FunctionSignature"
    [ ("name", .text signature.name),
      ("args", .tuple (signature.parameters.map parameterDatum)),
      ("return_type", .text signature.returns) ]
    [("arg_types", .list (signature.parameterTypes.map .text))]

def moduleDatum (bindings : BindingModule) : Datum :=
  .record "ModuleDescriptor"
    [ ("source_relative_path", .text bindings.source),
      ("output_module_name", .text bindings.name),
      ("signatures", .list (bindings.signatures.map signatureDatum)) ]
    [("function_names", .list (bindings.functionNames.map .text))]

def functionDatum (function : FunctionBinding) : Datum :=
  .record "_FunctionBlock"
    [ ("name", .text function.name),
      ("declaration", .text function.declaration),
      ("args", .list (function.arguments.map .type)),
      ("returns", .type function.returns) ]
    []

def bindingContext (bindings : BindingModule) (libraryPath : String)
    (functions : List FunctionBinding) : Context :=
  { scope :=
      [ ("module", moduleDatum bindings),
        ("library_path", .text libraryPath),
        ("functions", .list (functions.map functionDatum)) ] }

def indexContext (typeFilter : Bool) (index : ExportIndex) : Context :=
  { scope :=
      [ ("import_paths", .list (index.importPaths.map .text)),
        ("explicit_exports", .list (index.collisions.map fun collision =>
          .tuple [.text collision.name, .text collision.first])) ]
    typeFilter }

end FfiBindings.Template
