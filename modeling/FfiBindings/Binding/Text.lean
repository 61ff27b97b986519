import FfiBindings.Binding.Basic

set_option autoImplicit false

namespace FfiBindings

def FfiType.literal (type : FfiType) : String :=
  "$FFIType." ++ type.name

namespace FunctionBinding

def descriptorLines (function : FunctionBinding) : List String :=
  [ "  // " ++ function.declaration,
    "  " ++ function.name ++ ": \x7b",
    "    args: [" ++ ", ".intercalate (function.arguments.map FfiType.literal) ++ "],",
    "    returns: " ++ function.returns.literal ++ ",",
    "  \x7d," ]

def exportLine (function : FunctionBinding) : String :=
  "export const " ++ function.name ++ " = $lib.symbols." ++ function.name ++ ";"

end FunctionBinding

def textOfLines (lines : List String) : String :=
  String.join (lines.map (· ++ "\n"))

def bindingLines (source libraryPath : String) (functions : List FunctionBinding) : List String :=
  [ "// Generated by rustport from " ++ source ++ ". Do not edit.",
    "import \x7b dlopen as $dlopen, FFIType as $FFIType, suffix as $suffix \x7d from \"bun:ffi\";",
    "",
    "const $lib = $dlopen(`$\x7bimport.meta.dir\x7d/" ++ libraryPath ++ ".$\x7b$suffix\x7d`, \x7b" ] ++
  functions.flatMap FunctionBinding.descriptorLines ++
  [ "\x7d);", "" ] ++
  functions.map FunctionBinding.exportLine

def bindingText (source libraryPath : String) (functions : List FunctionBinding) : String :=
  textOfLines (bindingLines source libraryPath functions)

end FfiBindings
