import FfiBindings.Index.Text
import FfiBindings.Proofs.Template

set_option autoImplicit false

namespace FfiBindings.Template

def packagedIndexLines : List String :=
  [ "// Generated by rustport. Do not edit.",
    "\x7b% for import_path in import_paths %\x7d",
    "export * from \"\x7b\x7b import_path \x7d\x7d\";",
    "\x7b% endfor %\x7d",
    "\x7b% if explicit_exports %\x7d",
    "",
    "// Names exported by more than one module resolve to the first one.",
    "\x7b% for name, import_path in explicit_exports %\x7d",
    "export \x7b \x7b\x7b name \x7d\x7d \x7d from \"\x7b\x7b import_path \x7d\x7d\";",
    "\x7b% endfor %\x7d",
    "\x7b% endif %\x7d" ]

def packagedIndexSource : List Char :=
  packagedIndexLines.flatMap fun line => line.toList ++ ['\n']

def packagedIndexSegments : List Segment :=
  [ .plain "// Generated by rustport. Do not edit.\n",
    .statement [.name "for", .name "import_path", .name "in", .name "import_paths"],
    .plain "export * from \"",
    .output [.name "import_path"],
    .plain "\";\n",
    .statement [.name "endfor"],
    .statement [.name "if", .name "explicit_exports"],
    .plain "\n// Names exported by more than one module resolve to the first one.\n",
    .statement [.name "for", .name "name", .symbol ",", .name "import_path", .name "in",
      .name "explicit_exports"],
    .plain "export \x7b ",
    .output [.name "name"],
    .plain " \x7d from \"",
    .output [.name "import_path"],
    .plain "\";\n",
    .statement [.name "endfor"],
    .statement [.name "endif"] ]

theorem ofText_packagedIndexSource :
    Segment.ofText packagedIndexSource = .ok packagedIndexSegments :=
  Segment.ofText_of_found (by decide +kernel)

def exportAllBody : List Statement :=
  [ .text "export * from \"",
    .output (.name "import_path"),
    .text "\";\n" ]

def explicitBody : List Statement :=
  [ .text "export \x7b ",
    .output (.name "name"),
    .text " \x7d from \"",
    .output (.name "import_path"),
    .text "\";\n" ]

def explicitBranch : List Statement :=
  [ .text "\n// Names exported by more than one module resolve to the first one.\n",
    .loop ["name", "import_path"] (.name "explicit_exports") none explicitBody [] ]

def packagedIndexStatements : List Statement :=
  [ .text "// Generated by rustport. Do not edit.\n",
    .loop ["import_path"] (.name "import_paths") none exportAllBody [],
    .choice [(.name "explicit_exports", explicitBranch)] [] ]

theorem ofText_packagedIndex : Statement.ofText packagedIndexSource = .ok packagedIndexStatements := by
  rw [Statement.ofText, ofText_packagedIndexSource]
  rfl

variable {context : Context} {more : Scope}

theorem renderAll_exportAllBody (path : String) :
    Statement.renderAll (context.with (("import_path", .text path) :: more)) exportAllBody =
      .ok (textOfLines ["export * from \"" ++ path ++ "\";"]) := by
  have nothing : Statement.renderAll (context.with (("import_path", .text path) :: more)) [] =
      .ok "" := rfl
  have known : (Expression.name "import_path").value
      (context.with (("import_path", .text path) :: more)) = .ok (.text path) := rfl
  have rendered := Statement.renderAll_text "export * from \"" _ <|
    Statement.renderAll_output _ known <|
    Statement.renderAll_text "\";\n" _ nothing
  refine rendered.trans (congrArg Except.ok ?_)
  have ended : "\";\n" = "\";" ++ "\n" := rfl
  rw [textOfLines_singleton, ended]
  simp only [shown_text, String.append_assoc, String.append_empty]

theorem renderAll_explicitBody (collision : ExportIndex.Collision) :
    Statement.renderAll (context.with (("name", .text collision.name) ::
        ("import_path", .text collision.first) :: more)) explicitBody =
      .ok (textOfLines [collision.exportLine]) := by
  have nothing : Statement.renderAll (context.with (("name", .text collision.name) ::
      ("import_path", .text collision.first) :: more)) [] = .ok "" := rfl
  have name : (Expression.name "name").value (context.with (("name", .text collision.name) ::
      ("import_path", .text collision.first) :: more)) = .ok (.text collision.name) := rfl
  have path : (Expression.name "import_path").value (context.with (("name", .text collision.name) ::
      ("import_path", .text collision.first) :: more)) = .ok (.text collision.first) := rfl
  have rendered := Statement.renderAll_text "export \x7b " _ <|
    Statement.renderAll_output _ name <|
    Statement.renderAll_text " \x7d from \"" _ <|
    Statement.renderAll_output _ path <|
    Statement.renderAll_text "\";\n" _ nothing
  refine rendered.trans (congrArg Except.ok ?_)
  have exported : collision.exportLine =
      "export \x7b " ++ collision.name ++ " \x7d from \"" ++ collision.first ++ "\";" := rfl
  have ended : "\";\n" = "\";" ++ "\n" := rfl
  rw [textOfLines_singleton, exported, ended]
  simp only [shown_text, String.append_assoc, String.append_empty]

def collisionDatum (collision : ExportIndex.Collision) : Datum :=
  .tuple [.text collision.name, .text collision.first]

theorem renderAll_explicitBranch {collisions : List ExportIndex.Collision}
    (listed : (Expression.name "explicit_exports").value context =
      .ok (.list (collisions.map collisionDatum))) :
    Statement.renderAll context explicitBranch =
      .ok (textOfLines (["", "// Names exported by more than one module resolve to the first one."] ++
        collisions.map ExportIndex.Collision.exportLine)) := by
  have binds : ∀ collision ∈ collisions, bind ["name", "import_path"] (collisionDatum collision) =
      .ok [("name", .text collision.name), ("import_path", .text collision.first)] :=
    fun _ _ => rfl
  have nothing : Statement.renderAll context [] = .ok "" := by rw [Statement.renderAll]
  have rendered := Statement.renderAll_text
      "\n// Names exported by more than one module resolve to the first one.\n" _ <|
    Statement.renderAll_loop _ listed binds
      (fun collision _ _ _ => renderAll_explicitBody collision) nothing
  refine rendered.trans (congrArg Except.ok ?_)
  rw [textOfLines_append, textOfLines_map, String.append_empty]
  rfl

theorem renderText_packagedIndex (typeFilter : Bool) (index : ExportIndex) :
    renderText (indexContext typeFilter index) packagedIndexSource = .ok (indexText index) := by
  have known : ((Statement.filtersOfAll true packagedIndexStatements).find? fun name =>
      !(indexContext typeFilter index).knows name) = none := rfl
  rw [renderText_of_known ofText_packagedIndex known]
  have paths : (Expression.name "import_paths").value (indexContext typeFilter index) =
      .ok (.list (index.importPaths.map .text)) := rfl
  have listed : (Expression.name "explicit_exports").value (indexContext typeFilter index) =
      .ok (.list (index.collisions.map collisionDatum)) := rfl
  have binds : ∀ path ∈ index.importPaths, bind ["import_path"] (.text path) =
      .ok [("import_path", .text path)] := fun _ _ => rfl
  have nothing : Statement.renderAll (indexContext typeFilter index) [] = .ok "" := rfl
  have rendered := Statement.renderAll_text "// Generated by rustport. Do not edit.\n" _ <|
    Statement.renderAll_loop _ paths binds
      (fun path _ _ _ => renderAll_exportAllBody path) <|
    Statement.renderAll_choice _ listed (renderAll_explicitBranch listed) nothing
  refine rendered.trans (congrArg Except.ok ?_)
  have front : "// Generated by rustport. Do not edit.\n" =
      textOfLines ["// Generated by rustport. Do not edit."] := rfl
  rw [front, ← textOfLines_map, String.append_empty, ← String.append_assoc, ← textOfLines_append,
    indexText, indexLines]
  cases index.collisions with
  | nil => exact String.append_empty.trans (congrArg textOfLines (List.append_nil _).symm)
  | cons collision others => exact (textOfLines_append _ _).symm

end FfiBindings.Template
