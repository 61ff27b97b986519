import FfiBindings.Binding.Text
import FfiBindings.Proofs.Work
import FfiBindings.Template.Project

set_option autoImplicit false

namespace FfiBindings

theorem textOfLines_singleton (line : String) : textOfLines [line] = line ++ "\n" := by
  simp [textOfLines]

theorem textOfLines_append (first second : List String) :
    textOfLines (first ++ second) = textOfLines first ++ textOfLines second := by
  simp [textOfLines]

theorem textOfLines_flatMap {α : Type} (items : List α) (lines : α → List String) :
    textOfLines (items.flatMap lines) =
      String.join (items.map fun item => textOfLines (lines item)) := by
  induction items with
  | nil => rfl
  | cons item rest ih =>
    rw [List.flatMap_cons, textOfLines_append, ih, List.map_cons, String.join_cons]

theorem textOfLines_map {α : Type} (items : List α) (line : α → String) :
    textOfLines (items.map line) = String.join (items.map fun item => textOfLines [line item]) := by
  rw [List.map_eq_flatMap, textOfLines_flatMap]

theorem mapM_eq_pure {m : Type → Type} [Monad m] [LawfulMonad m] {α β : Type} {items : List α}
    {work : α → m β} {result : α → β} (each : ∀ item ∈ items, work item = pure (result item)) :
    items.mapM work = pure (items.map result) := by
  induction items with
  | nil => simp
  | cons item rest ih =>
    rw [List.forall_mem_cons] at each
    rw [List.mapM_cons, each.1, ih each.2]
    simp

namespace Template

theorem shown_text (text : String) : (Datum.text text).shown = text := rfl

theorem Segment.ofText_of_found {source : List Char} {segments : List Segment}
    (found : (match Segment.ofText source with
      | .ok read => read == segments
      | .error _ => false) = true) : Segment.ofText source = .ok segments := by
  cases read : Segment.ofText source with
  | error error => simp [read] at found
  | ok others =>
    rw [read] at found
    exact congrArg Except.ok (eq_of_beq found)

def packagedLines : List String :=
  [ "// Generated by rustport from \x7b\x7b module.source_relative_path \x7d\x7d. Do not edit.",
    "import \x7b dlopen as $dlopen, FFIType as $FFIType, suffix as $suffix \x7d from \"bun:ffi\";",
    "",
    "const $lib = $dlopen(`$\x7bimport.meta.dir\x7d/\x7b\x7b library_path \x7d\x7d.$\x7b$suffix\x7d`, \x7b",
    "\x7b% for function in functions %\x7d",
    "  // \x7b\x7b function.declaration \x7d\x7d",
    "  \x7b\x7b function.name \x7d\x7d: \x7b",
    "    args: [\x7b\x7b function.args | map(\"ffi\") | join(\", \") \x7d\x7d],",
    "    returns: \x7b\x7b function.returns | ffi \x7d\x7d,",
    "  \x7d,",
    "\x7b% endfor %\x7d",
    "\x7d);",
    "",
    "\x7b% for function in functions %\x7d",
    "export const \x7b\x7b function.name \x7d\x7d = $lib.symbols.\x7b\x7b function.name \x7d\x7d;",
    "\x7b% endfor %\x7d" ]

def packagedSource : List Char :=
  packagedLines.flatMap fun line => line.toList ++ ['\n']

-- The line break behind a statement has gone with it, the one behind an output is still there.
def packagedSegments : List Segment :=
  [ .plain "// Generated by rustport from ",
    .output [.name "module", .symbol ".", .name "source_relative_path"],
    .plain (". Do not edit.\n" ++
      "import \x7b dlopen as $dlopen, FFIType as $FFIType, suffix as $suffix \x7d from \"bun:ffi\";" ++
      "\n\nconst $lib = $dlopen(`$\x7bimport.meta.dir\x7d/"),
    .output [.name "library_path"],
    .plain ".$\x7b$suffix\x7d`, \x7b\n",
    .statement [.name "for", .name "function", .name "in", .name "functions"],
    .plain "  // ",
    .output [.name "function", .symbol ".", .name "declaration"],
    .plain "\n  ",
    .output [.name "function", .symbol ".", .name "name"],
    .plain ": \x7b\n    args: [",
    .output [.name "function", .symbol ".", .name "args", .symbol "|", .name "map", .symbol "(",
      .literal "ffi", .symbol ")", .symbol "|", .name "join", .symbol "(", .literal ", ",
      .symbol ")"],
    .plain "],\n    returns: ",
    .output [.name "function", .symbol ".", .name "returns", .symbol "|", .name "ffi"],
    .plain ",\n  \x7d,\n",
    .statement [.name "endfor"],
    .plain "\x7d);\n\n",
    .statement [.name "for", .name "function", .name "in", .name "functions"],
    .plain "export const ",
    .output [.name "function", .symbol ".", .name "name"],
    .plain " = $lib.symbols.",
    .output [.name "function", .symbol ".", .name "name"],
    .plain ";\n",
    .statement [.name "endfor"] ]

theorem ofText_packagedSource : Segment.ofText packagedSource = .ok packagedSegments :=
  Segment.ofText_of_found (by decide +kernel)

def functionField (field : String) : Expression := .member (.name "function") field

def entryBody : List Statement :=
  [ .text "  // ",
    .output (functionField "declaration"),
    .text "\n  ",
    .output (functionField "name"),
    .text ": \x7b\n    args: [",
    .output (.filter (.filter (functionField "args") "map" [.literal "ffi"] []) "join"
      [.literal ", "] []),
    .text "],\n    returns: ",
    .output (.filter (functionField "returns") "ffi" [] []),
    .text ",\n  \x7d,\n" ]

def exportBody : List Statement :=
  [ .text "export const ",
    .output (functionField "name"),
    .text " = $lib.symbols.",
    .output (functionField "name"),
    .text ";\n" ]

def packagedStatements : List Statement :=
  [ .text "// Generated by rustport from ",
    .output (.member (.name "module") "source_relative_path"),
    .text (". Do not edit.\n" ++
      "import \x7b dlopen as $dlopen, FFIType as $FFIType, suffix as $suffix \x7d from \"bun:ffi\";" ++
      "\n\nconst $lib = $dlopen(`$\x7bimport.meta.dir\x7d/"),
    .output (.name "library_path"),
    .text ".$\x7b$suffix\x7d`, \x7b\n",
    .loop ["function"] (.name "functions") none entryBody [],
    .text "\x7d);\n\n",
    .loop ["function"] (.name "functions") none exportBody [] ]

theorem ofText_packaged : Statement.ofText packagedSource = .ok packagedStatements := by
  rw [Statement.ofText, ofText_packagedSource]
  rfl

namespace Statement

variable {context : Context}

theorem renderAll_text (content : String) (rest : List Statement) {text : String}
    (rendered : renderAll context rest = .ok text) :
    renderAll context (.text content :: rest) = .ok (content ++ text) := by
  rw [renderAll, render, rendered]
  · rfl
  · exact nofun

theorem renderAll_output {value : Expression} {datum : Datum} (rest : List Statement) {text : String}
    (evaluated : value.value context = .ok datum) (rendered : renderAll context rest = .ok text) :
    renderAll context (.output value :: rest) = .ok (datum.shown ++ text) := by
  rw [renderAll, render, evaluated, rendered]
  · rfl
  · exact nofun

-- A loop over a list, in which no round depends on its position.
theorem renderAll_loop {α : Type} {targets : List String} {value : Expression} {items : List α}
    {datum : α → Datum} {bound : α → Scope} {body : List Statement} (rest : List Statement)
    {round : α → String} {text : String}
    (evaluated : value.value context = .ok (.list (items.map datum)))
    (binds : ∀ item ∈ items, bind targets (datum item) = .ok (bound item))
    (rounds : ∀ item ∈ items, ∀ position count,
      renderAll (context.with (bound item ++ [("loop", loopRecord position count)])) body =
        .ok (round item))
    (rendered : renderAll context rest = .ok text) :
    renderAll context (.loop targets value none body [] :: rest) =
      .ok (String.join (items.map round) ++ text) := by
  have scopes : (items.map datum).mapM (bind targets) = .ok (items.map bound) := by
    rw [List.mapM_map]
    exact mapM_eq_pure binds
  have turns : ∀ count, (items.map bound).zipIdx.mapM
      (fun pair => renderAll (context.with (pair.1 ++ [("loop", loopRecord pair.2 count)])) body) =
        .ok (items.map round) := by
    intro count
    have each : ∀ pair ∈ items.zipIdx, renderAll
        (context.with (bound pair.1 ++ [("loop", loopRecord pair.2 count)])) body =
          .ok (round pair.1) :=
      fun pair member => rounds pair.1 (List.fst_mem_of_mem_zipIdx member) pair.2 count
    have joined : items.zipIdx.map (fun pair => round pair.1) = items.map round := by
      rw [← List.zipIdx_map_fst 0 items, List.map_map, List.zipIdx_map_fst]
      rfl
    rw [List.zipIdx_map, List.mapM_map, ← joined]
    exact mapM_eq_pure each
  have looped : render context (.loop targets value none body []) =
      .ok (String.join (items.map round)) := by
    simp only [render, evaluated, Except.ok_bind, Datum.items, scopes, pure_bind]
    cases items with
    | nil => rfl
    | cons item others =>
      exact congrArg (· >>= fun rounds => pure (String.join rounds)) (turns _)
  rw [renderAll, looped, rendered]
  · rfl
  · exact nofun

theorem renderAll_choice {condition : Expression} {datum : Datum} {body : List Statement}
    (rest : List Statement) {chosen text : String}
    (evaluated : condition.value context = .ok datum)
    (inside : renderAll context body = .ok chosen) (rendered : renderAll context rest = .ok text) :
    renderAll context (.choice [(condition, body)] [] :: rest) =
      .ok ((if datum.isTrue then chosen else "") ++ text) := by
  have taken : render context (.choice [(condition, body)] []) =
      .ok (if datum.isTrue then chosen else "") := by
    rw [render, renderBranches, renderBranch, evaluated, inside, Except.ok_bind]
    cases datum.isTrue with
    | true => rfl
    | false =>
      have none : renderBranches context [] = .ok none := by rw [renderBranches]
      have nothing : renderAll context [] = .ok "" := by rw [renderAll]
      rw [none, nothing]
      rfl
  rw [renderAll, taken, rendered]
  · rfl
  · exact nofun

end Statement

variable {context : Context} {function : FunctionBinding} {more : Scope}

theorem declaration_value :
    (functionField "declaration").value
        (context.with (("function", functionDatum function) :: more)) =
      .ok (.text function.declaration) := rfl

theorem name_value :
    (functionField "name").value (context.with (("function", functionDatum function) :: more)) =
      .ok (.text function.name) := rfl

theorem typesFilter_value (arguments : List FfiType) :
    mapFilter (.list (arguments.map .type)) [.text "ffi"] [] =
      .ok (.list (arguments.map fun type => .text type.literal)) := by
  have each : ∀ datum ∈ arguments.map Datum.type, simpleFilter "ffi" datum =
      .ok (.text ("$FFIType." ++ (datum.text?.getD ""))) := by
    intro datum member
    obtain ⟨type, -, rfl⟩ := List.mem_map.mp member
    rfl
  change (Except.ok (arguments.map Datum.type) >>= fun items => do
    return Datum.list (← items.mapM (simpleFilter "ffi"))) = _
  rw [Except.ok_bind, mapM_eq_pure each, List.map_map]
  rfl

theorem arguments_value :
    (Expression.filter (.filter (functionField "args") "map" [.literal "ffi"] []) "join"
        [.literal ", "] []).value (context.with (("function", functionDatum function) :: more)) =
      .ok (.text (", ".intercalate (function.arguments.map FfiType.literal))) := by
  have mapped : (Expression.filter (functionField "args") "map" [.literal "ffi"] []).value
      (context.with (("function", functionDatum function) :: more)) =
      .ok (.list (function.arguments.map fun type => .text type.literal)) :=
    typesFilter_value function.arguments
  rw [Expression.value, mapped]
  change Except.ok (Datum.text (", ".intercalate
    ((function.arguments.map fun type => Datum.text type.literal).map Datum.shown))) = _
  rw [List.map_map]
  rfl

theorem returns_value (types : context.typeFilter = true) :
    (Expression.filter (functionField "returns") "ffi" [] []).value
        (context.with (("function", functionDatum function) :: more)) =
      .ok (.text function.returns.literal) := by
  have known : (context.with (("function", functionDatum function) :: more)).knows "ffi" = true := by
    rw [Context.knows, Context.with, types]
    rfl
  rw [Expression.value, known]
  rfl

theorem renderAll_entryBody (types : context.typeFilter = true) :
    Statement.renderAll (context.with (("function", functionDatum function) :: more)) entryBody =
      .ok (textOfLines function.descriptorLines) := by
  have nothing : Statement.renderAll (context.with (("function", functionDatum function) :: more))
      [] = .ok "" := rfl
  have rendered := Statement.renderAll_text "  // " _ <|
    Statement.renderAll_output _ declaration_value <|
    Statement.renderAll_text "\n  " _ <|
    Statement.renderAll_output _ name_value <|
    Statement.renderAll_text ": \x7b\n    args: [" _ <|
    Statement.renderAll_output _ arguments_value <|
    Statement.renderAll_text "],\n    returns: " _ <|
    Statement.renderAll_output _ (returns_value types) <|
    Statement.renderAll_text ",\n  \x7d,\n" _ nothing
  refine rendered.trans (congrArg Except.ok ?_)
  apply String.toList_inj.mp
  simp only [textOfLines, FunctionBinding.descriptorLines, shown_text, List.map_cons, List.map_nil,
    String.join_cons, String.join_nil, String.toList_append, List.append_assoc]
  rfl

theorem renderAll_exportBody :
    Statement.renderAll (context.with (("function", functionDatum function) :: more)) exportBody =
      .ok (textOfLines [function.exportLine]) := by
  have nothing : Statement.renderAll (context.with (("function", functionDatum function) :: more))
      [] = .ok "" := rfl
  have rendered := Statement.renderAll_text "export const " _ <|
    Statement.renderAll_output _ name_value <|
    Statement.renderAll_text " = $lib.symbols." _ <|
    Statement.renderAll_output _ name_value <|
    Statement.renderAll_text ";\n" _ nothing
  refine rendered.trans (congrArg Except.ok ?_)
  have exported : function.exportLine =
      "export const " ++ function.name ++ " = $lib.symbols." ++ function.name ++ ";" := rfl
  have ended : ";\n" = ";" ++ "\n" := rfl
  rw [textOfLines_singleton, exported, ended]
  simp only [shown_text, String.append_assoc, String.append_empty]

theorem textOfLines_front (source library : String) :
    textOfLines
      [ "// Generated by rustport from " ++ source ++ ". Do not edit.",
        "import \x7b dlopen as $dlopen, FFIType as $FFIType, suffix as $suffix \x7d from \"bun:ffi\";",
        "",
        "const $lib = $dlopen(`$\x7bimport.meta.dir\x7d/" ++ library ++ ".$\x7b$suffix\x7d`, \x7b" ] =
      "// Generated by rustport from " ++ (source ++ (". Do not edit.\n" ++
        "import \x7b dlopen as $dlopen, FFIType as $FFIType, suffix as $suffix \x7d from \"bun:ffi\";" ++
        "\n\nconst $lib = $dlopen(`$\x7bimport.meta.dir\x7d/" ++ (library ++ ".$\x7b$suffix\x7d`, \x7b\n"))) := by
  have first : ". Do not edit.\n" = ". Do not edit." ++ "\n" := rfl
  have second : "\n\nconst $lib = $dlopen(`$\x7bimport.meta.dir\x7d/" =
      "\n" ++ ("" ++ ("\n" ++ "const $lib = $dlopen(`$\x7bimport.meta.dir\x7d/")) := rfl
  have third : ".$\x7b$suffix\x7d`, \x7b\n" = ".$\x7b$suffix\x7d`, \x7b" ++ "\n" := rfl
  rw [first, second, third]
  simp only [textOfLines, List.map_cons, List.map_nil, String.join_cons, String.join_nil,
    String.append_assoc, String.append_empty]

theorem renderText_of_known {context : Context} {source : List Char} {statements : List Statement}
    (parsed : Statement.ofText source = .ok statements)
    (known : ((Statement.filtersOfAll true statements).find? fun name => !context.knows name) =
      none) :
    renderText context source = Statement.renderAll context statements := by
  rw [renderText, parsed, Except.ok_bind, known]

theorem renderText_packaged (bindings : BindingModule) (library : String)
    (functions : List FunctionBinding) :
    renderText (bindingContext bindings library functions) packagedSource =
      .ok (bindingText bindings.source library functions) := by
  have known : ((Statement.filtersOfAll true packagedStatements).find? fun name =>
      !(bindingContext bindings library functions).knows name) = none := rfl
  rw [renderText_of_known ofText_packaged known]
  have listed : (Expression.name "functions").value (bindingContext bindings library functions) =
      .ok (.list (functions.map functionDatum)) := rfl
  have binds : ∀ function ∈ functions, bind ["function"] (functionDatum function) =
      .ok [("function", functionDatum function)] := fun _ _ => rfl
  have nothing : Statement.renderAll (bindingContext bindings library functions) [] = .ok "" := rfl
  have source : (Expression.member (.name "module") "source_relative_path").value
      (bindingContext bindings library functions) = .ok (.text bindings.source) := rfl
  have path : (Expression.name "library_path").value (bindingContext bindings library functions) =
      .ok (.text library) := rfl
  have rendered := Statement.renderAll_text "// Generated by rustport from " _ <|
    Statement.renderAll_output _ source <|
    Statement.renderAll_text (". Do not edit.\n" ++
      "import \x7b dlopen as $dlopen, FFIType as $FFIType, suffix as $suffix \x7d from \"bun:ffi\";" ++
      "\n\nconst $lib = $dlopen(`$\x7bimport.meta.dir\x7d/") _ <|
    Statement.renderAll_output _ path <|
    Statement.renderAll_text ".$\x7b$suffix\x7d`, \x7b\n" _ <|
    Statement.renderAll_loop _ listed binds (fun _ _ _ _ => renderAll_entryBody rfl) <|
    Statement.renderAll_text "\x7d);\n\n" _ <|
    Statement.renderAll_loop _ listed binds (fun _ _ _ _ => renderAll_exportBody) nothing
  refine rendered.trans (congrArg Except.ok ?_)
  rw [bindingText, bindingLines, textOfLines_append, textOfLines_append, textOfLines_append,
    textOfLines_flatMap, textOfLines_map, textOfLines_front]
  simp only [shown_text, String.append_assoc, String.append_empty]
  rfl

end Template

end FfiBindings
