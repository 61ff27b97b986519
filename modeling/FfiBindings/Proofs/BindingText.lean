import FfiBindings.Generation.Emit
import FfiBindings.Proofs.Index.Statements
import FfiBindings.Proofs.Template
import FfiBindings.Proofs.Work

-- The reader of a module knows the shapes of the lines and nothing of how they were written.

set_option autoImplicit false

namespace FfiBindings

open Exports

/-- A convention of which characters end a line. A line feed always does; a space and everything
visible never do. -/
structure LineEnds where
  ends : Char → Bool
  lineFeed : ends '\n' = true
  space : ends ' ' = false
  blank : ∀ c, ends c = true → Text.isBlank c = true

namespace LineEnds

def universal : LineEnds where
  ends c := ['\n', '\r', '\x0b', '\x0c', '\x1c', '\x1d', '\x1e', '\u0085', '\u2028', '\u2029'].contains c
  lineFeed := by decide
  space := by decide
  blank c ends := by
    rw [List.contains_iff_mem] at ends
    exact List.all_eq_true.mp (by decide) c ends

def lines (convention : LineEnds) : List Char → List (List Char)
  | [] => []
  | c :: rest =>
    if convention.ends c then
      [] :: convention.lines rest
    else
      match convention.lines rest with
      | [] => [[c]]
      | line :: others => (c :: line) :: others

def Clear (convention : LineEnds) (text : String) : Prop :=
  ∀ c ∈ text.toList, convention.ends c = false

instance (convention : LineEnds) (text : String) : Decidable (convention.Clear text) :=
  decidable_of_iff (text.toList.all fun c => !convention.ends c) (by simp [Clear])

end LineEnds

def between? (front back line : List Char) : Option (List Char) := do
  let rest ← Text.dropPrefix? front line
  let inner ← Text.dropPrefix? back.reverse rest.reverse
  return inner.reverse

def wordBehind? (front line : List Char) : Option (List Char × List Char) := do
  let rest ← Text.dropPrefix? front line
  let word := rest.takeWhile Text.isWordChar
  if word.isEmpty then
    none
  return (word, rest.dropWhile Text.isWordChar)

namespace FfiType

def ofLiteral? (text : List Char) : Option FfiType := do
  ofName? (String.ofList (← Text.dropPrefix? "$FFIType.".toList text))

def listOfLiterals? (text : List Char) : Option (List FfiType) :=
  if text.isEmpty then
    some []
  else
    (Text.splitAt ',' (' ' :: text)).mapM fun piece => do ofLiteral? (← Text.dropPrefix? [' '] piece)

end FfiType

namespace FunctionBinding

def ofLines? (first opening arguments returns closing : List Char) : Option FunctionBinding := do
  let declaration ← Text.dropPrefix? "  // ".toList first
  let (name, behind) ← wordBehind? "  ".toList opening
  let types ← between? "    args: [".toList "],".toList arguments
  let types ← FfiType.listOfLiterals? types
  let returned ← between? "    returns: ".toList ",".toList returns
  let returned ← FfiType.ofLiteral? returned
  if behind == ": \x7b".toList && closing == "  \x7d,".toList then
    return {
      name := String.ofList name
      declaration := String.ofList declaration
      arguments := types
      returns := returned }
  else
    none

def table? : List (List Char) → Option (List FunctionBinding × List (List Char))
  | [] => none
  | first :: rest =>
    if first == "\x7d);".toList then
      some ([], rest)
    else
      match rest with
      | opening :: arguments :: returns :: closing :: others => do
        let function ← ofLines? first opening arguments returns closing
        let (functions, behind) ← table? others
        return (function :: functions, behind)
      | _ => none

end FunctionBinding

def exported? (line : List Char) : Option String := do
  let (name, behind) ← wordBehind? "export const ".toList line
  if behind == " = $lib.symbols.".toList ++ name ++ ";".toList then
    return String.ofList name
  else
    none

structure BindingReading where
  source : String
  libraryPath : String
  functions : List FunctionBinding
  exports : List String
deriving DecidableEq, Repr

namespace BindingReading

def importLine : String :=
  "import \x7b dlopen as $dlopen, FFIType as $FFIType, suffix as $suffix \x7d from \"bun:ffi\";"

def ofLines? : List (List Char) → Option BindingReading
  | header :: imports :: [] :: opening :: rest => do
    let source ← between? "// Generated by rustport from ".toList ". Do not edit.".toList header
    let libraryPath ← between? "const $lib = $dlopen(`$\x7bimport.meta.dir\x7d/".toList
      ".$\x7b$suffix\x7d`, \x7b".toList opening
    if imports != importLine.toList then
      none
    match ← FunctionBinding.table? rest with
    | (functions, [] :: exports) =>
      return {
        source := String.ofList source
        libraryPath := String.ofList libraryPath
        functions
        exports := ← exports.mapM exported? }
    | _ => none
  | _ => none

end BindingReading

namespace LineEnds

variable {convention : LineEnds}

theorem lines_append_lineFeed {line : List Char} (clear : ∀ c ∈ line, convention.ends c = false)
    (rest : List Char) :
    convention.lines (line ++ '\n' :: rest) = line :: convention.lines rest := by
  induction line with
  | nil => simp [lines, convention.lineFeed]
  | cons c others ih =>
    rw [List.forall_mem_cons] at clear
    rw [List.cons_append, lines, ih clear.2]
    simp [clear.1]

theorem lines_textOfLines {content : List String} (clear : ∀ line ∈ content, convention.Clear line) :
    convention.lines (textOfLines content).toList = content.map String.toList := by
  induction content with
  | nil => rfl
  | cons line others ih =>
    rw [List.forall_mem_cons] at clear
    have split : (textOfLines (line :: others)).toList =
        line.toList ++ '\n' :: (textOfLines others).toList := by
      simp [textOfLines]
    rw [split, lines_append_lineFeed clear.1, ih clear.2]
    rfl

theorem clear_append {first second : String} (clear : convention.Clear first)
    (clear' : convention.Clear second) : convention.Clear (first ++ second) := by
  intro c letter
  rw [String.toList_append, List.mem_append] at letter
  exact letter.elim (clear c) (clear' c)

theorem clear_of_all {text : String}
    (visible : (text.toList.all fun c => c == ' ' || !Text.isBlank c) = true) :
    convention.Clear text := by
  intro c letter
  rw [Bool.eq_false_iff]
  intro ends
  have kind := List.all_eq_true.mp visible c letter
  rw [convention.blank c ends, Bool.not_true, Bool.or_false, beq_iff_eq] at kind
  rw [kind, convention.space] at ends
  cases ends

theorem clear_of_isWord {name : String} (word : IsWord name) : convention.Clear name := by
  intro c letter
  rw [Bool.eq_false_iff]
  intro ends
  have wordChar := word.word c letter
  rw [Text.notWordChar_of_isBlank (convention.blank c ends)] at wordChar
  cases wordChar

end LineEnds

theorem LineEnds.clear_intercalate {convention : LineEnds} {separator : String} {pieces : List String}
    (clear : convention.Clear separator) (each : ∀ piece ∈ pieces, convention.Clear piece) :
    convention.Clear (separator.intercalate pieces) := by
  induction pieces with
  | nil => exact nofun
  | cons first others ih =>
    rw [List.forall_mem_cons] at each
    cases others with
    | nil => exact String.intercalate_singleton ▸ each.1
    | cons next rest =>
      rw [String.intercalate_cons_cons]
      exact clear_append (clear_append each.1 clear) (ih each.2)

theorem between?_surrounded (front inner back : String) :
    between? front.toList back.toList (front ++ inner ++ back).toList = some inner.toList := by
  simp only [between?, String.toList_append, List.append_assoc, Text.dropPrefix?_append,
    Option.bind_eq_bind, Option.bind_some, List.reverse_append, Option.pure_def,
    List.reverse_reverse]

theorem wordBehind?_append {name : String} (word : IsWord name) (front : List Char)
    {rest : List Char} (ended : ∀ c ∈ rest.head?, Text.isWordChar c = false) :
    wordBehind? front (front ++ (name.toList ++ rest)) = some (name.toList, rest) := by
  have stops : rest.takeWhile Text.isWordChar = [] ∧ rest.dropWhile Text.isWordChar = rest := by
    cases rest with
    | nil => exact ⟨rfl, rfl⟩
    | cons c others => simp [ended c rfl]
  have nonempty : name.toList.isEmpty = false := by
    simpa using word.nonempty
  simp only [wordBehind?, Text.dropPrefix?_append, Option.bind_eq_bind, Option.bind_some]
  rw [List.takeWhile_append_of_pos word.word, List.dropWhile_append_of_pos word.word, stops.1,
    stops.2, List.append_nil, nonempty]
  rfl

namespace FfiType

theorem ofLiteral?_literal (type : FfiType) : ofLiteral? type.literal.toList = some type := by
  cases type <;> decide

theorem literal_clear (type : FfiType) : ',' ∉ ' ' :: type.literal.toList := by
  cases type <;> decide

theorem literals_eq (first : FfiType) (others : List FfiType) :
    ' ' :: (", ".intercalate ((first :: others).map literal)).toList =
      [','].intercalate ((first :: others).map fun type => ' ' :: type.literal.toList) := by
  rw [String.toList_intercalate, List.map_map]
  induction others generalizing first with
  | nil => simp
  | cons next rest ih =>
    have inner := ih next
    simp only [List.map_cons, Function.comp_apply, List.intercalate_cons_cons] at inner ⊢
    rw [← inner]
    simp

theorem listOfLiterals?_intercalate (types : List FfiType) :
    listOfLiterals? (", ".intercalate (types.map literal)).toList = some types := by
  cases types with
  | nil => rfl
  | cons first others =>
    have nonempty : (", ".intercalate ((first :: others).map literal)).toList.isEmpty = false := by
      cases others <;> simp [literal]
    rw [listOfLiterals?, nonempty, if_neg Bool.false_ne_true, literals_eq,
      Text.splitAt_intercalate (by simp) ?_, List.mapM_map]
    · exact (mapM_eq_pure fun type _ => ofLiteral?_literal type).trans (by simp)
    · exact List.forall_mem_map.mpr fun type _ => literal_clear type

end FfiType

namespace FunctionBinding

theorem ofLines?_descriptorLines {function : FunctionBinding} (word : IsWord function.name) :
    ofLines? ("  // " ++ function.declaration).toList
      ("  " ++ function.name ++ ": \x7b").toList
      ("    args: [" ++ ", ".intercalate (function.arguments.map FfiType.literal) ++ "],").toList
      ("    returns: " ++ function.returns.literal ++ ",").toList "  \x7d,".toList =
        some function := by
  have named : wordBehind? "  ".toList ("  " ++ function.name ++ ": \x7b").toList =
      some (function.name.toList, ": \x7b".toList) := by
    rw [String.toList_append, String.toList_append, List.append_assoc]
    refine wordBehind?_append word _ ?_
    rintro c ⟨⟩
    rfl
  rw [ofLines?, named, String.toList_append, Text.dropPrefix?_append]
  simp only [between?_surrounded, Option.bind_eq_bind, Option.bind_some,
    FfiType.listOfLiterals?_intercalate, FfiType.ofLiteral?_literal, String.ofList_toList]
  rfl

theorem table?_descriptorLines {functions : List FunctionBinding}
    (words : ∀ function ∈ functions, IsWord function.name) (rest : List (List Char)) :
    table? ((functions.flatMap descriptorLines).map String.toList ++ "\x7d);".toList :: rest) =
      some (functions, rest) := by
  induction functions with
  | nil =>
    rw [List.flatMap_nil, List.map_nil, List.nil_append, table?.eq_def]
    simp only [beq_self_eq_true, if_true]
  | cons function others ih =>
    rw [List.forall_mem_cons] at words
    have different : (("  // " ++ function.declaration).toList == "\x7d);".toList) = false := by
      rw [String.toList_append]
      rfl
    rw [List.flatMap_cons, descriptorLines]
    simp only [List.map_cons, List.cons_append, List.nil_append]
    rw [table?, different, if_neg Bool.false_ne_true]
    simp only [ofLines?_descriptorLines words.1, ih words.2, Option.bind_eq_bind, Option.bind_some]
    rfl

end FunctionBinding

theorem FunctionBinding.toList_exportLine (function : FunctionBinding) :
    function.exportLine.toList = "export const ".toList ++ (function.name.toList ++
      (" = $lib.symbols.".toList ++ function.name.toList ++ ";".toList)) := by
  change ("export const " ++ function.name ++ " = $lib.symbols." ++ function.name ++ ";").toList = _
  simp only [String.toList_append, List.append_assoc]

theorem exported?_exportLine {function : FunctionBinding} (word : IsWord function.name) :
    exported? function.exportLine.toList = some function.name := by
  have named : wordBehind? "export const ".toList function.exportLine.toList =
      some (function.name.toList,
        " = $lib.symbols.".toList ++ function.name.toList ++ ";".toList) := by
    rw [function.toList_exportLine]
    refine wordBehind?_append word _ ?_
    rintro c ⟨⟩
    rfl
  rw [exported?, named]
  simp only [Option.bind_eq_bind, Option.bind_some, beq_self_eq_true, if_true, String.ofList_toList]
  rfl

namespace BindingReading

theorem ofLines?_bindingLines {functions : List FunctionBinding}
    (words : ∀ function ∈ functions, IsWord function.name) (source libraryPath : String) :
    ofLines? ((bindingLines source libraryPath functions).map String.toList) =
      some { source, libraryPath, functions, exports := functions.map (·.name) } := by
  have exports : (functions.map FunctionBinding.exportLine |>.map String.toList).mapM exported? =
      some (functions.map (·.name)) := by
    rw [List.map_map, List.mapM_map]
    exact mapM_eq_pure fun function member => exported?_exportLine (words function member)
  have table := FunctionBinding.table?_descriptorLines words
    ([] :: (functions.map FunctionBinding.exportLine).map String.toList)
  have split : (bindingLines source libraryPath functions).map String.toList =
      ("// Generated by rustport from " ++ source ++ ". Do not edit.").toList ::
      importLine.toList :: [] ::
      ("const $lib = $dlopen(`$\x7bimport.meta.dir\x7d/" ++ libraryPath ++
        ".$\x7b$suffix\x7d`, \x7b").toList ::
      ((functions.flatMap FunctionBinding.descriptorLines).map String.toList ++
        "\x7d);".toList :: [] :: (functions.map FunctionBinding.exportLine).map String.toList) := by
    rw [bindingLines, List.append_assoc, List.map_append, List.map_append, List.map_append,
      List.append_assoc]
    rfl
  rw [split, ofLines?, table, between?_surrounded, between?_surrounded]
  simp only [Option.bind_eq_bind, Option.bind_some, exports, String.ofList_toList]
  rfl

end BindingReading

theorem bindingLines_length (source libraryPath : String) (functions : List FunctionBinding) :
    (bindingLines source libraryPath functions).length = 6 + 6 * functions.length := by
  have entries : (functions.flatMap FunctionBinding.descriptorLines).length = 5 * functions.length := by
    induction functions with
    | nil => rfl
    | cons function others ih =>
      rw [List.flatMap_cons, List.length_append, ih, List.length_cons, Nat.mul_succ, Nat.add_comm]
      rfl
  simp only [bindingLines, List.length_append, List.length_map, entries, List.length_cons,
    List.length_nil]
  omega

namespace LineEnds

variable {convention : LineEnds}

theorem clear_literal (type : FfiType) : convention.Clear type.literal := by
  apply clear_of_all
  cases type <;> decide

theorem clear_surrounded {inner : String} (clear : convention.Clear inner) (front back : String)
    (visible : ((front ++ back).toList.all fun c => c == ' ' || !Text.isBlank c) = true) :
    convention.Clear (front ++ inner ++ back) := by
  rw [String.toList_append, List.all_append, Bool.and_eq_true] at visible
  exact clear_append (clear_append (clear_of_all visible.1) clear) (clear_of_all visible.2)

theorem clear_descriptorLines {function : FunctionBinding} (word : IsWord function.name)
    (declaration : convention.Clear function.declaration) :
    ∀ line ∈ function.descriptorLines, convention.Clear line := by
  have arguments : convention.Clear
      (", ".intercalate (function.arguments.map FfiType.literal)) :=
    clear_intercalate (clear_of_all (by decide))
      (List.forall_mem_map.mpr fun type _ => clear_literal type)
  simp only [FunctionBinding.descriptorLines, List.forall_mem_cons]
  exact ⟨clear_append (clear_of_all (by decide)) declaration,
    clear_surrounded (clear_of_isWord word) _ _ (by decide),
    clear_surrounded arguments _ _ (by decide),
    clear_surrounded (clear_literal function.returns) _ _ (by decide),
    clear_of_all (by decide), List.forall_mem_nil _⟩

theorem clear_exportLine {function : FunctionBinding} (word : IsWord function.name) :
    convention.Clear function.exportLine :=
  clear_append (clear_append (clear_surrounded (clear_of_isWord word) "export const "
    " = $lib.symbols." (by decide)) (clear_of_isWord word)) (clear_of_all (by decide))

theorem clear_bindingLines {source libraryPath : String} {functions : List FunctionBinding}
    (sourceClear : convention.Clear source) (libraryClear : convention.Clear libraryPath)
    (words : ∀ function ∈ functions, IsWord function.name)
    (declarations : ∀ function ∈ functions, convention.Clear function.declaration) :
    ∀ line ∈ bindingLines source libraryPath functions, convention.Clear line := by
  have front : ∀ line ∈
      [ "// Generated by rustport from " ++ source ++ ". Do not edit.",
        BindingReading.importLine,
        "",
        "const $lib = $dlopen(`$\x7bimport.meta.dir\x7d/" ++ libraryPath ++
          ".$\x7b$suffix\x7d`, \x7b" ], convention.Clear line := by
    simp only [List.forall_mem_cons]
    exact ⟨clear_surrounded sourceClear _ _ (by decide), clear_of_all (by decide),
      List.forall_mem_nil _, clear_surrounded libraryClear _ _ (by decide), List.forall_mem_nil _⟩
  have table : ∀ line ∈ functions.flatMap FunctionBinding.descriptorLines,
      convention.Clear line := by
    intro line member
    obtain ⟨function, declared, listed⟩ := List.mem_flatMap.mp member
    exact clear_descriptorLines (words function declared) (declarations function declared) line
      listed
  have closing : ∀ line ∈ ["\x7d);", ""], convention.Clear line := by
    simp only [List.forall_mem_cons]
    exact ⟨clear_of_all (by decide), List.forall_mem_nil _, List.forall_mem_nil _⟩
  have exports : ∀ line ∈ functions.map FunctionBinding.exportLine, convention.Clear line :=
    List.forall_mem_map.mpr fun function member => clear_exportLine (words function member)
  exact List.forall_mem_append.mpr ⟨List.forall_mem_append.mpr ⟨List.forall_mem_append.mpr
    ⟨front, table⟩, closing⟩, exports⟩

end LineEnds

theorem Emission.bindingText_packaged {emission : Emission} {world : World}
    (packaged : (Template.ownTemplate? emission.templatesDir Template.bindingTemplate).outcome world =
      .ok none) (bindings : BindingModule) :
    (emission.bindingText bindings).outcome world =
      .ok (FfiBindings.bindingText bindings.source (emission.layout.libraryPath bindings.name)
        (bindings.functions emission.aliases)) := by
  simp only [Emission.bindingText, ExceptT.outcome_bind, packaged, ExceptT.outcome_pure]

/-- The text of a binding module, made from the packaged template, can be read back: the reader finds
the library, every function with the types that its declaration maps to, and one export for each of
them, in the order of the declarations. -/
theorem bindingText_read_back {emission : Emission} {bindings : BindingModule} {world : World}
    (convention : LineEnds)
    (packaged : (Template.ownTemplate? emission.templatesDir Template.bindingTemplate).outcome world =
      .ok none)
    (words : ∀ signature ∈ bindings.signatures, IsWord signature.name)
    (sourceClear : convention.Clear bindings.source)
    (libraryClear : convention.Clear (emission.layout.libraryPath bindings.name))
    (declarations : ∀ signature ∈ bindings.signatures, convention.Clear signature.describe) :
    ∃ text, (emission.bindingText bindings).outcome world = .ok text ∧
      Template.renderText (Template.bindingContext bindings
        (emission.layout.libraryPath bindings.name) (bindings.functions emission.aliases))
        Template.packagedSource = .ok text ∧
      (convention.lines text.toList).length = 6 + 6 * bindings.signatures.length ∧
      BindingReading.ofLines? (convention.lines text.toList) = some {
        source := bindings.source
        libraryPath := emission.layout.libraryPath bindings.name
        functions := bindings.signatures.map fun signature =>
          { name := signature.name
            declaration := signature.describe
            arguments := signature.parameterTypes.map (mapType emission.aliases)
            returns := mapType emission.aliases signature.returns }
        exports := bindings.signatures.map (·.name) } := by
  have words' : ∀ function ∈ bindings.functions emission.aliases, IsWord function.name :=
    List.forall_mem_map.mpr words
  have clear := LineEnds.clear_bindingLines sourceClear libraryClear words'
    (List.forall_mem_map.mpr declarations)
  have split := LineEnds.lines_textOfLines clear
  refine ⟨_, Emission.bindingText_packaged packaged bindings,
    Template.renderText_packaged bindings _ _, ?_, ?_⟩
  · rw [bindingText, split, List.length_map, bindingLines_length]
    simp [BindingModule.functions]
  · rw [bindingText, split, BindingReading.ofLines?_bindingLines words']
    simp only [BindingModule.functions, List.map_map]
    rfl

def pairModule : BindingModule :=
  { source := "rs/a/b.rs"
    name := "a/b"
    signatures :=
      [ { name := "f", parameters := [⟨"x", "Len"⟩, ⟨"y", "*const  u8"⟩], returns := "bool" },
        { name := "g", parameters := [], returns := voidType } ] }

def pairEmission : Emission :=
  { layout := Layout.ofNames (Location.path ["p"]) {}
    aliases := [("Len", "u32")]
    templatesDir := none }

def bareWorld : World :=
  { tree := { entries := [] }, session := { cwd := [], homes := [] }, time := "" }

theorem pairModule_read_back :
    ∃ text, (pairEmission.bindingText pairModule).outcome
        { tree := { entries := [] }, session := { cwd := [], homes := [] }, time := "" } = .ok text ∧
      (LineEnds.universal.lines text.toList).length = 18 ∧
      BindingReading.ofLines? (LineEnds.universal.lines text.toList) = some {
        source := "rs/a/b.rs"
        libraryPath := "../../bin/a/b"
        functions :=
          [ { name := "f", declaration := "f(x: Len, y: *const  u8) -> bool",
              arguments := [.u32, .u64], returns := .bool },
            { name := "g", declaration := "g()", arguments := [], returns := .void } ]
        exports := ["f", "g"] } := by
  obtain ⟨text, emitted, -, length, read⟩ := @bindingText_read_back pairEmission pairModule
    { tree := { entries := [] }, session := { cwd := [], homes := [] }, time := "" }
    LineEnds.universal rfl (by decide) (by decide) (by decide) (by decide)
  exact ⟨text, emitted, length, read⟩

end FfiBindings
