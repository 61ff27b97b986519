import FfiBindings.Generation.Generate
import FfiBindings.Proofs.BindingComments
import FfiBindings.Proofs.FirstOfEach

set_option autoImplicit false

namespace FfiBindings

open Exports Extraction

namespace ModuleScope

def isNameChar (c : Char) : Bool :=
  Text.isWordChar c || c == '$'

def leadingName? (text : List Char) : Option String :=
  let name := text.takeWhile isNameChar
  if name.isEmpty then none else some (String.ofList name)

def importedNames (clause : List Char) : List String :=
  (Text.splitAt ',' (clause.takeWhile (· != '\x7d'))).filterMap fun part =>
    (Text.words part).getLast?.map String.ofList

-- The names that a line binds at top level. Imports and constants bind names, exported constants
-- among them; comments and lines that are indented do not.
def boundBy (line : List Char) : List String :=
  match Text.dropPrefix? "import \x7b".toList line with
  | some clause => importedNames clause
  | none =>
    let declared := Text.dropPrefix? "const ".toList line <|>
      Text.dropPrefix? "export const ".toList line
    (declared.bind leadingName?).toList

def boundNames (lines : List (List Char)) : List String :=
  lines.flatMap boundBy

def loaderNames : List String :=
  ["$dlopen", "$FFIType", "$suffix", "$lib"]

theorem leadingName?_append {name : String} (word : IsWord name) {rest : List Char}
    (ended : ∀ c ∈ rest.head?, isNameChar c = false) :
    leadingName? (name.toList ++ rest) = some name := by
  have stops : rest.takeWhile isNameChar = [] := by
    cases rest with
    | nil => rfl
    | cons c others => simp [ended c rfl]
  have letters : ∀ c ∈ name.toList, isNameChar c = true := by
    intro c letter
    rw [isNameChar, word.word c letter, Bool.true_or]
  have nonempty : name.toList.isEmpty = false := by simpa using word.nonempty
  rw [leadingName?, List.takeWhile_append_of_pos letters, stops, List.append_nil, nonempty,
    String.ofList_toList]
  rfl

theorem boundBy_exportLine {function : FunctionBinding} (word : IsWord function.name) :
    boundBy function.exportLine.toList = [function.name] := by
  have named := @leadingName?_append function.name word
    (" = $lib.symbols.".toList ++ function.name.toList ++ ";".toList) (by rintro c ⟨⟩; rfl)
  rw [function.toList_exportLine, boundBy]
  change ((Text.dropPrefix? "export const ".toList ("export const ".toList ++ _)).bind
    leadingName?).toList = _
  rw [Text.dropPrefix?_append, Option.bind_some, named]
  rfl

theorem boundBy_indented {line : String} (indented : line.toList.head? = some ' ') :
    boundBy line.toList = [] := by
  obtain ⟨rest, split⟩ := List.head?_eq_some_iff.mp indented
  rw [split]
  rfl

theorem boundNames_descriptorLines (function : FunctionBinding) :
    boundNames (function.descriptorLines.map String.toList) = [] := by
  have indented : ∀ line ∈ function.descriptorLines, line.toList.head? = some ' ' := by
    simp [FunctionBinding.descriptorLines]
  rw [boundNames, List.flatMap_eq_nil_iff, List.forall_mem_map]
  exact fun line member => boundBy_indented (indented line member)

theorem boundNames_append (first second : List (List Char)) :
    boundNames (first ++ second) = boundNames first ++ boundNames second :=
  List.flatMap_append

theorem boundNames_bindingLines {functions : List FunctionBinding}
    (words : ∀ function ∈ functions, IsWord function.name) (source library : String) :
    boundNames ((bindingLines source library functions).map String.toList) =
      loaderNames ++ functions.map (·.name) := by
  have front : boundNames
      ([ "// Generated by rustport from " ++ source ++ ". Do not edit.",
        BindingReading.importLine,
        "",
        "const $lib = $dlopen(`$\x7bimport.meta.dir\x7d/" ++ library ++
          ".$\x7b$suffix\x7d`, \x7b" ].map String.toList) = loaderNames := by
    simp only [List.map_cons, List.map_nil, String.toList_append, List.append_assoc]
    rfl
  have table : boundNames ((functions.flatMap FunctionBinding.descriptorLines).map String.toList) =
      [] := by
    rw [List.map_flatMap, boundNames, List.flatMap_assoc, List.flatMap_eq_nil_iff]
    exact fun function _ => boundNames_descriptorLines function
  have closing : boundNames (["\x7d);", ""].map String.toList) = [] := rfl
  have exports : boundNames ((functions.map FunctionBinding.exportLine).map String.toList) =
      functions.map (·.name) := by
    rw [List.map_map, boundNames, List.flatMap_map, List.map_eq_flatMap]
    exact List.flatMap_congr fun function member => boundBy_exportLine (words function member)
  rw [bindingLines, List.map_append, List.map_append, List.map_append, boundNames_append,
    boundNames_append, boundNames_append, table, closing, exports, List.append_nil, List.append_nil]
  exact congrArg (· ++ _) front

theorem notMem_loaderNames_of_isWord {name : String} (word : IsWord name) : name ∉ loaderNames := by
  intro member
  have dollar : ∀ name ∈ loaderNames, '$' ∈ name.toList := by decide
  have letter := word.word '$' (dollar name member)
  exact absurd letter (by decide)

theorem nodup_loaderNames_append {names : List String} (words : ∀ name ∈ names, IsWord name)
    (distinct : names.Nodup) : (loaderNames ++ names).Nodup := by
  refine List.nodup_append.mpr ⟨by decide, distinct, ?_⟩
  rintro name loading _ exported rfl
  exact notMem_loaderNames_of_isWord (words name exported) loading

end ModuleScope

open ModuleScope

theorem bindingText_paths (functions : List FunctionBinding) :
    ∃ front middle behind, ∀ source library,
      bindingText source library functions = front ++ source ++ middle ++ library ++ behind := by
  refine ⟨"// Generated by rustport from ",
    ". Do not edit.\n" ++
      "import \x7b dlopen as $dlopen, FFIType as $FFIType, suffix as $suffix \x7d from \"bun:ffi\";" ++
      "\n\nconst $lib = $dlopen(`$\x7bimport.meta.dir\x7d/",
    ".$\x7b$suffix\x7d`, \x7b\n" ++ textOfLines
      (functions.flatMap FunctionBinding.descriptorLines ++ ["\x7d);", ""] ++
        functions.map FunctionBinding.exportLine), fun source library => ?_⟩
  rw [bindingText, bindingLines, List.append_assoc, List.append_assoc, textOfLines_append,
    Template.textOfLines_front, List.append_assoc]
  simp only [String.append_assoc]

theorem names_extractedModule (source name : String) (text : List Char) :
    (extractedModule source name text).functionNames = ((extract text).map (·.name)).eraseDups := by
  rw [BindingModule.functionNames, extractedModule, deduplicate_kept]
  exact map_firstOfEach Signature.name (extract text)

theorem moduleOf?_declarationParser {source : SourceFile} {bytes : Text.Bytes}
    {bindings : BindingModule} {records : List Log.Record}
    (made : Generation.moduleOf? declarationParser source bytes = some (bindings, records)) :
    bindings = extractedModule source.relativePath source.moduleName
      (Generation.sourceText bytes) := by
  unfold Generation.moduleOf? at made
  split at made
  · cases made
  · next found =>
    cases made
    rfl

/-- No function shadows the loader. The module of a source text, if the descriptions of its signatures
stay on their lines, binds the names of the loader and then the distinct names of the signatures, in the
order in which they first occur, each name once. They are the names that it exports and those of its
table, which has the types of the first signature of each name. The two paths that the module prints have
no part in this: it holds with any paths of one line at their places. -/
theorem exports_spare_loader {emission : Emission} {world : World} (convention : LineEnds)
    (source name : String) (text : List Char)
    (packaged :
      (Template.ownTemplate? emission.templatesDir Template.bindingTemplate).outcome world =
        .ok none)
    (single : ∀ signature ∈ extract text, convention.Clear signature.describe) :
    ∃ front middle behind,
      (emission.bindingText (extractedModule source name text)).outcome world =
        .ok (front ++ source ++ middle ++ emission.layout.libraryPath name ++ behind) ∧
      Template.renderText (Template.bindingContext (extractedModule source name text)
          (emission.layout.libraryPath name)
          ((extractedModule source name text).functions emission.aliases))
          Template.packagedSource =
        .ok (front ++ source ++ middle ++ emission.layout.libraryPath name ++ behind) ∧
      ∀ sourcePath libraryPath, convention.Clear sourcePath → convention.Clear libraryPath →
        let lines :=
          convention.lines (front ++ sourcePath ++ middle ++ libraryPath ++ behind).toList
        let names := ((extract text).map (·.name)).eraseDups
        boundNames lines = loaderNames ++ names ∧
        (boundNames lines).Nodup ∧
        ∃ functions,
          BindingReading.ofLines? lines =
            some { source := sourcePath, libraryPath, functions, exports := names } ∧
          functions.map (·.name) = names ∧
          ∀ function ∈ functions, ∃ first,
            (extract text).find? (·.name == function.name) = some first ∧
            function.arguments = first.parameterTypes.map (mapType emission.aliases) ∧
            function.returns = mapType emission.aliases first.returns := by
  have readable : ∀ signature ∈ (extractedModule source name text).signatures,
      Readable signature :=
    fun signature member => readable_of_mem_extract (mem_extract_of_mem_extractedModule member)
  generalize made : (extractedModule source name text).functions emission.aliases = functions
  have words : ∀ function ∈ functions, IsWord function.name := by
    rw [← made]
    exact List.forall_mem_map.mpr fun signature member => (readable signature member).isWord
  have declarations : ∀ function ∈ functions, convention.Clear function.declaration := by
    rw [← made]
    exact List.forall_mem_map.mpr fun signature member =>
      single signature (mem_extract_of_mem_extractedModule member)
  have named : functions.map (·.name) = ((extract text).map (·.name)).eraseDups := by
    rw [← names_extractedModule source name, ← made, BindingModule.functions, List.map_map]
    rfl
  have wordNames : ∀ name ∈ ((extract text).map (·.name)).eraseDups, IsWord name := by
    rw [← named]
    exact List.forall_mem_map.mpr words
  obtain ⟨front, middle, behind, whole⟩ := bindingText_paths functions
  refine ⟨front, middle, behind, ?_, ?_, fun _ _ sourceClear libraryClear => ?_⟩
  · rw [← whole, ← made]
    exact Emission.bindingText_packaged packaged _
  · rw [← whole]
    exact Template.renderText_packaged _ _ _
  · have split := LineEnds.lines_textOfLines
      (LineEnds.clear_bindingLines sourceClear libraryClear words declarations)
    rw [← bindingText, whole] at split
    simp only [split]
    rw [boundNames_bindingLines words, BindingReading.ofLines?_bindingLines words, named]
    refine ⟨rfl, nodup_loaderNames_append wordNames (nodup_eraseDups _), functions, rfl, named, ?_⟩
    rw [← made]
    refine List.forall_mem_map.mpr fun signature member => ⟨signature, ?_, rfl, rfl⟩
    rw [extractedModule, deduplicate_kept] at member
    exact mem_firstOfEach_iff.mp member

def loaderLikeSource : List Char :=
  ("#[no_mangle] pub extern \"C\" fn dlopen(path: *const u8) -> bool \x7b\x7d\n" ++
    "#[no_mangle] pub extern \"C\" fn lib() \x7b\x7d\n" ++
    "#[no_mangle] pub extern \"C\" fn dlopen(flags: u8) \x7b\x7d\n").toList

theorem loaderLikeSource_bound :
    (∀ signature ∈ extract loaderLikeSource, LineEnds.universal.Clear signature.describe) ∧
    ∃ emitted,
      (pairEmission.bindingText (extractedModule "a.rs" "a" loaderLikeSource)).outcome bareWorld =
        .ok emitted ∧
      boundNames (LineEnds.universal.lines emitted.toList) =
        ["$dlopen", "$FFIType", "$suffix", "$lib", "dlopen", "lib"] := by
  have extracted : extract loaderLikeSource =
      [ { name := "dlopen", parameters := [⟨"path", "*const u8"⟩], returns := "bool" },
        { name := "lib", parameters := [], returns := voidType },
        { name := "dlopen", parameters := [⟨"flags", "u8"⟩], returns := voidType } ] := by
    decide +kernel
  have single : ∀ signature ∈ extract loaderLikeSource,
      LineEnds.universal.Clear signature.describe := by
    rw [extracted]
    decide +kernel
  obtain ⟨front, middle, behind, emitted, -, read⟩ := @exports_spare_loader pairEmission bareWorld
    LineEnds.universal "a.rs" "a" loaderLikeSource rfl single
  obtain ⟨bound, -, -⟩ := read "a.rs" (pairEmission.layout.libraryPath "a") (by decide) (by decide)
  refine ⟨single, _, emitted, bound.trans ?_⟩
  rw [extracted]
  decide +kernel

end FfiBindings
