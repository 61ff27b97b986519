import FfiBindings.Proofs.Binding
import FfiBindings.Proofs.BindingText
import FfiBindings.Proofs.Extraction.Describe

set_option autoImplicit false

namespace FfiBindings

open Extraction

theorem toNat_lt_of_isAlpha {c : Char} (letter : c.isAlpha = true) : c.toNat < 0x80 := by
  have ranges : (decide (65 ≤ c.val ∧ c.val ≤ 90) ||
      decide (97 ≤ c.val) && decide (c.val ≤ 122)) = true := letter
  simp only [Bool.or_eq_true, Bool.and_eq_true, decide_eq_true_eq, UInt32.le_iff_toNat_le,
    UInt32.reduceToNat] at ranges
  have code : c.toNat = c.val.toNat := rfl
  omega

/-- The characters that identifiers are made of, in some version of the character database. The
closed classes leave out characters that compatibility forms would take out of an identifier. -/
structure IdentifierClasses where
  start : Char → Bool
  part : Char → Bool
  closedStart : Char → Bool
  closedPart : Char → Bool
  start_of_closed : ∀ c, closedStart c = true → start c = true
  part_of_closed : ∀ c, closedPart c = true → part c = true
  closedStart_ascii : ∀ c, c.toNat < 0x80 → closedStart c = c.isAlpha
  closedPart_ascii : ∀ c, c.toNat < 0x80 → closedPart c = (c.isAlphanum || c == '_')

namespace IdentifierClasses

variable (classes : IdentifierClasses)

-- An identifier of the source language; an underscore alone is none.
def IsDeclared (name : String) : Prop :=
  ∃ first others, name.toList = first :: others ∧
    (classes.closedStart first = true ∨ first = '_' ∧ others ≠ []) ∧
    ∀ c ∈ others, classes.closedPart c = true

def IsScript (name : String) : Prop :=
  ∃ first others, name.toList = first :: others ∧
    (classes.start first = true ∨ first = '$' ∨ first = '_') ∧
    ∀ c ∈ others, classes.part c = true ∨ c = '$' ∨ c = '\u200c' ∨ c = '\u200d'

variable {classes}

theorem IsDeclared.isScript {name : String} (declared : classes.IsDeclared name) :
    classes.IsScript name := by
  obtain ⟨first, others, split, starts, continues⟩ := declared
  refine ⟨first, others, split, ?_, fun c letter => ?_⟩
  · rcases starts with closed | ⟨underscore, -⟩
    · exact .inl (classes.start_of_closed first closed)
    · exact .inr (.inr underscore)
  · exact .inl (classes.part_of_closed c (continues c letter))

theorem isDeclared_of_letters {name : String} (nonempty : name.toList ≠ [])
    (letters : name.toList.all Char.isAlpha = true) : classes.IsDeclared name := by
  obtain ⟨first, others, split⟩ := List.exists_cons_of_ne_nil nonempty
  rw [split, List.all_eq_true, List.forall_mem_cons] at letters
  obtain ⟨alphabetic, continues⟩ := letters
  refine ⟨first, others, split, .inl ?_, fun c letter => ?_⟩
  · rw [classes.closedStart_ascii first (toNat_lt_of_isAlpha alphabetic), alphabetic]
  · rw [classes.closedPart_ascii c (toNat_lt_of_isAlpha (continues c letter)), Char.isAlphanum,
      continues c letter, Bool.true_or, Bool.true_or]

end IdentifierClasses

inductive Edition where
  | edition2015 | edition2018 | edition2021 | edition2024
deriving DecidableEq, Repr

namespace Edition

-- The words that no function can be named by in any edition, those kept for later use among them.
def commonKeywords : List String :=
  [ "as", "break", "const", "continue", "crate", "else", "enum", "extern", "false", "fn", "for",
    "if", "impl", "in", "let", "loop", "match", "mod", "move", "mut", "pub", "ref", "return",
    "self", "Self", "static", "struct", "super", "trait", "true", "type", "unsafe", "use", "where",
    "while", "abstract", "become", "box", "do", "final", "macro", "override", "priv", "typeof", "unsized",
    "virtual", "yield" ]

def keywords : Edition → List String
  | edition2015 => commonKeywords
  | edition2018 | edition2021 => commonKeywords ++ ["async", "await", "dyn", "try"]
  | edition2024 => commonKeywords ++ ["async", "await", "dyn", "try", "gen"]

structure IsFunctionName (edition : Edition) (classes : IdentifierClasses) (name : String) :
    Prop where
  identifier : classes.IsDeclared name
  free : name ∉ edition.keywords

end Edition

def reservedWords : List String :=
  [ "await", "break", "case", "catch", "class", "const", "continue", "debugger", "default",
    "delete", "do", "else", "enum", "export", "extends", "false", "finally", "for", "function",
    "if", "import", "in", "instanceof", "new", "null", "return", "super", "switch", "this",
    "throw", "true", "try", "typeof", "var", "void", "while", "with", "yield",
    -- These are reserved in strict code only, which the code of a module always is.
    "let", "static", "implements", "interface", "package", "private", "protected", "public" ]

namespace Edition

def commonClashes : List String :=
  [ "case", "catch", "class", "debugger", "default", "delete", "export", "extends", "finally",
    "function", "import", "instanceof", "new", "null", "switch", "this", "throw", "var", "void",
    "with", "implements", "interface", "package", "private", "protected", "public" ]

def clashes : Edition → List String
  | edition2015 => commonClashes ++ ["await", "try"]
  | edition2018 | edition2021 | edition2024 => commonClashes

theorem mem_reservedWords_iff (name : String) :
    name ∈ reservedWords ∧ name ∉ commonKeywords ↔ name ∈ commonClashes ++ ["await", "try"] := by
  have listed : ∀ word ∈ commonClashes ++ ["await", "try"],
      word ∈ reservedWords ∧ word ∉ commonKeywords := by
    decide +kernel
  have others : ∀ word ∈ reservedWords,
      word ∈ commonKeywords ∨ word ∈ commonClashes ++ ["await", "try"] := by
    decide +kernel
  exact ⟨fun ⟨reserved, free⟩ => (others name reserved).resolve_left free, listed name⟩

theorem mem_clashes_iff (edition : Edition) (name : String) :
    name ∈ edition.clashes ↔ name ∈ reservedWords ∧ name ∉ edition.keywords := by
  have later : ∀ word ∈ commonClashes, word ∉ ["async", "await", "dyn", "try", "gen"] := by
    decide +kernel
  cases edition with
  | edition2015 => exact (mem_reservedWords_iff name).symm
  | edition2018 | edition2021 | edition2024 =>
    simp only [keywords, clashes, List.mem_append, not_or]
    rw [← and_assoc, mem_reservedWords_iff, List.mem_append]
    have apart := later name
    simp only [List.mem_cons, List.not_mem_nil, or_false, not_or] at apart ⊢
    tauto

theorem letters_of_mem_clashes {edition : Edition} {name : String}
    (member : name ∈ edition.clashes) :
    name.toList ≠ [] ∧ name.toList.all Char.isAlpha = true := by
  have each : ∀ word ∈ commonClashes ++ ["await", "try"],
      word.toList ≠ [] ∧ word.toList.all Char.isAlpha = true := by
    decide +kernel
  apply each
  cases edition with
  | edition2015 => exact member
  | edition2018 | edition2021 | edition2024 => exact List.mem_append_left _ member

end Edition

def exportStatement (name : String) : String :=
  "export const " ++ name ++ " = $lib.symbols." ++ name ++ ";"

theorem bindingText_ends (bindings : BindingModule) (library : String) (aliases : TypeAliases) :
    ∃ front, bindingText bindings.source library (bindings.functions aliases) =
      front ++ textOfLines (bindings.functionNames.map exportStatement) := by
  have exports : (bindings.functions aliases).map FunctionBinding.exportLine =
      bindings.functionNames.map exportStatement := by
    simp only [BindingModule.functions, BindingModule.functionNames, List.map_map]
    rfl
  rw [bindingText, bindingLines, textOfLines_append, exports]
  exact ⟨_, rfl⟩

def bareSignature (name : String) : Signature :=
  { name, parameters := [], returns := voidType }

theorem readable_bareSignature {name : String} (nonempty : name.toList ≠ [])
    (word : ∀ c ∈ name.toList, Text.isWordChar c = true) : Readable (bareSignature name) where
  name_ne_nil := nonempty
  word := word
  legible := List.forall_mem_nil _
  separate := List.forall_mem_nil _
  returns_visible := show voidType.toList.all Text.isBlank ≠ true by decide
  returns_normal := show Text.normaliseChars voidType.toList = voidType.toList by decide
  returns_open := show '{' ∉ voidType.toList by decide

theorem isWordChar_of_isAlpha {c : Char} (letter : c.isAlpha = true) :
    Text.isWordChar c = true := by
  simp [Text.isWordChar, Text.isAlphanumeric, toNat_lt_of_isAlpha letter, Char.isAlphanum, letter]

theorem exists_clashing_text {classes : IdentifierClasses} {edition : Edition} {word : String}
    (member : word ∈ edition.clashes) (source name : String) :
    ∃ text, (∀ signature ∈ extract text, edition.IsFunctionName classes signature.name) ∧
      (extractedModule source name text).functionNames = [word] := by
  obtain ⟨nonempty, letters⟩ := Edition.letters_of_mem_clashes member
  have readable : Readable (bareSignature word) :=
    readable_bareSignature nonempty fun c letter =>
      isWordChar_of_isAlpha (List.all_eq_true.mp letters c letter)
  have extracted := readable.extract_describe (List.forall_mem_nil _)
  refine ⟨("#[no_mangle] pub extern \"C\" fn " ++ (bareSignature word).describe ++ " \x7b").toList,
    ?_, ?_⟩
  · rw [extracted, List.forall_mem_singleton]
    exact ⟨IdentifierClasses.isDeclared_of_letters nonempty letters,
      ((edition.mem_clashes_iff word).mp member).2⟩
  · rw [extractedModule, extracted]
    rfl

/-- The constants that a binding module exports under the names of its functions are identifiers.
Those named by the words that scripts reserve and the source language does not are not legal ones,
and there is a module with each of these. -/
theorem exports_legal_iff (classes : IdentifierClasses) (edition : Edition) {emission : Emission}
    {world : World} (source name : String)
    (packaged :
      (Template.ownTemplate? emission.templatesDir Template.bindingTemplate).outcome world =
        .ok none) :
    (∀ text, (∀ signature ∈ extract text, edition.IsFunctionName classes signature.name) →
      (∃ emitted front, (emission.bindingText (extractedModule source name text)).outcome world =
          .ok emitted ∧
        Template.renderText (Template.bindingContext (extractedModule source name text)
          (emission.layout.libraryPath name)
          ((extractedModule source name text).functions emission.aliases))
          Template.packagedSource = .ok emitted ∧
        emitted = front ++ textOfLines
          ((extractedModule source name text).functionNames.map exportStatement)) ∧
      ∀ exported ∈ (extractedModule source name text).functionNames,
        classes.IsScript exported ∧ (exported ∈ reservedWords ↔ exported ∈ edition.clashes)) ∧
    ∀ word ∈ edition.clashes, ∃ text,
      (∀ signature ∈ extract text, edition.IsFunctionName classes signature.name) ∧
        (extractedModule source name text).functionNames = [word] := by
  refine ⟨fun text valid => ⟨?_, ?_⟩, fun word member => exists_clashing_text member source name⟩
  · obtain ⟨front, whole⟩ := bindingText_ends (extractedModule source name text)
      (emission.layout.libraryPath name) emission.aliases
    exact ⟨_, front, Emission.bindingText_packaged packaged _, Template.renderText_packaged _ _ _,
      whole⟩
  · intro exported member
    obtain ⟨signature, kept, rfl⟩ := List.mem_map.mp member
    have named := valid signature (mem_extract_of_mem_extractedModule kept)
    refine ⟨named.identifier.isScript, ?_⟩
    rw [edition.mem_clashes_iff]
    exact ⟨fun reserved => ⟨reserved, named.free⟩, And.left⟩

def asciiClasses : IdentifierClasses where
  start := Char.isAlpha
  part c := c.isAlphanum || c == '_'
  closedStart := Char.isAlpha
  closedPart c := c.isAlphanum || c == '_'
  start_of_closed _ := id
  part_of_closed _ := id
  closedStart_ascii _ _ := rfl
  closedPart_ascii _ _ := rfl

def deletingSource : List Char :=
  ("#[no_mangle] pub extern \"C\" fn delete(at: usize) \x7b\x7d\n" ++
    "#[no_mangle] pub extern \"C\" fn add() \x7b\x7d\n").toList

theorem deletingSource_names :
    (extractedModule "a.rs" "a" deletingSource).functionNames = ["delete", "add"] := by
  decide +kernel

theorem deletingSource_valid (signature : Signature) (member : signature ∈ extract deletingSource) :
    Edition.edition2021.IsFunctionName asciiClasses signature.name := by
  have extracted : (extract deletingSource).map Signature.name = ["delete", "add"] := by
    decide +kernel
  have named : signature.name ∈ ["delete", "add"] := by
    rw [← extracted]
    exact List.mem_map_of_mem member
  have letters : ∀ word ∈ ["delete", "add"],
      (word.toList ≠ [] ∧ word.toList.all Char.isAlpha = true) ∧
        word ∉ Edition.edition2021.keywords := by
    decide +kernel
  obtain ⟨⟨nonempty, alphabetic⟩, free⟩ := letters signature.name named
  exact ⟨IdentifierClasses.isDeclared_of_letters nonempty alphabetic, free⟩

theorem deletingSource_exports_reserved :
    (∀ signature ∈ extract deletingSource,
      Edition.edition2021.IsFunctionName asciiClasses signature.name) ∧
    ∃ exported ∈ (extractedModule "a.rs" "a" deletingSource).functionNames,
      exported ∈ reservedWords := by
  refine ⟨deletingSource_valid, "delete", ?_, by decide⟩
  rw [deletingSource_names]
  exact List.mem_cons_self

theorem deletingSource_exports :
    (∃ front, (pairEmission.bindingText (extractedModule "a.rs" "a" deletingSource)).outcome
        bareWorld = .ok (front ++ textOfLines
        [ "export const delete = $lib.symbols.delete;", "export const add = $lib.symbols.add;" ])) ∧
    "delete" ∈ reservedWords ∧ "add" ∉ reservedWords := by
  obtain ⟨⟨_, front, made, -, rfl⟩, legal⟩ := (@exports_legal_iff asciiClasses .edition2021
    pairEmission bareWorld "a.rs" "a" rfl).1 deletingSource deletingSource_valid
  rw [deletingSource_names] at made legal
  refine ⟨⟨front, made⟩, (legal "delete" (by decide)).2.mpr (by decide), fun reserved => ?_⟩
  exact absurd ((legal "add" (by decide)).2.mp reserved) (by decide)

end FfiBindings
