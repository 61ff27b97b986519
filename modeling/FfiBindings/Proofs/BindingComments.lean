import FfiBindings.Proofs.Binding
import FfiBindings.Proofs.BindingText
import FfiBindings.Proofs.Extraction.Describe

set_option autoImplicit false

namespace FfiBindings

open Exports Extraction

namespace LineEnds

def script : LineEnds where
  ends := isLineEnd
  lineFeed := rfl
  space := rfl
  blank c ends := by
    simp only [isLineEnd, Bool.or_eq_true, beq_iff_eq] at ends
    rcases ends with ((rfl | rfl) | rfl) | rfl <;> rfl

variable {convention : LineEnds}

theorem clear_append_iff {first second : String} :
    convention.Clear (first ++ second) ↔ convention.Clear first ∧ convention.Clear second := by
  simp only [Clear, String.toList_append, List.forall_mem_append]

theorem clear_intercalate_iff {separator : String} {pieces : List String}
    (clear : convention.Clear separator) :
    convention.Clear (separator.intercalate pieces) ↔ ∀ piece ∈ pieces, convention.Clear piece := by
  constructor
  · intro joined
    induction pieces with
    | nil => exact List.forall_mem_nil _
    | cons first others ih =>
      cases others with
      | nil => simpa using joined
      | cons next rest =>
        rw [String.intercalate_cons_cons, clear_append_iff, clear_append_iff] at joined
        exact List.forall_mem_cons.mpr ⟨joined.1.1, ih joined.2⟩
  · exact clear_intercalate clear

theorem clear_of_normal {text : String}
    (normal : Text.normaliseChars text.toList = text.toList) : convention.Clear text := by
  apply clear_of_all
  rw [List.all_eq_true]
  intro c letter
  rw [← normal] at letter
  rcases Text.mem_normaliseChars letter with rfl | ⟨visible, -⟩
  · rfl
  · simp [visible]

theorem clear_of_mem_lines {text line : List Char} (member : line ∈ convention.lines text) :
    ∀ c ∈ line, convention.ends c = false := by
  induction text generalizing line with
  | nil => cases member
  | cons c rest ih =>
    rw [lines] at member
    split at member
    next =>
      rcases List.mem_cons.mp member with rfl | later
      · exact List.forall_mem_nil _
      · exact ih later
    next visible =>
      rw [Bool.not_eq_true] at visible
      cases found : convention.lines rest with
      | nil =>
        rw [found, List.mem_singleton] at member
        simp [member, visible]
      | cons first others =>
        rw [found] at member ih
        rcases List.mem_cons.mp member with rfl | later
        · exact List.forall_mem_cons.mpr ⟨visible, ih List.mem_cons_self⟩
        · exact ih (List.mem_cons_of_mem _ later)

theorem lines_textOfLines_iff {content : List String} :
    convention.lines (textOfLines content).toList = content.map String.toList ↔
      ∀ line ∈ content, convention.Clear line := by
  constructor
  · intro same line member
    have read : line.toList ∈ convention.lines (textOfLines content).toList := by
      rw [same]
      exact List.mem_map_of_mem member
    exact clear_of_mem_lines read
  · exact lines_textOfLines

theorem lines_append_end {c : Char} (ends : convention.ends c = true) (text rest : List Char) :
    ∃ line others,
      convention.lines (text ++ c :: rest) = line :: (others ++ convention.lines rest) := by
  induction text with
  | nil => exact ⟨[], [], by simp [lines, ends]⟩
  | cons d tail ih =>
    obtain ⟨line, others, split⟩ := ih
    rw [List.cons_append, lines, split]
    cases convention.ends d with
    | true => exact ⟨[], line :: others, rfl⟩
    | false => exact ⟨d :: line, others, rfl⟩

theorem mem_lines_textOfLines {content : List String} {line : String} (member : line ∈ content)
    {before after : List Char} {c : Char} (broken : line.toList = before ++ c :: after)
    (ends : convention.ends c = true) (clear : ∀ d ∈ after, convention.ends d = false) :
    after ∈ convention.lines (textOfLines content).toList := by
  obtain ⟨above, below, rfl⟩ := List.append_of_mem member
  have whole : (textOfLines (above ++ line :: below)).toList =
      ((textOfLines above).toList ++ before) ++
        c :: (after ++ '\n' :: (textOfLines below).toList) := by
    rw [textOfLines_append, String.toList_append]
    simp [textOfLines, broken]
  obtain ⟨first, others, split⟩ := lines_append_end ends ((textOfLines above).toList ++ before)
    (after ++ '\n' :: (textOfLines below).toList)
  rw [whole, split, lines_append_lineFeed clear]
  simp

end LineEnds

namespace Extraction.Readable

variable {convention : LineEnds} {signature : Signature}

theorem isWord (readable : Readable signature) : IsWord signature.name where
  nonempty := by
    intro empty
    exact readable.name_ne_nil (String.toList_eq_nil_iff.mpr empty)
  word := readable.word

theorem clear_describe_iff (readable : Readable signature) :
    convention.Clear signature.describe ↔
      ∀ parameter ∈ signature.parameters, convention.Clear parameter.name := by
  have comma : convention.Clear ", " := LineEnds.clear_of_all (by decide)
  have colon : convention.Clear ": " := LineEnds.clear_of_all (by decide)
  have opening : convention.Clear "(" := LineEnds.clear_of_all (by decide)
  have closing : convention.Clear ")" := LineEnds.clear_of_all (by decide)
  have named : convention.Clear signature.name := LineEnds.clear_of_isWord readable.isWord
  have returned : convention.Clear signature.writtenReturns := by
    unfold Signature.writtenReturns
    split
    next => exact List.forall_mem_nil _
    next =>
      exact LineEnds.clear_append (LineEnds.clear_of_all (by decide))
        (LineEnds.clear_of_normal readable.returns_normal)
  have each : ∀ parameter ∈ signature.parameters,
      convention.Clear parameter.written ↔ convention.Clear parameter.name := by
    intro parameter member
    have typed : convention.Clear parameter.type :=
      LineEnds.clear_of_normal (readable.legible parameter member).normal
    simp only [Parameter.written, LineEnds.clear_append_iff, colon, typed, and_true]
  rw [Signature.describe_eq]
  simp only [LineEnds.clear_append_iff, named, opening, closing, returned, true_and, and_true]
  rw [Signature.writtenParameters, LineEnds.clear_intercalate_iff comma, List.forall_mem_map]
  exact forall₂_congr each

end Extraction.Readable

theorem comment_mem_bindingLines {functions : List FunctionBinding} {function : FunctionBinding}
    (member : function ∈ functions) (source library : String) :
    "  // " ++ function.declaration ∈ bindingLines source library functions := by
  have entry : "  // " ++ function.declaration ∈
      functions.flatMap FunctionBinding.descriptorLines :=
    List.mem_flatMap.mpr ⟨function, member, List.mem_cons_self⟩
  exact List.mem_append_left _ (List.mem_append_left _ (List.mem_append_right _ entry))

theorem LineEnds.clear_bindingLines_iff {convention : LineEnds} {source library : String}
    {functions : List FunctionBinding} (words : ∀ function ∈ functions, IsWord function.name) :
    (∀ line ∈ bindingLines source library functions, convention.Clear line) ↔
      convention.Clear source ∧ convention.Clear library ∧
        ∀ function ∈ functions, convention.Clear function.declaration := by
  constructor
  · intro clear
    have header := clear ("// Generated by rustport from " ++ source ++ ". Do not edit.")
      (by simp [bindingLines])
    have loading := clear ("const $lib = $dlopen(`$\x7bimport.meta.dir\x7d/" ++ library ++
      ".$\x7b$suffix\x7d`, \x7b") (by simp [bindingLines])
    rw [clear_append_iff, clear_append_iff] at header loading
    refine ⟨header.1.2, loading.1.2, fun function member => ?_⟩
    have comment := clear _ (comment_mem_bindingLines member source library)
    exact (clear_append_iff.mp comment).2
  · rintro ⟨sourceClear, libraryClear, declarations⟩
    exact clear_bindingLines sourceClear libraryClear words declarations

/-- The comments of a binding module, made from the packaged template. Those of functions whose
parameters have names without line ends stay on their lines, and the module has the lines it is made
of if all are such. What follows the last line end of any other description stands on a line of its
own, behind no comment sign. -/
theorem comments_on_lines {emission : Emission} {world : World} (source name : String)
    (text : List Char)
    (packaged :
      (Template.ownTemplate? emission.templatesDir Template.bindingTemplate).outcome world =
        .ok none) :
    (∀ signature ∈ extract text, LineEnds.script.Clear signature.describe ↔
      ∀ parameter ∈ signature.parameters, LineEnds.script.Clear parameter.name) ∧
    ∃ emitted,
      (emission.bindingText (extractedModule source name text)).outcome world = .ok emitted ∧
      Template.renderText (Template.bindingContext (extractedModule source name text)
        (emission.layout.libraryPath name)
        ((extractedModule source name text).functions emission.aliases))
        Template.packagedSource = .ok emitted ∧
      (LineEnds.script.lines emitted.toList =
          (bindingLines source (emission.layout.libraryPath name)
            ((extractedModule source name text).functions emission.aliases)).map String.toList ↔
        LineEnds.script.Clear source ∧
        LineEnds.script.Clear (emission.layout.libraryPath name) ∧
        ∀ signature ∈ (extractedModule source name text).signatures,
          ∀ parameter ∈ signature.parameters, LineEnds.script.Clear parameter.name) ∧
      ∀ signature ∈ (extractedModule source name text).signatures, ∀ before c after,
        signature.describe.toList = before ++ c :: after → LineEnds.script.ends c = true →
        (∀ d ∈ after, LineEnds.script.ends d = false) →
          after ∈ LineEnds.script.lines emitted.toList := by
  have readable : ∀ signature ∈ (extractedModule source name text).signatures,
      Readable signature :=
    fun signature member => readable_of_mem_extract (mem_extract_of_mem_extractedModule member)
  refine ⟨fun signature member => (readable_of_mem_extract member).clear_describe_iff, _,
    Emission.bindingText_packaged packaged _, Template.renderText_packaged _ _ _, ?_, ?_⟩
  · have words : ∀ function ∈ (extractedModule source name text).functions emission.aliases,
        IsWord function.name :=
      List.forall_mem_map.mpr fun signature member => (readable signature member).isWord
    refine LineEnds.lines_textOfLines_iff.trans ((LineEnds.clear_bindingLines_iff words).trans ?_)
    refine and_congr_right' (and_congr_right' (List.forall_mem_map.trans ?_))
    exact forall₂_congr fun signature member => (readable signature member).clear_describe_iff
  · intro signature member before c after broken ends clear
    have listed : FunctionBinding.ofSignature emission.aliases signature ∈
        (extractedModule source name text).functions emission.aliases :=
      List.mem_map_of_mem member
    have line : ("  // " ++ signature.describe).toList =
        ("  // ".toList ++ before) ++ c :: after := by
      rw [String.toList_append, broken, List.append_assoc]
    exact LineEnds.mem_lines_textOfLines (comment_mem_bindingLines listed _ _) line ends clear

def explainedParameter : List Char :=
  "#[no_mangle]\npub extern \"C\" fn f(\n    // first\n    a: u8\n) \x7b\x7d\n".toList

theorem explainedParameter_leaves_line :
    ∃ signature ∈ extract explainedParameter, ¬ LineEnds.script.Clear signature.describe := by
  have extracted : extract explainedParameter =
      [{ name := "f", parameters := [⟨"// first\n    a", "u8"⟩], returns := voidType }] := by
    decide +kernel
  rw [extracted]
  exact ⟨_, List.mem_cons_self, by decide⟩

theorem explainedParameter_becomes_code :
    ∃ emitted, (pairEmission.bindingText (extractedModule "a.rs" "a" explainedParameter)).outcome
        bareWorld = .ok emitted ∧
      "    a: u8)".toList ∈ LineEnds.script.lines emitted.toList := by
  obtain ⟨-, emitted, made, -, -, broken⟩ := @comments_on_lines pairEmission bareWorld "a.rs"
    "a" explainedParameter rfl
  have kept : (extractedModule "a.rs" "a" explainedParameter).signatures =
      [{ name := "f", parameters := [⟨"// first\n    a", "u8"⟩], returns := voidType }] := by
    decide +kernel
  refine ⟨emitted, made, ?_⟩
  rw [kept] at broken
  exact broken _ List.mem_cons_self "f(// first".toList '\n' "    a: u8)".toList (by decide) rfl
    (LineEnds.clear_of_all (by decide))

end FfiBindings
