import FfiBindings.Proofs.Extraction.Spelling

set_option autoImplicit false

namespace FfiBindings

open Text

def Parameter.written (parameter : Parameter) : String :=
  parameter.name ++ ": " ++ parameter.type

namespace Signature

def writtenParameters (signature : Signature) : String :=
  ", ".intercalate (signature.parameters.map Parameter.written)

def writtenReturns (signature : Signature) : String :=
  if signature.returns = voidType then "" else " -> " ++ signature.returns

theorem describe_eq (signature : Signature) :
    signature.describe = signature.name ++ "(" ++ signature.writtenParameters ++ ")" ++
      signature.writtenReturns := by
  simp only [describe, writtenReturns]
  by_cases void : signature.returns = voidType
  · rw [if_pos (beq_iff_eq.mpr void), if_pos void, String.append_empty]
    rfl
  · rw [if_neg (fun same => void (beq_iff_eq.mp same)), if_neg void, ← String.append_assoc]
    rfl

end Signature

namespace Extraction

/-- What holds of every signature that is extracted. -/
structure Readable (signature : Signature) : Prop where
  name_ne_nil : signature.name.toList ≠ []
  word : ∀ c ∈ signature.name.toList, isWordChar c = true
  legible : ∀ parameter ∈ signature.parameters, Legible parameter
  separate : ∀ parameter ∈ signature.parameters,
    ∀ c ∈ parameter.name.toList ++ parameter.type.toList, c ≠ ',' ∧ c ≠ ')'
  returns_visible : signature.returns.toList.all isBlank ≠ true
  returns_normal : normaliseChars signature.returns.toList = signature.returns.toList
  returns_open : '{' ∉ signature.returns.toList

theorem returnType_readable {clause : Option (List Char)} (proper : IsReturnClause clause) :
    (returnType clause).toList.all isBlank ≠ true ∧
      normaliseChars (returnType clause).toList = (returnType clause).toList ∧
      '{' ∉ (returnType clause).toList := by
  have void : voidType.toList.all isBlank ≠ true ∧
      normaliseChars voidType.toList = voidType.toList ∧ '{' ∉ voidType.toList := by decide
  cases clause with
  | none => exact void
  | some type =>
    rw [returnType]
    split
    next => exact void
    next visible =>
      rw [String.toList_ofList]
      refine ⟨?_, normaliseChars_normaliseChars type, ?_⟩
      · intro blank
        have nothing := normaliseChars_eq_nil_iff.mpr (List.all_eq_true.mp blank)
        rw [normaliseChars_normaliseChars, normaliseChars_eq_nil_iff] at nothing
        exact visible (List.all_eq_true.mpr nothing)
      · intro brace
        rcases mem_normaliseChars brace with space | ⟨-, inside⟩
        · exact absurd space (by decide)
        · exact (proper type rfl).2 inside

theorem Declares.readable {head : List Char} {signature : Signature}
    (declared : Declares head signature) : Readable signature := by
  obtain ⟨groups, proper, -, rfl⟩ := declared
  obtain ⟨visible, normal, unopened⟩ := returnType_readable proper.clause
  refine ⟨?_, ?_, fun parameter member => (mem_parameters member).1, ?_, visible, normal, unopened⟩
  · simpa [Groups.signature] using proper.name_ne_nil
  · simpa [Groups.signature] using proper.word
  · intro parameter member c letter
    obtain ⟨comma, inside⟩ := (mem_parameters member).2 c letter
    refine ⟨comma, ?_⟩
    rintro rfl
    rcases inside with space | closing
    · exact absurd space (by decide)
    · exact proper.arguments closing

theorem readable_of_mem_extract {text : List Char} {signature : Signature}
    (member : signature ∈ extract text) : Readable signature := by
  obtain ⟨head, declared⟩ := exists_declares_of_mem_extract member
  exact declared.readable

namespace Readable

variable {signature : Signature}

theorem parameters_written (readable : Readable signature)
    (unmarked : ∀ parameter ∈ signature.parameters, ¬ "mut ".toList <+: parameter.name.toList) :
    parameters signature.writtenParameters.toList = signature.parameters := by
  have parts : signature.writtenParameters.toList =
      [',', ' '].intercalate (signature.parameters.map fun parameter =>
        parameter.name.toList ++ ':' :: ' ' :: parameter.type.toList) := by
    rw [Signature.writtenParameters, String.toList_intercalate, List.map_map]
    congr 1
    apply List.map_congr_left
    intro parameter _
    simp [Parameter.written]
  have clear : ∀ part ∈ signature.parameters.map fun parameter =>
      parameter.name.toList ++ ':' :: ' ' :: parameter.type.toList, ',' ∉ part := by
    refine List.forall_mem_map.mpr fun parameter member => ?_
    have separate := readable.separate parameter member
    rw [List.forall_mem_append] at separate
    simp only [List.mem_append, List.mem_cons, not_or]
    exact ⟨fun comma => (separate.1 _ comma).1 rfl, by decide, by decide,
      fun comma => (separate.2 _ comma).1 rfl⟩
  rw [parts, parameters_intercalate_space clear, List.filterMap_map]
  refine (List.filterMap_congr fun parameter member => ?_).trans List.filterMap_some
  exact parameter?_written (readable.legible parameter member) (unmarked parameter member)

theorem closing_notMem (readable : Readable signature) :
    ')' ∉ signature.writtenParameters.toList := by
  intro closing
  rw [Signature.writtenParameters, String.toList_intercalate, ← joinWith_eq_intercalate] at closing
  rcases mem_joinWith closing with between | ⟨_, member, inside⟩
  · exact absurd between (by decide)
  · rw [List.map_map] at member
    obtain ⟨parameter, listed, rfl⟩ := List.mem_map.mp member
    have separate := readable.separate parameter listed
    simp only [Function.comp_apply, Parameter.written, String.toList_append, List.mem_append]
      at inside
    rcases inside with (named | colon) | typed
    · exact (separate _ (List.mem_append_left _ named)).2 rfl
    · exact absurd colon (by decide)
    · exact (separate _ (List.mem_append_right _ typed)).2 rfl

end Readable

def describedGroups (signature : Signature) : Groups :=
  { name := signature.name.toList
    arguments := signature.writtenParameters.toList
    clause :=
      if signature.returns = voidType then none else some (' ' :: signature.returns.toList) }

namespace Readable

variable {signature : Signature}

theorem proper (readable : Readable signature) : (describedGroups signature).Proper where
  name_ne_nil := readable.name_ne_nil
  word := readable.word
  arguments := readable.closing_notMem
  clause := by
    intro clause present
    simp only [describedGroups] at present
    split at present
    next => cases present
    next =>
      cases present
      simp [readable.returns_open]

theorem returnType_described (readable : Readable signature) :
    returnType (describedGroups signature).clause = signature.returns := by
  by_cases void : signature.returns = voidType
  · simp [describedGroups, void, returnType]
  · have visible : (' ' :: signature.returns.toList).all isBlank ≠ true := by
      intro blank
      rw [List.all_cons, Bool.and_eq_true] at blank
      exact readable.returns_visible blank.2
    have normal : normaliseChars (' ' :: signature.returns.toList) = signature.returns.toList := by
      rw [normaliseChars, words_of_blank rfl, ← normaliseChars, readable.returns_normal]
    simp only [describedGroups, if_neg void, returnType, if_neg visible, normal,
      String.ofList_toList]

theorem signature_described (readable : Readable signature)
    (unmarked : ∀ parameter ∈ signature.parameters, ¬ "mut ".toList <+: parameter.name.toList) :
    (describedGroups signature).signature = signature := by
  have returned := readable.returnType_described
  have listed := readable.parameters_written unmarked
  simp only [Groups.signature, returned]
  simp only [describedGroups, listed, String.ofList_toList]

end Readable

theorem plainHeader_text : plainHeader.text = "#[no_mangle] pub extern \"C\" fn ".toList := by
  decide

theorem mem_ending_described (signature : Signature) :
    (signature.writtenReturns ++ " \x7b").toList ∈ ending (describedGroups signature).clause := by
  have space : [' '] ∈ blanks := oneSpace.2.2
  by_cases void : signature.returns = voidType
  · simp only [describedGroups, if_pos void, Signature.writtenReturns]
    exact mem_ending_none.mpr ⟨[' '], space, by simp⟩
  · simp only [describedGroups, if_neg void, Signature.writtenReturns]
    exact mem_ending_some.mpr ⟨[' '], space, [' '], space, by simp⟩

theorem declaration_eq (signature : Signature) :
    ("#[no_mangle] pub extern \"C\" fn " ++ signature.describe ++ " \x7b").toList =
      plainHeader.text ++ (signature.name.toList ++ ('(' ::
        (signature.writtenParameters.toList ++ ')' ::
          (signature.writtenReturns ++ " \x7b").toList))) := by
  have opening : "(".toList = ['('] := rfl
  have closing : ")".toList = [')'] := rfl
  simp only [Signature.describe_eq, plainHeader_text, String.toList_append,
    List.append_assoc, opening, closing, List.cons_append, List.nil_append]

theorem Readable.extract_describe {signature : Signature} (readable : Readable signature)
    (unmarked : ∀ parameter ∈ signature.parameters, ¬ "mut ".toList <+: parameter.name.toList) :
    extract ("#[no_mangle] pub extern \"C\" fn " ++ signature.describe ++ " \x7b").toList =
      [signature] := by
  have declared := plainHeader.declares readable.proper ⟨[], nil_mem_blanks⟩
    (mem_ending_described signature)
  rw [readable.signature_described unmarked] at declared
  have extracted := extract_of_declares declared []
  rw [declaration_eq]
  rwa [List.append_nil, extract_nil] at extracted

/-- A signature that was extracted can be extracted again from its description. A name that still
begins with `mut` and a space would lose it. -/
theorem described_again {text : List Char} {signature : Signature}
    (member : signature ∈ extract text)
    (unmarked : ∀ parameter ∈ signature.parameters, ¬ "mut ".toList <+: parameter.name.toList) :
    extract ("#[no_mangle] pub extern \"C\" fn " ++ signature.describe ++ " \x7b").toList =
      [signature] :=
  (readable_of_mem_extract member).extract_describe unmarked

def awkwardSignature : Signature :=
  { name := "f"
    parameters := [⟨"a\n b", "*const u8"⟩, ⟨"", ""⟩, ⟨"x", ""⟩]
    returns := voidType }

def awkwardDeclaration : List Char :=
  "#[no_mangle]\npub extern \"C\" fn f(a\n b : *const\tu8,, :, mut x) -> void \x7b\x7d".toList

theorem awkwardSignature_again :
    awkwardSignature ∈ extract awkwardDeclaration ∧
      extract ("#[no_mangle] pub extern \"C\" fn " ++ awkwardSignature.describe ++ " \x7b").toList =
        [awkwardSignature] := by
  have member : awkwardSignature ∈ extract awkwardDeclaration := by decide +kernel
  exact ⟨member, described_again member (by decide)⟩

end Extraction

end FfiBindings
