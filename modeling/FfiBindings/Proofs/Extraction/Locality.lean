import FfiBindings.Proofs.Extraction.Spelling

-- Only a declaration that the first text leaves open can reach across the seam. Its marker begins
-- with a hash, and where every hash stands inside a finished declaration there is none.

set_option autoImplicit false

namespace FfiBindings.Extraction

/-- Every hash of the text stands inside one of the spans. -/
def HashesWithin (text : List Char) (spans : List Span) : Prop :=
  ∀ position < text.length, text[position]? = some '#' →
    ∃ span ∈ spans, span.start ≤ position ∧ position < span.stop

instance (text : List Char) (spans : List Span) : Decidable (HashesWithin text spans) :=
  inferInstanceAs (Decidable (∀ position < text.length, text[position]? = some '#' →
    ∃ span ∈ spans, span.start ≤ position ∧ position < span.stop))

variable {text front back : List Char} {spans others : List Span} {signatures : List Signature}

theorem Span.slice_append {span : Span} (within : span.stop ≤ front.length) (back : List Char) :
    span.slice (front ++ back) = span.slice front := by
  rw [slice, slice, List.take_append_of_le_length within]

theorem hash_of_declared {span : Span} (within : span.stop ≤ text.length)
    (declared : span.slice text ∈ declarations) : text[span.start]? = some '#' := by
  obtain ⟨signature, reading⟩ := mem_declarations_iff.mp declared
  have begins := (Span.eq_append_of_slice reading.ne_nil within).2.2
  rw [← List.head?_drop, begins, List.head?_append, reading.head_eq, Option.some_or]

-- The marks of two texts are marks of both together, those of the second moved behind the first.
theorem Marks.append (marks : Marks front spans) (marks' : Marks back others)
    (hashes : HashesWithin front spans) :
    Marks (front ++ back) (spans ++ others.map (Span.shift front.length)) where
  within := by
    refine List.forall_mem_append.mpr ⟨fun span member => ?_, fun span member => ?_⟩
    · have := marks.within span member
      rw [List.length_append]
      omega
    · exact (marks'.shift front span member).1
  ordered := by
    refine List.pairwise_append.mpr ⟨marks.ordered, marks'.ordered_shift _, ?_⟩
    intro span member later shifted
    obtain ⟨original, -, rfl⟩ := List.mem_map.mp shifted
    exact (marks.within span member).trans (Nat.le_add_right _ _)
  declared := by
    refine List.forall_mem_append.mpr ⟨fun span member => ?_, fun span member => ?_⟩
    · rw [Span.slice_append (marks.within span member)]
      exact marks.declared span member
    · exact (marks'.shift front span member).2
  complete := by
    intro span within declared
    rcases Nat.lt_or_ge span.start front.length with here | behind
    -- However far it reaches, it begins with a hash of the first text, and that one is held.
    · have hash := hash_of_declared within declared
      rw [List.getElem?_append_left here] at hash
      obtain ⟨holder, member, holds⟩ := hashes span.start here hash
      exact ⟨holder, List.mem_append_left _ member, holds⟩
    · obtain ⟨holder, member, holds⟩ := marks'.complete_shift front behind within declared
      exact ⟨holder, List.mem_append_right _ member, holds⟩

theorem extract_eq_of_marks (marks : Marks text spans)
    (readings : List.Forall₂ (fun span signature => Declares (span.slice text) signature) spans
      signatures) : extract text = signatures := by
  obtain ⟨found, marks', readings'⟩ := exists_marks text
  obtain rfl := marks'.unique marks
  have unique : Relator.RightUnique fun (span : Span) signature =>
      Declares (span.slice text) signature := fun _ _ _ reading other =>
    (reading.unique other (rfl : _ ++ [] = _ ++ [])).2
  exact unique.forall₂ readings' readings

theorem readings_of_marks (marks : Marks text spans) :
    List.Forall₂ (fun span signature => Declares (span.slice text) signature) spans
      (extract text) := by
  obtain ⟨found, marks', readings⟩ := exists_marks text
  rwa [marks'.unique marks] at readings

theorem readings_append (marks : Marks front spans) (back : List Char) :
    List.Forall₂ (fun span signature => Declares (span.slice (front ++ back)) signature) spans
      (extract front) := by
  have placed := (List.forall₂_and_left _ _).mpr ⟨marks.within, readings_of_marks marks⟩
  refine placed.imp fun span signature ⟨within, reading⟩ => ?_
  rwa [Span.slice_append within]

/-- Behind a text that leaves no declaration open, another one is read as if it stood alone: the
declarations of the first stay where they are and those of the second follow them. -/
theorem extract_append (marks : Marks front spans) (hashes : HashesWithin front spans)
    (back : List Char) :
    extract (front ++ back) = extract front ++ extract back ∧
      ∀ others, Marks back others →
        Marks (front ++ back) (spans ++ others.map (Span.shift front.length)) := by
  have together : ∀ others, Marks back others →
      Marks (front ++ back) (spans ++ others.map (Span.shift front.length)) :=
    fun others marks' => marks.append marks' hashes
  obtain ⟨others, marks', -⟩ := exists_marks back
  refine ⟨extract_eq_of_marks (together others marks') (List.rel_append ?_ ?_), together⟩
  · exact readings_append marks back
  · exact readings_shift front (readings_of_marks marks')

def hashedDeclaration : List Char :=
  "#[no_mangle] pub extern \"C\" fn f(a: r#type) \x7b".toList

theorem marks_hashedDeclaration :
    Marks hashedDeclaration [⟨0, hashedDeclaration.length⟩] := by
  have read : (declaration? hashedDeclaration).map (·.2) = some [] := by decide +kernel
  obtain ⟨⟨signature, rest⟩, found, rfl⟩ := Option.map_eq_some_iff.mp read
  obtain ⟨head, declared, whole⟩ := declaration?_eq_some_iff.mp found
  rw [List.append_nil] at whole
  have marks := Marks.nil.take (mem_declarations_iff.mpr ⟨signature, declared⟩)
  rwa [List.append_nil, ← whole] at marks

theorem hashedDeclaration_extracted :
    HashesWithin hashedDeclaration [⟨0, hashedDeclaration.length⟩] ∧
      extract (hashedDeclaration ++ hashedDeclaration) =
        extract hashedDeclaration ++ extract hashedDeclaration :=
  have hashes : HashesWithin hashedDeclaration [⟨0, hashedDeclaration.length⟩] := by decide +kernel
  ⟨hashes, (extract_append marks_hashedDeclaration hashes hashedDeclaration).1⟩

end FfiBindings.Extraction
