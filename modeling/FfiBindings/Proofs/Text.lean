import FfiBindings.Text.Alphanumeric
import FfiBindings.Text.Blank

set_option autoImplicit false

namespace FfiBindings.Text

-- Only the characters of the text are gone through, not all that there are.
instance decidableForallMem (text : List Char) (p : Char → Prop) [DecidablePred p] :
    Decidable (∀ c ∈ text, p c) :=
  List.decidableBAll p text

theorem splitAt_of_notMem {separator : Char} {text : List Char} (clear : separator ∉ text) :
    splitAt separator text = [text] := by
  induction text with
  | nil => rfl
  | cons c rest ih =>
    simp only [List.mem_cons, not_or] at clear
    simp [splitAt, ih clear.2, Ne.symm clear.1]

theorem splitAt_append_cons {separator : Char} {text rest : List Char}
    (clear : separator ∉ text) :
    splitAt separator (text ++ separator :: rest) = text :: splitAt separator rest := by
  induction text with
  | nil => simp [splitAt]
  | cons c others ih =>
    simp only [List.mem_cons, not_or] at clear
    simp [splitAt, ih clear.2, Ne.symm clear.1]

theorem splitAt_intercalate {separator : Char} {pieces : List (List Char)}
    (nonempty : pieces ≠ []) (clear : ∀ piece ∈ pieces, separator ∉ piece) :
    splitAt separator ([separator].intercalate pieces) = pieces := by
  induction pieces with
  | nil => exact absurd rfl nonempty
  | cons piece rest ih =>
    simp only [List.forall_mem_cons] at clear
    cases rest with
    | nil => simpa using splitAt_of_notMem clear.1
    | cons next others =>
      rw [List.intercalate_cons_cons, List.append_assoc, List.singleton_append,
        splitAt_append_cons clear.1, ih (by simp) clear.2]

theorem splitAt_ne_nil (separator : Char) (text : List Char) : splitAt separator text ≠ [] := by
  cases text with
  | nil => simp [splitAt]
  | cons c rest =>
    unfold splitAt
    split
    · simp
    · split <;> simp

theorem splitAt_append (separator : Char) (text rest : List Char) :
    splitAt separator (text ++ separator :: rest) =
      splitAt separator text ++ splitAt separator rest := by
  induction text with
  | nil => simp [splitAt]
  | cons c others ih =>
    rw [List.cons_append, splitAt, splitAt, ih]
    split
    · rfl
    · cases found : splitAt separator others with
      | nil => exact absurd found (splitAt_ne_nil separator others)
      | cons first pieces => rfl

theorem intercalate_splitAt (separator : Char) (text : List Char) :
    [separator].intercalate (splitAt separator text) = text := by
  induction text with
  | nil => rfl
  | cons c rest ih =>
    rw [splitAt]
    split
    · next same =>
      cases found : splitAt separator rest with
      | nil => exact absurd found (splitAt_ne_nil separator rest)
      | cons first pieces =>
        rw [found] at ih
        rw [List.intercalate_cons_cons, ih, beq_iff_eq.mp same]
        rfl
    · cases found : splitAt separator rest with
      | nil => exact absurd found (splitAt_ne_nil separator rest)
      | cons first pieces =>
        rw [found] at ih
        cases pieces with
        | nil => simpa using ih
        | cons second others =>
          rw [List.intercalate_cons_cons] at ih ⊢
          simp [← ih]

theorem notMem_of_mem_splitAt {separator : Char} {text piece : List Char}
    (member : piece ∈ splitAt separator text) : separator ∉ piece := by
  induction text generalizing piece with
  | nil => simp_all [splitAt]
  | cons c rest ih =>
    simp only [splitAt] at member
    split at member
    · rcases List.mem_cons.mp member with rfl | later
      · simp
      · exact ih later
    · next other =>
      have different : separator ≠ c := fun same => other (beq_iff_eq.mpr same.symm)
      cases split : splitAt separator rest with
      | nil => simp_all
      | cons first others =>
        rw [split] at member ih
        rcases List.mem_cons.mp member with rfl | later
        · simp only [List.mem_cons, not_or]
          exact ⟨different, ih (by simp)⟩
        · exact ih (List.mem_cons_of_mem _ later)

theorem subset_of_mem_splitAt {separator : Char} {text piece : List Char}
    (member : piece ∈ splitAt separator text) : piece ⊆ text := by
  induction text generalizing piece with
  | nil =>
    rw [splitAt, List.mem_singleton] at member
    simp [member]
  | cons c rest ih =>
    unfold splitAt at member
    split at member
    · rcases List.mem_cons.mp member with rfl | later
      · exact List.nil_subset _
      · exact List.subset_cons_of_subset c (ih later)
    · split at member
      · rw [List.mem_singleton.mp member]
        exact List.cons_subset_cons c (List.nil_subset _)
      · next first others split =>
        rw [split] at ih
        rcases List.mem_cons.mp member with rfl | later
        · exact List.cons_subset_cons c (ih List.mem_cons_self)
        · exact List.subset_cons_of_subset c (ih (List.mem_cons_of_mem _ later))

theorem dropPrefix?_eq_some {expected text rest : List Char}
    (found : dropPrefix? expected text = some rest) : text = expected ++ rest := by
  induction expected generalizing text with
  | nil =>
    simp only [dropPrefix?, Option.some.injEq] at found
    simp [found]
  | cons head others ih =>
    cases text with
    | nil => simp [dropPrefix?] at found
    | cons c tail =>
      simp only [dropPrefix?] at found
      split at found
      · next same =>
        rw [beq_iff_eq.mp same, ih found]
        rfl
      · cases found

theorem dropPrefix?_append (expected rest : List Char) :
    dropPrefix? expected (expected ++ rest) = some rest := by
  induction expected with
  | nil => rfl
  | cons head others ih => simpa [dropPrefix?] using ih

theorem dropPrefix?_eq_none {expected text : List Char} (different : ¬ expected <+: text) :
    dropPrefix? expected text = none := by
  cases found : dropPrefix? expected text with
  | none => rfl
  | some rest => exact absurd ⟨rest, (dropPrefix?_eq_some found).symm⟩ different

theorem cutAt_eq_some_iff {separator : Char} {text before rest : List Char} :
    cutAt separator text = (before, some rest) ↔
      separator ∉ before ∧ text = before ++ separator :: rest := by
  induction text generalizing before with
  | nil => simp [cutAt]
  | cons c tail ih =>
    simp only [cutAt]
    split
    · next same =>
      rw [beq_iff_eq] at same
      subst same
      constructor
      · intro cut
        cases cut
        simp
      · rintro ⟨clear, parts⟩
        cases before with
        | nil => simpa using (List.cons.inj parts).2
        | cons first others =>
          rw [List.cons_append, List.cons.injEq] at parts
          exact absurd (by simp [parts.1]) clear
    · next different =>
      rw [beq_iff_eq] at different
      cases before with
      | nil =>
        simp [different]
      | cons first others =>
        have inner := @ih others
        simp only [List.cons.injEq, List.mem_cons, not_or, List.cons_append, Prod.ext_iff]
          at inner ⊢
        constructor
        · rintro ⟨⟨rfl, here⟩, onward⟩
          obtain ⟨clear, parts⟩ := inner.mp ⟨here, onward⟩
          exact ⟨⟨Ne.symm different, clear⟩, rfl, parts⟩
        · rintro ⟨⟨-, clear⟩, rfl, parts⟩
          obtain ⟨here, onward⟩ := inner.mpr ⟨clear, parts⟩
          exact ⟨⟨rfl, here⟩, onward⟩

theorem cutAt_of_notMem {separator : Char} {text : List Char} (clear : separator ∉ text) :
    cutAt separator text = (text, none) := by
  induction text with
  | nil => rfl
  | cons c rest ih =>
    simp only [List.mem_cons, not_or] at clear
    simp [cutAt, ih clear.2, Ne.symm clear.1]

theorem notWordChar_of_isBlank {c : Char} (blank : isBlank c = true) : isWordChar c = false := by
  have codes : ∀ code ∈ [9, 10, 11, 12, 13, 28, 29, 30, 31, 32, 0x85, 0xA0, 0x1680, 0x2000, 0x2001,
      0x2002, 0x2003, 0x2004, 0x2005, 0x2006, 0x2007, 0x2008, 0x2009, 0x200A, 0x2028, 0x2029,
      0x202F, 0x205F, 0x3000], isWordChar (Char.ofNat code) = false := by
    decide +kernel
  -- Word characters are kept in tables, so the blanks are tried one by one.
  have listed := codes c.toNat (by
    simp only [isBlank, Bool.or_eq_true, Bool.and_eq_true, decide_eq_true_eq, beq_iff_eq] at blank
    simp only [List.mem_cons, List.not_mem_nil, or_false]
    omega)
  rwa [Char.ofNat_toNat] at listed

def Solid (text : List Char) : Prop :=
  ∀ c ∈ text.head?, isBlank c = false

theorem dropBlank_of_solid {text : List Char} (solid : Solid text) : dropBlank text = text := by
  cases text with
  | nil => rfl
  | cons c rest => simp [dropBlank, solid c rfl]

theorem dropBlank_append {blanks : List Char} (blank : ∀ c ∈ blanks, isBlank c = true)
    (text : List Char) : dropBlank (blanks ++ text) = dropBlank text :=
  List.dropWhile_append_of_pos blank

theorem solid_dropBlank (text : List Char) : Solid (dropBlank text) := by
  intro c head
  have := List.head?_dropWhile_not isBlank text
  rw [dropBlank, Option.mem_def] at head
  simpa [head] using this

theorem eq_append_dropBlank (text : List Char) :
    ∃ blanks, (∀ c ∈ blanks, isBlank c = true) ∧ text = blanks ++ dropBlank text :=
  ⟨text.takeWhile isBlank, List.all_eq_true.mp List.all_takeWhile,
    (List.takeWhile_append_dropWhile).symm⟩

theorem words_of_blank {c : Char} (blank : isBlank c = true) (rest : List Char) :
    words (c :: rest) = words rest := by
  rw [words.eq_def]
  simp only [blank, if_true]

theorem words_single {c : Char} (visible : isBlank c = false) : words [c] = [[c]] := by
  rw [words.eq_def]
  simp only [visible]
  rfl

theorem words_of_visible {c : Char} (visible : isBlank c = false) (next : Char)
    (rest : List Char) :
    words (c :: next :: rest) =
      match words (next :: rest) with
      | word :: others => if isBlank next then [c] :: word :: others else (c :: word) :: others
      | [] => [[c]] := by
  rw [words.eq_def]
  simp only [visible]
  cases words (next :: rest) <;> rfl

theorem words_append_blanks {blanks : List Char} (blank : ∀ c ∈ blanks, isBlank c = true)
    (text : List Char) : words (text ++ blanks) = words text := by
  induction text with
  | nil =>
    induction blanks with
    | nil => rfl
    | cons c rest ih =>
      rw [List.forall_mem_cons] at blank
      rw [List.nil_append, words_of_blank blank.1]
      exact ih blank.2
  | cons c rest ih =>
    cases letter : isBlank c with
    | true => rw [List.cons_append, words_of_blank letter, words_of_blank letter, ih]
    | false =>
      cases rest with
      | cons next others =>
        rw [List.cons_append] at ih ⊢
        rw [List.cons_append, words_of_visible letter, words_of_visible letter, ih]
      | nil =>
        cases blanks with
        | nil => rfl
        | cons next others =>
          rw [List.nil_append] at ih
          rw [List.cons_append, List.nil_append, words_of_visible letter, ih, words_single letter]
          rfl

theorem words_cons_of_visible {c : Char} (visible : isBlank c = false) (rest : List Char) :
    ∃ word others, words (c :: rest) = (c :: word) :: others ∧
      ∀ later ∈ others, later ∈ words rest := by
  cases rest with
  | nil => exact ⟨[], [], words_single visible, by simp⟩
  | cons next tail =>
    rw [words_of_visible visible]
    cases words (next :: tail) with
    | nil => exact ⟨[], [], rfl, by simp⟩
    | cons word others =>
      cases isBlank next with
      | true => exact ⟨[], word :: others, rfl, fun _ => id⟩
      | false => exact ⟨word, others, rfl, fun _ => List.mem_cons_of_mem _⟩

theorem ne_nil_of_mem_words {text word : List Char} (member : word ∈ words text) : word ≠ [] := by
  induction text with
  | nil => cases member
  | cons c rest ih =>
    cases letter : isBlank c with
    | true => exact ih (words_of_blank letter rest ▸ member)
    | false =>
      obtain ⟨first, others, split, later⟩ := words_cons_of_visible letter rest
      rw [split] at member
      rcases List.mem_cons.mp member with rfl | inside
      · simp
      · exact ih (later word inside)

theorem words_eq_nil_iff {text : List Char} :
    words text = [] ↔ ∀ c ∈ text, isBlank c = true := by
  induction text with
  | nil =>
    have nothing : words [] = [] := rfl
    simp [nothing]
  | cons c rest ih =>
    rw [List.forall_mem_cons]
    cases letter : isBlank c with
    | true =>
      rw [words_of_blank letter, ih]
      simp
    | false =>
      obtain ⟨word, others, split, -⟩ := words_cons_of_visible letter rest
      simp [split]

theorem normaliseChars_eq_nil_iff {text : List Char} :
    normaliseChars text = [] ↔ ∀ c ∈ text, isBlank c = true := by
  rw [← words_eq_nil_iff, normaliseChars]
  cases found : words text with
  | nil => simp [joinWith]
  | cons word others =>
    have visible : word ≠ [] := ne_nil_of_mem_words (found ▸ List.mem_cons_self)
    cases others with
    | nil => simp [joinWith, visible]
    | cons next rest => simp [joinWith, visible]

end FfiBindings.Text
