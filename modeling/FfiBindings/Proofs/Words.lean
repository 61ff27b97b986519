import FfiBindings.Proofs.Text

set_option autoImplicit false

namespace FfiBindings.Text

structure Trimmed (text : List Char) : Prop where
  front : Solid text
  back : Solid text.reverse

theorem dropBlank_eq_nil {text : List Char} (blank : ∀ c ∈ text, isBlank c = true) :
    dropBlank text = [] := by
  simpa [dropBlank] using dropBlank_append blank []

theorem dropBlank_append_cons {c : Char} (visible : isBlank c = false) (text rest : List Char) :
    dropBlank (text ++ c :: rest) = dropBlank text ++ c :: rest := by
  unfold dropBlank
  rw [List.dropWhile_append]
  split
  next empty =>
    rw [List.isEmpty_iff.mp empty]
    simp [visible]
  next => rfl

theorem trimChars_blanks_append {blanks : List Char} (blank : ∀ c ∈ blanks, isBlank c = true)
    (text : List Char) : trimChars (blanks ++ text) = trimChars text := by
  rw [trimChars, dropBlank_append blank, trimChars]

theorem trimChars_append_blanks {blanks : List Char} (blank : ∀ c ∈ blanks, isBlank c = true)
    (text : List Char) : trimChars (text ++ blanks) = trimChars text := by
  have backwards : ∀ c ∈ blanks.reverse, isBlank c = true := by simpa using blank
  unfold trimChars dropBlank
  rw [List.dropWhile_append]
  split
  next empty =>
    rw [List.isEmpty_iff.mp empty]
    have nothing := dropBlank_eq_nil blank
    rw [dropBlank] at nothing
    rw [nothing]
  next =>
    have skipped := dropBlank_append backwards (text.dropWhile isBlank).reverse
    rw [dropBlank, dropBlank] at skipped
    rw [List.reverse_append, skipped]

theorem trimChars_append_cons {c : Char} (visible : isBlank c = false) (text rest : List Char) :
    trimChars (text ++ c :: rest) = dropBlank text ++ c :: (dropBlank rest.reverse).reverse := by
  rw [trimChars, dropBlank_append_cons visible, List.reverse_append, List.reverse_cons,
    List.append_assoc, List.singleton_append, dropBlank_append_cons visible]
  simp

theorem trimChars_of_trimmed {text : List Char} (trimmed : Trimmed text) :
    trimChars text = text := by
  rw [trimChars, dropBlank_of_solid trimmed.front, dropBlank_of_solid trimmed.back,
    List.reverse_reverse]

theorem trimChars_dropBlank (text : List Char) : trimChars (dropBlank text) = trimChars text := by
  rw [trimChars, dropBlank_of_solid (solid_dropBlank text), trimChars]

theorem eq_append_trimChars (text : List Char) :
    ∃ front back, (∀ c ∈ front, isBlank c = true) ∧ (∀ c ∈ back, isBlank c = true) ∧
      text = front ++ (trimChars text ++ back) := by
  obtain ⟨front, blank, whole⟩ := eq_append_dropBlank text
  obtain ⟨back, alsoBlank, turned⟩ := eq_append_dropBlank (dropBlank text).reverse
  refine ⟨front, back.reverse, blank, by simpa using alsoBlank, ?_⟩
  have straight := congrArg List.reverse turned
  rw [List.reverse_reverse, List.reverse_append] at straight
  rw [trimChars, ← straight]
  exact whole

theorem Solid.of_append {text rest : List Char} (solid : Solid (text ++ rest)) : Solid text := by
  intro c head
  refine solid c ?_
  rw [Option.mem_def] at head ⊢
  rw [List.head?_append, head, Option.some_or]

theorem Solid.eq_nil {text : List Char} (solid : Solid text)
    (blank : ∀ c ∈ text, isBlank c = true) : text = [] := by
  rw [← dropBlank_of_solid solid, dropBlank_eq_nil blank]

theorem trimmed_trimChars (text : List Char) : Trimmed (trimChars text) := by
  constructor
  · -- What is kept begins where the leading blanks end.
    obtain ⟨back, blank, turned⟩ := eq_append_dropBlank (dropBlank text).reverse
    have straight := congrArg List.reverse turned
    rw [List.reverse_reverse, List.reverse_append] at straight
    have solid := solid_dropBlank text
    rw [straight] at solid
    exact solid.of_append
  · rw [trimChars, List.reverse_reverse]
    exact solid_dropBlank _

theorem Trimmed.back_of_append {front rest : List Char} (trimmed : Trimmed (front ++ rest)) :
    Solid rest.reverse := by
  have back := trimmed.back
  rw [List.reverse_append] at back
  exact back.of_append

theorem trimChars_eq_nil_iff {text : List Char} :
    trimChars text = [] ↔ ∀ c ∈ text, isBlank c = true := by
  constructor
  · intro nothing
    obtain ⟨front, back, blank, alsoBlank, whole⟩ := eq_append_trimChars text
    rw [nothing, List.nil_append] at whole
    rw [whole]
    exact List.forall_mem_append.mpr ⟨blank, alsoBlank⟩
  · intro blank
    rw [trimChars, dropBlank_eq_nil blank]
    rfl

theorem trimChars_subset (text : List Char) : trimChars text ⊆ text := by
  obtain ⟨front, back, -, -, whole⟩ := eq_append_trimChars text
  intro c letter
  rw [whole]
  exact List.mem_append_right _ (List.mem_append_left _ letter)

structure Unbroken (word : List Char) : Prop where
  ne_nil : word ≠ []
  visible : ∀ c ∈ word, isBlank c = false

instance (word : List Char) : Decidable (Unbroken word) :=
  decidable_of_iff (word ≠ [] ∧ ∀ c ∈ word, isBlank c = false)
    ⟨fun both => ⟨both.1, both.2⟩, fun unbroken => ⟨unbroken.ne_nil, unbroken.visible⟩⟩

theorem Unbroken.trimmed {word : List Char} (unbroken : Unbroken word) : Trimmed word where
  front c head := unbroken.visible c (List.mem_of_mem_head? head)
  back c head := unbroken.visible c (List.mem_reverse.mp (List.mem_of_mem_head? head))

theorem words_blanks_append {blanks : List Char} (blank : ∀ c ∈ blanks, isBlank c = true)
    (text : List Char) : words (blanks ++ text) = words text := by
  induction blanks with
  | nil => rfl
  | cons c rest ih =>
    rw [List.forall_mem_cons] at blank
    rw [List.cons_append, words_of_blank blank.1, ih blank.2]

theorem words_dropBlank_back (text : List Char) :
    words (dropBlank text.reverse).reverse = words text := by
  obtain ⟨blanks, blank, turned⟩ := eq_append_dropBlank text.reverse
  have backwards : ∀ c ∈ blanks.reverse, isBlank c = true := by simpa using blank
  calc words (dropBlank text.reverse).reverse
      = words ((dropBlank text.reverse).reverse ++ blanks.reverse) :=
        (words_append_blanks backwards _).symm
    _ = words text := by rw [← List.reverse_append, ← turned, List.reverse_reverse]

theorem words_append_of_unbroken {word rest : List Char} (unbroken : Unbroken word)
    (ended : ∀ c ∈ rest.head?, isBlank c = true) : words (word ++ rest) = word :: words rest := by
  obtain ⟨nonempty, visible⟩ := unbroken
  induction word with
  | nil => exact absurd rfl nonempty
  | cons c others ih =>
    rw [List.forall_mem_cons] at visible
    cases others with
    | nil =>
      cases rest with
      | nil => exact words_single visible.1
      | cons next tail =>
        rw [List.singleton_append, words_of_visible visible.1, ended next rfl]
        cases words (next :: tail) <;> rfl
    | cons next tail =>
      have inner := ih (by simp) visible.2
      have letter : isBlank next = false := visible.2 next List.mem_cons_self
      rw [List.cons_append] at inner ⊢
      rw [List.cons_append, words_of_visible visible.1, inner, letter]
      rfl

theorem words_joinWith {pieces : List (List Char)} (unbroken : ∀ piece ∈ pieces, Unbroken piece) :
    words (joinWith [' '] pieces) = pieces := by
  induction pieces with
  | nil => rfl
  | cons piece others ih =>
    rw [List.forall_mem_cons] at unbroken
    cases others with
    | nil =>
      have single : words (piece ++ []) = piece :: words [] :=
        words_append_of_unbroken unbroken.1 (by simp)
      rwa [List.append_nil] at single
    | cons next rest =>
      have space : isBlank ' ' = true := rfl
      rw [joinWith, List.append_assoc, words_append_of_unbroken unbroken.1 (by simp [space]),
        List.singleton_append, words_of_blank space, ih unbroken.2]

theorem mem_words_cons {c : Char} {rest word : List Char} (member : word ∈ words (c :: rest)) :
    word ∈ words rest ∨
      isBlank c = false ∧ ∃ others, word = c :: others ∧ (others = [] ∨ others ∈ words rest) := by
  cases letter : isBlank c with
  | true => exact .inl (words_of_blank letter rest ▸ member)
  | false =>
    cases rest with
    | nil =>
      rw [words_single letter, List.mem_singleton] at member
      exact .inr ⟨rfl, [], member, .inl rfl⟩
    | cons next tail =>
      rw [words_of_visible letter] at member
      split at member
      next first others found =>
        rw [found]
        split at member
        next =>
          rcases List.mem_cons.mp member with here | later
          · exact .inr ⟨rfl, [], here, .inl rfl⟩
          · exact .inl later
        next =>
          rcases List.mem_cons.mp member with here | later
          · exact .inr ⟨rfl, first, here, .inr List.mem_cons_self⟩
          · exact .inl (List.mem_cons_of_mem _ later)
      next => exact .inr ⟨rfl, [], List.mem_singleton.mp member, .inl rfl⟩

theorem visible_of_mem_words {text word : List Char} (member : word ∈ words text) :
    ∀ c ∈ word, isBlank c = false ∧ c ∈ text := by
  induction text generalizing word with
  | nil => cases member
  | cons c rest ih =>
    have later : ∀ other ∈ words rest, ∀ d ∈ other, isBlank d = false ∧ d ∈ c :: rest := by
      intro other inside d letter
      exact ⟨(ih inside d letter).1, List.mem_cons_of_mem c (ih inside d letter).2⟩
    rcases mem_words_cons member with inside | ⟨letter, others, rfl, rfl | inside⟩
    · exact later word inside
    · simp [letter]
    · exact List.forall_mem_cons.mpr ⟨⟨letter, List.mem_cons_self⟩, later others inside⟩

theorem unbroken_of_mem_words {text word : List Char} (member : word ∈ words text) :
    Unbroken word :=
  ⟨ne_nil_of_mem_words member, fun c letter => (visible_of_mem_words member c letter).1⟩

theorem joinWith_eq_intercalate (separator : List Char) (pieces : List (List Char)) :
    joinWith separator pieces = separator.intercalate pieces := by
  induction pieces with
  | nil => rfl
  | cons piece others ih =>
    cases others with
    | nil => simp [joinWith]
    | cons next rest => rw [joinWith, ih, List.intercalate_cons_cons]

theorem mem_joinWith {c : Char} {separator : List Char} {pieces : List (List Char)}
    (letter : c ∈ joinWith separator pieces) : c ∈ separator ∨ ∃ piece ∈ pieces, c ∈ piece := by
  induction pieces with
  | nil => cases letter
  | cons piece others ih =>
    cases others with
    | nil => exact .inr ⟨piece, List.mem_cons_self, letter⟩
    | cons next rest =>
      rw [joinWith, List.mem_append, List.mem_append] at letter
      rcases letter with (here | between) | later
      · exact .inr ⟨piece, List.mem_cons_self, here⟩
      · exact .inl between
      · rcases ih later with between | ⟨other, member, inside⟩
        · exact .inl between
        · exact .inr ⟨other, List.mem_cons_of_mem _ member, inside⟩

theorem mem_normaliseChars {c : Char} {text : List Char} (letter : c ∈ normaliseChars text) :
    c = ' ' ∨ isBlank c = false ∧ c ∈ text := by
  rcases mem_joinWith letter with space | ⟨word, member, inside⟩
  · exact .inl (List.mem_singleton.mp space)
  · exact .inr (visible_of_mem_words member c inside)

theorem words_normaliseChars (text : List Char) : words (normaliseChars text) = words text :=
  words_joinWith fun _ => unbroken_of_mem_words

theorem normaliseChars_normaliseChars (text : List Char) :
    normaliseChars (normaliseChars text) = normaliseChars text := by
  rw [normaliseChars, words_normaliseChars, normaliseChars]

end FfiBindings.Text
