import FfiBindings.Extraction.Parameters
import FfiBindings.Proofs.Words

set_option autoImplicit false

namespace FfiBindings.Extraction

open Text

theorem bindingName_congr {text other : List Char} (same : trimChars text = trimChars other) :
    bindingName text = bindingName other := by
  simp only [bindingName, same]

theorem bindingName_of_space {text rest : List Char}
    (changeable : trimChars text = "mut ".toList ++ rest) : bindingName text = trimChars rest := by
  simp only [bindingName, changeable, dropPrefix?_append]

theorem bindingName_of_unmarked {text : List Char}
    (unmarked : ¬ "mut ".toList <+: trimChars text) : bindingName text = trimChars text := by
  simp only [bindingName, dropPrefix?_eq_none unmarked]

theorem bindingName_of_trimmed {name : List Char} (trimmed : Trimmed name)
    (unmarked : ¬ "mut ".toList <+: name) : bindingName name = name := by
  rw [← trimChars_of_trimmed trimmed] at unmarked
  rw [bindingName_of_unmarked unmarked, trimChars_of_trimmed trimmed]

theorem bindingName_of_blank {text : List Char} (blank : ∀ c ∈ text, isBlank c = true) :
    bindingName text = [] := by
  rw [bindingName, trimChars_eq_nil_iff.mpr blank]
  rfl

theorem trimmed_bindingName (text : List Char) : Trimmed (bindingName text) := by
  unfold bindingName
  simp only
  split
  next => exact trimmed_trimChars _
  next => exact trimmed_trimChars _

theorem bindingName_subset (text : List Char) : bindingName text ⊆ text := by
  unfold bindingName
  simp only
  split
  next bound found =>
    intro c letter
    apply trimChars_subset text
    rw [dropPrefix?_eq_some found]
    exact List.mem_append_right _ (trimChars_subset bound letter)
  next => exact trimChars_subset text

theorem parameter?_congr {part other : List Char} (same : trimChars part = trimChars other) :
    parameter? part = parameter? other := by
  simp only [parameter?, same]

theorem parameter?_of_blank {part : List Char} (blank : ∀ c ∈ part, isBlank c = true) :
    parameter? part = none := by
  simp [parameter?, trimChars_eq_nil_iff.mpr blank]

theorem parameter?_eq_none_iff {part : List Char} :
    parameter? part = none ↔ ∀ c ∈ part, isBlank c = true := by
  refine ⟨fun skipped => ?_, parameter?_of_blank⟩
  rw [parameter?] at skipped
  split at skipped
  next empty => exact trimChars_eq_nil_iff.mp (List.isEmpty_iff.mp empty)
  next => cases skipped

theorem parameter?_of_notMem {part : List Char} (clear : ':' ∉ part) {parameter : Parameter}
    (found : parameter? part = some parameter) :
    parameter = { name := String.ofList (bindingName part), type := "" } := by
  have inside : ':' ∉ trimChars part := fun colon => clear (trimChars_subset part colon)
  have again : bindingName (trimChars part) = bindingName part :=
    bindingName_congr (trimChars_of_trimmed (trimmed_trimChars part))
  simp only [parameter?, cutAt_of_notMem inside, again] at found
  split at found
  next => cases found
  next =>
    cases found
    rfl

-- A part with a colon is read around the first one, and is never skipped.
theorem parameter?_colon {before : List Char} (clear : ':' ∉ before) (after : List Char) :
    parameter? (before ++ ':' :: after) =
      some { name := String.ofList (bindingName before)
             type := String.ofList (normaliseChars after) } := by
  have inside : ':' ∉ dropBlank before := fun colon =>
    clear ((List.dropWhile_suffix isBlank).subset colon)
  have named : bindingName (dropBlank before) = bindingName before :=
    bindingName_congr (trimChars_dropBlank before)
  have typed : normaliseChars (dropBlank after.reverse).reverse = normaliseChars after := by
    rw [normaliseChars, words_dropBlank_back, normaliseChars]
  have cut : cutAt ':' (dropBlank before ++ ':' :: (dropBlank after.reverse).reverse) =
      (dropBlank before, some (dropBlank after.reverse).reverse) :=
    cutAt_eq_some_iff.mpr ⟨inside, rfl⟩
  have trimmed : trimChars (before ++ ':' :: after) =
      dropBlank before ++ ':' :: (dropBlank after.reverse).reverse :=
    trimChars_append_cons rfl before after
  simp only [parameter?, trimmed, cut, named]
  simp [typed]

structure Legible (parameter : Parameter) : Prop where
  trimmed : Trimmed parameter.name.toList
  uncut : ':' ∉ parameter.name.toList
  normal : normaliseChars parameter.type.toList = parameter.type.toList

theorem parameter?_name {part : List Char} {parameter : Parameter}
    (found : parameter? part = some parameter) :
    parameter.name = String.ofList (bindingName (cutAt ':' part).1) := by
  by_cases colon : ':' ∈ part
  · obtain ⟨before, after, rfl, clear⟩ := List.eq_append_cons_of_mem colon
    have cut : cutAt ':' (before ++ ':' :: after) = (before, some after) :=
      cutAt_eq_some_iff.mpr ⟨clear, rfl⟩
    rw [parameter?_colon clear] at found
    cases found
    rw [cut]
  · rw [parameter?_of_notMem colon found, cutAt_of_notMem colon]

theorem parameter?_eq_some {part : List Char} {parameter : Parameter}
    (found : parameter? part = some parameter) :
    Legible parameter ∧ parameter.name.toList ⊆ part ∧
      ∀ c ∈ parameter.type.toList, c = ' ' ∨ isBlank c = false ∧ c ∈ part := by
  by_cases colon : ':' ∈ part
  · obtain ⟨before, after, rfl, clear⟩ := List.eq_append_cons_of_mem colon
    rw [parameter?_colon clear] at found
    cases found
    simp only [String.toList_ofList]
    refine ⟨⟨?_, ?_, ?_⟩, ?_, ?_⟩
    · simpa using trimmed_bindingName before
    · simpa using fun inside => clear (bindingName_subset before inside)
    · simpa using normaliseChars_normaliseChars after
    · exact fun c letter => List.mem_append_left _ (bindingName_subset before letter)
    · intro c letter
      refine (mem_normaliseChars letter).imp_right fun ⟨visible, inside⟩ => ⟨visible, ?_⟩
      exact List.mem_append_right _ (List.mem_cons_of_mem _ inside)
  · rw [parameter?_of_notMem colon found]
    refine ⟨⟨?_, ?_, rfl⟩, ?_, List.forall_mem_nil _⟩
    · simpa using trimmed_bindingName part
    · simpa using fun inside => colon (bindingName_subset part inside)
    · simpa using bindingName_subset part

-- A parameter that was read is read again from its name and its type, if its name does not look
-- like a changeable one.
theorem parameter?_written {parameter : Parameter} (legible : Legible parameter)
    (unmarked : ¬ "mut ".toList <+: parameter.name.toList) :
    parameter? (parameter.name.toList ++ ':' :: ' ' :: parameter.type.toList) = some parameter := by
  have typed : normaliseChars (' ' :: parameter.type.toList) = parameter.type.toList := by
    rw [normaliseChars, words_of_blank rfl, ← normaliseChars, legible.normal]
  rw [parameter?_colon legible.uncut, bindingName_of_trimmed legible.trimmed unmarked, typed]
  simp

theorem parameters_intercalate {parts : List (List Char)} (clear : ∀ part ∈ parts, ',' ∉ part) :
    parameters ([','].intercalate parts) = parts.filterMap parameter? := by
  cases parts with
  | nil => rfl
  | cons first others => rw [parameters, splitAt_intercalate (by simp) clear]

theorem parameters_cons_space (text : List Char) : parameters (' ' :: text) = parameters text := by
  have other : (' ' == ',') = false := rfl
  rw [parameters, parameters, splitAt, other, if_neg Bool.false_ne_true]
  cases found : splitAt ',' text with
  | nil => exact absurd found (splitAt_ne_nil ',' text)
  | cons first others =>
    have space : ∀ c ∈ [' '], isBlank c = true := List.forall_mem_singleton.mpr rfl
    have same : parameter? (' ' :: first) = parameter? first :=
      parameter?_congr (trimChars_blanks_append space first)
    simp only [List.filterMap_cons, same]

theorem parameters_intercalate_space {parts : List (List Char)}
    (clear : ∀ part ∈ parts, ',' ∉ part) :
    parameters ([',', ' '].intercalate parts) = parts.filterMap parameter? := by
  induction parts with
  | nil => rfl
  | cons first others ih =>
    rw [List.forall_mem_cons] at clear
    cases others with
    | nil => simp [parameters, splitAt_of_notMem clear.1]
    | cons next rest =>
      have onward := ih clear.2
      rw [← parameters_cons_space] at onward
      rw [List.intercalate_cons_cons, List.append_assoc, List.cons_append, parameters,
        splitAt_append_cons clear.1, List.filterMap_cons, List.filterMap_cons]
      rw [List.singleton_append, ← parameters, onward]

theorem mem_parameters {text : List Char} {parameter : Parameter}
    (member : parameter ∈ parameters text) :
    Legible parameter ∧ ∀ c ∈ parameter.name.toList ++ parameter.type.toList,
      c ≠ ',' ∧ (c = ' ' ∨ c ∈ text) := by
  obtain ⟨part, listed, found⟩ := List.mem_filterMap.mp member
  obtain ⟨legible, named, typed⟩ := parameter?_eq_some found
  have inPart : ∀ c ∈ part, c ≠ ',' ∧ (c = ' ' ∨ c ∈ text) := by
    intro c letter
    refine ⟨?_, .inr (subset_of_mem_splitAt listed letter)⟩
    rintro rfl
    exact notMem_of_mem_splitAt listed letter
  refine ⟨legible, List.forall_mem_append.mpr ⟨fun c letter => inPart c (named letter), ?_⟩⟩
  intro c letter
  rcases typed c letter with rfl | ⟨-, inside⟩
  · exact ⟨by decide, .inl rfl⟩
  · exact inPart c inside

end FfiBindings.Extraction
