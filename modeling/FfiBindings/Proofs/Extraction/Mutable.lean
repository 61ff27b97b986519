import FfiBindings.Proofs.Extraction.Spelling

set_option autoImplicit false

namespace FfiBindings.Extraction

open Text

def Mutable (text : List Char) : Prop :=
  ∃ c rest, isBlank c = true ∧ text = "mut".toList ++ c :: rest

theorem not_mutable_nil : ¬ Mutable [] := by
  rintro ⟨c, rest, -, nothing⟩
  cases nothing

theorem mutable_of_marked {text : List Char} (marked : "mut ".toList <+: text) : Mutable text := by
  obtain ⟨rest, rfl⟩ := marked
  exact ⟨' ', rest, rfl, rfl⟩

def withMuts : List Gap → List Char → List Char
  | [], name => name
  | gap :: others, name => "mut".toList ++ (gap.1 ++ withMuts others name)

theorem mutable_withMuts (gap : Gap) (others : List Gap) (name : List Char) :
    Mutable (withMuts (gap :: others) name) := by
  obtain ⟨gap, nonempty, blank⟩ := gap
  obtain ⟨c, blanks, rfl⟩ := List.exists_cons_of_ne_nil nonempty
  exact ⟨c, blanks ++ withMuts others name, blank c List.mem_cons_self, rfl⟩

theorem trimmed_withMuts {gaps : List Gap} {name : List Char} (trimmed : Trimmed name)
    (named : gaps ≠ [] → name ≠ []) : Trimmed (withMuts gaps name) := by
  induction gaps with
  | nil => exact trimmed
  | cons gap others ih =>
    have present : withMuts others name ≠ [] := by
      cases others with
      | nil => exact named (List.cons_ne_nil _ _)
      | cons next rest => simp [withMuts]
    have inner := ih fun _ => named (List.cons_ne_nil _ _)
    constructor
    · intro c head
      cases head
      rfl
    · intro c head
      refine inner.back c ?_
      rw [withMuts, ← List.append_assoc, List.reverse_append,
        List.head?_append_of_ne_nil _ (List.reverse_eq_nil_iff.not.mpr present)] at head
      exact head

-- What stands before the colon of a parameter, without the blanks around it.
structure SpelledBinding where
  gaps : List Gap
  name : List Char
  trimmed : Trimmed name
  immutable : ¬ Mutable name
  named : gaps ≠ [] → name ≠ []

namespace SpelledBinding

def text (spelled : SpelledBinding) : List Char := withMuts spelled.gaps spelled.name

theorem trimmed_text (spelled : SpelledBinding) : Trimmed spelled.text :=
  trimmed_withMuts spelled.trimmed spelled.named

theorem text_of_unnamed {spelled : SpelledBinding} (unnamed : spelled.name = []) :
    spelled.text = [] := by
  have row : spelled.gaps = [] := by_contra fun gaps => spelled.named gaps unnamed
  rw [text, row, withMuts, unnamed]

theorem mutable_text_iff (spelled : SpelledBinding) :
    Mutable spelled.text ↔ spelled.gaps ≠ [] := by
  rw [text]
  cases spelled.gaps with
  | nil => exact iff_of_false spelled.immutable (absurd rfl)
  | cons gap others => exact iff_of_true (mutable_withMuts gap others _) (List.cons_ne_nil _ _)

end SpelledBinding

theorem Mutable.exists_rest {text : List Char} (changeable : Mutable text)
    (trimmed : Trimmed text) : ∃ (gap : Gap) (rest : List Char),
      text = "mut".toList ++ (gap.1 ++ rest) ∧ rest ≠ [] ∧ Trimmed rest := by
  obtain ⟨c, behind, letter, rfl⟩ := changeable
  obtain ⟨blanks, blank, whole⟩ := eq_append_dropBlank behind
  have gapBlank : ∀ d ∈ c :: blanks, isBlank d = true := List.forall_mem_cons.mpr ⟨letter, blank⟩
  have opened : "mut".toList ++ c :: behind =
      "mut".toList ++ (c :: blanks ++ dropBlank behind) := by
    rw [List.cons_append, ← whole]
  rw [opened] at trimmed
  refine ⟨⟨c :: blanks, List.cons_ne_nil _ _, gapBlank⟩, dropBlank behind, opened, ?_,
    solid_dropBlank behind, ?_⟩
  · -- If only blanks followed, the text would end in them.
    intro nothing
    rw [nothing, List.append_nil] at trimmed
    have empty := trimmed.back_of_append.eq_nil fun d letter =>
      gapBlank d (List.mem_reverse.mp letter)
    exact List.cons_ne_nil _ _ (List.reverse_eq_nil_iff.mp empty)
  · rw [← List.append_assoc] at trimmed
    exact trimmed.back_of_append

theorem exists_spelledBinding {text : List Char} (trimmed : Trimmed text) :
    ∃ spelled : SpelledBinding, spelled.text = text := by
  -- Behind a `mut` stands a shorter text, which is spelled already.
  induction size : text.length using Nat.strong_induction_on generalizing text with
  | _ length ih =>
    by_cases changeable : Mutable text
    · obtain ⟨gap, rest, rfl, present, restTrimmed⟩ := changeable.exists_rest trimmed
      have shorter : rest.length < length := by
        have word : ("mut".toList).length = 3 := rfl
        rw [List.length_append, List.length_append] at size
        omega
      obtain ⟨spelled, rfl⟩ := ih rest.length shorter restTrimmed rfl
      exact ⟨{ spelled with
        gaps := gap :: spelled.gaps
        named := fun _ unnamed => present (SpelledBinding.text_of_unnamed unnamed) }, rfl⟩
    · exact ⟨⟨[], text, trimmed, changeable, absurd rfl⟩, rfl⟩

-- A row of `mut`s without the first, if a space follows that.
def keptGaps : List Gap → List Gap
  | [] => []
  | gap :: others => if gap.1.head? = some ' ' then others else gap :: others

theorem keptGaps_eq_nil_iff {gaps : List Gap} :
    keptGaps gaps = [] ↔ gaps.length ≤ 1 ∧ ∀ gap ∈ gaps, gap.1.head? = some ' ' := by
  cases gaps with
  | nil => simp [keptGaps]
  | cons gap others =>
    rw [keptGaps]
    split
    next space =>
      constructor
      · rintro rfl
        exact ⟨Nat.le_refl 1, List.forall_mem_singleton.mpr space⟩
      · rintro ⟨short, -⟩
        exact List.eq_nil_of_length_eq_zero (by simpa using short)
    next other =>
      refine iff_of_false (List.cons_ne_nil _ _) ?_
      rintro ⟨-, spaces⟩
      exact other (spaces gap List.mem_cons_self)

namespace SpelledBinding

def read (spelled : SpelledBinding) : SpelledBinding :=
  { spelled with
    gaps := keptGaps spelled.gaps
    named := by
      intro kept
      refine spelled.named fun nothing => kept ?_
      rw [nothing, keptGaps] }

theorem text_read (spelled : SpelledBinding) :
    spelled.read.text = withMuts (keptGaps spelled.gaps) spelled.name :=
  rfl

theorem bindingName_spelled (spelled : SpelledBinding) {text : List Char}
    (same : trimChars text = spelled.text) : bindingName text = spelled.read.text := by
  have unread (unmarked : ¬ "mut ".toList <+: spelled.text)
      (kept : keptGaps spelled.gaps = spelled.gaps) : bindingName text = spelled.read.text := by
    rw [← same] at unmarked
    rw [bindingName_of_unmarked unmarked, same, text_read, kept, SpelledBinding.text]
  cases row : spelled.gaps with
  | nil =>
    refine unread (fun marked => ?_) (by rw [row, keptGaps])
    exact spelled.mutable_text_iff.mp (mutable_of_marked marked) row
  | cons gap others =>
    obtain ⟨c, blanks, opening⟩ := List.exists_cons_of_ne_nil gap.2.1
    have blank := gap.2.2
    rw [opening, List.forall_mem_cons] at blank
    have whole : spelled.text = "mut".toList ++ c :: (blanks ++ withMuts others spelled.name) := by
      rw [SpelledBinding.text, row, withMuts, opening, List.cons_append]
    by_cases space : c = ' '
    · have kept : spelled.read.text = withMuts others spelled.name := by
        rw [text_read, row, keptGaps, opening, space, List.head?_cons, if_pos rfl]
      have marked : trimChars text = "mut ".toList ++ (blanks ++ spelled.read.text) := by
        rw [same, whole, space, kept]
        rfl
      rw [bindingName_of_space marked, trimChars_blanks_append blank.2,
        trimChars_of_trimmed spelled.read.trimmed_text]
    · refine unread (fun marked => space ?_) ?_
      · rw [whole] at marked
        simpa [eq_comm] using marked
      · have other : (c :: blanks).head? ≠ some ' ' := fun head => space (Option.some.inj head)
        rw [row, keptGaps, opening, if_neg other]

theorem immutable_bindingName_iff (spelled : SpelledBinding) {text : List Char}
    (same : trimChars text = spelled.text) :
    ¬ Mutable (bindingName text) ↔
      spelled.gaps.length ≤ 1 ∧ ∀ gap ∈ spelled.gaps, gap.1.head? = some ' ' := by
  rw [spelled.bindingName_spelled same, mutable_text_iff, not_not]
  exact keptGaps_eq_nil_iff

theorem bindingName_of_few (spelled : SpelledBinding) {text : List Char}
    (same : trimChars text = spelled.text)
    (few : spelled.gaps.length ≤ 1 ∧ ∀ gap ∈ spelled.gaps, gap.1.head? = some ' ') :
    bindingName text = spelled.name := by
  rw [spelled.bindingName_spelled same, text_read, keptGaps_eq_nil_iff.mpr few, withMuts]

end SpelledBinding

theorem immutable_names_iff (text : List Char) :
    (∀ parameter ∈ parameters text, ¬ Mutable parameter.name.toList) ↔
      ∀ part ∈ splitAt ',' text, ¬ Mutable (bindingName (cutAt ':' part).1) := by
  rw [parameters, List.forall_mem_filterMap]
  refine forall₂_congr fun part _ => ?_
  cases found : parameter? part with
  | none =>
    -- A part that is skipped is blank, and would have no name.
    have blank := parameter?_eq_none_iff.mp found
    rw [cutAt_of_notMem (notMem_of_blank rfl blank), bindingName_of_blank blank]
    exact iff_of_true (by simp) not_mutable_nil
  | some parameter => simp [parameter?_name found]

/-- The names of a parameter list are free of `mut` exactly if each part has at most one before its
name, with a space right behind it. The names are then what the parts have behind it. -/
theorem mutable_dropped_iff (text : List Char) :
    (∀ parameter ∈ parameters text, ¬ Mutable parameter.name.toList) ↔
      ∀ part ∈ splitAt ',' text, ∃ spelled : SpelledBinding,
        spelled.text = trimChars (cutAt ':' part).1 ∧
        (∀ parameter ∈ parameter? part, parameter.name = String.ofList spelled.name) ∧
        spelled.gaps.length ≤ 1 ∧ ∀ gap ∈ spelled.gaps, gap.1.head? = some ' ' := by
  rw [immutable_names_iff]
  refine forall₂_congr fun part _ => ?_
  constructor
  · intro immutable
    obtain ⟨spelled, same⟩ := exists_spelledBinding (trimmed_trimChars (cutAt ':' part).1)
    have few := (spelled.immutable_bindingName_iff same.symm).mp immutable
    refine ⟨spelled, same, fun parameter found => ?_, few⟩
    rw [parameter?_name found, spelled.bindingName_of_few same.symm few]
  · rintro ⟨spelled, same, -, few⟩
    exact (spelled.immutable_bindingName_iff same.symm).mpr few

example : parameters "mut \u2003a: u8, mut mut b: u8".toList = [⟨"a", "u8"⟩, ⟨"mut b", "u8"⟩] := by
  decide

def tabbedParameters : List Char := "mut\ta: i32".toList

theorem tabbedParameters_keep_mut :
    ∃ parameter ∈ parameters tabbedParameters, Mutable parameter.name.toList := by
  have read : parameters tabbedParameters = [⟨"mut\ta", "i32"⟩] := by decide
  rw [read]
  exact ⟨_, List.mem_cons_self, '\t', ['a'], rfl, rfl⟩

end FfiBindings.Extraction
