import FfiBindings.Proofs.Extraction.Grammar
import Mathlib.Data.List.Pairwise

set_option autoImplicit false

namespace FfiBindings.Extraction

def declarations : Language Char :=
  {text | ∃ groups : Groups, groups.Proper ∧ text ∈ groups.declarations}

theorem mem_declarations_iff {text : List Char} :
    text ∈ declarations ↔ ∃ signature, Declares text signature :=
  ⟨fun ⟨groups, proper, member⟩ => ⟨_, groups, proper, member, rfl⟩,
    fun ⟨_, groups, proper, member, _⟩ => ⟨groups, proper, member⟩⟩

theorem Declares.unique {head head' rest rest' : List Char} {signature signature' : Signature}
    (declared : Declares head signature) (declared' : Declares head' signature')
    (same : head ++ rest = head' ++ rest') : head = head' ∧ signature = signature' := by
  have first : declaration? (head ++ rest) = some (signature, rest) :=
    declaration?_eq_some_iff.mpr ⟨head, declared, rfl⟩
  have second : declaration? (head ++ rest) = some (signature', rest') :=
    declaration?_eq_some_iff.mpr ⟨head', declared', same⟩
  rw [first] at second
  cases second
  exact ⟨List.append_cancel_right same, rfl⟩

theorem Declares.ne_nil {head : List Char} {signature : Signature}
    (declared : Declares head signature) : head ≠ [] := by
  rintro rfl
  have read : declaration? [] = some (signature, []) :=
    declaration?_eq_some_iff.mpr ⟨[], declared, rfl⟩
  cases read

structure Span where
  start : Nat
  stop : Nat
deriving DecidableEq, Repr

namespace Span

def slice (span : Span) (text : List Char) : List Char :=
  (text.take span.stop).drop span.start

def shift (distance : Nat) (span : Span) : Span :=
  { start := distance + span.start, stop := distance + span.stop }

theorem slice_shift (front text : List Char) (span : Span) :
    (span.shift front.length).slice (front ++ text) = span.slice text := by
  simp only [slice, shift, List.take_length_add_append, List.drop_length_add_append]

theorem slice_front (head rest : List Char) :
    slice { start := 0, stop := head.length } (head ++ rest) = head := by
  simp [slice]

theorem eq_append_of_slice {span : Span} {text : List Char} (nonempty : span.slice text ≠ [])
    (within : span.stop ≤ text.length) :
    span.start < span.stop ∧ (span.slice text).length = span.stop - span.start ∧
      text.drop span.start = span.slice text ++ text.drop span.stop := by
  have length : (span.slice text).length = span.stop - span.start := by
    simp [slice, Nat.min_eq_left within]
  have forward : span.start < span.stop := by
    have := List.length_pos_of_ne_nil nonempty
    omega
  refine ⟨forward, length, ?_⟩
  calc text.drop span.start = (text.take span.stop ++ text.drop span.stop).drop span.start := by
        rw [List.take_append_drop]
    _ = span.slice text ++ text.drop span.stop := by
        rw [List.drop_append_of_le_length]
        · rfl
        · simp only [List.length_take]
          omega

end Span

/-- Declarations of a text from left to right, such that none starts outside of them. -/
structure Marks (text : List Char) (spans : List Span) : Prop where
  within : ∀ span ∈ spans, span.stop ≤ text.length
  ordered : spans.Pairwise fun first second => first.stop ≤ second.start
  declared : ∀ span ∈ spans, span.slice text ∈ declarations
  complete : ∀ span : Span, span.stop ≤ text.length → span.slice text ∈ declarations →
    ∃ holder ∈ spans, holder.start ≤ span.start ∧ span.start < holder.stop

theorem stop_unique {text : List Char} {start stop stop' : Nat}
    (within : stop ≤ text.length) (within' : stop' ≤ text.length)
    (declared : Span.slice ⟨start, stop⟩ text ∈ declarations)
    (declared' : Span.slice ⟨start, stop'⟩ text ∈ declarations) : stop = stop' := by
  obtain ⟨signature, reading⟩ := mem_declarations_iff.mp declared
  obtain ⟨signature', reading'⟩ := mem_declarations_iff.mp declared'
  obtain ⟨forward, length, begins⟩ := Span.eq_append_of_slice reading.ne_nil within
  obtain ⟨forward', length', begins'⟩ := Span.eq_append_of_slice reading'.ne_nil within'
  have same := congrArg List.length (reading.unique reading' (begins.symm.trans begins')).1
  simp only at forward forward' length length'
  omega

namespace Marks

variable {text : List Char} {spans others : List Span}

theorem forward (marks : Marks text spans) {span : Span} (member : span ∈ spans) :
    span.start < span.stop := by
  obtain ⟨signature, reading⟩ := mem_declarations_iff.mp (marks.declared span member)
  exact (Span.eq_append_of_slice reading.ne_nil (marks.within span member)).1

theorem eq_of_shared (marks : Marks text spans) {first second : Span} (inFirst : first ∈ spans)
    (inSecond : second ∈ spans) {position : Nat}
    (held : first.start ≤ position ∧ position < first.stop)
    (held' : second.start ≤ position ∧ position < second.stop) : first = second := by
  have apart : spans.Pairwise fun one other => one.stop ≤ other.start ∨ other.stop ≤ one.start :=
    marks.ordered.imp .inl
  rcases eq_or_ne first second with same | different
  · exact same
  · have : Std.Symm fun one other : Span => one.stop ≤ other.start ∨ other.stop ≤ one.start :=
      ⟨fun _ _ => Or.symm⟩
    have := apart.forall inFirst inSecond different
    omega

theorem mem_of_mem (marks : Marks text spans) (marks' : Marks text others) (span : Span) :
    span ∈ spans ↔ span ∈ others := by
  -- What is marked further left decides: a mark that reaches over the start of this one would be in
  -- both lists, and marks of one list do not overlap.
  induction bound : span.start using Nat.strong_induction_on generalizing span with
  | _ position ih =>
    subst bound
    have one : ∀ {spans others : List Span}, Marks text spans → Marks text others →
        (∀ other : Span, other.start < span.start → (other ∈ others → other ∈ spans)) →
        span ∈ spans → span ∈ others := by
      intro spans others marks marks' earlier member
      have within := marks.within span member
      have declared := marks.declared span member
      obtain ⟨holder, held, before, reaches⟩ := marks'.complete span within declared
      rcases Nat.lt_or_eq_of_le before with sooner | same
      · have also := earlier holder sooner held
        have equal := marks.eq_of_shared also member ⟨before, reaches⟩
          ⟨Nat.le_refl _, marks.forward member⟩
        exact equal ▸ held
      · obtain ⟨start, stop⟩ := holder
        obtain ⟨start', stop'⟩ := span
        cases same
        have ends := stop_unique (marks'.within _ held) within (marks'.declared _ held) declared
        cases ends
        exact held
    exact ⟨one marks marks' fun other sooner => (ih other.start sooner other rfl).mpr,
      one marks' marks fun other sooner => (ih other.start sooner other rfl).mp⟩

theorem unique (marks : Marks text spans) (marks' : Marks text others) : spans = others := by
  have nodup : ∀ {spans : List Span}, Marks text spans → spans.Nodup := by
    intro spans marks
    refine List.Pairwise.imp_of_mem ?_ marks.ordered
    rintro first second inFirst - ordered rfl
    have := marks.forward inFirst
    omega
  have same : spans.Perm others :=
    (List.perm_ext_iff_of_nodup (nodup marks) (nodup marks')).mpr (mem_of_mem marks marks')
  refine same.eq_of_pairwise ?_ marks.ordered marks'.ordered
  intro first second inFirst inSecond before after
  have := marks.forward inFirst
  have := marks'.forward inSecond
  omega

theorem nil : Marks [] [] where
  within := by simp
  ordered := .nil
  declared := by simp
  complete := by
    intro span _ declared
    obtain ⟨signature, reading⟩ := mem_declarations_iff.mp declared
    exact absurd (by simp [Span.slice]) reading.ne_nil

theorem complete_shift {rest : List Char} (marks : Marks rest spans) (front : List Char)
    {span : Span} (behind : front.length ≤ span.start) (within : span.stop ≤ (front ++ rest).length)
    (declared : span.slice (front ++ rest) ∈ declarations) :
    ∃ holder ∈ spans.map (Span.shift front.length),
      holder.start ≤ span.start ∧ span.start < holder.stop := by
  obtain ⟨signature, reading⟩ := mem_declarations_iff.mp declared
  have forward := (Span.eq_append_of_slice reading.ne_nil within).1
  rw [List.length_append] at within
  have shifted : Span.shift front.length ⟨span.start - front.length, span.stop - front.length⟩ =
      span := by
    simp only [Span.shift]
    congr 1 <;> omega
  rw [← shifted, Span.slice_shift] at declared
  obtain ⟨holder, member, before, reaches⟩ := marks.complete _ (by simp only; omega) declared
  refine ⟨_, List.mem_map_of_mem member, ?_, ?_⟩
  · simp only [Span.shift] at before ⊢
    omega
  · simp only [Span.shift] at reaches ⊢
    omega

theorem ordered_shift (marks : Marks text spans) (distance : Nat) :
    (spans.map (Span.shift distance)).Pairwise fun first second => first.stop ≤ second.start := by
  rw [List.pairwise_map]
  exact marks.ordered.imp fun ordered => Nat.add_le_add_left ordered distance

theorem shift {rest : List Char} (marks : Marks rest spans) (front : List Char) :
    ∀ span ∈ spans.map (Span.shift front.length),
      span.stop ≤ (front ++ rest).length ∧ span.slice (front ++ rest) ∈ declarations := by
  intro span member
  obtain ⟨original, inside, rfl⟩ := List.mem_map.mp member
  rw [Span.slice_shift, List.length_append]
  exact ⟨Nat.add_le_add_left (marks.within original inside) _, marks.declared original inside⟩

theorem skip {c : Char} {rest : List Char} (none : declaration? (c :: rest) = none)
    (marks : Marks rest spans) : Marks (c :: rest) (spans.map (Span.shift 1)) where
  within span member := (marks.shift [c] span member).1
  ordered := marks.ordered_shift 1
  declared span member := (marks.shift [c] span member).2
  complete := by
    intro span within declared
    rcases Nat.eq_zero_or_pos span.start with here | behind
    · obtain ⟨signature, reading⟩ := mem_declarations_iff.mp declared
      have begins := (Span.eq_append_of_slice reading.ne_nil within).2.2
      rw [here, List.drop_zero] at begins
      have found := declaration?_eq_some_iff.mpr ⟨_, reading, begins⟩
      rw [none] at found
      cases found
    · exact marks.complete_shift [c] behind within declared

theorem take {head rest : List Char} (declared : head ∈ declarations)
    (marks : Marks rest spans) :
    Marks (head ++ rest) (⟨0, head.length⟩ :: spans.map (Span.shift head.length)) where
  within := List.forall_mem_cons.mpr ⟨by simp, fun span member => (marks.shift head span member).1⟩
  ordered := by
    refine List.pairwise_cons.mpr ⟨?_, marks.ordered_shift head.length⟩
    intro span member
    obtain ⟨original, inside, rfl⟩ := List.mem_map.mp member
    exact Nat.le_add_right _ _
  declared := List.forall_mem_cons.mpr
    ⟨by rwa [Span.slice_front], fun span member => (marks.shift head span member).2⟩
  complete := by
    intro span within declared
    rcases Nat.lt_or_ge span.start head.length with here | behind
    · exact ⟨_, List.mem_cons_self, Nat.zero_le _, here⟩
    · obtain ⟨holder, member, holds⟩ := marks.complete_shift head behind within declared
      exact ⟨holder, List.mem_cons_of_mem _ member, holds⟩

end Marks

theorem readings_shift {rest : List Char} {spans : List Span} {signatures : List Signature}
    (front : List Char)
    (readings : List.Forall₂ (fun span signature => Declares (span.slice rest) signature) spans
      signatures) :
    List.Forall₂ (fun span signature => Declares (span.slice (front ++ rest)) signature)
      (spans.map (Span.shift front.length)) signatures := by
  rw [List.forall₂_map_left_iff]
  refine readings.imp fun span signature reading => ?_
  rwa [Span.slice_shift]

theorem exists_marks (text : List Char) :
    ∃ spans, Marks text spans ∧
      List.Forall₂ (fun span signature => Declares (span.slice text) signature) spans
        (extract text) := by
  fun_induction extract text with
  | case1 => exact ⟨[], .nil, .nil⟩
  | case2 c rest signature remaining found ih =>
    -- A declaration starts here; the marks of what follows its brace move behind it.
    obtain ⟨head, declared, whole⟩ := declaration?_eq_some_iff.mp found
    obtain ⟨spans, marks, readings⟩ := ih
    rw [whole]
    refine ⟨_, marks.take (mem_declarations_iff.mpr ⟨signature, declared⟩), .cons ?_ ?_⟩
    · rwa [Span.slice_front]
    · exact readings_shift head readings
  | case3 c rest none ih =>
    obtain ⟨spans, marks, readings⟩ := ih
    exact ⟨_, marks.skip none, readings_shift [c] readings⟩

/-- Extraction reads the declarations of a text and nothing else. There is one way to mark them from
left to right so that none starts outside of the marked ones, and the signatures are what these say,
in order. A start determines the end, and a declaration says one thing. -/
theorem extract_exact (text : List Char) :
    (∃ spans, Marks text spans ∧ (∀ others, Marks text others → others = spans) ∧
      List.Forall₂ (fun span signature => Declares (span.slice text) signature) spans
        (extract text)) ∧
    (∀ start stop stop', stop ≤ text.length → stop' ≤ text.length →
      Span.slice ⟨start, stop⟩ text ∈ declarations →
      Span.slice ⟨start, stop'⟩ text ∈ declarations → stop = stop') ∧
    (∀ head signature signature', Declares head signature → Declares head signature' →
      signature = signature') := by
  obtain ⟨spans, marks, readings⟩ := exists_marks text
  refine ⟨⟨spans, marks, fun others marks' => marks'.unique marks, readings⟩, ?_, ?_⟩
  · exact fun start stop stop' => stop_unique
  · exact fun head signature signature' reading reading' =>
      (reading.unique reading' (rfl : head ++ [] = head ++ [])).2

end FfiBindings.Extraction
