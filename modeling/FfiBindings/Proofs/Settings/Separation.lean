import FfiBindings.Proofs.Layout
import FfiBindings.Proofs.Settings
import FfiBindings.Run.Nature

set_option autoImplicit false

namespace FfiBindings

theorem not_containsNul_of_mem_partsOf {text part : String} (plain : containsNul text = false)
    (member : part ∈ Path.partsOf text.toList) : containsNul part = false := by
  simp only [Path.partsOf, List.mem_map, List.mem_filter] at member
  obtain ⟨piece, ⟨split, -⟩, rfl⟩ := member
  simp only [containsNul, String.toList_ofList, List.contains_eq_mem, decide_eq_false_iff_not]
    at plain ⊢
  exact fun nul => plain (Text.subset_of_mem_splitAt split nul)

namespace Location

def Above (upper lower : Location) : Prop :=
  upper <+: lower ∧ upper ≠ lower

instance (upper lower : Location) : Decidable (upper.Above lower) :=
  inferInstanceAs (Decidable (upper <+: lower ∧ upper ≠ lower))

theorem strictlyCovers_iff_above {upper lower : Location} :
    upper.strictlyCovers lower = true ↔ upper.Above lower :=
  strictlyCovers_iff

theorem overlaps_iff {first second : Location} :
    first.overlaps second = true ↔ first = second ∨ first.Above second ∨ second.Above first := by
  simp only [overlaps, Bool.or_eq_true, covers_iff, Above]
  by_cases same : first = second
  · simp [same]
  · simp [same, Ne.symm same]

end Location

namespace Tree

theorem resolveFrom_of_plain {tree : Tree} (unlinked : tree.Unlinked) {parts : List String}
    (plain : ∀ part ∈ parts, containsNul part = false) (depth : Nat) (active : List Location)
    (here : Location) : tree.resolveFrom depth active here parts = .found (here.steps parts) := by
  induction parts generalizing here with
  | nil =>
    rw [resolveFrom]
    rfl
  | cons part rest ih =>
    rw [List.forall_mem_cons] at plain
    by_cases up : part = ".."
    · subst up
      rw [resolveFrom]
      exact ih plain.2 here.dropLast
    · rw [resolveFrom.eq_3 _ _ _ _ _ _ up, Location.steps_cons, Location.step_down up]
      simp only [plain.1, Bool.false_eq_true, if_false]
      split
      · next target linked => exact absurd linked (unlinked _ target)
      · exact ih plain.2 (here ++ [part])

theorem resolve_of_plain {tree : Tree} (unlinked : tree.Unlinked) {path : Path}
    (plain : ∀ part ∈ path.parts, containsNul part = false) (cwd : Location) :
    tree.resolve cwd path = .ok ((startOf path cwd).steps path.parts) := by
  rw [resolve, resolveFrom_of_plain unlinked plain]

end Tree

namespace LayoutNames

def target (root : Location) (name : String) : Location :=
  (root.path / name).location

/-- What an output is refused for. -/
inductive Misplaced (root source output : Location) : Prop where
  | outside (notAbove : ¬root.Above output)
  | same (equal : output = source)
  | holding (above : output.Above source)
  | within (below : source.Above output)

/-- What a layout is refused for. -/
inductive Refused (root : Location) (names : LayoutNames) : Prop where
  | source (notAbove : ¬root.Above (target root names.sourceDir))
  | output (key : OutputKey)
    (misplaced : Misplaced root (target root names.sourceDir) (target root (key.valueIn names)))

structure Plain (names : LayoutNames) : Prop where
  source : containsNul names.sourceDir = false
  output : ∀ key : OutputKey, containsNul (key.valueIn names) = false

theorem misplaced_iff {root source output : Location} :
    Misplaced root source output ↔
      root.strictlyCovers output = false ∨ output.overlaps source = true := by
  rw [← Bool.not_eq_true, Location.strictlyCovers_iff_above, Location.overlaps_iff]
  constructor
  · rintro (notAbove | equal | above | below)
    · exact .inl notAbove
    · exact .inr (.inl equal)
    · exact .inr (.inr (.inl above))
    · exact .inr (.inr (.inr below))
  · rintro (notAbove | equal | above | below)
    · exact .outside notAbove
    · exact .same equal
    · exact .holding above
    · exact .within below

instance (root source output : Location) : Decidable (Misplaced root source output) :=
  decidable_of_iff _ misplaced_iff.symm

theorem refused_iff {root : Location} {names : LayoutNames} :
    Refused root names ↔ ¬root.Above (target root names.sourceDir) ∨
      ∃ key ∈ OutputKey.all,
        Misplaced root (target root names.sourceDir) (target root (key.valueIn names)) := by
  constructor
  · rintro (notAbove | ⟨key, misplaced⟩)
    · exact .inl notAbove
    · exact .inr ⟨key, by cases key <;> decide, misplaced⟩
  · rintro (notAbove | ⟨key, -, misplaced⟩)
    · exact .source notAbove
    · exact .output key misplaced

instance (root : Location) (names : LayoutNames) : Decidable (Refused root names) :=
  decidable_of_iff _ refused_iff.symm

theorem target_of_isName {root : Location} {name : String} (clear : ".." ∉ root)
    (isName : IsName name) : target root name = root ++ [name] := by
  rw [target, Path.location_div (Path.anchorOf_component isName.1), Path.partsOf_component isName.1]
  exact (Location.step_down isName.2).trans
    (congrArg (· ++ _) (Location.steps_of_names fun part member up => clear (up ▸ member)))

theorem not_refused_of_isName {root : Location} {names : LayoutNames} (clear : ".." ∉ root)
    (source : IsName names.sourceDir)
    (output : ∀ key : OutputKey,
      IsName (key.valueIn names) ∧ key.valueIn names ≠ names.sourceDir) : ¬Refused root names := by
  rintro (notAbove | ⟨key, misplaced⟩)
  · rw [target_of_isName clear source] at notAbove
    exact notAbove ⟨List.prefix_append _ _, by simp⟩
  · obtain ⟨isName, different⟩ := output key
    rw [target_of_isName clear source, target_of_isName clear isName, misplaced_iff,
      Location.overlaps_siblings root different] at misplaced
    simp [← Bool.not_eq_true, Location.strictlyCovers_iff] at misplaced

end LayoutNames

open LayoutNames

theorem forM_eq_ok_iff {α ε : Type} {check : α → Except ε Unit} {items : List α} :
    items.forM check = .ok () ↔ ∀ item ∈ items, check item = .ok () := by
  induction items with
  | nil => simp [pure, Except.pure]
  | cons item rest ih =>
    change (check item >>= fun _ => rest.forM check) = .ok () ↔ _
    rw [Except.bind_eq_ok, List.forall_mem_cons, ← ih]
    exact ⟨fun ⟨_, first, later⟩ => ⟨first, later⟩, fun ⟨first, later⟩ => ⟨_, first, later⟩⟩

theorem forM_eq_error {α ε : Type} {check : α → Except ε Unit} {items : List α} {error : ε}
    (failed : items.forM check = .error error) : ∃ item ∈ items, check item = .error error := by
  induction items with
  | nil => cases failed
  | cons item rest ih =>
    change (check item >>= fun _ => rest.forM check) = .error error at failed
    cases first : check item with
    | ok =>
      rw [first] at failed
      obtain ⟨other, member, refused⟩ := ih failed
      exact ⟨other, List.mem_cons_of_mem item member, refused⟩
    | error other =>
      rw [first] at failed
      exact ⟨item, List.mem_cons_self, first.trans failed⟩

section

variable {tree : Tree} {root : Location} {names : LayoutNames}

theorem placeOf_of_plain (unlinked : tree.Unlinked) (rooted : ∀ part ∈ root, containsNul part = false)
    {name : String} (plain : containsNul name = false) :
    placeOf tree root name = .ok (target root name) := by
  have clear : ∀ part ∈ (root.path / name).parts, containsNul part = false := by
    intro part member
    rcases Path.mem_div_parts member with above | below
    · exact rooted part above
    · exact not_containsNul_of_mem_partsOf plain below
  have start : Tree.startOf (root.path / name) root = [] := by
    have anchored := Path.div_anchor root.path name (by simp)
    simp [Tree.startOf, Path.isAbsolute, anchored]
  rw [placeOf, Tree.resolve_of_plain unlinked clear, start]
  rfl

variable (unlinked : tree.Unlinked) (rooted : ∀ part ∈ root, containsNul part = false)
  (plain : names.Plain)

include unlinked rooted plain

theorem checkOutput_eq (source : Location) (key : OutputKey) :
    checkOutput tree root source names key =
      if root.strictlyCovers (target root (key.valueIn names)) = false then
        .error (.outputOutside key root.path (key.valueIn names))
      else if (target root (key.valueIn names)).overlaps source = true then
        .error (.outputOverlaps key names.sourceDir (key.valueIn names))
      else .ok () := by
  rw [checkOutput]
  simp only [placeOf_of_plain unlinked rooted (plain.output key)]
  cases inside : root.strictlyCovers (target root (key.valueIn names)) with
  | false =>
    simp only [bind, Except.bind, inside]
    rfl
  | true =>
    simp only [bind, Except.bind, inside]
    cases (target root (key.valueIn names)).overlaps source <;> rfl

theorem checkOutput_eq_ok_iff {source : Location} {key : OutputKey} :
    checkOutput tree root source names key = .ok () ↔
      ¬Misplaced root source (target root (key.valueIn names)) := by
  rw [checkOutput_eq unlinked rooted plain, misplaced_iff]
  split <;> rename_i inside
  · simp [inside]
  · split <;> rename_i overlap <;> simp [inside, overlap]

theorem checkOutput_nature {source : Location} {key : OutputKey} {error : SettingsError}
    (refused : checkOutput tree root source names key = .error error) :
    error.nature = .configuration := by
  rw [checkOutput_eq unlinked rooted plain] at refused
  split at refused
  · cases refused
    rfl
  · split at refused
    · cases refused
      rfl
    · cases refused

theorem checkLayout_eq :
    checkLayout tree root names =
      if root.strictlyCovers (target root names.sourceDir) = false then
        .error (.sourceOutside root.path names.sourceDir)
      else OutputKey.all.forM (checkOutput tree root (target root names.sourceDir) names) := by
  rw [checkLayout]
  simp only [placeOf_of_plain unlinked rooted plain.source]
  cases inside : root.strictlyCovers (target root names.sourceDir) with
  | false =>
    simp only [bind, Except.bind, inside]
    rfl
  | true =>
    simp only [bind, Except.bind, inside]
    rfl

theorem checkLayout_eq_ok_iff :
    checkLayout tree root names = .ok () ↔ ¬Refused root names := by
  rw [checkLayout_eq unlinked rooted plain, refused_iff]
  split <;> rename_i inside
  · rw [← Bool.not_eq_true, Location.strictlyCovers_iff_above] at inside
    simp [inside]
  · rw [Bool.not_eq_false, Location.strictlyCovers_iff_above] at inside
    simp only [forM_eq_ok_iff, checkOutput_eq_ok_iff unlinked rooted plain, inside, not_true_eq_false,
      false_or, not_exists, not_and]

theorem checkLayout_nature {error : SettingsError}
    (refused : checkLayout tree root names = .error error) : error.nature = .configuration := by
  rw [checkLayout_eq unlinked rooted plain] at refused
  split at refused
  · cases refused
    rfl
  · obtain ⟨key, -, atOutput⟩ := forM_eq_error refused
    exact checkOutput_nature unlinked rooted plain atOutput

/-- A layout is refused as a wrong setting exactly for a place that is not inside the project or for an
output that meets the sources. What is accepted has no place that belongs to both. -/
theorem layout_refused_exactly :
    ((∃ error, checkLayout tree root names = .error error ∧ error.nature = .configuration) ↔
        Refused root names) ∧
      (checkLayout tree root names = .ok () ↔ ¬Refused root names) ∧
      (checkLayout tree root names = .ok () → ∀ (key : OutputKey) (place : Location),
        target root names.sourceDir <+: place → ¬target root (key.valueIn names) <+: place) := by
  have accepted := checkLayout_eq_ok_iff unlinked rooted plain
  refine ⟨?_, accepted, fun valid key place inSource inOutput => ?_⟩
  · cases verdict : checkLayout tree root names with
    | ok =>
      rw [verdict] at accepted
      simp [accepted.mp rfl]
    | error error =>
      rw [verdict] at accepted
      have refused : Refused root names :=
        Classical.not_not.mp fun fine => nomatch accepted.mpr fine
      simpa [refused] using checkLayout_nature unlinked rooted plain verdict
  · refine accepted.mp valid (.output key (misplaced_iff.mpr (.inr ?_)))
    exact Location.overlaps_of_covers (Location.covers_iff.mpr inOutput)
      (Location.covers_iff.mpr inSource)

end

def windingNames : LayoutNames :=
  { sourceDir := "../w/rs", modulesDir := "gen//./mod", binDir := "rs/../bin", indexFile := "rs.ts" }

theorem windingNames_accepted :
    checkLayout { entries := [(["w"], .directory), (["w", "bin"], .file [] false)] } ["w"] windingNames =
        .ok () ∧
      ∀ (key : OutputKey) (place : Location), ["w", "rs"] <+: place →
        ¬target ["w"] (key.valueIn windingNames) <+: place := by
  have unlinked : Tree.Unlinked
      { entries := [(["w"], .directory), (["w", "bin"], .file [] false)] } := by
    intro location link linked
    by_cases top : location = []
    · simp [top] at linked
    · simpa using Tree.mem_entries_of_found top linked
  have plain : windingNames.Plain := by
    refine ⟨by decide, fun key => ?_⟩
    cases key <;> decide
  have exactly := @layout_refused_exactly _ ["w"] _ unlinked (by decide) plain
  have accepted := exactly.2.1.mpr (by decide)
  exact ⟨accepted, exactly.2.2 accepted⟩

example : Refused ["w"] { windingNames with binDir := "../w/rs/target/.." } := by decide

end FfiBindings
