import FfiBindings.Proofs.FirstOfEach
import FfiBindings.Proofs.Index.Statements
import FfiBindings.Proofs.Index.Template

set_option autoImplicit false

namespace FfiBindings

open Exports

namespace Exports

def explicitPaths (statements : List Statement) (name : String) : List String :=
  statements.filterMap fun
    | .exportName other path => if other == name then some path else none
    | .exportAll _ => none

def wholePaths (statements : List Statement) : List String :=
  statements.filterMap fun
    | .exportAll path => some path
    | .exportName _ _ => none

/-- The module that a name comes from, where `provides` says which module exports which name. An
explicit export wins; `default` is not among the names of a whole module, and a name that several
whole modules provide is ambiguous. -/
def resolve (provides : String → String → Bool) (statements : List Statement) (name : String) :
    Option String :=
  match explicitPaths statements name with
  | path :: _ => if provides path name then some path else none
  | [] =>
    if name == "default" then
      none
    else
      match (wholePaths statements).filter (provides · name) with
      | [path] => some path
      | _ => none

end Exports

namespace ExportIndex

/-- The indexes that adding modules leads to, with paths and names as a script can have them. -/
inductive Reachable : ExportIndex → Prop where
  | empty : Reachable empty
  | add {index next : ExportIndex} {path : String} {names : List String}
      (reachable : Reachable index) (quotable : Quotable path)
      (words : ∀ name ∈ names, IsWord name) (added : index.add path names = .ok next) :
      Reachable next

def provides (index : ExportIndex) (path name : String) : Bool :=
  index.entries.any fun entry => entry.1 == path && entry.2.contains name

structure WellFormed (index : ExportIndex) : Prop where
  distinct : index.importPaths.Nodup
  quotable : ∀ path ∈ index.importPaths, Quotable path
  words : ∀ entry ∈ index.entries, ∀ name ∈ entry.2, IsWord name

theorem Reachable.wellFormed {index : ExportIndex} (reachable : index.Reachable) :
    index.WellFormed := by
  induction reachable with
  | empty => exact ⟨.nil, (fun _ member => nomatch member), (fun _ member => nomatch member)⟩
  | @add index next path names _ quotable words added ih =>
    unfold ExportIndex.add at added
    split at added
    · cases added
    · next fresh =>
      cases added
      have new : path ∉ index.importPaths := by simpa [contains] using fresh
      refine ⟨?_, ?_, ?_⟩
      · simp only [importPaths, List.map_append, List.map_cons, List.map_nil]
        refine List.nodup_append.mpr ⟨ih.distinct, by simp, ?_⟩
        rintro other inside _ last rfl
        exact new (List.mem_singleton.mp last ▸ inside)
      · intro other member
        simp only [importPaths, List.map_append, List.mem_append, List.map_cons, List.map_nil,
          List.mem_singleton] at member
        rcases member with inside | rfl
        · exact ih.quotable other inside
        · exact quotable
      · intro entry member
        rcases List.mem_append.mp member with inside | last
        · exact ih.words entry inside
        · rw [List.mem_singleton.mp last]
          exact words

theorem filter_of_contains {names : List String} {name : String}
    (exported : names.contains name = true) :
    ∃ first others, names.filter (· == name) = first :: others := by
  apply List.exists_cons_of_ne_nil
  rw [List.contains_iff_mem] at exported
  exact List.ne_nil_of_mem (List.mem_filter.mpr ⟨exported, beq_self_eq_true name⟩)

theorem filter_of_not_contains {names : List String} {name : String}
    (absent : names.contains name = false) : names.filter (· == name) = [] := by
  rw [List.filter_eq_nil_iff]
  intro other member same
  rw [beq_iff_eq.mp same] at member
  rw [List.contains_iff_mem.mpr member] at absent
  cases absent

theorem head?_owners (index : ExportIndex) (name : String) :
    (index.owners name).head? = (index.entries.find? (·.2.contains name)).map (·.1) := by
  rw [owners]
  induction index.entries with
  | nil => rfl
  | cons entry rest ih =>
    rw [List.flatMap_cons, List.find?_cons]
    cases exported : entry.2.contains name with
    | true =>
      obtain ⟨first, others, split⟩ := filter_of_contains exported
      rw [split]
      rfl
    | false =>
      rw [filter_of_not_contains exported]
      exact ih

theorem mem_importPaths_of_mem_owners {index : ExportIndex} {path name : String}
    (owner : path ∈ index.owners name) : path ∈ index.importPaths := by
  simp only [owners, List.mem_flatMap, List.mem_map] at owner
  obtain ⟨entry, member, _, -, rfl⟩ := owner
  exact List.mem_map_of_mem member

theorem provides_of_mem_owners {index : ExportIndex} {path name : String}
    (owner : path ∈ index.owners name) : index.provides path name = true := by
  simp only [owners, List.mem_flatMap, List.mem_map, List.mem_filter, beq_iff_eq] at owner
  obtain ⟨entry, member, other, ⟨exported, rfl⟩, rfl⟩ := owner
  simp only [provides, List.any_eq_true, Bool.and_eq_true, beq_iff_eq, List.contains_iff_mem]
  exact ⟨entry, member, rfl, exported⟩

theorem filter_provides {index : ExportIndex} (distinct : index.importPaths.Nodup) (name : String) :
    index.importPaths.filter (index.provides · name) =
      (index.entries.filter (·.2.contains name)).map (·.1) := by
  have own : ∀ entry ∈ index.entries, index.provides entry.1 name = entry.2.contains name := by
    intro entry member
    rw [Bool.eq_iff_iff]
    simp only [provides, List.any_eq_true, Bool.and_eq_true, beq_iff_eq]
    constructor
    · rintro ⟨other, also, path, exported⟩
      -- Paths are not repeated, so the entry under the path is this one.
      have same : other = entry := List.inj_on_of_nodup_map distinct also member path
      exact same ▸ exported
    · exact fun exported => ⟨entry, member, rfl, exported⟩
  rw [importPaths, List.filter_map]
  exact congrArg _ (List.filter_congr own)

theorem sublist_owners (index : ExportIndex) (name : String) :
    ((index.entries.filter (·.2.contains name)).map (·.1)).Sublist (index.owners name) := by
  rw [owners]
  induction index.entries with
  | nil => exact .slnil
  | cons entry rest ih =>
    rw [List.flatMap_cons]
    cases exported : entry.2.contains name with
    | false =>
      rw [List.filter_cons_of_neg (by rw [exported]; exact Bool.false_ne_true),
        filter_of_not_contains exported]
      exact ih
    | true =>
      obtain ⟨first, others, split⟩ := filter_of_contains exported
      simp only [List.filter_cons, exported, if_true, split, List.map_cons, List.cons_append]
      exact (ih.trans (List.sublist_append_right _ _)).cons_cons _

theorem filterMap_only {β : Type} {names : List String} (distinct : names.Nodup) (name : String)
    (value : String → Option β) :
    names.filterMap (fun other => if other == name then value other else none) =
      if name ∈ names then (value name).toList else [] := by
  induction names with
  | nil => rfl
  | cons other rest ih =>
    rw [List.nodup_cons] at distinct
    rw [List.filterMap_cons, ih distinct.2]
    by_cases same : other = name
    · subst same
      simp only [beq_self_eq_true, if_true, distinct.1, if_false, List.mem_cons_self]
      cases value other <;> rfl
    · have elsewhere : name ∈ other :: rest ↔ name ∈ rest := by simp [Ne.symm same]
      simp [same, elsewhere]

theorem mem_names_of_mem_owners {index : ExportIndex} {name path : String}
    (owner : path ∈ index.owners name) : name ∈ index.names := by
  simp only [owners, List.mem_flatMap, List.mem_map, List.mem_filter, beq_iff_eq] at owner
  obtain ⟨entry, member, other, ⟨exported, rfl⟩, -⟩ := owner
  exact List.mem_eraseDups.mpr (List.mem_flatMap.mpr ⟨entry, member, exported⟩)

def firstOfSeveral : List String → Option String
  | first :: _ :: _ => some first
  | _ => none

theorem explicitPaths_collisions (index : ExportIndex) (name : String) :
    explicitPaths (index.collisions.map fun collision =>
        .exportName collision.name collision.first) name =
      (firstOfSeveral (index.owners name)).toList := by
  have gathered : explicitPaths (index.collisions.map fun collision =>
        .exportName collision.name collision.first) name =
      index.names.filterMap fun other =>
        if other == name then firstOfSeveral (index.owners other) else none := by
    rw [explicitPaths, List.filterMap_map, collisions, List.filterMap_filterMap]
    congr 1
    funext other
    rcases index.owners other with _ | ⟨first, _ | ⟨second, rest⟩⟩
    · cases other == name <;> rfl
    · cases other == name <;> rfl
    · rfl
  -- No name is looked at twice, so there is at most one collision for it.
  have distinct : index.names.Nodup := nodup_eraseDups _
  rw [gathered, filterMap_only distinct]
  split
  · rfl
  · next absent =>
    cases several : index.owners name with
    | nil => rfl
    | cons first others =>
      exact absurd (mem_names_of_mem_owners (several ▸ List.mem_cons_self)) absent

def statements (index : ExportIndex) : List Statement :=
  index.importPaths.map .exportAll ++
    index.collisions.map fun collision => .exportName collision.name collision.first

theorem explicitPaths_statements (index : ExportIndex) (name : String) :
    explicitPaths index.statements name = (firstOfSeveral (index.owners name)).toList := by
  have whole : explicitPaths (index.importPaths.map .exportAll) name = [] := by
    simp [explicitPaths]
  rw [← explicitPaths_collisions, statements, explicitPaths, List.filterMap_append]
  change explicitPaths _ name ++ _ = _
  rw [whole]
  rfl

theorem wholePaths_statements (index : ExportIndex) :
    wholePaths index.statements = index.importPaths := by
  simp [wholePaths, statements, List.filterMap_map]

theorem resolve_statements {index : ExportIndex} (distinct : index.importPaths.Nodup)
    {name : String} (ordinary : name ≠ "default") :
    resolve index.provides index.statements name =
      (index.entries.find? (·.2.contains name)).map (·.1) := by
  have exporters := index.sublist_owners name
  rw [← filter_provides distinct] at exporters
  rw [← head?_owners, resolve, explicitPaths_statements, wholePaths_statements,
    if_neg (by simpa using ordinary)]
  cases owned : index.owners name with
  | nil =>
    rw [owned, List.sublist_nil] at exporters
    simp only [firstOfSeveral, Option.toList_none, exporters, List.head?_nil]
  | cons first others =>
    have provided := provides_of_mem_owners (owned ▸ List.mem_cons_self)
    cases others with
    | cons second rest =>
      simp only [firstOfSeveral, Option.toList_some, provided, if_true, List.head?_cons]
    | nil =>
      -- The one owner is among the modules that provide the name, and there are no more of them.
      have listed : first ∈ index.importPaths :=
        mem_importPaths_of_mem_owners (owned ▸ List.mem_cons_self)
      have single : index.importPaths.filter (index.provides · name) = [first] := by
        rw [owned] at exporters
        rcases List.sublist_singleton.mp exporters with none | single
        · exact absurd provided (List.filter_eq_nil_iff.mp none first listed)
        · exact single
      simp only [firstOfSeveral, Option.toList_none, single, List.head?_cons]

theorem resolve_statements_of_absent {index : ExportIndex} {name : String}
    (absent : ∀ entry ∈ index.entries, name ∉ entry.2) :
    resolve index.provides index.statements name = none := by
  have unowned : index.owners name = [] := by
    rw [← List.head?_eq_none_iff, head?_owners, Option.map_eq_none_iff, List.find?_eq_none]
    simpa using absent
  have unprovided : index.importPaths.filter (index.provides · name) = [] := by
    rw [List.filter_eq_nil_iff]
    intro path _ provided
    simp only [provides, List.any_eq_true, Bool.and_eq_true, List.contains_iff_mem] at provided
    obtain ⟨entry, member, -, exported⟩ := provided
    exact absent entry member exported
  rw [resolve, explicitPaths_statements, unowned, wholePaths_statements, unprovided]
  simp [firstOfSeveral]

theorem mem_collisions {index : ExportIndex} {collision : Collision}
    (member : collision ∈ index.collisions) :
    (∃ entry ∈ index.entries, collision.name ∈ entry.2) ∧
      collision.first ∈ index.importPaths := by
  simp only [collisions, List.mem_filterMap] at member
  obtain ⟨name, listed, found⟩ := member
  split at found
  · next first second rest owned =>
    cases found
    refine ⟨?_, mem_importPaths_of_mem_owners (owned ▸ List.mem_cons_self)⟩
    exact List.mem_flatMap.mp (List.mem_eraseDups.mp listed)
  · cases found

theorem WellFormed.read? {index : ExportIndex} (wellFormed : index.WellFormed) :
    Exports.read? (indexText index) = some index.statements := by
  refine read?_indexText wellFormed.quotable fun collision member => ?_
  obtain ⟨⟨entry, inside, exported⟩, first⟩ := mem_collisions member
  exact ⟨wellFormed.words entry inside _ exported, wellFormed.quotable _ first⟩

end ExportIndex

/-- Every exported name stays reachable: the text of the index, which is what its packaged template
renders to, is understood, each name but `default` is found in the first module that exports it, a
name that no module exports is not found, and no name is exported explicitly twice. -/
theorem index_resolves {index : ExportIndex} (reachable : index.Reachable) :
    (∀ typeFilter, Template.renderText (Template.indexContext typeFilter index)
      Template.packagedIndexSource = .ok (indexText index)) ∧
    ∃ statements, read? (indexText index) = some statements ∧
      (∀ name, name ≠ "default" → (∃ entry ∈ index.entries, name ∈ entry.2) →
        ∃ first, index.entries.find? (·.2.contains name) = some first ∧
          resolve index.provides statements name = some first.1) ∧
      (∀ name, (∀ entry ∈ index.entries, name ∉ entry.2) →
        resolve index.provides statements name = none) ∧
      ∀ name, (explicitPaths statements name).length ≤ 1 := by
  have wellFormed := reachable.wellFormed
  refine ⟨fun typeFilter => Template.renderText_packagedIndex typeFilter index,
    index.statements, wellFormed.read?, ?_, ?_, ?_⟩
  · intro name ordinary exported
    obtain ⟨first, found⟩ : ∃ first, index.entries.find? (·.2.contains name) = some first := by
      rw [← Option.isSome_iff_exists, List.find?_isSome]
      simpa using exported
    refine ⟨first, found, ?_⟩
    rw [ExportIndex.resolve_statements wellFormed.distinct ordinary, found]
    rfl
  · exact fun name => ExportIndex.resolve_statements_of_absent
  · intro name
    rw [ExportIndex.explicitPaths_statements]
    cases ExportIndex.firstOfSeveral (index.owners name) <;> simp

def collidingIndex : ExportIndex :=
  { entries := [("./mod/a", ["f", "g"]), ("./mod/b", ["f"])] }

theorem collidingIndex_reachable : collidingIndex.Reachable := by
  have first : Quotable "./mod/a" := by decide
  have second : Quotable "./mod/b" := by decide
  have shared : IsWord "f" := by decide
  have other : IsWord "g" := by decide
  have one : ExportIndex.Reachable { entries := [("./mod/a", ["f", "g"])] } :=
    .add .empty first (by simpa using ⟨shared, other⟩) rfl
  exact .add one second (by simpa using shared) rfl

theorem collidingIndex_resolves :
    ∃ statements, read? (indexText collidingIndex) = some statements ∧
      resolve collidingIndex.provides statements "f" = some "./mod/a" := by
  obtain ⟨-, statements, understood, found, -, -⟩ := index_resolves collidingIndex_reachable
  obtain ⟨first, isFirst, resolved⟩ := found "f" (by decide) ⟨_, List.mem_cons_self, by decide⟩
  cases isFirst
  exact ⟨statements, understood, resolved⟩

end FfiBindings
