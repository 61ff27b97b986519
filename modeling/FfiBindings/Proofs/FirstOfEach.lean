import Mathlib.Data.List.Induction
import Mathlib.Data.List.Nodup

set_option autoImplicit false

namespace FfiBindings

theorem eraseDups_concat (names : List String) (name : String) :
    (names ++ [name]).eraseDups =
      if name ∈ names then names.eraseDups else names.eraseDups ++ [name] := by
  rw [List.eraseDups_append]
  by_cases known : name ∈ names
  · rw [if_pos known]
    simp [List.removeAll, known]
  · rw [if_neg known]
    simp [List.removeAll, known, List.eraseDups_cons]

theorem pairwise_eraseDups (names : List String) :
    names.eraseDups.Pairwise fun first second => names.idxOf first < names.idxOf second := by
  induction names using List.reverseRecOn with
  | nil => simp
  | append_singleton names name ih =>
    -- What was found at a place is still found there.
    have longer : names.eraseDups.Pairwise fun first second =>
        (names ++ [name]).idxOf first < (names ++ [name]).idxOf second := by
      refine ih.imp_of_mem fun {first second} atFirst atSecond earlier => ?_
      rw [List.idxOf_append_of_mem (List.mem_eraseDups.mp atFirst),
        List.idxOf_append_of_mem (List.mem_eraseDups.mp atSecond)]
      exact earlier
    rw [eraseDups_concat]
    split
    · exact longer
    · next new =>
      rw [List.pairwise_append]
      refine ⟨longer, List.pairwise_singleton _ _, fun first member last only => ?_⟩
      have listed := List.mem_eraseDups.mp member
      rw [List.mem_singleton.mp only, List.idxOf_append_of_mem listed,
        List.idxOf_append_of_notMem new, List.idxOf_cons_self, Nat.add_zero]
      exact List.idxOf_lt_length_of_mem listed

theorem nodup_eraseDups (names : List String) : names.eraseDups.Nodup := by
  refine (pairwise_eraseDups names).imp fun {first second} earlier => ?_
  rintro rfl
  exact Nat.lt_irrefl _ earlier

variable {α : Type} {key : α → String} {items : List α} {item : α}

def firstOfEach (key : α → String) (items : List α) : List α :=
  (items.map key).eraseDups.filterMap fun name => items.find? (key · == name)

theorem mem_firstOfEach_iff :
    item ∈ firstOfEach key items ↔ items.find? (key · == key item) = some item := by
  rw [firstOfEach, List.mem_filterMap]
  constructor
  · rintro ⟨name, -, found⟩
    have named : key item = name := by simpa using List.find?_some found
    rwa [named]
  · intro found
    refine ⟨key item, List.mem_eraseDups.mpr ?_, found⟩
    exact List.mem_map_of_mem (List.mem_of_find?_eq_some found)

theorem mem_of_mem_firstOfEach (member : item ∈ firstOfEach key items) : item ∈ items :=
  List.mem_of_find?_eq_some (mem_firstOfEach_iff.mp member)

theorem exists_find?_of_mem_map {name : String} (member : name ∈ items.map key) :
    ∃ first, items.find? (key · == name) = some first ∧ key first = name := by
  obtain ⟨item, listed, named⟩ := List.mem_map.mp member
  obtain ⟨first, found⟩ : ∃ first, items.find? (key · == name) = some first := by
    rw [← Option.isSome_iff_exists, List.find?_isSome]
    exact ⟨item, listed, beq_iff_eq.mpr named⟩
  exact ⟨first, found, by simpa using List.find?_some found⟩

theorem map_firstOfEach (key : α → String) (items : List α) :
    (firstOfEach key items).map key = (items.map key).eraseDups := by
  have named : ∀ name ∈ (items.map key).eraseDups,
      (items.find? (key · == name)).map key = some name := by
    intro name member
    obtain ⟨first, found, rfl⟩ := exists_find?_of_mem_map (List.mem_eraseDups.mp member)
    rw [found, Option.map_some]
  rw [firstOfEach, List.map_filterMap, List.filterMap_congr named, List.filterMap_some]

theorem firstOfEach_concat (key : α → String) (items : List α) (item : α) :
    firstOfEach key (items ++ [item]) =
      if key item ∈ items.map key then firstOfEach key items
      else firstOfEach key items ++ [item] := by
  have earlier : ∀ name ∈ (items.map key).eraseDups,
      (items ++ [item]).find? (key · == name) = items.find? (key · == name) := by
    intro name member
    obtain ⟨first, found, -⟩ := exists_find?_of_mem_map (List.mem_eraseDups.mp member)
    rw [List.find?_append, found, Option.some_or]
  rw [firstOfEach, List.map_append, List.map_singleton, eraseDups_concat]
  split
  · rw [List.filterMap_congr earlier]
    rfl
  · next new =>
    have unfound : items.find? (key · == key item) = none := by
      rw [List.find?_eq_none]
      exact fun other listed same => new (List.mem_map.mpr ⟨other, listed, beq_iff_eq.mp same⟩)
    have itself : (items ++ [item]).find? (key · == key item) = some item := by
      rw [List.find?_append, unfound, Option.none_or, List.find?_singleton, beq_self_eq_true,
        if_pos rfl]
    have last : [key item].filterMap (fun name => (items ++ [item]).find? (key · == name)) =
        [item] := by
      rw [List.filterMap_cons, itself, List.filterMap_nil]
    rw [List.filterMap_append, List.filterMap_congr earlier, last]
    rfl

end FfiBindings
