import FfiBindings.Proofs.Generation.Frame
import FfiBindings.Proofs.Index.Calls
import FfiBindings.Proofs.Index.Exports
import Mathlib.Data.Finset.Card

set_option autoImplicit false

namespace FfiBindings

open ExceptT

abbrev OwnerTable := List (String × List String)

namespace OwnerTable

def note (table : OwnerTable) (pair : String × String) : OwnerTable :=
  if pair.1 ∈ table.map (·.1) then
    table.map fun row => if row.1 == pair.1 then (row.1, row.2 ++ [pair.2]) else row
  else
    table ++ [(pair.1, [pair.2])]

def gather (exports : List (String × String)) : OwnerTable :=
  exports.foldl note []

def ownersIn (exports : List (String × String)) (name : String) : List String :=
  (exports.filter (·.1 == name)).map (·.2)

theorem ownersIn_append (exports others : List (String × String)) (name : String) :
    ownersIn (exports ++ others) name = ownersIn exports name ++ ownersIn others name := by
  simp [ownersIn]

theorem ownersIn_of_notMem {exports : List (String × String)} {name : String}
    (absent : name ∉ exports.map (·.1)) : ownersIn exports name = [] := by
  rw [ownersIn, List.map_eq_nil_iff, List.filter_eq_nil_iff]
  exact fun pair member same => absent (List.mem_map.mpr ⟨pair, member, beq_iff_eq.mp same⟩)

theorem gather_eq (exports : List (String × String)) :
    gather exports =
      (exports.map (·.1)).eraseDups.map fun name => (name, ownersIn exports name) := by
  induction exports using List.reverseRecOn with
  | nil => rfl
  | append_singleton exports last ih =>
    have keys : (gather exports).map (·.1) = (exports.map (·.1)).eraseDups := by
      simp [ih, Function.comp_def]
    have known : last.1 ∈ (gather exports).map (·.1) ↔ last.1 ∈ exports.map (·.1) := by
      rw [keys, List.mem_eraseDups]
    have others : ∀ name, name ≠ last.1 →
        ownersIn (exports ++ [last]) name = ownersIn exports name := by
      intro name other
      rw [ownersIn_append, @ownersIn_of_notMem [last] name (by simpa using other),
        List.append_nil]
    have own : ownersIn (exports ++ [last]) last.1 = ownersIn exports last.1 ++ [last.2] := by
      rw [ownersIn_append]
      simp [ownersIn]
    have step : gather (exports ++ [last]) = (gather exports).note last := by
      rw [gather, List.foldl_append]
      rfl
    rw [step, note, List.map_append, List.map_singleton, eraseDups_concat]
    simp only [known]
    split
    · rw [ih, List.map_map]
      refine List.map_congr_left fun name _ => ?_
      by_cases same : name = last.1
      · subst same
        simp [own]
      · simp [same, others name same]
    · next new =>
      rw [ih, List.map_append, List.map_singleton, own, ownersIn_of_notMem new, List.nil_append]
      congr 1
      refine List.map_congr_left fun name member => ?_
      rw [others name fun same => new (same ▸ List.mem_eraseDups.mp member)]

end OwnerTable

namespace ExportIndex

variable {index : ExportIndex} {name : String}

def exports (index : ExportIndex) : List (String × String) :=
  index.entries.flatMap fun entry => entry.2.map fun name => (name, entry.1)

theorem map_exports (index : ExportIndex) :
    index.exports.map (·.1) = index.entries.flatMap (·.2) := by
  simp [exports, List.map_flatMap, Function.comp_def]

theorem ownersIn_exports (index : ExportIndex) (name : String) :
    OwnerTable.ownersIn index.exports name = index.owners name := by
  simp [OwnerTable.ownersIn, exports, owners, List.filter_flatMap, List.map_flatMap,
    List.filter_map, Function.comp_def]

theorem gather_exports (index : ExportIndex) :
    OwnerTable.gather index.exports = index.names.map fun name => (name, index.owners name) := by
  rw [OwnerTable.gather_eq, map_exports]
  simp only [ownersIn_exports]
  rfl

theorem keys_gather_exports (index : ExportIndex) :
    (OwnerTable.gather index.exports).map (·.1) = index.names := by
  simp [gather_exports, Function.comp_def]

theorem mem_gather_exports_iff {row : String × List String} :
    row ∈ OwnerTable.gather index.exports ↔ row.1 ∈ index.names ∧ row.2 = index.owners row.1 := by
  rw [gather_exports, List.mem_map]
  constructor
  · rintro ⟨name, listed, rfl⟩
    exact ⟨listed, rfl⟩
  · rintro ⟨listed, owners⟩
    exact ⟨row.1, listed, by rw [← owners]⟩

theorem map_collisions (index : ExportIndex) :
    index.collisions.map (fun collision => (collision.name, collision.paths)) =
      (index.names.filter fun name => 1 < (index.owners name).length).map fun name =>
        (name, index.owners name) := by
  rw [collisions]
  induction index.names with
  | nil => rfl
  | cons name rest ih =>
    rcases owned : index.owners name with _ | ⟨first, _ | ⟨second, others⟩⟩
    · simpa [owned] using ih
    · simpa [owned] using ih
    · simpa [owned, Collision.paths] using ih

theorem mem_names_of_several (several : 1 < (index.owners name).length) : name ∈ index.names := by
  obtain ⟨path, owner⟩ := List.exists_mem_of_length_pos (Nat.zero_lt_of_lt several)
  exact mem_names_of_mem_owners owner

theorem collisions_eq_gather (index : ExportIndex) :
    index.collisions.map (fun collision => (collision.name, collision.paths)) =
      (OwnerTable.gather index.exports).filter fun row => 1 < row.2.length := by
  rw [map_collisions, gather_exports, List.filter_map]
  rfl

theorem mem_names_collisions_iff :
    name ∈ index.collisions.map (·.name) ↔ 1 < (index.owners name).length := by
  have several : name ∈ index.collisions.map (·.name) ↔
      ∃ paths, (name, paths) ∈ (OwnerTable.gather index.exports).filter fun row =>
        1 < row.2.length := by
    rw [← collisions_eq_gather]
    simp
  rw [several]
  simp only [List.mem_filter, mem_gather_exports_iff, decide_eq_true_eq]
  constructor
  · rintro ⟨paths, ⟨-, rfl⟩, more⟩
    exact more
  · exact fun more => ⟨_, ⟨mem_names_of_several more, rfl⟩, more⟩

theorem paths_of_mem_collisions {collision : Collision} (member : collision ∈ index.collisions) :
    collision.paths = index.owners collision.name := by
  have row : (collision.name, collision.paths) ∈
      index.collisions.map fun other => (other.name, other.paths) := List.mem_map_of_mem member
  rw [collisions_eq_gather] at row
  exact (mem_gather_exports_iff.mp (List.mem_filter.mp row).1).2

theorem collisions_ordered (index : ExportIndex) :
    (index.collisions.map (·.name)).Pairwise fun first second =>
      (index.entries.flatMap (·.2)).idxOf first < (index.entries.flatMap (·.2)).idxOf second := by
  have kept : (index.collisions.map (·.name)).Sublist index.names := by
    have rows := (List.filter_sublist (l := OwnerTable.gather index.exports)
      (p := fun row => 1 < row.2.length)).map Prod.fst
    rw [← collisions_eq_gather, List.map_map, keys_gather_exports] at rows
    exact rows
  exact (pairwise_eraseDups _).sublist kept

theorem provides_iff {path : String} :
    index.provides path name = true ↔ ∃ entry ∈ index.entries, entry.1 = path ∧ name ∈ entry.2 := by
  simp [provides]

theorem filter_eq_singleton {names : List String} (single : names.Nodup)
    (exported : names.contains name = true) : names.filter (· == name) = [name] := by
  rw [List.filter_beq, List.count_eq_one_of_mem single (List.contains_iff_mem.mp exported)]
  rfl

theorem flatMap_owner_of_nodup {entries : List (String × List String)}
    (single : ∀ entry ∈ entries, entry.2.Nodup) (name : String) :
    entries.flatMap (fun entry => (entry.2.filter (· == name)).map fun _ => entry.1) =
      (entries.filter (·.2.contains name)).map (·.1) := by
  induction entries with
  | nil => rfl
  | cons entry rest ih =>
    rw [List.forall_mem_cons] at single
    rw [List.flatMap_cons, ih single.2, List.filter_cons]
    cases exported : entry.2.contains name with
    | true =>
      rw [filter_eq_singleton single.1 exported]
      rfl
    | false =>
      rw [filter_of_not_contains exported]
      rfl

theorem owners_of_nodup (distinct : index.importPaths.Nodup)
    (single : ∀ entry ∈ index.entries, entry.2.Nodup) (name : String) :
    index.owners name = index.importPaths.filter (index.provides · name) := by
  rw [filter_provides distinct, owners, flatMap_owner_of_nodup single]

theorem several_owners_iff (distinct : index.importPaths.Nodup)
    (single : ∀ entry ∈ index.entries, entry.2.Nodup) :
    1 < (index.owners name).length ↔
      ∃ first second, first ≠ second ∧
        index.provides first name = true ∧ index.provides second name = true := by
  have exporter : ∀ path, path ∈ index.owners name ↔ index.provides path name = true := by
    intro path
    refine ⟨provides_of_mem_owners, fun provided => ?_⟩
    rw [owners_of_nodup distinct single, List.mem_filter]
    obtain ⟨entry, member, rfl, -⟩ := provides_iff.mp provided
    exact ⟨List.mem_map_of_mem member, provided⟩
  have nodup : (index.owners name).Nodup := by
    rw [owners_of_nodup distinct single]
    exact distinct.filter _
  rw [← List.toFinset_card_of_nodup nodup, Finset.one_lt_card_iff]
  simp only [List.mem_toFinset, exporter]
  constructor
  · rintro ⟨first, second, one, two, different⟩
    exact ⟨first, second, different, one, two⟩
  · rintro ⟨first, second, different, one, two⟩
    exact ⟨first, second, one, two, different⟩

theorem afterCalls_single {calls : List Call} (single : ∀ call ∈ calls, call.2.Nodup) :
    ∀ entry ∈ (afterCalls empty calls).entries, entry.2.Nodup := by
  intro entry member
  rw [afterCalls_entries, mem_firstOfEach_iff] at member
  exact single entry (List.mem_of_find?_eq_some member)

end ExportIndex

theorem World.foldl_log_records (records : List Log.Record) (world : World) :
    (records.foldl World.log world).records = world.records ++ records := by
  induction records generalizing world with
  | nil => exact (List.append_nil _).symm
  | cons record rest ih =>
    rw [List.foldl_cons, ih, World.log_records, List.append_assoc]
    rfl

open ExportIndex

/-- The collisions of an index that was built by calls without repeated names: they are for the names that
two different modules export, with all modules that export them in the order of the index, and go by the
first occurrence of their names. Writing the index, whether it succeeds or not, makes one warning for each
of them in that order and no other record. -/
theorem collisions_exact (calls : List Call) (single : ∀ call ∈ calls, call.2.Nodup) :
    let index := afterCalls empty calls
    (∀ name, name ∈ index.collisions.map (·.name) ↔
      ∃ first second, first ≠ second ∧
        index.provides first name = true ∧ index.provides second name = true) ∧
    (∀ collision ∈ index.collisions,
      collision.paths = index.importPaths.filter (index.provides · collision.name) ∧
        collision.paths.Nodup) ∧
    ((index.collisions.map (·.name)).Pairwise fun first second =>
      (index.entries.flatMap (·.2)).idxOf first < (index.entries.flatMap (·.2)).idxOf second) ∧
    ∀ (emission : Emission) (typeFilter : Bool) (world : World),
      ((emission.indexText typeFilter index).after world).records =
          world.records ++ index.collisions.map Collision.record ∧
        ∀ collision ∈ index.collisions, collision.record.level = .warning := by
  intro index
  have distinct : index.importPaths.Nodup := afterCalls_distinct calls
  have once : ∀ entry ∈ index.entries, entry.2.Nodup := afterCalls_single single
  refine ⟨fun name => ?_, fun collision member => ?_, collisions_ordered index,
    fun emission typeFilter world => ⟨?_, fun _ _ => rfl⟩⟩
  · exact mem_names_collisions_iff.trans (several_owners_iff distinct once)
  · have paths := (paths_of_mem_collisions member).trans (owners_of_nodup distinct once _)
    rw [paths]
    exact ⟨rfl, distinct.filter _⟩
  · rw [Emission.indexText_after, Run.logAll_after, World.foldl_log_records, records]

def clashingCalls : List Call :=
  [ ("./mod/a", ["f", "g"]), ("./mod/b", ["g", "h"]), ("./mod/a", ["h"]), ("./mod/c", ["h", "f"]) ]

def clashingCollisions : List Collision :=
  [ { name := "f", first := "./mod/a", others := ["./mod/c"] },
    { name := "g", first := "./mod/a", others := ["./mod/b"] },
    { name := "h", first := "./mod/b", others := ["./mod/c"] } ]

theorem clashingCalls_collisions :
    (∀ call ∈ clashingCalls, call.2.Nodup) ∧
      (∃ first second, first ≠ second ∧
        (afterCalls empty clashingCalls).provides first "f" = true ∧
          (afterCalls empty clashingCalls).provides second "f" = true) ∧
      ∀ (emission : Emission) (world : World),
        ((emission.indexText true (afterCalls empty clashingCalls)).after world).records =
          world.records ++ clashingCollisions.map Collision.record := by
  have single : ∀ call ∈ clashingCalls, call.2.Nodup := by decide
  have found : (afterCalls empty clashingCalls).collisions = clashingCollisions := by decide
  obtain ⟨shared, -, -, logged⟩ := collisions_exact clashingCalls single
  refine ⟨single, (shared "f").mp (by rw [found]; decide), fun emission world => ?_⟩
  rw [(logged emission true world).1, found]

end FfiBindings
