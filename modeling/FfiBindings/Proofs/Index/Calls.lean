import FfiBindings.Index.Basic
import FfiBindings.Proofs.FirstOfEach
import FfiBindings.Proofs.Work

set_option autoImplicit false

namespace FfiBindings

open ExceptT

namespace ExportIndex

abbrev Call := String × List String

def addModule (call : Call) : ExceptT AlreadyIndexed (StateM ExportIndex) Unit := do
  let index ← get
  match index.add call.1 call.2 with
  | .ok next => set next
  | .error error => throw error

def afterCalls (index : ExportIndex) (calls : List Call) : ExportIndex :=
  calls.foldl (fun index call => (addModule call).after index) index

theorem add_eq (index : ExportIndex) (call : Call) :
    index.add call.1 call.2 =
      if call.1 ∈ index.importPaths then .error { importPath := call.1 }
      else .ok { entries := index.entries ++ [call] } := by
  simp only [add, contains, List.contains_iff_mem]

theorem addModule_eq (index : ExportIndex) (call : Call) :
    (addModule call).outcome index =
        (if call.1 ∈ index.importPaths then .error { importPath := call.1 } else .ok ()) ∧
      (addModule call).after index =
        if call.1 ∈ index.importPaths then index
        else { entries := index.entries ++ [call] } := by
  unfold addModule
  rw [outcome_bind, after_bind]
  simp only [outcome_get, after_get, add_eq]
  by_cases known : call.1 ∈ index.importPaths
  · simp only [if_pos known]
    exact ⟨rfl, rfl⟩
  · simp only [if_neg known]
    exact ⟨rfl, rfl⟩

theorem importPaths_of_entries {index : ExportIndex} {calls : List Call}
    (entries : index.entries = firstOfEach (·.1) calls) :
    index.importPaths = (calls.map (·.1)).eraseDups := by
  rw [importPaths, entries, map_firstOfEach]

theorem afterCalls_entries (calls : List Call) :
    (afterCalls empty calls).entries = firstOfEach (·.1) calls := by
  induction calls using List.reverseRecOn with
  | nil => rfl
  | append_singleton calls call ih =>
    have known : call.1 ∈ (afterCalls empty calls).importPaths ↔ call.1 ∈ calls.map (·.1) := by
      rw [importPaths_of_entries ih, List.mem_eraseDups]
    rw [afterCalls, List.foldl_append, List.foldl_cons, List.foldl_nil]
    change ((addModule call).after (afterCalls empty calls)).entries = _
    rw [(addModule_eq _ call).2, firstOfEach_concat]
    simp only [known]
    split
    · exact ih
    · rw [ih]

theorem afterCalls_importPaths (calls : List Call) :
    (afterCalls empty calls).importPaths = (calls.map (·.1)).eraseDups :=
  importPaths_of_entries (afterCalls_entries calls)

theorem mem_afterCalls_importPaths {calls : List Call} {path : String} :
    path ∈ (afterCalls empty calls).importPaths ↔ path ∈ calls.map (·.1) := by
  rw [afterCalls_importPaths, List.mem_eraseDups]

theorem afterCalls_distinct (calls : List Call) : (afterCalls empty calls).importPaths.Nodup := by
  rw [afterCalls_importPaths]
  exact nodup_eraseDups _

end ExportIndex

open ExportIndex

/-- After any calls the index holds the first call for each module, with its names, in the order of the
calls. Another call is refused exactly if its module was added before, and then changes nothing. The paths
are those of the entries, without repetitions, and size and membership go by them. -/
theorem index_keeps_first_calls (calls : List Call) (path : String) (names : List String) :
    (afterCalls empty calls).entries =
        (calls.map (·.1)).eraseDups.filterMap (fun path => calls.find? (·.1 == path)) ∧
      (addModule (path, names)).outcome (afterCalls empty calls) =
        (if path ∈ calls.map (·.1) then .error { importPath := path } else .ok ()) ∧
      (path ∈ calls.map (·.1) →
        (addModule (path, names)).after (afterCalls empty calls) = afterCalls empty calls) ∧
      (afterCalls empty calls).importPaths.Nodup ∧
      (afterCalls empty calls).importPaths = (afterCalls empty calls).entries.map (·.1) ∧
      (afterCalls empty calls).size = (afterCalls empty calls).importPaths.length ∧
      ((afterCalls empty calls).contains path = true ↔
        path ∈ (afterCalls empty calls).importPaths) := by
  obtain ⟨outcome, after⟩ := addModule_eq (afterCalls empty calls) (path, names)
  refine ⟨afterCalls_entries calls, ?_, fun known => ?_, afterCalls_distinct calls, rfl, ?_, ?_⟩
  · simpa only [mem_afterCalls_importPaths] using outcome
  · rw [after, if_pos (mem_afterCalls_importPaths.mpr known)]
  · rw [size, importPaths, List.length_map]
  · rw [contains, List.contains_iff_mem]

end FfiBindings
