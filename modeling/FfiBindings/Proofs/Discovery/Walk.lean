import FfiBindings.Discovery
import FfiBindings.Proofs.Tree.Unlinked
import Mathlib.Data.List.Nodup

set_option autoImplicit false

namespace FfiBindings

namespace Tree

variable {tree : Tree} {place location : Location} {name : String} {entry : Entry}

theorem listedAs_iff : (if place.dropLast == location then place.getLast? else none) = some name ↔
    place = location ++ [name] := by
  constructor
  · intro taken
    split at taken
    · next inside =>
      obtain ⟨upper, rfl⟩ := List.getLast?_eq_some_iff.mp taken
      rw [List.dropLast_concat, beq_iff_eq] at inside
      rw [inside]
    · cases taken
  · rintro rfl
    simp

theorem mem_names : name ∈ tree.names location ↔
    ∃ entry, tree.entry? (location ++ [name]) = some entry := by
  simp only [names, List.mem_filterMap, listedAs_iff]
  constructor
  · rintro ⟨⟨place, entry⟩, listed, rfl⟩
    rw [entry?_of_ne_nil _ (by simp)]
    cases found : tree.entries.lookup (location ++ [name]) with
    | some held => exact ⟨held, rfl⟩
    | none => simpa using List.lookup_eq_none_iff.mp found _ listed
  · rintro ⟨entry, held⟩
    exact ⟨_, mem_entries_of_found (by simp) held, rfl⟩

theorem names_nodup (distinct : (tree.entries.map (·.1)).Nodup) (location : Location) :
    (tree.names location).Nodup := by
  rw [List.Nodup, List.pairwise_map] at distinct
  rw [names, List.Nodup, List.pairwise_filterMap]
  apply distinct.imp
  rintro first second different name here _ there rfl
  exact different ((listedAs_iff.mp here).trans (listedAs_iff.mp there).symm)

theorem length_le_height (held : tree.entry? location = some entry) :
    location.length ≤ tree.height := by
  by_cases root : location = []
  · simp [root]
  · have listed := mem_entries_of_found root held
    rw [height]
    generalize tree.entries = entries at listed
    induction entries with
    | nil => cases listed
    | cons first rest ih =>
      rw [List.foldr_cons]
      rcases List.mem_cons.mp listed with rfl | later
      · exact Nat.le_max_left _ _
      · exact Nat.le_trans (ih later) (Nat.le_max_right _ _)

end Tree

namespace Discovery

variable {tree : Tree} {exclude : List String} {start location : Location} {depth : Nat}
  {place parts : List String}

theorem isFileAt_iff : isFileAt tree location = true ↔
    ∃ entry, tree.entry? location = some entry ∧ isFileEntry tree location entry = true := by
  rw [isFileAt]
  cases tree.entry? location <;> simp

def Entered (tree : Tree) (exclude : List String) (start : Location) (place : List String) : Prop :=
  tree.entry? (start ++ place) = some .directory ∧ enters exclude place = true

theorem mem_filesBelow_succ : place ∈ filesBelow tree exclude start (depth + 1) parts ↔
    (∃ name, place = parts ++ [name] ∧ isFileAt tree (start ++ place) = true) ∨
      ∃ name, Entered tree exclude start (parts ++ [name]) ∧
        place ∈ filesBelow tree exclude start depth (parts ++ [name]) := by
  have listed : ∀ name {entry}, tree.entry? (start ++ (parts ++ [name])) = some entry →
      name ∈ tree.names (start ++ parts) := by
    intro name entry held
    rw [← List.append_assoc] at held
    exact Tree.mem_names.mpr ⟨entry, held⟩
  simp only [filesBelow, List.mem_append, List.mem_filter, List.mem_map, List.mem_flatMap,
    Bool.and_eq_true, beq_iff_eq]
  constructor
  · rintro (⟨⟨name, -, rfl⟩, isFile⟩ | ⟨_, ⟨⟨name, -, rfl⟩, kept⟩, further⟩)
    · exact .inl ⟨name, rfl, isFile⟩
    · exact .inr ⟨name, kept, further⟩
  · rintro (⟨name, rfl, isFile⟩ | ⟨name, kept, further⟩)
    · obtain ⟨entry, held, -⟩ := isFileAt_iff.mp isFile
      exact .inl ⟨⟨name, listed name held, rfl⟩, isFile⟩
    · exact .inr ⟨_, ⟨⟨name, listed name kept.1, rfl⟩, kept⟩, further⟩

theorem mem_filesBelow : place ∈ filesBelow tree exclude start depth parts ↔
    isFileAt tree (start ++ place) = true ∧ ∃ below, place = parts ++ below ∧ below ≠ [] ∧
      below.length ≤ depth ∧
      ∀ upper, upper <+: below → upper ≠ [] → upper ≠ below →
        Entered tree exclude start (parts ++ upper) := by
  induction depth generalizing parts with
  | zero =>
    constructor
    · intro member
      cases member
    · rintro ⟨-, below, -, nonempty, short, -⟩
      exact absurd (List.length_eq_zero_iff.mp (Nat.le_zero.mp short)) nonempty
  | succ depth ih =>
    rw [mem_filesBelow_succ]
    constructor
    · rintro (⟨name, rfl, isFile⟩ | ⟨name, kept, further⟩)
      · refine ⟨isFile, [name], rfl, by simp, by simp, fun upper begins nonempty proper => ?_⟩
        rcases List.prefix_cons_iff.mp begins with empty | ⟨rest, rfl, none⟩
        · exact absurd empty nonempty
        · exact absurd (by rw [List.prefix_nil.mp none]) proper
      · obtain ⟨isFile, below, rfl, nonempty, short, entered⟩ := ih.mp further
        refine ⟨isFile, name :: below, by simp, by simp, by simpa using short, ?_⟩
        intro upper begins given proper
        obtain ⟨first, rest, rfl⟩ := List.exists_cons_of_ne_nil given
        obtain ⟨rfl, onward⟩ := List.cons_prefix_cons.mp begins
        by_cases here : rest = []
        · rwa [here]
        · rw [List.append_cons]
          exact entered rest onward here fun same => proper (by rw [same])
    · rintro ⟨isFile, below, rfl, nonempty, short, entered⟩
      obtain ⟨name, rest, rfl⟩ := List.exists_cons_of_ne_nil nonempty
      by_cases last : rest = []
      · exact .inl ⟨name, by rw [last], isFile⟩
      · refine .inr ⟨name, entered [name] ⟨rest, rfl⟩ (by simp) (by simpa using Ne.symm last),
          ih.mpr ⟨isFile, rest, by simp, last, by simpa using short, ?_⟩⟩
        intro upper begins given proper
        rw [← List.append_cons]
        exact entered _ (List.cons_prefix_cons.mpr ⟨rfl, begins⟩) (by simp)
          fun same => proper (List.cons.inj same).2

theorem mem_filesBelow_nil : place ∈ filesBelow tree exclude start depth [] ↔
    isFileAt tree (start ++ place) = true ∧ place ≠ [] ∧ place.length ≤ depth ∧
      ∀ upper, upper <+: place → upper ≠ [] → upper ≠ place → Entered tree exclude start upper := by
  rw [mem_filesBelow]
  constructor
  · rintro ⟨isFile, below, rfl, onWay⟩
    exact ⟨isFile, onWay⟩
  · rintro ⟨isFile, onWay⟩
    exact ⟨isFile, place, rfl, onWay⟩

-- Beyond the height of the tree there is nothing to come to.
theorem filesBelow_succ (enough : tree.height ≤ (start ++ parts).length + depth) :
    filesBelow tree exclude start (depth + 1) parts = filesBelow tree exclude start depth parts := by
  induction depth generalizing parts with
  | zero =>
    have nothing : tree.names (start ++ parts) = [] := by
      rw [List.eq_nil_iff_forall_not_mem]
      intro name listed
      obtain ⟨entry, held⟩ := Tree.mem_names.mp listed
      have := Tree.length_le_height held
      rw [List.length_append, List.length_singleton] at this
      omega
    simp [filesBelow, nothing]
  | succ depth ih =>
    rw [filesBelow, filesBelow]
    congr 1
    refine List.flatMap_congr fun place member => ?_
    obtain ⟨name, -, rfl⟩ := List.mem_map.mp (List.mem_filter.mp member).1
    apply ih
    simp only [List.length_append, List.length_singleton] at enough ⊢
    omega

theorem filesBelow_of_height_le {depth : Nat} (enough : tree.height ≤ depth) :
    filesBelow tree exclude start depth [] = filesBelow tree exclude start tree.height [] := by
  induction enough with
  | refl => rfl
  | step enough ih => rw [filesBelow_succ (Nat.le_add_left_of_le enough), ih]

theorem filesBelow_nodup (distinct : (tree.entries.map (·.1)).Nodup) (depth : Nat)
    (parts : List String) : (filesBelow tree exclude start depth parts).Nodup := by
  induction depth generalizing parts with
  | zero => exact .nil
  | succ depth ih =>
    have places : ((tree.names (start ++ parts)).map fun name => parts ++ [name]).Nodup :=
      (Tree.names_nodup distinct _).map fun name other same => by simpa using same
    have below : ∀ {place upper}, place ∈ filesBelow tree exclude start depth upper →
        ∃ rest, place = upper ++ rest ∧ rest ≠ [] := by
      intro place upper member
      obtain ⟨-, rest, whole, nonempty, -⟩ := mem_filesBelow.mp member
      exact ⟨rest, whole, nonempty⟩
    rw [filesBelow, List.nodup_append, List.nodup_flatMap]
    refine ⟨places.filter _, ⟨fun place _ => ih place, ?_⟩, ?_⟩
    -- Different directories have nothing in common, as their names stand at the same place.
    · refine (places.filter _).imp_of_mem fun {upper other} member member' different => ?_
      obtain ⟨name, -, rfl⟩ := List.mem_map.mp (List.mem_filter.mp member).1
      obtain ⟨name', -, rfl⟩ := List.mem_map.mp (List.mem_filter.mp member').1
      intro place inside inside'
      obtain ⟨rest, rfl, -⟩ := below inside
      obtain ⟨rest', same, -⟩ := below inside'
      exact different (List.append_inj same (by simp)).1
    · intro place member other inside same
      obtain ⟨name, -, rfl⟩ := List.mem_map.mp (List.mem_filter.mp member).1
      obtain ⟨upper, held, further⟩ := List.mem_flatMap.mp inside
      obtain ⟨name', -, rfl⟩ := List.mem_map.mp (List.mem_filter.mp held).1
      obtain ⟨rest, rfl, nonempty⟩ := below further
      have lengths := congrArg List.length same
      have := List.length_pos_of_ne_nil nonempty
      simp only [List.length_append, List.length_singleton] at lengths
      omega

end Discovery

end FfiBindings
