import FfiBindings.Proofs.Path
import FfiBindings.Tree.Walk

set_option autoImplicit false

namespace FfiBindings.Tree

theorem lookup_filter_keys {α β : Type} [BEq α] [LawfulBEq α] (keep : α → Bool)
    (pairs : List (α × β)) (key : α) :
    (pairs.filter fun pair => keep pair.1).lookup key =
      if keep key then pairs.lookup key else none := by
  induction pairs with
  | nil => simp
  | cons pair rest ih =>
    obtain ⟨first, value⟩ := pair
    by_cases same : key = first
    · subst same
      cases kept : keep key
      · simpa [kept] using ih
      · simp [kept]
    · have other : (key == first) = false := by simpa using same
      cases kept : keep first <;> simp [kept, List.lookup_cons, other, ih]

@[simp] theorem entry?_nil (tree : Tree) : tree.entry? [] = some .directory := rfl

theorem entry?_of_ne_nil (tree : Tree) {location : Location} (inside : location ≠ []) :
    tree.entry? location = tree.entries.lookup location := by
  simp [ entry?, inside]

theorem entry?_erase_of_ne (tree : Tree) {location other : Location}
    (different : other ≠ location) :
    Tree.entry? (tree.erase location) other = tree.entry? other := by
  simp only [ entry?, erase, lookup_filter_keys (fun key => key != location)]
  simp [different]

@[simp] theorem entry?_erase_self (tree : Tree) {location : Location} (inside : location ≠ []) :
    Tree.entry? (tree.erase location) location = none := by
  rw [entry?_of_ne_nil _ inside, erase, lookup_filter_keys (fun key => key != location)]
  simp

theorem entry?_of_erase {tree : Tree} {place location : Location} {entry : Entry}
    (held : Tree.entry? (tree.erase place) location = some entry) :
    tree.entry? location = some entry := by
  by_cases same : location = place
  · subst same
    by_cases top : location = []
    · subst top
      exact held
    · rw [entry?_erase_self tree top] at held
      cases held
  · rwa [entry?_erase_of_ne tree same] at held

theorem entry?_put_of_ne (tree : Tree) {location other : Location} (entry : Entry)
    (different : other ≠ location) :
    Tree.entry? (tree.put location entry) other = tree.entry? other := by
  rw [← entry?_erase_of_ne tree different]
  have other_ne : (other == location) = false := by simpa using different
  simp [ entry?, put, List.lookup_cons, other_ne]

@[simp] theorem entry?_put_self (tree : Tree) {location : Location} (entry : Entry)
    (inside : location ≠ []) : Tree.entry? (tree.put location entry) location = some entry := by
  simp [ entry?, put, inside]

theorem entry?_eraseBelow (tree : Tree) (location other : Location) :
    Tree.entry? (tree.eraseBelow location) other =
      if location.strictlyCovers other then none else tree.entry? other := by
  cases other with
  | nil =>
    have : location.strictlyCovers [] = false := by
      simp only [Bool.eq_false_iff, ne_eq, Location.strictlyCovers_iff, List.prefix_nil, not_and]
      exact fun root => by simp [root]
    simp [this]
  | cons part rest =>
    rw [entry?_of_ne_nil _ (by simp), eraseBelow,
      lookup_filter_keys (fun key => !location.strictlyCovers key), entry?_of_ne_nil _ (by simp)]
    cases location.strictlyCovers (part :: rest) <;> simp

theorem mem_entries_of_found {tree : Tree} {location : Location} {entry : Entry}
    (inside : location ≠ []) (found : tree.entry? location = some entry) :
    (location, entry) ∈ tree.entries := by
  rw [entry?_of_ne_nil _ inside] at found
  exact List.lookup_eq_some_iff.mp found |>.elim fun _ ⟨_, split, _⟩ => by simp [split]

def Unlinked (tree : Tree) : Prop :=
  ∀ location target, tree.entry? location ≠ some (.link target)

theorem unlinked_of_linkCount {tree : Tree} (none : tree.linkCount = 0) : tree.Unlinked := by
  intro location target linked
  have inside : location ≠ [] := by
    rintro rfl
    simp at linked
  have all := List.filter_eq_nil_iff.mp (List.length_eq_zero_iff.mp none)
  exact all _ (mem_entries_of_found inside linked) rfl

theorem Unlinked.erase {tree : Tree} (unlinked : tree.Unlinked) (location : Location) :
    (tree.erase location).Unlinked :=
  fun other target found => unlinked other target (entry?_of_erase found)

theorem Unlinked.eraseBelow {tree : Tree} (unlinked : tree.Unlinked) (location : Location) :
    (tree.eraseBelow location).Unlinked := by
  intro other target found
  rw [entry?_eraseBelow] at found
  split at found
  · cases found
  · exact unlinked other target found

theorem Unlinked.put {tree : Tree} (unlinked : tree.Unlinked) (location : Location) {entry : Entry}
    (noLink : ∀ target, entry ≠ .link target) : (tree.put location entry).Unlinked := by
  intro other target found
  by_cases same : other = location
  · subst same
    by_cases root : other = []
    · simp [root] at found
    · rw [entry?_put_self _ _ root] at found
      exact noLink target (Option.some.inj found)
  · rw [entry?_put_of_ne tree entry same] at found
    exact unlinked other target found

theorem walk_up (tree : Tree) (follow : Bool) (links : Nat) (here : Location)
    (rest : List String) :
    tree.walk follow links here (".." :: rest) = tree.walk follow links here.dropLast rest := by
  rw [walk]

theorem walk_into {tree : Tree} {follow : Bool} {links : Nat} {here : Location} {part : String}
    {rest : List String} (name : part ≠ "..") (short : part.utf8ByteSize ≤ nameLimit)
    (directory : tree.entry? (here ++ [part]) = some .directory) :
    tree.walk follow links here (part :: rest) = tree.walk follow links (here ++ [part]) rest := by
  rw [walk.eq_3 _ _ _ _ _ _ name, if_neg (Nat.not_lt.mpr short)]
  simp only [directory]

theorem walk_name_cases {tree : Tree} (unlinked : tree.Unlinked) {follow : Bool} {links : Nat}
    {here location : Location} {part : String} {rest : List String} (name : part ≠ "..")
    (found : tree.walk follow links here (part :: rest) = .ok location) :
    part.utf8ByteSize ≤ nameLimit ∧
      ((rest = [] ∧ location = here ++ [part]) ∨
        (tree.entry? (here ++ [part]) = some .directory ∧
          tree.walk follow links (here ++ [part]) rest = .ok location)) := by
  rw [walk.eq_3 _ _ _ _ _ _ name] at found
  simp only at found
  split at found
  · cases found
  · next short =>
    refine ⟨Nat.not_lt.mp short, ?_⟩
    split at found
    · split at found
      · next ends => exact .inl ⟨List.isEmpty_iff.mp ends, (Except.ok.inj found).symm⟩
      · cases found
    · next directory => exact .inr ⟨directory, found⟩
    · split at found
      · next ends => exact .inl ⟨List.isEmpty_iff.mp ends, (Except.ok.inj found).symm⟩
      · cases found
    · next target linked => exact absurd linked (unlinked _ target)

theorem walk_eq_steps {tree : Tree} (unlinked : tree.Unlinked) {follow : Bool} {links : Nat}
    {here location : Location} {parts : List String}
    (found : tree.walk follow links here parts = .ok location) : location = here.steps parts := by
  induction parts generalizing here with
  | nil =>
    rw [walk] at found
    exact (Except.ok.inj found).symm
  | cons part rest ih =>
    by_cases up : part = ".."
    · subst up
      rw [walk_up] at found
      exact ih found
    · rw [Location.steps_cons, Location.step_down up]
      rcases (walk_name_cases unlinked up found).2 with ⟨rfl, rfl⟩ | ⟨-, further⟩
      · rfl
      · exact ih further

def Inside (tree : Tree) (location : Location) : Prop :=
  ∀ upper, upper <+: location → tree.entry? upper = some .directory

theorem inside_nil (tree : Tree) : tree.Inside [] := by
  intro upper above
  simp [List.prefix_nil.mp above]

theorem Inside.dropLast {tree : Tree} {location : Location} (inside : tree.Inside location) :
    tree.Inside location.dropLast :=
  fun upper above => inside upper (above.trans (List.dropLast_prefix location))

theorem Inside.concat {tree : Tree} {location : Location} (inside : tree.Inside location)
    {part : String} (directory : tree.entry? (location ++ [part]) = some .directory) :
    tree.Inside (location ++ [part]) := by
  intro upper above
  rcases List.prefix_concat_iff.mp above with rfl | higher
  · exact directory
  · exact inside upper higher

theorem walk_through {tree : Tree} (unlinked : tree.Unlinked) {follow : Bool} {links : Nat}
    {here location : Location} {parts others : List String} (inside : tree.Inside here)
    (further : others ≠ [])
    (found : tree.walk follow links here (parts ++ others) = .ok location) :
    tree.walk follow links here parts = .ok (here.steps parts) ∧
      tree.Inside (here.steps parts) := by
  induction parts generalizing here with
  | nil => exact ⟨by rw [walk]; rfl, inside⟩
  | cons part rest ih =>
    by_cases up : part = ".."
    · subst up
      rw [List.cons_append, walk_up] at found
      rw [walk_up]
      exact ih inside.dropLast found
    · obtain ⟨short, ⟨ends, -⟩ | ⟨directory, onward⟩⟩ := walk_name_cases unlinked up found
      -- More components follow, so the walk has not ended at this one.
      · simp [further] at ends
      · rw [walk_into up short directory, Location.steps_cons, Location.step_down up]
        exact ih (inside.concat directory) onward

theorem resolveFrom_eq_steps {tree : Tree} (unlinked : tree.Unlinked) (depth : Nat)
    (active : List Location) (here : Location) (parts : List String) :
    tree.resolveFrom depth active here parts = .found (here.steps parts) ∨
      tree.resolveFrom depth active here parts = .nul := by
  induction parts generalizing here with
  | nil => exact .inl (by rw [resolveFrom]; rfl)
  | cons part rest ih =>
    by_cases up : part = ".."
    · subst up
      rw [resolveFrom]
      exact ih here.dropLast
    · rw [resolveFrom.eq_3 _ _ _ _ _ _ up, Location.steps_cons, Location.step_down up]
      simp only
      split
      · exact .inr rfl
      · split
        · next target linked => exact absurd linked (unlinked _ target)
        · exact ih (here ++ [part])

theorem resolve_eq_steps {tree : Tree} (unlinked : tree.Unlinked) {cwd location : Location}
    {path : Path} (found : tree.resolve cwd path = .ok location) :
    location = (startOf path cwd).steps path.parts := by
  unfold resolve at found
  rcases resolveFrom_eq_steps unlinked tree.linkCount [] (startOf path cwd) path.parts with
    direct | nul
  · rw [direct] at found
    exact (Except.ok.inj found).symm
  · rw [nul] at found
    cases found

end FfiBindings.Tree
