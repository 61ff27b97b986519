import Mathlib.Data.List.Infix
import FfiBindings.Proofs.Tree.Resolution
import FfiBindings.Proofs.Tree.Room

set_option autoImplicit false

namespace FfiBindings

structure IsAccepted (part : String) : Prop where
  down : part ≠ ".."
  plain : containsNul part = false
  short : part.utf8ByteSize ≤ nameLimit

instance (part : String) : Decidable (IsAccepted part) :=
  decidable_of_iff (part ≠ ".." ∧ containsNul part = false ∧ part.utf8ByteSize ≤ nameLimit)
    ⟨fun ⟨down, plain, short⟩ => ⟨down, plain, short⟩,
      fun ⟨down, plain, short⟩ => ⟨down, plain, short⟩⟩

theorem Location.proper_iff {location : Location} :
    location.path.Proper ↔ ∀ part ∈ location, IsAccepted part := by
  constructor
  · intro proper part member
    have plain := proper.plain
    simp only [Tree.containsNulPart, List.any_eq_false, Bool.not_eq_true] at plain
    exact ⟨fun up => proper.clear (up ▸ member), plain part member, proper.short part member⟩
  · intro accepted
    refine ⟨rfl, fun up => (accepted _ up).down rfl, ?_, fun part member => (accepted part member).short⟩
    simpa [Tree.containsNulPart] using fun part member => (accepted part member).plain

namespace Tree

/-- What a file system sees to: a place holds one thing, in a directory and under accepted names. -/
structure Sound (tree : Tree) : Prop where
  distinct : (tree.entries.map (·.1)).Nodup
  within : ∀ entry ∈ tree.entries, tree.entry? entry.1.dropLast = some .directory
  accepted : ∀ entry ∈ tree.entries, ∀ part ∈ entry.1, IsAccepted part

instance (tree : Tree) : Decidable tree.Sound :=
  decidable_of_iff ((tree.entries.map (·.1)).Nodup ∧
      (∀ entry ∈ tree.entries, tree.entry? entry.1.dropLast = some .directory) ∧
      ∀ entry ∈ tree.entries, ∀ part ∈ entry.1, IsAccepted part)
    ⟨fun ⟨distinct, within, accepted⟩ => ⟨distinct, within, accepted⟩,
      fun ⟨distinct, within, accepted⟩ => ⟨distinct, within, accepted⟩⟩

variable {tree : Tree} {location upper lower : Location} {entry : Entry}

theorem lookup_of_mem {entries : List (Location × Entry)} (distinct : (entries.map (·.1)).Nodup)
    (listed : (location, entry) ∈ entries) : entries.lookup location = some entry := by
  induction entries with
  | nil => cases listed
  | cons first rest ih =>
    rw [List.map_cons, List.nodup_cons] at distinct
    rcases List.mem_cons.mp listed with rfl | later
    · simp
    · have other : (location == first.1) = false := by
        rw [beq_eq_false_iff_ne]
        rintro rfl
        exact distinct.1 (List.mem_map.mpr ⟨_, later, rfl⟩)
      rw [List.lookup_cons, other]
      exact ih distinct.2 later

namespace Sound

variable (sound : tree.Sound)

include sound

theorem entry_eq (inside : location ≠ []) (listed : (location, entry) ∈ tree.entries) :
    tree.entry? location = some entry := by
  rw [entry?_of_ne_nil _ inside]
  exact lookup_of_mem sound.distinct listed

theorem above (held : tree.entry? location = some entry) : tree.Inside location.dropLast := by
  -- Going up one name at a time, the directories end at the root.
  induction location using List.reverseRecOn generalizing entry with
  | nil => exact inside_nil tree
  | append_singleton upper part ih =>
    have listed := mem_entries_of_found (by simp) held
    have directory := sound.within _ listed
    rw [List.dropLast_concat] at directory ⊢
    exact inside_iff.mpr ⟨ih directory, directory⟩

theorem inside (directory : tree.entry? location = some .directory) : tree.Inside location :=
  inside_iff.mpr ⟨sound.above directory, directory⟩

theorem free_below (free : tree.entry? upper = none) (below : upper <+: lower) :
    tree.entry? lower = none := by
  cases held : tree.entry? lower with
  | none => rfl
  | some entry =>
    rcases List.eq_nil_or_concat lower with rfl | ⟨front, last, rfl⟩
    · rw [List.prefix_nil.mp below] at free
      cases free
    · have above := sound.above held
      rw [List.concat_eq_append] at below held above
      rw [List.dropLast_concat] at above
      rcases List.prefix_concat_iff.mp below with rfl | higher
      · exact held.symm.trans free
      · cases (above upper higher).symm.trans free

theorem proper (held : tree.entry? location = some entry) : location.path.Proper := by
  rw [Location.proper_iff]
  by_cases root : location = []
  · simp [root]
  · exact sound.accepted _ (mem_entries_of_found root held)

theorem locate_self (unlinked : tree.Unlinked) (held : tree.entry? location = some entry)
    (cwd : Location) (follow : Bool) : tree.locate cwd follow location.path = .ok location :=
  locate_proper (sound.proper held) unlinked (sound.above held)

theorem status_self (unlinked : tree.Unlinked) (held : tree.entry? location = some entry)
    (cwd : Location) : tree.status cwd location.path = .ok entry :=
  status_eq_ok.mpr ⟨location, sound.locate_self unlinked held cwd true, held⟩

-- Above and below the first free place on a way, nothing is in the way of a directory.
theorem vacant {base : Location} {name : String} (directory : tree.entry? base = some .directory)
    (free : tree.entry? (base ++ [name]) = none) (below : base ++ [name] <+: lower)
    (above : upper <+: lower) :
    tree.entry? upper = none ∨ tree.entry? upper = some .directory := by
  rcases List.prefix_or_prefix_of_prefix above below with onWay | further
  · rcases List.prefix_concat_iff.mp onWay with rfl | higher
    · exact .inl free
    · exact .inr (sound.inside directory upper higher)
  · exact .inl (sound.free_below free further)

end Sound

structure Regular (tree : Tree) : Prop where
  linkless : tree.linkCount = 0
  sound : tree.Sound

instance (tree : Tree) : Decidable tree.Regular :=
  decidable_of_iff (tree.linkCount = 0 ∧ tree.Sound)
    ⟨fun ⟨linkless, sound⟩ => ⟨linkless, sound⟩, fun ⟨linkless, sound⟩ => ⟨linkless, sound⟩⟩

-- A place in a directory where nothing stands yet.
structure Vacancy (tree : Tree) (location : Location) : Prop where
  directory : tree.entry? location.dropLast = some .directory
  accepted : ∀ part ∈ location, IsAccepted part
  free : tree.entry? location = none

instance (tree : Tree) (location : Location) : Decidable (tree.Vacancy location) :=
  decidable_of_iff (tree.entry? location.dropLast = some .directory ∧
      (∀ part ∈ location, IsAccepted part) ∧ tree.entry? location = none)
    ⟨fun ⟨directory, accepted, free⟩ => ⟨directory, accepted, free⟩,
      fun ⟨directory, accepted, free⟩ => ⟨directory, accepted, free⟩⟩

theorem Vacancy.proper (vacancy : tree.Vacancy location) : location.path.Proper :=
  Location.proper_iff.mpr vacancy.accepted

theorem Vacancy.ne_nil (vacancy : tree.Vacancy location) : location ≠ [] := by
  rintro rfl
  cases vacancy.free

namespace Regular

variable {content : Text.Bytes} {executable : Bool} (regular : tree.Regular)

include regular

theorem unlinked : tree.Unlinked := unlinked_of_linkCount regular.linkless

theorem locate_held (held : tree.entry? location = some entry) (cwd : Location) (follow : Bool) :
    tree.locate cwd follow location.path = .ok location :=
  regular.sound.locate_self regular.unlinked held cwd follow

theorem status_held (held : tree.entry? location = some entry) (cwd : Location) :
    tree.status cwd location.path = .ok entry :=
  regular.sound.status_self regular.unlinked held cwd

theorem resolve_held (held : tree.entry? location = some entry) (cwd : Location) :
    tree.resolve cwd location.path = .ok location :=
  resolve_self (fun upper _ target => regular.unlinked upper target)
    (regular.sound.proper held).clear (regular.sound.proper held).plain cwd

theorem readBytes_held (held : tree.entry? location = some (.file content executable))
    (cwd : Location) : tree.readBytes cwd location.path = .ok content :=
  readBytes_eq_ok.mpr ⟨executable, regular.status_held held cwd⟩

theorem isDirectory_held (held : tree.entry? location = some .directory) (cwd : Location) :
    tree.isDirectory cwd location.path = .ok true :=
  isDirectory_eq_true.mpr (regular.status_held held cwd)

theorem pathExists_held (held : tree.entry? location = some entry) (cwd : Location) :
    tree.pathExists cwd location.path = .ok true :=
  pathExists_eq_true.mpr ⟨entry, regular.status_held held cwd⟩

theorem makeDirectories_held (inside : location ≠ [])
    (held : tree.entry? location = some .directory) (cwd : Location) :
    (makeDirectories cwd location.path).outcome tree = .ok () ∧
      (makeDirectories cwd location.path).after tree = tree :=
  makeDirectories_of_present (regular.sound.proper held).plain inside
    (regular.locate_held held cwd) held

theorem unlink_held (held : tree.entry? location = some (.file content executable))
    (cwd : Location) :
    (unlink cwd location.path).outcome tree = .ok () ∧
      (unlink cwd location.path).after tree = tree.erase location :=
  unlink_of_held (regular.locate_held held cwd false) held nofun

theorem pathExists_absent (accepted : ∀ part ∈ location, IsAccepted part)
    (free : tree.entry? location = none) (cwd : Location) :
    tree.pathExists cwd location.path = .ok false := by
  have proper := Location.proper_iff.mpr accepted
  obtain ⟨answer, asked⟩ := @leadsTo_of_short tree cwd location.path regular.unlinked proper.short
    fun _ => true
  cases answer with
  | false => exact asked
  | true =>
    obtain ⟨entry, found⟩ := pathExists_eq_true.mp asked
    have names : ∀ part ∈ location, part ≠ ".." := fun part member => (accepted part member).down
    have held := (entry?_of_status regular.unlinked found).2
    rw [show placeAt cwd location.path = location from Location.steps_of_names names, free] at held
    cases held

variable (vacancy : tree.Vacancy location) (cwd : Location)

include vacancy

theorem locate_free (follow : Bool) : tree.locate cwd follow location.path = .ok location :=
  locate_proper vacancy.proper regular.unlinked (regular.sound.inside vacancy.directory)

theorem pathExists_free : tree.pathExists cwd location.path = .ok false :=
  regular.pathExists_absent vacancy.accepted vacancy.free cwd

theorem write_free (text : String) :
    (write cwd location.path text).outcome tree = .ok () ∧
      (write cwd location.path text).after tree =
        tree.put location (.file (Text.utf8 text) false) :=
  write_of_free vacancy.proper.plain (regular.locate_free vacancy cwd true) vacancy.free text

theorem makeDirectories_free :
    (makeDirectories cwd location.path).outcome tree = .ok () ∧
      (makeDirectories cwd location.path).after tree = tree.put location .directory :=
  makeDirectories_of_free vacancy.proper.plain vacancy.ne_nil
    (regular.locate_free vacancy cwd false) vacancy.free

end Regular

def grown (tree : Tree) (ways files : List Location) : Tree where
  entries := tree.entries ++
    ((ways.filter fun place => (tree.entry? place).isNone).map (·, .directory) ++
      files.map (·, .file [] false))

variable {ways files : List Location}

theorem lookup_map_const (places : List Location) (entry : Entry) (location : Location) :
    (places.map (·, entry)).lookup location = if location ∈ places then some entry else none := by
  induction places with
  | nil => rfl
  | cons place rest ih =>
    rw [List.map_cons, List.lookup_cons, ih]
    by_cases here : location = place
    · simp [here]
    · simp [here, beq_eq_false_iff_ne.mpr here]

theorem entry?_grown (tree : Tree) (ways files : List Location) (location : Location) :
    Tree.entry? (tree.grown ways files) location =
      (tree.entry? location).or (if location ∈ ways then some .directory
        else if location ∈ files then some (.file [] false) else none) := by
  by_cases root : location = []
  · simp [root]
  · rw [entry?_of_ne_nil _ root, entry?_of_ne_nil _ root, grown, List.lookup_append,
      List.lookup_append, lookup_map_const, lookup_map_const, ← entry?_of_ne_nil _ root]
    cases held : tree.entry? location with
    | some entry => rfl
    | none =>
      simp only [List.mem_filter, held, Option.isNone_none, and_true, Option.none_or]
      split <;> rfl

theorem fits_grown (tree : Tree) (ways files : List Location) :
    Fits tree (tree.grown ways files) := by
  apply fits_of_subset
  intro place entry held
  rw [entry?_grown, held]
  rfl

theorem Unlinked.grown (unlinked : tree.Unlinked) (ways files : List Location) :
    (tree.grown ways files).Unlinked := by
  intro place target linked
  rw [entry?_grown] at linked
  cases held : tree.entry? place with
  | some entry =>
    rw [held] at linked
    cases linked
    exact unlinked place target held
  | none =>
    rw [held, Option.none_or] at linked
    split at linked
    · cases linked
    · split at linked <;> cases linked

theorem sameAt_grown {keep : Location → Bool}
    (laid : ∀ place ∈ ways, tree.entry? place = none → keep place = false)
    (filed : ∀ place ∈ files, keep place = false) :
    SameAt keep tree (tree.grown ways files) := by
  have directories : ((ways.filter fun place => (tree.entry? place).isNone).map
      fun place => (place, Entry.directory)).filter (fun entry => keep entry.1) = [] := by
    rw [List.filter_eq_nil_iff, List.forall_mem_map]
    intro place member
    obtain ⟨listed, free⟩ := List.mem_filter.mp member
    simp [laid place listed (Option.isNone_iff_eq_none.mp free)]
  have contents : (files.map fun place => (place, Entry.file [] false)).filter
      (fun entry => keep entry.1) = [] := by
    rw [List.filter_eq_nil_iff, List.forall_mem_map]
    intro place member
    simp [filed place member]
  rw [SameAt, grown, List.filter_append, List.filter_append, directories, contents, List.append_nil,
    List.append_nil]

theorem inside_grown
    (free : ∀ upper, upper <+: location →
      tree.entry? upper = none ∨ tree.entry? upper = some .directory)
    (laid : ∀ upper, upper <+: location → upper ∈ ways) :
    (tree.grown ways files).Inside location := by
  intro upper above
  rw [entry?_grown, if_pos (laid upper above)]
  rcases free upper above with nothing | directory
  · rw [nothing]
    rfl
  · rw [directory]
    rfl

theorem file_grown (free : tree.entry? location = none) (clear : location ∉ ways)
    (member : location ∈ files) :
    Tree.entry? (tree.grown ways files) location = some (.file [] false) := by
  rw [entry?_grown, free, if_neg clear, if_pos member]
  rfl

end Tree

end FfiBindings
