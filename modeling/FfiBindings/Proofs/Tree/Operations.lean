import Mathlib.Logic.Relation
import FfiBindings.Proofs.Tree.Unlinked
import FfiBindings.Proofs.Work
import FfiBindings.Tree.Change

set_option autoImplicit false

namespace FfiBindings.Tree

open ExceptT

abbrev placeAt (cwd : Location) (path : Path) : Location :=
  (startOf path cwd).steps path.parts

theorem locate_eq {tree : Tree} (unlinked : tree.Unlinked) {cwd location : Location} {follow : Bool}
    {path : Path} (found : tree.locate cwd follow path = .ok location) :
    location = placeAt cwd path :=
  walk_eq_steps unlinked found

theorem leadsTo_eq_true {tree : Tree} {cwd : Location} {path : Path} {property : Entry → Bool} :
    tree.leadsTo cwd path property = .ok true ↔
      ∃ entry, tree.status cwd path = .ok entry ∧ property entry = true := by
  unfold leadsTo
  split
  · next entry status => simp [status]
  · next status => split <;> simp [status]
  · next status => simp [status]

theorem isDirectory_eq_true {tree : Tree} {cwd : Location} {path : Path} :
    tree.isDirectory cwd path = .ok true ↔ tree.status cwd path = .ok .directory := by
  rw [isDirectory, leadsTo_eq_true]
  simp

theorem pathExists_eq_true {tree : Tree} {cwd : Location} {path : Path} :
    tree.pathExists cwd path = .ok true ↔ ∃ entry, tree.status cwd path = .ok entry := by
  rw [pathExists, leadsTo_eq_true]
  simp

theorem pathExists_of_isDirectory {tree : Tree} {cwd : Location} {path : Path}
    (directory : tree.isDirectory cwd path = .ok true) : tree.pathExists cwd path = .ok true :=
  pathExists_eq_true.mpr ⟨_, isDirectory_eq_true.mp directory⟩

theorem entry?_of_status {tree : Tree} (unlinked : tree.Unlinked) {cwd : Location} {path : Path}
    {entry : Entry} (found : tree.status cwd path = .ok entry) :
    tree.locate cwd true path = .ok (placeAt cwd path) ∧
      tree.entry? (placeAt cwd path) = some entry := by
  obtain ⟨location, located, held⟩ := Except.bind_eq_ok.mp found
  obtain rfl := locate_eq unlinked located
  refine ⟨located, ?_⟩
  split at held
  · next other present =>
    rw [present]
    exact congrArg some (Except.ok.inj held)
  · cases held

theorem pathExists_below {tree : Tree} (unlinked : tree.Unlinked) {cwd root : Location}
    {parts : List String} (further : parts ≠ [])
    (noDirectory : tree.isDirectory cwd root.path ≠ .ok true) :
    tree.pathExists cwd (Location.path (root ++ parts)) ≠ .ok true := by
  intro present
  obtain ⟨entry, status⟩ := pathExists_eq_true.mp present
  have located := (entry?_of_status unlinked status).1
  obtain ⟨reached, inside⟩ := walk_through unlinked (inside_nil tree) further located
  apply noDirectory
  rw [isDirectory_eq_true]
  change (tree.walk true linkLimit [] root >>= _) = _
  rw [reached]
  simp [bind, Except.bind, inside _ List.prefix_rfl, pure, Except.pure]

theorem readBytes_eq_ok {tree : Tree} {cwd : Location} {path : Path} {bytes : Text.Bytes} :
    tree.readBytes cwd path = .ok bytes ↔
      ∃ executable, tree.status cwd path = .ok (.file bytes executable) := by
  unfold readBytes
  split
  · next content executable status => simp [status]
  · next entry noFile status =>
    simp only [status, reduceCtorEq, Except.ok.injEq, false_iff, not_exists]
    exact fun executable same => noFile bytes executable same
  · next defect status => simp [status]

def Writable (tree : Tree) (place : Location) : Prop :=
  ∀ entry, tree.entry? place = some entry → ∃ content executable, entry = .file content executable

theorem Writable.ne_nil {tree : Tree} {place : Location} (writable : tree.Writable place) :
    place ≠ [] := by
  rintro rfl
  obtain ⟨content, executable, same⟩ := writable .directory rfl
  cases same

theorem writable_of_free {tree : Tree} {place : Location} (free : tree.entry? place = none) :
    tree.Writable place :=
  fun _ held => nomatch free.symm.trans held

theorem writable_of_file {tree : Tree} {place : Location} {content : Text.Bytes}
    {executable : Bool} (held : tree.entry? place = some (.file content executable)) :
    tree.Writable place :=
  fun _ same => ⟨content, executable, Option.some.inj (same.symm.trans held)⟩

theorem update_cases (tree : Tree) (cwd : Location) (path : Path)
    (change : Text.Bytes → Text.Bytes) :
    (∃ error, (update cwd path change).outcome tree = .error error ∧
      (update cwd path change).after tree = tree) ∨
    (∃ location content executable, tree.locate cwd true path = .ok location ∧
      tree.Writable location ∧ (update cwd path change).outcome tree = .ok location ∧
      (update cwd path change).after tree =
        tree.put location (.file (change content) executable)) := by
  unfold update
  split
  · exact .inl ⟨.nulInPath, rfl, rfl⟩
  · simp only [outcome_bind, after_bind, outcome_get, after_get]
    split
    · exact .inl ⟨_, rfl, rfl⟩
    · next location found =>
      split
      · next free => exact .inr ⟨location, [], false, found, writable_of_free free, rfl, rfl⟩
      · next content executable held =>
        exact .inr ⟨location, content, executable, found, writable_of_file held, rfl, rfl⟩
      · exact .inl ⟨_, rfl, rfl⟩

theorem write_cases (tree : Tree) (cwd : Location) (path : Path) (text : String) :
    (∃ error, (write cwd path text).outcome tree = .error error ∧
      (write cwd path text).after tree = tree) ∨
    (∃ location executable, tree.locate cwd true path = .ok location ∧ tree.Writable location ∧
      (write cwd path text).outcome tree = .ok () ∧
      (write cwd path text).after tree =
        tree.put location (.file (Text.utf8 text) executable)) := by
  unfold write
  simp only [outcome_bind, after_bind]
  rcases update_cases tree cwd path (fun _ => Text.utf8 text) with
    ⟨error, fails, same⟩ | ⟨location, content, executable, located, writable, succeeds, changed⟩
  · exact .inl ⟨error, by simp [fails], by simp [fails, same]⟩
  · refine .inr ⟨location, executable, located, writable, ?_, ?_⟩
    · simp [succeeds]
    · simp [succeeds, changed]

theorem unlink_located (tree : Tree) (cwd : Location) (path : Path) :
    (∃ error, (unlink cwd path).outcome tree = .error error ∧
      (unlink cwd path).after tree = tree) ∨
    (∃ place entry, tree.locate cwd false path = .ok place ∧ tree.entry? place = some entry ∧
      entry ≠ .directory ∧ (unlink cwd path).outcome tree = .ok () ∧
      (unlink cwd path).after tree = tree.erase place) := by
  unfold unlink
  simp only [outcome_bind, after_bind, outcome_get, after_get]
  split
  · exact .inl ⟨_, rfl, rfl⟩
  · next place located =>
    split
    · exact .inl ⟨_, rfl, rfl⟩
    · exact .inl ⟨_, rfl, rfl⟩
    · next entry noDirectory held =>
      exact .inr ⟨place, entry, located, held, noDirectory, rfl, rfl⟩

theorem unlink_cases {tree : Tree} (unlinked : tree.Unlinked) (cwd : Location) (path : Path) :
    (∃ error, (unlink cwd path).outcome tree = .error error ∧
      (unlink cwd path).after tree = tree) ∨
    (∃ content executable, (unlink cwd path).outcome tree = .ok () ∧
      (unlink cwd path).after tree = tree.erase (placeAt cwd path) ∧
      tree.entry? (placeAt cwd path) = some (.file content executable)) := by
  rcases unlink_located tree cwd path with
    failed | ⟨place, entry, located, held, noDirectory, succeeds, erased⟩
  · exact .inl failed
  · obtain rfl := locate_eq unlinked located
    cases entry with
    | file content executable => exact .inr ⟨content, executable, succeeds, erased, held⟩
    | directory => exact (noDirectory rfl).elim
    | link target => exact absurd held (unlinked _ target)

theorem removeDirectory_cases {tree : Tree} (unlinked : tree.Unlinked) (cwd : Location)
    (path : Path) :
    (∃ error, (removeDirectory cwd path).outcome tree = .error error ∧
      (removeDirectory cwd path).after tree = tree) ∨
    ((removeDirectory cwd path).outcome tree = .ok () ∧
      (removeDirectory cwd path).after tree = tree.erase (placeAt cwd path)) := by
  unfold removeDirectory
  simp only [outcome_bind, after_bind, outcome_get, after_get]
  split
  · exact .inl ⟨_, rfl, rfl⟩
  · next location found =>
    obtain rfl := locate_eq unlinked found
    split
    · exact .inl ⟨_, rfl, rfl⟩
    · split
      · exact .inr ⟨rfl, rfl⟩
      · exact .inl ⟨_, rfl, rfl⟩

theorem removeTree_cases {tree : Tree} (unlinked : tree.Unlinked) (cwd : Location) (path : Path) :
    (∃ error, (removeTree cwd path).outcome tree = .error error ∧
      ((removeTree cwd path).after tree = tree ∨
        (removeTree cwd path).after tree = tree.eraseBelow (placeAt cwd path))) ∨
    ((removeTree cwd path).outcome tree = .ok () ∧
      (removeTree cwd path).after tree =
        (tree.eraseBelow (placeAt cwd path)).erase (placeAt cwd path)) := by
  unfold removeTree
  simp only [outcome_bind, after_bind, outcome_get, after_get]
  split
  · exact .inl ⟨_, rfl, .inl rfl⟩
  · next location found =>
    obtain rfl := locate_eq unlinked found
    split
    · exact .inl ⟨_, rfl, .inl rfl⟩
    · exact .inl ⟨_, rfl, .inl rfl⟩
    · exact .inl ⟨_, rfl, .inl rfl⟩
    · simp only [outcome_bind, after_bind, outcome_set, after_set]
      rcases removeDirectory_cases (unlinked.eraseBelow (placeAt cwd path)) cwd path with
        ⟨error, fails, same⟩ | ⟨succeeds, gone⟩
      · exact .inl ⟨error, fails, .inr same⟩
      · exact .inr ⟨succeeds, gone⟩

def Grown (way : Location → Prop) (before after : Tree) : Prop :=
  ∀ location, after.entry? location = before.entry? location ∨
    (way location ∧ before.entry? location = none ∧ after.entry? location = some .directory)

theorem Grown.refl (way : Location → Prop) (tree : Tree) : Grown way tree tree :=
  fun _ => .inl rfl

theorem Grown.trans {way : Location → Prop} {before middle after : Tree}
    (first : Grown way before middle) (second : Grown way middle after) :
    Grown way before after := by
  intro location
  rcases first location with same | ⟨onWay, free, made⟩
  · rw [← same]
    exact second location
  · rcases second location with same | ⟨-, stillFree, -⟩
    · exact .inr ⟨onWay, free, by rw [same, made]⟩
    · rw [made] at stillFree
      cases stillFree

theorem Grown.unlinked {way : Location → Prop} {before after : Tree}
    (grown : Grown way before after) (unlinked : before.Unlinked) : after.Unlinked := by
  intro location target found
  rcases grown location with same | ⟨-, -, made⟩
  · exact unlinked location target (by rw [← same, found])
  · rw [made] at found
    cases found

inductive Edit (files ways : Location → Prop) : Tree → Tree → Prop
  | put {tree : Tree} {place : Location} {content : Text.Bytes} {executable : Bool}
      (chosen : files place) (writable : tree.Writable place) :
      Edit files ways tree (tree.put place (.file content executable))
  | take {tree : Tree} {place : Location} {content : Text.Bytes} {executable : Bool}
      (chosen : files place) (held : tree.entry? place = some (.file content executable)) :
      Edit files ways tree (tree.erase place)
  | make {tree : Tree} {place : Location} (onWay : ways place)
      (free : tree.entry? place = none) : Edit files ways tree (tree.put place .directory)

abbrev Edits (files ways : Location → Prop) : Tree → Tree → Prop :=
  Relation.ReflTransGen (Edit files ways)

theorem Edits.mono {files ways moreFiles moreWays : Location → Prop} {before after : Tree}
    (edits : Edits files ways before after) (within : ∀ place, files place → moreFiles place)
    (along : ∀ place, ways place → moreWays place) : Edits moreFiles moreWays before after := by
  refine Relation.ReflTransGen.mono (fun _ _ edit => ?_) _ _ edits
  cases edit with
  | put chosen writable => exact .put (within _ chosen) writable
  | take chosen held => exact .take (within _ chosen) held
  | make onWay free => exact .make (along _ onWay) free

theorem Edits.unlinked {files ways : Location → Prop} {before after : Tree}
    (edits : Edits files ways before after) (unlinked : before.Unlinked) : after.Unlinked := by
  induction edits with
  | refl => exact unlinked
  | tail _ edit ih =>
    cases edit with
    | put => exact ih.put _ (by simp)
    | take => exact ih.erase _
    | make => exact ih.put _ (by simp)

theorem Edits.grown {ways : Location → Prop} {before after : Tree}
    (edits : Edits (fun _ => False) ways before after) : Grown ways before after := by
  induction edits with
  | refl => exact Grown.refl ways before
  | tail _ edit ih =>
    apply ih.trans
    cases edit with
    | put chosen => exact chosen.elim
    | take chosen => exact chosen.elim
    | @make place onWay free =>
      intro location
      by_cases here : location = place
      · subst here
        have inside : location ≠ [] := by
          rintro rfl
          simp at free
        exact .inr ⟨onWay, free, entry?_put_self _ _ inside⟩
      · exact .inl (entry?_put_of_ne _ _ here)

theorem makeDirectory_eq_ok {tree after : Tree} {cwd : Location} {path : Path}
    (made : tree.makeDirectory cwd path = .ok after) :
    ∃ place, tree.locate cwd false path = .ok place ∧ tree.entry? place = none ∧
      after = tree.put place .directory := by
  obtain ⟨place, located, made⟩ := Except.bind_eq_ok.mp made
  refine ⟨place, located, ?_⟩
  cases held : tree.entry? place with
  | none =>
    rw [held] at made
    exact ⟨rfl, (Except.ok.inj made).symm⟩
  | some entry =>
    rw [held] at made
    cases made

theorem acceptExisting_after (cwd : Location) (path : Path) (defect : FileDefect)
    (tree : Tree) : (acceptExisting cwd path defect).after tree = tree := by
  unfold acceptExisting
  simp only [after_bind, outcome_get, after_get]
  cases tree.isDirectory cwd path with
  | error error => rfl
  | ok answer => cases answer <;> rfl

inductive Opening (cwd : Location) (path : Path) : Tree → Tree → Prop
  | make {tree : Tree} {parts : List String} {place : Location} (above : parts <+: path.parts)
      (located : tree.locate cwd false { path with parts } = .ok place)
      (free : tree.entry? place = none) : Opening cwd path tree (tree.put place .directory)

abbrev Openings (cwd : Location) (path : Path) : Tree → Tree → Prop :=
  Relation.ReflTransGen (Opening cwd path)

theorem makeAll_openings (tree : Tree) (cwd : Location) (anchor : Anchor) (parts : List String) :
    Openings cwd ⟨anchor, parts.reverse⟩ tree ((makeAll cwd anchor parts).after tree) := by
  induction parts generalizing tree with
  | nil => exact .refl
  | cons part parents ih =>
    have attempt : ∀ {tree after : Tree},
        tree.makeDirectory cwd ⟨anchor, (part :: parents).reverse⟩ = .ok after →
        Opening cwd ⟨anchor, (part :: parents).reverse⟩ tree after := by
      intro tree after made
      obtain ⟨place, located, free, rfl⟩ := makeDirectory_eq_ok made
      exact .make List.prefix_rfl located free
    -- What lies above the parents lies above the whole path.
    have above : Openings cwd ⟨anchor, (part :: parents).reverse⟩ tree
        ((makeAll cwd anchor parents).after tree) := by
      refine Relation.ReflTransGen.mono (fun _ _ opening => ?_) _ _ (ih tree)
      cases opening with
      | make begins located free => exact .make (begins.trans (by simp)) located free
    unfold makeAll
    simp only [after_bind, outcome_get, after_get]
    split
    · next made => exact .single (attempt made)
    · simp only [after_bind, outcome_get, after_get]
      cases outcome (makeAll cwd anchor parents) tree with
      | error error => exact above
      | ok _ =>
        apply above.trans
        simp only
        split
        · next made => exact .single (attempt made)
        · exact .refl
        · rw [acceptExisting_after]
    · rw [acceptExisting_after]

theorem makeDirectories_openings (tree : Tree) (cwd : Location) (path : Path) :
    Openings cwd path tree ((makeDirectories cwd path).after tree) := by
  unfold makeDirectories
  split
  · exact .refl
  · simpa using makeAll_openings tree cwd path.anchor path.parts.reverse

def OnWay (cwd : Location) (path : Path) (location : Location) : Prop :=
  ∃ parts, parts <+: path.parts ∧ location = (startOf path cwd).steps parts

theorem Openings.edits {files : Location → Prop} {tree after : Tree} (unlinked : tree.Unlinked)
    {cwd : Location} {path : Path} (openings : Openings cwd path tree after) :
    Edits files (OnWay cwd path) tree after := by
  induction openings with
  | refl => exact .refl
  | tail _ opening ih =>
    refine ih.tail ?_
    cases opening with
    | make above located free =>
      obtain rfl := locate_eq (ih.unlinked unlinked) located
      exact .make ⟨_, above, rfl⟩ free

theorem makeAll_edits {files : Location → Prop} {tree : Tree} (unlinked : tree.Unlinked)
    (cwd : Location) (anchor : Anchor) (parts : List String) :
    Edits files (OnWay cwd ⟨anchor, parts.reverse⟩) tree
      ((makeAll cwd anchor parts).after tree) :=
  (makeAll_openings tree cwd anchor parts).edits unlinked

theorem makeDirectories_edits {files : Location → Prop} {tree : Tree} (unlinked : tree.Unlinked)
    (cwd : Location) (path : Path) :
    Edits files (OnWay cwd path) tree ((makeDirectories cwd path).after tree) :=
  (makeDirectories_openings tree cwd path).edits unlinked

theorem makeDirectories_grown {tree : Tree} (unlinked : tree.Unlinked) (cwd : Location)
    (path : Path) :
    Grown (OnWay cwd path) tree ((makeDirectories cwd path).after tree) :=
  (makeDirectories_edits unlinked cwd path).grown

theorem write_edits {files ways : Location → Prop} {tree : Tree} (unlinked : tree.Unlinked)
    {cwd : Location} {path : Path} (chosen : files (placeAt cwd path)) (text : String) :
    Edits files ways tree ((write cwd path text).after tree) := by
  rcases write_cases tree cwd path text with
    ⟨_, -, same⟩ | ⟨location, executable, located, writable, -, changed⟩
  · rw [same]
  · obtain rfl := locate_eq unlinked located
    rw [changed]
    exact .single (.put chosen writable)

theorem unlink_edits {files ways : Location → Prop} {tree : Tree} (unlinked : tree.Unlinked)
    {cwd : Location} {path : Path} (chosen : files (placeAt cwd path)) :
    Edits files ways tree ((unlink cwd path).after tree) := by
  rcases unlink_cases unlinked cwd path with ⟨_, -, same⟩ | ⟨content, executable, -, erased, held⟩
  · rw [same]
  · rw [erased]
    exact .single (.take chosen held)

end FfiBindings.Tree
