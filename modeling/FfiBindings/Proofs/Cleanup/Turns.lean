import FfiBindings.Proofs.Generation.Again
import FfiBindings.Proofs.Library
import FfiBindings.Proofs.Settings.Separation
import FfiBindings.Proofs.Tree.Erased
import FfiBindings.Proofs.Tree.Growth

set_option autoImplicit false

namespace FfiBindings

open ExceptT

/-- A path that spells the place it leads to: absolute, never up, and not the root. -/
structure Path.Exact (path : Path) : Prop where
  rooted : path.isAbsolute = true
  clear : ".." ∉ path.parts
  named : path.parts ≠ []

def World.holds (world : World) (path : Path) : Bool :=
  match world.tree.pathExists world.session.cwd path with
  | .ok present => present
  | .error _ => false

namespace Tree

variable {tree other before after : Tree} {cwd here place : Location} {path lower : Path}
  {follow : Bool} {links : Nat} {property : Entry → Bool}

theorem leadsTo_of_missing (missing : tree.status cwd path = .error .missing) :
    tree.leadsTo cwd path property = .ok false := by
  rw [leadsTo, missing]

theorem leadsTo_congr (same : tree.status cwd path = other.status cwd path) :
    tree.leadsTo cwd path property = other.leadsTo cwd path property := by
  rw [leadsTo, leadsTo, same]

theorem leadsTo_eq_error (unlinked : tree.Unlinked) {error : FileError}
    (failed : tree.leadsTo cwd path property = .error error) :
    error = refused path .nameTooLong ∧ ∃ part ∈ path.parts, nameLimit < part.utf8ByteSize := by
  constructor
  · unfold leadsTo at failed
    split at failed
    · cases failed
    · split at failed
      · cases failed
      · exact (Except.error.inj failed).symm
    · cases failed
  · by_contra all
    simp only [not_exists, not_and, Nat.not_lt] at all
    obtain ⟨answer, asked⟩ := @leadsTo_of_short tree cwd path unlinked all property
    rw [asked] at failed
    cases failed

theorem isDirectory_of_absent (absent : tree.pathExists cwd path = .ok false) :
    tree.isDirectory cwd path = .ok false := by
  unfold pathExists isDirectory leadsTo at *
  cases status : tree.status cwd path with
  | ok entry =>
    rw [status] at absent
    cases absent
  | error defect =>
    rw [status] at absent
    cases defect <;> exact absent

theorem walk_along {above : List String} (clear : ".." ∉ above)
    (short : ∀ part ∈ above, part.utf8ByteSize ≤ nameLimit) (inside : tree.Inside (here ++ above))
    (rest : List String) :
    tree.walk follow links here (above ++ rest) = tree.walk follow links (here ++ above) rest := by
  induction above generalizing here with
  | nil => rw [List.nil_append, List.append_nil]
  | cons part others ih =>
    rw [List.mem_cons, not_or] at clear
    rw [List.forall_mem_cons] at short
    rw [List.append_cons] at inside ⊢
    have directory := inside (here ++ [part]) (List.prefix_append _ _)
    rw [List.cons_append, walk_into (Ne.symm clear.1) short.1 directory]
    exact ih clear.2 short.2 inside

-- What becomes of a tree when the entry at a place goes, with all that can be reached through it.
structure Without (place : Location) (before after : Tree) : Prop where
  gone : after.entry? place = none
  fits : Fits after before
  same : ∀ other, ¬ place <+: other → after.entry? other = before.entry? other

theorem without_erase (named : place ≠ []) : Without place tree (tree.erase place) where
  gone := entry?_erase_self tree named
  fits := erase_fits tree place
  same _ apart := entry?_erase_of_ne tree fun same => apart (same ▸ List.prefix_rfl)

theorem without_eraseBelow (named : place ≠ []) :
    Without place tree ((tree.eraseBelow place).erase place) where
  gone := entry?_erase_self _ named
  fits := IsTrans.trans _ _ _ (erase_fits _ place) (eraseBelow_fits tree place)
  same other apart := by
    have elsewhere : other ≠ place := fun same => apart (same ▸ List.prefix_rfl)
    rw [entry?_erase_of_ne _ elsewhere, entry?_eraseBelow, if_neg]
    exact fun below => apart (Location.strictlyCovers_iff.mp below).1

namespace Without

variable (without : Without path.parts before after) (unlinked : before.Unlinked)
  (lowerExact : lower.Exact)

include without unlinked lowerExact

theorem status_of_covered (exact : path.Exact) {start : Location} {entry : Entry}
    (found : before.status start path = .ok entry) (covered : path.parts <+: lower.parts) :
    after.status cwd lower = .error .missing := by
  obtain ⟨-, -, above, short⟩ := @located_of_status before true start path unlinked exact.rooted
    exact.clear _ found
  obtain ⟨upper, name, split⟩ := List.eq_nil_or_concat path.parts |>.resolve_left exact.named
  rw [List.concat_eq_append] at split
  obtain ⟨rest, whole⟩ := covered
  have upperClear : ".." ∉ upper := fun up => exact.clear (by simp [split, up])
  have notUp : name ≠ ".." := fun up => exact.clear (by simp [split, up])
  rw [split, List.dropLast_concat] at above
  have inside : after.Inside ([] ++ upper) := by
    intro higher begins
    rw [without.same higher, above higher begins]
    -- The place itself is longer than everything above it.
    rw [split]
    intro begins'
    have lengths := begins'.length_le.trans begins.length_le
    rw [List.nil_append, List.length_append, List.length_singleton] at lengths
    omega
  have gone : after.entry? (upper ++ [name]) = none := split ▸ without.gone
  have located : after.locate cwd true lower =
      if rest.isEmpty then .ok path.parts else .error .missing := by
    rw [locate, startOf, if_pos lowerExact.rooted, ← whole, split, List.append_assoc,
      walk_along upperClear (fun part member => short part (by simp [split, member])) inside,
      List.nil_append, List.singleton_append, walk.eq_3 _ _ _ _ _ _ notUp, if_neg]
    · simp only [gone]
    · exact Nat.not_lt.mpr (short name (by simp [split]))
  rw [status, located]
  cases rest.isEmpty with
  | true => simp only [if_true, bind, Except.bind, without.gone]; rfl
  | false => rfl

theorem status_of_apart (apart : ¬ path.parts <+: lower.parts) :
    after.status cwd lower = before.status cwd lower := by
  refine (status_congr unlinked lowerExact.rooted lowerExact.clear fun upper begins => ?_).symm
  exact (without.same upper fun covered => apart (covered.trans begins)).symm

end Without

theorem placeAt_of_exact (exact : path.Exact) : placeAt cwd path = path.parts := by
  rw [Run.placeAt_of_isAbsolute _ exact.rooted, Path.location_of_clear exact.clear]

-- What was found at a path is taken away: nothing is left there or below it, and what other paths
-- lead to is as it was.
structure Taken (path : Path) (before after : Tree) : Prop where
  fits : Fits after before
  status : ∀ cwd (lower : Path), lower.Exact →
    after.status cwd lower =
      if path.parts <+: lower.parts then .error .missing else before.status cwd lower

theorem Without.taken (without : Without path.parts before after) (unlinked : before.Unlinked)
    (exact : path.Exact) {entry : Entry} (found : before.status cwd path = .ok entry) :
    Taken path before after where
  fits := without.fits
  status cwd lower lowerExact := by
    split
    · next covered => exact without.status_of_covered unlinked lowerExact exact found covered
    · next apart => exact without.status_of_apart unlinked lowerExact apart

end Tree

namespace Tree

variable {tree : Tree} {cwd : Location} {path : Path} (unlinked : tree.Unlinked) (exact : path.Exact)

include unlinked exact

theorem unlink_of_directory (directory : tree.isDirectory cwd path = .ok true) :
    (unlink cwd path).outcome tree = .error (refused path .isDirectory) ∧
      (unlink cwd path).after tree = tree := by
  obtain ⟨located, held, -, -⟩ := @located_of_status tree false cwd path unlinked exact.rooted
    exact.clear _ (isDirectory_eq_true.mp directory)
  simp only [unlink, outcome_bind, after_bind, outcome_get, after_get, located, held]
  exact ⟨rfl, rfl⟩

theorem unlink_taken {entry : Entry} (found : tree.status cwd path = .ok entry)
    (noDirectory : entry ≠ .directory) :
    (unlink cwd path).outcome tree = .ok () ∧ Taken path tree ((unlink cwd path).after tree) := by
  have gone := unlink_of_status unlinked exact.rooted exact.clear found noDirectory
  refine ⟨gone, ?_⟩
  rcases unlink_cases unlinked cwd path with ⟨error, fails, -⟩ | ⟨_, _, -, erased, -⟩
  · rw [gone] at fails
    cases fails
  · rw [erased, placeAt_of_exact exact]
    exact (without_erase exact.named).taken unlinked exact found

theorem removeTree_taken (directory : tree.isDirectory cwd path = .ok true) :
    (removeTree cwd path).outcome tree = .ok () ∧
      Taken path tree ((removeTree cwd path).after tree) := by
  have gone := removeTree_of_directory unlinked exact.rooted exact.clear exact.named directory
  refine ⟨gone, ?_⟩
  rcases removeTree_cases unlinked cwd path with ⟨error, fails, -⟩ | ⟨-, erased⟩
  · rw [gone] at fails
    cases fails
  · rw [erased, placeAt_of_exact exact]
    exact (without_eraseBelow exact.named).taken unlinked exact (isDirectory_eq_true.mp directory)

end Tree

namespace Cleanup

-- The turn of an output: nothing is there, what is there is taken, or the turn fails and takes
-- nothing. It fails at a directory, unless directories are removed whole, and at a name that is too
-- long.
inductive Turn (whole : Bool) (path : Path) (world : World) :
    Except Failure (List Path) → World → Prop
  | absent (asked : world.tree.pathExists world.session.cwd path = .ok false) :
      Turn whole path world (.ok []) world
  | taken {after : World} (asked : world.tree.pathExists world.session.cwd path = .ok true)
      (session : after.session = world.session) (taken : Tree.Taken path world.tree after.tree) :
      Turn whole path world (.ok [path]) after
  | directory {after : World} (partly : whole = false)
      (asked : world.tree.isDirectory world.session.cwd path = .ok true)
      (session : after.session = world.session) (same : after.tree = world.tree) :
      Turn whole path world (.error (.file (Tree.refused path .isDirectory))) after
  | tooLong {part : String} (member : part ∈ path.parts) (long : nameLimit < part.utf8ByteSize) :
      Turn whole path world (.error (.file (Tree.refused path .nameTooLong))) world

variable {whole : Bool} {path : Path} {world after : World} {outcome : Except Failure (List Path)}

theorem removeFile_turn (unlinked : world.tree.Unlinked) (exact : path.Exact) :
    Turn false path world ((removeFile path).outcome world) ((removeFile path).after world) := by
  simp only [removeFile, outcome_bind, after_bind, Run.pathExists_outcome, Run.pathExists_after]
  cases asked : world.tree.pathExists world.session.cwd path with
  | error error =>
    obtain ⟨rfl, part, member, long⟩ := Tree.leadsTo_eq_error unlinked asked
    exact .tooLong member long
  | ok present =>
    cases present with
    | false => exact .absent asked
    | true =>
      obtain ⟨entry, found⟩ := Tree.pathExists_eq_true.mp asked
      simp only [Except.mapError_ok, if_true, outcome_bind, after_bind, Run.unlink_outcome,
        Run.unlink_after]
      by_cases whole : entry = .directory
      · have directory := Tree.isDirectory_eq_true.mpr (whole ▸ found)
        obtain ⟨refused, same⟩ := Tree.unlink_of_directory unlinked exact directory
        rw [refused]
        exact .directory rfl directory rfl same
      · obtain ⟨gone, taken⟩ := Tree.unlink_taken unlinked exact found whole
        rw [gone]
        exact .taken asked rfl taken

theorem Turn.of_noDirectory (turn : Turn false path world outcome after)
    (noDirectory : world.tree.isDirectory world.session.cwd path ≠ .ok true) :
    Turn whole path world outcome after := by
  cases turn with
  | absent asked => exact .absent asked
  | taken asked session taken => exact .taken asked session taken
  | directory _ asked => exact absurd asked noDirectory
  | tooLong member long => exact .tooLong member long

theorem removeOutput_turn (unlinked : world.tree.Unlinked) (exact : path.Exact) :
    Turn true path world ((removeOutput path).outcome world) ((removeOutput path).after world) := by
  have file := removeFile_turn unlinked exact
  simp only [removeOutput, outcome_bind, after_bind, Run.isDirectory_outcome, Run.isDirectory_after]
  cases asked : world.tree.isDirectory world.session.cwd path with
  | error error =>
    obtain ⟨rfl, part, member, long⟩ := Tree.leadsTo_eq_error unlinked asked
    exact .tooLong member long
  | ok directory =>
    cases directory with
    | false => exact file.of_noDirectory (by simp [asked])
    | true =>
      obtain ⟨gone, taken⟩ := Tree.removeTree_taken unlinked exact asked
      simp only [Except.mapError_ok, if_true, outcome_bind, after_bind, Run.removeTree_outcome,
        Run.removeTree_after]
      rw [gone]
      exact .taken (Tree.pathExists_of_isDirectory asked) rfl taken

end Cleanup

namespace World

def Lacks (world : World) (path : Path) : Prop :=
  world.tree.pathExists world.session.cwd path = .ok false

structure Shrinks (before after : World) : Prop where
  session : after.session = before.session
  fits : Tree.Fits after.tree before.tree

instance : IsPreorder World Shrinks where
  refl world := ⟨rfl, refl world.tree⟩
  trans _ _ _ first second :=
    ⟨second.session.trans first.session, IsTrans.trans _ _ _ second.fits first.fits⟩

variable {before after world : World} {path : Path}

theorem Lacks.shrinks (lacks : before.Lacks path) (shrinks : Shrinks before after) :
    after.Lacks path := by
  rw [Lacks, shrinks.session]
  exact Tree.pathExists_eq_false_of_fits shrinks.fits lacks

theorem log_shrinks (world : World) (record : Log.Record) : Shrinks world (world.log record) := by
  refine ⟨log_session world record, ?_⟩
  rcases log_tree_cases world record with
    same | ⟨place, content, more, executable, -, held, put⟩
  · rw [same]
    exact refl world.tree
  · rw [put]
    intro location entry present
    by_cases here : location = place
    · subst here
      rw [Tree.entry?_put_self _ _ (Tree.writable_of_file held).ne_nil] at present
      obtain rfl := Option.some.inj present
      exact ⟨_, held, trivial⟩
    · rw [Tree.entry?_put_of_ne _ _ here] at present
      exact ⟨entry, present, entry.alike_refl⟩

theorem foldl_log_shrinks (records : List Log.Record) (world : World) :
    Shrinks world (records.foldl World.log world) := by
  induction records generalizing world with
  | nil => exact refl world
  | cons record rest ih => exact IsTrans.trans _ _ _ (log_shrinks world record) (ih _)

end World

namespace Cleanup

structure Target where
  path : Path
  whole : Bool

def Target.remove (target : Target) : Run (List Path) :=
  if target.whole then removeOutput target.path else removeFile target.path

def targets (layout : Layout) : List Target :=
  [⟨layout.modulesDir, true⟩, ⟨layout.binDir, true⟩, ⟨layout.indexFile, false⟩]

def removeAll : List Target → Run (List Path)
  | [] => return []
  | target :: rest => do
    let first ← target.remove
    let others ← removeAll rest
    return first ++ others

theorem clean_eq (layout : Layout) :
    clean layout = (do
      let removed ← removeAll (targets layout)
      Run.logAll (removed.map removedRecord)
      return removed) := by
  simp only [clean, removeAll, targets, Target.remove, bind_assoc, pure_bind, List.append_nil,
    List.append_assoc, if_true, Bool.false_eq_true, if_false]

def presentInTurn (world : World) : List Target → List Path
  | [] => []
  | target :: rest =>
    (if world.holds target.path then [target.path] else []) ++
      presentInTurn (target.remove.after world) rest

def removable (there : Path → Bool) (removed : List Path) (path : Path) : List Path :=
  if there path && !removed.any (fun upper => Location.covers upper.parts path.parts) then
    removed ++ [path]
  else
    removed

def removedInTurn (there : Path → Bool) (paths : List Path) : List Path :=
  paths.foldl (removable there) []

inductive Fails (world : World) (target : Target) : Failure → Prop
  | directory (partly : target.whole = false)
      (asked : world.tree.isDirectory world.session.cwd target.path = .ok true) :
      Fails world target (.file (Tree.refused target.path .isDirectory))
  | tooLong {part : String} (member : part ∈ target.path.parts)
      (long : nameLimit < part.utf8ByteSize) :
      Fails world target (.file (Tree.refused target.path .nameTooLong))

-- What is left of a world once some paths are removed: what leads there or below finds nothing, and
-- all else is as it was.
structure Stage (start : World) (removed : List Path) (world : World) : Prop where
  session : world.session = start.session
  unlinked : world.tree.Unlinked
  status : ∀ cwd (path : Path), path.Exact →
    world.tree.status cwd path =
      if removed.any (fun upper => Location.covers upper.parts path.parts) then .error .missing
      else start.tree.status cwd path

variable {whole : Bool} {path : Path} {start world after : World} {removed more : List Path}
  {outcome : Except Failure (List Path)} {target : Target}

theorem Stage.holds (stage : Stage start removed world) (exact : path.Exact) :
    world.holds path = (start.holds path &&
      !removed.any fun upper => Location.covers upper.parts path.parts) := by
  have status := stage.status world.session.cwd path exact
  cases taken : removed.any fun upper => Location.covers upper.parts path.parts with
  | true =>
    rw [taken, if_pos rfl] at status
    have absent : world.tree.pathExists world.session.cwd path = .ok false :=
      Tree.leadsTo_of_missing status
    rw [World.holds, absent, Bool.not_true, Bool.and_false]
  | false =>
    rw [taken, if_neg Bool.false_ne_true] at status
    have same : world.tree.pathExists world.session.cwd path =
        start.tree.pathExists world.session.cwd path := Tree.leadsTo_congr status
    rw [World.holds, World.holds, same, stage.session, Bool.not_false, Bool.and_true]

theorem Turn.shrinks (turn : Turn whole path world outcome after) : World.Shrinks world after := by
  cases turn with
  | absent | tooLong => exact refl world
  | taken _ session taken => exact ⟨session, taken.fits⟩
  | directory _ _ session same => exact ⟨session, by rw [same]; exact refl world.tree⟩

theorem Stage.turn (stage : Stage start removed world) (exact : path.Exact)
    (turn : Turn whole path world (.ok more) after) :
    Stage start (removed ++ more) after ∧ more = (if world.holds path then [path] else []) ∧
      removed ++ more = removable start.holds removed path ∧ after.Lacks path := by
  have known := stage.holds exact
  cases turn with
  | absent asked =>
    have absent : world.holds path = false := by rw [World.holds, asked]
    rw [absent] at known ⊢
    rw [List.append_nil, removable, ← known]
    exact ⟨stage, rfl, rfl, asked⟩
  | taken asked session taken =>
    have present : world.holds path = true := by rw [World.holds, asked]
    rw [present] at known ⊢
    rw [removable, ← known]
    have gone := taken.status after.session.cwd path exact
    rw [if_pos List.prefix_rfl] at gone
    refine ⟨⟨session.trans stage.session, taken.fits.unlinked stage.unlinked, ?_⟩, rfl, rfl,
      Tree.leadsTo_of_missing gone⟩
    intro cwd other otherExact
    rw [taken.status cwd other otherExact, stage.status cwd other otherExact, List.any_append,
      List.any_cons, List.any_nil, Bool.or_false]
    by_cases covered : path.parts <+: other.parts
    · simp [covered, Location.covers_iff.mpr covered]
    · have apart : Location.covers path.parts other.parts = false := by
        rw [Bool.eq_false_iff, ne_eq, Location.covers_iff]
        exact covered
      rw [if_neg covered, apart, Bool.or_false]

theorem Target.turn (unlinked : world.tree.Unlinked) (exact : target.path.Exact) :
    Turn target.whole target.path world (target.remove.outcome world)
      (target.remove.after world) := by
  obtain ⟨path, whole⟩ := target
  cases whole with
  | false => exact removeFile_turn unlinked exact
  | true => exact removeOutput_turn unlinked exact

theorem removeAll_shrinks {targets : List Target} (exact : ∀ target ∈ targets, target.path.Exact)
    (unlinked : world.tree.Unlinked) :
    World.Shrinks world ((removeAll targets).after world) := by
  induction targets generalizing world with
  | nil => exact refl world
  | cons target rest ih =>
    rw [List.forall_mem_cons] at exact
    have first := (Target.turn unlinked exact.1).shrinks
    rw [removeAll]
    refine rel_after_bind first fun removed _ => ?_
    rw [after_bind_pure]
    exact ih exact.2 (first.fits.unlinked unlinked)

theorem removeAll_run {targets : List Target} (exact : ∀ target ∈ targets, target.path.Exact)
    (stage : Stage start removed world) :
    (∃ more, (removeAll targets).outcome world = .ok more ∧ more = presentInTurn world targets ∧
        removed ++ more = (targets.map (·.path)).foldl (removable start.holds) removed ∧
        ∀ target ∈ targets, ((removeAll targets).after world).Lacks target.path) ∨
      ∃ earlier target later failure, targets = earlier ++ target :: later ∧
        (removeAll targets).outcome world = .error failure ∧
        (∀ other ∈ earlier, ((removeAll targets).after world).Lacks other.path) ∧
        Fails ((removeAll targets).after world) target failure := by
  induction targets generalizing world removed with
  | nil => exact .inl ⟨[], rfl, rfl, List.append_nil removed, List.forall_mem_nil _⟩
  | cons target rest ih =>
    rw [List.forall_mem_cons] at exact
    have turn := @Target.turn world target stage.unlinked exact.1
    cases ended : target.remove.outcome world with
    | error failure =>
      rw [ended] at turn
      refine .inr ⟨[], target, rest, failure, rfl, ?_, List.forall_mem_nil _, ?_⟩
      · simp only [removeAll, outcome_bind, ended]
      · simp only [removeAll, after_bind, ended]
        generalize target.remove.after world = left at turn
        cases turn with
        | directory partly asked session same =>
          refine .directory partly ?_
          rw [same, session, asked]
        | tooLong member long => exact .tooLong member long
    | ok more =>
      rw [ended] at turn
      obtain ⟨next, literal, told, lacks⟩ := stage.turn exact.1 turn
      have after_eq : (removeAll (target :: rest)).after world =
          (removeAll rest).after (target.remove.after world) := by
        rw [removeAll, after_bind, ended]
        exact after_bind_pure _ _ _
      have kept := removeAll_shrinks exact.2 next.unlinked
      rw [after_eq]
      rcases ih exact.2 next with ⟨others, endedRest, literalRest, toldRest, lackRest⟩ |
        ⟨earlier, failing, later, failure, split, failed, lackEarlier, why⟩
      · refine .inl ⟨more ++ others, ?_, ?_, ?_, ?_⟩
        · simp only [removeAll, outcome_bind, ended, endedRest]
          rfl
        · rw [presentInTurn, literal, literalRest]
        · rw [List.map_cons, List.foldl_cons, ← told, ← toldRest, List.append_assoc]
        · exact List.forall_mem_cons.mpr ⟨lacks.shrinks kept, lackRest⟩
      · refine .inr ⟨target :: earlier, failing, later, failure, ?_, ?_, ?_, why⟩
        · rw [split, List.cons_append]
        · simp only [removeAll, outcome_bind, ended, failed]
        · exact List.forall_mem_cons.mpr ⟨lacks.shrinks kept, lackEarlier⟩

theorem Target.remove_of_lacks (lacks : world.Lacks target.path) :
    target.remove.outcome world = .ok [] ∧ target.remove.after world = world := by
  have asked : world.tree.pathExists world.session.cwd target.path = .ok false := lacks
  have directory := Tree.isDirectory_of_absent asked
  unfold Target.remove
  split
  · simp only [removeOutput, outcome_bind, after_bind, Run.isDirectory_outcome,
      Run.isDirectory_after, directory, Except.mapError_ok, Bool.false_eq_true, if_false,
      Run.pathExists_outcome, Run.pathExists_after, asked]
    exact ⟨rfl, rfl⟩
  · simp only [removeFile, outcome_bind, after_bind, Run.pathExists_outcome, Run.pathExists_after,
      asked]
    exact ⟨rfl, rfl⟩

theorem removeAll_of_lacks {targets : List Target}
    (lacks : ∀ target ∈ targets, world.Lacks target.path) :
    (removeAll targets).outcome world = .ok [] ∧ (removeAll targets).after world = world := by
  induction targets with
  | nil => exact ⟨rfl, rfl⟩
  | cons target rest ih =>
    rw [List.forall_mem_cons] at lacks
    obtain ⟨ended, same⟩ := Target.remove_of_lacks lacks.1
    obtain ⟨endedRest, sameRest⟩ := ih lacks.2
    simp only [removeAll, outcome_bind, after_bind, ended, same, endedRest, sameRest]
    exact ⟨rfl, rfl⟩

variable {layout : Layout} {left : World}

theorem forall_targets {holds : Path → Prop} :
    (∀ target ∈ targets layout, holds target.path) ↔ ∀ path ∈ layout.outputs, holds path := by
  simp [targets, Layout.outputs]

-- Only the index is an output at which no directory is removed whole.
theorem eq_of_targets_split {earlier later : List Target}
    (split : targets layout = earlier ++ target :: later) (partly : target.whole = false) :
    target = ⟨layout.indexFile, false⟩ ∧
      earlier = [⟨layout.modulesDir, true⟩, ⟨layout.binDir, true⟩] := by
  unfold targets at split
  rcases earlier with _ | ⟨first, _ | ⟨second, _ | ⟨third, more⟩⟩⟩
  · obtain ⟨rfl, -⟩ := List.cons.inj split
    cases partly
  · obtain ⟨-, rest⟩ := List.cons.inj split
    obtain ⟨rfl, -⟩ := List.cons.inj rest
    cases partly
  · simp only [List.cons_append, List.nil_append, List.cons.injEq] at split
    obtain ⟨rfl, rfl, rfl, -⟩ := split
    exact ⟨rfl, rfl⟩
  · simp at split

theorem clean_of_lacks (lacks : ∀ path ∈ layout.outputs, world.Lacks path) :
    (clean layout).outcome world = .ok [] ∧ (clean layout).after world = world := by
  obtain ⟨ended, same⟩ := removeAll_of_lacks (forall_targets.mpr lacks)
  simp only [clean_eq, outcome_bind, after_bind, ended, same]
  exact ⟨rfl, rfl⟩

end Cleanup

theorem Settings.exact_outputs {world : World} {project : Path} {settings : Settings}
    {layout : Layout} (unlinked : world.tree.Unlinked) (named : world.Named)
    (accepted : load world.session world.tree project = .ok settings)
    (laidOut : (Generation.layoutOf project settings.layout).outcome world = .ok layout)
    (downward : settings.layout.Downward) : ∀ path ∈ layout.outputs, path.Exact := by
  obtain ⟨root, resolved, made, -⟩ := outcome_bind_eq_ok laidOut
  cases made
  rw [Run.resolve_outcome, Except.mapError_eq_ok] at resolved
  have clear : ".." ∉ root := by
    rw [← Session.resolve_straight unlinked named resolved]
    exact Location.notMem_steps List.not_mem_nil
  refine Layout.forall_outputs.mpr fun key => ?_
  have relative := (load_relative accepted).output key
  obtain ⟨rooted, upless, -⟩ := Path.div_downward clear relative (downward.output key)
  refine ⟨rooted, upless, fun empty => load_named accepted key ?_⟩
  rw [Path.div_parts_of_relative relative] at empty
  exact (List.append_eq_nil_iff.mp empty).2

open Cleanup

/-- Cleaning of accepted settings that never go up, in a tree without links. If it returns, none of the
outputs is there, what it returns are the outputs that were there when their turn came, which are those
that were there at first but for what lay at or below one removed before, and cleaning again returns
nothing and changes nothing. It fails only at an index that is a directory, when both directories are
gone, or at an output with a name that is too long, when those before it are gone. -/
theorem clean_complete {world left : World} {project : Path} {settings : Settings} {layout : Layout}
    (unlinked : world.tree.Unlinked) (named : world.Named)
    (accepted : Settings.load world.session world.tree project = .ok settings)
    (laidOut : (Generation.layoutOf project settings.layout).outcome world = .ok layout)
    (downward : settings.layout.Downward) (left_eq : left = (clean layout).after world) :
    (∀ removed, (clean layout).outcome world = .ok removed →
      (∀ path ∈ layout.outputs, left.Lacks path) ∧
      removed = presentInTurn world (targets layout) ∧
      removed = removedInTurn world.holds layout.outputs ∧
      (clean layout).outcome left = .ok [] ∧ (clean layout).after left = left) ∧
    ∀ failure, (clean layout).outcome world = .error failure →
      (failure = .file (Tree.refused layout.indexFile .isDirectory) ∧
        left.tree.isDirectory left.session.cwd layout.indexFile = .ok true ∧
        left.Lacks layout.modulesDir ∧ left.Lacks layout.binDir) ∨
      ∃ earlier path later, layout.outputs = earlier ++ path :: later ∧
        (∀ other ∈ earlier, left.Lacks other) ∧
        failure = .file (Tree.refused path .nameTooLong) ∧
        ∃ part ∈ path.parts, nameLimit < part.utf8ByteSize := by
  have exact := Settings.exact_outputs unlinked named accepted laidOut downward
  have start : Stage world [] world := ⟨rfl, unlinked, fun _ _ _ => rfl⟩
  rcases removeAll_run (forall_targets.mpr exact) start with
    ⟨removed, ended, literal, told, lacks⟩ |
    ⟨earlier, target, later, failure, split, failed, lacks, why⟩
  · have returned : (clean layout).outcome world = .ok removed := by
      simp only [clean_eq, outcome_bind, ended, Run.logAll_outcome]
      rfl
    have reported : left = (removed.map removedRecord).foldl World.log
        ((removeAll (targets layout)).after world) := by
      simp only [left_eq, clean_eq, after_bind, ended, Run.logAll_after, Run.logAll_outcome,
        after_pure]
    have gone : ∀ path ∈ layout.outputs, left.Lacks path := by
      intro path among
      rw [reported]
      exact (forall_targets.mp lacks path among).shrinks (World.foldl_log_shrinks _ _)
    refine ⟨fun other also => ?_, fun failure failed => ?_⟩
    · obtain rfl : removed = other := Except.ok.inj (returned.symm.trans also)
      obtain ⟨again, same⟩ := clean_of_lacks gone
      exact ⟨gone, literal, told, again, same⟩
    · rw [returned] at failed
      cases failed
  · have stopped : (clean layout).outcome world = .error failure := by
      simp only [clean_eq, outcome_bind, failed]
    have left_same : left = (removeAll (targets layout)).after world := by
      simp only [left_eq, clean_eq, after_bind, failed]
    rw [← left_same] at lacks why
    refine ⟨fun removed returned => ?_, fun other also => ?_⟩
    · rw [stopped] at returned
      cases returned
    · obtain rfl : failure = other := Except.error.inj (stopped.symm.trans also)
      cases why with
      | directory partly asked =>
        obtain ⟨rfl, rfl⟩ := eq_of_targets_split split partly
        rw [List.forall_mem_cons, List.forall_mem_singleton] at lacks
        exact .inl ⟨rfl, asked, lacks.1, lacks.2⟩
      | tooLong member long =>
        refine .inr ⟨earlier.map (·.path), target.path, later.map (·.path), ?_,
          List.forall_mem_map.mpr lacks, rfl, _, member, long⟩
        rw [← List.map_cons, ← List.map_append, ← split]
        rfl

def nestedOutputs : World :=
  { tree :=
      { entries :=
          [ (["p"], .directory),
            (["p", ".rustport.yml"],
              .file (Text.utf8
                "layout:\n  modules_dir: out/mod\n  bin_dir: out\n  index_file: out/index.ts\n")
                false),
            (["p", "rs"], .directory),
            (["p", "out"], .directory),
            (["p", "out", "mod"], .file [] false),
            (["p", "out", "index.ts"], .file [] false) ] }
    session := { cwd := [], homes := [] }
    time := "" }

def nestedNames : LayoutNames :=
  { modulesDir := "out/mod", binDir := "out", indexFile := "out/index.ts" }

def nestedLayout : Layout := Layout.ofNames (Location.path ["p"]) nestedNames

theorem nestedOutputs_cleaned :
    ∃ settings,
      Settings.load nestedOutputs.session nestedOutputs.tree (Location.path ["p"]) = .ok settings ∧
      (Generation.layoutOf (Location.path ["p"]) settings.layout).outcome nestedOutputs =
        .ok nestedLayout ∧
      (clean nestedLayout).outcome nestedOutputs =
        .ok [Location.path ["p", "out", "mod"], Location.path ["p", "out"]] ∧
      (clean nestedLayout).outcome ((clean nestedLayout).after nestedOutputs) = .ok [] := by
  have regular : nestedOutputs.tree.Regular := by decide
  have accepted : Settings.load nestedOutputs.session nestedOutputs.tree (Location.path ["p"]) =
      .ok { root := Location.path ["p"], layout := nestedNames } :=
    @Settings.load_text nestedOutputs.session nestedOutputs.tree ["p"] _ _ regular.unlinked
      (by decide) (by decide) (by decide) (regular.readBytes_held rfl _)
      (by decide +kernel) ⟨by decide, by rintro (_ | _ | _) <;> decide⟩ (by decide)
  have resolved : nestedOutputs.session.resolve nestedOutputs.tree (Location.path ["p"]) =
      .ok ["p"] := regular.resolve_held rfl _
  have laidOut := Generation.layoutOf_of_resolve resolved nestedNames
  have downward : nestedNames.Downward := ⟨by decide, by rintro (_ | _ | _) <;> decide⟩
  have complete := clean_complete regular.unlinked ⟨by decide, by decide⟩ accepted laidOut downward rfl
  refine ⟨_, accepted, laidOut, ?_⟩
  obtain ⟨removed, returned⟩ := @clean_returns nestedLayout nestedOutputs regular.unlinked
    ⟨Layout.absolute_ofNames _ _, by decide, by decide, by decide⟩ (by decide) (by decide)
    ⟨[], false, by decide⟩
  obtain ⟨-, -, told, again, -⟩ := complete.1 removed returned
  have held : ∀ path ∈ nestedLayout.outputs, path = Location.path path.parts ∧
      ∃ entry, nestedOutputs.tree.entry? path.parts = some entry := by
    simp only [← Option.isSome_iff_exists]
    decide
  have there : ∀ path ∈ nestedLayout.outputs, nestedOutputs.holds path = true := by
    intro path among
    obtain ⟨place, entry, found⟩ := held path among
    rw [place, World.holds, regular.pathExists_held found]
  have all : removed = removedInTurn (fun _ => true) nestedLayout.outputs := by
    refine told.trans (List.foldl_ext _ _ _ fun before path among => ?_)
    rw [removable, removable, there path among]
  rw [returned, all]
  exact ⟨by decide, again⟩

theorem clean_stops_at_name {world : World} {layout : Layout} {above : List String} {name : String}
    (lacks : world.Lacks layout.modulesDir) (rooted : layout.binDir.isAbsolute = true)
    (plain : Tree.containsNulPart layout.binDir = false)
    (parts : layout.binDir.parts = above ++ [name]) (clear : ".." ∉ above)
    (inside : world.tree.Inside above) (long : nameLimit < name.utf8ByteSize) :
    (clean layout).outcome world = .error (.file (Tree.refused layout.binDir .nameTooLong)) ∧
      (clean layout).after world = world := by
  have asked : world.tree.isDirectory world.session.cwd layout.binDir =
      .error (Tree.refused layout.binDir .nameTooLong) :=
    Tree.leadsTo_of_long rooted plain parts clear inside long _
  obtain ⟨ended, same⟩ := @Target.remove_of_lacks world ⟨layout.modulesDir, true⟩ lacks
  simp only [Target.remove, if_true] at ended same
  simp only [clean, outcome_bind, after_bind, ended, same, removeOutput.eq_1 layout.binDir,
    Run.isDirectory_outcome, Run.isDirectory_after, asked]
  exact ⟨rfl, rfl⟩

def Settings.onlyBinDir? : Value.Entries → Option String
  | [(.text outer, .dict [(.text inner, .text name)])] =>
    if outer = "layout" ∧ inner = "bin_dir" then some name else none
  | _ => none

theorem Settings.unchecked_of_onlyBinDir? (root : Location) {entries : Value.Entries} {name : String}
    (only : onlyBinDir? entries = some name) (proper : IsName name) :
    unchecked root entries = .ok { root := root.path, layout := { binDir := name } } := by
  have given : LayoutNames.nameIn [(.text "bin_dir", .text name)] "bin_dir" "bin" = name := by
    have nonempty : name.isEmpty = false := by simpa using proper.1.1
    change (if name.isEmpty then "bin" else LayoutNames.stripSlashes name) = name
    rw [nonempty, LayoutNames.stripSlashes_of_clear proper.1.2.2]
    rfl
  have layout : LayoutNames.ofEntries [(.text "bin_dir", .text name)] = { binDir := name } :=
    congrArg (fun name => ({ binDir := name } : LayoutNames)) given
  unfold onlyBinDir? at only
  split at only
  · split at only
    · next keys =>
      obtain ⟨rfl, rfl⟩ := keys
      cases only
      exact congrArg (fun names => Except.ok ({ root := root.path, layout := names } : Settings))
        layout
    · cases only
  · cases only

def longNames : LayoutNames := { binDir := longName 256 }

def longLibraries : World :=
  { tree :=
      { entries :=
          [ (["p"], .directory),
            (["p", ".rustport.yml"],
              .file (Text.Utf8.encode
                ("layout:\n  bin_dir: ".toList ++ List.replicate 256 'x' ++ ['\n'])) false),
            (["p", "rs"], .directory),
            (["p", "rs", "a.rs"], .file [] false),
            (["p", "index.ts"], .file [] false) ] }
    session := { cwd := [], homes := [] }
    time := "" }

theorem longName_plain : containsNul (longName 256) = false := by
  rw [containsNul, List.contains_eq_mem, decide_eq_false_iff_not]
  exact notMem_longName (by decide)

theorem longNames_proper (key : OutputKey) :
    IsName (key.valueIn longNames) ∧ key.valueIn longNames ≠ "rs" ∧
      containsNul (key.valueIn longNames) = false := by
  have other : longName 256 ≠ "rs" := fun same =>
    notMem_longName (show 'r' ≠ 'x' by decide) (same ▸ (by decide : 'r' ∈ "rs".toList))
  cases key with
  | modulesDir => exact show IsName "mod" ∧ "mod" ≠ "rs" ∧ containsNul "mod" = false by decide
  | binDir => exact ⟨isName_longName (by decide), other, longName_plain⟩
  | indexFile =>
    exact show IsName "index.ts" ∧ "index.ts" ≠ "rs" ∧ containsNul "index.ts" = false by decide

theorem longLibraries_regular : longLibraries.tree.Regular := by decide

theorem longLibraries_load :
    Settings.load longLibraries.session longLibraries.tree (Location.path ["p"]) =
      .ok { root := Location.path ["p"], layout := longNames } := by
  -- Only the file is read by evaluation; what it says holds of names of any length.
  have read : (Settings.entriesOfText (Text.unifyNewlines
        ("layout:\n  bin_dir: ".toList ++ List.replicate 256 'x' ++ ['\n']))).map
      Settings.onlyBinDir? = .ok (some (longName 256)) := by decide +kernel
  obtain ⟨entries, understood, only⟩ := Except.map_eq_ok.mp read
  have said := Settings.unchecked_of_onlyBinDir? ["p"] only (isName_longName (by decide))
  have source : IsName "rs" ∧ containsNul "rs" = false := by decide
  have accepted : ¬longNames.Refused ["p"] :=
    LayoutNames.not_refused_of_isName (by decide) source.1 fun key =>
      ⟨(longNames_proper key).1, (longNames_proper key).2.1⟩
  exact @Settings.load_text longLibraries.session longLibraries.tree ["p"] _ _
    longLibraries_regular.unlinked (by decide) (by decide) (by decide)
    (longLibraries_regular.readBytes_held rfl _)
    (Except.bind_eq_ok.mpr ⟨entries, understood, said⟩)
    ⟨source.2, fun key => (longNames_proper key).2.2⟩ accepted

theorem longLibraries_stop :
    Settings.load longLibraries.session longLibraries.tree (Location.path ["p"]) =
        .ok { root := Location.path ["p"], layout := longNames } ∧
      longNames.Downward ∧
      (Generation.layoutOf (Location.path ["p"]) longNames).outcome longLibraries =
        .ok (Layout.ofNames (Location.path ["p"]) longNames) ∧
      longLibraries.tree.isDirectory [] (Location.path ["p", "index.ts"]) = .ok false ∧
      (clean (Layout.ofNames (Location.path ["p"]) longNames)).outcome longLibraries =
        .error (.file (Tree.refused (Location.path ["p", longName 256]) .nameTooLong)) ∧
      (clean (Layout.ofNames (Location.path ["p"]) longNames)).after longLibraries =
        longLibraries := by
  have name : IsName (longName 256) := isName_longName (by decide)
  have binDir : Location.path ["p"] / longName 256 = Location.path ["p", longName 256] := by
    rw [Path.div_of_relative (Path.anchorOf_component name.1), Path.partsOf_component name.1]
    rfl
  have long : nameLimit < (longName 256).utf8ByteSize := by
    rw [← String.append_empty (s := longName 256), utf8ByteSize_longName]
    decide
  have resolved : longLibraries.session.resolve longLibraries.tree (Location.path ["p"]) =
      .ok ["p"] := longLibraries_regular.resolve_held rfl _
  have modules : longLibraries.Lacks (Location.path ["p", "mod"]) :=
    longLibraries_regular.pathExists_absent (by decide) rfl _
  have noNul : Tree.containsNulPart (Location.path ["p", longName 256]) = false := by
    simp [Tree.containsNulPart, longName_plain, show containsNul "p" = false by decide]
  have inside : longLibraries.tree.Inside ["p"] :=
    (Tree.inside_nil _).concat (show longLibraries.tree.entry? ["p"] = some .directory by decide)
  refine ⟨longLibraries_load, ⟨?_, fun key => ?_⟩, Generation.layoutOf_of_resolve resolved _, ?_, ?_⟩
  · exact show ".." ∉ Path.partsOf "rs".toList by decide
  · have proper := (longNames_proper key).1
    rw [Path.partsOf_component proper.1, List.mem_singleton]
    exact proper.2.symm
  · have index : longLibraries.tree.status [] (Location.path ["p", "index.ts"]) =
        .ok (.file [] false) := longLibraries_regular.status_held rfl _
    rw [Tree.isDirectory, Tree.leadsTo, index]
    rfl
  · rw [← binDir] at noNul ⊢
    exact @clean_stops_at_name longLibraries (Layout.ofNames (Location.path ["p"]) longNames) ["p"]
      (longName 256) modules (Path.isAbsolute_div rfl _) noNul (congrArg Path.parts binDir)
      (by decide) inside long

end FfiBindings
