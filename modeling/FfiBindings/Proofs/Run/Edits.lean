import FfiBindings.Proofs.Run.Records
import FfiBindings.Proofs.Tree.Ways

set_option autoImplicit false

namespace FfiBindings

open ExceptT

namespace World

variable {files ways : Location → Prop} {before middle after world : World} {path : Path}
  {text : String} {location : Location}

inductive Edit (files ways : Location → Prop) : World → World → Prop
  | tree {world : World} {tree : Tree} (edits : Tree.Edits files ways world.tree tree) :
      Edit files ways world (world.withTree tree)
  | log (world : World) (record : Log.Record) : Edit files ways world (world.log record)

-- From a world without links, a run makes such edits only.
def Edits (files ways : Location → Prop) (before after : World) : Prop :=
  before.tree.Unlinked → Relation.ReflTransGen (Edit files ways) before after

theorem log_unlinked (unlinked : world.tree.Unlinked) (record : Log.Record) :
    (world.log record).tree.Unlinked := by
  rcases log_tree_cases world record with same | ⟨place, content, more, executable, -, -, put⟩
  · rwa [same]
  · rw [put]
    exact unlinked.put place (by simp)

theorem Edits.unlinked (edits : Edits files ways before after) (unlinked : before.tree.Unlinked) :
    after.tree.Unlinked := by
  replace edits := edits unlinked
  induction edits with
  | refl => exact unlinked
  | tail _ edit ih =>
    cases edit with
    | tree edits => exact edits.unlinked ih
    | log => exact log_unlinked ih _

instance (files ways : Location → Prop) : IsPreorder World (Edits files ways) where
  refl _ _ := .refl
  trans _ _ _ first second unlinked := (first unlinked).trans (second (first.unlinked unlinked))

theorem edits_refl (world : World) : Edits files ways world world := refl world

theorem Edits.mono {moreFiles moreWays : Location → Prop} (edits : Edits files ways before after)
    (within : ∀ place, files place → moreFiles place)
    (along : ∀ place, ways place → moreWays place) : Edits moreFiles moreWays before after := by
  intro unlinked
  refine Relation.ReflTransGen.mono (fun _ _ edit => ?_) _ _ (edits unlinked)
  cases edit with
  | tree edits => exact .tree (edits.mono within along)
  | log record => exact .log _ record

theorem Edits.session (edits : Edits files ways before after) (unlinked : before.tree.Unlinked) :
    after.session = before.session := by
  replace edits := edits unlinked
  induction edits with
  | refl => rfl
  | tail _ edit ih =>
    cases edit with
    | tree => exact ih
    | log => exact (log_session _ _).trans ih

theorem Edits.keepsWays (edits : Edits files ways before after)
    (unlinked : before.tree.Unlinked) : Tree.KeepsWays before.tree after.tree := by
  replace edits := edits unlinked
  induction edits with
  | refl => exact refl before.tree
  | @tail middle _ _ edit ih =>
    apply IsTrans.trans _ _ _ ih
    cases edit with
    | tree edits => exact edits.keepsWays
    | log record =>
      -- A record adds to a file that is there already.
      rcases log_tree_cases middle record with same | ⟨place, content, more, executable, -, held, put⟩
      · rw [same]
        exact refl middle.tree
      · rw [put]
        exact Tree.put_file_ways (Tree.writable_of_file held) _ _

theorem logsTo_withTree_of_present {tree : Tree} {entry : Entry} (logged : world.LogsTo location)
    (present : tree.entry? location = some entry) : (world.withTree tree).LogsTo location := by
  obtain ⟨handlers, held, file⟩ := logged
  refine ⟨handlers, ?_, file⟩
  simp [withTree, held, detach, file, present]

theorem HoldsText.edited {tree : Tree} (holds : world.HoldsText path text)
    (unlinked : world.tree.Unlinked) (edits : Tree.Edits files ways world.tree tree)
    (spared : ¬ files (Tree.placeAt world.session.cwd path)) :
    (world.withTree tree).HoldsText path text := by
  obtain ⟨more, read, origin⟩ := holds
  obtain ⟨executable, status⟩ := Tree.readBytes_eq_ok.mp read
  obtain ⟨located, stillFile, stays⟩ := edits.status_file unlinked spared status
  refine ⟨more, Tree.readBytes_eq_ok.mpr ⟨executable, stillFile⟩, origin.imp_right ?_⟩
  rintro ⟨place, logged, found⟩
  obtain rfl := Tree.locate_eq unlinked found
  exact ⟨_, logsTo_withTree_of_present logged stays, located⟩

theorem Edits.holdsText (edits : Edits files ways before after) (unlinked : before.tree.Unlinked)
    (rooted : path.isAbsolute = true) (spared : ¬ files path.location)
    (holds : before.HoldsText path text) : after.HoldsText path text := by
  replace edits := edits unlinked
  induction edits with
  | refl => exact holds
  | @tail middle _ steps edit ih =>
    have stillUnlinked : middle.tree.Unlinked := Edits.unlinked (fun _ => steps) unlinked
    cases edit with
    | tree edits =>
      apply ih.edited stillUnlinked edits
      rwa [Run.placeAt_of_isAbsolute _ rooted]
    | log record => exact ih.log record

theorem Edits.holdsText_at {other : Path} {old : String} (edits : Edits files ways before after)
    (unlinked : before.tree.Unlinked) (rooted : path.isAbsolute = true)
    (alsoRooted : other.isAbsolute = true) (same : path.location = other.location)
    (earlier : before.HoldsText path old) (holds : after.HoldsText other text) :
    after.HoldsText path text := by
  obtain ⟨_, readEarlier, -⟩ := earlier
  obtain ⟨_, statusEarlier⟩ := Tree.readBytes_eq_ok.mp readEarlier
  obtain ⟨located, -⟩ := Tree.entry?_of_status unlinked statusEarlier
  obtain ⟨more, read, origin⟩ := holds
  obtain ⟨executable, status⟩ := Tree.readBytes_eq_ok.mp read
  obtain ⟨found, held⟩ := Tree.entry?_of_status (edits.unlinked unlinked) status
  have place : Tree.placeAt after.session.cwd path = Tree.placeAt after.session.cwd other := by
    rw [Run.placeAt_of_isAbsolute _ rooted, Run.placeAt_of_isAbsolute _ alsoRooted, same]
  rw [← place] at held found
  rw [← edits.session unlinked] at located
  -- The two paths may spell their place differently, so the first one is walked again.
  have stillLocated : after.tree.locate after.session.cwd true path =
      .ok (Tree.placeAt after.session.cwd path) :=
    ((Tree.leads_of_walk located).carry (edits.keepsWays unlinked)
      fun _ => Tree.writable_of_file held).walk_eq
  refine ⟨more, Tree.readBytes_eq_ok.mpr ⟨executable, ?_⟩, origin.imp_right ?_⟩
  · exact Tree.status_eq_ok.mpr ⟨_, stillLocated, held⟩
  · rintro ⟨location, logged, reached⟩
    obtain rfl := Except.ok.inj (found.symm.trans reached)
    exact ⟨_, logged, stillLocated⟩

def Silent (world : World) : Prop :=
  ∀ location, ¬ world.LogsTo location

theorem Silent.log_tree (silent : world.Silent) (record : Log.Record) :
    (world.log record).tree = world.tree := by
  rcases log_tree_cases world record with same | ⟨place, _, _, _, logged, -, -⟩
  · exact same
  · exact absurd logged (silent place)

theorem Edits.tree (edits : Edits files ways before after) (unlinked : before.tree.Unlinked)
    (silent : before.Silent) : Tree.Edits files ways before.tree after.tree ∧ after.Silent := by
  replace edits := edits unlinked
  induction edits with
  | refl => exact ⟨.refl, silent⟩
  | tail _ edit ih =>
    obtain ⟨changed, quiet⟩ := ih
    cases edit with
    | tree edits => exact ⟨changed.trans edits, fun place logged => quiet place (logsTo_withTree logged)⟩
    | log record =>
      refine ⟨?_, fun place logged => quiet place (logsTo_log.mp logged)⟩
      rw [quiet.log_tree record]
      exact changed

theorem Edits.readBytes {bytes : Text.Bytes} (edits : Edits files ways before after)
    (unlinked : before.tree.Unlinked) (silent : before.Silent) (rooted : path.isAbsolute = true)
    (spared : ¬ files path.location)
    (read : before.tree.readBytes before.session.cwd path = .ok bytes) :
    after.tree.readBytes after.session.cwd path = .ok bytes := by
  rw [edits.session unlinked]
  obtain ⟨executable, status⟩ := Tree.readBytes_eq_ok.mp read
  rw [← Run.placeAt_of_isAbsolute before.session.cwd rooted] at spared
  have stays := (edits.tree unlinked silent).1.status_file unlinked spared status
  exact Tree.readBytes_eq_ok.mpr ⟨executable, stays.2.1⟩

theorem HoldsText.readBytes (holds : world.HoldsText path text) (silent : world.Silent) :
    world.tree.readBytes world.session.cwd path = .ok (Text.utf8 text) := by
  obtain ⟨more, read, rfl | ⟨place, logged, -⟩⟩ := holds
  · rwa [List.append_nil] at read
  · exact absurd logged (silent place)

end World

namespace Run

variable {files ways : Location → Prop} {path : Path}

theorem log_edits (record : Log.Record) (world : World) :
    World.Edits files ways world ((log record).after world) :=
  fun _ => .single (.log world record)

theorem logAll_edits (records : List Log.Record) (world : World) :
    World.Edits files ways world ((logAll records).after world) := by
  rw [logAll_after]
  induction records generalizing world with
  | nil => exact refl world
  | cons record rest ih => exact IsTrans.trans _ _ _ (log_edits record world) (ih _)

theorem makeDirectories_edits (rooted : path.isAbsolute = true)
    (along : ∀ place, Tree.OnWay [] path place → ways place) (world : World) :
    World.Edits files ways world ((makeDirectories path).after world) := by
  intro unlinked
  rw [makeDirectories_after]
  refine .single (.tree ((Tree.makeDirectories_edits unlinked _ path).mono (fun _ => id) ?_))
  intro place onWay
  apply along
  simpa [Tree.OnWay, Tree.startOf, rooted] using onWay

theorem write_edits (rooted : path.isAbsolute = true) (chosen : files path.location)
    (text : String) (world : World) :
    World.Edits files ways world ((write path text).after world) := by
  intro unlinked
  rw [write_after]
  refine .single (.tree (Tree.write_edits unlinked ?_ text))
  rwa [placeAt_of_isAbsolute _ rooted]

theorem unlink_edits (rooted : path.isAbsolute = true) (chosen : files path.location)
    (world : World) : World.Edits files ways world ((unlink path).after world) := by
  intro unlinked
  rw [unlink_after]
  refine .single (.tree (Tree.unlink_edits unlinked ?_))
  rwa [placeAt_of_isAbsolute _ rooted]

end Run

end FfiBindings
