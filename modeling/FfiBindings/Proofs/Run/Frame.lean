import FfiBindings.Proofs.Run.Steps
import FfiBindings.Proofs.Tree.Operations

set_option autoImplicit false

namespace FfiBindings

open ExceptT

def Tree.Kept (before after : Tree) (location : Location) : Prop :=
  after.entry? location = before.entry? location ∨
    (before.entry? location = none ∧ after.entry? location = some .directory)

def Tree.Lengthened (before after : Tree) (location : Location) : Prop :=
  ∃ content more executable, before.entry? location = some (.file content executable) ∧
    after.entry? location = some (.file (content ++ more) executable)

namespace Tree

variable {before middle after : Tree} {location : Location}

theorem Kept.trans (first : Kept before middle location) (second : Kept middle after location) :
    Kept before after location := by
  rcases first with same | ⟨free, made⟩
  · simpa only [Kept, same] using second
  · rcases second with same | ⟨stillFree, -⟩
    · exact .inr ⟨free, by rw [same, made]⟩
    · rw [made] at stillFree
      cases stillFree

theorem Kept.file_iff (kept : Kept before after location) (content : Text.Bytes)
    (executable : Bool) :
    after.entry? location = some (.file content executable) ↔
      before.entry? location = some (.file content executable) := by
  rcases kept with same | ⟨free, made⟩
  · rw [same]
  · simp [free, made]

theorem Lengthened.of_kept_right (first : Lengthened before middle location)
    (second : Kept middle after location) : Lengthened before after location := by
  obtain ⟨content, more, executable, held, longer⟩ := first
  exact ⟨content, more, executable, held, (second.file_iff _ _).mpr longer⟩

theorem Lengthened.of_kept_left (first : Kept before middle location)
    (second : Lengthened middle after location) : Lengthened before after location := by
  obtain ⟨content, more, executable, held, longer⟩ := second
  exact ⟨content, more, executable, (first.file_iff _ _).mp held, longer⟩

theorem Lengthened.trans (first : Lengthened before middle location)
    (second : Lengthened middle after location) : Lengthened before after location := by
  obtain ⟨content, more, executable, held, longer⟩ := first
  obtain ⟨_, rest, _, again, longest⟩ := second
  rw [longer] at again
  cases again
  exact ⟨content, more ++ rest, executable, held, by rw [longest, List.append_assoc]⟩

end Tree

namespace World

def LogsTo (world : World) (location : Location) : Prop :=
  ∃ handlers, world.handlers = some handlers ∧ handlers.file = .attached location

/-- A place that a run leaves alone: it is kept, or it is the log file and lines were added. -/
def LeavesAlone (before after : World) (location : Location) : Prop :=
  Tree.Kept before.tree after.tree location ∨
    (before.LogsTo location ∧ Tree.Lengthened before.tree after.tree location)

theorem LeavesAlone.trans {before middle after : World} {location : Location}
    (logs : middle.LogsTo location → before.LogsTo location)
    (first : LeavesAlone before middle location) (second : LeavesAlone middle after location) :
    LeavesAlone before after location := by
  rcases first with kept | ⟨logged, longer⟩
  · rcases second with keptAgain | ⟨logged, longer⟩
    · exact .inl (kept.trans keptAgain)
    · exact .inr ⟨logs logged, .of_kept_left kept longer⟩
  · rcases second with keptAgain | ⟨-, longest⟩
    · exact .inr ⟨logged, longer.of_kept_right keptAgain⟩
    · exact .inr ⟨logged, longer.trans longest⟩

structure Framed (touched : Location → Prop) (before after : World) : Prop where
  session : after.session = before.session
  logs : ∀ location, after.LogsTo location → before.LogsTo location
  unlinked : after.tree.Unlinked
  alone : ∀ location, ¬ touched location → LeavesAlone before after location

-- From a world without links, only the touched places change.
def Frame (touched : Location → Prop) (before after : World) : Prop :=
  before.tree.Unlinked → Framed touched before after

variable {touched wider : Location → Prop} {before middle after world : World}

theorem Frame.refl (touched : Location → Prop) (world : World) : Frame touched world world :=
  fun unlinked => ⟨rfl, fun _ => id, unlinked, fun _ _ => .inl (.inl rfl)⟩

theorem Frame.trans (first : Frame touched before middle) (second : Frame touched middle after) :
    Frame touched before after := by
  intro unlinked
  -- The first part leaves no links behind, which is what the second part needs.
  have toMiddle := first unlinked
  have onward := second toMiddle.unlinked
  refine ⟨onward.session.trans toMiddle.session,
    fun location logged => toMiddle.logs location (onward.logs location logged),
    onward.unlinked, fun location outside => ?_⟩
  exact (toMiddle.alone location outside).trans (toMiddle.logs location)
    (onward.alone location outside)

instance (touched : Location → Prop) : IsPreorder World (Frame touched) where
  refl := Frame.refl touched
  trans _ _ _ := Frame.trans

theorem Frame.mono (frame : Frame touched before after)
    (within : ∀ location, touched location → wider location) : Frame wider before after := by
  intro unlinked
  have framed := frame unlinked
  exact ⟨framed.session, framed.logs, framed.unlinked,
    fun location outside => framed.alone location fun inside => outside (within location inside)⟩

theorem logsTo_withTree {tree : Tree} {location : Location}
    (logged : (world.withTree tree).LogsTo location) : world.LogsTo location := by
  obtain ⟨handlers, held, file⟩ := logged
  simp only [withTree, Option.map_eq_some_iff] at held
  obtain ⟨earlier, present, rfl⟩ := held
  refine ⟨earlier, present, ?_⟩
  unfold detach at file
  split at file
  · split at file
    · cases file
    · exact file
  · exact file

theorem frame_withTree {tree : Tree} (unlinked : world.tree.Unlinked → tree.Unlinked)
    (kept : world.tree.Unlinked → ∀ location, ¬ touched location →
      Tree.Kept world.tree tree location) : Frame touched world (world.withTree tree) :=
  fun start => ⟨rfl, fun _ => logsTo_withTree, unlinked start,
    fun location outside => .inl (kept start location outside)⟩

theorem log_tree_cases (world : World) (record : Log.Record) :
    (world.log record).tree = world.tree ∨ ∃ place content more executable, world.LogsTo place ∧
      world.tree.entry? place = some (.file content executable) ∧
      (world.log record).tree = world.tree.put place (.file (content ++ more) executable) := by
  obtain ⟨tree, console, logged, same | ⟨handlers, line, present, appended⟩⟩ :=
    log_cases world record
  · rw [logged]
    exact .inl same
  · rw [logged]
    rcases appendLine_cases world.tree handlers.file line with
      same | ⟨place, content, executable, file, held, put⟩
    · exact .inl (appended.trans same)
    · exact .inr ⟨place, content, _, executable, ⟨handlers, present, file⟩, held,
        appended.trans put⟩

theorem logsTo_log {record : Log.Record} {location : Location} :
    (world.log record).LogsTo location ↔ world.LogsTo location := by
  rw [LogsTo, LogsTo, log_handlers]

theorem log_leavesAlone (world : World) (record : Log.Record) (location : Location) :
    LeavesAlone world (world.log record) location := by
  rcases log_tree_cases world record with
    same | ⟨place, content, more, executable, logged, held, put⟩
  · exact .inl (.inl (by rw [same]))
  · rw [LeavesAlone, put]
    by_cases here : location = place
    · subst here
      have inside : location ≠ [] := by
        rintro rfl
        simp at held
      exact .inr ⟨logged, content, more, executable, held, Tree.entry?_put_self _ _ inside⟩
    · exact .inl (.inl (Tree.entry?_put_of_ne _ _ here))

theorem log_frame (touched : Location → Prop) (world : World) (record : Log.Record) :
    Frame touched world (world.log record) := by
  intro unlinked
  refine ⟨log_session world record, fun _ => logsTo_log.mp, ?_,
    fun location _ => log_leavesAlone world record location⟩
  rcases log_tree_cases world record with same | ⟨place, content, more, executable, -, -, put⟩
  · rw [same]
    exact unlinked
  · rw [put]
    exact unlinked.put place (by simp)

end World

namespace Run

variable {touched : Location → Prop} {path : Path}

theorem placeAt_of_isAbsolute (cwd : Location) (rooted : path.isAbsolute = true) :
    Tree.placeAt cwd path = path.location := by
  simp [Tree.placeAt, Tree.startOf, rooted, Path.location]

theorem logAll_frame (touched : Location → Prop) (records : List Log.Record) (world : World) :
    World.Frame touched world ((logAll records).after world) := by
  rw [logAll_after]
  induction records generalizing world with
  | nil => exact World.Frame.refl touched world
  | cons record rest ih => exact (World.log_frame touched world record).trans (ih _)

theorem makeDirectories_frame (touched : Location → Prop) (path : Path) (world : World) :
    World.Frame touched world ((makeDirectories path).after world) := by
  rw [makeDirectories_after]
  apply World.frame_withTree
  · exact fun unlinked => (Tree.makeDirectories_grown unlinked _ path).unlinked unlinked
  · intro unlinked location _
    rcases Tree.makeDirectories_grown unlinked world.session.cwd path location with
      same | ⟨-, free, made⟩
    · exact .inl same
    · exact .inr ⟨free, made⟩

theorem write_frame (rooted : path.isAbsolute = true) (inside : touched path.location)
    (text : String) (world : World) :
    World.Frame touched world ((write path text).after world) := by
  rw [write_after]
  intro unlinked
  rcases Tree.write_cases world.tree world.session.cwd path text with
    ⟨_, -, same⟩ | ⟨location, executable, located, -, -, changed⟩
  · rw [same]
    exact World.frame_withTree (fun _ => unlinked) (fun _ _ _ => .inl rfl) unlinked
  · rw [changed, Tree.locate_eq unlinked located, placeAt_of_isAbsolute _ rooted]
    refine World.frame_withTree (fun _ => unlinked.put _ (by simp)) (fun _ location outside => ?_)
      unlinked
    have elsewhere : location ≠ path.location := fun same => outside (same ▸ inside)
    exact .inl (Tree.entry?_put_of_ne _ _ elsewhere)

theorem unlink_frame (rooted : path.isAbsolute = true) (inside : touched path.location)
    (world : World) : World.Frame touched world ((unlink path).after world) := by
  rw [unlink_after]
  intro unlinked
  rcases Tree.unlink_cases unlinked world.session.cwd path with ⟨_, -, same⟩ | ⟨_, _, -, erased, -⟩
  · rw [same]
    exact World.frame_withTree (fun _ => unlinked) (fun _ _ _ => .inl rfl) unlinked
  · rw [erased, placeAt_of_isAbsolute _ rooted]
    refine World.frame_withTree (fun _ => unlinked.erase _) (fun _ location outside => ?_) unlinked
    have elsewhere : location ≠ path.location := fun same => outside (same ▸ inside)
    exact .inl (Tree.entry?_erase_of_ne _ elsewhere)

theorem removeTree_frame (rooted : path.isAbsolute = true)
    (inside : ∀ location, path.location.covers location = true → touched location)
    (world : World) : World.Frame touched world ((removeTree path).after world) := by
  rw [removeTree_after]
  intro unlinked
  have cleared := unlinked.eraseBelow path.location
  have above : ∀ location, ¬ touched location →
      Tree.entry? (world.tree.eraseBelow path.location) location = world.tree.entry? location := by
    intro location outside
    rw [Tree.entry?_eraseBelow, if_neg]
    intro below
    have above := (Location.strictlyCovers_iff.mp below).1
    exact outside (inside location (Location.covers_iff.mpr above))
  rcases Tree.removeTree_cases unlinked world.session.cwd path with
    ⟨_, -, same | emptied⟩ | ⟨-, removed⟩
  · rw [same]
    exact World.frame_withTree (fun _ => unlinked) (fun _ _ _ => .inl rfl) unlinked
  · rw [emptied, placeAt_of_isAbsolute _ rooted]
    exact World.frame_withTree (fun _ => cleared)
      (fun _ location outside => .inl (above location outside)) unlinked
  · rw [removed, placeAt_of_isAbsolute _ rooted]
    refine World.frame_withTree (fun _ => cleared.erase _) (fun _ location outside => ?_) unlinked
    have elsewhere : location ≠ path.location := by
      rintro rfl
      exact outside (inside _ (Location.covers_iff.mpr List.prefix_rfl))
    exact .inl ((Tree.entry?_erase_of_ne _ elsewhere).trans (above location outside))

end Run

end FfiBindings
