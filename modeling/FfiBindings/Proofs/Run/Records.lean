import FfiBindings.Proofs.Run.Frame
import FfiBindings.Proofs.Tree.Content

set_option autoImplicit false

namespace FfiBindings

open ExceptT

namespace World

def Notes (kind : Log.Record → Bool) (noted : List Log.Record) (before after : World) : Prop :=
  ∃ fresh, after.records = before.records ++ fresh ∧ fresh.filter kind = noted

def LogsThrough (world : World) (path : Path) : Prop :=
  ∃ location, world.LogsTo location ∧
    world.tree.locate world.session.cwd true path = .ok location

/-- A file holds a text, and nothing behind it but lines of the log. -/
def HoldsText (world : World) (path : Path) (text : String) : Prop :=
  ∃ more, world.tree.readBytes world.session.cwd path = .ok (Text.utf8 text ++ more) ∧
    (more = [] ∨ world.LogsThrough path)

variable {kind : Log.Record → Bool} {noted others : List Log.Record}
  {before middle after world : World}

theorem Notes.refl (kind : Log.Record → Bool) (world : World) : Notes kind [] world world :=
  ⟨[], (List.append_nil _).symm, rfl⟩

theorem Notes.trans (first : Notes kind noted before middle)
    (second : Notes kind others middle after) : Notes kind (noted ++ others) before after := by
  obtain ⟨fresh, records, rfl⟩ := first
  obtain ⟨later, laterRecords, rfl⟩ := second
  refine ⟨fresh ++ later, ?_, List.filter_append ..⟩
  rw [laterRecords, records, List.append_assoc]

instance (kind : Log.Record → Bool) : IsPreorder World (Notes kind []) where
  refl := Notes.refl kind
  trans _ _ _ first second := first.trans second

theorem notes_of_records_eq (same : after.records = before.records) :
    Notes kind [] before after :=
  ⟨[], by rw [same, List.append_nil], rfl⟩

theorem notes_log {record : Log.Record} (ofKind : kind record = true) (world : World) :
    Notes kind [record] world (world.log record) :=
  ⟨[record], log_records world record, by simp [ofKind]⟩

theorem notes_log_other {record : Log.Record} (other : kind record = false) (world : World) :
    Notes kind [] world (world.log record) :=
  ⟨[record], log_records world record, by simp [other]⟩

theorem locate_log {path : Path} {location : Location}
    (located : world.tree.locate world.session.cwd true path = .ok location)
    (record : Log.Record) :
    (world.log record).tree.locate world.session.cwd true path = .ok location := by
  rcases log_tree_cases world record with same | ⟨place, content, more, executable, -, held, put⟩
  · rw [same]
    exact located
  · rw [put]
    exact Tree.locate_put_file (Tree.writable_of_file held) _ _ located

theorem LogsThrough.log {path : Path} (through : world.LogsThrough path) (record : Log.Record) :
    (world.log record).LogsThrough path := by
  obtain ⟨location, logged, located⟩ := through
  refine ⟨location, logsTo_log.mpr logged, ?_⟩
  rw [log_session]
  exact locate_log located record

theorem readBytes_log {path : Path} {bytes : Text.Bytes}
    (read : world.tree.readBytes world.session.cwd path = .ok bytes) (record : Log.Record) :
    ∃ more, (world.log record).tree.readBytes world.session.cwd path = .ok (bytes ++ more) ∧
      (more = [] ∨ world.LogsThrough path) := by
  obtain ⟨runnable, status⟩ := Tree.readBytes_eq_ok.mp read
  obtain ⟨location, located, found⟩ := Tree.status_eq_ok.mp status
  have stays := locate_log located record
  rcases log_tree_cases world record with
    same | ⟨place, content, more, executable, logged, held, put⟩
  · refine ⟨[], ?_, .inl rfl⟩
    rw [same, read, List.append_nil]
  · rw [put] at stays ⊢
    -- The log may go to the very file that is read.
    by_cases here : location = place
    · subst here
      obtain ⟨rfl, rfl⟩ : content = bytes ∧ executable = runnable := by
        simpa using held.symm.trans found
      have longer := Tree.entry?_put_self world.tree (.file (content ++ more) executable)
        (Tree.writable_of_file held).ne_nil
      refine ⟨more, ?_, .inr ⟨location, logged, located⟩⟩
      exact Tree.readBytes_eq_ok.mpr ⟨executable, Tree.status_eq_ok.mpr ⟨location, stays, longer⟩⟩
    · have kept := Tree.entry?_put_of_ne world.tree (.file (content ++ more) executable) here
      refine ⟨[], ?_, .inl rfl⟩
      rw [List.append_nil]
      exact Tree.readBytes_eq_ok.mpr
        ⟨runnable, Tree.status_eq_ok.mpr ⟨location, stays, kept.trans found⟩⟩

theorem HoldsText.log {path : Path} {text : String} (holds : world.HoldsText path text)
    (record : Log.Record) : (world.log record).HoldsText path text := by
  obtain ⟨more, read, origin⟩ := holds
  obtain ⟨line, readOn, added⟩ := readBytes_log read record
  refine ⟨more ++ line, ?_, ?_⟩
  · rw [log_session, readOn, List.append_assoc]
  · rcases origin with rfl | through
    · rcases added with rfl | through
      · exact .inl rfl
      · exact .inr (through.log record)
    · exact .inr (through.log record)

end World

namespace Run

theorem log_notes {kind : Log.Record → Bool} {record : Log.Record} (ofKind : kind record = true)
    (world : World) : World.Notes kind [record] world ((log record).after world) :=
  World.notes_log ofKind world

theorem log_notes_other {kind : Log.Record → Bool} {record : Log.Record}
    (other : kind record = false) (world : World) :
    World.Notes kind [] world ((log record).after world) :=
  World.notes_log_other other world

theorem onTree_notes (kind : Log.Record → Bool) {α : Type} (work : TreeM α) (world : World) :
    World.Notes kind [] world ((onTree work).after world) := by
  rw [onTree_after]
  exact World.notes_of_records_eq (World.withTree_records _ _)

theorem makeDirectories_notes (kind : Log.Record → Bool) (path : Path) (world : World) :
    World.Notes kind [] world ((makeDirectories path).after world) :=
  rel_after_bind (World.Notes.refl kind world) fun _ _ => onTree_notes kind _ world

theorem write_notes (kind : Log.Record → Bool) (path : Path) (text : String) (world : World) :
    World.Notes kind [] world ((write path text).after world) :=
  rel_after_bind (World.Notes.refl kind world) fun _ _ => onTree_notes kind _ world

theorem unlink_notes (kind : Log.Record → Bool) (path : Path) (world : World) :
    World.Notes kind [] world ((unlink path).after world) :=
  rel_after_bind (World.Notes.refl kind world) fun _ _ => onTree_notes kind _ world

theorem logAll_notes {kind : Log.Record → Bool} {records : List Log.Record}
    (other : ∀ record ∈ records, kind record = false) (world : World) :
    World.Notes kind [] world ((logAll records).after world) := by
  rw [logAll_after]
  induction records generalizing world with
  | nil => exact World.Notes.refl kind world
  | cons record rest ih =>
    rw [List.forall_mem_cons] at other
    exact (World.notes_log_other other.1 world).trans (ih other.2 _)

theorem write_holdsText {path : Path} {text : String} {world : World}
    (succeeds : (write path text).outcome world = .ok ()) :
    ((write path text).after world).HoldsText path text := by
  rw [write_outcome, Except.mapError_eq_ok] at succeeds
  rw [write_after]
  refine ⟨[], ?_, .inl rfl⟩
  rw [List.append_nil]
  exact Tree.readBytes_write succeeds

end Run

end FfiBindings
