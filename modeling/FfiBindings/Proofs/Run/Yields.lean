import FfiBindings.Proofs.Run.Steps
import FfiBindings.Proofs.Tree.Content

set_option autoImplicit false

namespace FfiBindings

open ExceptT

structure World.Bare (session : Session) (tree : Tree) (world : World) : Prop where
  session : world.session = session
  tree : world.tree = tree
  handlers : world.handlers = none

namespace Run

variable {α β : Type} {session : Session} {before middle after tree : Tree} {value : α} {result : β}

/-- From every world of one kind, a run succeeds with a value and leaves a world of another kind. -/
def Gives (given : World → Prop) (run : Run α) (value : α) (left : World → Prop) : Prop :=
  ∀ world : World, given world → run.outcome world = .ok value ∧ left (run.after world)

section Gives

variable {given between left : World → Prop}

theorem gives_pure (given : World → Prop) (value : α) : Gives given (pure value) value given :=
  fun _ holds => ⟨rfl, holds⟩

theorem Gives.bind {run : Run α} {next : α → Run β} (first : Gives given run value between)
    (second : Gives between (next value) result left) : Gives given (run >>= next) result left := by
  intro world holds
  obtain ⟨ended, kept⟩ := first world holds
  rw [outcome_bind, after_bind, ended]
  exact second _ kept

theorem gives_question {run : Run α} (same : ∀ world, run.after world = world)
    (answer : ∀ world, given world → run.outcome world = .ok value) : Gives given run value given := by
  intro world holds
  rw [same]
  exact ⟨answer world holds, holds⟩

theorem gives_get {next : World → Run β}
    (onward : ∀ world, given world → Gives given (next world) result left) :
    Gives given (get >>= next) result left :=
  fun world holds => onward world holds world holds

-- A question may be answered differently in different worlds, if both answers lead on.
theorem gives_either {run : Run Bool} {next : Bool → Run β} (same : ∀ world, run.after world = world)
    (answered : ∀ world, given world → ∃ answer, run.outcome world = .ok answer)
    (onward : ∀ answer, Gives (fun world => given world ∧ run.outcome world = .ok answer)
      (next answer) result left) : Gives given (run >>= next) result left := by
  intro world holds
  obtain ⟨answer, ended⟩ := answered world holds
  rw [outcome_bind, after_bind, ended, same]
  exact onward answer world ⟨holds, ended⟩

end Gives

def Ends (run : Run α) (session : Session) (before : Tree) (ended : Except Failure α) (after : Tree) :
    Prop :=
  ∀ world : World, world.Bare session before →
    run.outcome world = ended ∧ (run.after world).Bare session after

def Yields (run : Run α) (session : Session) (before : Tree) (value : α) (after : Tree) : Prop :=
  Ends run session before (.ok value) after

theorem yields_pure (value : α) (session : Session) (tree : Tree) :
    Yields (pure value) session tree value tree :=
  fun _ bare => ⟨rfl, bare⟩

theorem Yields.ends {run : Run α} {next : α → Run β} {ended : Except Failure β}
    (first : Yields run session before value middle)
    (second : Ends (next value) session middle ended after) :
    Ends (run >>= next) session before ended after := by
  intro world bare
  obtain ⟨succeeded, kept⟩ := first world bare
  rw [outcome_bind, after_bind, succeeded]
  exact second _ kept

theorem Yields.bind {run : Run α} {next : α → Run β}
    (first : Yields run session before value middle)
    (second : Yields (next value) session middle result after) :
    Yields (run >>= next) session before result after :=
  first.ends second

theorem Ends.bind_error {run : Run α} {failure : Failure}
    (first : Ends run session before (.error failure) after) (next : α → Run β) :
    Ends (run >>= next) session before (.error failure) after := by
  intro world bare
  obtain ⟨failed, kept⟩ := first world bare
  rw [outcome_bind, after_bind, failed]
  exact ⟨rfl, kept⟩

theorem ends_get {next : World → Run β} {ended : Except Failure β}
    (onward : ∀ world : World, world.Bare session before →
      Ends (next world) session before ended after) :
    Ends (get >>= next) session before ended after :=
  fun world bare => onward world bare world bare

theorem yields_ask {question : Tree → Except FileError α} (answer : question tree = .ok value) :
    Yields (ask question) session tree value tree := by
  intro world bare
  rw [ask_outcome, ask_after, bare.tree, answer]
  exact ⟨rfl, bare⟩

theorem ends_ask_error {question : Tree → Except FileError α} {error : FileError}
    (failed : question tree = .error error) :
    Ends (ask question) session tree (.error (.file error)) tree := by
  intro world bare
  rw [ask_outcome, ask_after, bare.tree, failed]
  exact ⟨rfl, bare⟩

theorem yields_onTree {work : TreeM α} (ended : work.outcome before = .ok value)
    (left : work.after before = after) : Yields (onTree work) session before value after := by
  intro world bare
  rw [onTree_outcome, onTree_after, bare.tree, ended, left]
  refine ⟨rfl, bare.session, rfl, ?_⟩
  simp [World.withTree, bare.handlers]

theorem yields_cwd : Yields cwd session tree session.cwd tree := by
  intro world bare
  rw [cwd_outcome, cwd_after, bare.session]
  exact ⟨rfl, bare⟩

theorem yields_log (record : Log.Record) : Yields (log record) session tree () tree := by
  intro world bare
  refine ⟨rfl, ?_⟩
  rw [log_after]
  obtain ⟨logged, console, changed, same | ⟨handlers, line, present, -⟩⟩ :=
    World.log_cases world record
  · rw [changed]
    exact ⟨bare.session, same.trans bare.tree, bare.handlers⟩
  · rw [bare.handlers] at present
    cases present

theorem yields_logAll (records : List Log.Record) :
    Yields (logAll records) session tree () tree := by
  induction records with
  | nil => exact yields_pure () session tree
  | cons record rest ih => exact (yields_log record).bind ih

theorem yields_pathExists {path : Path} {answer : Bool}
    (answered : tree.pathExists session.cwd path = .ok answer) :
    Yields (pathExists path) session tree answer tree :=
  yields_cwd.bind (yields_ask answered)

theorem ends_pathExists_error {path : Path} {error : FileError}
    (failed : tree.pathExists session.cwd path = .error error) :
    Ends (pathExists path) session tree (.error (.file error)) tree :=
  yields_cwd.ends (ends_ask_error failed)

theorem yields_isDirectory {path : Path} {answer : Bool}
    (answered : tree.isDirectory session.cwd path = .ok answer) :
    Yields (isDirectory path) session tree answer tree :=
  yields_cwd.bind (yields_ask answered)

theorem yields_makeDirectories {path : Path}
    (made : (Tree.makeDirectories session.cwd path).outcome before = .ok () ∧
      (Tree.makeDirectories session.cwd path).after before = after) :
    Yields (makeDirectories path) session before () after :=
  yields_cwd.bind (yields_onTree made.1 made.2)

theorem yields_write {path : Path} {text : String}
    (written : (Tree.write session.cwd path text).outcome before = .ok () ∧
      (Tree.write session.cwd path text).after before = after) :
    Yields (write path text) session before () after :=
  yields_cwd.bind (yields_onTree written.1 written.2)

theorem yields_unlink {path : Path}
    (removed : (Tree.unlink session.cwd path).outcome before = .ok () ∧
      (Tree.unlink session.cwd path).after before = after) :
    Yields (unlink path) session before () after :=
  yields_cwd.bind (yields_onTree removed.1 removed.2)

theorem yields_resolve {path : Path} {place : Location}
    (resolved : session.resolve tree path = .ok place) :
    Yields (resolve path) session tree place tree := by
  refine ends_get fun world bare => yields_ask ?_
  rw [bare.session, resolved]

theorem yields_loadSettings {path : Path} {settings : Settings}
    (accepted : Settings.load session tree path = .ok settings) :
    Yields (loadSettings path) session tree settings tree := by
  intro world bare
  rw [loadSettings_outcome, loadSettings_after, bare.session, bare.tree, accepted]
  exact ⟨rfl, bare⟩

end Run

end FfiBindings
