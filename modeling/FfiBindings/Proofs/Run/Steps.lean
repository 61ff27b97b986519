import FfiBindings.Proofs.Work
import FfiBindings.Run.World

set_option autoImplicit false

namespace FfiBindings

open ExceptT

namespace World

theorem appendLine_cases (tree : Tree) (file : Log.LogFile) (line : String) :
    appendLine tree file line = tree ∨ ∃ location content executable,
      file = .attached location ∧
        tree.entry? location = some (.file content executable) ∧
        appendLine tree file line =
          tree.put location (.file (content ++ Text.utf8 (line ++ "\n")) executable) := by
  unfold appendLine
  split
  · next location =>
    split
    · next content executable held => exact .inr ⟨location, content, executable, rfl, held, rfl⟩
    · exact .inl rfl
  · exact .inl rfl

theorem handlers_of_handlersFor {world : World} {record : Log.Record} {handlers : Log.Handlers}
    (handled : world.handlersFor record = some handlers) : world.handlers = some handlers := by
  unfold handlersFor at handled
  split at handled
  · exact handled
  · cases handled

theorem log_cases (world : World) (record : Log.Record) :
    ∃ tree console,
      world.log record = { world with tree, console, records := world.records ++ [record] } ∧
      (tree = world.tree ∨ ∃ handlers line, world.handlers = some handlers ∧
        tree = appendLine world.tree handlers.file line) := by
  unfold log
  cases handled : world.handlersFor record with
  | none =>
    simp only
    split
    · exact ⟨_, _, rfl, .inl rfl⟩
    · exact ⟨_, _, rfl, .inl rfl⟩
  | some handlers =>
    have attached := handlers_of_handlersFor handled
    simp only
    split
    · exact ⟨_, _, rfl, .inr ⟨handlers, _, attached, rfl⟩⟩
    · exact ⟨_, _, rfl, .inl rfl⟩

@[simp] theorem log_records (world : World) (record : Log.Record) :
    (world.log record).records = world.records ++ [record] := by
  obtain ⟨tree, console, logged, -⟩ := log_cases world record
  rw [logged]

@[simp] theorem log_session (world : World) (record : Log.Record) :
    (world.log record).session = world.session := by
  obtain ⟨tree, console, logged, -⟩ := log_cases world record
  rw [logged]

@[simp] theorem log_calls (world : World) (record : Log.Record) :
    (world.log record).calls = world.calls := by
  obtain ⟨tree, console, logged, -⟩ := log_cases world record
  rw [logged]

@[simp] theorem log_handlers (world : World) (record : Log.Record) :
    (world.log record).handlers = world.handlers := by
  obtain ⟨tree, console, logged, -⟩ := log_cases world record
  rw [logged]

@[simp] theorem withTree_tree (world : World) (tree : Tree) : (world.withTree tree).tree = tree :=
  rfl

@[simp] theorem withTree_session (world : World) (tree : Tree) :
    (world.withTree tree).session = world.session := rfl

@[simp] theorem withTree_calls (world : World) (tree : Tree) :
    (world.withTree tree).calls = world.calls := rfl

@[simp] theorem withTree_records (world : World) (tree : Tree) :
    (world.withTree tree).records = world.records := rfl

end World

namespace Run

@[simp] theorem onTree_outcome {α : Type} (work : TreeM α) (world : World) :
    (onTree work).outcome world = (work.outcome world.tree).mapError .file := by
  rcases ran : Id.run (StateT.run (ExceptT.run work) world.tree) with ⟨result, tree⟩
  have ended : work.outcome world.tree = result := congrArg Prod.fst ran
  rw [ended]
  simp only [onTree, outcome_bind, outcome_get, after_get, ran, outcome_set, after_set]
  cases result <;> rfl

@[simp] theorem onTree_after {α : Type} (work : TreeM α) (world : World) :
    (onTree work).after world = world.withTree (work.after world.tree) := by
  rcases ran : Id.run (StateT.run (ExceptT.run work) world.tree) with ⟨result, tree⟩
  have left : work.after world.tree = tree := congrArg Prod.snd ran
  rw [left]
  simp only [onTree, after_bind, outcome_get, after_get, ran, outcome_set, after_set]
  cases result <;> rfl

@[simp] theorem ask_outcome {α : Type} (question : Tree → Except FileError α) (world : World) :
    (ask question).outcome world = (question world.tree).mapError .file := by
  unfold ask
  simp only [outcome_bind, outcome_get, after_get]
  cases question world.tree <;> rfl

@[simp] theorem ask_after {α : Type} (question : Tree → Except FileError α) (world : World) :
    (ask question).after world = world := by
  unfold ask
  simp only [after_bind, outcome_get, after_get]
  cases question world.tree <;> rfl

@[simp] theorem cwd_outcome (world : World) : cwd.outcome world = .ok world.session.cwd := rfl

@[simp] theorem cwd_after (world : World) : cwd.after world = world := rfl

@[simp] theorem log_outcome (record : Log.Record) (world : World) :
    (log record).outcome world = .ok () := rfl

@[simp] theorem log_after (record : Log.Record) (world : World) :
    (log record).after world = world.log record := rfl

@[simp] theorem logAll_outcome (records : List Log.Record) (world : World) :
    (logAll records).outcome world = .ok () := by
  induction records generalizing world with
  | nil => rfl
  | cons record rest ih =>
    change outcome (log record >>= fun _ => logAll rest) world = _
    rw [outcome_bind]
    exact ih _

@[simp] theorem logAll_after (records : List Log.Record) (world : World) :
    (logAll records).after world = records.foldl World.log world := by
  induction records generalizing world with
  | nil => rfl
  | cons record rest ih =>
    change after (log record >>= fun _ => logAll rest) world = _
    rw [after_bind]
    exact ih _

@[simp] theorem pathExists_outcome (path : Path) (world : World) :
    (pathExists path).outcome world =
      (world.tree.pathExists world.session.cwd path).mapError .file := by
  simp [pathExists, outcome_bind]

@[simp] theorem pathExists_after (path : Path) (world : World) :
    (pathExists path).after world = world := by
  simp [pathExists, after_bind]

@[simp] theorem isDirectory_outcome (path : Path) (world : World) :
    (isDirectory path).outcome world =
      (world.tree.isDirectory world.session.cwd path).mapError .file := by
  simp [isDirectory, outcome_bind]

@[simp] theorem isDirectory_after (path : Path) (world : World) :
    (isDirectory path).after world = world := by
  simp [isDirectory, after_bind]

@[simp] theorem makeDirectories_outcome (path : Path) (world : World) :
    (makeDirectories path).outcome world =
      ((Tree.makeDirectories world.session.cwd path).outcome world.tree).mapError .file := by
  simp [makeDirectories, outcome_bind]

@[simp] theorem makeDirectories_after (path : Path) (world : World) :
    (makeDirectories path).after world =
      world.withTree ((Tree.makeDirectories world.session.cwd path).after world.tree) := by
  simp [makeDirectories, after_bind]

@[simp] theorem write_after (path : Path) (text : String) (world : World) :
    (write path text).after world =
      world.withTree ((Tree.write world.session.cwd path text).after world.tree) := by
  simp [write, after_bind]

@[simp] theorem write_outcome (path : Path) (text : String) (world : World) :
    (write path text).outcome world =
      ((Tree.write world.session.cwd path text).outcome world.tree).mapError .file := by
  simp [write, outcome_bind]

@[simp] theorem unlink_outcome (path : Path) (world : World) :
    (unlink path).outcome world =
      ((Tree.unlink world.session.cwd path).outcome world.tree).mapError .file := by
  simp [unlink, outcome_bind]

@[simp] theorem unlink_after (path : Path) (world : World) :
    (unlink path).after world =
      world.withTree ((Tree.unlink world.session.cwd path).after world.tree) := by
  simp [unlink, after_bind]

@[simp] theorem removeTree_outcome (path : Path) (world : World) :
    (removeTree path).outcome world =
      ((Tree.removeTree world.session.cwd path).outcome world.tree).mapError .file := by
  simp [removeTree, outcome_bind]

@[simp] theorem removeTree_after (path : Path) (world : World) :
    (removeTree path).after world =
      world.withTree ((Tree.removeTree world.session.cwd path).after world.tree) := by
  simp [removeTree, after_bind]

@[simp] theorem resolve_outcome (path : Path) (world : World) :
    (resolve path).outcome world = (world.session.resolve world.tree path).mapError .file := by
  simp [resolve, outcome_bind]

@[simp] theorem resolve_after (path : Path) (world : World) :
    (resolve path).after world = world := by
  simp [resolve, after_bind]

@[simp] theorem loadSettings_outcome (path : Path) (world : World) :
    (loadSettings path).outcome world =
      (Settings.load world.session world.tree path).mapError .settings := by
  unfold loadSettings
  simp only [outcome_bind, outcome_get, after_get]
  cases Settings.load world.session world.tree path <;> rfl

@[simp] theorem loadSettings_after (path : Path) (world : World) :
    (loadSettings path).after world = world := by
  unfold loadSettings
  simp only [after_bind, outcome_get, after_get]
  cases Settings.load world.session world.tree path <;> rfl

end Run

end FfiBindings
