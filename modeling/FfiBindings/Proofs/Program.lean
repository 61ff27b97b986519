import FfiBindings.Program
import FfiBindings.Proofs.Cleanup
import FfiBindings.Proofs.Run.Failures
import FfiBindings.Proofs.Tree.Growth

set_option autoImplicit false

namespace FfiBindings

open ExceptT

namespace Tree

variable {cwd : Location} {path : Path}

theorem leadsTo_error {tree : Tree} {property : Entry → Bool} {error : FileError}
    (failed : tree.leadsTo cwd path property = .error error) : error.nature = .system := by
  unfold leadsTo at failed
  split at failed
  · cases failed
  · split at failed
    · cases failed
    · cases failed
      rfl
  · cases failed

theorem unlink_failsOnly : FailsOnly (·.nature = .system) (unlink cwd path) := by
  intro tree error failed
  simp only [unlink, outcome_bind, outcome_get, after_get] at failed
  split at failed
  · cases failed
    rfl
  · split at failed
    · cases failed
      rfl
    · cases failed
      rfl
    · cases failed

theorem removeDirectory_failsOnly : FailsOnly (·.nature = .system) (removeDirectory cwd path) := by
  intro tree error failed
  simp only [removeDirectory, outcome_bind, outcome_get, after_get] at failed
  split at failed
  · cases failed
    rfl
  · split at failed
    · cases failed
      rfl
    · split at failed
      · cases failed
      · cases failed
        rfl

theorem removeTree_failsOnly : FailsOnly (·.nature = .system) (removeTree cwd path) := by
  intro tree error failed
  simp only [removeTree, outcome_bind, outcome_get, after_get] at failed
  split at failed
  · cases failed
    rfl
  · split at failed
    · cases failed
      rfl
    · cases failed
      rfl
    · cases failed
      rfl
    · exact removeDirectory_failsOnly _ _ failed

end Tree

namespace Run

theorem pathExists_failsOnly (path : Path) : FailsOnly (·.nature = .system) (pathExists path) :=
  cwd_failsOnly.bind fun _ => ask_failsOnly fun _ _ => Tree.leadsTo_error

theorem isDirectory_failsOnly (path : Path) : FailsOnly (·.nature = .system) (isDirectory path) :=
  cwd_failsOnly.bind fun _ => ask_failsOnly fun _ _ => Tree.leadsTo_error

theorem unlink_failsOnly (path : Path) : FailsOnly (·.nature = .system) (unlink path) :=
  cwd_failsOnly.bind fun _ => onTree_failsOnly Tree.unlink_failsOnly

theorem removeTree_failsOnly (path : Path) : FailsOnly (·.nature = .system) (removeTree path) :=
  cwd_failsOnly.bind fun _ => onTree_failsOnly Tree.removeTree_failsOnly

end Run

namespace Cleanup

theorem removeFile_failsOnly (path : Path) : FailsOnly (·.nature = .system) (removeFile path) := by
  refine (Run.pathExists_failsOnly path).bind fun present => ?_
  cases present
  · exact failsOnly_pure _ _
  · exact (Run.unlink_failsOnly path).bind fun _ => failsOnly_pure _ _

theorem removeOutput_failsOnly (path : Path) :
    FailsOnly (·.nature = .system) (removeOutput path) := by
  refine (Run.isDirectory_failsOnly path).bind fun directory => ?_
  cases directory
  · exact removeFile_failsOnly path
  · exact (Run.removeTree_failsOnly path).bind fun _ => failsOnly_pure _ _

theorem clean_failsOnly (layout : Layout) : FailsOnly (·.nature = .system) (clean layout) :=
  (removeOutput_failsOnly _).bind fun _ => (removeOutput_failsOnly _).bind fun _ =>
    (removeFile_failsOnly _).bind fun _ => (Run.logAll_failsOnly _).bind fun _ =>
      failsOnly_pure _ _

end Cleanup

def Nature.Unexpected (nature : Nature) : Prop :=
  nature ≠ .configuration ∧ nature ≠ .system

namespace Program

open CommandLine

variable {α : Type} {tools : Tools} {world : World} {directory : Path} {failure : Failure}

theorem reporting_outcome (report? : Failure → Option String) (work : Run α)
    (finish : α → Run Exit) (world : World) :
    (reporting report? work finish).outcome world =
      match work.outcome world with
      | .ok value => (finish value).outcome (work.after world)
      | .error failure =>
        match report? failure with
        | some _ => .ok { code := 1, output := "" }
        | none => .error failure := by
  simp only [reporting, outcome_bind, outcome_tryCatch, after_tryCatch, outcome_map, after_map]
  cases work.outcome world with
  | ok value => rfl
  | error failure =>
    cases reported : report? failure with
    | none => simp [Except.map, reported]
    | some message => simp [Except.map, reported, exitWith]

theorem cleanReport?_eq_none : cleanReport? failure = none ↔ failure.nature.Unexpected := by
  unfold cleanReport? Nature.Unexpected
  cases failure.nature <;> simp

def Lost (world : World) : Prop :=
  world.tree.entry? world.session.cwd ≠ some .directory

def lostDirectory : Failure := .file (.system .missing "")

theorem currentDirectory_cases (world : World) :
    currentDirectory.outcome world = .ok world.session.cwd ∧ ¬ Lost world ∨
      currentDirectory.outcome world = .error lostDirectory ∧ Lost world := by
  simp only [currentDirectory, outcome_bind, outcome_get, after_get]
  by_cases stands : world.tree.entry? world.session.cwd = some .directory
  · exact .inl ⟨by simp [stands], by simpa [Lost] using stands⟩
  · exact .inr ⟨by simp [stands, lostDirectory], stands⟩

theorem showing_eq_error_iff {shown : Location → Exit} :
    outcome (do return shown (← currentDirectory)) world = .error failure ↔
      Lost world ∧ failure = lostDirectory := by
  rw [outcome_bind]
  rcases currentDirectory_cases world with ⟨found, stands⟩ | ⟨failed, lost⟩
  · simp [found, stands]
  · simp [failed, lost, eq_comm]

theorem showing_eq_ok {shown : Location → Exit} {exit : Exit}
    (succeeds : outcome (do return shown (← currentDirectory)) world = .ok exit) :
    ∃ here, exit = shown here := by
  obtain ⟨here, -, ended, -⟩ := outcome_bind_eq_ok succeeds
  exact ⟨here, (Except.ok.inj ended).symm⟩

section Reporting

variable {report? : Failure → Option String} {work : Run α} {finish : α → Run Exit}

theorem reporting_eq_error_iff :
    (reporting report? work finish).outcome world = .error failure ↔
      (work.outcome world = .error failure ∧ report? failure = none) ∨
      ∃ value, work.outcome world = .ok value ∧
        (finish value).outcome (work.after world) = .error failure := by
  rw [reporting_outcome]
  cases work.outcome world with
  | ok value => simp
  | error earlier =>
    cases reported : report? earlier with
    | none =>
      simp only [reported, Except.error.injEq, reduceCtorEq, false_and, exists_false, or_false]
      exact ⟨fun same => ⟨same, same ▸ reported⟩, And.left⟩
    | some message =>
      simp only [reported, Except.error.injEq, reduceCtorEq, false_and, exists_false, or_false,
        false_iff]
      rintro ⟨rfl, unreported⟩
      simp [reported] at unreported

theorem reporting_eq_ok {exit : Exit}
    (succeeds : (reporting report? work finish).outcome world = .ok exit) :
    exit.code = 1 ∨ ∃ value, (finish value).outcome (work.after world) = .ok exit := by
  rw [reporting_outcome] at succeeds
  split at succeeds
  · next value _ => exact .inr ⟨value, succeeds⟩
  · split at succeeds
    · cases succeeds
      exact .inl rfl
    · cases succeeds

end Reporting

/-- Why cleaning does not come to a layout: the directory leads nowhere, or its settings are refused. -/
inductive Unfound (directory : Path) (world : World) : Failure → Prop
  | directory {error : FileError}
      (failed : world.session.resolve world.tree directory = .error error) :
      Unfound directory world (.file error)
  | settings {root : Location} {error : SettingsError}
      (resolved : world.session.resolve world.tree directory = .ok root)
      (refused : Settings.load world.session world.tree root.path = .error error) :
      Unfound directory world (.settings error)
  | root {root : Location} {settings : Settings} {error : FileError}
      (resolved : world.session.resolve world.tree directory = .ok root)
      (accepted : Settings.load world.session world.tree root.path = .ok settings)
      (failed : world.session.resolve world.tree root.path = .error error) :
      Unfound directory world (.file error)

theorem cleanProject_eq_error
    (failed : (cleanProject directory).outcome world = .error failure) :
    Unfound directory world failure ∨ failure.nature = .system := by
  simp only [cleanProject, outcome_bind, Run.resolve_outcome, Run.resolve_after] at failed
  cases resolved : world.session.resolve world.tree directory with
  | error error =>
    rw [resolved] at failed
    cases failed
    exact .inl (.directory resolved)
  | ok root =>
    simp only [resolved, Except.mapError_ok, Run.loadSettings_outcome, Run.loadSettings_after]
      at failed
    cases loaded : Settings.load world.session world.tree root.path with
    | error error =>
      rw [loaded] at failed
      cases failed
      exact .inl (.settings resolved loaded)
    | ok settings =>
      simp only [loaded, Except.mapError_ok, Generation.layoutOf, outcome_bind,
        Run.resolve_outcome, Run.resolve_after] at failed
      cases again : world.session.resolve world.tree root.path with
      | error error =>
        rw [again] at failed
        cases failed
        exact .inl (.root resolved loaded again)
      | ok place =>
        -- From here on the outputs are known, and only removing them is left.
        simp only [again, Except.mapError_ok, outcome_pure, after_bind_pure, Run.resolve_after] at failed
        split at failed
        · cases failed
        · next stopped =>
          cases failed
          exact .inr (Cleanup.clean_failsOnly _ _ _ stopped)

theorem Unfound.cleanProject_eq (unfound : Unfound directory world failure) :
    (cleanProject directory).outcome world = .error failure := by
  cases unfound with
  | directory failed => simp [cleanProject, outcome_bind, failed, Except.mapError]
  | settings resolved refused =>
    simp [cleanProject, outcome_bind, resolved, refused, Except.mapError]
  | root resolved accepted failed =>
    simp [cleanProject, Generation.layoutOf, outcome_bind, resolved, accepted, failed,
      Except.mapError]

/-- The failures that leave the program while it does what it was asked for. -/
inductive Escape (tools : Tools) (world : World) : Command → Failure → Prop
  | unfound {directory : String} {failure : Failure}
      (unfound : Unfound (Path.ofString directory) world failure)
      (unexpected : failure.nature.Unexpected) :
      Escape tools world (.clean directory) failure
  | cleaned {directory : String} {root : Path}
      (done : (cleanProject (Path.ofString directory)).outcome world = .ok root)
      (lost : Lost ((cleanProject (Path.ofString directory)).after world)) :
      Escape tools world (.clean directory) lostDirectory
  | generated {directory : String} {skipCompile : Bool} {report : Report}
      (done : (generate tools skipCompile (Path.ofString directory)).outcome world = .ok report)
      (lost : Lost ((generate tools skipCompile (Path.ofString directory)).after world)) :
      Escape tools world (.generate directory skipCompile) lostDirectory

theorem runGenerate_eq_error_iff {directory : String} {skipCompile : Bool} :
    (runGenerate tools directory skipCompile).outcome world = .error failure ↔
      Escape tools world (.generate directory skipCompile) failure := by
  rw [runGenerate, reporting_eq_error_iff]
  constructor
  · rintro (⟨-, unreported⟩ | ⟨report, done, failed⟩)
    · cases unreported
    · obtain ⟨lost, rfl⟩ := showing_eq_error_iff.mp failed
      exact .generated done lost
  · rintro (_ | _ | ⟨done, lost⟩)
    exact .inr ⟨_, done, showing_eq_error_iff.mpr ⟨lost, rfl⟩⟩

theorem runClean_eq_error_iff (tools : Tools) {directory : String} :
    (runClean directory).outcome world = .error failure ↔
      Escape tools world (.clean directory) failure := by
  rw [runClean, reporting_eq_error_iff, cleanReport?_eq_none]
  constructor
  · rintro (⟨failed, unexpected⟩ | ⟨root, done, failed⟩)
    · rcases cleanProject_eq_error failed with unfound | system
      · exact .unfound unfound unexpected
      · exact absurd system unexpected.2
    · obtain ⟨lost, rfl⟩ := showing_eq_error_iff.mp failed
      exact .cleaned done lost
  · rintro (⟨unfound, unexpected⟩ | ⟨done, lost⟩ | _)
    · exact .inl ⟨unfound.cleanProject_eq, unexpected⟩
    · exact .inr ⟨_, done, showing_eq_error_iff.mpr ⟨lost, rfl⟩⟩

theorem runGenerate_eq_ok {directory : String} {skipCompile : Bool} {exit : Exit}
    (succeeds : (runGenerate tools directory skipCompile).outcome world = .ok exit) :
    exit.code ≤ 1 := by
  rcases reporting_eq_ok succeeds with reported | ⟨report, shown⟩
  · omega
  · obtain ⟨here, rfl⟩ := showing_eq_ok shown
    exact Nat.zero_le 1

theorem runClean_eq_ok {directory : String} {exit : Exit}
    (succeeds : (runClean directory).outcome world = .ok exit) : exit.code ≤ 1 := by
  rcases reporting_eq_ok succeeds with reported | ⟨root, shown⟩
  · omega
  · obtain ⟨here, rfl⟩ := showing_eq_ok shown
    exact Nat.zero_le 1

theorem runRequest_eq_ok {request : Request} {exit : Exit}
    (succeeds : (runRequest tools request).outcome world = .ok exit) : exit.code ≤ 1 := by
  obtain ⟨_, -, ended, -⟩ := outcome_bind_eq_ok succeeds
  cases asked : request.command with
  | generate directory skipCompile =>
    rw [asked] at ended
    exact runGenerate_eq_ok ended
  | clean directory =>
    rw [asked] at ended
    exact runClean_eq_ok ended

theorem runRequest_eq_error_iff {request : Request} :
    (runRequest tools request).outcome world = .error failure ↔
      (Log.configure request.verbose request.logFile).outcome world = .error failure ∨
      ((Log.configure request.verbose request.logFile).outcome world = .ok () ∧
        Escape tools ((Log.configure request.verbose request.logFile).after world)
          request.command failure) := by
  rw [runRequest, outcome_bind]
  cases opened : (Log.configure request.verbose request.logFile).outcome world with
  | error refused => simp
  | ok _ =>
    cases request.command with
    | generate directory skipCompile => simp [runGenerate_eq_error_iff]
    | clean directory => simp [runClean_eq_error_iff tools]

/-- The program exits with 0, 1 or 2 unless one of exactly these failures leaves it: the log file
could not be opened, or the command ran into one that it does not report. -/
theorem run_exits_or_escapes (tools : Tools) (arguments : List String) (world : World) :
    (∀ exit, (run tools arguments).outcome world = .ok exit → exit.code ≤ 2) ∧
    ∀ failure, (run tools arguments).outcome world = .error failure ↔
      ∃ request, parse arguments = .ok request ∧
        ((Log.configure request.verbose request.logFile).outcome world = .error failure ∨
          ((Log.configure request.verbose request.logFile).outcome world = .ok () ∧
            Escape tools ((Log.configure request.verbose request.logFile).after world)
              request.command failure)) := by
  cases parsed : parse arguments with
  | error ending =>
    have ended : (run tools arguments).outcome world =
        .ok { code := ending.exitCode, output := ending.output } := by
      simp only [run, parsed, outcome_bind, outcome_modify, outcome_pure]
    rw [ended]
    refine ⟨?_, by simp⟩
    rintro exit ⟨⟩
    cases ending <;> simp [Ending.exitCode]
  | ok request =>
    have ended : (run tools arguments).outcome world =
        (runRequest tools request).outcome world := by
      simp only [run, parsed]
    rw [ended]
    refine ⟨fun exit succeeds => ?_, fun failure => ?_⟩
    · have reported := runRequest_eq_ok succeeds
      omega
    · simp [runRequest_eq_error_iff]

end Program

theorem Settings.load_undecodable {session : Session} {tree : Tree} {root : Location}
    {bytes : Text.Bytes} {failure : Text.Utf8.Failure}
    (straight : tree.Straight (root ++ [settingsFileName])) (clear : ".." ∉ root)
    (plain : root.any containsNul = false) (other : root.getLastD "" ≠ settingsFileName)
    (read : tree.readBytes session.cwd (Location.path (root ++ [settingsFileName])) = .ok bytes)
    (undecodable : Text.Utf8.decode? bytes = .error failure) :
    load session tree root.path = .error (.encoding failure) := by
  rw [load_read straight clear plain other read, entriesOfBytes, undecodable]
  rfl

namespace Program

open CommandLine

def undecodableSettings : World :=
  { tree := { entries := [(["p"], .directory), (["p", ".rustport.yml"], .file [0xff] false)] }
    session := { cwd := [], homes := [] }
    time := "12:00:00" }

-- Not everything is reported: these settings stop a cleaning with a failure that escapes.
theorem undecodableSettings_escape :
    (run { runner := { run := fun _ _ tree => (.succeeded, tree) } } ["clean", "p"]).outcome
        undecodableSettings =
      .error (.settings (.encoding
        { offset := 0, length := 1, byte := 0xff, defect := .startByte })) := by
  have parsed : parse ["clean", "p"] =
      .ok { verbose := false, logFile := none, command := .clean "p" } := by rfl
  have regular : undecodableSettings.tree.Regular := by decide
  have resolved : undecodableSettings.tree.resolve [] (Path.ofString "p") = .ok ["p"] :=
    regular.resolve_held rfl []
  have read : undecodableSettings.tree.readBytes [] (Location.path ["p", settingsFileName]) =
      .ok [0xff] := regular.readBytes_held rfl []
  have undecodable : Text.Utf8.decode? [0xff] =
      .error { offset := 0, length := 1, byte := 0xff, defect := .startByte } := by
    have malformed : Text.Utf8.piece 0xff [] = (.malformed 1 .startByte, 1) := rfl
    simp [Text.Utf8.decode?, Text.Utf8.pieces, malformed, Text.Utf8.readPieces]
  simp only [run, parsed]
  rw [runRequest_eq_error_iff]
  refine .inr ⟨rfl, .unfound (.settings resolved ?_) ⟨by decide, by decide⟩⟩
  exact Settings.load_undecodable (by decide) (by decide) (by decide) (by decide) read undecodable

end Program

end FfiBindings
