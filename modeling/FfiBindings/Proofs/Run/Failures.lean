import FfiBindings.Proofs.Run.Steps

set_option autoImplicit false

namespace FfiBindings.Run

open ExceptT

variable {α : Type} {kind : Failure → Prop}

theorem onTree_failsOnly {work : TreeM α} (ofWork : FailsOnly (fun error => kind (.file error)) work) :
    FailsOnly kind (onTree work) := by
  intro world failure failed
  rw [onTree_outcome] at failed
  cases ended : work.outcome world.tree with
  | ok value =>
    rw [ended] at failed
    cases failed
  | error error =>
    rw [ended] at failed
    cases failed
    exact ofWork _ _ ended

theorem ask_failsOnly {question : Tree → Except FileError α}
    (ofAnswer : ∀ tree error, question tree = .error error → kind (.file error)) :
    FailsOnly kind (ask question) := by
  intro world failure failed
  rw [ask_outcome] at failed
  cases answer : question world.tree with
  | ok value =>
    rw [answer] at failed
    cases failed
  | error error =>
    rw [answer] at failed
    cases failed
    exact ofAnswer _ _ answer

theorem cwd_failsOnly : FailsOnly kind cwd :=
  fun _ _ failed => nomatch failed

theorem log_failsOnly (record : Log.Record) : FailsOnly kind (log record) :=
  fun _ _ failed => nomatch failed

theorem logAll_failsOnly (records : List Log.Record) : FailsOnly kind (logAll records) := by
  intro world failure failed
  rw [logAll_outcome] at failed
  cases failed

-- Whatever the tree answers, the failure says that it is about files.
def OfFiles (failure : Failure) : Prop :=
  ∃ error, failure = .file error

theorem pathExists_ofFiles (path : Path) : FailsOnly OfFiles (pathExists path) :=
  cwd_failsOnly.bind fun _ => ask_failsOnly fun _ error _ => ⟨error, rfl⟩

theorem makeDirectories_ofFiles (path : Path) : FailsOnly OfFiles (makeDirectories path) :=
  cwd_failsOnly.bind fun _ => onTree_failsOnly fun _ error _ => ⟨error, rfl⟩

theorem write_ofFiles (path : Path) (text : String) : FailsOnly OfFiles (write path text) :=
  cwd_failsOnly.bind fun _ => onTree_failsOnly fun _ error _ => ⟨error, rfl⟩

theorem unlink_ofFiles (path : Path) : FailsOnly OfFiles (unlink path) :=
  cwd_failsOnly.bind fun _ => onTree_failsOnly fun _ error _ => ⟨error, rfl⟩

end FfiBindings.Run
