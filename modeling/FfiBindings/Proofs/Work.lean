import Mathlib.Order.Defs.Unbundled

set_option autoImplicit false

namespace Except

variable {ε ε' α β : Type}

theorem ok_bind (value : α) (next : α → Except ε β) : (Except.ok value >>= next) = next value := rfl

theorem bind_eq_ok {first : Except ε α} {next : α → Except ε β} {result : β} :
    (first >>= next) = .ok result ↔ ∃ value, first = .ok value ∧ next value = .ok result := by
  cases first <;> simp [bind, Except.bind]

theorem map_eq_ok {first : Except ε α} {change : α → β} {result : β} :
    first.map change = .ok result ↔ ∃ value, first = .ok value ∧ change value = result := by
  cases first <;> simp [Except.map]

@[simp] theorem mapError_ok (value : α) (change : ε → ε') :
    (Except.ok value : Except ε α).mapError change = .ok value := rfl

theorem mapError_eq_ok {first : Except ε α} {change : ε → ε'} {value : α} :
    first.mapError change = .ok value ↔ first = .ok value := by
  cases first with
  | ok result => simp
  | error error => exact ⟨fun ended => (nomatch ended), fun ended => (nomatch ended)⟩

end Except

namespace ExceptT

variable {ε σ α β : Type}

/-- How the work ends when it starts in a state. -/
def outcome (work : ExceptT ε (StateM σ) α) (state : σ) : Except ε α :=
  (Id.run (StateT.run (ExceptT.run work) state)).1

/-- The state that the work leaves behind, whether it fails or not. -/
def after (work : ExceptT ε (StateM σ) α) (state : σ) : σ :=
  (Id.run (StateT.run (ExceptT.run work) state)).2

@[simp] theorem outcome_pure (value : α) (state : σ) :
    outcome (pure value : ExceptT ε (StateM σ) α) state = .ok value := rfl

@[simp] theorem after_pure (value : α) (state : σ) :
    after (pure value : ExceptT ε (StateM σ) α) state = state := rfl

@[simp] theorem outcome_throw (error : ε) (state : σ) :
    outcome (throw error : ExceptT ε (StateM σ) α) state = .error error := rfl

@[simp] theorem after_throw (error : ε) (state : σ) :
    after (throw error : ExceptT ε (StateM σ) α) state = state := rfl

@[simp] theorem outcome_get (state : σ) :
    outcome (get : ExceptT ε (StateM σ) σ) state = .ok state := rfl

@[simp] theorem after_get (state : σ) :
    after (get : ExceptT ε (StateM σ) σ) state = state := rfl

@[simp] theorem outcome_set (new state : σ) :
    outcome (set new : ExceptT ε (StateM σ) PUnit) state = .ok () := rfl

@[simp] theorem after_set (new state : σ) :
    after (set new : ExceptT ε (StateM σ) PUnit) state = new := rfl

@[simp] theorem outcome_modify (change : σ → σ) (state : σ) :
    outcome (modify change : ExceptT ε (StateM σ) PUnit) state = .ok () := rfl

@[simp] theorem after_modify (change : σ → σ) (state : σ) :
    after (modify change : ExceptT ε (StateM σ) PUnit) state = change state := rfl

theorem outcome_bind (work : ExceptT ε (StateM σ) α) (next : α → ExceptT ε (StateM σ) β)
    (state : σ) :
    outcome (work >>= next) state =
      match work.outcome state with
      | .ok value => (next value).outcome (work.after state)
      | .error error => .error error := by
  change outcome (ExceptT.mk (ExceptT.bindCont next (work.outcome state))) (work.after state) = _
  cases work.outcome state <;> rfl

theorem after_bind (work : ExceptT ε (StateM σ) α) (next : α → ExceptT ε (StateM σ) β)
    (state : σ) :
    after (work >>= next) state =
      match work.outcome state with
      | .ok value => (next value).after (work.after state)
      | .error _ => work.after state := by
  change after (ExceptT.mk (ExceptT.bindCont next (work.outcome state))) (work.after state) = _
  cases work.outcome state <;> rfl

theorem after_bind_pure (work : ExceptT ε (StateM σ) α) (result : α → β) (state : σ) :
    after (work >>= fun value => pure (result value)) state = work.after state := by
  rw [after_bind]
  cases work.outcome state <;> rfl

theorem outcome_bind_eq_ok {work : ExceptT ε (StateM σ) α} {next : α → ExceptT ε (StateM σ) β}
    {state : σ} {result : β} (succeeds : outcome (work >>= next) state = .ok result) :
    ∃ value, work.outcome state = .ok value ∧
      (next value).outcome (work.after state) = .ok result ∧
      after (work >>= next) state = (next value).after (work.after state) := by
  rw [outcome_bind] at succeeds
  rw [after_bind]
  cases first : work.outcome state with
  | ok value => exact ⟨value, rfl, by simpa [first] using succeeds, rfl⟩
  | error error => simp [first] at succeeds

theorem outcome_bind_eq_error {work : ExceptT ε (StateM σ) α} {next : α → ExceptT ε (StateM σ) β}
    {state : σ} {error : ε} (fails : outcome (work >>= next) state = .error error) :
    (work.outcome state = .error error ∧ after (work >>= next) state = work.after state) ∨
    ∃ value, work.outcome state = .ok value ∧
      (next value).outcome (work.after state) = .error error ∧
      after (work >>= next) state = (next value).after (work.after state) := by
  rw [outcome_bind] at fails
  rw [after_bind]
  cases first : work.outcome state with
  | ok value => exact .inr ⟨value, rfl, by simpa [first] using fails, rfl⟩
  | error earlier => exact .inl ⟨by simpa [first] using fails, rfl⟩

@[simp] theorem outcome_map (change : α → β) (work : ExceptT ε (StateM σ) α) (state : σ) :
    outcome (change <$> work) state = (work.outcome state).map change := by
  change outcome (ExceptT.mk (match work.outcome state with
    | .ok value => pure (.ok (change value))
    | .error error => pure (.error error))) (work.after state) = _
  cases work.outcome state <;> rfl

@[simp] theorem after_map (change : α → β) (work : ExceptT ε (StateM σ) α) (state : σ) :
    after (change <$> work) state = work.after state := by
  change after (ExceptT.mk (match work.outcome state with
    | .ok value => pure (.ok (change value))
    | .error error => pure (.error error))) (work.after state) = _
  cases work.outcome state <;> rfl

theorem outcome_tryCatch (work : ExceptT ε (StateM σ) α) (handle : ε → ExceptT ε (StateM σ) α)
    (state : σ) :
    outcome (tryCatch work handle) state =
      match work.outcome state with
      | .ok value => .ok value
      | .error error => (handle error).outcome (work.after state) := by
  change outcome (ExceptT.mk (match work.outcome state with
    | .ok value => pure (.ok value)
    | .error error => handle error)) (work.after state) = _
  cases work.outcome state <;> rfl

theorem after_tryCatch (work : ExceptT ε (StateM σ) α) (handle : ε → ExceptT ε (StateM σ) α)
    (state : σ) :
    after (tryCatch work handle) state =
      match work.outcome state with
      | .ok _ => work.after state
      | .error error => (handle error).after (work.after state) := by
  change after (ExceptT.mk (match work.outcome state with
    | .ok value => pure (.ok value)
    | .error error => handle error)) (work.after state) = _
  cases work.outcome state <;> rfl

def FailsOnly (kind : ε → Prop) (work : ExceptT ε (StateM σ) α) : Prop :=
  ∀ state error, work.outcome state = .error error → kind error

theorem failsOnly_pure (kind : ε → Prop) (value : α) :
    FailsOnly kind (pure value : ExceptT ε (StateM σ) α) := by
  intro state error failed
  cases failed

theorem FailsOnly.mono {kind wider : ε → Prop} {work : ExceptT ε (StateM σ) α}
    (only : FailsOnly kind work) (within : ∀ error, kind error → wider error) :
    FailsOnly wider work :=
  fun state error failed => within error (only state error failed)

theorem FailsOnly.bind {kind : ε → Prop} {work : ExceptT ε (StateM σ) α}
    {next : α → ExceptT ε (StateM σ) β} (first : FailsOnly kind work)
    (second : ∀ value, FailsOnly kind (next value)) : FailsOnly kind (work >>= next) := by
  intro state error failed
  rw [outcome_bind] at failed
  cases ended : work.outcome state with
  | ok value =>
    rw [ended] at failed
    exact second value _ error failed
  | error earlier =>
    rw [ended] at failed
    cases failed
    exact first state _ ended

-- A relation between states that holds of both parts of a work holds of the whole, wherever it
-- ends.
theorem rel_after_bind {R : σ → σ → Prop} [IsTrans σ R] {work : ExceptT ε (StateM σ) α}
    {next : α → ExceptT ε (StateM σ) β} {state : σ} (first : R state (work.after state))
    (second : ∀ value, work.outcome state = .ok value →
      R (work.after state) ((next value).after (work.after state))) :
    R state (after (work >>= next) state) := by
  rw [after_bind]
  cases ended : work.outcome state with
  | ok value => exact IsTrans.trans _ _ _ first (second value ended)
  | error error => exact first

end ExceptT
