import Atelia.Foundation.Outcome

/-! Computations on a mutable state that may fail. -/

namespace Atelia

/-- A computation that reads and writes a state and may stop with an error. -/
abbrev Attempt (σ ε α : Type) : Type := ExceptT ε (StateM σ) α

namespace Attempt

variable {σ ε α β : Type}

/-- The answer of a computation and the state it leaves behind. -/
def exec (action : Attempt σ ε α) (state : σ) : Except ε α × σ :=
  (ExceptT.run action).run state

/-- A check that does not touch the state. -/
def check (result : Except ε α) : Attempt σ ε α :=
  ExceptT.mk (pure result)

@[simp] theorem exec_pure (value : α) (state : σ) :
    exec (pure value : Attempt σ ε α) state = (.ok value, state) := rfl

@[simp] theorem exec_get (state : σ) : exec (get : Attempt σ ε σ) state = (.ok state, state) := rfl

@[simp] theorem exec_modify (change : σ → σ) (state : σ) :
    exec (modify change : Attempt σ ε PUnit) state = (.ok ⟨⟩, change state) := rfl

@[simp] theorem exec_check (result : Except ε α) (state : σ) :
    exec (check result) state = (result, state) := rfl

theorem exec_bind (first : Attempt σ ε α) (next : α → Attempt σ ε β) (state : σ) :
    exec (first >>= next) state =
      match exec first state with
      | (.ok value, middle) => exec (next value) middle
      | (.error error, middle) => (.error error, middle) := by
  change StateT.run (StateT.bind (ExceptT.run first) (ExceptT.bindCont next)) state = _
  rcases ran : exec first state with ⟨answer, middle⟩
  have first_ran : (ExceptT.run first) state = (answer, middle) := ran
  simp only [StateT.run, StateT.bind, first_ran]
  cases answer <;> rfl

variable {next : α → Attempt σ ε β} {state : σ} {first : Attempt σ ε α}

theorem exec_bind_of_ok {middle : σ} {value : α} (ran : exec first state = (.ok value, middle)) :
    exec (first >>= next) state = exec (next value) middle := by
  rw [exec_bind, ran]

/-- A computation whose errors are handled. -/
def rescue {ε' : Type} (action : Attempt σ ε α) (handler : ε → Attempt σ ε' α) : Attempt σ ε' α :=
  ExceptT.mk do
    match ← ExceptT.run action with
    | .ok value => return .ok value
    | .error error => ExceptT.run (handler error)

theorem exec_rescue {ε' : Type} (action : Attempt σ ε α) (handler : ε → Attempt σ ε' α) (state : σ) :
    exec (rescue action handler) state =
      match exec action state with
      | (.ok value, after) => (.ok value, after)
      | (.error error, after) => exec (handler error) after := by
  rcases ran : exec action state with ⟨answer, after⟩
  have same : (ExceptT.run action) state = (answer, after) := ran
  simp only [exec, rescue, StateT.run, ExceptT.run_mk, bind, StateT.bind, same]
  cases answer <;> rfl

variable {after : σ}

/-- A computation succeeds in its parts. -/
theorem exec_bind_eq_ok {result : β} : exec (first >>= next) state = (.ok result, after) ↔
      ∃ value middle, exec first state = (.ok value, middle) ∧
        exec (next value) middle = (.ok result, after) := by
  rw [exec_bind]
  rcases exec first state with ⟨_ | value, middle⟩
  · simp
  · constructor
    · intro rest
      exact ⟨value, middle, rfl, rest⟩
    · rintro ⟨_, _, same, rest⟩
      cases same
      exact rest

/-- A result that is only repackaged. -/
theorem exec_bind_pure_eq_ok {wrap : α → β} {result : β} :
    exec (first >>= fun value => pure (wrap value)) state = (.ok result, after) ↔
      ∃ value, exec first state = (.ok value, after) ∧ wrap value = result := by
  rw [exec_bind_eq_ok]
  constructor
  · rintro ⟨value, middle, ran, finished⟩
    cases finished
    exact ⟨value, ran, rfl⟩
  · rintro ⟨value, ran, rfl⟩
    exact ⟨value, after, ran, rfl⟩

@[simp] theorem exec_check_bind_eq_ok {result : Except ε α} {answer : β} :
    exec (check result >>= next) state = (.ok answer, after) ↔
      ∃ value, result = .ok value ∧ exec (next value) state = (.ok answer, after) := by
  rw [exec_bind_eq_ok]
  constructor
  · rintro ⟨value, middle, checked, rest⟩
    cases checked
    exact ⟨value, rfl, rest⟩
  · rintro ⟨value, rfl, rest⟩
    exact ⟨value, state, rfl, rest⟩

@[simp] theorem exec_check_ok_bind (value : α) (next : α → Attempt σ ε β) (state : σ) :
    exec (check (.ok value) >>= next) state = exec (next value) state := by
  rw [exec_bind, exec_check]

@[simp] theorem exec_check_error_bind (error : ε) (next : α → Attempt σ ε β) (state : σ) :
    exec (check (.error error) >>= next) state = (.error error, state) := by
  rw [exec_bind, exec_check]

@[simp] theorem exec_get_bind (next : σ → Attempt σ ε β) (state : σ) :
    exec (get >>= next) state = exec (next state) state := by
  rw [exec_bind, exec_get]

@[simp] theorem exec_modify_bind (change : σ → σ) (next : PUnit → Attempt σ ε β) (state : σ) :
    exec (modify change >>= next) state = exec (next ⟨⟩) (change state) := by
  rw [exec_bind, exec_modify]

section Atomic

/-- A failing computation leaves the state as it was. -/
def Atomic (action : Attempt σ ε α) : Prop :=
  ∀ state error after, exec action state = (.error error, after) → after = state

theorem Atomic.check_bind {result : Except ε α}
    (rest : ∀ value, result = .ok value → Atomic (next value)) : Atomic (check result >>= next) := by
  intro state error after failed
  rw [exec_bind, exec_check] at failed
  cases result with
  | error _ => exact (Prod.mk.inj failed).2.symm
  | ok value => exact rest value rfl state error after failed

theorem Atomic.get_bind {next : σ → Attempt σ ε β} (rest : ∀ state, Atomic (next state)) :
    Atomic (get >>= next) :=
  fun state => rest state state

/-- A computation that never fails. -/
def Succeeds (action : Attempt σ ε α) : Prop :=
  ∀ state, ∃ value after, exec action state = (.ok value, after)

theorem Succeeds.of_pure (value : α) : Succeeds (pure value : Attempt σ ε α) :=
  fun state => ⟨value, state, rfl⟩

theorem Succeeds.of_modify (change : σ → σ) : Succeeds (modify change : Attempt σ ε PUnit) :=
  fun state => ⟨⟨⟩, change state, rfl⟩

theorem Succeeds.modify_bind {change : σ → σ} {next : PUnit → Attempt σ ε β}
    (rest : Succeeds (next ⟨⟩)) : Succeeds (modify change >>= next) := by
  intro state
  obtain ⟨value, after, finished⟩ := rest (change state)
  exact ⟨value, after, by rw [exec_modify_bind, finished]⟩

theorem Succeeds.atomic {action : Attempt σ ε α} (succeeds : Succeeds action) : Atomic action := by
  intro state error after failed
  obtain ⟨value, _, finished⟩ := succeeds state
  rw [finished] at failed
  cases (Prod.mk.inj failed).1

theorem Atomic.bind_pure {action : Attempt σ ε α} (atomic : Atomic action) (transform : α → β) :
    Atomic (action >>= fun value => pure (transform value)) := by
  intro state error after failed
  rw [exec_bind] at failed
  rcases ran : exec action state with ⟨_ | value, middle⟩
  · rw [ran] at failed
    exact (Prod.mk.inj failed).2 ▸ atomic state _ middle ran
  · rw [ran] at failed
    cases (Prod.mk.inj failed).1

end Atomic

end Attempt

end Atelia
