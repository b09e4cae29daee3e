import Atelia.Foundation.Program

/-! Calls that run side by side on one state. -/

namespace Atelia

variable {Thread Command : Type} {Answer : Command → Type} {Failure Result State : Type}

inductive Activity (Command : Type) (Answer : Command → Type) (Failure Result : Type) where
  | waiting
  | running (program : Program Command Answer Failure Result)
  | crashed

namespace Activity

def outcome? : Activity Command Answer Failure Result → Option (Except Failure Result)
  | running program => program.outcome?
  | _ => none

/-- A restart keeps what has returned and what has not begun. -/
def restart : Activity Command Answer Failure Result → Activity Command Answer Failure Result
  | running (.perform _ _) => crashed
  | activity => activity

theorem restart_outcome (activity : Activity Command Answer Failure Result) :
    activity.restart.outcome? = activity.outcome? := by
  cases activity with
  | waiting => rfl
  | crashed => rfl
  | running program => cases program <;> rfl

theorem finished_of_restart {activity : Activity Command Answer Failure Result}
    {program : Program Command Answer Failure Result}
    (running : activity.restart = .running program) : program.outcome? ≠ none := by
  cases activity with
  | waiting => cases running
  | crashed => cases running
  | running other =>
    cases other with
    | done result => cases running; exact Option.some_ne_none _
    | fail failure => cases running; exact Option.some_ne_none _
    | perform command next => cases running

end Activity

structure Pool (Thread Command : Type) (Answer : Command → Type) (Failure Result State : Type) where
  activity : Thread → Activity Command Answer Failure Result
  state : State

namespace Pool

/-- The pool in which no call has begun. -/
def fresh (state : State) : Pool Thread Command Answer Failure Result State :=
  ⟨fun _ => .waiting, state⟩

def outcome? (pool : Pool Thread Command Answer Failure Result State) (thread : Thread) :
    Option (Except Failure Result) :=
  (pool.activity thread).outcome?

def failure? (pool : Pool Thread Command Answer Failure Result State) (thread : Thread) :
    Option Failure :=
  match pool.outcome? thread with
  | some (.error failure) => some failure
  | _ => none

variable {thread : Thread}

theorem outcome_of_failure {pool : Pool Thread Command Answer Failure Result State}
    {failure : Failure} (failed : pool.failure? thread = some failure) :
    pool.outcome? thread = some (.error failure) := by
  unfold failure? at failed
  split at failed
  · rename_i found
    rw [found, Option.some.inj failed]
  · cases failed

variable [DecidableEq Thread]

def update (pool : Pool Thread Command Answer Failure Result State) (thread : Thread)
    (program : Program Command Answer Failure Result) (state : State) :
    Pool Thread Command Answer Failure Result State :=
  ⟨Function.update pool.activity thread (.running program), state⟩

@[simp] theorem update_same (pool : Pool Thread Command Answer Failure Result State)
    (thread : Thread) (program : Program Command Answer Failure Result) (state : State) :
    (pool.update thread program state).activity thread = .running program :=
  Function.update_self _ _ _

theorem update_other (pool : Pool Thread Command Answer Failure Result State) {other : Thread}
    (program : Program Command Answer Failure Result) (state : State) (different : other ≠ thread) :
    (pool.update thread program state).activity other = pool.activity other :=
  Function.update_of_ne different _ _

theorem update_alive (pool : Pool Thread Command Answer Failure Result State)
    (alive : ∀ other, pool.activity other ≠ .crashed)
    (program : Program Command Answer Failure Result) (state : State) (other : Thread) :
    (pool.update thread program state).activity other ≠ .crashed := by
  by_cases same : other = thread
  · subst same
    rw [update_same]
    exact nofun
  · rw [update_other _ _ _ same]
    exact alive other

/-- One step of the system. -/
inductive Step (calls : Thread → Program Command Answer Failure Result)
    (handles : Thread → State → (command : Command) → Answer command → State → Prop)
    (restarts : State → State → Prop) :
    Pool Thread Command Answer Failure Result State →
      Pool Thread Command Answer Failure Result State → Prop where
  | start {pool} (thread : Thread) (waiting : pool.activity thread = .waiting) :
      Step calls handles restarts pool (pool.update thread (calls thread) pool.state)
  | perform {pool} (thread : Thread) {command next answer after}
      (running : pool.activity thread = .running (.perform command next))
      (answered : handles thread pool.state command answer after) :
      Step calls handles restarts pool (pool.update thread (next answer) after)
  | restart {pool after} (restarted : restarts pool.state after) :
      Step calls handles restarts pool ⟨fun thread => (pool.activity thread).restart, after⟩

abbrev Run (calls : Thread → Program Command Answer Failure Result)
    (handles : Thread → State → (command : Command) → Answer command → State → Prop)
    (restarts : State → State → Prop) :
    Pool Thread Command Answer Failure Result State →
      Pool Thread Command Answer Failure Result State → Prop :=
  Relation.ReflTransGen (Step calls handles restarts)

/-- What a call may assume of the others, what it promises them, and what holds
when it returns. -/
structure Contract (Failure Result State : Type) where
  rely : State → State → Prop
  guarantee : State → State → Prop
  post : Except Failure Result → State → Prop
  rely_refl : Std.Refl rely
  rely_trans : IsTrans State rely

attribute [instance] Contract.rely_refl Contract.rely_trans

/-- What one call promises is what every other call assumes. -/
def Compatible (contract : Thread → Contract Failure Result State) : Prop :=
  ∀ thread other, other ≠ thread → ∀ before after,
    (contract thread).guarantee before after → (contract other).rely before after

section Contracts

variable {calls : Thread → Program Command Answer Failure Result}
  {handles : Thread → State → (command : Command) → Answer command → State → Prop}
  {restarts : State → State → Prop} {contract : Thread → Contract Failure Result State}
  {pool next : Pool Thread Command Answer Failure Result State}

/-- A program in the place of a call. -/
def Contract.MetBy (contract : Contract Failure Result State)
    (handles : State → (command : Command) → Answer command → State → Prop)
    (program : Program Command Answer Failure Result) (state : State) : Prop :=
  program.Meets handles contract.rely contract.guarantee contract.post state

/-- Every call in flight meets its contract. -/
def Meets (handles : Thread → State → (command : Command) → Answer command → State → Prop)
    (contract : Thread → Contract Failure Result State)
    (pool : Pool Thread Command Answer Failure Result State) : Prop :=
  ∀ thread program, pool.activity thread = .running program → program.outcome? = none →
    (contract thread).MetBy (handles thread) program pool.state

omit [DecidableEq Thread] in
theorem Meets.fresh (state : State) :
    (Pool.fresh state : Pool Thread Command Answer Failure Result State).Meets handles contract :=
  fun _ _ running => nomatch running

omit [DecidableEq Thread] in
/-- A command that a call in flight performs keeps its promise. -/
theorem Meets.performed (meets : pool.Meets handles contract) {command following}
    {answer : Answer command} {after : State}
    (running : pool.activity thread = .running (.perform command following))
    (answered : handles thread pool.state command answer after) :
    (contract thread).guarantee pool.state after ∧
      (contract thread).MetBy (handles thread) (following answer) after :=
  meets thread _ running rfl pool.state (refl_of _ _) answer after answered

/-- A step keeps every call in flight within its contract. -/
theorem Step.meets (step : Step calls handles restarts pool next)
    (compatible : Compatible contract)
    (starts : ∀ thread, pool.activity thread = .waiting →
      (contract thread).MetBy (handles thread) (calls thread) pool.state)
    (meets : pool.Meets handles contract) : next.Meets handles contract := by
  cases step with
  | start thread waiting =>
    intro other program running unfinished
    by_cases same : other = thread
    · subst same
      rw [update_same] at running
      cases running
      exact starts other waiting
    · rw [update_other _ _ _ same] at running
      exact meets other program running unfinished
  | perform thread active answered =>
    obtain ⟨kept, continues⟩ := meets.performed active answered
    intro other program running unfinished
    by_cases same : other = thread
    · subst same
      rw [update_same] at running
      cases running
      exact continues
    · rw [update_other _ _ _ same] at running
      have moved := compatible thread other same _ _ kept
      exact Program.Meets.of_rely (meets other program running unfinished) unfinished moved
  | restart restarted =>
    intro other program running unfinished
    exact absurd unfinished (Activity.finished_of_restart running)

variable {outcome : Except Failure Result}

/-- A call that returns in this step satisfies its postcondition in the state reached. -/
theorem Step.returns (step : Step calls handles restarts pool next)
    (starts : ∀ thread, pool.activity thread = .waiting →
      (contract thread).MetBy (handles thread) (calls thread) pool.state)
    (meets : pool.Meets handles contract) (unfinished : pool.outcome? thread = none)
    (returned : next.outcome? thread = some outcome) :
    (contract thread).post outcome next.state := by
  cases step with
  | start other waiting =>
    by_cases same : thread = other
    · subst same
      simp only [outcome?, update_same] at returned
      exact Program.Meets.outcome (starts thread waiting) returned
    · simp only [outcome?, update_other _ _ _ same] at returned unfinished
      rw [unfinished] at returned
      cases returned
  | perform other active answered =>
    by_cases same : thread = other
    · subst same
      simp only [outcome?, update_same] at returned
      exact Program.Meets.outcome (meets.performed active answered).2 returned
    · simp only [outcome?, update_other _ _ _ same] at returned unfinished
      rw [unfinished] at returned
      cases returned
  | restart restarted =>
    simp only [outcome?, Activity.restart_outcome] at returned unfinished
    rw [unfinished] at returned
    cases returned

/-- What has returned stays as it was. -/
theorem Step.outcome_kept (step : Step calls handles restarts pool next)
    (returned : pool.outcome? thread = some outcome) : next.outcome? thread = some outcome := by
  cases step with
  | start other waiting =>
    by_cases same : thread = other
    · subst same
      simp [outcome?, waiting, Activity.outcome?] at returned
    · simpa [outcome?, update_other _ _ _ same] using returned
  | perform other active answered =>
    by_cases same : thread = other
    · subst same
      simp [outcome?, active, Activity.outcome?, Program.outcome?] at returned
    · simpa [outcome?, update_other _ _ _ same] using returned
  | restart restarted => simpa [outcome?, Activity.restart_outcome] using returned

/-- What a pool keeps in every step: calls can start in it, and it survives the
start of a call, every promise and every restart. -/
structure Kept (calls : Thread → Program Command Answer Failure Result)
    (handles : Thread → State → (command : Command) → Answer command → State → Prop)
    (restarts : State → State → Prop) (contract : Thread → Contract Failure Result State)
    (invariant : Pool Thread Command Answer Failure Result State → Prop) : Prop where
  compatible : Compatible contract
  starts : ∀ pool thread, invariant pool → pool.activity thread = .waiting →
    (contract thread).MetBy (handles thread) (calls thread) pool.state
  started : ∀ pool thread, invariant pool → pool.activity thread = .waiting →
    invariant (pool.update thread (calls thread) pool.state)
  promised : ∀ pool thread program after, invariant pool → pool.activity thread ≠ .waiting →
    (contract thread).guarantee pool.state after → invariant (pool.update thread program after)
  restarted : ∀ pool after, invariant pool → restarts pool.state after →
    invariant ⟨fun thread => (pool.activity thread).restart, after⟩

variable {invariant : Pool Thread Command Answer Failure Result State → Prop}

section Contract

variable (kept : Kept calls handles restarts contract invariant)
include kept

theorem Kept.step (step : Step calls handles restarts pool next)
    (meets : pool.Meets handles contract) (holds : invariant pool) :
    next.Meets handles contract ∧ invariant next := by
  refine ⟨step.meets kept.compatible (fun thread => kept.starts pool thread holds) meets, ?_⟩
  cases step with
  | start thread waiting => exact kept.started pool thread holds waiting
  | perform thread active answered =>
    refine kept.promised pool thread _ _ holds ?_ (meets.performed active answered).1
    rw [active]
    exact nofun
  | restart restarted => exact kept.restarted pool _ holds restarted

section Runs

variable (ran : Run calls handles restarts pool next) (meets : pool.Meets handles contract)
  (holds : invariant pool)
include ran meets holds

/-- The rule for whole runs. -/
theorem Kept.run : next.Meets handles contract ∧ invariant next := by
  induction ran with
  | refl => exact ⟨meets, holds⟩
  | tail _ step ih => exact kept.step step ih.1 ih.2

/-- A call that has returned leaves the rest to the others. -/
theorem Kept.rests (returned : pool.outcome? thread = some outcome)
    (restarting : ∀ before after, restarts before after → (contract thread).rely before after) :
    next.outcome? thread = some outcome ∧ (contract thread).rely pool.state next.state := by
  induction ran with
  | refl => exact ⟨returned, refl_of _ _⟩
  | @tail middle last earlier step ih =>
    obtain ⟨ended, moved⟩ := ih
    obtain ⟨meets, _⟩ := kept.run earlier meets holds
    refine ⟨step.outcome_kept ended, trans_of _ moved ?_⟩
    cases step with
    | start other waiting => exact refl_of _ _
    | perform other active answered =>
      refine kept.compatible other thread ?_ _ _ (meets.performed active answered).1
      rintro rfl
      simp [outcome?, active, Activity.outcome?, Program.outcome?] at ended
    | restart restarted => exact restarting _ _ restarted

/-- A call that returns during a run satisfied its postcondition when it returned. -/
theorem Kept.returned (unfinished : pool.outcome? thread = none)
    (returned : next.outcome? thread = some outcome) :
    ∃ moment, Run calls handles restarts pool moment ∧ Run calls handles restarts moment next ∧
      moment.outcome? thread = some outcome ∧ (contract thread).post outcome moment.state := by
  induction ran with
  | refl =>
    rw [unfinished] at returned
    cases returned
  | @tail middle last earlier step ih =>
    cases ended : middle.outcome? thread with
    | some early =>
      have same : early = outcome :=
        Option.some.inj ((step.outcome_kept ended).symm.trans returned)
      obtain ⟨moment, before, after, post⟩ := ih (same ▸ ended)
      exact ⟨moment, before, after.tail step, post⟩
    | none =>
      obtain ⟨meets, holds⟩ := kept.run earlier meets holds
      have post := step.returns (fun other => kept.starts middle other holds) meets ended returned
      exact ⟨last, earlier.tail step, .refl, returned, post⟩

end Runs

end Contract

end Contracts

section Schedules

variable {Setting : Type} (calls : Thread → Program Command Answer Failure Result)
  (answer : Setting → Thread → State → (command : Command) → Answer command × State)

/-- Start the call if it waits, or let it perform its next command. -/
def advance (pool : Pool Thread Command Answer Failure Result State) (entry : Thread × Setting) :
    Pool Thread Command Answer Failure Result State :=
  match pool.activity entry.1 with
  | .waiting => pool.update entry.1 (calls entry.1) pool.state
  | .running (.perform command next) =>
    let (given, after) := answer entry.2 entry.1 pool.state command
    pool.update entry.1 (next given) after
  | _ => pool

/-- Let the calls advance in the order of a schedule. -/
def follow (schedule : List (Thread × Setting))
    (pool : Pool Thread Command Answer Failure Result State) :
    Pool Thread Command Answer Failure Result State :=
  schedule.foldl (advance calls answer) pool

variable {calls answer}
  {handles : Thread → State → (command : Command) → Answer command → State → Prop}
  {restarts : State → State → Prop} {pool : Pool Thread Command Answer Failure Result State}

theorem Run.advance (serves : ∀ setting thread state command, handles thread state command
      (answer setting thread state command).1 (answer setting thread state command).2)
    (entry : Thread × Setting) :
    Run calls handles restarts pool (pool.advance calls answer entry) := by
  unfold Pool.advance
  split
  · rename_i waiting
    exact .single (.start entry.1 waiting)
  · rename_i command next running
    exact .single (.perform entry.1 running (serves entry.2 entry.1 pool.state command))
  · exact .refl

/-- A schedule is a run. -/
theorem Run.follow (serves : ∀ setting thread state command, handles thread state command
      (answer setting thread state command).1 (answer setting thread state command).2)
    (schedule : List (Thread × Setting)) :
    Run calls handles restarts pool (pool.follow calls answer schedule) := by
  induction schedule generalizing pool with
  | nil => exact .refl
  | cons entry rest ih => exact (Run.advance serves entry).trans ih

/-- A call in flight can go on until it returns. -/
theorem Run.finish (total : ∀ thread state command, ∃ given after,
      handles thread state command given after) {program : Program Command Answer Failure Result}
    (running : pool.activity thread = .running program) :
    ∃ next outcome, Run calls handles restarts pool next ∧ next.outcome? thread = some outcome := by
  induction program generalizing pool with
  | done result => exact ⟨pool, .ok result, .refl, by rw [outcome?, running]; rfl⟩
  | fail failure => exact ⟨pool, .error failure, .refl, by rw [outcome?, running]; rfl⟩
  | perform command following ih =>
    obtain ⟨given, after, answered⟩ := total thread pool.state command
    obtain ⟨next, outcome, run, returned⟩ := ih given (pool.update_same thread (following given) after)
    exact ⟨next, outcome, .head (.perform thread running answered) run, returned⟩

end Schedules

end Pool

end Atelia
