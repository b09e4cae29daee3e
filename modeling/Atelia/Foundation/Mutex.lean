import Atelia.Foundation.Pool

/-! Calls that work on a state behind a lock. -/

namespace Atelia

/-- What a call does that works behind a lock. -/
inductive LockCommand (Command : Type) where
  | acquire
  | issue (command : Command)
  | release

/-- A state and the call that holds its lock. -/
structure Locked (Thread State : Type) where
  holder : Option Thread
  content : State

/-- A call that has returned, with the states it found and left behind. -/
structure Finished (Thread Failure Result State : Type) where
  thread : Thread
  before : State
  outcome : Except Failure Result
  after : State

namespace Mutex

variable {Thread Command : Type} {Answer : Command → Type} {Failure Result State : Type}

def LockAnswer (Answer : Command → Type) : LockCommand Command → Type
  | .acquire | .release => Unit
  | .issue command => Answer command

/-- The rest of a call that holds the lock. -/
def holding : Program Command Answer Failure Result →
    Program (LockCommand Command) (LockAnswer Answer) Failure Result
  | .done result => .perform .release fun _ => .done result
  | .fail failure => .perform .release fun _ => .fail failure
  | .perform command next => .perform (.issue command) fun answer => holding (next answer)

/-- A call that takes the lock first. -/
def guarded (program : Program Command Answer Failure Result) :
    Program (LockCommand Command) (LockAnswer Answer) Failure Result :=
  .perform .acquire fun _ => holding program

/-- The lock is given to a call only when nobody holds it. -/
def Serves (handles : State → (command : Command) → Answer command → State → Prop)
    (thread : Thread) (before : Locked Thread State) :
    (command : LockCommand Command) → LockAnswer Answer command → Locked Thread State → Prop
  | .acquire, _, after => before.holder = none ∧ after = ⟨some thread, before.content⟩
  | .release, _, after => after = ⟨none, before.content⟩
  | .issue command, answer, after =>
    after.holder = before.holder ∧ handles before.content command answer after.content

/-- Calls one after the other, none disturbed by another. -/
inductive Serial (calls : Thread → Program Command Answer Failure Result)
    (handles : State → (command : Command) → Answer command → State → Prop) (start : State) :
    List (Finished Thread Failure Result State) → State → Prop where
  | start : Serial calls handles start [] start
  | call {history : List (Finished Thread Failure Result State)} {before after : State}
      {thread : Thread} {ended : Program Command Answer Failure Result}
      {outcome : Except Failure Result} (earlier : Serial calls handles start history before)
      (ran : Program.Runs handles (calls thread, before) (ended, after))
      (returned : ended.outcome? = some outcome) :
      Serial calls handles start (history ++ [⟨thread, before, outcome, after⟩]) after

section Histories

variable {calls : Thread → Program Command Answer Failure Result}
  {handles : State → (command : Command) → Answer command → State → Prop} {start finish : State}
  {history : List (Finished Thread Failure Result State)} {invariant : State → Prop}
  {holds : Finished Thread Failure Result State → Prop}

/-- The rule for histories: what every call keeps when it runs alone holds at the
end, and every call does what it does alone. -/
theorem Serial.induct (serial : Serial calls handles start history finish) (first : invariant start)
    (alone : ∀ thread before ended outcome after, invariant before →
      Program.Runs handles (calls thread, before) (ended, after) → ended.outcome? = some outcome →
        invariant after ∧ holds ⟨thread, before, outcome, after⟩) :
    invariant finish ∧ ∀ entry ∈ history, holds entry := by
  induction serial with
  | start => exact ⟨first, fun _ member => nomatch member⟩
  | call earlier ran returned ih =>
    obtain ⟨kept, facts⟩ := ih
    obtain ⟨last, fact⟩ := alone _ _ _ _ _ kept ran returned
    refine ⟨last, ?_⟩
    intro entry member
    rcases List.mem_append.mp member with old | new
    · exact facts entry old
    · rw [List.mem_singleton.mp new]
      exact fact

end Histories

section Serialisation

abbrev LockedPool (Thread Command : Type) (Answer : Command → Type)
    (Failure Result State : Type) : Type :=
  Pool Thread (LockCommand Command) (LockAnswer Answer) Failure Result (Locked Thread State)

variable (calls : Thread → Program Command Answer Failure Result)
  (handles : State → (command : Command) → Answer command → State → Prop)

/-- The calls that have returned make up a history. The call that holds the lock
goes on from the end of it; any other has not begun its work. -/
structure Serialised (start : State) (pool : LockedPool Thread Command Answer Failure Result State)
    (history : List (Finished Thread Failure Result State)) (latest : State) : Prop where
  serial : Serial calls handles start history latest
  once : (history.map Finished.thread).Nodup
  returned : ∀ thread outcome, pool.outcome? thread = some outcome ↔
    ∃ entry ∈ history, entry.thread = thread ∧ entry.outcome = outcome
  free : pool.state.holder = none → pool.state.content = latest
  held : ∀ thread, pool.state.holder = some thread → ∃ rest,
    pool.activity thread = .running (holding rest) ∧
      Program.Runs handles (calls thread, latest) (rest, pool.state.content)
  outside : ∀ thread, pool.state.holder ≠ some thread → pool.outcome? thread = none →
    pool.activity thread = .waiting ∨ pool.activity thread = .running (guarded (calls thread))

section Steps

variable [DecidableEq Thread]

/-- One step of guarded calls. Nothing restarts. -/
abbrev Step : LockedPool Thread Command Answer Failure Result State →
    LockedPool Thread Command Answer Failure Result State → Prop :=
  Pool.Step (fun thread => guarded (calls thread)) (Serves handles) fun _ _ => False

abbrev Run : LockedPool Thread Command Answer Failure Result State →
    LockedPool Thread Command Answer Failure Result State → Prop :=
  Pool.Run (fun thread => guarded (calls thread)) (Serves handles) fun _ _ => False

end Steps

variable {calls handles} {start latest : State}
  {pool next : LockedPool Thread Command Answer Failure Result State}
  {history : List (Finished Thread Failure Result State)}

theorem Serialised.fresh (start : State) :
    Serialised calls handles start (Pool.fresh ⟨none, start⟩) [] start where
  serial := .start
  once := List.nodup_nil
  returned := by
    intro thread outcome
    simp [Pool.fresh, Pool.outcome?, Activity.outcome?]
  free := fun _ => rfl
  held := fun _ taken => nomatch taken
  outside := fun _ _ _ => .inl rfl

/-- The rest of a call that holds the lock has not returned. -/
theorem holding_outcome (rest : Program Command Answer Failure Result) :
    (holding rest).outcome? = none := by
  cases rest <;> rfl

variable {after : State} {ended : Program Command Answer Failure Result}

namespace Serialised

variable (serialised : Serialised calls handles start pool history latest)

include serialised

theorem unreturned_of_held {thread : Thread} (taken : pool.state.holder = some thread) :
    pool.outcome? thread = none := by
  obtain ⟨rest, active, _⟩ := serialised.held thread taken
  rw [Pool.outcome?, active]
  exact holding_outcome rest

theorem unlisted_of_held {thread : Thread} (taken : pool.state.holder = some thread)
    {entry : Finished Thread Failure Result State} (listed : entry ∈ history) :
    entry.thread ≠ thread := by
  intro named
  have early := (serialised.returned thread entry.outcome).mpr ⟨entry, listed, named, rfl⟩
  rw [serialised.unreturned_of_held taken] at early
  cases early

variable [DecidableEq Thread] {thread other : Thread} {state : Locked Thread State}
  {program : Program (LockCommand Command) (LockAnswer Answer) Failure Result}

/-- A thread that moves without returning leaves the results as the history has them. -/
theorem returned_update (unreturned : pool.outcome? thread = none)
    (unfinished : program.outcome? = none) (other : Thread) (outcome : Except Failure Result) :
    (pool.update thread program state).outcome? other = some outcome ↔
      ∃ entry ∈ history, entry.thread = other ∧ entry.outcome = outcome := by
  rw [← serialised.returned other outcome]
  by_cases same : other = thread
  · rw [same, unreturned, Pool.outcome?, Pool.update_same]
    exact iff_of_eq (congrArg (· = some outcome) unfinished)
  · rw [Pool.outcome?, Pool.update_other _ _ _ same]
    rfl

theorem outside_update (different : other ≠ thread) (untaken : pool.state.holder ≠ some other)
    (unreturned : (pool.update thread program state).outcome? other = none) :
    (pool.update thread program state).activity other = .waiting ∨
      (pool.update thread program state).activity other = .running (guarded (calls other)) := by
  rw [Pool.update_other _ _ _ different]
  rw [Pool.outcome?, Pool.update_other _ _ _ different] at unreturned
  exact serialised.outside other untaken unreturned

/-- A call begins; it does not have the lock yet. -/
theorem started (waiting : pool.activity thread = .waiting) :
    Serialised calls handles start (pool.update thread (guarded (calls thread)) pool.state) history
      latest where
  serial := serialised.serial
  once := serialised.once
  returned := serialised.returned_update (by rw [Pool.outcome?, waiting]; rfl) rfl
  free := serialised.free
  held := by
    intro other taken
    obtain ⟨rest, active, ran⟩ := serialised.held other taken
    have different : other ≠ thread := by
      intro same
      rw [same, waiting] at active
      cases active
    exact ⟨rest, (Pool.update_other _ _ _ different).trans active, ran⟩
  outside := by
    intro other untaken unreturned
    by_cases same : other = thread
    · subst same
      exact .inr (Pool.update_same _ _ _ _)
    · exact serialised.outside_update same untaken unreturned

/-- A call takes the free lock. -/
theorem acquired (unreturned : pool.outcome? thread = none)
    (unheld : pool.state.holder = none) :
    Serialised calls handles start
      (pool.update thread (holding (calls thread)) ⟨some thread, pool.state.content⟩) history latest where
  serial := serialised.serial
  once := serialised.once
  returned := serialised.returned_update unreturned (holding_outcome _)
  free := fun taken => nomatch taken
  held := by
    intro other taken
    obtain rfl : thread = other := Option.some.inj taken
    refine ⟨calls thread, Pool.update_same _ _ _ _, ?_⟩
    rw [← serialised.free unheld]
    exact .refl
  outside := by
    intro other untaken unfinished
    have different : other ≠ thread := fun same => untaken (congrArg some same.symm)
    exact serialised.outside_update different (by simp [unheld]) unfinished

/-- The call that holds the lock performs a command. -/
theorem issued {command : Command}
    {following : Answer command → Program Command Answer Failure Result} {answer : Answer command}
    (taken : pool.state.holder = some thread)
    (ran : Program.Runs handles (calls thread, latest) (.perform command following, pool.state.content))
    (answered : handles pool.state.content command answer after) :
    Serialised calls handles start
      (pool.update thread (holding (following answer)) ⟨some thread, after⟩) history latest where
  serial := serialised.serial
  once := serialised.once
  returned := serialised.returned_update (serialised.unreturned_of_held taken) (holding_outcome _)
  free := fun untaken => nomatch untaken
  held := by
    intro other holds
    obtain rfl : thread = other := Option.some.inj holds
    exact ⟨following answer, Pool.update_same _ _ _ _, ran.tail (.perform answered)⟩
  outside := by
    intro other untaken unreturned
    have different : other ≠ thread := fun same => untaken (congrArg some same.symm)
    refine serialised.outside_update different ?_ unreturned
    rw [taken]
    exact untaken

/-- The call that holds the lock gives it back and returns. -/
theorem released {finished : Program (LockCommand Command) (LockAnswer Answer) Failure Result}
    {outcome : Except Failure Result} (taken : pool.state.holder = some thread)
    (ran : Program.Runs handles (calls thread, latest) (ended, pool.state.content))
    (returned : ended.outcome? = some outcome) (returns : finished.outcome? = some outcome) :
    Serialised calls handles start (pool.update thread finished ⟨none, pool.state.content⟩)
      (history ++ [⟨thread, latest, outcome, pool.state.content⟩]) pool.state.content where
  serial := serialised.serial.call ran returned
  once := by
    rw [List.map_append, List.nodup_append]
    refine ⟨serialised.once, List.pairwise_singleton _ _, ?_⟩
    intro other member _ last same
    obtain ⟨entry, listed, rfl⟩ := List.mem_map.mp member
    exact serialised.unlisted_of_held taken listed (same.trans (List.mem_singleton.mp last))
  returned := by
    intro other result
    by_cases same : other = thread
    · subst same
      rw [Pool.outcome?, Pool.update_same]
      change finished.outcome? = some result ↔ _
      rw [returns]
      constructor
      · intro equal
        exact ⟨_, List.mem_append_right _ (List.mem_singleton_self _), rfl, Option.some.inj equal⟩
      · rintro ⟨entry, listed, named, rfl⟩
        rcases List.mem_append.mp listed with old | new
        · exact absurd named (serialised.unlisted_of_held taken old)
        · rw [List.mem_singleton.mp new]
    · rw [Pool.outcome?, Pool.update_other _ _ _ same]
      refine (serialised.returned other result).trans ?_
      constructor
      · rintro ⟨entry, listed, found⟩
        exact ⟨entry, List.mem_append_left _ listed, found⟩
      · rintro ⟨entry, listed, named, found⟩
        rcases List.mem_append.mp listed with old | new
        · exact ⟨entry, old, named, found⟩
        · rw [List.mem_singleton.mp new] at named
          exact absurd named.symm same
  free := fun _ => rfl
  held := fun _ untaken => nomatch untaken
  outside := by
    intro other _ unreturned
    have different : other ≠ thread := by
      rintro rfl
      rw [Pool.outcome?, Pool.update_same] at unreturned
      exact absurd (returns.symm.trans unreturned) (Option.some_ne_none _)
    refine serialised.outside_update different ?_ unreturned
    rw [taken]
    exact fun same => different (Option.some.inj same).symm

/-- A step of the holder. -/
private theorem holder_step {command : LockCommand Command}
    {following : LockAnswer Answer command →
      Program (LockCommand Command) (LockAnswer Answer) Failure Result}
    {answer : LockAnswer Answer command} {after : Locked Thread State}
    (taken : pool.state.holder = some thread)
    (running : pool.activity thread = .running (.perform command following))
    (answered : Serves handles thread pool.state command answer after) :
    ∃ later latest', history <+: later ∧
      Serialised calls handles start (pool.update thread (following answer) after) later latest' := by
  obtain ⟨rest, active, ran⟩ := serialised.held thread taken
  rw [active] at running
  have same := Activity.running.inj running
  cases rest with
  | done result =>
    cases same
    obtain rfl : after = ⟨none, pool.state.content⟩ := answered
    exact ⟨_, _, List.prefix_append _ _, serialised.released taken ran rfl rfl⟩
  | fail failure =>
    cases same
    obtain rfl : after = ⟨none, pool.state.content⟩ := answered
    exact ⟨_, _, List.prefix_append _ _, serialised.released taken ran rfl rfl⟩
  | perform issued next =>
    cases same
    obtain ⟨kept, handled⟩ := answered
    obtain ⟨holder, content⟩ := after
    obtain rfl : holder = some thread := kept.trans taken
    exact ⟨history, latest, List.prefix_rfl, serialised.issued taken ran handled⟩

/-- A step extends the history by the call that returns in it. -/
theorem step (step : Step calls handles pool next) :
    ∃ later latest', history <+: later ∧ Serialised calls handles start next later latest' := by
  cases step with
  | start thread waiting => exact ⟨history, latest, List.prefix_rfl, serialised.started waiting⟩
  | restart restarted => exact restarted.elim
  | @perform thread command following answer after running answered =>
    by_cases taken : pool.state.holder = some thread
    · exact serialised.holder_step taken running answered
    · have unreturned : pool.outcome? thread = none := by rw [Pool.outcome?, running]; rfl
      rcases serialised.outside thread taken unreturned with waiting | waits
      · rw [waiting] at running
        cases running
      · rw [waits] at running
        cases Activity.running.inj running
        obtain ⟨unheld, rfl⟩ := answered
        exact ⟨history, latest, List.prefix_rfl, serialised.acquired unreturned unheld⟩

/-- The rule for whole runs: what has returned stays in the history. -/
theorem run (run : Run calls handles pool next) :
    ∃ later latest', history <+: later ∧ Serialised calls handles start next later latest' := by
  induction run with
  | refl => exact ⟨history, latest, List.prefix_rfl, serialised⟩
  | tail _ step ih =>
    obtain ⟨middle, reached, kept, serialised⟩ := ih
    obtain ⟨later, latest', grown, serialised⟩ := serialised.step step
    exact ⟨later, latest', kept.trans grown, serialised⟩

end Serialised

section Progress

variable [DecidableEq Thread] {before : State}

/-- The holder of the lock goes on undisturbed. -/
private theorem Run.holder {thread : Thread} {program : Program Command Answer Failure Result}
    (ran : Program.Runs handles (program, before) (ended, after))
    (taken : pool.state = ⟨some thread, before⟩)
    (active : pool.activity thread = .running (holding program)) :
    ∃ later, Run calls handles pool later ∧ later.state = ⟨some thread, after⟩ ∧
      later.activity thread = .running (holding ended) ∧
      ∀ other, other ≠ thread → later.activity other = pool.activity other := by
  generalize beginning : (program, before) = first at ran
  generalize ending : (ended, after) = last at ran
  induction ran using Relation.ReflTransGen.head_induction_on generalizing pool program before with
  | refl =>
    cases beginning.trans ending.symm
    exact ⟨pool, .refl, taken, active, fun _ _ => rfl⟩
  | head step rest ih =>
    cases beginning
    cases ending
    cases step with
    | @perform command next answer _ middle answered =>
      have issues : Step calls handles pool
          (pool.update thread (holding (next answer)) ⟨some thread, middle⟩) := by
        refine .perform thread active ⟨?_, ?_⟩
        · rw [taken]
        · rw [taken]
          exact answered
      obtain ⟨later, run, state, activity, others⟩ :=
        ih (by rfl) (pool.update_same thread (holding (next answer)) ⟨some thread, middle⟩) rfl
      refine ⟨later, .head issues run, state, activity, ?_⟩
      intro other different
      rw [others other different, Pool.update_other _ _ _ different]

/-- A call that finds the lock free can do all its work and return. -/
theorem Run.call {thread : Thread} {ended : Program Command Answer Failure Result}
    {outcome : Except Failure Result} (waiting : pool.activity thread = .waiting)
    (free : pool.state = ⟨none, before⟩)
    (ran : Program.Runs handles (calls thread, before) (ended, after))
    (returned : ended.outcome? = some outcome) :
    ∃ later, Run calls handles pool later ∧ later.state = ⟨none, after⟩ ∧
      later.outcome? thread = some outcome ∧
      ∀ other, other ≠ thread → later.activity other = pool.activity other := by
  let started := pool.update thread (guarded (calls thread)) pool.state
  have starts : Step calls handles pool started := .start thread waiting
  let entered := started.update thread (holding (calls thread)) ⟨some thread, before⟩
  have enters : Step calls handles started entered := by
    have given : Serves handles thread started.state .acquire () ⟨some thread, before⟩ := by
      change Serves handles thread pool.state .acquire () _
      rw [free]
      exact ⟨rfl, rfl⟩
    exact .perform thread (Pool.update_same _ _ _ _) given
  obtain ⟨worked, works, state, active, others⟩ :=
    Run.holder ran (by rfl) (started.update_same thread (holding (calls thread)) ⟨some thread, before⟩)
  have untouched : ∀ other, other ≠ thread → worked.activity other = pool.activity other := by
    intro other different
    rw [others other different, Pool.update_other _ _ _ different, Pool.update_other _ _ _ different]
  have leaves : ∃ finished : Program (LockCommand Command) (LockAnswer Answer) Failure Result,
      finished.outcome? = some outcome ∧
        Step calls handles worked (worked.update thread finished ⟨none, after⟩) := by
    have given : Serves handles thread worked.state .release () ⟨none, after⟩ := by
      rw [state]
      rfl
    cases ended with
    | done result => exact ⟨.done result, returned, .perform thread active given⟩
    | fail failure => exact ⟨.fail failure, returned, .perform thread active given⟩
    | perform command next => cases returned
  obtain ⟨finished, ended, leaves⟩ := leaves
  refine ⟨_, (Relation.ReflTransGen.head starts (.head enters works)).tail leaves, rfl, ?_, ?_⟩
  · rw [Pool.outcome?, Pool.update_same]
    exact ended
  · intro other different
    rw [Pool.update_other _ _ _ different, untouched other different]

/-- Such a call can be evaluated. -/
theorem Run.evaluate {answer : State → (command : Command) → Answer command × State}
    (serves : ∀ state command, handles state command (answer state command).1 (answer state command).2)
    {thread : Thread} (waiting : pool.activity thread = .waiting)
    (free : pool.state = ⟨none, before⟩) :
    ∃ later, Run calls handles pool later ∧
      later.state = ⟨none, ((calls thread).evaluate answer before).2⟩ ∧
      later.outcome? thread = some ((calls thread).evaluate answer before).1 ∧
      ∀ other, other ≠ thread → later.activity other = pool.activity other := by
  obtain ⟨ended, ran, returned⟩ := Program.runs_evaluate serves (calls thread) before
  exact Run.call waiting free ran returned

end Progress

end Serialisation

end Mutex

end Atelia
