import Mathlib.Logic.Relation
import Mathlib.Logic.Function.Basic

/-! Programs that issue commands to an environment. -/

namespace Atelia

inductive Program (Command : Type) (Answer : Command → Type) (Failure Result : Type) where
  | done (result : Result)
  | fail (failure : Failure)
  | perform (command : Command) (next : Answer command → Program Command Answer Failure Result)

namespace Program

variable {Command : Type} {Answer : Command → Type} {Failure Result Result' State : Type}

protected def bind : Program Command Answer Failure Result →
    (Result → Program Command Answer Failure Result') → Program Command Answer Failure Result'
  | done result, rest => rest result
  | fail failure, _ => fail failure
  | perform command next, rest => perform command fun answer => (next answer).bind rest

instance : Monad (Program Command Answer Failure) where
  pure := done
  bind := Program.bind

/-- A computed outcome as a program. -/
def ofExcept : Except Failure Result → Program Command Answer Failure Result
  | .ok result => done result
  | .error failure => fail failure

/-- How a finished program ended. -/
def outcome? : Program Command Answer Failure Result → Option (Except Failure Result)
  | done result => some (.ok result)
  | fail failure => some (.error failure)
  | perform _ _ => none

section Embedding

variable {Command' : Type} {Answer' : Command' → Type} {Failure' : Type}

/-- The same program for an environment with more commands and more failures. -/
def embed (command : Command → Command') (answer : ∀ issued, Answer' (command issued) → Answer issued)
    (failure : Failure → Failure') :
    Program Command Answer Failure Result → Program Command' Answer' Failure' Result
  | done result => done result
  | fail failed => fail (failure failed)
  | perform issued next =>
    perform (command issued) fun given => (next (answer issued given)).embed command answer failure

end Embedding

variable {rest : Result → Program Command Answer Failure Result'}

section Correctness

/-- Every command of the program keeps the guarantee, and the outcome satisfies
the postcondition when it is reached, whatever the environment answers and
however others change the state before each command, within the rely relation. -/
def Meets (handles : State → (command : Command) → Answer command → State → Prop)
    (rely guarantee : State → State → Prop) (post : Except Failure Result → State → Prop) :
    Program Command Answer Failure Result → State → Prop
  | done result, state => post (.ok result) state
  | fail failure, state => post (.error failure) state
  | perform command next, state => ∀ later, rely state later → ∀ answer after,
      handles later command answer after →
        guarantee later after ∧ (next answer).Meets handles rely guarantee post after

variable {handles handles' : State → (command : Command) → Answer command → State → Prop}
  {rely rely' guarantee guarantee' : State → State → Prop}
  {post post' : Except Failure Result → State → Prop}
  {program : Program Command Answer Failure Result} {state later : State}

section Met

variable (meets : program.Meets handles rely guarantee post state)
include meets

/-- A program that has not ended meets its specification after others have moved. -/
theorem Meets.of_rely [IsTrans State rely] (unfinished : program.outcome? = none)
    (moved : rely state later) : program.Meets handles rely guarantee post later := by
  cases program with
  | done result => cases unfinished
  | fail failure => cases unfinished
  | perform command next => exact fun last moved' => meets last (trans_of rely moved moved')

/-- A specification with fewer answers, less interference, a weaker guarantee and
a weaker postcondition is met as well. -/
theorem Meets.weaken
    (answers : ∀ before command answer after, handles' before command answer after →
      handles before command answer after)
    (interference : ∀ before after, rely' before after → rely before after)
    (kept : ∀ before after, guarantee before after → guarantee' before after)
    (weaker : ∀ outcome state, post outcome state → post' outcome state) :
    program.Meets handles' rely' guarantee' post' state := by
  induction program generalizing state with
  | done result => exact weaker _ _ meets
  | fail failure => exact weaker _ _ meets
  | perform command next ih =>
    intro later moved answer after answered
    obtain ⟨keeps, rest⟩ := meets later (interference _ _ moved) answer after
      (answers _ _ _ _ answered)
    exact ⟨kept _ _ keeps, ih answer rest⟩

theorem Meets.mono (weaker : ∀ outcome state, post outcome state → post' outcome state) :
    program.Meets handles rely guarantee post' state :=
  meets.weaken (fun _ _ _ _ answered => answered) (fun _ _ moved => moved) (fun _ _ kept => kept)
    weaker

end Met

/-- A program that meets two specifications keeps both promises at once. -/
theorem Meets.both (first : program.Meets handles rely guarantee post state)
    (second : program.Meets handles rely guarantee' post' state) :
    program.Meets handles rely (fun before after => guarantee before after ∧ guarantee' before after)
      (fun outcome state => post outcome state ∧ post' outcome state) state := by
  induction program generalizing state with
  | done result => exact ⟨first, second⟩
  | fail failure => exact ⟨first, second⟩
  | perform command next ih =>
    intro later moved answer after answered
    obtain ⟨kept, rest⟩ := first later moved answer after answered
    obtain ⟨kept', rest'⟩ := second later moved answer after answered
    exact ⟨⟨kept, kept'⟩, ih answer rest rest'⟩

/-- The postcondition of the first of two programs: the second goes on from its
result, and its failure is the failure of both. -/
def continued (next : Result → State → Prop) (post : Except Failure Result' → State → Prop) :
    Except Failure Result → State → Prop
  | .ok result, state => next result state
  | .error failure, state => post (.error failure) state

theorem Meets.bind {post : Except Failure Result' → State → Prop}
    (meets : program.Meets handles rely guarantee
      (continued (fun result => (rest result).Meets handles rely guarantee post) post) state) :
    (program >>= rest).Meets handles rely guarantee post state := by
  induction program generalizing state with
  | done result => exact meets
  | fail failure => exact meets
  | perform command next ih =>
    intro later moved answer after answered
    obtain ⟨kept, remaining⟩ := meets later moved answer after answered
    exact ⟨kept, ih answer remaining⟩

/-- Sequencing with an intermediate assertion. -/
theorem Meets.followedBy {holds : Result → State → Prop}
    {post : Except Failure Result' → State → Prop}
    (meets : program.Meets handles rely guarantee (continued holds post) state)
    (continues : ∀ result state, holds result state →
      (rest result).Meets handles rely guarantee post state) :
    (program >>= rest).Meets handles rely guarantee post state := by
  refine Meets.bind (meets.mono ?_)
  intro outcome state held
  cases outcome with
  | ok result => exact continues result state held
  | error failure => exact held

/-- A result that is only repackaged. -/
theorem Meets.repackaged {wrap : Result → Result'} {post' : Except Failure Result' → State → Prop}
    (meets : program.Meets handles rely guarantee post state)
    (carried : ∀ outcome state, post outcome state → post' (outcome.map wrap) state) :
    (program >>= fun result => pure (wrap result)).Meets handles rely guarantee post' state := by
  refine Meets.bind (meets.mono ?_)
  intro outcome state held
  cases outcome with
  | ok result => exact carried _ _ held
  | error failure => exact carried _ _ held

/-- A postcondition on results alone. -/
def returning (holds : Result → State → Prop) : Except Failure Result → State → Prop
  | .ok result, state => holds result state
  | .error _, _ => True

theorem Meets.andThen {holds : Result → State → Prop} {holds' : Result' → State → Prop}
    (meets : program.Meets handles rely guarantee (returning holds) state)
    (continues : ∀ result state, holds result state →
      (rest result).Meets handles rely guarantee (returning holds') state) :
    (program >>= rest).Meets handles rely guarantee (returning holds') state := by
  refine Meets.bind (meets.mono ?_)
  intro outcome state held
  cases outcome with
  | ok result => exact continues result state held
  | error failure => exact trivial

end Correctness

section Sequential

variable {handles : State → (command : Command) → Answer command → State → Prop}

/-- One command performed alone. -/
inductive Step (handles : State → (command : Command) → Answer command → State → Prop) :
    Program Command Answer Failure Result × State →
      Program Command Answer Failure Result × State → Prop where
  | perform {command next answer} {before after : State}
      (answered : handles before command answer after) :
      Step handles (.perform command next, before) (next answer, after)

/-- A run of a program that nobody disturbs. -/
abbrev Runs (handles : State → (command : Command) → Answer command → State → Prop) :
    Program Command Answer Failure Result × State →
      Program Command Answer Failure Result × State → Prop :=
  Relation.ReflTransGen (Step handles)

variable {rely guarantee : State → State → Prop}
  {post : Except Failure Result → State → Prop}
  {program : Program Command Answer Failure Result} {result : Except Failure Result} {state : State}
  {start finish : Program Command Answer Failure Result × State}

/-- What a program meets alone, it meets at every point of its run. -/
theorem Meets.of_runs [Std.Refl rely] (meets : start.1.Meets handles rely guarantee post start.2)
    (runs : Runs handles start finish) : finish.1.Meets handles rely guarantee post finish.2 := by
  induction runs with
  | refl => exact meets
  | tail _ step ih =>
    cases step with
    | perform answered => exact (ih _ (refl_of rely _) _ _ answered).2

theorem Meets.outcome
    (meets : program.Meets handles rely guarantee post state)
    (ended : program.outcome? = some result) : post result state := by
  cases program with
  | done value => exact Option.some.inj ended ▸ meets
  | fail failure => exact Option.some.inj ended ▸ meets
  | perform command next => cases ended

section Confinement

/-- As long as the answers to its commands are fitting, the program issues allowed
commands only, and its result is as promised. -/
def Confined (allowed : Command → Prop) (fitting : (command : Command) → Answer command → Prop)
    (promised : Result → Prop) : Program Command Answer Failure Result → Prop
  | done result => promised result
  | fail _ => True
  | perform command next => allowed command ∧
      ∀ answer, fitting command answer → (next answer).Confined allowed fitting promised

variable {allowed : Command → Prop} {fitting : (command : Command) → Answer command → Prop}
  {promised : Result → Prop} {promised' : Result' → Prop}
  {program : Program Command Answer Failure Result}

theorem Confined.bind (confined : program.Confined allowed fitting promised)
    (continues : ∀ result, promised result → (rest result).Confined allowed fitting promised') :
    (program >>= rest).Confined allowed fitting promised' := by
  induction program with
  | done result => exact continues result confined
  | fail failure => exact trivial
  | perform command next ih =>
    refine ⟨confined.1, ?_⟩
    intro answer fits
    exact ih answer (confined.2 answer fits)

theorem confined_ofExcept {outcome : Except Failure Result}
    (holds : ∀ result, outcome = .ok result → promised result) :
    (ofExcept outcome : Program Command Answer Failure Result).Confined allowed fitting promised := by
  cases outcome with
  | ok result => exact holds result rfl
  | error failure => exact trivial

/-- Renaming failures changes nothing else. -/
theorem Confined.embed {Failure' : Type} {failure : Failure → Failure'}
    (confined : program.Confined allowed fitting promised) :
    (program.embed id (fun _ answer => answer) failure).Confined allowed fitting promised := by
  induction program with
  | done result => exact confined
  | fail failed => exact trivial
  | perform command next ih =>
    refine ⟨confined.1, ?_⟩
    intro answer fits
    exact ih answer (confined.2 answer fits)

theorem Confined.outcome {result : Result} (confined : program.Confined allowed fitting promised)
    (ended : program.outcome? = some (.ok result)) : promised result := by
  cases program with
  | done value =>
    cases ended
    exact confined
  | fail failure => cases ended
  | perform command next => cases ended

/-- Where allowed commands keep an invariant, and the invariant makes answers
fitting, a confined program keeps the invariant all the way. -/
theorem Confined.of_runs {handles : State → (command : Command) → Answer command → State → Prop}
    {holds : State → Prop}
    (keeps : ∀ before command answer after, holds before → allowed command →
      handles before command answer after → fitting command answer ∧ holds after)
    {start finish : Program Command Answer Failure Result × State}
    (confined : start.1.Confined allowed fitting promised) (held : holds start.2)
    (runs : Runs handles start finish) :
    finish.1.Confined allowed fitting promised ∧ holds finish.2 := by
  induction runs with
  | refl => exact ⟨confined, held⟩
  | tail _ step ih =>
    cases step with
    | perform answered =>
      obtain ⟨⟨permitted, remaining⟩, kept⟩ := ih
      obtain ⟨fits, held⟩ := keeps _ _ _ _ kept permitted answered
      exact ⟨remaining _ fits, held⟩

end Confinement

section Evaluation

/-- Run a program alone in an environment that has one answer to every command. -/
def evaluate (answer : State → (command : Command) → Answer command × State) :
    Program Command Answer Failure Result → State → Except Failure Result × State
  | done result, state => (.ok result, state)
  | fail failure, state => (.error failure, state)
  | perform command next, state =>
    (next (answer state command).1).evaluate answer (answer state command).2

theorem evaluate_bind (answer : State → (command : Command) → Answer command × State)
    (program : Program Command Answer Failure Result)
    (rest : Result → Program Command Answer Failure Result') (state : State) :
    (program >>= rest).evaluate answer state =
      match program.evaluate answer state with
      | (.ok result, after) => (rest result).evaluate answer after
      | (.error failure, after) => (.error failure, after) := by
  induction program generalizing state with
  | done result => rfl
  | fail failure => rfl
  | perform command next ih => exact ih _ _

/-- An evaluation is a run. -/
theorem runs_evaluate {answer : State → (command : Command) → Answer command × State}
    (serves : ∀ state command, handles state command (answer state command).1 (answer state command).2)
    (program : Program Command Answer Failure Result) (state : State) :
    ∃ ended, Runs handles (program, state) (ended, (program.evaluate answer state).2) ∧
      ended.outcome? = some (program.evaluate answer state).1 := by
  induction program generalizing state with
  | done result => exact ⟨done result, .refl, rfl⟩
  | fail failure => exact ⟨fail failure, .refl, rfl⟩
  | perform command next ih =>
    obtain ⟨ended, runs, returned⟩ := ih (answer state command).1 (answer state command).2
    exact ⟨ended, runs.head (.perform (serves state command)), returned⟩

end Evaluation

end Sequential

end Program

end Atelia
