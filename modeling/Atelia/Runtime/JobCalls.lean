import Atelia.Foundation.Pool
import Atelia.Runtime.Cancellation
import Atelia.Runtime.Conformance

/-! Calls on jobs that run side by side: runs of tools, cancels and registrations of
repositories, one command at a time and in any order. -/

namespace Atelia.Runtime

open Store

/-- A call of the runtime or of the job lifecycle service. -/
inductive JobCall where
  | runTool (json : ToolOutput.JsonWriter) (request : RuntimeJobRequest) (tool : RuntimeTool)
      (finalizer : Option Finalizer)
  | cancel (target : JobId) (reason : String)
  | register (record : RepositoryRecord)

inductive CallResult where
  | ran (receipt : RuntimeJobReceipt)
  | canceled (receipt : CancelJobReceipt)
  | registered

def JobCall.program : JobCall → Routine CallResult
  | runTool json request tool finalizer => do
    let receipt ← runToolJobWithFinalizer json request tool finalizer
    return .ran receipt
  | cancel target reason => do
    let receipt ← cancelJob target reason
    return .canceled receipt
  | register record => do
    let _ ← store (.createRepository record)
    return .registered

variable {Call : Type} [DecidableEq Call]

/-- The session of a run. -/
def runSession (call : Call) (json : ToolOutput.JsonWriter) (request : RuntimeJobRequest)
    (tool : RuntimeTool) (finalizer : Option Finalizer) : Session Call :=
  ⟨call, json, request, tool, finalizer⟩

/-- What a call has done so far is what its kind of call may do. -/
def JobCall.OnPath (call : Call) (world : World Call) : JobCall → Prop
  | runTool json request tool finalizer => (runSession call json request tool finalizer).OnPath world
  | cancel target _ => CancelPath call target world
  | register record => world.own call = [] ∨
    world.own call = [.committed (.createRepository record)]

/-- What a call says when it returns. -/
def JobCall.Returned (call : Call) (world : World Call) :
    JobCall → Except RuntimeError CallResult → Prop
  | runTool json request tool finalizer, .ok (.ran receipt) => ∃ repository,
    (runSession call json request tool finalizer).Returned repository receipt world
  | runTool _ _ _ _, .error _ => True
  | cancel target _, .ok (.canceled receipt) => CancelReturned call target (.ok receipt) world
  | cancel target _, .error error => CancelReturned call target (.error error) world
  | register _, _ => True
  | _, _ => False

def JobCall.contract (call : Call) (jobCall : JobCall) :
    Pool.Contract RuntimeError CallResult (World Call) where
  rely := World.Others call
  guarantee before after := World.Moves call before after ∧ jobCall.OnPath call after
  post outcome world := jobCall.Returned call world outcome
  rely_refl := inferInstance
  rely_trans := inferInstance

variable {call : Call}

theorem JobCall.OnPath.others {jobCall : JobCall} {before after : World Call}
    (path : jobCall.OnPath call before) (moved : World.Others call before after) :
    jobCall.OnPath call after := by
  cases jobCall with
  | runTool json request tool finalizer =>
    rcases path with unused | ⟨repository, phase, reached⟩
    · exact .inl (moved.own.trans unused)
    · exact .inr ⟨repository, phase, reached.others moved⟩
  | cancel target reason =>
    rcases path with unused | ⟨operation, cancels, own⟩
    · exact .inl (moved.own.trans unused)
    · exact .inr ⟨operation, cancels, moved.own.trans own⟩
  | register record =>
    rcases path with unused | own
    · exact .inl (moved.own.trans unused)
    · exact .inr (moved.own.trans own)

theorem register_meets {world : World Call} (record : RepositoryRecord)
    (unused : world.own call = []) :
    ((JobCall.register record).contract call).MetBy (Serves call)
      (JobCall.register record).program world := by
  intro later moved answer after served
  have own := moved.own.trans unused
  cases answer with
  | ok response =>
    obtain ⟨ledger, answered, rfl⟩ := id served
    refine ⟨⟨served.moves, .inr ?_⟩, trivial⟩
    rw [World.own_commit, own]
    rfl
  | error error =>
    obtain ⟨rfl, _⟩ := id served
    exact ⟨⟨served.moves, .inl own⟩, trivial⟩

/-- Every call meets its contract from a state in which it has done nothing. -/
theorem JobCall.meets {world : World Call} (jobCall : JobCall) (reachable : Reachable world.ledger)
    (unused : world.own call = []) :
    (jobCall.contract call).MetBy (Serves call) jobCall.program world := by
  cases jobCall with
  | runTool json request tool finalizer =>
    let session := runSession call json request tool finalizer
    have follows : session.Follows (runToolJobWithFinalizer json request tool finalizer)
        (fun receipt world => ∃ repository, session.Returned repository receipt world) world :=
      runToolJobWithFinalizer_follows reachable unused
    refine Program.Meets.repackaged follows fun outcome world returned => ?_
    cases outcome with
    | ok receipt => exact returned
    | error error => exact trivial
  | cancel target reason =>
    refine Program.Meets.repackaged (cancelJob_meets reachable unused) fun outcome world returned => ?_
    cases outcome with
    | ok receipt => exact returned
    | error error => exact returned
  | register record => exact register_meets record unused

section Pools

variable {calls : Call → JobCall} {start : World Call}

/-- The calls in progress, with the world they share. -/
abbrev JobPool (Call : Type) : Type :=
  Pool Call RuntimeCommand RuntimeCommand.Answer RuntimeError CallResult (World Call)

/-- The runs of the calls, one command at a time. -/
abbrev JobPool.Run (calls : Call → JobCall) : JobPool Call → JobPool Call → Prop :=
  Pool.Run (fun call => (calls call).program) Serves fun _ _ => False

/-- What holds at every moment of every run of the calls. -/
structure JobPool.Sound (start : World Call) (calls : Call → JobCall) (pool : JobPool Call) :
    Prop where
  reachable : Reachable pool.state.ledger
  adds : ∃ entries, start.Adds entries pool.state
  issued : start.issued <:+ pool.state.issued
  alive : ∀ call, pool.activity call ≠ .crashed
  waiting : ∀ call, pool.activity call = .waiting → pool.state.own call = []
  paths : ∀ call, (calls call).OnPath call pool.state

theorem JobPool.Sound.began (pool : JobPool Call) (sound : Sound start calls pool) :
    Sound start calls (pool.update call (calls call).program pool.state) where
  reachable := sound.reachable
  adds := sound.adds
  issued := sound.issued
  alive := pool.update_alive sound.alive _ _
  waiting other idle := by
    by_cases same : other = call
    · subst same
      rw [Pool.update_same] at idle
      cases idle
    · rw [Pool.update_other _ _ _ same] at idle
      exact sound.waiting other idle
  paths := sound.paths

theorem JobPool.Sound.moved {pool : JobPool Call} {program : Routine CallResult}
    {after : World Call} (sound : Sound start calls pool)
    (moves : World.Moves call pool.state after) (path : (calls call).OnPath call after) :
    Sound start calls (pool.update call program after) := by
  obtain ⟨entries, adds⟩ := sound.adds
  obtain ⟨⟨effects, added⟩, issued, _⟩ := id moves
  refine ⟨sound.reachable.trans added.2.run, ⟨_, adds.append added⟩, sound.issued.trans issued,
    pool.update_alive sound.alive _ _, ?_, ?_⟩
  · intro other idle
    by_cases same : other = call
    · subst same
      rw [Pool.update_same] at idle
      cases idle
    · rw [Pool.update_other _ _ _ same] at idle
      exact (moves.others (Ne.symm same)).own.trans (sound.waiting other idle)
  · intro other
    by_cases same : other = call
    · subst same
      exact path
    · exact (sound.paths other).others (moves.others (Ne.symm same))

theorem JobPool.kept : Pool.Kept (fun call => (calls call).program) Serves (fun _ _ => False)
    (fun call => (calls call).contract call) (Sound start calls) where
  compatible _ _ different _ _ moved := moved.1.others (Ne.symm different)
  starts _ call sound idle := (calls call).meets sound.reachable (sound.waiting call idle)
  started pool _ sound _ := .began pool sound
  promised _ _ _ _ sound _ moved := sound.moved moved.1 moved.2
  restarted _ _ _ impossible := impossible.elim

theorem JobPool.Sound.fresh (reachable : Reachable start.ledger) (quiet : start.history = []) :
    Sound start calls (Pool.fresh start) := by
  have unused : ∀ call, start.own call = [] := by
    intro call
    rw [World.own, quiet]
    rfl
  refine ⟨reachable, ⟨[], .nil start⟩, List.suffix_refl _, ?_, fun call _ => unused call, ?_⟩
  · rintro _ ⟨⟩
  intro call
  have none := unused call
  cases calls call with
  | runTool json request tool finalizer => exact .inl none
  | cancel target reason => exact .inl none
  | register record => exact .inl none

/-- Every moment of a run of calls from an empty history is sound. -/
theorem JobPool.Run.sound (reachable : Reachable start.ledger) (quiet : start.history = [])
    {pool : JobPool Call} (run : JobPool.Run calls (Pool.fresh start) pool) :
    pool.Meets Serves (fun call => (calls call).contract call) ∧ JobPool.Sound start calls pool :=
  JobPool.kept.run run (.fresh start) (.fresh reachable quiet)

/-- What happens after a sound moment. -/
theorem JobPool.Run.since {pool later : JobPool Call} (run : JobPool.Run calls pool later)
    (meets : pool.Meets Serves fun call => (calls call).contract call)
    (sound : JobPool.Sound start calls pool) : JobPool.Sound pool.state calls later :=
  (JobPool.kept.run run meets { sound with
    adds := ⟨[], .nil pool.state⟩
    issued := List.suffix_refl _ }).2

end Pools

end Atelia.Runtime
