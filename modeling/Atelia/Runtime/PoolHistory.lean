import Atelia.Runtime.JobCalls
import Atelia.Runtime.JobHistory
import Atelia.Runtime.Paths

/-! The history of calls that run side by side. -/

namespace Atelia.Runtime

open Store

variable {Call : Type} [DecidableEq Call] {calls : Call → JobCall} {start : World Call}
  {pool later : JobPool Call} {run call : Call} {job : JobId} {effect : Effect}

theorem World.mem_own {world : World Call} :
    effect ∈ world.own call ↔ (call, effect) ∈ world.history := by
  simp only [World.own, List.mem_filterMap, Prod.exists]
  constructor
  · rintro ⟨other, found, member, own⟩
    split at own
    · rename_i same
      obtain rfl := Option.some.inj own
      exact same ▸ member
    · cases own
  · intro member
    exact ⟨call, effect, member, if_pos rfl⟩

section Cancels

variable {operation : StoreOperation}

theorem Cancels.disciplined (cancels : Cancels job operation) : operation.Disciplined := by
  obtain ⟨named, unended, _, cancelKind, statusKind⟩ := cancels
  simp [StoreOperation.Disciplined, JobEvent.sourceStatus, cancelKind, statusKind, unended]

theorem Cancels.ends (cancels : Cancels job operation) : operation.ends = true := by
  obtain ⟨_, _, status, _, _⟩ := cancels
  simp [StoreOperation.ends, status, JobStatus.isTerminal]

theorem Cancels.written (cancels : Cancels job operation) : operation.writtenJob = some job := by
  obtain ⟨named, _, _, _, _⟩ := cancels
  exact congrArg some named

end Cancels

variable {operation : StoreOperation}

section Histories

theorem JobCall.OnPath.disciplined {jobCall : JobCall} {world : World Call}
    (path : jobCall.OnPath call world) : Disciplined (world.own call) := by
  intro operation member
  cases jobCall with
  | runTool json request tool finalizer =>
    rcases path with unused | ⟨repository, phase, reached⟩
    · have none : world.own call = [] := unused
      rw [none] at member
      cases member
    · exact reached.path.disciplined member
  | cancel target reason =>
    rcases path with unused | ⟨other, cancels, own⟩
    · rw [unused] at member
      cases member
    · rw [own, List.mem_singleton, Effect.committed.injEq] at member
      exact member ▸ cancels.disciplined
  | register record =>
    rcases path with unused | own
    · rw [unused] at member
      cases member
    · rw [own, List.mem_singleton, Effect.committed.injEq] at member
      exact member ▸ trivial

/-- The effects since the start, in order. -/
theorem JobPool.Sound.replays (sound : pool.Sound start calls) (quiet : start.history = []) :
    Replays start.ledger (pool.state.history.map Prod.snd) pool.state.ledger := by
  obtain ⟨entries, added, replays⟩ := sound.adds
  rw [quiet, List.nil_append] at added
  exact added ▸ replays

theorem JobPool.Sound.disciplined (sound : pool.Sound start calls) :
    Disciplined (pool.state.history.map Prod.snd) := by
  intro operation member
  obtain ⟨⟨call, effect⟩, listed, rfl⟩ := List.mem_map.mp member
  exact (sound.paths call).disciplined operation (World.mem_own.mpr listed)

/-- What the calls have added since an earlier moment. -/
theorem JobPool.Sound.since (sound : later.Sound pool.state calls) :
    ∃ entries, later.state.history = pool.state.history ++ entries ∧
      Disciplined (entries.map Prod.snd) ∧
      Replays pool.state.ledger (entries.map Prod.snd) later.state.ledger := by
  obtain ⟨entries, added, replays⟩ := sound.adds
  refine ⟨entries, added, ?_, replays⟩
  have disciplined := sound.disciplined
  rw [added, List.map_append] at disciplined
  exact disciplined.of_append.2

theorem JobPool.Sound.history_grows (sound : later.Sound pool.state calls) {entry : Call × Effect}
    (member : entry ∈ pool.state.history) : entry ∈ later.state.history := by
  obtain ⟨entries, added, _⟩ := sound.since
  rw [added]
  exact List.mem_append_left _ member

theorem JobPool.Sound.own_grows (sound : later.Sound pool.state calls)
    (member : effect ∈ pool.state.own call) : effect ∈ later.state.own call :=
  World.mem_own.mpr (sound.history_grows (World.mem_own.mp member))

/-- The call has ended the job. -/
def JobPool.EndedBy (pool : JobPool Call) (call : Call) (job : JobId) (operation : StoreOperation) :
    Prop :=
  .committed operation ∈ pool.state.own call ∧ operation.ends = true ∧
    operation.writtenJob = some job

section Reached

variable (sound : pool.Sound start calls) (quiet : start.history = [])
  (reachable : Reachable start.ledger)
include sound quiet reachable

/-- After the end of a job the history writes the job no more. -/
theorem JobPool.Sound.after_end {early late : List (Call × Effect)}
    (split : pool.state.history = early ++ (call, .committed operation) :: late)
    (ends : operation.ends = true) (written : operation.writtenJob = some job) :
    Ended pool.state.ledger job ∧ ∀ other, .committed other ∈ late.map Prod.snd →
      other.writtenJob ≠ some job := by
  have replays := sound.replays quiet
  have disciplined := sound.disciplined
  rw [split, List.map_append, List.map_cons] at replays disciplined
  exact replays.after_end disciplined reachable ends written

theorem JobPool.Sound.ended (ended : pool.EndedBy call job operation) : Ended pool.state.ledger job := by
  obtain ⟨early, late, split⟩ := List.append_of_mem (World.mem_own.mp ended.1)
  exact (sound.after_end quiet reachable split ended.2.1 ended.2.2).1

/-- A job is ended once, by one call. -/
theorem JobPool.Sound.ended_once {first second : Call} {operation' : StoreOperation}
    (ended : pool.EndedBy first job operation) (ended' : pool.EndedBy second job operation') :
    first = second ∧ operation = operation' := by
  obtain ⟨early, late, split⟩ := List.append_of_mem (World.mem_own.mp ended.1)
  have member := World.mem_own.mp ended'.1
  rw [split, List.mem_append, List.mem_cons] at member
  rcases member with before | same | behind
  · -- the second was performed first: then the first is among what follows it
    obtain ⟨earlier, between, rfl⟩ := List.append_of_mem before
    rw [List.append_assoc, List.cons_append] at split
    have unwritten := (sound.after_end quiet reachable split ended'.2.1 ended'.2.2).2
    exact absurd ended.2.2 (unwritten operation (by simp))
  · rw [Prod.mk.injEq, Effect.committed.injEq] at same
    exact ⟨same.1.symm, same.2.symm⟩
  · have unwritten := (sound.after_end quiet reachable split ended.2.1 ended.2.2).2
    exact absurd ended'.2.2 (unwritten operation' (List.mem_map.mpr ⟨_, behind, rfl⟩))

end Reached

end Histories

section Calls

variable {json : ToolOutput.JsonWriter} {request : RuntimeJobRequest} {tool : RuntimeTool}
  {finalizer : Option Finalizer}

section Sound

variable (sound : pool.Sound start calls)
include sound

/-- A run that has done something has come to a phase of the protocol. -/
theorem JobPool.Sound.run_at (isRun : calls run = .runTool json request tool finalizer)
    (member : effect ∈ pool.state.own run) :
    ∃ repository phase, (runSession run json request tool finalizer).At repository phase
      pool.state := by
  have path := sound.paths run
  rw [isRun] at path
  rcases path with unused | reached
  · have none : pool.state.own run = [] := unused
    rw [none] at member
    cases member
  · exact reached

theorem JobPool.Sound.run_path (isRun : calls run = .runTool json request tool finalizer)
    (member : effect ∈ pool.state.own run) :
    ∃ repository phase, Path (runSession run json request tool finalizer) repository
      (pool.state.own run) phase := by
  obtain ⟨repository, phase, reached⟩ := sound.run_at isRun member
  exact ⟨repository, phase, reached.path⟩

theorem JobPool.Sound.cancels {canceler : Call} {reason : String}
    (isCancel : calls canceler = .cancel job reason)
    (member : .committed operation ∈ pool.state.own canceler) : Cancels job operation := by
  have path := sound.paths canceler
  rw [isCancel] at path
  rcases path with unused | ⟨other, cancels, own⟩
  · rw [unused] at member
    cases member
  · rw [own, List.mem_singleton, Effect.committed.injEq] at member
    exact member ▸ cancels

/-- The call has created the job. -/
def JobPool.Created (pool : JobPool Call) (call : Call) (job : JobId) : Prop :=
  ∃ operation, .committed operation ∈ pool.state.own call ∧ operation.createdJob = some job

/-- Terminal requests come from runs, for the invocations these have recorded. -/
theorem JobPool.Sound.terminal_recorded {terminal : ToolResultAuditTerminalRequest}
    (member : .committed (.recordToolResultAuditTerminal terminal) ∈ pool.state.own call) :
    ∃ invocation, .committed (.createToolInvocation invocation) ∈ pool.state.own call ∧
      invocation.jobId = terminal.record.id ∧ terminal.toolResult.invocationId = invocation.id ∧
      terminal.auditRecord.toolInvocationId = some invocation.id := by
  cases kind : calls call with
  | runTool json request tool finalizer =>
    obtain ⟨repository, phase, path⟩ := sound.run_path kind member
    exact path.completed member
  | cancel target reason => cases sound.cancels kind member
  | register record =>
    have path := sound.paths call
    rw [kind] at path
    rcases path with unused | own
    · rw [unused] at member
      cases member
    · rw [own, List.mem_singleton, Effect.committed.injEq] at member
      cases member

/-- Tool invocations come from runs, for the jobs these have created. -/
theorem JobPool.Sound.invocation_recorded {invocation : ToolInvocation}
    (member : .committed (.createToolInvocation invocation) ∈ pool.state.own call) :
    pool.Created call invocation.jobId := by
  cases kind : calls call with
  | runTool json request tool finalizer =>
    obtain ⟨repository, phase, path⟩ := sound.run_path kind member
    exact path.created (path.owned member).2
  | cancel target reason => cases sound.cancels kind member
  | register record =>
    have path := sound.paths call
    rw [kind] at path
    rcases path with unused | own
    · rw [unused] at member
      cases member
    · rw [own, List.mem_singleton, Effect.committed.injEq] at member
      cases member

end Sound

/-- A run that returns a receipt has ended its job. -/
theorem JobPool.Run.ended_of_ok (reachable : Reachable start.ledger) (quiet : start.history = [])
    (ran : JobPool.Run calls (Pool.fresh start) pool)
    (isRun : calls run = .runTool json request tool finalizer) {result : CallResult}
    (returned : pool.outcome? run = some (.ok result)) :
    ∃ job operation, pool.EndedBy run job operation := by
  obtain ⟨moment, early, late, _, post⟩ := JobPool.kept.returned ran (.fresh start)
    (.fresh reachable quiet) rfl returned
  obtain ⟨meets, sound⟩ := JobPool.Run.sound reachable quiet early
  have sound := JobPool.Run.since late meets sound
  have finished : ∃ repository phase, (runSession run json request tool finalizer).At repository phase
      moment.state ∧ phase.hasEnded = true := by
    change (calls run).Returned run moment.state (.ok result) at post
    rw [isRun] at post
    cases result with
    | ran receipt =>
      obtain ⟨repository, stopped | completed⟩ := post
      · exact ⟨repository, _, stopped, rfl⟩
      · exact ⟨repository, _, completed, rfl⟩
    | canceled receipt => exact post.elim
    | registered => exact post.elim
  obtain ⟨repository, phase, reached, ended⟩ := finished
  obtain ⟨operation, member, ends, written⟩ := reached.path.ended ended
  obtain ⟨job, known⟩ : ∃ job, phase.job? = some job := by
    cases phase <;> first | exact ⟨_, rfl⟩ | cases ended
  exact ⟨job, operation, sound.own_grows member, ends, written.trans known⟩

/-- The job a call creates was not there before. -/
theorem JobPool.Sound.created_absent (sound : pool.Sound start calls) (quiet : start.history = [])
    (reachable : Reachable start.ledger) (member : .committed operation ∈ pool.state.own call)
    (created : operation.createdJob = some job) : start.ledger.jobs[job]? = none := by
  have listed := List.mem_map_of_mem (f := Prod.snd) (World.mem_own.mp member)
  obtain ⟨_, _, response, inner, next, _, first, answered, _⟩ :=
    (sound.replays quiet).performed listed
  obtain ⟨fresh, _⟩ := StoreOperation.createdJob_write created answered
  by_contra present
  obtain ⟨record, found⟩ := Option.ne_none_iff_exists'.mp present
  obtain ⟨kept, foundKept, _⟩ := Run.job_kept reachable first.run found
  cases fresh.symm.trans foundKept

/-- A job is created once, by one call. -/
theorem JobPool.Sound.created_once (sound : pool.Sound start calls) (quiet : start.history = [])
    (reachable : Reachable start.ledger) {first second : Call} {operation' : StoreOperation}
    (member : .committed operation ∈ pool.state.own first)
    (created : operation.createdJob = some job)
    (member' : .committed operation' ∈ pool.state.own second)
    (created' : operation'.createdJob = some job) : first = second := by
  have replays := sound.replays quiet
  obtain ⟨early, late, split⟩ := List.append_of_mem (World.mem_own.mp member)
  have listed := World.mem_own.mp member'
  rw [split, List.mem_append, List.mem_cons] at listed
  rcases listed with before | same | behind
  · obtain ⟨earlier, between, rfl⟩ := List.append_of_mem before
    rw [split, List.append_assoc, List.cons_append, List.map_append, List.map_cons,
      List.map_append, List.map_cons] at replays
    exact (replays.not_created_again reachable created' created).elim
  · exact (congrArg Prod.fst same).symm
  · obtain ⟨between, later, rfl⟩ := List.append_of_mem behind
    rw [split, List.map_append, List.map_cons, List.map_append, List.map_cons] at replays
    exact (replays.not_created_again reachable created created').elim

end Calls

end Atelia.Runtime
