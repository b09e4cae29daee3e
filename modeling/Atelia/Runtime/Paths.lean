import Atelia.Ledger.JobEnds
import Atelia.Runtime.Protocol

/-! What the effects of a run say about how far it has come: every operation is disciplined
and writes the one job of the run, and later effects have the earlier ones behind them. -/

namespace Atelia.Runtime

open Store

variable {job : JobId} {invocation : ToolInvocation}

section Paths

variable {Call : Type} {session : Session Call} {repository : RepositoryRecord}
  {effects : List Effect} {phase next : Phase} {effect : Effect}

/-- The job of a run, once it has one. -/
def Phase.job? : Phase → Option JobId
  | fresh => none
  | submitted job | evaluated job _ | decided job _ | started job _ | recorded job _ _
  | invoked job _ _ | executed job _ _ _ | stopped job | failed job | completed job _ => some job

theorem sourceStatus_of_silent {event : JobEvent} {status : JobStatus}
    (silent : ∀ source target, event.kind ≠ .jobStatusChanged source target) :
    event.sourceStatus status = status := by
  unfold JobEvent.sourceStatus
  split
  · rename_i source target kind
    exact absurd kind (silent source target)
  · rfl

theorem Completes.disciplined {finalizer : Option Finalizer}
    {terminal : ToolResultAuditTerminalRequest}
    (completes : Completes finalizer job invocation terminal) :
    (StoreOperation.recordToolResultAuditTerminal terminal).Disciplined := by
  obtain ⟨status, kind⟩ := completes.resultEvent
  refine ⟨⟨by simp [kind], by simp [completes.auditEvent]⟩, completes.running ▸ rfl,
    sourceStatus_of_silent ?_⟩
  intro source target
  rw [kind]
  exact nofun

variable {operation : StoreOperation}

theorem Next.disciplined (taken : Next session repository phase (.committed operation) next) :
    operation.Disciplined := by
  cases taken with
  | submit kind => exact ⟨kind, rfl⟩
  | evaluate evaluated => trivial
  | decide named status kind =>
    simp [StoreOperation.Disciplined, JobEvent.sourceStatus, kind, status, JobStatus.isTerminal]
  | stop named status kind =>
    simp [StoreOperation.Disciplined, JobEvent.sourceStatus, kind, JobStatus.isTerminal]
  | start permitted named status kind =>
    simp [StoreOperation.Disciplined, JobEvent.sourceStatus, kind, JobStatus.isTerminal]
  | record owner decided => trivial
  | invoke named status kind =>
    simp [StoreOperation.Disciplined, JobEvent.sourceStatus, kind, status, JobStatus.isTerminal]
  | artifact answered => cases answered
  | fail named status kind =>
    simp [StoreOperation.Disciplined, JobEvent.sourceStatus, kind, JobStatus.isTerminal]
  | complete completes => exact completes.disciplined

theorem Path.disciplined (path : Path session repository effects phase)
    (member : .committed operation ∈ effects) : operation.Disciplined := by
  induction path with
  | start => cases member
  | step earlier taken ih =>
    rcases List.mem_append.mp member with early | late
    · exact ih early
    · obtain rfl := List.mem_singleton.mp late
      exact taken.disciplined

/-- A step that writes a job writes the job of the run. -/
theorem Next.written (taken : Next session repository phase (.committed operation) next)
    (written : operation.writtenJob = some job) : next.job? = some job := by
  cases taken with
  | submit kind => exact written
  | evaluate evaluated => cases written
  | decide named status kind => exact named ▸ written
  | stop named status kind => exact named ▸ written
  | start permitted named status kind => exact named ▸ written
  | record owner decided => cases written
  | invoke named status kind => exact named ▸ written
  | artifact answered => cases answered
  | fail named status kind => exact named ▸ written
  | complete completes => exact completes.id ▸ written

theorem Next.job_kept (taken : Next session repository phase effect next)
    (known : phase.job? = some job) : next.job? = some job := by
  cases taken with
  | submit kind => cases known
  | _ => exact known

/-- A run writes one job. -/
theorem Path.written (path : Path session repository effects phase)
    (member : .committed operation ∈ effects) (written : operation.writtenJob = some job) :
    phase.job? = some job := by
  induction path with
  | start => cases member
  | step earlier taken ih =>
    rcases List.mem_append.mp member with early | late
    · exact taken.job_kept (ih early)
    · obtain rfl := List.mem_singleton.mp late
      exact taken.written written

/-- The operation that announces that a tool is invoked for a job. -/
inductive Invokes (job : JobId) : StoreOperation → Prop where
  | announce {record : JobRecord} {event : JobEvent} {toolId : String} (named : record.id = job)
      (kind : event.kind = .toolInvoked toolId) :
    Invokes job (.appendJobEventAndUpdateJob record event)

theorem Invokes.written (invokes : Invokes job operation) : operation.writtenJob = some job := by
  cases invokes with
  | announce named kind => exact congrArg some named

/-- The run has announced its invocation. -/
def Phase.hasInvoked : Phase → Bool
  | invoked _ _ _ | executed _ _ _ _ | failed _ | completed _ _ => true
  | _ => false

theorem Next.hasInvoked (taken : Next session repository phase effect next)
    (announced : next.hasInvoked = true) :
    phase.hasInvoked = true ∨ ∃ job operation, effect = .committed operation ∧
      Invokes job operation ∧ next.job? = some job := by
  cases taken with
  | invoke named status kind => exact .inr ⟨_, _, rfl, .announce named kind, rfl⟩
  | execute result => exact .inl rfl
  | artifact answered => exact .inl rfl
  | fail named status kind => exact .inl rfl
  | complete completes => exact .inl rfl
  | _ => cases announced

theorem Path.invoked (path : Path session repository effects phase)
    (announced : phase.hasInvoked = true) :
    ∃ job operation, .committed operation ∈ effects ∧ Invokes job operation ∧
      phase.job? = some job := by
  induction path with
  | start => cases announced
  | step earlier taken ih =>
    rcases taken.hasInvoked announced with early | ⟨job, operation, rfl, invokes, known⟩
    · obtain ⟨job, operation, member, invokes, known⟩ := ih early
      exact ⟨job, operation, List.mem_append_left _ member, invokes, taken.job_kept known⟩
    · exact ⟨job, operation, List.mem_append_right _ List.mem_cons_self, invokes, known⟩

/-- A run calls its tool after it has announced the invocation. -/
theorem Path.executed (path : Path session repository effects phase) {request : RuntimeJobRequest}
    {result : ToolResult} (member : .executed invocation request result ∈ effects) :
    phase.hasInvoked = true := by
  induction path with
  | start => cases member
  | step earlier taken ih =>
    rcases List.mem_append.mp member with early | late
    · have announced := ih early
      cases taken <;> first | exact announced | rfl
    · obtain rfl := List.mem_singleton.mp late
      cases taken with
      | execute result => rfl
      | artifact answered => cases answered

/-- The run has ended its job. -/
def Phase.hasEnded : Phase → Bool
  | stopped _ | failed _ | completed _ _ => true
  | _ => false

theorem Next.hasEnded (taken : Next session repository phase effect next)
    (ended : next.hasEnded = true) :
    ∃ operation, effect = .committed operation ∧ operation.ends = true ∧
      operation.writtenJob = next.job? := by
  cases taken with
  | stop named status kind =>
    exact ⟨_, rfl, by simp [StoreOperation.ends, status]; rfl, congrArg some named⟩
  | fail named status kind =>
    exact ⟨_, rfl, by simp [StoreOperation.ends, status]; rfl, congrArg some named⟩
  | complete completes => exact ⟨_, rfl, rfl, congrArg some completes.id⟩
  | _ => cases ended

theorem Path.ended (path : Path session repository effects phase) (ended : phase.hasEnded = true) :
    ∃ operation, .committed operation ∈ effects ∧ operation.ends = true ∧
      operation.writtenJob = phase.job? := by
  cases path with
  | start => cases ended
  | step earlier taken =>
    obtain ⟨operation, rfl, ends, written⟩ := taken.hasEnded ended
    exact ⟨operation, List.mem_append_right _ List.mem_cons_self, ends, written⟩

/-- The tool invocation of a run, once it is recorded. -/
def Phase.invocation? : Phase → Option ToolInvocation
  | recorded _ _ invocation | invoked _ _ invocation | executed _ _ invocation _ => some invocation
  | _ => none

theorem Path.recorded (path : Path session repository effects phase)
    (known : phase.invocation? = some invocation) :
    .committed (.createToolInvocation invocation) ∈ effects ∧
      phase.job? = some invocation.jobId := by
  induction path with
  | start => cases known
  | step earlier taken ih =>
    cases taken with
    | record owner decided =>
      obtain rfl := Option.some.inj known
      exact ⟨List.mem_append_right _ List.mem_cons_self, congrArg some owner.symm⟩
    | invoke named status kind => exact (ih known).imp_left (List.mem_append_left _)
    | execute result => exact (ih known).imp_left (List.mem_append_left _)
    | artifact answered => exact (ih known).imp_left (List.mem_append_left _)
    | _ => cases known

/-- A terminal request of a run is about the tool invocation the run has recorded. -/
theorem Path.completed (path : Path session repository effects phase)
    {request : ToolResultAuditTerminalRequest}
    (member : .committed (.recordToolResultAuditTerminal request) ∈ effects) :
    ∃ invocation, .committed (.createToolInvocation invocation) ∈ effects ∧
      invocation.jobId = request.record.id ∧ request.toolResult.invocationId = invocation.id ∧
      request.auditRecord.toolInvocationId = some invocation.id := by
  induction path with
  | start => cases member
  | step earlier taken ih =>
    rcases List.mem_append.mp member with early | late
    · obtain ⟨invocation, recorded, facts⟩ := ih early
      exact ⟨invocation, List.mem_append_left _ recorded, facts⟩
    · obtain rfl := List.mem_singleton.mp late
      cases taken with
      | artifact answered => cases answered
      | complete completes =>
        obtain ⟨recorded, owner⟩ := earlier.recorded rfl
        have same := (Option.some.inj owner).symm.trans completes.id.symm
        exact ⟨_, List.mem_append_left _ recorded, same, completes.result, completes.audit⟩

/-- A path can be cut before any of its effects. -/
theorem Path.cut {early late : List Effect}
    (path : Path session repository (early ++ effect :: late) phase) :
    ∃ middle next, Path session repository early middle ∧
      Next session repository middle effect next := by
  generalize whole : early ++ effect :: late = effects at path
  induction path generalizing late with
  | start => simp at whole
  | @step effects last earlier phase path taken ih =>
    cases late using List.reverseRecOn with
    | nil =>
      obtain ⟨rfl, same⟩ := List.append_inj' whole rfl
      obtain rfl := List.singleton_inj.mp same
      exact ⟨_, _, path, taken⟩
    | append_singleton rest final =>
      rw [← List.cons_append, ← List.append_assoc] at whole
      exact ih (List.append_inj' whole rfl).1

theorem Next.created (taken : Next session repository phase effect next)
    (known : next.job? = some job) :
    phase.job? = some job ∨ ∃ operation, effect = .committed operation ∧
      operation.createdJob = some job := by
  cases taken with
  | submit kind => exact .inr ⟨_, rfl, known⟩
  | _ => exact .inl known

/-- The job of a run is the one it has created. -/
theorem Path.created (path : Path session repository effects phase) (known : phase.job? = some job) :
    ∃ operation, .committed operation ∈ effects ∧ operation.createdJob = some job := by
  induction path with
  | start => cases known
  | step earlier taken ih =>
    rcases taken.created known with early | ⟨operation, rfl, creates⟩
    · obtain ⟨operation, member, creates⟩ := ih early
      exact ⟨operation, List.mem_append_left _ member, creates⟩
    · exact ⟨operation, List.mem_append_right _ List.mem_cons_self, creates⟩

end Paths

section Decisions

variable {Call : Type} {session : Session Call} {repository : RepositoryRecord}
  {effects : List Effect} {phase next : Phase} {effect : Effect} {decision : PolicyDecision}

/-- The phases after a policy decision: with a decision that does not permit the
tool a run gets no further than to stop. -/
def Phase.Follows (decision : PolicyDecision) : Phase → Prop
  | fresh | submitted _ => False
  | evaluated _ taken | decided _ taken => taken = decision
  | started _ taken | recorded _ taken _ | invoked _ taken _ | executed _ taken _ _ =>
    taken = decision ∧ Policy.permits decision.outcome
  | stopped _ => True
  | failed _ | completed _ _ => Policy.permits decision.outcome

theorem Next.follows (taken : Next session repository phase effect next)
    (follows : phase.Follows decision) : next.Follows decision := by
  cases taken with
  | submit kind => exact follows.elim
  | evaluate evaluated => exact follows.elim
  | decide named status kind => exact follows
  | stop named status kind => trivial
  | start permitted named status kind => exact ⟨follows, (show _ = decision from follows) ▸ permitted⟩
  | record owner decided => exact follows
  | invoke named status kind => exact follows
  | execute result => exact follows
  | artifact answered => exact follows
  | fail named status kind => exact follows.2
  | complete completes => exact follows.2

theorem Path.follows (path : Path session repository effects phase)
    (member : .committed (.createPolicyDecision decision) ∈ effects) : phase.Follows decision := by
  induction path with
  | start => cases member
  | step earlier taken ih =>
    rcases List.mem_append.mp member with early | late
    · exact taken.follows (ih early)
    · obtain rfl := List.mem_singleton.mp late
      cases taken with
      | evaluate evaluated => rfl
      | artifact answered => cases answered

/-- The run has recorded its tool invocation. -/
def Phase.hasRecorded : Phase → Bool
  | recorded _ _ _ | invoked _ _ _ | executed _ _ _ _ | failed _ | completed _ _ => true
  | _ => false

/-- A tool invocation of a run is for the job of the run. -/
theorem Path.owned (path : Path session repository effects phase)
    (member : .committed (.createToolInvocation invocation) ∈ effects) :
    phase.hasRecorded = true ∧ phase.job? = some invocation.jobId := by
  induction path with
  | start => cases member
  | step earlier taken ih =>
    rcases List.mem_append.mp member with early | late
    · obtain ⟨recorded, known⟩ := ih early
      refine ⟨?_, taken.job_kept known⟩
      cases taken <;> first | exact recorded | rfl
    · obtain rfl := List.mem_singleton.mp late
      cases taken with
      | record owner decided => exact ⟨rfl, congrArg some owner.symm⟩
      | artifact answered => cases answered

/-- With a decision that does not permit the tool there is no tool invocation. -/
theorem Phase.Follows.permits (follows : phase.Follows decision)
    (recorded : phase.hasRecorded = true) : Policy.permits decision.outcome := by
  cases phase with
  | recorded => exact follows.2
  | invoked => exact follows.2
  | executed => exact follows.2
  | failed => exact follows
  | completed => exact follows
  | _ => cases recorded

/-- The policy decision of a run, while it is under way. -/
def Phase.decision? : Phase → Option PolicyDecision
  | evaluated _ decision | decided _ decision | started _ decision | recorded _ decision _
  | invoked _ decision _ | executed _ decision _ _ => some decision
  | _ => none

/-- The decision is what the policy says of the run. -/
structure Evaluated (session : Session Call) (repository : RepositoryRecord)
    (decision : PolicyDecision) : Prop where
  capability : decision.requestedCapability =
    normalizedRequestedCapability session.tool.requestedCapability
  repositoryId : decision.repositoryId = session.request.repositoryId
  outcome : decision.outcome = (Policy.evaluateRule (policyInput session.request session.tool
    (normalizedRequestedCapability session.tool.requestedCapability) repository)).outcome

theorem Evaluated.of_evaluate {uuid : Uuid} {createdAt : LedgerTimestamp}
    (evaluated : decision = Policy.evaluate uuid createdAt (policyInput session.request session.tool
      (normalizedRequestedCapability session.tool.requestedCapability) repository)) :
    Evaluated session repository decision := by
  refine ⟨?_, ?_, ?_⟩
  · rw [evaluated, Policy.evaluate_requestedCapability, policyInput]
  · rw [evaluated, Policy.evaluate_repositoryId, policyInput]
  · rw [evaluated, Policy.evaluate_outcome]

theorem Path.evaluated (path : Path session repository effects phase)
    (known : phase.decision? = some decision) :
    .committed (.createPolicyDecision decision) ∈ effects ∧
      Evaluated session repository decision := by
  induction path with
  | start => cases known
  | step earlier taken ih =>
    cases taken with
    | submit kind => cases known
    | evaluate evaluated =>
      obtain rfl := Option.some.inj known
      exact ⟨List.mem_append_right _ List.mem_cons_self, .of_evaluate evaluated⟩
    | stop named status kind => cases known
    | fail named status kind => cases known
    | complete completes => cases known
    | _ => exact (ih known).imp_left (List.mem_append_left _)

/-- The operation with which a run starts its job. -/
inductive Starts (job : JobId) : StoreOperation → Prop where
  | running {record : JobRecord} {event : JobEvent} (named : record.id = job)
      (status : record.status = .running) (kind : event.kind = .jobStatusChanged .queued .running) :
    Starts job (.appendJobEventAndUpdateJob record event)

/-- The run has started its job and is not at its end. -/
def Phase.isRunning : Phase → Bool
  | started _ _ | recorded _ _ _ | invoked _ _ _ | executed _ _ _ _ => true
  | _ => false

theorem Next.running (taken : Next session repository phase effect next)
    (running : next.isRunning = true) :
    phase.isRunning = true ∨ ∃ job operation, effect = .committed operation ∧
      Starts job operation ∧ next.job? = some job := by
  cases taken with
  | start permitted named status kind => exact .inr ⟨_, _, rfl, .running named status kind, rfl⟩
  | record owner decided => exact .inl rfl
  | invoke named status kind => exact .inl rfl
  | execute result => exact .inl rfl
  | artifact answered => exact .inl rfl
  | _ => cases running

theorem Path.running (path : Path session repository effects phase)
    (running : phase.isRunning = true) :
    ∃ job operation, .committed operation ∈ effects ∧ Starts job operation ∧
      phase.job? = some job := by
  induction path with
  | start => cases running
  | step earlier taken ih =>
    rcases taken.running running with early | ⟨job, operation, rfl, starts, known⟩
    · obtain ⟨job, operation, member, starts, known⟩ := ih early
      exact ⟨job, operation, List.mem_append_left _ member, starts, taken.job_kept known⟩
    · exact ⟨job, operation, List.mem_append_right _ List.mem_cons_self, starts, known⟩

theorem Path.called {result : ToolResult}
    (path : Path session repository effects (.executed job decision invocation result)) :
    .executed invocation session.request result ∈ effects := by
  generalize reached : Phase.executed job decision invocation result = phase at path
  induction path with
  | start => cases reached
  | step earlier taken ih =>
    cases taken with
    | execute result =>
      cases reached
      exact List.mem_append_right _ List.mem_cons_self
    | artifact answered => exact List.mem_append_left _ (ih reached)
    | _ => cases reached

/-- A run that has completed its job has called its tool. -/
theorem Path.executed_of_completed (path : Path session repository effects phase)
    {request : ToolResultAuditTerminalRequest}
    (member : .committed (.recordToolResultAuditTerminal request) ∈ effects) :
    ∃ invocation request' result, .executed invocation request' result ∈ effects := by
  obtain ⟨early, late, rfl⟩ := List.append_of_mem member
  obtain ⟨middle, next, before, taken⟩ := path.cut
  cases taken with
  | artifact answered => cases answered
  | complete completes => exact ⟨_, _, _, List.mem_append_left _ before.called⟩

end Decisions

end Atelia.Runtime
