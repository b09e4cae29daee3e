import Atelia.Ledger.JobMoves
import Atelia.Store.Runs

/-! The end of a job. -/

namespace Atelia.Store

open Outcome

variable {before after : InMemoryInner} {events log : List JobEvent} {job : JobId}

/-- The job that an operation creates or updates. -/
def StoreOperation.writtenJob : StoreOperation → Option JobId
  | .createJob record _ => some record.id
  | .appendJobEventAndUpdateJob record _ => some record.id
  | .appendJobEventsAndUpdateJob firstRecord _ _ _ => some firstRecord.id
  | .recordToolResultAuditTerminal request => some request.record.id
  | _ => none

/-- The job that an operation creates. -/
def StoreOperation.createdJob : StoreOperation → Option JobId
  | .createJob record _ => some record.id
  | _ => none

/-- Operations that create a queued job by its submission, update a job that they say has
not ended by events other than a submission, or write no job at all. -/
def StoreOperation.Disciplined : StoreOperation → Prop
  | .createJob record event => event.kind = .jobSubmitted ∧ record.status = .queued
  | .createRepository _ | .createPolicyDecision _ | .createToolInvocation _ => True
  | .appendJobEventAndUpdateJob record event => event.kind ≠ .jobSubmitted ∧
    (event.sourceStatus record.status).isTerminal = false
  | .appendJobEventsAndUpdateJob firstRecord firstEvent _ finalEvent =>
    (firstEvent.kind ≠ .jobSubmitted ∧ finalEvent.kind ≠ .jobSubmitted) ∧
      (firstEvent.sourceStatus firstRecord.status).isTerminal = false
  | .recordToolResultAuditTerminal request =>
    (request.toolResultEvent.kind ≠ .jobSubmitted ∧ request.auditEvent.kind ≠ .jobSubmitted) ∧
      request.record.status.isTerminal = false ∧
      request.toolResultEvent.sourceStatus request.record.status = request.record.status
  | _ => False

/-- What a disciplined operation does to the jobs. -/
inductive JobWrite (before after : InMemoryInner) :
    List JobEvent → Option JobId → Prop where
  | created {job : JobId} {event : JobEvent} {next : JobRecord} (fresh : before.jobs[job]? = none)
      (stored : after.jobs[job]? = some next) (queued : next.status = .queued)
      (latest : next.latestEventId = some event.id)
      (others : ∀ other, other ≠ job → after.jobs[other]? = before.jobs[other]?)
      (named : event.refs.jobId = some job) (submitted : event.kind = .jobSubmitted) :
    JobWrite before after [event] (some job)
  | moved {job : JobId} {events : List JobEvent} {source target : JobStatus}
      (move : JobMove before after events job source target)
      (unended : source.isTerminal = false)
      (unsubmitted : ∀ event ∈ events, event.kind ≠ .jobSubmitted) :
    JobWrite before after events (some job)
  | spared (jobs : after.jobs = before.jobs) : JobWrite before after [] none

theorem JobWrite.of_create {record : JobRecord} {event stored : JobEvent}
    (submitted : event.kind = .jobSubmitted) (queued : record.status = .queued)
    (ran : createJobWithInitialEvent record event before = .ok (stored, after)) :
    JobWrite before after [stored] (some record.id) := by
  obtain ⟨⟨_, fresh, initial, _⟩, _, rfl, rfl, _⟩ := createJobWithInitialEvent_eq_ok.mp ran
  refine .created fresh (withJobEvent_job _ _ _) queued rfl ?_
    (validateInitialEventForJob_job initial) submitted
  intro other different
  exact Table.lookup_insert_other (Ne.symm different)

/-- An event that announces the end of a job is not a submission. -/
theorem unsubmitted_of_closes {event : JobEvent} (closes : event.closes = true) :
    event.kind ≠ .jobSubmitted := by
  intro submitted
  rw [JobEvent.closes, submitted] at closes
  cases closes

variable {operation : StoreOperation}

/-- Every disciplined operation that succeeds writes its job as described. -/
theorem StoreOperation.Disciplined.write (disciplined : operation.Disciplined)
    {response : operation.Response} (answered : operation.mutation before = .ok (response, after)) :
    JobWrite before after (operation.published response) operation.writtenJob := by
  cases operation with
  | createJob record event => exact .of_create disciplined.1 disciplined.2 answered
  | appendJobEventAndUpdateJob record event =>
    refine .moved (.of_append answered) disciplined.2 ?_
    obtain ⟨_, _, rfl, _⟩ := appendJobEventAndUpdateJob_eq_ok.mp answered
    exact List.forall_mem_singleton.mpr disciplined.1
  | appendJobEventsAndUpdateJob firstRecord firstEvent finalRecord finalEvent =>
    refine .moved (.of_appendEvents answered) disciplined.2 ?_
    obtain ⟨_, _, rfl, _⟩ := appendJobEventsAndUpdateJob_eq_ok.mp answered
    exact List.forall_mem_cons.mpr ⟨disciplined.1.1, List.forall_mem_singleton.mpr disciplined.1.2⟩
  | recordToolResultAuditTerminal request =>
    refine .moved (.of_terminal answered disciplined.2.2) disciplined.2.1 ?_
    have last := unsubmitted_of_closes (terminalEvent_announces answered disciplined.2.1)
    obtain ⟨_, _, rfl, _⟩ := recordToolResultAuditTerminal_eq_ok.mp answered
    exact List.forall_mem_cons.mpr ⟨disciplined.1.1,
      List.forall_mem_cons.mpr ⟨disciplined.1.2, List.forall_mem_singleton.mpr last⟩⟩
  | createRepository record =>
    obtain ⟨_, rfl⟩ := createRepository_eq_ok.mp answered
    exact .spared rfl
  | createPolicyDecision record =>
    obtain ⟨_, _, _, rfl⟩ := createPolicyDecision_eq_ok.mp answered
    exact .spared rfl
  | createToolInvocation record =>
    obtain ⟨_, _, rfl⟩ := createToolInvocation_eq_ok.mp answered
    exact .spared rfl
  | _ => exact disciplined.elim

/-- The job is stored with a terminal status. -/
def Ended (inner : InMemoryInner) (job : JobId) : Prop :=
  ∃ record, inner.jobs[job]? = some record ∧ record.status.isTerminal = true

/-- Operations that end the job they write. -/
def StoreOperation.ends : StoreOperation → Bool
  | .appendJobEventAndUpdateJob record _ => record.status.isTerminal
  | .appendJobEventsAndUpdateJob _ _ finalRecord _ => finalRecord.status.isTerminal
  | .recordToolResultAuditTerminal _ => true
  | _ => false

theorem terminalStatus_isTerminal (status : ToolResultStatus) :
    (terminalStatus status).isTerminal = true := by
  cases status <;> rfl

theorem StoreOperation.Disciplined.ended (disciplined : operation.Disciplined)
    (ends : operation.ends = true) {response : operation.Response}
    (written : operation.writtenJob = some job)
    (answered : operation.mutation before = .ok (response, after)) : Ended after job := by
  cases operation with
  | appendJobEventAndUpdateJob record event =>
    obtain ⟨next, found, status⟩ := (JobMove.of_append answered).moved
    exact ⟨next, Option.some.inj written ▸ found, status ▸ ends⟩
  | appendJobEventsAndUpdateJob firstRecord firstEvent finalRecord finalEvent =>
    obtain ⟨next, found, status⟩ := (JobMove.of_appendEvents answered).moved
    exact ⟨next, Option.some.inj written ▸ found, status ▸ ends⟩
  | recordToolResultAuditTerminal request =>
    obtain ⟨next, found, status⟩ := (JobMove.of_terminal answered disciplined.2.2).moved
    exact ⟨next, Option.some.inj written ▸ found, status ▸ terminalStatus_isTerminal _⟩
  | _ => cases ends

variable {written : Option JobId}

/-- The events of an operation name the job it writes. -/
theorem JobWrite.named (write : JobWrite before after events written) :
    ∀ event ∈ events, event.refs.jobId.isSome = true ∧ event.refs.jobId = written := by
  intro event member
  cases write with
  | created fresh stored queued latest others named submitted =>
    obtain rfl := List.mem_singleton.mp member
    simp [named]
  | moved move unended unsubmitted => simp [move.named event member]
  | spared jobs => cases member

/-- An operation leaves the jobs as they are that it does not write. -/
theorem JobWrite.others (write : JobWrite before after events written)
    (different : written ≠ some job) : after.jobs[job]? = before.jobs[job]? := by
  cases write with
  | created fresh stored queued latest others named submitted =>
    exact others job fun same => different (congrArg some same.symm)
  | moved move unended unsubmitted =>
    exact move.others job fun same => different (congrArg some same.symm)
  | spared jobs => rw [jobs]

/-- A job that has ended is left alone. -/
theorem JobWrite.ended (write : JobWrite before after events written) (ended : Ended before job) :
    written ≠ some job := by
  obtain ⟨record, found, terminal⟩ := ended
  rintro rfl
  cases write with
  | created fresh stored queued latest others named submitted =>
    rw [found] at fresh
    cases fresh
  | moved move unended unsubmitted =>
    obtain ⟨existing, found', rfl⟩ := move.found
    obtain rfl := Option.some.inj (found.symm.trans found')
    rw [terminal] at unended
    cases unended

/-- The event announces the end of the job. -/
def Closes (job : JobId) (event : JobEvent) : Bool :=
  event.closes && decide (event.refs.jobId = some job)

/-- The log announces the end of a job at most once, and not while the job is open. -/
structure EndsOnce (inner : InMemoryInner) (log : List JobEvent) (job : JobId) : Prop where
  once : log.countP (Closes job) ≤ 1
  unended : ¬ Ended inner job → log.countP (Closes job) = 0

/-- Among the events of one job, those that end it are those that end a job. -/
theorem countP_closes_named (named : ∀ event ∈ events, event.refs.jobId = some job) :
    events.countP (Closes job) = events.countP (·.closes) := by
  refine List.countP_congr fun event member => ?_
  simp [Closes, named event member]

theorem ended_congr (same : after.jobs[job]? = before.jobs[job]?) :
    Ended after job ↔ Ended before job := by
  unfold Ended
  rw [same]

theorem EndsOnce.unchanged (ends : EndsOnce before log job)
    (same : after.jobs[job]? = before.jobs[job]?) (none : events.countP (Closes job) = 0) :
    EndsOnce after (log ++ events) job where
  once := by
    rw [List.countP_append, none]
    exact ends.once
  unended unended := by
    rw [List.countP_append, none]
    exact ends.unended (mt (ended_congr same).mpr unended)

theorem EndsOnce.write (ends : EndsOnce before log job)
    (write : JobWrite before after events written) : EndsOnce after (log ++ events) job := by
  by_cases same : written = some job
  · subst same
    have unended : ¬ Ended before job := fun ended => write.ended ended rfl
    have count := ends.unended unended
    have named : ∀ event ∈ events, event.refs.jobId = some job := fun event member =>
      (write.named event member).2
    cases write with
    | @created _ event next fresh stored queued latest others name submitted =>
      have total : (log ++ [event]).countP (Closes job) = 0 := by
        rw [List.countP_append, count, countP_closes_named named, List.countP_singleton]
        simp [JobEvent.closes, submitted]
      exact ⟨total ▸ Nat.zero_le 1, fun _ => total⟩
    | moved move unfinished unsubmitted =>
      obtain ⟨next, foundNext, rfl⟩ := move.moved
      have total : (log ++ events).countP (Closes job) =
          if next.status.isTerminal = true then 1 else 0 := by
        rw [List.countP_append, count, countP_closes_named named, move.closing, unfinished]
        simp
      refine ⟨?_, ?_⟩
      · rw [total]
        split <;> omega
      · intro unended
        rw [total, if_neg fun terminal => unended ⟨next, foundNext, terminal⟩]
  · refine ends.unchanged (write.others same) (List.countP_eq_zero.mpr ?_)
    intro event member closes
    simp only [Closes, Bool.and_eq_true, decide_eq_true_eq] at closes
    exact same ((write.named event member).2.symm.trans closes.2)

/-- Two announcements of the end of a job are one. -/
theorem EndsOnce.unique (ends : EndsOnce before log job) {first second : JobEvent}
    (member : first ∈ log) (member' : second ∈ log) (closes : Closes job first = true)
    (closes' : Closes job second = true) : first = second := by
  have count := ends.once
  rw [List.countP_eq_length_filter] at count
  have kept := List.mem_filter.mpr ⟨member, closes⟩
  have kept' := List.mem_filter.mpr ⟨member', closes'⟩
  cases listed : log.filter (Closes job) with
  | nil =>
    rw [listed] at kept
    cases kept
  | cons only rest =>
    rw [listed] at count kept kept'
    obtain rfl : rest = [] := List.length_eq_zero_iff.mp (by simpa using count)
    exact (List.mem_singleton.mp kept).trans (List.mem_singleton.mp kept').symm

section Tools

theorem insertTerminalReceipt_tools {request : ToolResultAuditTerminalRequest} {final : JobRecord}
    {stored : JobEvent × JobEvent × JobEvent}
    (inserted : insertTerminalReceipt before request final stored = .ok after) :
    after.toolInvocations = before.toolInvocations ∧ after.toolResults = before.toolResults ∧
      after.auditRecords = before.auditRecords := by
  unfold insertTerminalReceipt at inserted
  split at inserted
  · obtain rfl := Except.ok.inj inserted
    exact ⟨rfl, rfl, rfl⟩
  · obtain ⟨_, ⟨_, rfl⟩ | ⟨_, rfl⟩⟩ := insertSubmitJobIdempotencyLocked_eq_ok.mp inserted
    · exact ⟨rfl, rfl, rfl⟩
    · exact ⟨rfl, rfl, rfl⟩

/-- Where the tool records come from that an operation leaves. -/
structure ToolRecords (operation : StoreOperation) (before after : InMemoryInner) : Prop where
  invocations : ∀ (id : ToolInvocationId) (invocation : ToolInvocation),
    after.toolInvocations[id]? = some invocation →
      before.toolInvocations[id]? = some invocation ∨ operation = .createToolInvocation invocation
  results : ∀ (id : ToolResultId) (result : ToolResult), after.toolResults[id]? = some result →
    before.toolResults[id]? = some result ∨
      ∃ request, operation = .recordToolResultAuditTerminal request ∧ request.toolResult = result
  audits : ∀ (id : AuditRecordId) (record : AuditRecord), after.auditRecords[id]? = some record →
    before.auditRecords[id]? = some record ∨
      ∃ request, operation = .recordToolResultAuditTerminal request ∧ request.auditRecord = record

theorem ToolRecords.same (invocations : after.toolInvocations = before.toolInvocations)
    (results : after.toolResults = before.toolResults)
    (audits : after.auditRecords = before.auditRecords) : ToolRecords operation before after :=
  ⟨fun _ _ found => .inl (invocations ▸ found), fun _ _ found => .inl (results ▸ found),
    fun _ _ found => .inl (audits ▸ found)⟩

/-- Among the disciplined operations only the terminal request stores tool results
and audit records, and only one stores tool invocations. -/
theorem StoreOperation.Disciplined.toolRecords (disciplined : operation.Disciplined)
    {response : operation.Response} (answered : operation.mutation before = .ok (response, after)) :
    ToolRecords operation before after := by
  cases operation with
  | createJob record event =>
    obtain ⟨_, _, _, rfl, _⟩ := createJobWithInitialEvent_eq_ok.mp answered
    exact .same rfl rfl rfl
  | appendJobEventAndUpdateJob record event =>
    obtain ⟨_, _, _, rfl, _⟩ := appendJobEventAndUpdateJob_eq_ok.mp answered
    exact .same rfl rfl rfl
  | appendJobEventsAndUpdateJob firstRecord firstEvent finalRecord finalEvent =>
    obtain ⟨_, _, _, rfl, _⟩ := appendJobEventsAndUpdateJob_eq_ok.mp answered
    exact .same rfl rfl rfl
  | recordToolResultAuditTerminal request =>
    obtain ⟨final, _, _, inserted, _⟩ := recordToolResultAuditTerminal_eq_ok.mp answered
    obtain ⟨invocations, results, audits⟩ := insertTerminalReceipt_tools inserted
    refine ⟨fun id invocation found => ?_, fun id result found => ?_, fun id record found => ?_⟩
    · rw [invocations] at found
      exact .inl found
    · rw [results] at found
      exact (Table.lookup_insert_cases found).imp_right fun same => ⟨request, rfl, same⟩
    · rw [audits] at found
      exact (Table.lookup_insert_cases found).imp_right fun same => ⟨request, rfl, same⟩
  | createRepository record =>
    obtain ⟨_, rfl⟩ := createRepository_eq_ok.mp answered
    exact .same rfl rfl rfl
  | createPolicyDecision record =>
    obtain ⟨_, _, _, rfl⟩ := createPolicyDecision_eq_ok.mp answered
    exact .same rfl rfl rfl
  | createToolInvocation record =>
    obtain ⟨_, _, rfl⟩ := createToolInvocation_eq_ok.mp answered
    refine ⟨fun id invocation found => ?_, fun _ _ => .inl, fun _ _ => .inl⟩
    exact (Table.lookup_insert_cases found).imp_right (congrArg _)
  | _ => exact disciplined.elim

end Tools

end Atelia.Store
