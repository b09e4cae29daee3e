import Atelia.Store.RecordChecks

/-! Checks on a stored submit-job receipt: it repeats the stored job, records and events of
one job, and its events are the complete event chain of the job. -/

namespace Atelia.Store

open Outcome

/-- Whether the invocation an event names belongs to the job. -/
def invocationRefBelongs (inner : InMemoryInner) (jobId : JobId) (event : JobEvent) :
    StoreResult Bool :=
  match event.refs.toolInvocationId with
  | none => .ok false
  | some toolInvocationId => do
    let toolInvocation ← okOr inner.toolInvocations[toolInvocationId]? (.notFound "tool_invocations"
      s!"{debug toolInvocationId} (submit_job_idempotency.event.refs.tool_invocation_id)")
    return toolInvocation.jobId = jobId

/-- Whether the tool result an event names belongs to the job. -/
def toolResultRefBelongs (inner : InMemoryInner) (jobId : JobId) (event : JobEvent) :
    StoreResult Bool :=
  match event.refs.toolResultId with
  | none => .ok false
  | some toolResultId => do
    let toolResult ← okOr inner.toolResults[toolResultId]? (.notFound "tool_results"
      s!"{debug toolResultId} (submit_job_idempotency.event.refs.tool_result_id)")
    let toolInvocation ← okOr inner.toolInvocations[toolResult.invocationId]?
      (.notFound "tool_invocations"
        s!"{debug toolResult.invocationId} (submit_job_idempotency.event.refs.tool_result_id.invocation_id)")
    return toolInvocation.jobId = jobId

/-- Whether the audit record an event names belongs to the job. -/
def auditRecordRefBelongs (inner : InMemoryInner) (jobId : JobId) (event : JobEvent) :
    StoreResult Bool :=
  match event.refs.auditRecordId with
  | none => .ok false
  | some auditRecordId => do
    let auditRecord ← okOr inner.auditRecords[auditRecordId]? (.notFound "audit_records"
      s!"{debug auditRecordId} (submit_job_idempotency.event.refs.audit_record_id)")
    match auditRecord.toolInvocationId with
    | none => return false
    | some toolInvocationId => do
      let toolInvocation ← okOr inner.toolInvocations[toolInvocationId]?
        (.notFound "tool_invocations"
          s!"{debug toolInvocationId} (submit_job_idempotency.event.refs.audit_record_id.tool_invocation_id)")
      return toolInvocation.jobId = jobId

def submitJobReceiptEventBelongsToJob (inner : InMemoryInner) (jobId : JobId) (event : JobEvent) :
    StoreResult Bool :=
  anyTrue [
    .ok (event.refs.jobId = some jobId),
    .ok (event.subject.subjectType = .job ∧ event.subject.subjectId = jobId.text),
    invocationRefBelongs inner jobId event,
    toolResultRefBelongs inner jobId event,
    auditRecordRefBelongs inner jobId event]

def validateSubmitJobReceiptEventLineage (inner : InMemoryInner) (jobId : JobId)
    (event : JobEvent) : StoreResult Unit := do
  let belongs ← submitJobReceiptEventBelongsToJob inner jobId event
  ensure (belongs = true) (.invalidReference "submit_job_idempotency"
    s!"receipt.event {debug event.id} does not belong to receipt.job {debug jobId}")

def validateLoadedSubmitJobReceiptJob (storedJob receiptJob : JobRecord) : StoreResult Unit := do
  reject (receiptJob.updatedAt < receiptJob.createdAt) (.invalidRecord "submit_job_idempotency"
    "receipt.job.updated_at must not be earlier than created_at")
  whenSome receiptJob.startedAt fun startedAt => do
    reject (startedAt < receiptJob.createdAt) (.invalidRecord "submit_job_idempotency"
      "receipt.job.started_at must not be earlier than created_at")
    reject (receiptJob.updatedAt < startedAt) (.invalidRecord "submit_job_idempotency"
      "receipt.job.started_at must not be later than updated_at")
  whenSome receiptJob.completedAt fun completedAt => do
    reject (completedAt < receiptJob.createdAt) (.invalidRecord "submit_job_idempotency"
      "receipt.job.completed_at must not be earlier than created_at")
    reject (receiptJob.updatedAt < completedAt) (.invalidRecord "submit_job_idempotency"
      "receipt.job.completed_at must not be later than updated_at")
    whenSome receiptJob.startedAt fun startedAt =>
      reject (completedAt < startedAt) (.invalidRecord "submit_job_idempotency"
        "receipt.job.completed_at must not be earlier than started_at")
  ensureSameRepository "submit_job_idempotency" "receipt.job.repository_id" storedJob.repositoryId
    receiptJob.repositoryId
  reject ({ storedJob with updatedAt := receiptJob.updatedAt } ≠ receiptJob) (.conflict "jobs"
    s!"submit_job idempotency receipt job {debug receiptJob.id} does not match stored job when ignoring updated_at")

def validateReceiptInvocationLineage (receipt : RuntimeJobReceipt)
    (toolInvocation : ToolInvocation) : StoreResult Unit := do
  ensureSameRepository "submit_job_idempotency" "receipt.tool_invocation.repository_id"
    receipt.job.repositoryId toolInvocation.repositoryId
  reject (toolInvocation.jobId ≠ receipt.job.id) (.invalidReference "submit_job_idempotency"
    s!"receipt.tool_invocation {debug toolInvocation.id} does not belong to receipt.job {debug receipt.job.id}")
  reject (toolInvocation.policyDecisionId ≠ receipt.policyDecision.id)
    (.invalidReference "submit_job_idempotency"
      s!"receipt.tool_invocation {debug toolInvocation.id} does not belong to receipt.policy_decision {debug receipt.policyDecision.id}")

def receiptResultInvocationMismatch (toolResult : ToolResult) (toolInvocation : ToolInvocation) :
    StoreError :=
  .invalidReference "submit_job_idempotency"
    s!"receipt.tool_result {debug toolResult.id} does not reference receipt.tool_invocation {debug toolInvocation.id}"

def receiptAuditInvocationMismatch (auditRecord : AuditRecord) (toolInvocation : ToolInvocation) :
    StoreError :=
  .invalidReference "submit_job_idempotency"
    s!"receipt.audit_record {debug auditRecord.id} does not reference receipt.tool_invocation {debug toolInvocation.id}"

def validateReceiptAuditLineage (receipt : RuntimeJobReceipt) (auditRecord : AuditRecord) :
    StoreResult Unit := do
  ensureSameRepository "submit_job_idempotency" "receipt.audit_record.repository_id"
    receipt.job.repositoryId auditRecord.repositoryId
  reject (auditRecord.policyDecisionId ≠ receipt.policyDecision.id)
    (.invalidReference "submit_job_idempotency"
      s!"receipt.audit_record {debug auditRecord.id} does not belong to receipt.policy_decision {debug receipt.policyDecision.id}")
  whenSome auditRecord.toolInvocationId fun toolInvocationId =>
    whenSome receipt.toolInvocation fun toolInvocation =>
      reject (toolInvocationId ≠ toolInvocation.id)
        (receiptAuditInvocationMismatch auditRecord toolInvocation)

def validateLoadedSubmitJobReceiptLineage (inner : InMemoryInner) (receipt : RuntimeJobReceipt) :
    StoreResult Unit := do
  ensureSameRepository "submit_job_idempotency" "receipt.policy_decision.repository_id"
    receipt.job.repositoryId receipt.policyDecision.repositoryId
  whenSome receipt.toolInvocation fun toolInvocation =>
    validateReceiptInvocationLineage receipt toolInvocation
  whenSome receipt.toolResult fun toolResult =>
    whenSome receipt.toolInvocation fun toolInvocation =>
      reject (toolResult.invocationId ≠ toolInvocation.id)
        (receiptResultInvocationMismatch toolResult toolInvocation)
  whenSome receipt.auditRecord fun auditRecord => validateReceiptAuditLineage receipt auditRecord
  checkAll (fun event => validateSubmitJobReceiptEventLineage inner receipt.job.id event)
    receipt.events

/-- Walk the ledger in sequence order and keep the events of the job; no event
of the job may follow the latest one. -/
def collectReceiptEvents (inner : InMemoryInner) (jobId : JobId) (latestEventId : JobEventId) :
    List JobEventId → Bool → StoreResult (List JobEvent × Bool)
  | [], foundLatestEvent => .ok ([], foundLatestEvent)
  | eventId :: rest, foundLatestEvent => do
    let event ← okOr inner.jobEventsById[eventId]? (.conflict "job_events"
      s!"sequence index references missing id {debug eventId}")
    let belongs ← submitJobReceiptEventBelongsToJob inner jobId event
    if belongs then do
      reject (foundLatestEvent = true) (.invalidRecord "submit_job_idempotency"
        s!"receipt.job.latest_event_id {debug latestEventId} is not the end of the current job event chain for job {debug jobId}")
      let (events, foundLatestEvent) ←
        collectReceiptEvents inner jobId latestEventId rest (event.id = latestEventId)
      return (event :: events, foundLatestEvent)
    else collectReceiptEvents inner jobId latestEventId rest foundLatestEvent

def expectedSubmitJobReceiptEvents (inner : InMemoryInner) (receipt : RuntimeJobReceipt) :
    StoreResult (List JobEvent) := do
  let latestEventId ← okOr receipt.job.latestEventId (.invalidRecord "submit_job_idempotency"
    s!"receipt.job.latest_event_id is missing for job {debug receipt.job.id}")
  let (events, foundLatestEvent) ← collectReceiptEvents inner receipt.job.id latestEventId
    inner.jobEventsBySequence.records false
  ensure (foundLatestEvent = true) (.invalidReference "submit_job_idempotency"
    s!"receipt.job.latest_event_id {debug latestEventId} was not found in the stored job event chain for job {debug receipt.job.id}")
  return events

def validateLoadedSubmitJobReceiptEventChain (inner : InMemoryInner)
    (receipt : RuntimeJobReceipt) : StoreResult Unit := do
  let expectedEvents ← expectedSubmitJobReceiptEvents inner receipt
  reject (expectedEvents.length ≠ receipt.events.length) (.invalidRecord "submit_job_idempotency"
    s!"receipt.events must contain the complete job event chain for job {debug receipt.job.id}")
  checkAll (fun ((expectedEvent, receiptEvent), index) => reject (expectedEvent ≠ receiptEvent)
      (.invalidReference "submit_job_idempotency"
        s!"receipt.events[{toString (index : Nat)}] does not match the stored job event chain for job {debug receipt.job.id}"))
    (expectedEvents.zip receipt.events).zipIdx

/-- A tool record of a receipt is the stored one. -/
def validateReceiptRecord {kind : IdKind} {Record : Type} [DecidableEq Record]
    (stored : Table (Identifier kind) Record) (id : Identifier kind) (record : Record)
    (collection context mismatch : String) : StoreResult Unit := do
  let found ← okOr stored[id]? (.notFound collection s!"{debug id} (submit_job_idempotency.{context})")
  reject (found ≠ record) (.invalidReference "submit_job_idempotency"
    s!"receipt.{context} {debug id} does not match stored {mismatch}")

def validateReceiptToolRecords (inner : InMemoryInner) (receipt : RuntimeJobReceipt) :
    StoreResult Unit :=
  match receipt.toolInvocation, receipt.toolResult, receipt.renderedOutput, receipt.auditRecord with
  | none, none, none, none => .ok ()
  | some toolInvocation, some toolResult, some _, some auditRecord => do
    validateReceiptRecord inner.toolInvocations toolInvocation.id toolInvocation
      "tool_invocations" "tool_invocation" "tool invocation record"
    validateReceiptRecord inner.toolResults toolResult.id toolResult
      "tool_results" "tool_result" "tool result record"
    validateReceiptRecord inner.auditRecords auditRecord.id auditRecord
      "audit_records" "audit_record" "audit record"
    reject (toolResult.invocationId ≠ toolInvocation.id)
      (receiptResultInvocationMismatch toolResult toolInvocation)
    reject (auditRecord.toolInvocationId ≠ some toolInvocation.id)
      (receiptAuditInvocationMismatch auditRecord toolInvocation)
  | _, _, _, _ => .error (.invalidRecord "submit_job_idempotency"
      "successful submit_job receipts must include either all tool records or none")

/-- Sequence numbers of neighbouring events increase. -/
def checkReceiptSequence : Nat → List JobEvent → StoreResult Unit
  | index, previousEvent :: event :: rest => do
    reject (event.sequenceNumber ≤ previousEvent.sequenceNumber)
      (.invalidRecord "submit_job_idempotency"
        s!"receipt.events[{index + 1}] sequence_number {event.sequenceNumber} must be greater than receipt.events[{index}] sequence_number {previousEvent.sequenceNumber}")
    checkReceiptSequence (index + 1) (event :: rest)
  | _, _ => .ok ()

def validateLoadedSubmitJobReceipt (inner : InMemoryInner) (receipt : RuntimeJobReceipt) :
    StoreResult Unit := do
  let storedJob ← okOr inner.jobs[receipt.job.id]? (.notFound "jobs"
    s!"{debug receipt.job.id} (submit_job_idempotency.job)")
  validateLoadedSubmitJobReceiptJob storedJob receipt.job
  validateReceiptRecord inner.policyDecisions receipt.policyDecision.id receipt.policyDecision
    "policy_decisions" "policy_decision" "policy decision record"
  validateLoadedSubmitJobReceiptLineage inner receipt
  validateReceiptToolRecords inner receipt
  reject (receipt.events.isEmpty) (.invalidRecord "submit_job_idempotency"
    "successful submit_job receipts must include events")
  checkReceiptSequence 0 receipt.events
  validateLoadedSubmitJobReceiptEventChain inner receipt
  checkAll (fun event => do
      let storedEvent ← okOr inner.jobEventsById[event.id]? (.notFound "job_events"
        s!"{debug event.id} (submit_job_idempotency.events)")
      reject (storedEvent ≠ event) (.invalidReference "submit_job_idempotency"
        s!"receipt.event {debug event.id} does not match stored job event record"))
    receipt.events
  reject (receipt.job.latestEventId ≠ receipt.events.getLast?.map (·.id))
    (.invalidReference "submit_job_idempotency"
      s!"receipt.job.latest_event_id does not match the final receipt event for job {debug receipt.job.id}")

def validateSubmitJobIdempotencyRecord (inner : InMemoryInner) (idempotencyKey : String)
    (record : SubmitJobIdempotencyRecord) : StoreResult Unit := do
  reject (Text.isBlank idempotencyKey) (.invalidRecord "submit_job_idempotency"
    "idempotency key must not be empty")
  reject (Text.isBlank record.signature) (.invalidRecord "submit_job_idempotency"
    s!"idempotency key {debug idempotencyKey} has an empty request signature")
  reject (record.receipt.job.status ≠ .succeeded) (.invalidRecord "submit_job_idempotency"
    s!"idempotency key {debug idempotencyKey} must reference a succeeded submit_job receipt")
  validateLoadedSubmitJobReceipt inner record.receipt

def insertSubmitJobIdempotencyLocked (inner : InMemoryInner) (idempotencyKey : String)
    (record : SubmitJobIdempotencyRecord) : StoreResult InMemoryInner := do
  validateSubmitJobIdempotencyRecord inner idempotencyKey record
  match inner.idempotentSubmitJobs[idempotencyKey]? with
  | some existing => do
    ensure (existing = record) (.conflict "submit_job_idempotency"
      s!"idempotency key {debug idempotencyKey} is already bound to a different submit receipt")
    return inner
  | none => return { inner with
      idempotentSubmitJobs := inner.idempotentSubmitJobs.insert idempotencyKey record }

end Atelia.Store
