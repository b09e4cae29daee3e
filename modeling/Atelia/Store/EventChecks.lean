import Atelia.Store.RecordChecks

/-! Checks on a new event: its subject and the records it refers to exist and belong to one
repository, one job and one policy decision. -/

namespace Atelia.Store

open Outcome

/-- Records that the operation in progress has not stored yet. -/
structure PendingRecords where
  job : Option JobRecord := none
  toolResult : Option ToolResult := none
  auditRecord : Option AuditRecord := none

def subjectNotFound (collection : String) (event : JobEvent) : StoreError :=
  .notFound collection s!"{event.subject.subjectId} (job_event.subject_id)"

/-- The repository an event's subject belongs to; every subject has one. The
subject is searched by its text among the stored records, then among the
pending ones. -/
def subjectRepositoryId (inner : InMemoryInner) (event : JobEvent) (pending : PendingRecords) :
    StoreResult RepositoryId :=
  let subjectId := event.subject.subjectId
  match event.subject.subjectType with
  | .repository => do
    let repository ← okOr
      ((inner.repositories.toList.map Prod.fst).find? fun id => id.text = subjectId)
      (subjectNotFound "repositories" event)
    return repository
  | .job => do
    let job ← okOr ((inner.jobs.records.find? fun job => job.id.text = subjectId).or
      (pending.job.filter fun job => job.id.text = subjectId)) (subjectNotFound "jobs" event)
    return job.repositoryId
  | .policyDecision => do
    let decision ← okOr (inner.policyDecisions.records.find? fun decision =>
      decision.id.text = subjectId) (subjectNotFound "policy_decisions" event)
    return decision.repositoryId
  | .lockDecision => do
    let lock ← okOr (inner.lockDecisions.records.find? fun lock => lock.id.text = subjectId)
      (subjectNotFound "lock_decisions" event)
    return lock.repositoryId
  | .toolInvocation => do
    let invocation ← okOr (inner.toolInvocations.records.find? fun invocation =>
      invocation.id.text = subjectId) (subjectNotFound "tool_invocations" event)
    return invocation.repositoryId
  | .toolResult => do
    let toolResult ← okOr ((inner.toolResults.records.find? fun result =>
      result.id.text = subjectId).or
      (pending.toolResult.filter fun result => result.id.text = subjectId))
      (subjectNotFound "tool_results" event)
    let invocation ← okOr inner.toolInvocations[toolResult.invocationId]? (.conflict "tool_results"
      s!"tool_result {subjectId} references missing invocation {debug toolResult.invocationId}")
    return invocation.repositoryId
  | .auditRecord => do
    let auditRecord ← okOr ((inner.auditRecords.records.find? fun record =>
      record.id.text = subjectId).or
      (pending.auditRecord.filter fun record => record.id.text = subjectId))
      (subjectNotFound "audit_records" event)
    return auditRecord.repositoryId

def validateEventSubject (inner : InMemoryInner) (event : JobEvent) (pending : PendingRecords) :
    StoreResult RepositoryId := do
  let subjectRepository ← subjectRepositoryId inner event pending
  whenSome event.refs.repositoryId fun refRepository =>
    ensureSameRepository "job_events" "job_event.subject_id" refRepository subjectRepository
  return subjectRepository

/-- The repository, job and policy decision an event has been found to belong
to so far. The latter two are compared as texts. -/
structure EventIdentity where
  repositoryId : RepositoryId
  jobId : Option String
  policyDecisionId : Option String
  deriving DecidableEq

def ensureSubjectRefMatches (event : JobEvent) (expectedSubjectType : EventSubjectType)
    (refId context : String) : StoreResult Unit :=
  ensure (event.subject.subjectType ≠ expectedSubjectType ∨ event.subject.subjectId = refId)
    (.invalidReference "job_events"
      s!"{context} {refId} does not match event.subject_id {event.subject.subjectId} for subject_type {debug event.subject.subjectType}")

def ensureEventIdentityConsistency (expected : Option String) (actual context fieldName : String) :
    StoreResult (Option String) := do
  whenSome expected fun expected => ensure (expected = actual) (.invalidReference "job_events"
    s!"{context} implies {fieldName} {actual}, not {expected}")
  return some actual

def ensureEventJobConsistency (identity : EventIdentity) (impliedJobId : JobId)
    (context : String) : StoreResult EventIdentity := do
  let jobId ← ensureEventIdentityConsistency identity.jobId impliedJobId.text context "job_id"
  return { identity with jobId }

def ensureEventPolicyConsistency (identity : EventIdentity)
    (impliedPolicyDecisionId : PolicyDecisionId) (context : String) :
    StoreResult EventIdentity := do
  let policyDecisionId ← ensureEventIdentityConsistency identity.policyDecisionId
    impliedPolicyDecisionId.text context "policy_decision_id"
  return { identity with policyDecisionId }

def ensureEventRepositoryConsistency (identity : EventIdentity) (actual : RepositoryId)
    (context : String) : StoreResult Unit :=
  ensureSameRepository "job_events" context identity.repositoryId actual

def checkRepositoryRef (inner : InMemoryInner) (event : JobEvent) : StoreResult Unit :=
  whenSome event.refs.repositoryId fun repositoryId => do
    ensureSubjectRefMatches event .repository repositoryId.text "job_event.refs.repository_id"
    ensureRefExists (inner.repositories.contains repositoryId) "repositories" repositoryId
      "job_event.refs.repository_id"

def checkJobRef (inner : InMemoryInner) (event : JobEvent) (pending : PendingRecords)
    (identity : EventIdentity) : StoreResult EventIdentity :=
  match event.refs.jobId with
  | none => .ok identity
  | some jobId => do
    ensureSubjectRefMatches event .job jobId.text "job_event.refs.job_id"
    let job ← okOr (inner.jobs[jobId]?.or (pending.job.filter fun job => job.id = jobId))
      (.notFound "jobs" s!"{debug jobId} (job_event.refs.job_id)")
    ensureEventRepositoryConsistency identity job.repositoryId "job_event.refs.job_id"
    ensureEventJobConsistency identity job.id "job_event.refs.job_id"

def checkPolicyDecisionRef (inner : InMemoryInner) (event : JobEvent) (identity : EventIdentity) :
    StoreResult EventIdentity :=
  match event.refs.policyDecisionId with
  | none => .ok identity
  | some policyDecisionId => do
    ensureSubjectRefMatches event .policyDecision policyDecisionId.text
      "job_event.refs.policy_decision_id"
    let policyDecision ← okOr inner.policyDecisions[policyDecisionId]? (.notFound "policy_decisions"
      s!"{debug policyDecisionId} (job_event.refs.policy_decision_id)")
    ensureEventRepositoryConsistency identity policyDecision.repositoryId
      "job_event.refs.policy_decision_id"
    return identity

def checkLockDecisionRef (inner : InMemoryInner) (event : JobEvent) (identity : EventIdentity) :
    StoreResult EventIdentity :=
  match event.refs.lockDecisionId with
  | none => .ok identity
  | some lockDecisionId => do
    ensureSubjectRefMatches event .lockDecision lockDecisionId.text
      "job_event.refs.lock_decision_id"
    let lockDecision ← okOr inner.lockDecisions[lockDecisionId]? (.notFound "lock_decisions"
      s!"{debug lockDecisionId} (job_event.refs.lock_decision_id)")
    ensureEventRepositoryConsistency identity lockDecision.repositoryId
      "job_event.refs.lock_decision_id"
    ensureEventPolicyConsistency identity lockDecision.policyDecisionId
      "job_event.refs.lock_decision_id"

def checkToolInvocationRef (inner : InMemoryInner) (event : JobEvent) (identity : EventIdentity) :
    StoreResult EventIdentity :=
  match event.refs.toolInvocationId with
  | none => .ok identity
  | some toolInvocationId => do
    ensureSubjectRefMatches event .toolInvocation toolInvocationId.text
      "job_event.refs.tool_invocation_id"
    let toolInvocation ← okOr inner.toolInvocations[toolInvocationId]? (.notFound "tool_invocations"
      s!"{debug toolInvocationId} (job_event.refs.tool_invocation_id)")
    ensureEventRepositoryConsistency identity toolInvocation.repositoryId
      "job_event.refs.tool_invocation_id"
    let identity ← ensureEventJobConsistency identity toolInvocation.jobId
      "job_event.refs.tool_invocation_id"
    ensureEventPolicyConsistency identity toolInvocation.policyDecisionId
      "job_event.refs.tool_invocation_id"

/-- A stored tool result, or the pending one. -/
def findToolResult (inner : InMemoryInner) (pending : PendingRecords)
    (toolResultId : ToolResultId) : StoreResult ToolResult :=
  okOr (inner.toolResults[toolResultId]?.or
      (pending.toolResult.filter fun result => result.id = toolResultId))
    (.notFound "tool_results" s!"{debug toolResultId} (job_event.refs.tool_result_id)")

def checkToolResultRef (inner : InMemoryInner) (event : JobEvent) (pending : PendingRecords)
    (identity : EventIdentity) : StoreResult EventIdentity :=
  match event.refs.toolResultId with
  | none => .ok identity
  | some toolResultId => do
    ensureSubjectRefMatches event .toolResult toolResultId.text "job_event.refs.tool_result_id"
    let toolResult ← findToolResult inner pending toolResultId
    let toolInvocation ← okOr inner.toolInvocations[toolResult.invocationId]?
      (.conflict "tool_results"
        s!"tool_result {debug toolResultId} references missing invocation {debug toolResult.invocationId}")
    ensureEventRepositoryConsistency identity toolInvocation.repositoryId
      "job_event.refs.tool_result_id"
    reject (event.refs.toolInvocationId.any fun id => id ≠ toolResult.invocationId)
      (.invalidReference "job_events"
        s!"job_event.refs.tool_result_id {debug toolResultId} belongs to invocation_id {debug toolResult.invocationId}, not {debug event.refs.toolInvocationId}")
    let identity ← ensureEventJobConsistency identity toolInvocation.jobId
      "job_event.refs.tool_result_id"
    ensureEventPolicyConsistency identity toolInvocation.policyDecisionId
      "job_event.refs.tool_result_id"

/-- The invocation an audit record names must be the one the event's other
references name. -/
def checkAuditInvocation (inner : InMemoryInner) (event : JobEvent) (pending : PendingRecords)
    (auditRecordId : AuditRecordId) (auditRecord : AuditRecord) (identity : EventIdentity) :
    StoreResult EventIdentity :=
  match auditRecord.toolInvocationId with
  | none => .ok identity
  | some toolInvocationId => do
    let canonicalInvocation ← okOr inner.toolInvocations[toolInvocationId]?
      (.conflict "audit_records"
        s!"audit_record {debug auditRecordId} references missing invocation {debug toolInvocationId}")
    reject (event.refs.toolInvocationId.any fun id => id ≠ toolInvocationId)
      (.invalidReference "job_events"
        s!"job_event.refs.audit_record_id {debug auditRecordId} belongs to invocation_id {debug toolInvocationId}, not {debug event.refs.toolInvocationId}")
    let identity ← ensureEventJobConsistency identity canonicalInvocation.jobId
      "job_event.refs.audit_record_id"
    whenSome event.refs.toolResultId fun toolResultId => do
      let toolResult ← findToolResult inner pending toolResultId
      reject (toolResult.invocationId ≠ toolInvocationId) (.invalidReference "job_events"
        s!"job_event.refs.audit_record_id {debug auditRecordId} belongs to invocation_id {debug toolInvocationId}, but tool_result_id {debug toolResultId} belongs to invocation_id {debug toolResult.invocationId}")
    return identity

def checkAuditRecordRef (inner : InMemoryInner) (event : JobEvent) (pending : PendingRecords)
    (identity : EventIdentity) : StoreResult EventIdentity :=
  match event.refs.auditRecordId with
  | none => .ok identity
  | some auditRecordId => do
    ensureSubjectRefMatches event .auditRecord auditRecordId.text "job_event.refs.audit_record_id"
    let auditRecord ← okOr (inner.auditRecords[auditRecordId]?.or
        (pending.auditRecord.filter fun record => record.id = auditRecordId))
      (.notFound "audit_records" s!"{debug auditRecordId} (job_event.refs.audit_record_id)")
    ensureEventRepositoryConsistency identity auditRecord.repositoryId
      "job_event.refs.audit_record_id"
    let identity ← ensureEventPolicyConsistency identity auditRecord.policyDecisionId
      "job_event.refs.audit_record_id"
    checkAuditInvocation inner event pending auditRecordId auditRecord identity

/-- The identity an event starts with, from its own subject and references. -/
def initialEventIdentity (event : JobEvent) (subjectRepository : RepositoryId) : EventIdentity where
  repositoryId := event.refs.repositoryId.getD subjectRepository
  jobId := match event.subject.subjectType with
    | .job => some event.subject.subjectId
    | _ => event.refs.jobId.map (·.text)
  policyDecisionId := match event.subject.subjectType with
    | .policyDecision => some event.subject.subjectId
    | _ => event.refs.policyDecisionId.map (·.text)

def validateEventRefs (inner : InMemoryInner) (event : JobEvent) (pending : PendingRecords)
    (subjectRepository : RepositoryId) : StoreResult Unit := do
  let identity := initialEventIdentity event subjectRepository
  checkRepositoryRef inner event
  let identity ← checkJobRef inner event pending identity
  let identity ← checkPolicyDecisionRef inner event identity
  let identity ← checkLockDecisionRef inner event identity
  let identity ← checkToolInvocationRef inner event identity
  let identity ← checkToolResultRef inner event pending identity
  let _ ← checkAuditRecordRef inner event pending identity

/-- The checks of a new event that do not concern its own identifier. -/
def validateEventLinks (inner : InMemoryInner) (event : JobEvent) (pending : PendingRecords) :
    StoreResult Unit := do
  let subjectRepository ← validateEventSubject inner event pending
  validateEventRefs inner event pending subjectRepository

def validateNewJobEventWithPendingRecords (inner : InMemoryInner) (event : JobEvent)
    (pending : PendingRecords) : StoreResult Unit := do
  reject (inner.jobEventsById.contains event.id) (.duplicateId "job_events" (debug event.id))
  ensure (event.subject.hasValidSubjectId) (.invalidReference "job_events"
    s!"event.subject_id {event.subject.subjectId} does not match subject_type {debug event.subject.subjectType}")
  validateEventLinks inner event pending

def validateNewJobEvent (inner : InMemoryInner) (event : JobEvent)
    (pendingJob : Option JobRecord) : StoreResult Unit :=
  validateNewJobEventWithPendingRecords inner event { job := pendingJob }

end Atelia.Store
