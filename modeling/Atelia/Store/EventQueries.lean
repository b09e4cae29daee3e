import Atelia.Store.EventChecks

/-! Which repository an event belongs to, and which events a query selects. -/

namespace Atelia.Store

open Outcome

/-- The records an event refers to agree with its repository. -/
def deriveEventRepositoryFromRefs (inner : InMemoryInner) (event : JobEvent)
    (eventRepository : RepositoryId) : StoreResult Unit := do
  whenSome event.refs.jobId fun jobId => do
    let job ← okOr inner.jobs[jobId]? (.notFound "jobs" s!"{debug jobId} (job_event.refs.job_id)")
    ensureSameRepository "job_events" "job_event.refs.job_id" eventRepository job.repositoryId
  whenSome event.refs.policyDecisionId fun policyDecisionId => do
    let policyDecision ← okOr inner.policyDecisions[policyDecisionId]? (.notFound "policy_decisions"
      s!"{debug policyDecisionId} (job_event.refs.policy_decision_id)")
    ensureSameRepository "job_events" "job_event.refs.policy_decision_id" eventRepository
      policyDecision.repositoryId
  whenSome event.refs.lockDecisionId fun lockDecisionId => do
    let lockDecision ← okOr inner.lockDecisions[lockDecisionId]? (.notFound "lock_decisions"
      s!"{debug lockDecisionId} (job_event.refs.lock_decision_id)")
    ensureSameRepository "job_events" "job_event.refs.lock_decision_id" eventRepository
      lockDecision.repositoryId
  whenSome event.refs.toolInvocationId fun toolInvocationId => do
    let toolInvocation ← okOr inner.toolInvocations[toolInvocationId]? (.notFound "tool_invocations"
      s!"{debug toolInvocationId} (job_event.refs.tool_invocation_id)")
    ensureSameRepository "job_events" "job_event.refs.tool_invocation_id" eventRepository
      toolInvocation.repositoryId
  whenSome event.refs.toolResultId fun toolResultId => do
    let toolResult ← okOr inner.toolResults[toolResultId]? (.notFound "tool_results"
      s!"{debug toolResultId} (job_event.refs.tool_result_id)")
    let toolInvocation ← okOr inner.toolInvocations[toolResult.invocationId]?
      (.conflict "tool_results"
        s!"tool_result {debug toolResultId} references missing invocation {debug toolResult.invocationId}")
    ensureSameRepository "job_events" "job_event.refs.tool_result_id" eventRepository
      toolInvocation.repositoryId
  whenSome event.refs.auditRecordId fun auditRecordId => do
    let auditRecord ← okOr inner.auditRecords[auditRecordId]? (.notFound "audit_records"
      s!"{debug auditRecordId} (job_event.refs.audit_record_id)")
    ensureSameRepository "job_events" "job_event.refs.audit_record_id" eventRepository
      auditRecord.repositoryId

/-- The repository an event belongs to: the one it names, or else the one of
its subject, with which its references must agree. -/
def eventRepositoryId (inner : InMemoryInner) (event : JobEvent) : StoreResult RepositoryId :=
  match event.refs.repositoryId with
  | some repositoryId => .ok repositoryId
  | none => do
    let eventRepository ← subjectRepositoryId inner event {}
    deriveEventRepositoryFromRefs inner event eventRepository
    return eventRepository

/-- Every published event has a stored repository to be published to. -/
def prepareJobEventPublish (inner : InMemoryInner) (events : List JobEvent) : StoreResult Unit :=
  checkAll (fun event => do
    let repositoryId ← eventRepositoryId inner event
    let _ ← getRecord inner.repositories repositoryId "repositories") events

inductive EventCursor where
  | beginning
  | afterSequence (sequence : Nat)
  | afterEventId (id : JobEventId)
  deriving DecidableEq

structure EventQuery where
  repositoryId : Option RepositoryId := none
  cursor : EventCursor := .beginning
  subjectIds : List String := []
  jobIds : List JobId := []
  minSeverity : Option EventSeverity := none
  pageSize : Option Nat := none
  pageToken : Option String := none
  deriving DecidableEq

def severityRank : EventSeverity → Nat
  | .debug => 0
  | .info => 1
  | .warning => 2
  | .error => 3

/-- `repositoryIds` holds the requested repository and the event's own, when
the query names a repository. -/
def matchesEventQuery (event : JobEvent) (query : EventQuery)
    (repositoryIds : Option (RepositoryId × Option RepositoryId)) : Bool :=
  let repositoryMatches := match repositoryIds with
    | some (requested, eventRepository) => eventRepository = some requested
    | none => true
  let subjectMatches := query.subjectIds.isEmpty || query.subjectIds.contains event.subject.subjectId
  let jobMatches := query.jobIds.isEmpty || match event.refs.jobId with
    | none => event.subject.subjectType = .job &&
        query.jobIds.any fun jobId => jobId.text = event.subject.subjectId
    | some jobId => query.jobIds.contains jobId
  let severityMatches := match query.minSeverity with
    | some minSeverity => severityRank minSeverity ≤ severityRank event.severity
    | none => true
  repositoryMatches && subjectMatches && jobMatches && severityMatches

def eventMatchesQuery (inner : InMemoryInner) (event : JobEvent) (query : EventQuery) :
    StoreResult Bool :=
  match query.repositoryId with
  | none => .ok (matchesEventQuery event query none)
  | some requested => do
    let eventRepository ← eventRepositoryId inner event
    return matchesEventQuery event query (some (requested, some eventRepository))

end Atelia.Store
