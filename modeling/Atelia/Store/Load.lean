import Atelia.Store.EventChecks
import Atelia.Store.ReceiptChecks

/-! The validation of a loaded snapshot. -/

namespace Atelia.Store

open Outcome

/-- A time of a loaded job does not precede its creation. -/
def checkLoadedJobTime (job : JobRecord) (fieldName : String) (moment : LedgerTimestamp) :
    StoreResult Unit :=
  reject (moment < job.createdAt) (.invalidRecord "jobs"
    s!"{fieldName} must not be earlier than created_at")

/-- The latest event of a loaded job exists and concerns the job. -/
def checkLoadedJobLatestEvent (inner : InMemoryInner) (job : JobRecord)
    (latestEventId : JobEventId) : StoreResult Unit := do
  let event ← okOr inner.jobEventsById[latestEventId]? (.notFound "job_events"
    s!"{debug latestEventId} (jobs.latest_event_id)")
  reject (event.refs.jobId ≠ some job.id ∧ event.subject.subjectId ≠ job.id.text)
    (.invalidReference "jobs"
      s!"latest_event_id {debug latestEventId} does not point at an event for job {debug job.id}")

def validateLoadedJobRecord (inner : InMemoryInner) (job : JobRecord) : StoreResult Unit := do
  ensureRefExists (inner.repositories.contains job.repositoryId) "repositories" job.repositoryId
    "jobs.repository_id"
  checkLoadedJobTime job "updated_at" job.updatedAt
  whenSome job.startedAt (checkLoadedJobTime job "started_at")
  whenSome job.completedAt (checkLoadedJobTime job "completed_at")
  reject (job.status = .running ∧ job.startedAt = none) (.invalidRecord "jobs"
    "running jobs must have started_at")
  reject (job.status.isTerminal = true ∧ job.completedAt = none) (.invalidRecord "jobs"
    "terminal jobs must have completed_at")
  reject (job.status.isTerminal = false ∧ job.completedAt.isSome) (.invalidRecord "jobs"
    "non-terminal jobs must not have completed_at")
  whenSome job.latestEventId (checkLoadedJobLatestEvent inner job)

/-- No two repositories of the list overlap when one of them is blocked. -/
def checkBlockedRoots : List RepositoryRecord → StoreResult Unit
  | [] => .ok ()
  | repository :: rest => do
    checkAll (fun conflicting => reject
        (repositoryRootsStrictlyOverlap repository.rootPath conflicting.rootPath = true ∧
          (repository.trustState = .blocked ∨ conflicting.trustState = .blocked))
        (.invalidRecord "repositories"
          s!"blocked root_path {repository.rootPath} conflicts with repository root_path {conflicting.rootPath}"))
      rest
    checkBlockedRoots rest

/-- A loaded decision that blocks a whole repository covers no part of another. -/
def checkLoadedRootBlock (inner : InMemoryInner) (decision : PolicyDecision) : StoreResult Unit :=
  if isRootScopedRepositoryBlock decision then do
    let repository ← okOr inner.repositories[decision.repositoryId]?
      (.invalidReference "policy_decisions"
        s!"policy decision {debug decision.id} references missing repository {debug decision.repositoryId}")
    checkAll (fun conflicting => reject (conflicting.id ≠ repository.id ∧
          repositoryRootsStrictlyOverlap repository.rootPath conflicting.rootPath = true)
        (.invalidRecord "policy_decisions"
          s!"policy_decision root_path {repository.rootPath} conflicts with repository root_path {conflicting.rootPath}"))
      inner.repositories.records
  else .ok ()

def validateLoadedLockDecision (inner : InMemoryInner) (lock : LockDecision) :
    StoreResult Unit := do
  validateLockDecisionTiming lock
  ensureRefExists (inner.repositories.contains lock.repositoryId) "repositories" lock.repositoryId
    "lock_decisions.repository_id"
  validateLockPolicy inner lock
  validateLockOwner inner lock

/-- The state of the walk over the sequence index: the number expected next, the
events seen, and the ledger without them. -/
structure SequenceWalk where
  expectedSequence : Nat
  seenEventIds : List JobEventId
  validated : InMemoryInner

/-- The ledger without one event. -/
def InMemoryInner.withoutEvent (inner : InMemoryInner) (sequenceNumber : Nat)
    (eventId : JobEventId) : InMemoryInner :=
  { inner with
    jobEventsById := inner.jobEventsById.erase eventId
    jobEventsBySequence := inner.jobEventsBySequence.erase sequenceNumber }

/-- One entry of the sequence index. The expected number saturates at the
largest `u64`. -/
def SequenceWalk.step (inner : InMemoryInner) (walk : SequenceWalk) (entry : Nat × JobEventId) :
    StoreResult SequenceWalk := do
  let (sequenceNumber, eventId) := entry
  ensure (sequenceNumber = walk.expectedSequence) (.invalidRecord "job_events"
    s!"sequence ledger has gap: expected {walk.expectedSequence}, found {sequenceNumber}")
  reject (eventId ∈ walk.seenEventIds) (.conflict "job_events"
    s!"sequence index references duplicate event id {debug eventId}")
  let event ← okOr inner.jobEventsById[eventId]? (.conflict "job_events"
    s!"sequence index references missing id {debug eventId}")
  reject (event.sequenceNumber ≠ sequenceNumber) (.invalidRecord "job_events"
    s!"event {debug eventId} stores sequence {event.sequenceNumber} but ledger index says {sequenceNumber}")
  let validated := walk.validated.withoutEvent sequenceNumber eventId
  validateNewJobEvent validated event none
  return {
    expectedSequence := min (walk.expectedSequence + 1) maxSequence
    seenEventIds := eventId :: walk.seenEventIds
    validated }

def validateLoadedJobEventSequence (inner : InMemoryInner) : StoreResult Unit := do
  let walk ← inner.jobEventsBySequence.toList.foldlM (SequenceWalk.step inner) ⟨1, [], inner⟩
  ensure (walk.expectedSequence - 1 = inner.nextEventSequence) (.invalidRecord "job_events"
    s!"next_event_sequence {inner.nextEventSequence} does not match retained sequence {walk.expectedSequence - 1}")
  ensure (walk.seenEventIds.length = inner.jobEventsById.size) (.invalidRecord "job_events"
    "sequence index and id index disagree on event count")

def validateLoadedStore (inner : InMemoryInner) : StoreResult Unit := do
  let repositories := inner.repositories.records
  checkDistinct validateRepositoryRecord (·.rootPath)
    (fun repository => .invalidRecord "repositories" s!"duplicate root_path {repository.rootPath}")
    repositories []
  checkBlockedRoots repositories
  checkAll (checkLoadedRootBlock inner) inner.policyDecisions.records
  checkAll (validateLoadedJobRecord inner) inner.jobs.records
  checkAll (fun decision => ensureRefExists (inner.repositories.contains decision.repositoryId)
    "repositories" decision.repositoryId "policy_decisions.repository_id")
    inner.policyDecisions.records
  checkAll (validateLoadedLockDecision inner) inner.lockDecisions.records
  checkDistinct (fun _ => .ok ())
    (fun lock : LockDecision => (lock.repositoryId.text, debug lock.lockedScope))
    (fun _ => .conflict "lock_decisions"
      "multiple active lock decisions cover the same repository/scope")
    (inner.lockDecisions.records.filter fun lock => isActiveLockStatus lock.status) []
  checkAll validateSchemaMigrationRecord inner.schemaMigrations.records
  checkAll (validateToolInvocationRefs inner) inner.toolInvocations.records
  checkDistinct (validateLoadedToolResultRecord inner) (·.invocationId)
    (fun result => .conflict "tool_results"
      s!"multiple tool_results reference invocation {debug result.invocationId}")
    inner.toolResults.records []
  checkAll (validateAuditRecordRefs inner) inner.auditRecords.records
  checkAll (fun (idempotencyKey, submission) =>
    validateSubmitJobIdempotencyRecord inner idempotencyKey submission)
    inner.idempotentSubmitJobs.toList
  validateLoadedJobEventSequence inner

end Atelia.Store
