import Atelia.Store.EventQueries
import Atelia.Store.JobChecks
import Atelia.Store.ReceiptChecks

/-! The operations of the store. -/

namespace Atelia.Store

open Outcome

/-- An operation of the store. -/
abbrev Mutation (α : Type) : Type := InMemoryInner → StoreResult (α × InMemoryInner)

section Repositories

def createRepository (record : RepositoryRecord) : Mutation Unit := fun inner => do
  validateRepositoryRecord record
  reject (inner.repositories.records.any fun repository => repository.rootPath = record.rootPath)
    (.duplicateId "repositories" s!"root_path {record.rootPath}")
  whenSome (inner.repositories.records.find? fun existing =>
      repositoryRootsStrictlyOverlap record.rootPath existing.rootPath &&
        (record.trustState = .blocked || existing.trustState = .blocked)) fun conflicting =>
    .error (.conflict "repositories"
      s!"root_path {record.rootPath} conflicts with blocked repository root {conflicting.rootPath}")
  let overlapping ← rootScopedBlockedPolicyOverlappingRepository inner record.rootPath
  whenSome overlapping fun (policyDecision, blockedRoot) =>
    .error (.conflict "repositories"
      s!"root_path {record.rootPath} conflicts with blocked policy root {blockedRoot} from policy decision {debug policyDecision.id}")
  let repositories ← insertRecord inner.repositories record.id record "repositories"
  return ((), { inner with repositories })

def getRepository (inner : InMemoryInner) (id : RepositoryId) : StoreResult RepositoryRecord :=
  getRecord inner.repositories id "repositories"

end Repositories

section Events

/-- The event with the next sequence number. -/
def InMemoryInner.numbered (inner : InMemoryInner) (event : JobEvent) : JobEvent :=
  { event with sequenceNumber := inner.nextEventSequence + 1 }

/-- The ledger with the event appended under the next sequence number. -/
def InMemoryInner.withEvent (inner : InMemoryInner) (event : JobEvent) : InMemoryInner :=
  { inner with
    nextEventSequence := inner.nextEventSequence + 1
    jobEventsBySequence := inner.jobEventsBySequence.insert (inner.nextEventSequence + 1) event.id
    jobEventsById := inner.jobEventsById.insert event.id (inner.numbered event) }

/-- The ledger with a job stored under its own identifier. -/
def InMemoryInner.withJob (inner : InMemoryInner) (record : JobRecord) : InMemoryInner :=
  { inner with jobs := inner.jobs.insert record.id record }

def ensureEventSequenceCapacity (inner : InMemoryInner) (eventCount : Nat) : StoreResult Unit :=
  ensure (inner.nextEventSequence + eventCount ≤ maxSequence) .sequenceOverflow

def appendEventLocked (event : JobEvent) : Mutation JobEvent := fun inner => do
  ensure (inner.nextEventSequence + 1 ≤ maxSequence) .sequenceOverflow
  return (inner.numbered event, inner.withEvent event)

/-- Run an operation that appends events; the events must be publishable in the
state it installs. -/
def mutateWithPublishedEvents {α : Type} (mutator : InMemoryInner →
    StoreResult (α × InMemoryInner × List JobEvent)) : Mutation α := fun inner => do
  let (result, draft, events) ← mutator inner
  prepareJobEventPublish draft events
  return (result, draft)

def appendJobEvent (event : JobEvent) : Mutation JobEvent :=
  mutateWithPublishedEvents fun inner => do
    validateNewJobEvent inner event none
    let (event, inner) ← appendEventLocked event inner
    return (event, inner, [event])

end Events

section Jobs

def createJobWithInitialEvent (record : JobRecord) (initialEvent : JobEvent) : Mutation JobEvent :=
  mutateWithPublishedEvents fun inner => do
    validateJobRefs inner record
    reject (inner.jobs.contains record.id) (.duplicateId "jobs" (debug record.id))
    validateInitialEventForJob record initialEvent
    validateNewJobEvent inner initialEvent (some record)
    let (event, inner) ← appendEventLocked initialEvent inner
    return (event, inner.withJob { record with latestEventId := some initialEvent.id }, [event])

def getJob (inner : InMemoryInner) (id : JobId) : StoreResult JobRecord :=
  getRecord inner.jobs id "jobs"

def appendJobEventAndUpdateJob (record : JobRecord) (event : JobEvent) : Mutation JobEvent :=
  mutateWithPublishedEvents fun inner => do
    validateJobUpdate inner record event
    validateNewJobEvent inner event none
    let (event, inner) ← appendEventLocked event inner
    return (event, inner.withJob { record with latestEventId := some event.id }, [event])

/-- Replace the last event of a list. -/
def replaceLast (events : List JobEvent) (event : JobEvent) : List JobEvent :=
  if events.isEmpty then events else events.dropLast ++ [event]

/-- The idempotency record as it is stored with its committed job and event. -/
def committedSubmission (submission : SubmitJobIdempotencyRecord) (job : JobRecord)
    (event : JobEvent) : SubmitJobIdempotencyRecord :=
  { submission with receipt := { submission.receipt with
      events := replaceLast submission.receipt.events event
      job := { job with latestEventId := some event.id } } }

def appendJobEventAndUpdateJobWithSubmitJobIdempotency (record : JobRecord) (event : JobEvent)
    (idempotencyKey : String) (idempotencyRecord : SubmitJobIdempotencyRecord) :
    Mutation JobEvent :=
  mutateWithPublishedEvents fun inner => do
    validateJobUpdate inner record event
    validateNewJobEvent inner event none
    let (event, inner) ← appendEventLocked event inner
    let committedJob := { record with latestEventId := some event.id }
    let inner ← insertSubmitJobIdempotencyLocked (inner.withJob committedJob) idempotencyKey
      (committedSubmission idempotencyRecord record event)
    return (event, inner, [event])

def appendJobEventsAndUpdateJob (firstRecord : JobRecord) (firstEvent : JobEvent)
    (finalRecord : JobRecord) (finalEvent : JobEvent) : Mutation (JobEvent × JobEvent) :=
  mutateWithPublishedEvents fun inner => do
    validateSiblingEventIdsAreUnique firstEvent finalEvent
    validateTwoStageJobUpdateIdentity firstRecord firstEvent finalRecord finalEvent
    validateJobUpdate inner firstRecord firstEvent
    validateNewJobEvent inner firstEvent none
    let intermediateRecord := { firstRecord with latestEventId := some firstEvent.id }
    validateJobUpdateAgainst intermediateRecord finalRecord finalEvent
    validateNewJobEvent inner finalEvent none
    ensureEventSequenceCapacity inner 2
    let (firstEvent, inner) ← appendEventLocked firstEvent inner
    let (finalEvent, inner) ← appendEventLocked finalEvent inner
    return ((firstEvent, finalEvent),
      inner.withJob { finalRecord with latestEventId := some finalEvent.id },
      [firstEvent, finalEvent])

end Jobs

section Decisions

/-- A decision that blocks a whole repository must not cover a part of another. -/
def validateRootScopedBlock (inner : InMemoryInner) (record : PolicyDecision) :
    StoreResult Unit :=
  if isRootScopedRepositoryBlock record then do
    let repository ← okOr inner.repositories[record.repositoryId]?
      (.notFound "repositories" (debug record.repositoryId))
    whenSome (inner.repositories.records.find? fun existing => existing.id ≠ repository.id &&
        repositoryRootsStrictlyOverlap repository.rootPath existing.rootPath) fun conflicting =>
      .error (.conflict "policy_decisions"
        s!"repository root_path {repository.rootPath} conflicts with repository root_path {conflicting.rootPath}")
  else .ok ()

def createPolicyDecision (record : PolicyDecision) : Mutation Unit := fun inner => do
  ensureRefExists (inner.repositories.contains record.repositoryId) "repositories"
    record.repositoryId "policy_decision.repository_id"
  validateRootScopedBlock inner record
  let policyDecisions ← insertRecord inner.policyDecisions record.id record "policy_decisions"
  return ((), { inner with policyDecisions })

def createLockDecision (record : LockDecision) : Mutation Unit := fun inner => do
  reject (inner.lockDecisions.contains record.id) (.duplicateId "lock_decisions" (debug record.id))
  validateLockDecisionTiming record
  ensure (inner.repositories.contains record.repositoryId)
    (.notFound "repositories" (debug record.repositoryId))
  validateLockPolicy inner record
  validateLockOwner inner record
  whenSome (inner.lockDecisions.records.find? fun existing =>
      isActiveLockStatus record.status && isActiveLockStatus existing.status &&
        existing.repositoryId = record.repositoryId &&
        existing.lockedScope = record.lockedScope) fun existing =>
    .error (.conflict "lock_decisions"
      s!"active lock {debug existing.id} already covers repository/scope")
  return ((), { inner with lockDecisions := inner.lockDecisions.insert record.id record })

end Decisions

section Migrations

/-- The later of two records by creation, then by identifier. -/
def laterMigration (left right : SchemaMigrationRecord) : SchemaMigrationRecord :=
  if right.createdAt < left.createdAt ∨
      (left.createdAt = right.createdAt ∧ right.id.text < left.id.text) then left
  else right

def latestMigration : List SchemaMigrationRecord → Option SchemaMigrationRecord
  | [] => none
  | first :: rest => some (rest.foldl laterMigration first)

def activeMigrationLock (inner : InMemoryInner) (moment : LedgerTimestamp) :
    Option SchemaMigrationRecord :=
  latestMigration ((inner.schemaMigrations.records.filter (·.isMigrationLock)).filter fun record =>
    record.migrationLock.any (·.isActive moment))

def mostRecentSchemaMigrationLockRecord (inner : InMemoryInner) : Option SchemaMigrationRecord :=
  latestMigration (inner.schemaMigrations.records.filter (·.isMigrationLock))

def schemaMigrationLockConflictReason (activeLock : SchemaMigrationRecord) : String :=
  let leaderId := (activeLock.migrationLock.map (·.leaderId)).getD "<unknown>"
  s!"active migration lock {debug activeLock.id} already held by {leaderId}"

/-- An expired held lock becomes a terminal record. -/
def expireMigrationLock (now : LedgerTimestamp) (record : SchemaMigrationRecord) :
    SchemaMigrationRecord :=
  match record.migrationLock with
  | none => record
  | some lock =>
    if lock.status = .held ∧ lock.isExpired now then
      let terminalAt := max now record.updatedAt
      { record with
        migrationLock := some { lock with status := .expired, releasedAt := some terminalAt }
        updatedAt := terminalAt }
    else record

def expireSchemaMigrationLocks (inner : InMemoryInner) (now : LedgerTimestamp) : InMemoryInner :=
  { inner with
    schemaMigrations := inner.schemaMigrations.map fun _ record => expireMigrationLock now record }

def createSchemaMigration (record : SchemaMigrationRecord) : Mutation Unit := fun inner => do
  validateSchemaMigrationRecord record
  let writeAt := (record.migrationLock.map (·.lockedAt)).getD record.updatedAt
  let inner := expireSchemaMigrationLocks inner writeAt
  whenSome (activeMigrationLock inner writeAt) fun activeLock => do
    let conflict := StoreError.conflict "schema_migrations"
      (schemaMigrationLockConflictReason activeLock)
    reject (record.isMigrationLock) conflict
    let activeLeaderId := (activeLock.migrationLock.map (·.leaderId)).getD "<unknown>"
    reject (record.leaderId ≠ some activeLeaderId) conflict
  let schemaMigrations ← insertRecord inner.schemaMigrations record.id record "schema_migrations"
  return ((), { inner with schemaMigrations })

def acquireSchemaMigrationLock (uuid : Uuid) (leaderId : String) (safe : Bool)
    (timeoutMillis : Nat) (lockedAt : LedgerTimestamp) : Mutation SchemaMigrationRecord :=
  fun inner => do
    reject (Text.isBlank leaderId) (.invalidRecord "schema_migrations"
      "leader_id must not be blank")
    reject (timeoutMillis = 0) (.invalidRecord "schema_migrations"
      "timeout_millis must be greater than zero")
    let inner := expireSchemaMigrationLocks inner lockedAt
    whenSome (activeMigrationLock inner lockedAt) fun activeLock =>
      .error (.conflict "schema_migrations" (schemaMigrationLockConflictReason activeLock))
    let record := SchemaMigrationRecord.newMigrationLock uuid leaderId lockedAt safe timeoutMillis
    let schemaMigrations ← insertRecord inner.schemaMigrations record.id record "schema_migrations"
    return (record, { inner with schemaMigrations })

def getSchemaMigrationLock (now : LedgerTimestamp) : Mutation (Option SchemaMigrationRecord) :=
  fun inner =>
    let inner := expireSchemaMigrationLocks inner now
    return (mostRecentSchemaMigrationLockRecord inner, inner)

/-- The checks of a release and the record it leaves. A released lock is
returned as it is. -/
def releaseMigrationLock (id : SchemaMigrationId) (record : SchemaMigrationRecord)
    (leaderId : String) (releasedAt : LedgerTimestamp) : StoreResult SchemaMigrationRecord := do
  ensure (record.isMigrationLock) (.invalidRecord "schema_migrations"
    s!"{debug id} is not a migration lock")
  let lock ← okOr record.migrationLock (.invalidRecord "schema_migrations"
    s!"{debug id} is not a migration lock")
  reject (lock.leaderId ≠ leaderId) (.conflict "schema_migrations"
    "migration lock leader_id mismatch")
  match lock.status with
  | .released => return record
  | .expired => .error (.conflict "schema_migrations" "migration lock is already expired")
  | .held => do
    reject (releasedAt.unixMillis < lock.lockedAt.unixMillis) (.invalidRecord "schema_migrations"
      "released_at must not be earlier than locked_at")
    return { record with
      migrationLock := some { lock with status := .released, releasedAt := some releasedAt }
      updatedAt := max releasedAt record.updatedAt }

def releaseSchemaMigrationLock (id : SchemaMigrationId) (leaderId : String)
    (releasedAt : LedgerTimestamp) : Mutation SchemaMigrationRecord := fun inner => do
  let inner := expireSchemaMigrationLocks inner releasedAt
  let record ← okOr inner.schemaMigrations[id]? (.notFound "schema_migrations" (debug id))
  let released ← releaseMigrationLock id record leaderId releasedAt
  return (released, { inner with schemaMigrations := inner.schemaMigrations.insert id released })

end Migrations

section Tools

def createToolInvocation (record : ToolInvocation) : Mutation Unit := fun inner => do
  validateToolInvocationRefs inner record
  let toolInvocations ← insertRecord inner.toolInvocations record.id record "tool_invocations"
  return ((), { inner with toolInvocations })

def createToolResult (record : ToolResult) : Mutation Unit := fun inner => do
  validateToolResultRefs inner record
  let toolResults ← insertRecord inner.toolResults record.id record "tool_results"
  return ((), { inner with toolResults })

def createAuditRecord (record : AuditRecord) : Mutation Unit := fun inner => do
  validateAuditRecordRefs inner record
  let auditRecords ← insertRecord inner.auditRecords record.id record "audit_records"
  return ((), { inner with auditRecords })

def getSubmitJobIdempotency (inner : InMemoryInner) (idempotencyKey : String) :
    Option SubmitJobIdempotencyRecord :=
  inner.idempotentSubmitJobs[idempotencyKey]?

def recordSubmitJobIdempotency (idempotencyKey : String) (record : SubmitJobIdempotencyRecord) :
    Mutation Unit := fun inner => do
  let inner ← insertSubmitJobIdempotencyLocked inner idempotencyKey record
  return ((), inner)

/-- The checks shared by the two operations that store a tool result with its
audit record and events. -/
def validateToolResultAndAudit (inner : InMemoryInner) (record : JobRecord)
    (toolResult : ToolResult) (toolResultEvent : JobEvent) (auditRecord : AuditRecord)
    (auditEvent : JobEvent) : StoreResult Unit := do
  validateJobUpdate inner record toolResultEvent
  validateJobUpdate inner record auditEvent
  validateToolResultRefs inner toolResult
  validateAuditRecordRefsWithPendingToolResult inner auditRecord (some toolResult)
  validateNewJobEventWithPendingRecords inner toolResultEvent { toolResult := some toolResult }
  validateNewJobEventWithPendingRecords inner auditEvent
    { toolResult := some toolResult, auditRecord := some auditRecord }
  ensureRefAbsent (!inner.toolResults.contains toolResult.id) "tool_results" toolResult.id
  ensureRefAbsent (!inner.auditRecords.contains auditRecord.id) "audit_records" auditRecord.id

/-- Store a tool result and its audit record, each with its event. -/
def writeToolResultAndAudit (inner : InMemoryInner) (record : JobRecord)
    (toolResult : ToolResult) (toolResultEvent : JobEvent) (auditRecord : AuditRecord)
    (auditEvent : JobEvent) : StoreResult ((JobEvent × JobEvent) × InMemoryInner) := do
  let toolResults ← insertRecord inner.toolResults toolResult.id toolResult "tool_results"
  let (toolResultEvent, inner) ← appendEventLocked toolResultEvent { inner with toolResults }
  let inner := inner.withJob { record with latestEventId := some toolResultEvent.id }
  let auditRecords ← insertRecord inner.auditRecords auditRecord.id auditRecord "audit_records"
  let (auditEvent, inner) ← appendEventLocked auditEvent { inner with auditRecords }
  let inner := inner.withJob { record with latestEventId := some auditEvent.id }
  return ((toolResultEvent, auditEvent), inner)

def recordToolResultAndAuditWithEvents (record : JobRecord) (toolResult : ToolResult)
    (toolResultEvent : JobEvent) (auditRecord : AuditRecord) (auditEvent : JobEvent) :
    Mutation (JobEvent × JobEvent) :=
  mutateWithPublishedEvents fun inner => do
    validateSiblingEventIdsAreUnique toolResultEvent auditEvent
    validateToolResultAndAudit inner record toolResult toolResultEvent auditRecord auditEvent
    ensureEventSequenceCapacity inner 2
    let (events, inner) ← writeToolResultAndAudit inner record toolResult toolResultEvent
      auditRecord auditEvent
    return (events, inner, [events.1, events.2])

structure ToolResultAuditTerminalRequest where
  record : JobRecord
  toolResult : ToolResult
  toolResultEvent : JobEvent
  auditRecord : AuditRecord
  auditEvent : JobEvent
  terminalEvent : JobEvent
  idempotency : Option (String × SubmitJobIdempotencyRecord)

def terminalStatus : ToolResultStatus → JobStatus
  | .succeeded => .succeeded
  | .failed | .timedOut => .failed
  | .canceled => .canceled

/-- Overwrite the last three events of a receipt with the committed ones. -/
def patchReceiptEvents (events : List JobEvent) (toolResultEvent auditEvent terminalEvent : JobEvent) :
    List JobEvent :=
  let patched := (events.set (events.length - 3) toolResultEvent).set (events.length - 2) auditEvent
  replaceLast patched terminalEvent

/-- Move the job to its terminal status; the transition is checked as an update. -/
def terminalRecord (record : JobRecord) (status : ToolResultStatus) (terminalEvent : JobEvent) :
    StoreResult JobRecord :=
  match record.transitionStatus (terminalStatus status) terminalEvent.createdAt with
  | .ok finalRecord => .ok finalRecord
  | .error error => .error (invalidLifecycleTransition record.id error)

/-- The receipt of a terminal request as it is stored. -/
def committedTerminalSubmission (submission : SubmitJobIdempotencyRecord) (finalRecord : JobRecord)
    (stored : JobEvent × JobEvent × JobEvent) : SubmitJobIdempotencyRecord :=
  { submission with receipt := { submission.receipt with
      events := patchReceiptEvents submission.receipt.events stored.1 stored.2.1 stored.2.2
      job := { finalRecord with latestEventId := some stored.2.2.id } } }

/-- Storing the receipt of a terminal request, when there is one. -/
def insertTerminalReceipt (draft : InMemoryInner) (request : ToolResultAuditTerminalRequest)
    (finalRecord : JobRecord) (stored : JobEvent × JobEvent × JobEvent) :
    StoreResult InMemoryInner :=
  match request.idempotency with
  | none => .ok draft
  | some (idempotencyKey, submission) =>
    insertSubmitJobIdempotencyLocked draft idempotencyKey
      (committedTerminalSubmission submission finalRecord stored)

def recordToolResultAuditTerminalWithSubmitJobIdempotency
    (request : ToolResultAuditTerminalRequest) : Mutation (JobEvent × JobEvent × JobEvent) :=
  mutateWithPublishedEvents fun inner => do
    let record := request.record
    validateSiblingEventIdsAreUnique request.toolResultEvent request.auditEvent
    validateSiblingEventIdsAreUnique request.toolResultEvent request.terminalEvent
    validateSiblingEventIdsAreUnique request.auditEvent request.terminalEvent
    validateToolResultAndAudit inner record request.toolResult request.toolResultEvent
      request.auditRecord request.auditEvent
    ensureEventSequenceCapacity inner 3
    let finalRecord ← terminalRecord record request.toolResult.status request.terminalEvent
    validateJobUpdateAgainst record finalRecord request.terminalEvent
    validateNewJobEventWithPendingRecords inner request.terminalEvent
      { job := some finalRecord, toolResult := some request.toolResult,
        auditRecord := some request.auditRecord }
    let ((toolResultEvent, auditEvent), inner) ← writeToolResultAndAudit inner record
      request.toolResult request.toolResultEvent request.auditRecord request.auditEvent
    let (terminalEvent, inner) ← appendEventLocked request.terminalEvent inner
    let inner := inner.withJob { finalRecord with latestEventId := some terminalEvent.id }
    let inner ← insertTerminalReceipt inner request finalRecord
      (toolResultEvent, auditEvent, terminalEvent)
    return ((toolResultEvent, auditEvent, terminalEvent), inner,
      [toolResultEvent, auditEvent, terminalEvent])

end Tools

end Atelia.Store
