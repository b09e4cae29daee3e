import Atelia.Domain.Jobs

/-! Event, policy, lock, tool, audit and migration records. -/

namespace Atelia

inductive EventSubjectType where
  | repository | job | policyDecision | lockDecision | toolInvocation | toolResult | auditRecord
  deriving DecidableEq

namespace EventSubjectType

instance : RustDebug EventSubjectType where
  debug
    | repository => "Repository"
    | job => "Job"
    | policyDecision => "PolicyDecision"
    | lockDecision => "LockDecision"
    | toolInvocation => "ToolInvocation"
    | toolResult => "ToolResult"
    | auditRecord => "AuditRecord"

/-- The kind of identifier a subject of the type has. -/
def idKind : EventSubjectType → IdKind
  | repository => .repository
  | job => .job
  | policyDecision => .policyDecision
  | lockDecision => .lockDecision
  | toolInvocation => .toolInvocation
  | toolResult => .toolResult
  | auditRecord => .auditRecord

end EventSubjectType

/-- What an event is about. The identifier is a plain text here: any caller can
build a subject, and the store checks it against the subject type. `isUuid` is what the
UUID parser, which is not modelled, answers to the text after the lead of the type. -/
structure EventSubject where
  subjectType : EventSubjectType
  subjectId : String
  isUuid : Bool
  deriving DecidableEq

namespace EventSubject

def repository (id : RepositoryId) : EventSubject := ⟨.repository, id.text, true⟩
def job (id : JobId) : EventSubject := ⟨.job, id.text, true⟩
def policyDecision (id : PolicyDecisionId) : EventSubject := ⟨.policyDecision, id.text, true⟩
def lockDecision (id : LockDecisionId) : EventSubject := ⟨.lockDecision, id.text, true⟩
def toolInvocation (id : ToolInvocationId) : EventSubject := ⟨.toolInvocation, id.text, true⟩
def toolResult (id : ToolResultId) : EventSubject := ⟨.toolResult, id.text, true⟩
def auditRecord (id : AuditRecordId) : EventSubject := ⟨.auditRecord, id.text, true⟩

def hasValidSubjectId (subject : EventSubject) : Bool :=
  Text.startsWith subject.subjectId subject.subjectType.idKind.lead && subject.isUuid

end EventSubject

inductive EventSeverity where
  | debug | info | warning | error
  deriving DecidableEq

inductive ToolResultStatus where
  | succeeded | failed | canceled | timedOut
  deriving DecidableEq

inductive JobEventKind where
  | jobSubmitted
  | jobStatusChanged (source target : JobStatus)
  | policyDecided (outcome : PolicyOutcome)
  | lockHeld
  | lockReleased
  | lockReclaimed
  | toolInvoked (toolId : String)
  | toolResultRecorded (status : ToolResultStatus)
  | auditRecorded
  | cancellationRequested
  | recoveryActionRecorded
  | message
  deriving DecidableEq

structure EventRefs where
  repositoryId : Option RepositoryId := none
  jobId : Option JobId := none
  policyDecisionId : Option PolicyDecisionId := none
  lockDecisionId : Option LockDecisionId := none
  toolInvocationId : Option ToolInvocationId := none
  toolResultId : Option ToolResultId := none
  contentType : Option String := none
  auditRecordId : Option AuditRecordId := none
  outputRefs : List OutputRef := []
  artifactRefs : List ArtifactRef := []
  deriving DecidableEq

structure JobEvent where
  id : JobEventId
  schemaVersion : Nat
  sequenceNumber : Nat
  createdAt : LedgerTimestamp
  subject : EventSubject
  kind : JobEventKind
  severity : EventSeverity
  publicMessage : String
  refs : EventRefs
  redactions : List RedactionMarker
  deriving DecidableEq

def runtimeSchemaVersion : Nat := 1

/-- A new event, not yet numbered. -/
def jobEvent (uuid : Uuid) (createdAt : LedgerTimestamp) (subject : EventSubject)
    (kind : JobEventKind) (severity : EventSeverity) (publicMessage : String) (refs : EventRefs) :
    JobEvent where
  id := .new _ uuid
  schemaVersion := runtimeSchemaVersion
  sequenceNumber := 0
  createdAt := createdAt
  subject := subject
  kind := kind
  severity := severity
  publicMessage := publicMessage
  refs := refs
  redactions := []

def refsForJob (job : JobRecord) : EventRefs where
  repositoryId := some job.repositoryId
  jobId := some job.id

structure ResourceScope where
  kind : String
  value : String
  deriving DecidableEq

structure PolicyDecision where
  id : PolicyDecisionId
  schemaVersion : Nat
  createdAt : LedgerTimestamp
  requester : Actor
  repositoryId : RepositoryId
  requestedCapability : String
  resourceScope : ResourceScope
  toolId : Option String
  providerId : Option String
  declaredEffect : String
  currentTrustState : RepositoryTrustState
  approvalAvailable : Bool
  policyVersion : String
  outcome : PolicyOutcome
  riskTier : RiskTier
  reasonCode : String
  userReason : String
  approvalRequestRef : Option OutputRef
  auditRef : Option AuditRecordId
  redactions : List RedactionMarker
  deriving DecidableEq

inductive LockOwner where
  | job (id : JobId)
  | process (id : String)
  | system (id : String)
  deriving DecidableEq

inductive LockedScope where
  | repository
  | path (path : String)
  | pathPattern (pattern : String)
  deriving DecidableEq

instance : RustDebug LockedScope where
  debug
    | .repository => "Repository"
    | .path path => s!"Path \x7b path: {debug path} \x7d"
    | .pathPattern pattern => s!"PathPattern \x7b pattern: {debug pattern} \x7d"

/-- The source compares scopes by their debug texts, which tell them apart. -/
theorem LockedScope.debug_injective {first second : LockedScope}
    (same : debug first = debug second) : first = second := by
  have texts := congrArg String.toList same
  cases first <;> cases second <;> simp [debug, toString] at texts ⊢
  · exact Text.quote_injective (String.toList_inj.mp texts)
  · exact Text.quote_injective (String.toList_inj.mp texts)

inductive LockStatus where
  | held | released | expired | reclaimed
  deriving DecidableEq

instance : RustDebug LockStatus where
  debug
    | .held => "Held"
    | .released => "Released"
    | .expired => "Expired"
    | .reclaimed => "Reclaimed"

structure LockDecision where
  id : LockDecisionId
  schemaVersion : Nat
  createdAt : LedgerTimestamp
  updatedAt : LedgerTimestamp
  repositoryId : RepositoryId
  policyDecisionId : PolicyDecisionId
  owner : LockOwner
  lockedScope : LockedScope
  lockedAt : LedgerTimestamp
  expiresAt : LedgerTimestamp
  releasedAt : Option LedgerTimestamp
  reclaimedAt : Option LedgerTimestamp
  status : LockStatus
  redactions : List RedactionMarker
  deriving DecidableEq

structure ResolvedPath where
  requestedPath : String
  resolvedPath : String
  displayPath : String
  deriving DecidableEq

structure ToolInvocation where
  id : ToolInvocationId
  schemaVersion : Nat
  createdAt : LedgerTimestamp
  jobId : JobId
  repositoryId : RepositoryId
  policyDecisionId : PolicyDecisionId
  actor : Actor
  toolId : String
  requestedCapability : String
  argsSummary : String
  resolvedPaths : List ResolvedPath
  timeoutMillis : Option Nat
  redactions : List RedactionMarker
  deriving DecidableEq

inductive StructuredValue where
  | null
  | bool (value : Bool)
  | integer (value : Int)
  | string (value : String)
  | stringList (values : List String)
  deriving DecidableEq

structure ToolResultField where
  key : String
  value : StructuredValue
  deriving DecidableEq

structure ToolResult where
  id : ToolResultId
  schemaVersion : Nat
  createdAt : LedgerTimestamp
  invocationId : ToolInvocationId
  toolId : String
  status : ToolResultStatus
  schemaRef : Option String
  fields : List ToolResultField
  evidenceRefs : List ArtifactRef
  outputRefs : List OutputRef
  truncation : Option TruncationMetadata
  redactions : List RedactionMarker
  deriving DecidableEq

structure AuditRecord where
  id : AuditRecordId
  schemaVersion : Nat
  createdAt : LedgerTimestamp
  actor : Actor
  repositoryId : RepositoryId
  requestedCapability : String
  policyDecisionId : PolicyDecisionId
  toolInvocationId : Option ToolInvocationId
  effectSummary : String
  outputRefs : List OutputRef
  redactions : List RedactionMarker
  deriving DecidableEq

inductive SchemaMigrationStatus where
  | applied | failed
  deriving DecidableEq

def migrationLockRecordName : String := "migration_lock"

inductive MigrationLockStatus where
  | held | released | expired
  deriving DecidableEq

structure MigrationLockRecord where
  status : MigrationLockStatus
  leaderId : String
  safe : Bool
  lockedAt : LedgerTimestamp
  timeoutMillis : Nat
  releasedAt : Option LedgerTimestamp
  deriving DecidableEq

namespace MigrationLockRecord

/-- The largest `i64`, at which an expiry saturates. -/
def maxUnixMillis : Int := 2 ^ 63 - 1

def expiresAt (lock : MigrationLockRecord) : LedgerTimestamp :=
  ⟨min (lock.lockedAt.unixMillis + lock.timeoutMillis) maxUnixMillis⟩

def isActive (lock : MigrationLockRecord) (moment : LedgerTimestamp) : Bool :=
  lock.status = .held && moment.unixMillis < lock.expiresAt.unixMillis

def isExpired (lock : MigrationLockRecord) (moment : LedgerTimestamp) : Bool :=
  lock.expiresAt.unixMillis ≤ moment.unixMillis

end MigrationLockRecord

structure SchemaMigrationRecord where
  id : SchemaMigrationId
  schemaVersion : Nat
  createdAt : LedgerTimestamp
  updatedAt : LedgerTimestamp
  migrationName : String
  migrationVersion : Nat
  status : SchemaMigrationStatus
  leaderId : Option String
  migrationLock : Option MigrationLockRecord
  notes : Option String
  redactions : List RedactionMarker
  deriving DecidableEq

namespace SchemaMigrationRecord

/-- A new held lock. The source builds it only with a positive timeout. -/
def newMigrationLock (uuid : Uuid) (leaderId : String) (lockedAt : LedgerTimestamp) (safe : Bool)
    (timeoutMillis : Nat) : SchemaMigrationRecord where
  id := .new _ uuid
  schemaVersion := domainSchemaVersion
  createdAt := lockedAt
  updatedAt := lockedAt
  migrationName := migrationLockRecordName
  migrationVersion := 1
  status := .applied
  leaderId := some leaderId
  migrationLock := some ⟨.held, leaderId, safe, lockedAt, timeoutMillis, none⟩
  notes := none
  redactions := []

def isMigrationLock (record : SchemaMigrationRecord) : Bool :=
  record.migrationName = migrationLockRecordName && record.migrationLock.isSome

/-- The record is a migration lock that has not ended. -/
def holdsLock (record : SchemaMigrationRecord) : Bool :=
  record.isMigrationLock && record.migrationLock.any fun lock => lock.status = .held

end SchemaMigrationRecord

inductive OutputFormat where
  | toon | json | text
  deriving DecidableEq

structure RenderedToolOutput where
  format : OutputFormat
  schemaVersion : String
  body : String
  fallbackReason : Option String
  truncation : Option TruncationMetadata
  deriving DecidableEq

/-- The outcome of a submitted job with its ledger events in order. -/
structure RuntimeJobReceipt where
  job : JobRecord
  policyDecision : PolicyDecision
  toolInvocation : Option ToolInvocation
  toolResult : Option ToolResult
  renderedOutput : Option RenderedToolOutput
  auditRecord : Option AuditRecord
  events : List JobEvent
  deriving DecidableEq

structure SubmitJobIdempotencyRecord where
  signature : String
  receipt : RuntimeJobReceipt
  deriving DecidableEq

end Atelia
