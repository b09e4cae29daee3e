import Atelia.Foundation.Outcome
import Atelia.Domain.Identifiers

/-! Repositories, jobs and the job lifecycle. -/

namespace Atelia

open Outcome

/-- The schema version every new record carries. -/
def domainSchemaVersion : Nat := 1

inductive Actor where
  | user (id : String) (displayName : Option String)
  | agent (id : String) (displayName : Option String)
  | extension (id : String)
  | system (id : String)
  deriving DecidableEq

instance : RustDebug Actor where
  debug
    | .user id displayName =>
      s!"User \x7b id: {debug id}, display_name: {debug displayName} \x7d"
    | .agent id displayName =>
      s!"Agent \x7b id: {debug id}, display_name: {debug displayName} \x7d"
    | .extension id => s!"Extension \x7b id: {debug id} \x7d"
    | .system id => s!"System \x7b id: {debug id} \x7d"

structure RedactionMarker where
  fieldPath : String
  reason : String
  redactedAt : LedgerTimestamp
  deriving DecidableEq

structure TruncationMetadata where
  originalBytes : Nat
  retainedBytes : Nat
  reason : String
  deriving DecidableEq

structure OutputRef where
  id : OutputRefId
  uri : String
  mediaType : String
  label : Option String
  digest : Option String
  deriving DecidableEq

structure ArtifactRef where
  id : ArtifactRefId
  uri : String
  mediaType : String
  label : Option String
  digest : Option String
  deriving DecidableEq

structure PathScope where
  rootPath : String
  allowedPaths : List String
  deriving DecidableEq

/-- The scope of a repository that allows its whole root. -/
def PathScope.repository (rootPath : String) : PathScope :=
  ⟨rootPath, [rootPath]⟩

inductive RepositoryTrustState where
  | trusted | readOnly | blocked
  deriving DecidableEq

structure RepositoryMetadata where
  observedAt : LedgerTimestamp
  vcsKind : Option String
  branch : Option String
  headRevision : Option String
  deriving DecidableEq

structure RepositoryRecord where
  id : RepositoryId
  schemaVersion : Nat
  createdAt : LedgerTimestamp
  updatedAt : LedgerTimestamp
  displayName : String
  rootPath : String
  allowedPathScope : PathScope
  trustState : RepositoryTrustState
  ownerHint : Option String
  lastObservedMetadata : Option RepositoryMetadata
  redactions : List RedactionMarker
  deriving DecidableEq

def RepositoryRecord.new (uuid : Uuid) (displayName rootPath : String)
    (trustState : RepositoryTrustState) (createdAt : LedgerTimestamp) : RepositoryRecord where
  id := .new _ uuid
  schemaVersion := domainSchemaVersion
  createdAt := createdAt
  updatedAt := createdAt
  displayName := displayName
  rootPath := rootPath
  allowedPathScope := .repository rootPath
  trustState := trustState
  ownerHint := none
  lastObservedMetadata := none
  redactions := []

inductive JobKind where
  | read | mutate | process | maintenance
  | other (name : String)
  deriving DecidableEq

instance : RustDebug JobKind where
  debug
    | .read => "Read"
    | .mutate => "Mutate"
    | .process => "Process"
    | .maintenance => "Maintenance"
    | .other name => s!"Other \x7b name: {debug name} \x7d"

inductive JobStatus where
  | queued | running | succeeded | failed | blocked | canceled
  deriving DecidableEq

namespace JobStatus

instance : RustDebug JobStatus where
  debug
    | queued => "Queued"
    | running => "Running"
    | succeeded => "Succeeded"
    | failed => "Failed"
    | blocked => "Blocked"
    | canceled => "Canceled"

def isTerminal : JobStatus → Bool
  | succeeded | failed | blocked | canceled => true
  | queued | running => false

def canTransitionTo (self next : JobStatus) : Bool :=
  if self = next then true
  else match self, next with
    | queued, running | queued, failed | queued, blocked | queued, canceled => true
    | running, succeeded | running, failed | running, blocked | running, canceled => true
    | _, _ => false

/-- A terminal status has no successor but itself. -/
theorem eq_of_terminal_transition {self next : JobStatus} (terminal : self.isTerminal = true)
    (allowed : self.canTransitionTo next = true) : next = self := by
  cases self <;> cases next <;> simp_all [isTerminal, canTransitionTo]

/-- Two changes in a row end in a terminal status. -/
theorem terminal_of_two_transitions {first second third : JobStatus} (changed : first ≠ second)
    (allowed : first.canTransitionTo second = true) (changed' : second ≠ third)
    (allowed' : second.canTransitionTo third = true) : third.isTerminal = true := by
  cases first <;> cases second <;> cases third <;> simp_all [isTerminal, canTransitionTo]

end JobStatus

inductive CancellationState where
  | notRequested | requested | cooperativeStop | forceStop | completed
  deriving DecidableEq

instance : RustDebug CancellationState where
  debug
    | .notRequested => "NotRequested"
    | .requested => "Requested"
    | .cooperativeStop => "CooperativeStop"
    | .forceStop => "ForceStop"
    | .completed => "Completed"

inductive RiskTier where
  | r0 | r1 | r2 | r3 | r4
  deriving DecidableEq

inductive PolicyOutcome where
  | allowed | audited | needsApproval | blocked
  deriving DecidableEq

structure PolicySummary where
  decisionId : Option PolicyDecisionId
  outcome : PolicyOutcome
  riskTier : RiskTier
  reasonCode : String
  deriving DecidableEq

structure JobRecord where
  id : JobId
  schemaVersion : Nat
  createdAt : LedgerTimestamp
  updatedAt : LedgerTimestamp
  startedAt : Option LedgerTimestamp
  completedAt : Option LedgerTimestamp
  requester : Actor
  repositoryId : RepositoryId
  kind : JobKind
  goal : Option String
  status : JobStatus
  policySummary : Option PolicySummary
  cancellationState : CancellationState
  latestEventId : Option JobEventId
  redactions : List RedactionMarker
  deriving DecidableEq

def normalizeOptionalDomainGoal (goal : Option String) : Option String :=
  goal.bind fun text => if Text.isBlank text then none else some (Text.trim text)

inductive JobStatusTransitionError where
  | invalidTransition (source target : JobStatus)
  | nonMonotonicTimestamp (moment latest : LedgerTimestamp)
  deriving DecidableEq

instance : RustDebug JobStatusTransitionError where
  debug
    | .invalidTransition source target =>
      s!"InvalidTransition \x7b from: {debug source}, to: {debug target} \x7d"
    | .nonMonotonicTimestamp moment latest =>
      s!"NonMonotonicTimestamp \x7b at: {debug moment}, latest: {debug latest} \x7d"

namespace JobRecord

def new (uuid : Uuid) (requester : Actor) (repositoryId : RepositoryId) (kind : JobKind)
    (goal : Option String) (createdAt : LedgerTimestamp) : JobRecord where
  id := .new _ uuid
  schemaVersion := domainSchemaVersion
  createdAt := createdAt
  updatedAt := createdAt
  startedAt := none
  completedAt := none
  requester := requester
  repositoryId := repositoryId
  kind := kind
  goal := normalizeOptionalDomainGoal goal
  status := .queued
  policySummary := none
  cancellationState := .notRequested
  latestEventId := none
  redactions := []

/-- The job as it is when it is created. -/
def IsNew (job : JobRecord) : Prop :=
  ∃ uuid requester repositoryId kind goal createdAt,
    job = new uuid requester repositoryId kind goal createdAt

/-- The latest of the job's own timestamps. -/
def latestTimestamp (job : JobRecord) : LedgerTimestamp :=
  max (max job.updatedAt (job.startedAt.getD job.updatedAt)) (job.completedAt.getD job.updatedAt)

def ensureMonotonicTransitionTimestamp (job : JobRecord) (moment : LedgerTimestamp) :
    Except JobStatusTransitionError Unit :=
  reject (moment < job.latestTimestamp) (.nonMonotonicTimestamp moment job.latestTimestamp)

/-- What an accepted transition writes. -/
def withStatus (job : JobRecord) (next : JobStatus) (moment : LedgerTimestamp) : JobRecord :=
  { job with
    status := next
    updatedAt := moment
    startedAt := if next = .running ∧ job.startedAt = none then some moment else job.startedAt
    completedAt := if next.isTerminal ∧ job.completedAt = none then some moment else job.completedAt }

def transitionStatus (job : JobRecord) (next : JobStatus) (moment : LedgerTimestamp) :
    Except JobStatusTransitionError JobRecord := do
  ensure (job.status.canTransitionTo next) (.invalidTransition job.status next)
  job.ensureMonotonicTransitionTimestamp moment
  return job.withStatus next moment

/-- Exactly when a transition is accepted, and what it changes. -/
theorem transitionStatus_eq_ok {job next : JobRecord} {status : JobStatus}
    {moment : LedgerTimestamp} :
    job.transitionStatus status moment = .ok next ↔
      job.status.canTransitionTo status = true ∧ job.latestTimestamp ≤ moment ∧
        job.withStatus status moment = next := by
  simp only [transitionStatus, ensureMonotonicTransitionTimestamp, bind_eq_ok, exists_unit, ensure_eq_ok,
    reject_eq_ok, pure_eq_ok, not_lt]

end JobRecord

end Atelia
