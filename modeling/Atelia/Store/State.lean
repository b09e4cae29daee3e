import Atelia.Foundation.Outcome
import Atelia.Foundation.Path
import Atelia.Domain.Records

/-! The state of the store and the checks its operations share. -/

namespace Atelia.Store

open Outcome

inductive StoreError where
  | notFound (collection id : String)
  | duplicateId (collection id : String)
  | conflict (collection reason : String)
  | invalidReference (collection reason : String)
  | invalidCursor (reason : String)
  | cursorExpired (reason : String)
  | sequenceOverflow
  | invalidRecord (collection reason : String)
  deriving DecidableEq

abbrev StoreResult (α : Type) : Type := Except StoreError α

/-- The ledger. The extension registry snapshot that the source keeps beside it
is read and written by no ledger operation and is modelled on its own. -/
structure InMemoryInner where
  repositories : Table RepositoryId RepositoryRecord := ∅
  jobs : Table JobId JobRecord := ∅
  jobEventsById : Table JobEventId JobEvent := ∅
  jobEventsBySequence : Table Nat JobEventId := ∅
  nextEventSequence : Nat := 0
  policyDecisions : Table PolicyDecisionId PolicyDecision := ∅
  lockDecisions : Table LockDecisionId LockDecision := ∅
  schemaMigrations : Table SchemaMigrationId SchemaMigrationRecord := ∅
  toolInvocations : Table ToolInvocationId ToolInvocation := ∅
  toolResults : Table ToolResultId ToolResult := ∅
  auditRecords : Table AuditRecordId AuditRecord := ∅
  idempotentSubmitJobs : Table String SubmitJobIdempotencyRecord := ∅

/-- The empty ledger of a new store. -/
def InMemoryInner.empty : InMemoryInner := {}

/-- The largest sequence number a `u64` holds. -/
def maxSequence : Nat := 2 ^ 64 - 1

section Records

variable {kind : IdKind} {Record : Type}

def insertRecord (collection : Table (Identifier kind) Record) (id : Identifier kind)
    (record : Record) (collectionName : String) : StoreResult (Table (Identifier kind) Record) := do
  reject (collection.contains id = true) (.duplicateId collectionName (debug id))
  return collection.insert id record

def getRecord (collection : Table (Identifier kind) Record) (id : Identifier kind)
    (collectionName : String) : StoreResult Record :=
  okOr collection[id]? (.notFound collectionName (debug id))

@[simp] theorem insertRecord_eq_ok {collection next : Table (Identifier kind) Record}
    {id : Identifier kind} {record : Record} {collectionName : String} :
    insertRecord collection id record collectionName = .ok next ↔
      collection[id]? = none ∧ collection.insert id record = next := by
  simp only [insertRecord, bind_eq_ok, exists_unit, reject_eq_ok, pure_eq_ok, Bool.not_eq_true,
    Table.contains_eq_false_iff]

@[simp] theorem getRecord_eq_ok {collection : Table (Identifier kind) Record}
    {id : Identifier kind} {record : Record} {collectionName : String} :
    getRecord collection id collectionName = .ok record ↔ collection[id]? = some record :=
  okOr_eq_ok

end Records

def ensureSameRepository (collection context : String) (expected actual : RepositoryId) :
    StoreResult Unit :=
  ensure (actual = expected) (.invalidReference collection
    s!"{context} belongs to repository {debug actual}, not {debug expected}")

def ensureRefExists {kind : IdKind} (present : Bool) (collection : String) (id : Identifier kind)
    (context : String) : StoreResult Unit :=
  ensure (present = true) (.notFound collection s!"{debug id} ({context})")

def ensureRefAbsent {kind : IdKind} (absent : Bool) (collection : String) (id : Identifier kind) :
    StoreResult Unit :=
  ensure (absent = true) (.duplicateId collection (debug id))

@[simp] theorem ensureSameRepository_eq_ok {collection context : String}
    {expected actual : RepositoryId} {result : Unit} :
    ensureSameRepository collection context expected actual = .ok result ↔ actual = expected :=
  ensure_eq_ok

@[simp] theorem ensureRefExists_eq_ok {kind : IdKind} {present : Bool} {collection : String}
    {id : Identifier kind} {context : String} {result : Unit} :
    ensureRefExists present collection id context = .ok result ↔ present = true :=
  ensure_eq_ok

@[simp] theorem ensureRefAbsent_eq_ok {kind : IdKind} {absent : Bool} {collection : String}
    {id : Identifier kind} {result : Unit} :
    ensureRefAbsent absent collection id = .ok result ↔ absent = true :=
  ensure_eq_ok

/-- Two repository roots are distinct and one is a strict ancestor of the other. -/
def repositoryRootsStrictlyOverlap (candidateRoot blockedRoot : String) : Bool :=
  Path.strictlyOverlap (Path.components candidateRoot) (Path.components blockedRoot)

theorem repositoryRootsStrictlyOverlap_comm (first second : String) :
    repositoryRootsStrictlyOverlap first second = repositoryRootsStrictlyOverlap second first :=
  Path.strictlyOverlap_comm _ _

def reasonRepositoryBlocked : String := "repository_blocked"
def scopeKindRepository : String := "repository"
def scopeValueRoot : String := "."

/-- A blocked decision that covers its repository from the root. -/
def isRootScopedRepositoryBlock (decision : PolicyDecision) : Bool :=
  decision.outcome = .blocked && Text.trim decision.reasonCode = reasonRepositoryBlocked &&
    Text.trim decision.resourceScope.kind = scopeKindRepository &&
    Text.trim decision.resourceScope.value = scopeValueRoot

/-- The source compares the debug text of a status, so that it serves both
lock vocabularies. -/
def isActiveLockStatus (status : LockStatus) : Bool :=
  debug status ∈ ["Held", "Active", "held", "active"]

theorem isActiveLockStatus_iff {status : LockStatus} :
    isActiveLockStatus status = true ↔ status = .held := by
  cases status <;> decide

end Atelia.Store
