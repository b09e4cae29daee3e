import Mathlib.Logic.Relation
import Atelia.Store.Operations

/-! Runs of store operations, with arbitrary arguments. -/

namespace Atelia.Store

/-- The operations that write the ledger. -/
inductive StoreOperation where
  | createRepository (record : RepositoryRecord)
  | createJob (record : JobRecord) (initialEvent : JobEvent)
  | appendJobEvent (event : JobEvent)
  | appendJobEventAndUpdateJob (record : JobRecord) (event : JobEvent)
  | appendJobEventAndUpdateJobWithSubmitJobIdempotency (record : JobRecord) (event : JobEvent)
      (idempotencyKey : String) (idempotencyRecord : SubmitJobIdempotencyRecord)
  | appendJobEventsAndUpdateJob (firstRecord : JobRecord) (firstEvent : JobEvent)
      (finalRecord : JobRecord) (finalEvent : JobEvent)
  | createPolicyDecision (record : PolicyDecision)
  | createLockDecision (record : LockDecision)
  | createSchemaMigration (record : SchemaMigrationRecord)
  | acquireSchemaMigrationLock (uuid : Uuid) (leaderId : String) (safe : Bool)
      (timeoutMillis : Nat) (lockedAt : LedgerTimestamp)
  | getSchemaMigrationLock (now : LedgerTimestamp)
  | releaseSchemaMigrationLock (id : SchemaMigrationId) (leaderId : String)
      (releasedAt : LedgerTimestamp)
  | createToolInvocation (record : ToolInvocation)
  | createToolResult (record : ToolResult)
  | createAuditRecord (record : AuditRecord)
  | recordSubmitJobIdempotency (idempotencyKey : String) (record : SubmitJobIdempotencyRecord)
  | recordToolResultAndAuditWithEvents (record : JobRecord) (toolResult : ToolResult)
      (toolResultEvent : JobEvent) (auditRecord : AuditRecord) (auditEvent : JobEvent)
  | recordToolResultAuditTerminal (request : ToolResultAuditTerminalRequest)

variable {inner after : InMemoryInner}

namespace StoreOperation

/-- The type of the answer of an operation. -/
def Response : StoreOperation → Type
  | createJob .. | appendJobEvent _ | appendJobEventAndUpdateJob _ _
  | appendJobEventAndUpdateJobWithSubmitJobIdempotency .. => JobEvent
  | appendJobEventsAndUpdateJob .. | recordToolResultAndAuditWithEvents .. => JobEvent × JobEvent
  | recordToolResultAuditTerminal _ => JobEvent × JobEvent × JobEvent
  | acquireSchemaMigrationLock .. | releaseSchemaMigrationLock .. => SchemaMigrationRecord
  | getSchemaMigrationLock _ => Option SchemaMigrationRecord
  | _ => Unit

/-- The operation with its answer. -/
def mutation : (operation : StoreOperation) → Mutation operation.Response
  | createRepository record => Store.createRepository record
  | createJob record initialEvent => createJobWithInitialEvent record initialEvent
  | appendJobEvent event => Store.appendJobEvent event
  | appendJobEventAndUpdateJob record event => Store.appendJobEventAndUpdateJob record event
  | appendJobEventAndUpdateJobWithSubmitJobIdempotency record event key submission =>
    Store.appendJobEventAndUpdateJobWithSubmitJobIdempotency record event key submission
  | appendJobEventsAndUpdateJob firstRecord firstEvent finalRecord finalEvent =>
    Store.appendJobEventsAndUpdateJob firstRecord firstEvent finalRecord finalEvent
  | createPolicyDecision record => Store.createPolicyDecision record
  | createLockDecision record => Store.createLockDecision record
  | createSchemaMigration record => Store.createSchemaMigration record
  | acquireSchemaMigrationLock uuid leaderId safe timeoutMillis lockedAt =>
    Store.acquireSchemaMigrationLock uuid leaderId safe timeoutMillis lockedAt
  | getSchemaMigrationLock now => Store.getSchemaMigrationLock now
  | releaseSchemaMigrationLock id leaderId releasedAt =>
    Store.releaseSchemaMigrationLock id leaderId releasedAt
  | createToolInvocation record => Store.createToolInvocation record
  | createToolResult record => Store.createToolResult record
  | createAuditRecord record => Store.createAuditRecord record
  | recordSubmitJobIdempotency key record => Store.recordSubmitJobIdempotency key record
  | recordToolResultAndAuditWithEvents record toolResult toolResultEvent auditRecord auditEvent =>
    Store.recordToolResultAndAuditWithEvents record toolResult toolResultEvent auditRecord auditEvent
  | recordToolResultAuditTerminal request =>
    recordToolResultAuditTerminalWithSubmitJobIdempotency request

/-- The events among the answers of an operation. -/
def published : (operation : StoreOperation) → operation.Response → List JobEvent
  | createJob .., event => [event]
  | appendJobEvent _, event => [event]
  | appendJobEventAndUpdateJob _ _, event => [event]
  | appendJobEventAndUpdateJobWithSubmitJobIdempotency .., event => [event]
  | appendJobEventsAndUpdateJob .., (first, final) => [first, final]
  | recordToolResultAndAuditWithEvents .., (result, audit) => [result, audit]
  | recordToolResultAuditTerminal _, (result, audit, terminal) => [result, audit, terminal]
  | _, _ => []

/-- The state an operation installs and the events it publishes. -/
def exec (inner : InMemoryInner) (operation : StoreOperation) :
    StoreResult (InMemoryInner × List JobEvent) := do
  let (response, inner) ← operation.mutation inner
  return (inner, operation.published response)

theorem exec_eq_ok {operation : StoreOperation} {events : List JobEvent} :
    operation.exec inner = .ok (after, events) ↔
      ∃ response, operation.mutation inner = .ok (response, after) ∧
        operation.published response = events := by
  simp only [exec, Outcome.bind_eq_ok, Outcome.pure_eq_ok, Prod.exists, Prod.mk.injEq]
  grind

end StoreOperation

/-- One successful operation. -/
def Step (before after : InMemoryInner) : Prop :=
  ∃ operation events, StoreOperation.exec before operation = .ok (after, events)

namespace StoreOperation

variable {operation : StoreOperation} {inner after : InMemoryInner} {response : operation.Response}

theorem exec_of_mutation (answered : operation.mutation inner = .ok (response, after)) :
    operation.exec inner = .ok (after, operation.published response) :=
  exec_eq_ok.mpr ⟨response, answered, rfl⟩

/-- The step of the ledger that an answered operation has taken. -/
theorem step_of_mutation (answered : operation.mutation inner = .ok (response, after)) :
    Step inner after :=
  ⟨operation, _, exec_of_mutation answered⟩

end StoreOperation

/-- A run of successful operations. -/
abbrev Run : InMemoryInner → InMemoryInner → Prop :=
  Relation.ReflTransGen Step

/-- States that a run of successful operations reaches from the empty store. -/
def Reachable (inner : InMemoryInner) : Prop :=
  Run .empty inner

/-- A job that an operation creates is one of the admitted ones. -/
def StoreOperation.Admitted (admits : JobRecord → Prop) : StoreOperation → Prop
  | .createJob record _ => admits record
  | _ => True

theorem StoreOperation.admitted_any (operation : StoreOperation) :
    operation.Admitted fun _ => True := by
  cases operation <;> trivial

/-- One successful operation that creates no other job than an admitted one. -/
def AdmittedStep (admits : JobRecord → Prop) (before after : InMemoryInner) : Prop :=
  ∃ (operation : StoreOperation) (events : List JobEvent),
    operation.Admitted admits ∧ operation.exec before = .ok (after, events)

theorem AdmittedStep.step {admits : JobRecord → Prop} {before : InMemoryInner}
    (taken : AdmittedStep admits before after) : Step before after := by
  obtain ⟨operation, events, _, succeeded⟩ := taken
  exact ⟨operation, events, succeeded⟩

/-- States that a run of successful operations reaches from the empty store when
jobs are created as `JobRecord.new` builds them. -/
def ReachableByNewJobs (inner : InMemoryInner) : Prop :=
  Relation.ReflTransGen (AdmittedStep JobRecord.IsNew) .empty inner

theorem ReachableByNewJobs.reachable (reached : ReachableByNewJobs inner) : Reachable inner :=
  Relation.ReflTransGen.mono (fun _ _ => AdmittedStep.step) _ _ reached

/-- Perform operations one after the other. -/
def runOperations (inner : InMemoryInner) : List StoreOperation → StoreResult InMemoryInner
  | [] => .ok inner
  | operation :: rest => do
    let (next, _) ← operation.exec inner
    runOperations next rest

variable {operations : List StoreOperation}

theorem AdmittedStep.of_operations {admits : JobRecord → Prop}
    (admitted : ∀ operation ∈ operations,
      operation.Admitted admits) (ran : runOperations inner operations = .ok after) :
    Relation.ReflTransGen (AdmittedStep admits) inner after := by
  induction operations generalizing inner with
  | nil =>
    obtain rfl := Except.ok.inj ran
    exact .refl
  | cons operation rest ih =>
    rw [runOperations, Outcome.bind_eq_ok] at ran
    obtain ⟨⟨next, events⟩, succeeded, ran⟩ := ran
    obtain ⟨first, others⟩ := List.forall_mem_cons.mp admitted
    exact .head ⟨operation, events, first, succeeded⟩ (ih others ran)

theorem Run.of_operations (ran : runOperations inner operations = .ok after) : Run inner after :=
  Relation.ReflTransGen.mono (fun _ _ => AdmittedStep.step) _ _
    (AdmittedStep.of_operations (fun operation _ => operation.admitted_any) ran)

/-- Each operation of a run meets a condition in the state it runs in. -/
def AlongRun (Meets : InMemoryInner → StoreOperation → Prop) :
    InMemoryInner → List StoreOperation → Prop
  | _, [] => True
  | inner, operation :: rest => Meets inner operation ∧
      ∀ next events, operation.exec inner = .ok (next, events) → AlongRun Meets next rest

/-- What one operation keeps under a condition, and establishes under no other, a run keeps
exactly when each of its operations meets the condition. -/
theorem runOperations_iff {Meets : InMemoryInner → StoreOperation → Prop}
    {Holds : InMemoryInner → Prop}
    (step : ∀ operation ∈ operations, ∀ {before after events}, Reachable before →
      operation.exec before = .ok (after, events) →
        (Holds after ↔ Holds before ∧ Meets before operation)) (reachable : Reachable inner)
    (ran : runOperations inner operations = .ok after) :
    Holds after ↔ Holds inner ∧ AlongRun Meets inner operations := by
  induction operations generalizing inner with
  | nil =>
    obtain rfl := Except.ok.inj ran
    simp [AlongRun]
  | cons operation rest ih =>
    rw [runOperations, Outcome.bind_eq_ok] at ran
    obtain ⟨⟨next, events⟩, succeeded, ran⟩ := ran
    obtain ⟨first, others⟩ := List.forall_mem_cons.mp step
    have later := ih others (reachable.tail ⟨operation, events, succeeded⟩) ran
    rw [later, first reachable succeeded, and_assoc, AlongRun]
    simp [succeeded]

/-- Whether the operations succeed on the empty store and the result passes a test. -/
def reaches (operations : List StoreOperation) (test : InMemoryInner → Bool) : Bool :=
  match runOperations .empty operations with
  | .ok inner => test inner
  | .error _ => false

variable {test : InMemoryInner → Bool}

theorem ran_of_reaches (reached : reaches operations test = true) :
    ∃ inner, runOperations .empty operations = .ok inner ∧ test inner = true := by
  unfold reaches at reached
  cases ran : runOperations .empty operations with
  | error _ => simp [ran] at reached
  | ok inner =>
    rw [ran] at reached
    exact ⟨inner, rfl, reached⟩

theorem Reachable.of_reaches (reached : reaches operations test = true) :
    ∃ inner, Reachable inner ∧ test inner = true := by
  obtain ⟨inner, ran, passed⟩ := ran_of_reaches reached
  exact ⟨inner, Run.of_operations ran, passed⟩

theorem ReachableByNewJobs.of_reaches
    (admitted : ∀ operation ∈ operations, operation.Admitted JobRecord.IsNew)
    (reached : reaches operations test = true) :
    ∃ inner, ReachableByNewJobs inner ∧ test inner = true := by
  obtain ⟨inner, ran, passed⟩ := ran_of_reaches reached
  exact ⟨inner, AdmittedStep.of_operations admitted ran, passed⟩

end Atelia.Store
