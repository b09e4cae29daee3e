import Atelia.Store.State

/-! Checks on repositories, locks, migrations, tool records and audit records. -/

namespace Atelia.Store

open Outcome

def validateRepositoryRecord (record : RepositoryRecord) : StoreResult Unit := do
  reject (Text.isBlank record.displayName) (.invalidRecord "repositories"
    "display_name must not be empty")
  reject (Text.isBlank record.rootPath) (.invalidRecord "repositories"
    "root_path must not be empty")
  reject (record.allowedPathScope.rootPath ≠ record.rootPath) (.invalidRecord "repositories"
    "allowed_path_scope.root_path must match repository root_path")
  reject (record.allowedPathScope.allowedPaths.isEmpty) (.invalidRecord "repositories"
    "allowed_path_scope must include at least one path")

/-- The first root-scoped blocked decision whose repository root strictly
overlaps the given root. -/
def rootScopedBlockedPolicyOverlappingRepository (inner : InMemoryInner) (rootPath : String) :
    StoreResult (Option (PolicyDecision × String)) :=
  search inner.policyDecisions.records
where
  search : List PolicyDecision → StoreResult (Option (PolicyDecision × String))
    | [] => .ok none
    | decision :: rest =>
      if isRootScopedRepositoryBlock decision then do
        let repository ← okOr inner.repositories[decision.repositoryId]?
          (.invalidReference "policy_decisions"
            s!"policy decision {debug decision.id} references missing repository {debug decision.repositoryId}")
        if repositoryRootsStrictlyOverlap rootPath repository.rootPath then
          return some (decision, repository.rootPath)
        else search rest
      else search rest

def validateJobRefs (inner : InMemoryInner) (record : JobRecord) : StoreResult Unit :=
  ensureRefExists (inner.repositories.contains record.repositoryId) "repositories"
    record.repositoryId "job.repository_id"

def validateLockDecisionTiming (record : LockDecision) : StoreResult Unit := do
  reject (record.expiresAt ≤ record.lockedAt) (.invalidRecord "lock_decisions"
    "expires_at must be later than locked_at")
  reject (record.createdAt ≠ record.lockedAt) (.invalidRecord "lock_decisions"
    "created_at must equal locked_at")
  reject (record.updatedAt < record.lockedAt) (.invalidRecord "lock_decisions"
    "updated_at must not be earlier than locked_at")
  reject (record.releasedAt.isSome ∧ record.reclaimedAt.isSome) (.invalidRecord "lock_decisions"
    "released_at and reclaimed_at are mutually exclusive")
  match record.status with
  | .held | .expired =>
    reject (record.releasedAt.isSome ∨ record.reclaimedAt.isSome) (.invalidRecord "lock_decisions"
      "active or expired locks must not have terminal timestamps")
  | .released =>
    let releasedAt ← okOr record.releasedAt (.invalidRecord "lock_decisions"
      "released locks require released_at")
    reject (releasedAt < record.lockedAt ∨ record.updatedAt < releasedAt)
      (.invalidRecord "lock_decisions" "released_at must be monotonic with lock timestamps")
  | .reclaimed =>
    let reclaimedAt ← okOr record.reclaimedAt (.invalidRecord "lock_decisions"
      "reclaimed locks require reclaimed_at")
    reject (reclaimedAt < record.expiresAt ∨ record.updatedAt < reclaimedAt)
      (.invalidRecord "lock_decisions" "reclaimed_at must be at or after expires_at and updated_at")

/-- The owner of a lock, when it is a job, exists in the lock's repository. -/
def validateLockOwner (inner : InMemoryInner) (record : LockDecision) : StoreResult Unit :=
  match record.owner with
  | .job jobId => do
    let job ← okOr inner.jobs[jobId]? (.notFound "jobs" s!"{debug jobId} (lock_decision.owner)")
    ensureSameRepository "lock_decisions" "lock_decision.owner" record.repositoryId job.repositoryId
  | .process _ | .system _ => .ok ()

/-- The policy decision of a lock exists in the lock's repository. -/
def validateLockPolicy (inner : InMemoryInner) (record : LockDecision) : StoreResult Unit := do
  let policyDecision ← okOr inner.policyDecisions[record.policyDecisionId]?
    (.notFound "policy_decisions" (debug record.policyDecisionId))
  ensureSameRepository "lock_decisions" "lock_decision.policy_decision_id" record.repositoryId
    policyDecision.repositoryId

/-- What a migration lock's metadata must satisfy. -/
def validateMigrationLock (record : SchemaMigrationRecord) (topLevelLeaderId : String)
    (lock : MigrationLockRecord) : StoreResult Unit := do
  reject (lock.timeoutMillis = 0) (.invalidRecord "schema_migrations"
    "schema migration lock timeout_millis must be greater than zero")
  reject (Text.isBlank lock.leaderId) (.invalidRecord "schema_migrations"
    "schema migration lock leader_id must not be blank")
  reject (topLevelLeaderId ≠ lock.leaderId) (.invalidRecord "schema_migrations"
    "migration_lock record leader_id must match migration_lock.leader_id")
  reject (record.createdAt ≠ lock.lockedAt) (.invalidRecord "schema_migrations"
    "lock held record created_at must equal locked_at")
  if lock.status = .held then
    reject (lock.releasedAt.isSome) (.invalidRecord "schema_migrations"
      "lock held records cannot have released_at")
  else
    let releasedAt ← okOr lock.releasedAt (.invalidRecord "schema_migrations"
      "lock released/expired records require released_at")
    reject (releasedAt < record.createdAt) (.invalidRecord "schema_migrations"
      "lock released_at must not be earlier than created_at")
    reject (record.updatedAt < releasedAt) (.invalidRecord "schema_migrations"
      "lock updated_at must not be earlier than released_at")

def validateSchemaMigrationRecord (record : SchemaMigrationRecord) : StoreResult Unit := do
  reject (Text.isBlank record.migrationName) (.invalidRecord "schema_migrations"
    "migration_name must not be empty")
  whenSome record.leaderId fun leaderId =>
    reject (Text.isBlank leaderId) (.invalidRecord "schema_migrations"
      "leader_id must not be blank")
  reject (record.updatedAt < record.createdAt) (.invalidRecord "schema_migrations"
    "updated_at must not be earlier than created_at")
  if record.migrationName = migrationLockRecordName then
    let topLevelLeaderId ← okOr record.leaderId (.invalidRecord "schema_migrations"
      "migration_lock records require leader_id")
    let lock ← okOr record.migrationLock (.invalidRecord "schema_migrations"
      "migration_lock record requires migration_lock metadata")
    validateMigrationLock record topLevelLeaderId lock
  else
    reject (record.migrationLock.isSome) (.invalidRecord "schema_migrations"
      "non-lock migration records cannot include migration_lock metadata")

def validateToolInvocationRefs (inner : InMemoryInner) (record : ToolInvocation) :
    StoreResult Unit := do
  let job ← okOr inner.jobs[record.jobId]?
    (.notFound "jobs" s!"{debug record.jobId} (tool_invocation.job_id)")
  ensureRefExists (inner.repositories.contains record.repositoryId) "repositories"
    record.repositoryId "tool_invocation.repository_id"
  ensureSameRepository "tool_invocations" "tool_invocation.job_id" record.repositoryId
    job.repositoryId
  let policyDecision ← okOr inner.policyDecisions[record.policyDecisionId]?
    (.notFound "policy_decisions"
      s!"{debug record.policyDecisionId} (tool_invocation.policy_decision_id)")
  ensureSameRepository "tool_invocations" "tool_invocation.policy_decision_id" record.repositoryId
    policyDecision.repositoryId

/-- A result names a stored invocation of the same tool. -/
def validateLoadedToolResultRecord (inner : InMemoryInner) (record : ToolResult) :
    StoreResult Unit := do
  let invocation ← okOr inner.toolInvocations[record.invocationId]?
    (.notFound "tool_invocations" s!"{debug record.invocationId} (tool_result.invocation_id)")
  reject (invocation.toolId ≠ record.toolId) (.invalidReference "tool_results"
    s!"tool_result.tool_id {record.toolId} does not match invocation tool_id {invocation.toolId}")

/-- A new result must also be the first one of its invocation. -/
def validateToolResultRefs (inner : InMemoryInner) (record : ToolResult) : StoreResult Unit := do
  validateLoadedToolResultRecord inner record
  reject (inner.toolResults.records.any fun existing => existing.invocationId = record.invocationId)
    (.conflict "tool_results"
      s!"tool_result already exists for invocation {debug record.invocationId}")

def validateAuditRecordRefsWithPendingToolResult (inner : InMemoryInner) (record : AuditRecord)
    (pendingToolResult : Option ToolResult) : StoreResult Unit := do
  ensureRefExists (inner.repositories.contains record.repositoryId) "repositories"
    record.repositoryId "audit_record.repository_id"
  let policyDecision ← okOr inner.policyDecisions[record.policyDecisionId]?
    (.notFound "policy_decisions"
      s!"{debug record.policyDecisionId} (audit_record.policy_decision_id)")
  ensureSameRepository "audit_records" "audit_record.policy_decision_id" record.repositoryId
    policyDecision.repositoryId
  whenSome record.toolInvocationId fun toolInvocationId => do
    let toolInvocation ← okOr inner.toolInvocations[toolInvocationId]?
      (.notFound "tool_invocations" s!"{debug toolInvocationId} (audit_record.tool_invocation_id)")
    ensureSameRepository "audit_records" "audit_record.tool_invocation_id" record.repositoryId
      toolInvocation.repositoryId
    reject (toolInvocation.policyDecisionId ≠ record.policyDecisionId)
      (.invalidReference "audit_records"
        s!"audit_record.tool_invocation_id {debug toolInvocationId} belongs to policy_decision_id {debug toolInvocation.policyDecisionId}, not {debug record.policyDecisionId}")
    whenSome pendingToolResult fun toolResult =>
      reject (toolResult.invocationId ≠ toolInvocationId) (.invalidReference "audit_records"
        s!"pending tool_result {debug toolResult.id} belongs to invocation_id {debug toolResult.invocationId}, not {debug toolInvocationId}")

def validateAuditRecordRefs (inner : InMemoryInner) (record : AuditRecord) : StoreResult Unit :=
  validateAuditRecordRefsWithPendingToolResult inner record none

end Atelia.Store
