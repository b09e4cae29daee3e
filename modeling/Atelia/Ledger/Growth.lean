import Atelia.Store.Runs

/-! The ledger only grows: records stay, and a job keeps its identity. -/

namespace Atelia.Store

open Outcome

/-- A job keeps its identifier and its repository. -/
def SameJob (before after : JobRecord) : Prop :=
  after.id = before.id ∧ after.repositoryId = before.repositoryId

theorem SameJob.refl (job : JobRecord) : SameJob job job := ⟨rfl, rfl⟩

theorem SameJob.trans {first second third : JobRecord} (early : SameJob first second)
    (late : SameJob second third) : SameJob first third :=
  ⟨late.1.trans early.1, late.2.trans early.2⟩

/-- Every record is stored under its own identifier. -/
structure Keyed (inner : InMemoryInner) : Prop where
  repositories : inner.repositories.KeyedBy RepositoryRecord.id
  jobs : inner.jobs.KeyedBy JobRecord.id
  jobEvents : inner.jobEventsById.KeyedBy JobEvent.id
  policyDecisions : inner.policyDecisions.KeyedBy PolicyDecision.id
  lockDecisions : inner.lockDecisions.KeyedBy LockDecision.id
  schemaMigrations : inner.schemaMigrations.KeyedBy SchemaMigrationRecord.id
  toolInvocations : inner.toolInvocations.KeyedBy ToolInvocation.id
  toolResults : inner.toolResults.KeyedBy ToolResult.id
  auditRecords : inner.auditRecords.KeyedBy AuditRecord.id

/-- The later ledger retains every record of the earlier one. -/
structure Extends (before after : InMemoryInner) : Prop where
  repositories : before.repositories.Retains Eq after.repositories
  jobs : before.jobs.Retains SameJob after.jobs
  jobEvents : before.jobEventsById.Retains Eq after.jobEventsById
  policyDecisions : before.policyDecisions.Retains Eq after.policyDecisions
  lockDecisions : before.lockDecisions.Retains Eq after.lockDecisions
  toolInvocations : before.toolInvocations.Retains Eq after.toolInvocations
  toolResults : before.toolResults.Retains Eq after.toolResults
  auditRecords : before.auditRecords.Retains Eq after.auditRecords
  idempotentSubmitJobs : before.idempotentSubmitJobs.Retains Eq after.idempotentSubmitJobs

theorem Extends.refl (inner : InMemoryInner) : Extends inner inner where
  repositories := .refl (fun _ => rfl) _
  jobs := .refl SameJob.refl _
  jobEvents := .refl (fun _ => rfl) _
  policyDecisions := .refl (fun _ => rfl) _
  lockDecisions := .refl (fun _ => rfl) _
  toolInvocations := .refl (fun _ => rfl) _
  toolResults := .refl (fun _ => rfl) _
  auditRecords := .refl (fun _ => rfl) _
  idempotentSubmitJobs := .refl (fun _ => rfl) _

theorem Extends.trans {first second third : InMemoryInner} (early : Extends first second)
    (late : Extends second third) : Extends first third where
  repositories := early.repositories.trans (fun _ _ _ => Eq.trans) late.repositories
  jobs := early.jobs.trans (fun _ _ _ => SameJob.trans) late.jobs
  jobEvents := early.jobEvents.trans (fun _ _ _ => Eq.trans) late.jobEvents
  policyDecisions := early.policyDecisions.trans (fun _ _ _ => Eq.trans) late.policyDecisions
  lockDecisions := early.lockDecisions.trans (fun _ _ _ => Eq.trans) late.lockDecisions
  toolInvocations := early.toolInvocations.trans (fun _ _ _ => Eq.trans) late.toolInvocations
  toolResults := early.toolResults.trans (fun _ _ _ => Eq.trans) late.toolResults
  auditRecords := early.auditRecords.trans (fun _ _ _ => Eq.trans) late.auditRecords
  idempotentSubmitJobs :=
    early.idempotentSubmitJobs.trans (fun _ _ _ => Eq.trans) late.idempotentSubmitJobs

/-- The records that were pending are stored. -/
structure PendingRecords.StoredIn (pending : PendingRecords) (inner : InMemoryInner) : Prop where
  job : ∀ record, pending.job = some record →
    ∃ next, inner.jobs[record.id]? = some next ∧ SameJob record next
  toolResult : ∀ record, pending.toolResult = some record →
    ∃ next, inner.toolResults[record.id]? = some next ∧ record = next
  auditRecord : ∀ record, pending.auditRecord = some record →
    ∃ next, inner.auditRecords[record.id]? = some next ∧ record = next

theorem PendingRecords.storedIn_none (inner : InMemoryInner) :
    PendingRecords.StoredIn {} inner where
  job := by simp
  toolResult := by simp
  auditRecord := by simp

section Persistence

variable {before after : InMemoryInner}

section Growth

variable (grown : Extends before after)
include grown

theorem Extends.contains_repository {id : RepositoryId}
    (present : before.repositories.contains id = true) :
    after.repositories.contains id = true := by
  obtain ⟨record, found⟩ := (Table.contains_iff _ _).mp present
  exact (Table.contains_iff _ _).mpr ⟨record, grown.repositories.lookup found⟩

theorem validateToolInvocationRefs_persists {record : ToolInvocation}
    (checked : validateToolInvocationRefs before record = .ok ()) :
    validateToolInvocationRefs after record = .ok () := by
  simp only [validateToolInvocationRefs, bind_eq_ok, exists_unit, okOr_eq_ok,
    ensureRefExists_eq_ok, ensureSameRepository_eq_ok] at checked ⊢
  obtain ⟨job, foundJob, repository, sameJob, decision, foundDecision, sameDecision⟩ := checked
  obtain ⟨job', foundJob', same⟩ := grown.jobs _ _ foundJob
  exact ⟨job', foundJob', grown.contains_repository repository, same.2.trans sameJob, decision,
    grown.policyDecisions.lookup foundDecision, sameDecision⟩

theorem validateLoadedToolResultRecord_persists {record : ToolResult}
    (checked : validateLoadedToolResultRecord before record = .ok ()) :
    validateLoadedToolResultRecord after record = .ok () := by
  simp only [validateLoadedToolResultRecord, bind_eq_ok, okOr_eq_ok, reject_eq_ok] at checked ⊢
  obtain ⟨invocation, found, sameTool⟩ := checked
  exact ⟨invocation, grown.toolInvocations.lookup found, sameTool⟩

/-- The pending result only adds a condition, so the check without it persists. -/
theorem validateAuditRecordRefs_persists {record : AuditRecord}
    {pendingToolResult : Option ToolResult}
    (checked : validateAuditRecordRefsWithPendingToolResult before record pendingToolResult = .ok ()) :
    validateAuditRecordRefs after record = .ok () := by
  simp only [validateAuditRecordRefs, validateAuditRecordRefsWithPendingToolResult, bind_eq_ok,
    exists_unit, okOr_eq_ok, ensureRefExists_eq_ok, ensureSameRepository_eq_ok, whenSome_eq_ok,
    reject_eq_ok] at checked ⊢
  obtain ⟨repository, decision, foundDecision, sameDecision, linked⟩ := checked
  refine ⟨grown.contains_repository repository, decision,
    grown.policyDecisions.lookup foundDecision, sameDecision, ?_⟩
  intro invocationId named
  obtain ⟨invocation, found, sameRepository, samePolicy, _⟩ := linked invocationId named
  exact ⟨invocation, grown.toolInvocations.lookup found, sameRepository, samePolicy, by simp⟩

theorem validateLockPolicy_persists {record : LockDecision}
    (checked : validateLockPolicy before record = .ok ()) :
    validateLockPolicy after record = .ok () := by
  simp only [validateLockPolicy, bind_eq_ok, okOr_eq_ok, ensureSameRepository_eq_ok] at checked ⊢
  obtain ⟨decision, found, same⟩ := checked
  exact ⟨decision, grown.policyDecisions.lookup found, same⟩

theorem validateLockOwner_persists {record : LockDecision}
    (checked : validateLockOwner before record = .ok ()) :
    validateLockOwner after record = .ok () := by
  unfold validateLockOwner at checked ⊢
  cases owner : record.owner with
  | job jobId =>
    simp only [owner, bind_eq_ok, okOr_eq_ok, ensureSameRepository_eq_ok] at checked ⊢
    obtain ⟨job, found, same⟩ := checked
    obtain ⟨job', found', sameJob⟩ := grown.jobs _ _ found
    exact ⟨job', found', sameJob.2.trans same⟩
  | process _ => rfl
  | system _ => rfl

end Growth

end Persistence

end Atelia.Store
