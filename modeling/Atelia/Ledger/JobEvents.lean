import Atelia.Ledger.Belonging
import Atelia.Ledger.Publish

/-! The events of a job. -/

namespace Atelia.Store

open Outcome

variable {inner before after : InMemoryInner} {event : JobEvent} {job : JobId}

/-- The event refers to the job: by name, as its subject, or through a tool record. -/
def Concerns (inner : InMemoryInner) (job : JobId) (event : JobEvent) : Prop :=
  submitJobReceiptEventBelongsToJob inner job event = .ok true

instance : Decidable (Concerns inner job event) :=
  inferInstanceAs (Decidable (submitJobReceiptEventBelongsToJob inner job event = .ok true))

theorem Concerns.of_named (named : event.refs.jobId = some job) : Concerns inner job event :=
  belongs_of_jobRef named

theorem Concerns.named {other : JobId} (keyed : Keyed inner)
    (links : validateEventLinks inner event {} = .ok ()) (named : event.refs.jobId = some other)
    (concerns : Concerns inner job event) : job = other :=
  job_of_belongs keyed links named concerns

/-- An event concerned the jobs it concerns already when it was stored. -/
theorem Concerns.earlier (sound : Sound before) (grown : Extends before after)
    (stored : before.jobEventsById[event.id]? = some event)
    (concerns : Concerns after job event) : Concerns before job event := by
  have links := (sound.events _ _ stored).links
  obtain ⟨answer, decided⟩ := belongs_total (.of_links links) sound.tools.audits job
  have same := (belongs_persists grown decided).symm.trans concerns
  rw [Except.ok.injEq] at same
  rw [same] at decided
  exact decided

theorem Sound.invocation_job (sound : Sound inner) {id : ToolInvocationId}
    {invocation : ToolInvocation} (found : inner.toolInvocations[id]? = some invocation) :
    inner.jobs.contains invocation.jobId = true := by
  have checked := sound.tools.invocations id invocation found
  simp only [validateToolInvocationRefs, bind_eq_ok, okOr_eq_ok] at checked
  obtain ⟨record, stored, _⟩ := checked
  exact (Table.contains_iff _ _).mpr ⟨record, stored⟩

private theorem subject_job (keyed : Keyed inner)
    (links : validateEventLinks inner event {} = .ok ())
    (subject : event.subject.subjectType = .job ∧ event.subject.subjectId = job.text) :
    inner.jobs.contains job = true := by
  obtain ⟨repository, found, _⟩ := eventRepositoryId_of_links links
  simp only [subjectRepositoryId, subject.1, bind_eq_ok, okOr_eq_ok, Option.filter_none,
    Option.or_none] at found
  obtain ⟨record, scan, _⟩ := found
  have named : record.id.text = event.subject.subjectId := by
    simpa using List.find?_some scan
  have same : record.id = job := Identifier.text_injective (named.trans subject.2)
  exact (Table.contains_iff _ _).mpr
    ⟨record, same ▸ keyed.jobs.mem_records.mp (List.mem_of_find?_eq_some scan)⟩

/-- A stored event concerns only stored jobs. -/
theorem Concerns.job_stored (keyed : Keyed inner) (sound : Sound inner)
    (stored : inner.jobEventsById[event.id]? = some event) (concerns : Concerns inner job event) :
    inner.jobs.contains job = true := by
  have links := (sound.events _ _ stored).links
  obtain ⟨question, member, holds⟩ := exists_of_anyTrue concerns
  simp only [List.mem_cons, List.not_mem_nil, or_false] at member
  rcases member with rfl | rfl | rfl | rfl | rfl
  · rw [Except.ok.injEq, decide_eq_true_eq] at holds
    have checked := links
    simp only [validateEventLinks, validateEventRefs, checkJobRef, holds, bind_eq_ok, exists_unit,
      okOr_eq_ok, Option.filter_none, Option.or_none] at checked
    obtain ⟨_, _, _, _, ⟨_, record, found, _⟩, _⟩ := checked
    exact (Table.contains_iff _ _).mpr ⟨record, found⟩
  · rw [Except.ok.injEq, decide_eq_true_eq] at holds
    exact subject_job keyed links holds
  · unfold invocationRefBelongs at holds
    split at holds
    · cases holds
    · simp only [bind_eq_ok, okOr_eq_ok, pure_eq_ok, decide_eq_true_eq] at holds
      obtain ⟨invocation, found, rfl⟩ := holds
      exact sound.invocation_job found
  · unfold toolResultRefBelongs at holds
    split at holds
    · cases holds
    · simp only [bind_eq_ok, okOr_eq_ok, pure_eq_ok, decide_eq_true_eq] at holds
      obtain ⟨_, _, invocation, found, rfl⟩ := holds
      exact sound.invocation_job found
  · unfold auditRecordRefBelongs at holds
    split at holds
    · cases holds
    · simp only [bind_eq_ok, okOr_eq_ok] at holds
      obtain ⟨_, _, holds⟩ := holds
      split at holds
      · cases holds
      · simp only [bind_eq_ok, okOr_eq_ok, pure_eq_ok, decide_eq_true_eq] at holds
        obtain ⟨invocation, found, rfl⟩ := holds
        exact sound.invocation_job found

/-- No tool result and no audit record refers to the job. -/
structure NoToolRecords (inner : InMemoryInner) (job : JobId) : Prop where
  results : ∀ (id : ToolResultId) (result : ToolResult) (invocation : ToolInvocation),
    inner.toolResults[id]? = some result →
      inner.toolInvocations[result.invocationId]? = some invocation → invocation.jobId ≠ job
  audits : ∀ (id : AuditRecordId) (record : AuditRecord) (invocationId : ToolInvocationId)
    (invocation : ToolInvocation), inner.auditRecords[id]? = some record →
      record.toolInvocationId = some invocationId →
        inner.toolInvocations[invocationId]? = some invocation → invocation.jobId ≠ job

/-- The invocation of a stored tool result is stored. -/
theorem Sound.result_invocation (sound : Sound inner) {id : ToolResultId} {result : ToolResult}
    (found : inner.toolResults[id]? = some result) :
    ∃ invocation, inner.toolInvocations[result.invocationId]? = some invocation := by
  have checked := sound.tools.results id result found
  simp only [validateLoadedToolResultRecord, bind_eq_ok, okOr_eq_ok] at checked
  obtain ⟨invocation, stored, _⟩ := checked
  exact ⟨invocation, stored⟩

/-- The invocation that a stored audit record names is stored. -/
theorem Sound.audit_invocation (sound : Sound inner) {id : AuditRecordId} {record : AuditRecord}
    {invocationId : ToolInvocationId} (found : inner.auditRecords[id]? = some record)
    (named : record.toolInvocationId = some invocationId) :
    ∃ invocation, inner.toolInvocations[invocationId]? = some invocation := by
  have checked := sound.tools.audits id record found
  simp only [validateAuditRecordRefs, validateAuditRecordRefsWithPendingToolResult, bind_eq_ok,
    exists_unit, whenSome_eq_ok, okOr_eq_ok] at checked
  obtain ⟨_, _, _, _, linked⟩ := checked
  obtain ⟨invocation, stored, _⟩ := linked invocationId named
  exact ⟨invocation, stored⟩

end Atelia.Store
