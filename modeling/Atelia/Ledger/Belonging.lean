import Atelia.Ledger.Commits

/-! Which job an event belongs to. -/

namespace Atelia.Store

open Outcome

variable {inner before after : InMemoryInner} {event : JobEvent} {job jobId : JobId}

private theorem invocationRefBelongs_persists (grown : Extends before after) :
    Within (invocationRefBelongs before jobId event) (invocationRefBelongs after jobId event) := by
  unfold invocationRefBelongs
  split
  · exact .refl _
  · exact .bind (within_okOr fun _ => grown.toolInvocations.lookup) fun _ => .refl _

private theorem toolResultRefBelongs_persists (grown : Extends before after) :
    Within (toolResultRefBelongs before jobId event) (toolResultRefBelongs after jobId event) := by
  unfold toolResultRefBelongs
  split
  · exact .refl _
  · exact .bind (within_okOr fun _ => grown.toolResults.lookup) fun _ =>
      .bind (within_okOr fun _ => grown.toolInvocations.lookup) fun _ => .refl _

private theorem auditRecordRefBelongs_persists (grown : Extends before after) :
    Within (auditRecordRefBelongs before jobId event) (auditRecordRefBelongs after jobId event) := by
  unfold auditRecordRefBelongs
  split
  · exact .refl _
  · refine .bind (within_okOr fun _ => grown.auditRecords.lookup) fun record => ?_
    split
    · exact .refl _
    · exact .bind (within_okOr fun _ => grown.toolInvocations.lookup) fun _ => .refl _

/-- Whether an event belongs to a job never changes. -/
theorem belongs_persists (grown : Extends before after) {answer : Bool}
    (answered : submitJobReceiptEventBelongsToJob before jobId event = .ok answer) :
    submitJobReceiptEventBelongsToJob after jobId event = .ok answer := by
  refine anyTrue_mono ?_ answered
  exact .cons (.refl _) (.cons (.refl _)
    (.cons (invocationRefBelongs_persists grown) (.cons (toolResultRefBelongs_persists grown)
      (.cons (auditRecordRefBelongs_persists grown) .nil))))

/-- Whether an accepted event belongs to a job is decided. -/
theorem belongs_total (stored : ToolRefsStored inner event)
    (audits : inner.auditRecords.Every fun record => validateAuditRecordRefs inner record = .ok ())
    (jobId : JobId) :
    ∃ answer, submitJobReceiptEventBelongsToJob inner jobId event = .ok answer := by
  have invocation : ∃ answer, invocationRefBelongs inner jobId event = .ok answer := by
    unfold invocationRefBelongs
    cases named : event.refs.toolInvocationId with
    | none => exact ⟨false, rfl⟩
    | some id =>
      obtain ⟨invocation, found⟩ := stored.invocation id named
      exact ⟨_, bind_eq_ok.mpr ⟨invocation, okOr_eq_ok.mpr found, rfl⟩⟩
  have result : ∃ answer, toolResultRefBelongs inner jobId event = .ok answer := by
    unfold toolResultRefBelongs
    cases named : event.refs.toolResultId with
    | none => exact ⟨false, rfl⟩
    | some id =>
      obtain ⟨result, invocation, found, foundInvocation⟩ := stored.result id named
      exact ⟨_, bind_eq_ok.mpr ⟨result, okOr_eq_ok.mpr found,
        bind_eq_ok.mpr ⟨invocation, okOr_eq_ok.mpr foundInvocation, rfl⟩⟩⟩
  have audit : ∃ answer, auditRecordRefBelongs inner jobId event = .ok answer := by
    unfold auditRecordRefBelongs
    cases named : event.refs.auditRecordId with
    | none => exact ⟨false, rfl⟩
    | some id =>
      obtain ⟨record, found⟩ := stored.audit id named
      have checked := audits id record found
      cases owner : record.toolInvocationId with
      | none =>
        refine ⟨false, bind_eq_ok.mpr ⟨record, okOr_eq_ok.mpr found, ?_⟩⟩
        rw [owner]
        rfl
      | some invocationId =>
        simp only [validateAuditRecordRefs, validateAuditRecordRefsWithPendingToolResult,
          bind_eq_ok, exists_unit, whenSome_eq_ok, okOr_eq_ok] at checked
        obtain ⟨_, _, _, _, linked⟩ := checked
        obtain ⟨invocation, foundInvocation, _⟩ := linked invocationId owner
        refine ⟨decide (invocation.jobId = jobId),
          bind_eq_ok.mpr ⟨record, okOr_eq_ok.mpr found, ?_⟩⟩
        rw [owner]
        exact bind_eq_ok.mpr ⟨invocation, okOr_eq_ok.mpr foundInvocation, rfl⟩
  apply anyTrue_total
  intro question member
  simp only [List.mem_cons, List.not_mem_nil, or_false] at member
  rcases member with rfl | rfl | rfl | rfl | rfl
  · exact ⟨_, rfl⟩
  · exact ⟨_, rfl⟩
  · exact invocation
  · exact result
  · exact audit

/-- An event that names a job belongs to it. -/
theorem belongs_of_jobRef (named : event.refs.jobId = some jobId) :
    submitJobReceiptEventBelongsToJob inner jobId event = .ok true := by
  simp only [submitJobReceiptEventBelongsToJob, anyTrue, named, decide_true]
  rfl

section Jobs

/-- A job that a reference of an event determines. -/
inductive RefJob (inner : InMemoryInner) (event : JobEvent) : JobId → Prop where
  | job {id : JobId} (named : event.refs.jobId = some id) : RefJob inner event id
  | toolInvocation {id : ToolInvocationId} {job : JobId}
      (named : event.refs.toolInvocationId = some id) (owner : InvocationJob inner id job) :
      RefJob inner event job
  | toolResult {id : ToolResultId} {job : JobId} (named : event.refs.toolResultId = some id)
      (owner : ResultJob inner id job) : RefJob inner event job
  | auditRecord {id : AuditRecordId} {job : JobId} (named : event.refs.auditRecordId = some id)
      (owner : AuditJob inner id job) : RefJob inner event job

end Jobs

section Identity

/-- The references of an acceptable event agree on a job, also with a job that is
its subject. -/
theorem refs_agree (keyed : Keyed inner) (links : validateEventLinks inner event {} = .ok ()) :
    ∃ owner : Option String, (∀ job, RefJob inner event job → owner = some job.text) ∧
      (event.subject.subjectType = .job → owner = some event.subject.subjectId) := by
  simp only [validateEventLinks, validateEventRefs, bind_eq_ok, exists_unit, pure_eq_ok,
    and_true] at links
  obtain ⟨repositoryId, _, _, first, job, second, policy, third, lock, fourth, invocation, fifth, result,
    last, audit⟩ := links
  have foundJob := checkJobRef_checked job
  have foundInvocation := checkToolInvocationRef_checked invocation
  have foundResult := checkToolResultRef_checked result
  have foundAudit := checkAuditRecordRef_checked audit
  have keeps (text : String) (found : first.jobId = some text) : last.jobId = some text :=
    foundAudit.keeps text (foundResult.keeps text (foundInvocation.keeps text
      ((checkLockDecisionRef_checked lock).keeps text
        ((checkPolicyDecisionRef_checked policy).keeps text found))))
  refine ⟨last.jobId, ?_, ?_⟩
  · intro owner determined
    cases determined with
    | job named =>
      obtain ⟨record, stored, -⟩ := foundJob.belongs owner named
      exact keeps _ (foundJob.finds owner ⟨owner, record, named, stored, keyed.jobs _ _ stored⟩)
    | toolInvocation named by_ =>
      exact foundAudit.keeps _ (foundResult.keeps _ (foundInvocation.finds owner ⟨_, named, by_⟩))
    | toolResult named by_ => exact foundAudit.keeps _ (foundResult.finds owner ⟨_, named, by_⟩)
    | auditRecord named by_ => exact foundAudit.finds owner ⟨_, named, by_⟩
  · intro kind
    apply keeps
    apply foundJob.keeps
    simp only [initialEventIdentity, kind]

theorem RefJob.unique (keyed : Keyed inner) (links : validateEventLinks inner event {} = .ok ())
    {first second : JobId} (one : RefJob inner event first) (two : RefJob inner event second) :
    first = second := by
  obtain ⟨owner, agree, _⟩ := refs_agree keyed links
  exact Identifier.text_injective (Option.some.inj ((agree first one).symm.trans (agree second two)))

theorem refJob_of_invocation (belongs : invocationRefBelongs inner jobId event = .ok true) :
    RefJob inner event jobId := by
  unfold invocationRefBelongs at belongs
  cases named : event.refs.toolInvocationId with
  | none => simp [named] at belongs
  | some id =>
    simp only [named, bind_eq_ok, okOr_eq_ok, pure_eq_ok] at belongs
    obtain ⟨invocation, found, same⟩ := belongs
    exact .toolInvocation named ⟨invocation, found, of_decide_eq_true same⟩

theorem refJob_of_result (belongs : toolResultRefBelongs inner jobId event = .ok true) :
    RefJob inner event jobId := by
  unfold toolResultRefBelongs at belongs
  cases named : event.refs.toolResultId with
  | none => simp [named] at belongs
  | some id =>
    simp only [named, bind_eq_ok, okOr_eq_ok, pure_eq_ok] at belongs
    obtain ⟨result, found, invocation, owner, same⟩ := belongs
    exact .toolResult named ⟨result, found, invocation, owner, of_decide_eq_true same⟩

theorem refJob_of_audit (belongs : auditRecordRefBelongs inner jobId event = .ok true) :
    RefJob inner event jobId := by
  unfold auditRecordRefBelongs at belongs
  cases named : event.refs.auditRecordId with
  | none => simp [named] at belongs
  | some id =>
    simp only [named, bind_eq_ok, okOr_eq_ok] at belongs
    obtain ⟨record, found, about⟩ := belongs
    cases owner : record.toolInvocationId with
    | none => simp [owner, pure_eq_ok] at about
    | some invocationId =>
      simp only [owner, bind_eq_ok, okOr_eq_ok, pure_eq_ok] at about
      obtain ⟨invocation, stored, same⟩ := about
      exact .auditRecord named
        ⟨record, invocationId, found, owner, invocation, stored, of_decide_eq_true same⟩

/-- What an event belongs to is a job of a reference, or the subject. -/
theorem refJob_of_belongs
    (belongs : submitJobReceiptEventBelongsToJob inner jobId event = .ok true) :
    RefJob inner event jobId ∨
      event.subject.subjectType = .job ∧ event.subject.subjectId = jobId.text := by
  rcases exists_of_anyTrue belongs with ⟨question, member, holds⟩
  simp only [List.mem_cons, List.not_mem_nil, or_false] at member
  rcases member with rfl | rfl | rfl | rfl | rfl
  · rw [Except.ok.injEq, decide_eq_true_eq] at holds
    exact .inl (.job holds)
  · rw [Except.ok.injEq, decide_eq_true_eq] at holds
    exact .inr holds
  · exact .inl (refJob_of_invocation holds)
  · exact .inl (refJob_of_result holds)
  · exact .inl (refJob_of_audit holds)

/-- An accepted event that names a job belongs to no other job. -/
theorem job_of_belongs (keyed : Keyed inner) {named : JobId}
    (links : validateEventLinks inner event {} = .ok ())
    (reference : event.refs.jobId = some named)
    (belongs : submitJobReceiptEventBelongsToJob inner jobId event = .ok true) :
    jobId = named := by
  obtain ⟨owner, agree, itself⟩ := refs_agree keyed links
  have known := agree named (.job reference)
  apply Identifier.text_injective
  rcases refJob_of_belongs belongs with ref | ⟨kind, subject⟩
  · exact Option.some.inj ((agree jobId ref).symm.trans known)
  · rw [← subject]
    exact Option.some.inj ((itself kind).symm.trans known)

end Identity

end Atelia.Store
