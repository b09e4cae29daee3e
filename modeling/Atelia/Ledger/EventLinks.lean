import Atelia.Ledger.Growth

/-! An accepted event stays acceptable: its subject and references are found again in every
later ledger, with the same repository, job and policy. -/

namespace Atelia.Store

open Outcome

variable {before after : InMemoryInner} {event : JobEvent} {pending : PendingRecords}
  {kind : IdKind} {Record : Type} {id : Record → Identifier kind} {text : String}

private theorem text_unique (first second : Record) (one : decide ((id first).text = text) = true)
    (two : decide ((id second).text = text) = true) : id first = id second :=
  Identifier.text_injective ((of_decide_eq_true one).trans (of_decide_eq_true two).symm)

private theorem text_byKey (first second : Record) (same : id first = id second) :
    decide ((id first).text = text) = decide ((id second).text = text) := by
  rw [same]

private theorem find_persists {early late : Table (Identifier kind) Record}
    (grown : early.Retains Eq late) (keyed : late.KeyedBy id) (record : Record)
    (found : early.records.find? (fun record => decide ((id record).text = text)) = some record) :
    late.records.find? (fun record => decide ((id record).text = text)) = some record := by
  obtain ⟨_, foundNext, rfl⟩ := grown.find keyed (fun _ _ same => same ▸ rfl) text_byKey
    text_unique found
  exact foundNext

section Growth

variable (grown : Extends before after)
include grown

theorem subjectRepositoryId_persists (keyed : Keyed after) (stored : pending.StoredIn after) :
    Within (subjectRepositoryId before event pending) (subjectRepositoryId after event {}) := by
  unfold subjectRepositoryId
  cases event.subject.subjectType with
  | repository =>
    refine within_okOr fun id found => ?_
    obtain ⟨⟨name, record⟩, member, rfl⟩ := List.mem_map.mp (List.mem_of_find?_eq_some found)
    have present := grown.repositories.lookup
      (Std.ExtTreeMap.mem_toList_iff_getElem?_eq_some.mp member)
    have listed : name ∈ after.repositories.toList.map Prod.fst := List.mem_map.mpr
      ⟨(name, record), Std.ExtTreeMap.mem_toList_iff_getElem?_eq_some.mpr present, rfl⟩
    have named : name.text = event.subject.subjectId := by simpa using List.find?_some found
    cases scan : List.find? (fun id : RepositoryId => decide (id.text = event.subject.subjectId))
        (after.repositories.toList.map Prod.fst) with
    | none => exact absurd (decide_eq_true named) (List.find?_eq_none.mp scan name listed)
    | some other =>
      have sameText : other.text = event.subject.subjectId := by simpa using List.find?_some scan
      exact congrArg some (Identifier.text_injective (sameText.trans named.symm))
  | job =>
    intro repository checked
    simp only [bind_eq_ok, okOr_eq_ok, pure_eq_ok] at checked ⊢
    obtain ⟨job, found, rfl⟩ := checked
    obtain ⟨next, foundNext, same⟩ := grown.jobs.find_or keyed.jobs (fun _ _ same => same.1)
      text_byKey text_unique stored.job found
    exact ⟨next, by simpa using foundNext, same.2⟩
  | policyDecision =>
    exact .bind (within_okOr (find_persists grown.policyDecisions keyed.policyDecisions))
      fun _ => .refl _
  | lockDecision =>
    exact .bind (within_okOr (find_persists grown.lockDecisions keyed.lockDecisions))
      fun _ => .refl _
  | toolInvocation =>
    exact .bind (within_okOr (find_persists grown.toolInvocations keyed.toolInvocations))
      fun _ => .refl _
  | toolResult =>
    refine .bind (within_okOr fun result found => ?_) fun result =>
      .bind (within_okOr fun _ => grown.toolInvocations.lookup) fun _ => .refl _
    obtain ⟨_, foundNext, rfl⟩ := grown.toolResults.find_or keyed.toolResults
      (fun _ _ same => same ▸ rfl) text_byKey text_unique stored.toolResult found
    simpa using foundNext
  | auditRecord =>
    refine .bind (within_okOr fun record found => ?_) fun _ => .refl _
    obtain ⟨_, foundNext, rfl⟩ := grown.auditRecords.find_or keyed.auditRecords
      (fun _ _ same => same ▸ rfl) text_byKey text_unique stored.auditRecord found
    simpa using foundNext

theorem checkRepositoryRef_persists :
    Within (checkRepositoryRef before event) (checkRepositoryRef after event) := by
  refine within_whenSome fun repository => .bind (.refl _) fun _ result present => ?_
  exact ensureRefExists_eq_ok.mpr (grown.contains_repository (ensureRefExists_eq_ok.mp present))

theorem checkJobRef_persists (stored : pending.StoredIn after) (identity : EventIdentity) :
    Within (checkJobRef before event pending identity) (checkJobRef after event {} identity) := by
  unfold checkJobRef
  split
  · exact .refl _
  · refine .bind (.refl _) fun _ next checked => ?_
    simp only [bind_eq_ok, exists_unit, okOr_eq_ok] at checked ⊢
    obtain ⟨job, found, repository, consistent⟩ := checked
    obtain ⟨job', found', same⟩ := grown.jobs.lookup_or stored.job found
    refine ⟨job', by simpa using found', ?_, ?_⟩
    · rw [same.2]
      exact repository
    · rw [same.1]
      exact consistent

theorem checkPolicyDecisionRef_persists (identity : EventIdentity) :
    Within (checkPolicyDecisionRef before event identity)
      (checkPolicyDecisionRef after event identity) := by
  unfold checkPolicyDecisionRef
  split
  · exact .refl _
  · exact .bind (.refl _) fun _ =>
      .bind (within_okOr fun _ => grown.policyDecisions.lookup) fun _ => .refl _

theorem checkLockDecisionRef_persists (identity : EventIdentity) :
    Within (checkLockDecisionRef before event identity)
      (checkLockDecisionRef after event identity) := by
  unfold checkLockDecisionRef
  split
  · exact .refl _
  · exact .bind (.refl _) fun _ =>
      .bind (within_okOr fun _ => grown.lockDecisions.lookup) fun _ => .refl _

theorem checkToolInvocationRef_persists (identity : EventIdentity) :
    Within (checkToolInvocationRef before event identity)
      (checkToolInvocationRef after event identity) := by
  unfold checkToolInvocationRef
  split
  · exact .refl _
  · exact .bind (.refl _) fun _ =>
      .bind (within_okOr fun _ => grown.toolInvocations.lookup) fun _ => .refl _

theorem findToolResult_persists (stored : pending.StoredIn after) (id : ToolResultId) :
    Within (findToolResult before pending id) (findToolResult after {} id) := by
  refine within_okOr fun result found => ?_
  obtain ⟨_, present, rfl⟩ := grown.toolResults.lookup_or stored.toolResult found
  simpa using present

theorem checkToolResultRef_persists (stored : pending.StoredIn after) (identity : EventIdentity) :
    Within (checkToolResultRef before event pending identity)
      (checkToolResultRef after event {} identity) := by
  unfold checkToolResultRef
  split
  · exact .refl _
  · exact .bind (.refl _) fun _ => .bind (findToolResult_persists grown stored _) fun _ =>
      .bind (within_okOr fun _ => grown.toolInvocations.lookup) fun _ => .refl _

theorem checkAuditInvocation_persists (stored : pending.StoredIn after) (id : AuditRecordId)
    (record : AuditRecord) (identity : EventIdentity) :
    Within (checkAuditInvocation before event pending id record identity)
      (checkAuditInvocation after event {} id record identity) := by
  unfold checkAuditInvocation
  split
  · exact .refl _
  · exact .bind (within_okOr fun _ => grown.toolInvocations.lookup) fun _ => .bind (.refl _) fun _ =>
      .bind (.refl _) fun _ => .bind (within_whenSome fun _ =>
        .bind (findToolResult_persists grown stored _) fun _ => .refl _) fun _ => .refl _

theorem checkAuditRecordRef_persists (stored : pending.StoredIn after) (identity : EventIdentity) :
    Within (checkAuditRecordRef before event pending identity)
      (checkAuditRecordRef after event {} identity) := by
  unfold checkAuditRecordRef
  split
  · exact .refl _
  · refine .bind (.refl _) fun _ => .bind (within_okOr fun record found => ?_) fun record =>
      .bind (.refl _) fun _ => .bind (.refl _) fun _ =>
        checkAuditInvocation_persists grown stored _ record _
    obtain ⟨_, present, rfl⟩ := grown.auditRecords.lookup_or stored.auditRecord found
    simpa using present

/-- An event accepted with pending records is acceptable in every later ledger
that stores them. -/
theorem validateEventLinks_persists (keyed : Keyed after) (stored : pending.StoredIn after)
    (checked : validateEventLinks before event pending = .ok ()) :
    validateEventLinks after event {} = .ok () := by
  have subject : Within (validateEventSubject before event pending)
      (validateEventSubject after event {}) :=
    .bind (subjectRepositoryId_persists grown keyed stored) fun _ => .refl _
  refine Within.bind subject (fun _ => .bind (checkRepositoryRef_persists grown) fun _ =>
    .bind (checkJobRef_persists grown stored _) fun _ =>
    .bind (checkPolicyDecisionRef_persists grown _) fun _ =>
    .bind (checkLockDecisionRef_persists grown _) fun _ =>
    .bind (checkToolInvocationRef_persists grown _) fun _ =>
    .bind (checkToolResultRef_persists grown stored _) fun _ =>
    .bind (checkAuditRecordRef_persists grown stored _) fun _ => .refl _) () checked

end Growth

section Repository

variable {inner : InMemoryInner} {context : String}

@[simp] theorem ensureEventRepositoryConsistency_eq_ok {identity : EventIdentity}
    {actual : RepositoryId} {result : Unit} :
    ensureEventRepositoryConsistency identity actual context = .ok result ↔
      actual = identity.repositoryId :=
  ensureSameRepository_eq_ok

section Owners

variable {job : JobId}

/-- The job that a tool invocation belongs to. -/
def InvocationJob (inner : InMemoryInner) (id : ToolInvocationId) (job : JobId) : Prop :=
  ∃ invocation, inner.toolInvocations[id]? = some invocation ∧ invocation.jobId = job

/-- The job of the invocation that a tool result belongs to. -/
def ResultJob (inner : InMemoryInner) (id : ToolResultId) (job : JobId) : Prop :=
  ∃ result, inner.toolResults[id]? = some result ∧ InvocationJob inner result.invocationId job

/-- The job of the invocation that an audit record is about. -/
def AuditJob (inner : InMemoryInner) (id : AuditRecordId) (job : JobId) : Prop :=
  ∃ record invocationId, inner.auditRecords[id]? = some record ∧
    record.toolInvocationId = some invocationId ∧ InvocationJob inner invocationId job

variable {first second : JobId}

theorem InvocationJob.unique {id : ToolInvocationId} (one : InvocationJob inner id first)
    (two : InvocationJob inner id second) : first = second := by
  obtain ⟨invocation, found, rfl⟩ := one
  obtain ⟨_, found', rfl⟩ := two
  cases found.symm.trans found'
  rfl

theorem ResultJob.unique {id : ToolResultId} (one : ResultJob inner id first)
    (two : ResultJob inner id second) : first = second := by
  obtain ⟨result, found, owner⟩ := one
  obtain ⟨_, found', owner'⟩ := two
  cases found.symm.trans found'
  exact owner.unique owner'

theorem AuditJob.unique {id : AuditRecordId} (one : AuditJob inner id first)
    (two : AuditJob inner id second) : first = second := by
  obtain ⟨record, invocationId, found, about, owner⟩ := one
  obtain ⟨_, _, found', about', owner'⟩ := two
  cases found.symm.trans found'
  cases about.symm.trans about'
  exact owner.unique owner'

end Owners

/-- The job implied is the one found so far, if any. -/
private theorem ensureEventJobConsistency_eq_ok {identity next : EventIdentity} {job : JobId}
    (checked : ensureEventJobConsistency identity job context = .ok next) :
    next = { identity with jobId := some job.text } ∧
      ∀ text, identity.jobId = some text → job.text = text := by
  simp only [ensureEventJobConsistency, ensureEventIdentityConsistency, bind_eq_ok, exists_unit,
    whenSome_eq_ok, ensure_eq_ok, pure_eq_ok] at checked
  obtain ⟨_, ⟨same, rfl⟩, rfl⟩ := checked
  exact ⟨rfl, fun text found => (same text found).symm⟩

private theorem ensureEventPolicyConsistency_eq_ok {identity next : EventIdentity}
    {policyDecisionId : PolicyDecisionId}
    (checked : ensureEventPolicyConsistency identity policyDecisionId context = .ok next) :
    ∃ policy, next = { identity with policyDecisionId := policy } := by
  simp only [ensureEventPolicyConsistency, bind_eq_ok, pure_eq_ok] at checked
  obtain ⟨policy, _, rfl⟩ := checked
  exact ⟨policy, rfl⟩

section Checks

variable {identity next : EventIdentity}

/-- What a check of a reference says. The record it names belongs to the repository, the job
found so far stays, and the job that the record implies is found. -/
structure RefChecked (identity next : EventIdentity) (belongs : RepositoryId → Prop)
    (implies : JobId → Prop) : Prop where
  repository : next.repositoryId = identity.repositoryId
  belongs : belongs identity.repositoryId
  keeps : ∀ text, identity.jobId = some text → next.jobId = some text
  finds : ∀ job, implies job → next.jobId = some job.text

theorem checkJobRef_checked (checked : checkJobRef inner event {} identity = .ok next) :
    RefChecked identity next
      (fun repositoryId => ∀ id, event.refs.jobId = some id →
        ∃ job, inner.jobs[id]? = some job ∧ job.repositoryId = repositoryId)
      fun job => ∃ id record, event.refs.jobId = some id ∧ inner.jobs[id]? = some record ∧
        record.id = job := by
  unfold checkJobRef at checked
  cases named : event.refs.jobId with
  | none =>
    simp only [named, Except.ok.injEq] at checked
    exact checked ▸ ⟨rfl, by simp, fun _ known => known, by simp⟩
  | some id =>
    simp only [named, bind_eq_ok, exists_unit, okOr_eq_ok, Option.filter_none, Option.or_none,
      ensureEventRepositoryConsistency_eq_ok] at checked
    obtain ⟨_, job, found, repository, consistent⟩ := checked
    obtain ⟨rfl, same⟩ := ensureEventJobConsistency_eq_ok consistent
    refine ⟨rfl, ?_, fun text known => congrArg some (same text known), ?_⟩
    · rintro _ ⟨⟩
      exact ⟨job, found, repository⟩
    · rintro _ ⟨_, record, ⟨⟩, stored, rfl⟩
      cases found.symm.trans stored
      rfl

theorem checkPolicyDecisionRef_checked
    (checked : checkPolicyDecisionRef inner event identity = .ok next) :
    RefChecked identity next
      (fun repositoryId => ∀ id, event.refs.policyDecisionId = some id →
        ∃ decision, inner.policyDecisions[id]? = some decision ∧
          decision.repositoryId = repositoryId)
      fun _ => False := by
  unfold checkPolicyDecisionRef at checked
  cases named : event.refs.policyDecisionId with
  | none =>
    simp only [named, Except.ok.injEq] at checked
    exact checked ▸ ⟨rfl, by simp, fun _ known => known, by simp⟩
  | some id =>
    simp only [named, bind_eq_ok, exists_unit, okOr_eq_ok, pure_eq_ok,
      ensureEventRepositoryConsistency_eq_ok] at checked
    obtain ⟨_, decision, found, repository, rfl⟩ := checked
    refine ⟨rfl, ?_, fun _ known => known, by simp⟩
    rintro _ ⟨⟩
    exact ⟨decision, found, repository⟩

theorem checkLockDecisionRef_checked
    (checked : checkLockDecisionRef inner event identity = .ok next) :
    RefChecked identity next
      (fun repositoryId => ∀ id, event.refs.lockDecisionId = some id →
        ∃ lock, inner.lockDecisions[id]? = some lock ∧ lock.repositoryId = repositoryId)
      fun _ => False := by
  unfold checkLockDecisionRef at checked
  cases named : event.refs.lockDecisionId with
  | none =>
    simp only [named, Except.ok.injEq] at checked
    exact checked ▸ ⟨rfl, by simp, fun _ known => known, by simp⟩
  | some id =>
    simp only [named, bind_eq_ok, exists_unit, okOr_eq_ok,
      ensureEventRepositoryConsistency_eq_ok] at checked
    obtain ⟨_, lock, found, repository, consistent⟩ := checked
    obtain ⟨policy, rfl⟩ := ensureEventPolicyConsistency_eq_ok consistent
    refine ⟨rfl, ?_, fun _ known => known, by simp⟩
    rintro _ ⟨⟩
    exact ⟨lock, found, repository⟩

theorem checkToolInvocationRef_checked
    (checked : checkToolInvocationRef inner event identity = .ok next) :
    RefChecked identity next
      (fun repositoryId => ∀ id, event.refs.toolInvocationId = some id →
        ∃ invocation, inner.toolInvocations[id]? = some invocation ∧
          invocation.repositoryId = repositoryId)
      fun job => ∃ id, event.refs.toolInvocationId = some id ∧ InvocationJob inner id job := by
  unfold checkToolInvocationRef at checked
  cases named : event.refs.toolInvocationId with
  | none =>
    simp only [named, Except.ok.injEq] at checked
    exact checked ▸ ⟨rfl, by simp, fun _ known => known, by simp⟩
  | some id =>
    simp only [named, bind_eq_ok, exists_unit, okOr_eq_ok,
      ensureEventRepositoryConsistency_eq_ok] at checked
    obtain ⟨_, invocation, found, repository, _, consistent, last⟩ := checked
    obtain ⟨rfl, same⟩ := ensureEventJobConsistency_eq_ok consistent
    obtain ⟨policy, rfl⟩ := ensureEventPolicyConsistency_eq_ok last
    refine ⟨rfl, ?_, fun text known => congrArg some (same text known), ?_⟩
    · rintro _ ⟨⟩
      exact ⟨invocation, found, repository⟩
    · rintro job ⟨_, ⟨⟩, owner⟩
      rw [owner.unique ⟨invocation, found, rfl⟩]

theorem checkToolResultRef_checked
    (checked : checkToolResultRef inner event {} identity = .ok next) :
    RefChecked identity next
      (fun repositoryId => ∀ id, event.refs.toolResultId = some id →
        ∃ result invocation, inner.toolResults[id]? = some result ∧
          inner.toolInvocations[result.invocationId]? = some invocation ∧
          invocation.repositoryId = repositoryId)
      fun job => ∃ id, event.refs.toolResultId = some id ∧ ResultJob inner id job := by
  unfold checkToolResultRef at checked
  cases named : event.refs.toolResultId with
  | none =>
    simp only [named, Except.ok.injEq] at checked
    exact checked ▸ ⟨rfl, by simp, fun _ known => known, by simp⟩
  | some id =>
    simp only [named, findToolResult, bind_eq_ok, exists_unit, okOr_eq_ok, Option.filter_none,
      Option.or_none, ensureEventRepositoryConsistency_eq_ok] at checked
    obtain ⟨_, result, found, invocation, owns, repository, _, _, consistent, last⟩ := checked
    obtain ⟨rfl, same⟩ := ensureEventJobConsistency_eq_ok consistent
    obtain ⟨policy, rfl⟩ := ensureEventPolicyConsistency_eq_ok last
    refine ⟨rfl, ?_, fun text known => congrArg some (same text known), ?_⟩
    · rintro _ ⟨⟩
      exact ⟨result, invocation, found, owns, repository⟩
    · rintro job ⟨_, ⟨⟩, owner⟩
      rw [owner.unique ⟨result, found, invocation, owns, rfl⟩]

private theorem checkAuditInvocation_checked {id : AuditRecordId} {record : AuditRecord}
    (checked : checkAuditInvocation inner event {} id record identity = .ok next) :
    RefChecked identity next (fun _ => True) fun job => ∃ invocationId,
      record.toolInvocationId = some invocationId ∧ InvocationJob inner invocationId job := by
  unfold checkAuditInvocation at checked
  cases about : record.toolInvocationId with
  | none =>
    simp only [about, Except.ok.injEq] at checked
    exact checked ▸ ⟨rfl, trivial, fun _ known => known, by simp⟩
  | some invocationId =>
    simp only [about, bind_eq_ok, exists_unit, okOr_eq_ok, pure_eq_ok] at checked
    obtain ⟨invocation, found, _, _, consistent, _, rfl⟩ := checked
    obtain ⟨rfl, same⟩ := ensureEventJobConsistency_eq_ok consistent
    refine ⟨rfl, trivial, fun text known => congrArg some (same text known), ?_⟩
    rintro job ⟨_, ⟨⟩, owner⟩
    rw [owner.unique ⟨invocation, found, rfl⟩]

theorem checkAuditRecordRef_checked
    (checked : checkAuditRecordRef inner event {} identity = .ok next) :
    RefChecked identity next
      (fun repositoryId => ∀ id, event.refs.auditRecordId = some id →
        ∃ record, inner.auditRecords[id]? = some record ∧ record.repositoryId = repositoryId)
      fun job => ∃ id, event.refs.auditRecordId = some id ∧ AuditJob inner id job := by
  unfold checkAuditRecordRef at checked
  cases named : event.refs.auditRecordId with
  | none =>
    simp only [named, Except.ok.injEq] at checked
    exact checked ▸ ⟨rfl, by simp, fun _ known => known, by simp⟩
  | some id =>
    simp only [named, bind_eq_ok, exists_unit, okOr_eq_ok, Option.filter_none, Option.or_none,
      ensureEventRepositoryConsistency_eq_ok] at checked
    obtain ⟨_, record, found, repository, _, consistent, last⟩ := checked
    obtain ⟨policy, rfl⟩ := ensureEventPolicyConsistency_eq_ok consistent
    obtain ⟨kept, -, keeps, finds⟩ := checkAuditInvocation_checked last
    refine ⟨kept, ?_, keeps, ?_⟩
    · rintro _ ⟨⟩
      exact ⟨record, found, repository⟩
    · rintro job ⟨_, ⟨⟩, _, invocationId, stored, about, owner⟩
      cases found.symm.trans stored
      exact finds job ⟨invocationId, about, owner⟩

end Checks

/-- Every record that an event refers to is stored and belongs to the repository. -/
structure RefsBelong (inner : InMemoryInner) (event : JobEvent) (repositoryId : RepositoryId) :
    Prop where
  repository : ∀ id, event.refs.repositoryId = some id →
    id = repositoryId ∧ inner.repositories.contains id = true
  job : ∀ id, event.refs.jobId = some id →
    ∃ job, inner.jobs[id]? = some job ∧ job.repositoryId = repositoryId
  policyDecision : ∀ id, event.refs.policyDecisionId = some id →
    ∃ decision, inner.policyDecisions[id]? = some decision ∧ decision.repositoryId = repositoryId
  lockDecision : ∀ id, event.refs.lockDecisionId = some id →
    ∃ lock, inner.lockDecisions[id]? = some lock ∧ lock.repositoryId = repositoryId
  toolInvocation : ∀ id, event.refs.toolInvocationId = some id →
    ∃ invocation, inner.toolInvocations[id]? = some invocation ∧
      invocation.repositoryId = repositoryId
  toolResult : ∀ id, event.refs.toolResultId = some id →
    ∃ result invocation, inner.toolResults[id]? = some result ∧
      inner.toolInvocations[result.invocationId]? = some invocation ∧
      invocation.repositoryId = repositoryId
  auditRecord : ∀ id, event.refs.auditRecordId = some id →
    ∃ record, inner.auditRecords[id]? = some record ∧ record.repositoryId = repositoryId

/-- The records an acceptable event refers to belong to the repository of its subject. -/
theorem RefsBelong.of_links (links : validateEventLinks inner event {} = .ok ()) :
    ∃ repositoryId, subjectRepositoryId inner event {} = .ok repositoryId ∧
      RefsBelong inner event repositoryId := by
  simp only [validateEventLinks, validateEventSubject, validateEventRefs, bind_eq_ok, exists_unit,
    pure_eq_ok, and_true, whenSome_eq_ok, ensureSameRepository_eq_ok] at links
  obtain ⟨_, ⟨repositoryId, subject, agrees, rfl⟩, reference, first, job, second, policy, third,
    lock, fourth, invocation, fifth, result, last, audit⟩ := links
  have start : (initialEventIdentity event repositoryId).repositoryId = repositoryId := by
    unfold initialEventIdentity
    cases named : event.refs.repositoryId with
    | none => rfl
    | some id => exact (agrees id named).symm
  obtain ⟨kept₁, foundJob, -⟩ := checkJobRef_checked job
  obtain ⟨kept₂, foundPolicy, -⟩ := checkPolicyDecisionRef_checked policy
  obtain ⟨kept₃, foundLock, -⟩ := checkLockDecisionRef_checked lock
  obtain ⟨kept₄, foundInvocation, -⟩ := checkToolInvocationRef_checked invocation
  obtain ⟨kept₅, foundResult, -⟩ := checkToolResultRef_checked result
  have foundAudit := (checkAuditRecordRef_checked audit).belongs
  simp only [kept₅, kept₄, kept₃, kept₂, kept₁, start]
    at foundJob foundPolicy foundLock foundInvocation foundResult foundAudit
  simp only [checkRepositoryRef, whenSome_eq_ok, bind_eq_ok, exists_unit,
    ensureRefExists_eq_ok] at reference
  refine ⟨repositoryId, subject, ?_, foundJob, foundPolicy, foundLock, foundInvocation, foundResult,
    foundAudit⟩
  intro id named
  exact ⟨(agrees id named).symm, (reference id named).2⟩

/-- The repository of an event is the one that its subject and its references belong to. -/
theorem RefsBelong.eventRepositoryId {repositoryId : RepositoryId}
    (belongs : RefsBelong inner event repositoryId)
    (subject : subjectRepositoryId inner event {} = .ok repositoryId) :
    Store.eventRepositoryId inner event = .ok repositoryId := by
  unfold Store.eventRepositoryId
  cases named : event.refs.repositoryId with
  | some id => exact congrArg Except.ok (belongs.repository id named).1
  | none =>
    simp only [bind_eq_ok, exists_unit, pure_eq_ok, deriveEventRepositoryFromRefs, whenSome_eq_ok,
      okOr_eq_ok, ensureSameRepository_eq_ok]
    refine ⟨_, subject, ⟨belongs.job, belongs.policyDecision, belongs.lockDecision,
      belongs.toolInvocation, ?_, belongs.auditRecord⟩, rfl⟩
    intro id named
    obtain ⟨result, invocation, found, owner, same⟩ := belongs.toolResult id named
    exact ⟨result, found, invocation, owner, same⟩

/-- The tool records that an event refers to are stored. -/
structure ToolRefsStored (inner : InMemoryInner) (event : JobEvent) : Prop where
  invocation : ∀ id, event.refs.toolInvocationId = some id →
    ∃ invocation, inner.toolInvocations[id]? = some invocation
  result : ∀ id, event.refs.toolResultId = some id → ∃ result invocation,
    inner.toolResults[id]? = some result ∧
      inner.toolInvocations[result.invocationId]? = some invocation
  audit : ∀ id, event.refs.auditRecordId = some id →
    ∃ record, inner.auditRecords[id]? = some record

theorem ToolRefsStored.of_links (links : validateEventLinks inner event {} = .ok ()) :
    ToolRefsStored inner event := by
  obtain ⟨_, _, belongs⟩ := RefsBelong.of_links links
  refine ⟨?_, ?_, ?_⟩
  · intro id named
    obtain ⟨invocation, stored, _⟩ := belongs.toolInvocation id named
    exact ⟨invocation, stored⟩
  · intro id named
    obtain ⟨result, owner, stored, storedOwner, _⟩ := belongs.toolResult id named
    exact ⟨result, owner, stored, storedOwner⟩
  · intro id named
    obtain ⟨record, stored, _⟩ := belongs.auditRecord id named
    exact ⟨record, stored⟩

/-- The repository of an acceptable event is the one of its subject. -/
theorem eventRepositoryId_of_links (links : validateEventLinks inner event {} = .ok ()) :
    ∃ repositoryId, subjectRepositoryId inner event {} = .ok repositoryId ∧
      eventRepositoryId inner event = .ok repositoryId := by
  obtain ⟨repositoryId, subject, belongs⟩ := RefsBelong.of_links links
  exact ⟨repositoryId, subject, belongs.eventRepositoryId subject⟩

/-- The repository of an acceptable event never changes. -/
theorem eventRepositoryId_persists (grown : Extends before after) (keyed : Keyed after)
    (links : validateEventLinks before event {} = .ok ()) :
    eventRepositoryId after event = eventRepositoryId before event := by
  obtain ⟨subject, found, here⟩ := eventRepositoryId_of_links links
  have later := validateEventLinks_persists grown keyed (PendingRecords.storedIn_none after) links
  obtain ⟨subject', found', there⟩ := eventRepositoryId_of_links later
  have same := subjectRepositoryId_persists grown keyed (PendingRecords.storedIn_none after) _
    found
  rw [found', Except.ok.injEq] at same
  rw [here, there, same]

end Repository

end Atelia.Store
