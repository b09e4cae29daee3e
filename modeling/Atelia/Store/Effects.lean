import Atelia.Store.Operations

/-! When an operation succeeds, and the state it then installs. -/

namespace Atelia.Store

open Outcome

variable {inner after : InMemoryInner}

/-- The ledger with the event appended and the job stored as of that event. -/
def InMemoryInner.withJobEvent (inner : InMemoryInner) (record : JobRecord) (event : JobEvent) :
    InMemoryInner :=
  (inner.withEvent event).withJob { record with latestEventId := some event.id }

@[simp] theorem mutateWithPublishedEvents_eq_ok {α : Type} {mutator : InMemoryInner →
    StoreResult (α × InMemoryInner × List JobEvent)} {result : α} :
    mutateWithPublishedEvents mutator inner = .ok (result, after) ↔
      ∃ events, mutator inner = .ok (result, after, events) ∧
        prepareJobEventPublish after events = .ok () := by
  simp only [mutateWithPublishedEvents, bind_eq_ok, exists_unit, pure_eq_ok]
  constructor
  · rintro ⟨⟨value, draft, events⟩, ran, published, same⟩
    obtain ⟨rfl, rfl⟩ := Prod.mk.inj same
    exact ⟨events, ran, published⟩
  · rintro ⟨events, ran, published⟩
    exact ⟨(result, after, events), ran, published, rfl⟩

variable {event stored : JobEvent}

@[simp] theorem appendEventLocked_eq_ok :
    appendEventLocked event inner = .ok (stored, after) ↔
      inner.nextEventSequence + 1 ≤ maxSequence ∧ inner.numbered event = stored ∧
        inner.withEvent event = after := by
  simp only [appendEventLocked, bind_eq_ok, exists_unit, ensure_eq_ok, pure_eq_ok, Prod.mk.injEq]

variable {result : Unit}

@[simp] theorem ensureEventSequenceCapacity_eq_ok {eventCount : Nat} :
    ensureEventSequenceCapacity inner eventCount = .ok result ↔
      inner.nextEventSequence + eventCount ≤ maxSequence :=
  ensure_eq_ok

theorem validateNewJobEventWithPendingRecords_eq_ok {pending : PendingRecords} :
    validateNewJobEventWithPendingRecords inner event pending = .ok result ↔
      inner.jobEventsById[event.id]? = none ∧ event.subject.hasValidSubjectId = true ∧
        validateEventLinks inner event pending = .ok () := by
  simp only [validateNewJobEventWithPendingRecords, bind_eq_ok, exists_unit, reject_eq_ok,
    ensure_eq_ok, Bool.not_eq_true, Table.contains_eq_false_iff]

@[simp] theorem validateSiblingEventIdsAreUnique_eq_ok {left right : JobEvent} :
    validateSiblingEventIdsAreUnique left right = .ok result ↔ left.id ≠ right.id :=
  ensure_eq_ok

variable {record : JobRecord} {key : String}

section Events

theorem appendJobEvent_eq_ok :
    appendJobEvent event inner = .ok (stored, after) ↔
      validateNewJobEvent inner event none = .ok () ∧
        inner.nextEventSequence + 1 ≤ maxSequence ∧ inner.numbered event = stored ∧
        inner.withEvent event = after ∧ prepareJobEventPublish after [stored] = .ok () := by
  simp only [appendJobEvent, mutateWithPublishedEvents_eq_ok, bind_eq_ok, exists_unit, Prod.exists,
    appendEventLocked_eq_ok, pure_eq_ok, Prod.mk.injEq]
  constructor
  · rintro ⟨_, ⟨checked, _, _, ⟨room, rfl, rfl⟩, rfl, rfl, rfl⟩, published⟩
    exact ⟨checked, room, rfl, rfl, published⟩
  · rintro ⟨checked, room, rfl, rfl, published⟩
    exact ⟨_, ⟨checked, _, _, ⟨room, rfl, rfl⟩, rfl, rfl, rfl⟩, published⟩

theorem createJobWithInitialEvent_eq_ok :
    createJobWithInitialEvent record event inner = .ok (stored, after) ↔
      (inner.repositories.contains record.repositoryId = true ∧ inner.jobs[record.id]? = none ∧
        validateInitialEventForJob record event = .ok () ∧
        validateNewJobEvent inner event (some record) = .ok ()) ∧
        inner.nextEventSequence + 1 ≤ maxSequence ∧ inner.numbered event = stored ∧
        inner.withJobEvent record event = after ∧
        prepareJobEventPublish after [stored] = .ok () := by
  simp only [createJobWithInitialEvent, mutateWithPublishedEvents_eq_ok, bind_eq_ok, exists_unit,
    Prod.exists, appendEventLocked_eq_ok, pure_eq_ok, Prod.mk.injEq, validateJobRefs,
    ensureRefExists_eq_ok, reject_eq_ok, Bool.not_eq_true, Table.contains_eq_false_iff]
  constructor
  · rintro ⟨_, ⟨repository, fresh, initial, checked, _, _, ⟨room, rfl, rfl⟩, rfl, rfl, rfl⟩,
      published⟩
    exact ⟨⟨repository, fresh, initial, checked⟩, room, rfl, rfl, published⟩
  · rintro ⟨⟨repository, fresh, initial, checked⟩, room, rfl, rfl, published⟩
    exact ⟨_, ⟨repository, fresh, initial, checked, _, _, ⟨room, rfl, rfl⟩, rfl, rfl, rfl⟩,
      published⟩

theorem appendJobEventAndUpdateJob_eq_ok :
    appendJobEventAndUpdateJob record event inner = .ok (stored, after) ↔
      (validateJobUpdate inner record event = .ok () ∧
        validateNewJobEvent inner event none = .ok ()) ∧
        inner.nextEventSequence + 1 ≤ maxSequence ∧ inner.numbered event = stored ∧
        inner.withJobEvent record event = after ∧
        prepareJobEventPublish after [stored] = .ok () := by
  simp only [appendJobEventAndUpdateJob, mutateWithPublishedEvents_eq_ok, bind_eq_ok, exists_unit,
    Prod.exists, appendEventLocked_eq_ok, pure_eq_ok, Prod.mk.injEq]
  constructor
  · rintro ⟨_, ⟨update, checked, _, _, ⟨room, rfl, rfl⟩, rfl, rfl, rfl⟩, published⟩
    exact ⟨⟨update, checked⟩, room, rfl, rfl, published⟩
  · rintro ⟨⟨update, checked⟩, room, rfl, rfl, published⟩
    exact ⟨_, ⟨update, checked, _, _, ⟨room, rfl, rfl⟩, rfl, rfl, rfl⟩, published⟩

theorem appendJobEventAndUpdateJobWithSubmitJobIdempotency_eq_ok
    {submission : SubmitJobIdempotencyRecord} :
    appendJobEventAndUpdateJobWithSubmitJobIdempotency record event key submission inner =
        .ok (stored, after) ↔
      (validateJobUpdate inner record event = .ok () ∧
        validateNewJobEvent inner event none = .ok ()) ∧
        inner.nextEventSequence + 1 ≤ maxSequence ∧ inner.numbered event = stored ∧
        insertSubmitJobIdempotencyLocked (inner.withJobEvent record event) key
          (committedSubmission submission record stored) = .ok after ∧
        prepareJobEventPublish after [stored] = .ok () := by
  simp only [appendJobEventAndUpdateJobWithSubmitJobIdempotency, mutateWithPublishedEvents_eq_ok,
    bind_eq_ok, exists_unit, Prod.exists, appendEventLocked_eq_ok, pure_eq_ok, Prod.mk.injEq]
  constructor
  · rintro ⟨_, ⟨update, checked, _, _, ⟨room, rfl, rfl⟩, _, stored, rfl, rfl, rfl⟩, published⟩
    exact ⟨⟨update, checked⟩, room, rfl, stored, published⟩
  · rintro ⟨⟨update, checked⟩, room, rfl, stored, published⟩
    exact ⟨_, ⟨update, checked, _, _, ⟨room, rfl, rfl⟩, _, stored, rfl, rfl, rfl⟩, published⟩

/-- Two updates of one job in a row leave only the second one stored. -/
theorem withJobEvent_withJobEvent {first second : JobRecord} {firstEvent secondEvent : JobEvent}
    (same : first.id = second.id) :
    (inner.withJobEvent first firstEvent).withJobEvent second secondEvent =
      ((inner.withEvent firstEvent).withEvent secondEvent).withJob
        { second with latestEventId := some secondEvent.id } := by
  simp only [InMemoryInner.withJobEvent, InMemoryInner.withJob, InMemoryInner.withEvent,
    InMemoryInner.numbered, same, Table.insert_insert_same]

theorem appendJobEventsAndUpdateJob_eq_ok {firstRecord finalRecord : JobRecord}
    {firstEvent finalEvent : JobEvent} {stored : JobEvent × JobEvent} :
    appendJobEventsAndUpdateJob firstRecord firstEvent finalRecord finalEvent inner =
        .ok (stored, after) ↔
      (firstEvent.id ≠ finalEvent.id ∧
        validateTwoStageJobUpdateIdentity firstRecord firstEvent finalRecord finalEvent = .ok () ∧
        validateJobUpdate inner firstRecord firstEvent = .ok () ∧
        validateNewJobEvent inner firstEvent none = .ok () ∧
        validateJobUpdateAgainst { firstRecord with latestEventId := some firstEvent.id }
          finalRecord finalEvent = .ok () ∧
        validateNewJobEvent inner finalEvent none = .ok ()) ∧
        inner.nextEventSequence + 2 ≤ maxSequence ∧
        (inner.numbered firstEvent, (inner.withEvent firstEvent).numbered finalEvent) = stored ∧
        (inner.withJobEvent firstRecord firstEvent).withJobEvent finalRecord finalEvent = after ∧
        prepareJobEventPublish after [stored.1, stored.2] = .ok () := by
  simp only [appendJobEventsAndUpdateJob, mutateWithPublishedEvents_eq_ok, bind_eq_ok, exists_unit,
    Prod.exists, appendEventLocked_eq_ok, pure_eq_ok, Prod.mk.injEq,
    validateSiblingEventIdsAreUnique_eq_ok, ensureEventSequenceCapacity_eq_ok]
  have sameJob (identity : validateTwoStageJobUpdateIdentity firstRecord firstEvent finalRecord
      finalEvent = .ok ()) : firstRecord.id = finalRecord.id := by
    simp only [validateTwoStageJobUpdateIdentity, bind_eq_ok, exists_unit, reject_eq_ok,
      not_not] at identity
    exact identity.1
  constructor
  · rintro ⟨_, ⟨different, identity, update, checked, final, checkedFinal, room, _, _,
      ⟨_, rfl, rfl⟩, _, _, ⟨_, rfl, rfl⟩, rfl, rfl, rfl⟩, published⟩
    exact ⟨⟨different, identity, update, checked, final, checkedFinal⟩, room, rfl,
      withJobEvent_withJobEvent (sameJob identity), published⟩
  · rintro ⟨⟨different, identity, update, checked, final, checkedFinal⟩, room, rfl, rfl, published⟩
    rw [withJobEvent_withJobEvent (sameJob identity)] at published ⊢
    exact ⟨_, ⟨different, identity, update, checked, final, checkedFinal, room, _, _,
      ⟨by omega, rfl, rfl⟩, _, _, ⟨room, rfl, rfl⟩, rfl, rfl, rfl⟩, published⟩

end Events

section Records

def InMemoryInner.withRepository (inner : InMemoryInner) (record : RepositoryRecord) :
    InMemoryInner :=
  { inner with repositories := inner.repositories.insert record.id record }

def InMemoryInner.withPolicyDecision (inner : InMemoryInner) (record : PolicyDecision) :
    InMemoryInner :=
  { inner with policyDecisions := inner.policyDecisions.insert record.id record }

def InMemoryInner.withLockDecision (inner : InMemoryInner) (record : LockDecision) :
    InMemoryInner :=
  { inner with lockDecisions := inner.lockDecisions.insert record.id record }

def InMemoryInner.withToolInvocation (inner : InMemoryInner) (record : ToolInvocation) :
    InMemoryInner :=
  { inner with toolInvocations := inner.toolInvocations.insert record.id record }

def InMemoryInner.withToolResult (inner : InMemoryInner) (record : ToolResult) : InMemoryInner :=
  { inner with toolResults := inner.toolResults.insert record.id record }

def InMemoryInner.withAuditRecord (inner : InMemoryInner) (record : AuditRecord) : InMemoryInner :=
  { inner with auditRecords := inner.auditRecords.insert record.id record }

/-- The ledger with a tool result and its audit record, each with its event. -/
def InMemoryInner.withToolResultAndAudit (inner : InMemoryInner) (record : JobRecord)
    (toolResult : ToolResult) (toolResultEvent : JobEvent) (auditRecord : AuditRecord)
    (auditEvent : JobEvent) : InMemoryInner :=
  (((inner.withToolResult toolResult).withJobEvent record toolResultEvent).withAuditRecord
    auditRecord).withJobEvent record auditEvent

/-- An operation that ends by storing one new record. -/
private theorem insertRecord_install_eq_ok {kind : IdKind} {Record : Type}
    {collection : Table (Identifier kind) Record} {id : Identifier kind} {record : Record}
    {collectionName : String} {install : Table (Identifier kind) Record → InMemoryInner} :
    (do let next ← insertRecord collection id record collectionName
        return ((), install next)) = (.ok (result, after) : StoreResult (Unit × InMemoryInner)) ↔
      collection[id]? = none ∧ install (collection.insert id record) = after := by
  simp only [bind_eq_ok, insertRecord_eq_ok, pure_eq_ok, Prod.mk.injEq, true_and]
  constructor
  · rintro ⟨_, ⟨fresh, rfl⟩, rfl⟩
    exact ⟨fresh, rfl⟩
  · rintro ⟨fresh, rfl⟩
    exact ⟨_, ⟨fresh, rfl⟩, rfl⟩

/-- A check that refuses the first record with a property refuses them all. -/
private theorem refuse_found_eq_ok {α : Type} {items : List α} {bad : α → Bool}
    {failure : α → StoreError} :
    whenSome (items.find? bad) (fun item => .error (failure item)) = .ok result ↔
      ∀ item ∈ items, bad item = false := by
  rw [whenSome_eq_ok]
  constructor
  · intro refused item member
    by_contra holds
    obtain ⟨found, scan⟩ := Option.isSome_iff_exists.mp
      (List.find?_isSome.mpr ⟨item, member, Bool.not_eq_false _ ▸ holds⟩)
    simpa using refused found scan
  · intro clear item found
    have holds := List.find?_some found
    rw [clear item (List.mem_of_find?_eq_some found)] at holds
    exact absurd holds Bool.false_ne_true

private theorem search_eq_ok_none {rootPath : String} {decisions : List PolicyDecision} :
    rootScopedBlockedPolicyOverlappingRepository.search inner rootPath decisions = .ok none ↔
      ∀ decision ∈ decisions, isRootScopedRepositoryBlock decision = true →
        ∃ repository, inner.repositories[decision.repositoryId]? = some repository ∧
          repositoryRootsStrictlyOverlap rootPath repository.rootPath = false := by
  induction decisions with
  | nil => simp [rootScopedBlockedPolicyOverlappingRepository.search]
  | cons decision rest ih =>
    rw [rootScopedBlockedPolicyOverlappingRepository.search, List.forall_mem_cons]
    split
    · rename_i blocks
      simp only [bind_eq_ok, okOr_eq_ok, blocks, forall_const]
      constructor
      · rintro ⟨repository, found, rest⟩
        split at rest
        · simp [pure_eq_ok] at rest
        · rename_i apart
          exact ⟨⟨repository, found, Bool.not_eq_true _ ▸ apart⟩, ih.mp rest⟩
      · rintro ⟨⟨repository, found, apart⟩, rest⟩
        refine ⟨repository, found, ?_⟩
        rw [if_neg (by simp [apart])]
        exact ih.mpr rest
    · rename_i blocks
      simp [ih, blocks]

/-- No blocked root covers or lies inside the given root. -/
theorem rootScopedBlockedPolicyOverlappingRepository_eq_none {rootPath : String} :
    rootScopedBlockedPolicyOverlappingRepository inner rootPath = .ok none ↔
      ∀ decision ∈ inner.policyDecisions.records, isRootScopedRepositoryBlock decision = true →
        ∃ repository, inner.repositories[decision.repositoryId]? = some repository ∧
          repositoryRootsStrictlyOverlap rootPath repository.rootPath = false :=
  search_eq_ok_none

theorem validateRootScopedBlock_eq_ok {record : PolicyDecision} :
    validateRootScopedBlock inner record = .ok result ↔
      (isRootScopedRepositoryBlock record = true →
        ∃ repository, inner.repositories[record.repositoryId]? = some repository ∧
          ∀ other ∈ inner.repositories.records, other.id ≠ repository.id →
            repositoryRootsStrictlyOverlap repository.rootPath other.rootPath = false) := by
  unfold validateRootScopedBlock
  split
  · rename_i blocks
    simp only [bind_eq_ok, okOr_eq_ok, refuse_found_eq_ok, Bool.and_eq_false_imp,
      decide_eq_true_eq, blocks, forall_const]
  · rename_i blocks
    simp [blocks]

/-- A repository is accepted next to the stored ones. -/
structure RepositoryAccepted (inner : InMemoryInner) (record : RepositoryRecord) : Prop where
  valid : validateRepositoryRecord record = .ok ()
  distinct : ∀ other ∈ inner.repositories.records, other.rootPath ≠ record.rootPath
  unblocked : ∀ other ∈ inner.repositories.records,
    repositoryRootsStrictlyOverlap record.rootPath other.rootPath = true →
      record.trustState ≠ .blocked ∧ other.trustState ≠ .blocked
  uncovered : rootScopedBlockedPolicyOverlappingRepository inner record.rootPath = .ok none
  fresh : inner.repositories[record.id]? = none

theorem createRepository_eq_ok {record : RepositoryRecord} :
    createRepository record inner = .ok (result, after) ↔ RepositoryAccepted inner record ∧
      inner.withRepository record = after := by
  simp only [createRepository, bind_eq_ok, exists_unit, reject_eq_ok, refuse_found_eq_ok,
    insertRecord_eq_ok, pure_eq_ok, Prod.mk.injEq, true_and, Bool.not_eq_true,
    Bool.and_eq_false_imp, List.any_eq_false, decide_eq_true_eq, Bool.or_eq_false_iff,
    decide_eq_false_iff_not]
  constructor
  · rintro ⟨valid, distinct, unblocked, overlapping, uncovered, refused, _, ⟨fresh, rfl⟩, rfl⟩
    cases overlapping with
    | none => exact ⟨⟨valid, distinct, unblocked, uncovered, fresh⟩, rfl⟩
    | some conflict => simp [whenSome] at refused
  · rintro ⟨⟨valid, distinct, unblocked, uncovered, fresh⟩, rfl⟩
    exact ⟨valid, distinct, unblocked, none, uncovered, rfl, _, ⟨fresh, rfl⟩, rfl⟩

/-- A lock decision is accepted next to the stored ones. -/
structure LockAccepted (inner : InMemoryInner) (record : LockDecision) : Prop where
  fresh : inner.lockDecisions[record.id]? = none
  timing : validateLockDecisionTiming record = .ok ()
  repository : inner.repositories.contains record.repositoryId = true
  policy : validateLockPolicy inner record = .ok ()
  owner : validateLockOwner inner record = .ok ()
  uncovered : ∀ existing ∈ inner.lockDecisions.records, record.status = .held →
    existing.status = .held → existing.repositoryId = record.repositoryId →
    existing.lockedScope ≠ record.lockedScope

theorem createLockDecision_eq_ok {record : LockDecision} :
    createLockDecision record inner = .ok (result, after) ↔ LockAccepted inner record ∧
      inner.withLockDecision record = after := by
  simp only [createLockDecision, bind_eq_ok, exists_unit, reject_eq_ok, ensure_eq_ok,
    refuse_found_eq_ok, pure_eq_ok, Prod.mk.injEq, true_and, Bool.not_eq_true,
    Table.contains_eq_false_iff, Bool.and_eq_false_imp, Bool.and_eq_true, isActiveLockStatus_iff,
    decide_eq_true_eq, decide_eq_false_iff_not, and_imp]
  constructor
  · rintro ⟨fresh, timing, repository, policy, owner, uncovered, rfl⟩
    exact ⟨⟨fresh, timing, repository, policy, owner, uncovered⟩, rfl⟩
  · rintro ⟨⟨fresh, timing, repository, policy, owner, uncovered⟩, rfl⟩
    exact ⟨fresh, timing, repository, policy, owner, uncovered, rfl⟩

theorem createPolicyDecision_eq_ok {record : PolicyDecision} :
    createPolicyDecision record inner = .ok (result, after) ↔
      inner.repositories.contains record.repositoryId = true ∧
        validateRootScopedBlock inner record = .ok () ∧
        inner.policyDecisions[record.id]? = none ∧
        inner.withPolicyDecision record = after := by
  unfold createPolicyDecision
  rw [bind_eq_ok, exists_unit, ensureRefExists_eq_ok, bind_eq_ok, exists_unit,
    insertRecord_install_eq_ok]
  rfl

theorem createToolInvocation_eq_ok {record : ToolInvocation} :
    createToolInvocation record inner = .ok (result, after) ↔
      validateToolInvocationRefs inner record = .ok () ∧
        inner.toolInvocations[record.id]? = none ∧
        inner.withToolInvocation record = after := by
  unfold createToolInvocation
  rw [bind_eq_ok, exists_unit, insertRecord_install_eq_ok]
  rfl

theorem createToolResult_eq_ok {record : ToolResult} :
    createToolResult record inner = .ok (result, after) ↔
      validateToolResultRefs inner record = .ok () ∧ inner.toolResults[record.id]? = none ∧
        inner.withToolResult record = after := by
  unfold createToolResult
  rw [bind_eq_ok, exists_unit, insertRecord_install_eq_ok]
  rfl

theorem createAuditRecord_eq_ok {record : AuditRecord} :
    createAuditRecord record inner = .ok (result, after) ↔
      validateAuditRecordRefs inner record = .ok () ∧ inner.auditRecords[record.id]? = none ∧
        inner.withAuditRecord record = after := by
  unfold createAuditRecord
  rw [bind_eq_ok, exists_unit, insertRecord_install_eq_ok]
  rfl

/-- An accepted idempotency record is stored under its key, where nothing or the
same record was stored before. -/
theorem insertSubmitJobIdempotencyLocked_eq_ok {record : SubmitJobIdempotencyRecord} :
    insertSubmitJobIdempotencyLocked inner key record = .ok after ↔
      validateSubmitJobIdempotencyRecord inner key record = .ok () ∧
        ((inner.idempotentSubmitJobs[key]? = some record ∧ inner = after) ∨
          (inner.idempotentSubmitJobs[key]? = none ∧ { inner with
            idempotentSubmitJobs := inner.idempotentSubmitJobs.insert key record } = after)) := by
  simp only [insertSubmitJobIdempotencyLocked, bind_eq_ok, exists_unit]
  cases found : inner.idempotentSubmitJobs[key]? <;>
    simp [ensure_eq_ok, pure_eq_ok]

theorem recordSubmitJobIdempotency_eq_ok {record : SubmitJobIdempotencyRecord} :
    recordSubmitJobIdempotency key record inner = .ok (result, after) ↔
      insertSubmitJobIdempotencyLocked inner key record = .ok after := by
  simp [recordSubmitJobIdempotency]

variable {toolResult : ToolResult} {toolResultEvent auditEvent : JobEvent}
  {auditRecord : AuditRecord}

theorem writeToolResultAndAudit_eq_ok {stored : JobEvent × JobEvent} :
    writeToolResultAndAudit inner record toolResult toolResultEvent auditRecord auditEvent =
        .ok (stored, after) ↔
      inner.toolResults[toolResult.id]? = none ∧ inner.auditRecords[auditRecord.id]? = none ∧
        inner.nextEventSequence + 2 ≤ maxSequence ∧
        (inner.numbered toolResultEvent, (inner.withEvent toolResultEvent).numbered auditEvent) =
          stored ∧
        inner.withToolResultAndAudit record toolResult toolResultEvent auditRecord auditEvent =
          after := by
  simp only [writeToolResultAndAudit, bind_eq_ok, Prod.exists, insertRecord_eq_ok,
    appendEventLocked_eq_ok, pure_eq_ok, Prod.mk.injEq]
  constructor
  · rintro ⟨_, ⟨fresh, rfl⟩, _, _, ⟨_, rfl, rfl⟩, _, ⟨freshAudit, rfl⟩, _, _, ⟨room, rfl, rfl⟩,
      rfl, rfl⟩
    exact ⟨fresh, freshAudit, room, rfl, rfl⟩
  · rintro ⟨fresh, freshAudit, room, rfl, rfl⟩
    have roomFirst : inner.nextEventSequence + 1 ≤ maxSequence := by omega
    exact ⟨_, ⟨fresh, rfl⟩, _, _, ⟨roomFirst, rfl, rfl⟩, _, ⟨freshAudit, rfl⟩, _, _,
      ⟨room, rfl, rfl⟩, rfl, rfl⟩

/-- The checks shared by the operations that store a tool result with its audit
record. -/
structure ToolResultAndAuditAccepted (inner : InMemoryInner) (record : JobRecord)
    (toolResult : ToolResult) (toolResultEvent : JobEvent) (auditRecord : AuditRecord)
    (auditEvent : JobEvent) : Prop where
  update : validateJobUpdate inner record toolResultEvent = .ok ()
  auditUpdate : validateJobUpdate inner record auditEvent = .ok ()
  resultRefs : validateToolResultRefs inner toolResult = .ok ()
  auditRefs :
    validateAuditRecordRefsWithPendingToolResult inner auditRecord (some toolResult) = .ok ()
  resultEvent : validateNewJobEventWithPendingRecords inner toolResultEvent
    { toolResult := some toolResult } = .ok ()
  auditEventRefs : validateNewJobEventWithPendingRecords inner auditEvent
    { toolResult := some toolResult, auditRecord := some auditRecord } = .ok ()
  freshToolResult : inner.toolResults[toolResult.id]? = none
  freshAuditRecord : inner.auditRecords[auditRecord.id]? = none

theorem validateToolResultAndAudit_eq_ok :
    validateToolResultAndAudit inner record toolResult toolResultEvent auditRecord auditEvent =
        .ok result ↔
      ToolResultAndAuditAccepted inner record toolResult toolResultEvent auditRecord
        auditEvent := by
  simp only [validateToolResultAndAudit, bind_eq_ok, exists_unit, ensureRefAbsent_eq_ok,
    Bool.not_eq_true', Table.contains_eq_false_iff]
  constructor
  · rintro ⟨update, auditUpdate, toolResult, auditRecord, event, audit, fresh, freshAudit⟩
    exact ⟨update, auditUpdate, toolResult, auditRecord, event, audit, fresh, freshAudit⟩
  · rintro ⟨update, auditUpdate, toolResult, auditRecord, event, audit, fresh, freshAudit⟩
    exact ⟨update, auditUpdate, toolResult, auditRecord, event, audit, fresh, freshAudit⟩

/-- Accepted records are written. -/
theorem ToolResultAndAuditAccepted.written
    (accepted : ToolResultAndAuditAccepted inner record toolResult toolResultEvent auditRecord
      auditEvent) (room : inner.nextEventSequence + 2 ≤ maxSequence) :
    writeToolResultAndAudit inner record toolResult toolResultEvent auditRecord auditEvent =
      .ok ((inner.numbered toolResultEvent, (inner.withEvent toolResultEvent).numbered auditEvent),
        inner.withToolResultAndAudit record toolResult toolResultEvent auditRecord auditEvent) :=
  writeToolResultAndAudit_eq_ok.mpr
    ⟨accepted.freshToolResult, accepted.freshAuditRecord, room, rfl, rfl⟩

theorem recordToolResultAndAuditWithEvents_eq_ok {stored : JobEvent × JobEvent} :
    recordToolResultAndAuditWithEvents record toolResult toolResultEvent auditRecord auditEvent
        inner = .ok (stored, after) ↔
      toolResultEvent.id ≠ auditEvent.id ∧
        ToolResultAndAuditAccepted inner record toolResult toolResultEvent auditRecord auditEvent ∧
        inner.nextEventSequence + 2 ≤ maxSequence ∧
        (inner.numbered toolResultEvent, (inner.withEvent toolResultEvent).numbered auditEvent) =
          stored ∧
        inner.withToolResultAndAudit record toolResult toolResultEvent auditRecord auditEvent =
          after ∧
        prepareJobEventPublish after [stored.1, stored.2] = .ok () := by
  simp only [recordToolResultAndAuditWithEvents, mutateWithPublishedEvents_eq_ok, bind_eq_ok,
    exists_unit, validateSiblingEventIdsAreUnique_eq_ok, validateToolResultAndAudit_eq_ok,
    ensureEventSequenceCapacity_eq_ok, Prod.exists, pure_eq_ok, Prod.mk.injEq]
  constructor
  · rintro ⟨_, ⟨different, accepted, room, _, _, _, written, rfl, rfl, rfl⟩, published⟩
    obtain ⟨_, _, _, same, rfl⟩ := writeToolResultAndAudit_eq_ok.mp written
    obtain ⟨rfl, rfl⟩ := Prod.mk.inj same
    exact ⟨different, accepted, room, rfl, rfl, published⟩
  · rintro ⟨different, accepted, room, rfl, rfl, published⟩
    exact ⟨_, ⟨different, accepted, room, _, _, _, accepted.written room, rfl, rfl, rfl⟩,
      published⟩

end Records

section Terminal

variable {request : ToolResultAuditTerminalRequest}

/-- The ledger with everything a terminal request stores but its receipt. -/
def InMemoryInner.withTerminal (inner : InMemoryInner) (request : ToolResultAuditTerminalRequest)
    (finalRecord : JobRecord) : InMemoryInner :=
  (inner.withToolResultAndAudit request.record request.toolResult request.toolResultEvent
    request.auditRecord request.auditEvent).withJobEvent finalRecord request.terminalEvent

/-- The events a terminal request appends, as they are numbered. -/
def InMemoryInner.terminalEvents (inner : InMemoryInner)
    (request : ToolResultAuditTerminalRequest) : JobEvent × JobEvent × JobEvent :=
  (inner.numbered request.toolResultEvent,
    (inner.withEvent request.toolResultEvent).numbered request.auditEvent,
    ((inner.withEvent request.toolResultEvent).withEvent request.auditEvent).numbered
      request.terminalEvent)

/-- The checks of a terminal request before anything is written. -/
structure TerminalAccepted (inner : InMemoryInner) (request : ToolResultAuditTerminalRequest)
    (finalRecord : JobRecord) : Prop where
  resultAudit : request.toolResultEvent.id ≠ request.auditEvent.id
  resultTerminal : request.toolResultEvent.id ≠ request.terminalEvent.id
  auditTerminal : request.auditEvent.id ≠ request.terminalEvent.id
  records : ToolResultAndAuditAccepted inner request.record request.toolResult
    request.toolResultEvent request.auditRecord request.auditEvent
  room : inner.nextEventSequence + 3 ≤ maxSequence
  transition : terminalRecord request.record request.toolResult.status request.terminalEvent =
    .ok finalRecord
  update : validateJobUpdateAgainst request.record finalRecord request.terminalEvent = .ok ()
  event : validateNewJobEventWithPendingRecords inner request.terminalEvent
    { job := some finalRecord, toolResult := some request.toolResult,
      auditRecord := some request.auditRecord } = .ok ()

theorem recordToolResultAuditTerminal_eq_ok {stored : JobEvent × JobEvent × JobEvent} :
    recordToolResultAuditTerminalWithSubmitJobIdempotency request inner = .ok (stored, after) ↔
      ∃ finalRecord, TerminalAccepted inner request finalRecord ∧
        inner.terminalEvents request = stored ∧
        insertTerminalReceipt (inner.withTerminal request finalRecord) request finalRecord stored =
          .ok after ∧
        prepareJobEventPublish after [stored.1, stored.2.1, stored.2.2] = .ok () := by
  simp only [recordToolResultAuditTerminalWithSubmitJobIdempotency,
    mutateWithPublishedEvents_eq_ok, bind_eq_ok, exists_unit,
    validateSiblingEventIdsAreUnique_eq_ok, validateToolResultAndAudit_eq_ok,
    ensureEventSequenceCapacity_eq_ok, Prod.exists, pure_eq_ok, Prod.mk.injEq,
    appendEventLocked_eq_ok]
  constructor
  · rintro ⟨_, ⟨resultAudit, resultTerminal, auditTerminal, records, room, final, transition,
      update, event, _, _, _, written, _, _, ⟨_, rfl, rfl⟩, _, receipt, rfl, rfl, rfl⟩, published⟩
    obtain ⟨_, _, _, same, rfl⟩ := writeToolResultAndAudit_eq_ok.mp written
    obtain ⟨rfl, rfl⟩ := Prod.mk.inj same
    exact ⟨final, ⟨resultAudit, resultTerminal, auditTerminal, records, room, transition, update,
      event⟩, rfl, receipt, published⟩
  · rintro ⟨final, ⟨resultAudit, resultTerminal, auditTerminal, records, room, transition, update,
      event⟩, rfl, receipt, published⟩
    have roomWritten : inner.nextEventSequence + 2 ≤ maxSequence := by omega
    exact ⟨_, ⟨resultAudit, resultTerminal, auditTerminal, records, room, final, transition,
      update, event, _, _, _, records.written roomWritten, _, _, ⟨room, rfl, rfl⟩, _, receipt, rfl,
      rfl, rfl⟩, published⟩

end Terminal

end Atelia.Store
