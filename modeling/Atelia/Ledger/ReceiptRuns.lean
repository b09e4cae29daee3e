import Atelia.Ledger.Receipts
import Atelia.Store.Load

/-! Accepted receipts along whole runs. -/

namespace Atelia.Store

open Outcome

variable {inner before after : InMemoryInner} {events : List JobEvent} {event : JobEvent}
  {admits : JobRecord → Prop} {jobId : JobId} {operation : StoreOperation}

section Submitted

/-- The events an operation is given to append. -/
def StoreOperation.submittedEvents : StoreOperation → List JobEvent
  | .createJob _ initialEvent => [initialEvent]
  | .appendJobEvent event => [event]
  | .appendJobEventAndUpdateJob _ event => [event]
  | .appendJobEventAndUpdateJobWithSubmitJobIdempotency _ event _ _ => [event]
  | .appendJobEventsAndUpdateJob _ firstEvent _ finalEvent => [firstEvent, finalEvent]
  | .recordToolResultAndAuditWithEvents _ _ toolResultEvent _ auditEvent =>
    [toolResultEvent, auditEvent]
  | .recordToolResultAuditTerminal request =>
    [request.toolResultEvent, request.auditEvent, request.terminalEvent]
  | _ => []

/-- No event the operation is given belongs to the job. -/
def StoreOperation.Spares (inner : InMemoryInner) (jobId : JobId) (operation : StoreOperation) :
    Prop :=
  ∀ event ∈ operation.submittedEvents,
    submitJobReceiptEventBelongsToJob inner jobId event ≠ .ok true

/-- An appended event as it was submitted: it names a job, or else refers only to
records that were stored already. -/
def Published (before : InMemoryInner) (submitted published : JobEvent) : Prop :=
  (∃ number, published = { submitted with sequenceNumber := number }) ∧
    ((∃ id, submitted.refs.jobId = some id) ∨ ToolRefsStored before submitted)

private theorem published_of_update {record : JobRecord}
    (update : validateJobUpdate before record event = .ok ()) (number : Nat) :
    Published before event { event with sequenceNumber := number } := by
  obtain ⟨_, _, _, against⟩ := validateJobUpdate_eq_ok.mp update
  exact ⟨⟨number, rfl⟩, .inl ⟨_, (JobUpdate.of_validated against).eventJob⟩⟩

/-- The events that an operation appends are the ones it was given, numbered. -/
theorem StoreOperation.exec_published (succeeded : operation.exec before = .ok (after, events)) :
    List.Forall₂ (Published before) operation.submittedEvents events := by
  obtain ⟨_, ran, rfl⟩ := StoreOperation.exec_eq_ok.mp succeeded
  cases operation
  case createJob =>
    obtain ⟨⟨_, _, initial, _⟩, _, rfl, _⟩ := createJobWithInitialEvent_eq_ok.mp ran
    simp only [validateInitialEventForJob, bind_eq_ok, exists_unit, reject_eq_ok,
      not_not] at initial
    exact .cons ⟨⟨_, rfl⟩, .inl ⟨_, initial.2.1⟩⟩ .nil
  case appendJobEvent =>
    obtain ⟨checked, _, rfl, _⟩ := appendJobEvent_eq_ok.mp ran
    obtain ⟨_, _, links⟩ := validateNewJobEventWithPendingRecords_eq_ok.mp checked
    exact .cons ⟨⟨_, rfl⟩, .inr (.of_links links)⟩ .nil
  case appendJobEventAndUpdateJob =>
    obtain ⟨⟨update, _⟩, _, rfl, _⟩ := appendJobEventAndUpdateJob_eq_ok.mp ran
    exact .cons (published_of_update update _) .nil
  case appendJobEventAndUpdateJobWithSubmitJobIdempotency =>
    obtain ⟨⟨update, _⟩, _, rfl, _⟩ :=
      appendJobEventAndUpdateJobWithSubmitJobIdempotency_eq_ok.mp ran
    exact .cons (published_of_update update _) .nil
  case appendJobEventsAndUpdateJob =>
    obtain ⟨⟨_, _, update, _, final, _⟩, _, rfl, _⟩ := appendJobEventsAndUpdateJob_eq_ok.mp ran
    exact .cons (published_of_update update _)
      (.cons ⟨⟨_, rfl⟩, .inl ⟨_, (JobUpdate.of_validated final).eventJob⟩⟩ .nil)
  case recordToolResultAndAuditWithEvents =>
    obtain ⟨_, accepted, _, rfl, _⟩ := recordToolResultAndAuditWithEvents_eq_ok.mp ran
    exact .cons (published_of_update accepted.update _)
      (.cons (published_of_update accepted.auditUpdate _) .nil)
  case recordToolResultAuditTerminal =>
    obtain ⟨_, accepted, rfl, _⟩ := recordToolResultAuditTerminal_eq_ok.mp ran
    exact .cons (published_of_update accepted.records.update _)
      (.cons (published_of_update accepted.records.auditUpdate _)
        (.cons ⟨⟨_, rfl⟩, .inl ⟨_, (JobUpdate.of_validated accepted.update).eventJob⟩⟩ .nil))
  all_goals exact .nil

/-- Whether a submitted event belongs to a job can be asked before it is appended. -/
theorem Published.belongs_iff {submitted published : JobEvent} {log : List JobEvent}
    (same : Published before submitted published) (consistent : Consistent before log)
    (grown : Extends before after) (keyed : Keyed after) (sound : Sound after)
    (links : validateEventLinks after published {} = .ok ()) :
    submitJobReceiptEventBelongsToJob before jobId submitted ≠ .ok true ↔
      submitJobReceiptEventBelongsToJob after jobId published = .ok false := by
  obtain ⟨⟨number, rfl⟩, source⟩ := same
  have unnumbered : submitJobReceiptEventBelongsToJob after jobId
      { submitted with sequenceNumber := number } =
        submitJobReceiptEventBelongsToJob after jobId submitted := rfl
  obtain ⟨answer, decided⟩ :=
    belongs_total (ToolRefsStored.of_links links) sound.tools.audits jobId
  constructor
  · intro spared
    cases answer with
    | false => exact decided
    | true =>
      refine absurd ?_ spared
      rcases source with ⟨id, named⟩ | stored
      · have same := job_of_belongs keyed links named decided
        exact belongs_of_jobRef (same ▸ named)
      · obtain ⟨earlier, asked⟩ := belongs_total stored consistent.sound.tools.audits jobId
        rw [asked]
        have kept := belongs_persists grown asked
        rw [← unnumbered, decided] at kept
        exact kept.symm
  · intro no yes
    have kept := belongs_persists grown yes
    rw [← unnumbered, no] at kept
    simp at kept

private theorem spared_iff {submitted published : List JobEvent} {log : List JobEvent}
    (same : List.Forall₂ (Published before) submitted published)
    (consistent : Consistent before log) (grown : Extends before after) (keyed : Keyed after)
    (sound : Sound after)
    (linked : ∀ event ∈ published, validateEventLinks after event {} = .ok ()) :
    (∀ event ∈ submitted, submitJobReceiptEventBelongsToJob before jobId event ≠ .ok true) ↔
      ∀ event ∈ published, submitJobReceiptEventBelongsToJob after jobId event = .ok false := by
  induction same with
  | nil => simp
  | cons first _ ih =>
    rw [List.forall_mem_cons] at linked ⊢
    rw [List.forall_mem_cons]
    exact and_congr (first.belongs_iff consistent grown keyed sound linked.1) (ih linked.2)

end Submitted

section Runs

variable {key : String} {record : SubmitJobIdempotencyRecord} {log : List JobEvent}

theorem validateSubmitJobIdempotencyRecord_later (consistent : Consistent before log)
    (commits : Commits admits before events after)
    (valid : validateSubmitJobIdempotencyRecord before key record = .ok ()) :
    validateSubmitJobIdempotencyRecord after key record = .ok () ↔ ∀ event ∈ events,
      submitJobReceiptEventBelongsToJob after record.receipt.job.id event = .ok false := by
  simp only [validateSubmitJobIdempotencyRecord, bind_eq_ok, exists_unit] at valid ⊢
  obtain ⟨keyShown, signed, succeeded, receipt⟩ := valid
  rw [← validateLoadedSubmitJobReceipt_later consistent commits receipt]
  exact ⟨fun later => later.2.2.2, fun later => ⟨keyShown, signed, succeeded, later⟩⟩

/-- One operation keeps a receipt valid exactly when it spares its job. -/
theorem StoreOperation.exec_receipt_iff (consistent : Consistent before log)
    (succeeded : operation.exec before = .ok (after, events))
    (valid : validateSubmitJobIdempotencyRecord before key record = .ok ()) :
    validateSubmitJobIdempotencyRecord after key record = .ok () ↔
      operation.Spares before record.receipt.job.id := by
  have commits := StoreOperation.exec_commits consistent.keyed operation.admitted_any succeeded
  have grown := commits.extends consistent.keyed
  have resulting := commits.consistent consistent
  rw [validateSubmitJobIdempotencyRecord_later consistent commits valid, StoreOperation.Spares]
  have linked : ∀ event ∈ events, validateEventLinks after event {} = .ok () := by
    intro event member
    have stored := (resulting.logged.stored event).mp (List.mem_append_right log member)
    exact (resulting.sound.events _ _ stored).links
  exact (spared_iff (StoreOperation.exec_published succeeded) consistent grown resulting.keyed
    resulting.sound linked).symm

/-- Every operation of a run spares the job. -/
abbrev SparesAll (jobId : JobId) : InMemoryInner → List StoreOperation → Prop :=
  AlongRun fun inner operation => operation.Spares inner jobId

variable {operations : List StoreOperation}

theorem runOperations_commits (keyed : Keyed before)
    (ran : runOperations before operations = .ok after) :
    ∃ events, Commits (fun _ => True) before events after := by
  induction operations generalizing before with
  | nil =>
    obtain rfl := Except.ok.inj ran
    exact ⟨[], .none _⟩
  | cons operation rest ih =>
    rw [runOperations, bind_eq_ok] at ran
    obtain ⟨⟨next, events⟩, succeeded, ran⟩ := ran
    have commits := StoreOperation.exec_commits keyed operation.admitted_any succeeded
    obtain ⟨later, rest⟩ := ih (commits.keyed keyed) ran
    exact ⟨events ++ later, commits.trans rest⟩

/-- A receipt that is valid at the end of a chain was valid after every part of it. -/
private theorem valid_of_later {later : List JobEvent} {last : InMemoryInner}
    (consistent : Consistent before log) (first : Commits admits before events after)
    (rest : Commits admits after later last)
    (valid : validateSubmitJobIdempotencyRecord before key record = .ok ())
    (validLast : validateSubmitJobIdempotencyRecord last key record = .ok ()) :
    validateSubmitJobIdempotencyRecord after key record = .ok () := by
  have middle := first.consistent consistent
  have spared := (validateSubmitJobIdempotencyRecord_later consistent (first.trans rest) valid).mp
    validLast
  refine (validateSubmitJobIdempotencyRecord_later consistent first valid).mpr ?_
  intro event member
  have stored := (middle.logged.stored event).mp (List.mem_append_right log member)
  have links := (middle.sound.events _ _ stored).links
  obtain ⟨answer, decided⟩ := belongs_total (ToolRefsStored.of_links links)
    middle.sound.tools.audits record.receipt.job.id
  have kept := belongs_persists (rest.extends middle.keyed) decided
  rw [spared event (List.mem_append_left _ member), Except.ok.injEq] at kept
  rw [decided, kept]

/-- A receipt is valid at the end of a run exactly when the run spares its job. -/
theorem runOperations_receipt_iff (consistent : Consistent before log)
    (ran : runOperations before operations = .ok after)
    (valid : validateSubmitJobIdempotencyRecord before key record = .ok ()) :
    validateSubmitJobIdempotencyRecord after key record = .ok () ↔
      SparesAll record.receipt.job.id before operations := by
  induction operations generalizing before log with
  | nil =>
    obtain rfl := Except.ok.inj ran
    simp [AlongRun, valid]
  | cons operation rest ih =>
    rw [runOperations, bind_eq_ok] at ran
    obtain ⟨⟨next, events⟩, succeeded, ran⟩ := ran
    have commits := StoreOperation.exec_commits consistent.keyed operation.admitted_any succeeded
    have middle := commits.consistent consistent
    have step := StoreOperation.exec_receipt_iff consistent succeeded valid
    constructor
    · intro validAfter
      obtain ⟨_, later⟩ := runOperations_commits middle.keyed ran
      have validNext := valid_of_later consistent commits later valid validAfter
      refine ⟨step.mp validNext, ?_⟩
      intro other published same
      obtain ⟨rfl, rfl⟩ := Prod.mk.inj (Except.ok.inj (succeeded.symm.trans same))
      exact (ih middle ran validNext).mp validAfter
    · rintro ⟨spares, others⟩
      exact (ih middle ran (step.mpr spares)).mpr (others next events succeeded)

private theorem collectReceiptEvents_receipts {latest : JobEventId} {ids : List JobEventId}
    {found : Bool} (receipts : Table String SubmitJobIdempotencyRecord) :
    collectReceiptEvents { inner with idempotentSubmitJobs := receipts } jobId latest ids found =
      collectReceiptEvents inner jobId latest ids found := by
  induction ids generalizing found with
  | nil => rfl
  | cons id rest ih =>
    simp only [collectReceiptEvents, ih]
    rfl

/-- The checks of a receipt do not read the stored receipts. -/
theorem validateSubmitJobIdempotencyRecord_receipts
    (receipts : Table String SubmitJobIdempotencyRecord) :
    validateSubmitJobIdempotencyRecord { inner with idempotentSubmitJobs := receipts } key record =
      validateSubmitJobIdempotencyRecord inner key record := by
  simp only [validateSubmitJobIdempotencyRecord, validateLoadedSubmitJobReceipt,
    validateLoadedSubmitJobReceiptEventChain, expectedSubmitJobReceiptEvents,
    collectReceiptEvents_receipts]
  rfl

/-- A record that is new under its key has been checked. -/
private theorem valid_of_inserted {draft : InMemoryInner} {otherKey : String}
    {other : SubmitJobIdempotencyRecord}
    (inserted : insertSubmitJobIdempotencyLocked draft otherKey other = .ok after)
    (fresh : draft.idempotentSubmitJobs[key]? = none)
    (stored : after.idempotentSubmitJobs[key]? = some record) :
    validateSubmitJobIdempotencyRecord after key record = .ok () := by
  obtain ⟨checked, ⟨_, rfl⟩ | ⟨_, rfl⟩⟩ := insertSubmitJobIdempotencyLocked_eq_ok.mp inserted
  · simp [fresh] at stored
  · by_cases same : otherKey = key
    · subst same
      have new := (Table.lookup_insert_same draft.idempotentSubmitJobs otherKey other).symm.trans stored
      obtain rfl := Option.some.inj new
      rw [validateSubmitJobIdempotencyRecord_receipts]
      exact checked
    · have kept := (Table.lookup_insert_other same).symm.trans stored
      simp [fresh] at kept

/-- The record that an operation stores under a new key is valid. -/
theorem StoreOperation.exec_accepts (succeeded : operation.exec before = .ok (after, events))
    (fresh : before.idempotentSubmitJobs[key]? = none)
    (stored : after.idempotentSubmitJobs[key]? = some record) :
    validateSubmitJobIdempotencyRecord after key record = .ok () := by
  have unchanged (same : after.idempotentSubmitJobs = before.idempotentSubmitJobs) :
      validateSubmitJobIdempotencyRecord after key record = .ok () := by
    simp [same, fresh] at stored
  obtain ⟨_, ran, rfl⟩ := StoreOperation.exec_eq_ok.mp succeeded
  cases operation
  case createRepository => exact unchanged ((createRepository_eq_ok.mp ran).2 ▸ rfl)
  case createJob => exact unchanged ((createJobWithInitialEvent_eq_ok.mp ran).2.2.2.1 ▸ rfl)
  case appendJobEvent => exact unchanged ((appendJobEvent_eq_ok.mp ran).2.2.2.1 ▸ rfl)
  case appendJobEventAndUpdateJob =>
    exact unchanged ((appendJobEventAndUpdateJob_eq_ok.mp ran).2.2.2.1 ▸ rfl)
  case appendJobEventAndUpdateJobWithSubmitJobIdempotency =>
    obtain ⟨_, _, _, receipt, _⟩ :=
      appendJobEventAndUpdateJobWithSubmitJobIdempotency_eq_ok.mp ran
    exact valid_of_inserted receipt fresh stored
  case appendJobEventsAndUpdateJob =>
    exact unchanged ((appendJobEventsAndUpdateJob_eq_ok.mp ran).2.2.2.1 ▸ rfl)
  case createPolicyDecision => exact unchanged ((createPolicyDecision_eq_ok.mp ran).2.2.2 ▸ rfl)
  case createLockDecision => exact unchanged ((createLockDecision_eq_ok.mp ran).2 ▸ rfl)
  case createSchemaMigration =>
    replace ran : Store.createSchemaMigration _ before = .ok (_, after) := ran
    simp only [Store.createSchemaMigration, bind_eq_ok, exists_unit, pure_eq_ok] at ran
    obtain ⟨_, _, _, _, _, rfl⟩ := ran
    exact unchanged rfl
  case acquireSchemaMigrationLock =>
    replace ran : Store.acquireSchemaMigrationLock _ _ _ _ _ before = .ok (_, after) := ran
    simp only [Store.acquireSchemaMigrationLock, bind_eq_ok, exists_unit, pure_eq_ok] at ran
    obtain ⟨_, _, _, _, _, _, rfl⟩ := ran
    exact unchanged rfl
  case getSchemaMigrationLock =>
    obtain ⟨_, rfl⟩ := Prod.mk.inj (pure_eq_ok.mp ran)
    exact unchanged rfl
  case releaseSchemaMigrationLock =>
    replace ran : Store.releaseSchemaMigrationLock _ _ _ before = .ok (_, after) := ran
    simp only [Store.releaseSchemaMigrationLock, bind_eq_ok, pure_eq_ok] at ran
    obtain ⟨_, _, _, _, _, rfl⟩ := ran
    exact unchanged rfl
  case createToolInvocation => exact unchanged ((createToolInvocation_eq_ok.mp ran).2.2 ▸ rfl)
  case createToolResult => exact unchanged ((createToolResult_eq_ok.mp ran).2.2 ▸ rfl)
  case createAuditRecord => exact unchanged ((createAuditRecord_eq_ok.mp ran).2.2 ▸ rfl)
  case recordSubmitJobIdempotency =>
    exact valid_of_inserted (recordSubmitJobIdempotency_eq_ok.mp ran) fresh stored
  case recordToolResultAndAuditWithEvents =>
    exact unchanged ((recordToolResultAndAuditWithEvents_eq_ok.mp ran).2.2.2.2.1 ▸ rfl)
  case recordToolResultAuditTerminal =>
    obtain ⟨_, _, _, receipt, _⟩ := recordToolResultAuditTerminal_eq_ok.mp ran
    unfold insertTerminalReceipt at receipt
    split at receipt
    · exact unchanged (Except.ok.inj receipt ▸ rfl)
    · exact valid_of_inserted receipt fresh stored

/-- A record that has been accepted under its key stays valid along every run of
operations that spare its job, and no other. -/
theorem accepted_receipt_valid_iff {operation : StoreOperation} {accepted : InMemoryInner}
    (reachable : Reachable before)
    (succeeded : operation.exec before = .ok (accepted, events))
    (fresh : before.idempotentSubmitJobs[key]? = none)
    (stored : accepted.idempotentSubmitJobs[key]? = some record)
    {operations : List StoreOperation} (ran : runOperations accepted operations = .ok after) :
    validateSubmitJobIdempotencyRecord after key record = .ok () ↔
      SparesAll record.receipt.job.id accepted operations := by
  obtain ⟨_, consistent⟩ := Reachable.consistent (reachable.tail ⟨operation, events, succeeded⟩)
  exact runOperations_receipt_iff consistent ran
    (StoreOperation.exec_accepts succeeded fresh stored)

end Runs

section Completed

/-! A run that completes a job and records its receipt. -/

def exampleDecision : PolicyDecision where
  id := .new _ (.ofNat 0)
  schemaVersion := runtimeSchemaVersion
  createdAt := ⟨0⟩
  requester := exampleJob.requester
  repositoryId := exampleRepository.id
  requestedCapability := "filesystem.read"
  resourceScope := ⟨"path", "."⟩
  toolId := none
  providerId := none
  declaredEffect := "read"
  currentTrustState := .trusted
  approvalAvailable := false
  policyVersion := "v0"
  outcome := .allowed
  riskTier := .r0
  reasonCode := "allowed"
  userReason := "allowed"
  approvalRequestRef := none
  auditRef := none
  redactions := []

def exampleReceipt : RuntimeJobReceipt where
  job := { (submittedExample.withStatus .running ⟨1⟩).withStatus .succeeded ⟨2⟩ with
    latestEventId := some (exampleEvent 2 .message).id }
  policyDecision := exampleDecision
  toolInvocation := none
  toolResult := none
  renderedOutput := none
  auditRecord := none
  events := [{ exampleEvent 0 .jobSubmitted with sequenceNumber := 1 },
    { exampleEvent 1 (.jobStatusChanged .queued .running) with sequenceNumber := 2 },
    { exampleEvent 2 (.jobStatusChanged .running .succeeded) with sequenceNumber := 3 }]

def recordExample : StoreOperation :=
  .recordSubmitJobIdempotency "key" ⟨"signature", exampleReceipt⟩

def exampleCompletion : List StoreOperation :=
  exampleSubmission ++ [runAndComplete, .createPolicyDecision exampleDecision]

def exampleRecord : SubmitJobIdempotencyRecord :=
  ⟨"signature", exampleReceipt⟩

/-- Whether the receipt is accepted, is accepted again after an event of the repository
and becomes invalid by an event of its job. -/
private def breaksExample (before : InMemoryInner) : Bool :=
  match StoreOperation.exec before recordExample with
  | .error _ => false
  | .ok (accepted, _) =>
    match runOperations accepted [repositoryNotice 3], runOperations accepted [jobNotice 3] with
    | .ok spared, .ok broken => before.idempotentSubmitJobs["key"]? = none &&
        accepted.idempotentSubmitJobs["key"]? = some exampleRecord &&
        (recordExample.exec spared).isOk &&
        !(validateSubmitJobIdempotencyRecord broken "key" exampleRecord).isOk
    | _, _ => false

private theorem breaksExample_reached : reaches exampleCompletion breaksExample = true := by
  decide +kernel

private theorem example_breaks :
    ∃ before accepted spared broken events, ReachableByNewJobs before ∧
      recordExample.exec before = .ok (accepted, events) ∧
      before.idempotentSubmitJobs["key"]? = none ∧
      accepted.idempotentSubmitJobs["key"]? = some exampleRecord ∧
      runOperations accepted [repositoryNotice 3] = .ok spared ∧
      runOperations accepted [jobNotice 3] = .ok broken ∧
      (∃ again, recordExample.exec spared = .ok again) ∧
      validateSubmitJobIdempotencyRecord broken "key" exampleRecord ≠ .ok () := by
  have admitted : ∀ operation ∈ exampleCompletion, operation.Admitted JobRecord.IsNew :=
    List.forall_mem_append.mpr ⟨exampleSubmission_admitted, by
      simp [StoreOperation.Admitted, runAndComplete]⟩
  obtain ⟨before, reachable, breaks⟩ := ReachableByNewJobs.of_reaches admitted breaksExample_reached
  unfold breaksExample at breaks
  split at breaks
  · exact absurd breaks Bool.false_ne_true
  · rename_i accepted events succeeded
    split at breaks
    · rename_i spared broken ranSpared ranBroken
      simp only [Bool.and_eq_true, decide_eq_true_eq, Bool.not_eq_true'] at breaks
      obtain ⟨⟨⟨fresh, stored⟩, again⟩, invalid⟩ := breaks
      refine ⟨before, accepted, spared, broken, events, reachable, succeeded, fresh, stored,
        ranSpared, ranBroken, isOk_iff.mp again, ?_⟩
      intro checked
      simp [checked, Except.isOk, Except.toBool] at invalid
    · exact absurd breaks Bool.false_ne_true

/-- A notice about the repository keeps the receipt of a completed job valid. -/
theorem repository_notice_spares_receipt :
    ∃ before accepted after events, Reachable before ∧
      recordExample.exec before = .ok (accepted, events) ∧
      runOperations accepted [repositoryNotice 3] = .ok after ∧
      SparesAll exampleReceipt.job.id accepted [repositoryNotice 3] := by
  obtain ⟨before, accepted, spared, _, events, reached, succeeded, fresh, stored, ran, _,
    ⟨_, again⟩, _⟩ := example_breaks
  obtain ⟨_, again, _⟩ := StoreOperation.exec_eq_ok.mp again
  obtain ⟨valid, _⟩ :=
    insertSubmitJobIdempotencyLocked_eq_ok.mp (recordSubmitJobIdempotency_eq_ok.mp again)
  exact ⟨before, accepted, spared, events, reached.reachable, succeeded, ran,
    (accepted_receipt_valid_iff reached.reachable succeeded fresh stored ran).mp valid⟩

/-- A notice about a completed job is accepted, makes its stored receipt invalid
and with it the ledger. -/
theorem job_notice_breaks_receipt :
    ∃ before accepted after, ∃ (key : String) (record : SubmitJobIdempotencyRecord),
      ReachableByNewJobs before ∧ before.idempotentSubmitJobs[key]? = none ∧
      AdmittedStep JobRecord.IsNew before accepted ∧
      accepted.idempotentSubmitJobs[key]? = some record ∧
      AdmittedStep JobRecord.IsNew accepted after ∧
      validateSubmitJobIdempotencyRecord after key record ≠ .ok () ∧
      validateLoadedStore after ≠ .ok () := by
  obtain ⟨before, accepted, _, broken, events, reached, succeeded, fresh, stored, _, ran, _,
    invalid⟩ := example_breaks
  rw [runOperations, bind_eq_ok] at ran
  obtain ⟨⟨after, appended⟩, notified, rest⟩ := ran
  obtain rfl := Except.ok.inj rest
  have kept := (Run.extends (reached.reachable.tail ⟨_, events, succeeded⟩)
    (.single ⟨jobNotice 3, appended, notified⟩)).idempotentSubmitJobs.lookup stored
  refine ⟨before, accepted, after, "key", exampleRecord, reached, fresh,
    ⟨recordExample, events, trivial, succeeded⟩, stored,
    ⟨jobNotice 3, appended, trivial, notified⟩, invalid, ?_⟩
  intro loaded
  simp only [validateLoadedStore, bind_eq_ok, exists_unit, checkAll_eq_ok] at loaded
  obtain ⟨_, _, _, _, _, _, _, _, _, _, _, receipts, _⟩ := loaded
  exact invalid (receipts ("key", exampleRecord)
    (Std.ExtTreeMap.mem_toList_iff_getElem?_eq_some.mpr kept))

end Completed

section Keys

variable {key : String} {record : SubmitJobIdempotencyRecord}

/-- The key that an operation is given to bind. -/
def StoreOperation.receiptKey : StoreOperation → Option String
  | .recordSubmitJobIdempotency key _ => some key
  | .appendJobEventAndUpdateJobWithSubmitJobIdempotency _ _ key _ => some key
  | .recordToolResultAuditTerminal request => request.idempotency.map (·.1)
  | _ => none

theorem latest_of_valid (valid : validateSubmitJobIdempotencyRecord inner key record = .ok ())
    {id : JobEventId} (latest : record.receipt.job.latestEventId = some id) :
    ∃ event, inner.jobEventsById[id]? = some event := by
  simp only [validateSubmitJobIdempotencyRecord, validateLoadedSubmitJobReceipt, bind_eq_ok,
    exists_unit, reject_eq_ok, checkAll_eq_ok, okOr_eq_ok, not_not] at valid
  obtain ⟨_, _, _, _, _, _, _, _, _, _, _, _, stored, ends⟩ := valid
  rw [latest, eq_comm, Option.map_eq_some_iff] at ends
  obtain ⟨last, ends, rfl⟩ := ends
  obtain ⟨event, found, _⟩ := stored last (List.mem_of_getLast? ends)
  exact ⟨event, found⟩

theorem bound_of_inserted {other : SubmitJobIdempotencyRecord}
    (inserted : insertSubmitJobIdempotencyLocked inner key other = .ok after)
    (bound : inner.idempotentSubmitJobs[key]? = some record) : other = record ∧ after = inner := by
  obtain ⟨_, ⟨found, rfl⟩ | ⟨fresh, _⟩⟩ := insertSubmitJobIdempotencyLocked_eq_ok.mp inserted
  · exact ⟨Option.some.inj (found.symm.trans bound), rfl⟩
  · simp [bound] at fresh

/-- Once a key is bound its receipt never changes, and an operation that is later given
the key is refused, or brings the same receipt again and changes nothing. -/
theorem receipt_key_bound_once {operation : StoreOperation} {accepted : InMemoryInner}
    (reachable : Reachable before) (succeeded : operation.exec before = .ok (accepted, events))
    (fresh : getSubmitJobIdempotency before key = none)
    (bound : getSubmitJobIdempotency accepted key = some record) (run : Run accepted after) :
    getSubmitJobIdempotency after key = some record ∧
      ∀ again : StoreOperation, again.receiptKey = some key → ∀ answer,
        again.exec after = .ok answer →
          again = .recordSubmitJobIdempotency key record ∧ answer = (after, []) := by
  have grown := Run.extends (reachable.tail ⟨_, _, succeeded⟩) run
  have kept := grown.idempotentSubmitJobs.lookup bound
  -- a receipt that is stored together with an event has that event as its latest
  have known {id : JobEventId} (unused : after.jobEventsById[id]? = none) :
      record.receipt.job.latestEventId ≠ some id := by
    intro latest
    have valid := StoreOperation.exec_accepts succeeded fresh bound
    obtain ⟨_, stored⟩ := latest_of_valid valid latest
    simp [grown.jobEvents.lookup stored] at unused
  refine ⟨kept, ?_⟩
  rintro again binds ⟨_, _⟩ done
  obtain ⟨_, ran, rfl⟩ := StoreOperation.exec_eq_ok.mp done
  cases again <;>
    simp only [StoreOperation.receiptKey, reduceCtorEq, Option.some.injEq,
      Option.map_eq_some_iff] at binds
  case recordSubmitJobIdempotency =>
    obtain rfl := binds
    obtain ⟨rfl, rfl⟩ := bound_of_inserted (recordSubmitJobIdempotency_eq_ok.mp ran) kept
    exact ⟨rfl, rfl⟩
  case appendJobEventAndUpdateJobWithSubmitJobIdempotency =>
    obtain rfl := binds
    obtain ⟨⟨_, checked⟩, _, rfl, inserted, _⟩ :=
      appendJobEventAndUpdateJobWithSubmitJobIdempotency_eq_ok.mp ran
    obtain ⟨rfl, _⟩ := bound_of_inserted inserted kept
    exact absurd rfl (known (validateNewJobEventWithPendingRecords_eq_ok.mp checked).1)
  case recordToolResultAuditTerminal =>
    obtain ⟨_, asked, rfl⟩ := binds
    obtain ⟨_, written, same, inserted, _⟩ := recordToolResultAuditTerminal_eq_ok.mp ran
    rw [← same, insertTerminalReceipt, asked] at inserted
    obtain ⟨rfl, _⟩ := bound_of_inserted inserted kept
    exact absurd rfl (known (validateNewJobEventWithPendingRecords_eq_ok.mp written.event).1)

/-- The key of a completed job stays bound to its receipt after a further event, and the
same receipt is accepted again. -/
theorem completed_key_bound :
    ∃ before accepted after events, Reachable before ∧
      recordExample.exec before = .ok (accepted, events) ∧
      runOperations accepted [repositoryNotice 3] = .ok after ∧
      getSubmitJobIdempotency after "key" = some exampleRecord ∧
      recordExample.exec after = .ok (after, []) ∧
      ∀ again : StoreOperation, again.receiptKey = some "key" → ∀ answer,
        again.exec after = .ok answer → again = recordExample ∧ answer = (after, []) := by
  obtain ⟨before, accepted, after, _, events, reached, succeeded, fresh, bound, ran, _,
    ⟨answer, again⟩, _⟩ := example_breaks
  obtain ⟨kept, only⟩ :=
    receipt_key_bound_once reached.reachable succeeded fresh bound (.of_operations ran)
  obtain ⟨_, rfl⟩ := only recordExample rfl answer again
  exact ⟨before, accepted, after, events, reached.reachable, succeeded, ran, kept, again, only⟩

end Keys

end Atelia.Store
