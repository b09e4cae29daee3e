import Atelia.Ledger.EventLinks
import Atelia.Store.Effects

/-! Elementary commits. -/

namespace Atelia.Store

open Outcome

/-- What has been checked of an event appended by a commit. -/
structure Appended (before after : InMemoryInner) (event : JobEvent) : Prop where
  fresh : before.jobEventsById[event.id]? = none
  room : before.nextEventSequence + 1 ≤ maxSequence
  subject : event.subject.hasValidSubjectId = true
  links : validateEventLinks after event {} = .ok ()

/-- One elementary change of the ledger, with the event it appends. A job is
created from a record of the admitted ones. -/
inductive Commit (admits : JobRecord → Prop) (before : InMemoryInner) :
    List JobEvent → InMemoryInner → Prop where
  | createRepository {record : RepositoryRecord} (accepted : RepositoryAccepted before record) :
    Commit admits before [] (before.withRepository record)
  | createJob {record : JobRecord} {event : JobEvent} (admitted : admits record)
      (repository : before.repositories.contains record.repositoryId = true)
      (fresh : before.jobs[record.id]? = none)
      (initial : validateInitialEventForJob record event = .ok ())
      (appended : Appended before (before.withJobEvent record event) event) :
    Commit admits before [before.numbered event] (before.withJobEvent record event)
  | appendEvent {event : JobEvent} (appended : Appended before (before.withEvent event) event) :
    Commit admits before [before.numbered event] (before.withEvent event)
  | updateJob {existing record : JobRecord} {event : JobEvent}
      (found : before.jobs[record.id]? = some existing)
      (update : JobUpdate existing record event)
      (appended : Appended before (before.withJobEvent record event) event) :
    Commit admits before [before.numbered event] (before.withJobEvent record event)
  | createPolicyDecision {record : PolicyDecision}
      (repository : before.repositories.contains record.repositoryId = true)
      (scope : validateRootScopedBlock before record = .ok ())
      (fresh : before.policyDecisions[record.id]? = none) :
    Commit admits before [] (before.withPolicyDecision record)
  | createLockDecision {record : LockDecision} (accepted : LockAccepted before record) :
    Commit admits before [] (before.withLockDecision record)
  | expireMigrationLocks (now : LedgerTimestamp) :
    Commit admits before [] (expireSchemaMigrationLocks before now)
  | createSchemaMigration {record : SchemaMigrationRecord}
      (valid : validateSchemaMigrationRecord record = .ok ())
      (unlocked : record.isMigrationLock = true →
        ∀ other ∈ before.schemaMigrations.records, other.holdsLock = false)
      (fresh : before.schemaMigrations[record.id]? = none) :
    Commit admits before []
      { before with schemaMigrations := before.schemaMigrations.insert record.id record }
  | releaseMigrationLock {id : SchemaMigrationId} {record released : SchemaMigrationRecord}
      {leaderId : String} {releasedAt : LedgerTimestamp}
      (found : before.schemaMigrations[id]? = some record)
      (release : Store.releaseMigrationLock id record leaderId releasedAt = .ok released) :
    Commit admits before []
      { before with schemaMigrations := before.schemaMigrations.insert id released }
  | createToolInvocation {record : ToolInvocation}
      (checked : validateToolInvocationRefs before record = .ok ())
      (fresh : before.toolInvocations[record.id]? = none) :
    Commit admits before [] (before.withToolInvocation record)
  | createToolResult {record : ToolResult}
      (checked : validateToolResultRefs before record = .ok ())
      (fresh : before.toolResults[record.id]? = none) :
    Commit admits before [] (before.withToolResult record)
  | createAuditRecord {record : AuditRecord}
      (checked : validateAuditRecordRefs before record = .ok ())
      (fresh : before.auditRecords[record.id]? = none) :
    Commit admits before [] (before.withAuditRecord record)
  | recordReceipt {key : String} {record : SubmitJobIdempotencyRecord}
      (checked : validateSubmitJobIdempotencyRecord before key record = .ok ())
      (fresh : before.idempotentSubmitJobs[key]? = none) :
    Commit admits before []
      { before with idempotentSubmitJobs := before.idempotentSubmitJobs.insert key record }

/-- A chain of commits with the events it appends, in order. -/
inductive Commits (admits : JobRecord → Prop) :
    InMemoryInner → List JobEvent → InMemoryInner → Prop where
  | none (inner : InMemoryInner) : Commits admits inner [] inner
  | next {before middle after : InMemoryInner} {events later : List JobEvent}
      (first : Commit admits before events middle) (rest : Commits admits middle later after) :
    Commits admits before (events ++ later) after

variable {admits : JobRecord → Prop} {events : List JobEvent}

theorem Commit.once {before after : InMemoryInner} (commit : Commit admits before events after) :
    Commits admits before events after :=
  List.append_nil events ▸ .next commit (.none after)

theorem Commits.trans {before middle after : InMemoryInner} {later : List JobEvent}
    (first : Commits admits before events middle) (second : Commits admits middle later after) :
    Commits admits before (events ++ later) after := by
  induction first with
  | none => exact second
  | next commit _ ih =>
    rw [List.append_assoc]
    exact .next commit (ih second)

variable {event : JobEvent} {record existing : JobRecord} {leaderId : String}

section Growth

variable {before after : InMemoryInner}

theorem Extends.withEvent (fresh : before.jobEventsById[event.id]? = none) :
    Extends before (before.withEvent event) :=
  { Extends.refl before with jobEvents := .insert_fresh (fun _ => rfl) fresh _ }

theorem Extends.withJob
    (same : ∀ existing, before.jobs[record.id]? = some existing → SameJob existing record) :
    Extends before (before.withJob record) := by
  refine { Extends.refl before with jobs := ?_ }
  cases found : before.jobs[record.id]? with
  | none => exact .insert_fresh SameJob.refl found _
  | some existing => exact .insert_update SameJob.refl found (same existing found)

theorem Extends.withJobEvent (fresh : before.jobEventsById[event.id]? = none)
    (same : ∀ existing, before.jobs[record.id]? = some existing → SameJob existing record) :
    Extends before (before.withJobEvent record event) :=
  (Extends.withEvent fresh).trans (.withJob same)

/-- The job an update replaces is the job it was computed for. -/
theorem JobUpdate.same (keyed : Keyed before) (update : JobUpdate existing record event)
    (found : before.jobs[record.id]? = some existing) :
    ∀ stored, before.jobs[record.id]? = some stored → SameJob stored record := by
  intro stored foundStored
  rw [found, Option.some.injEq] at foundStored
  subst foundStored
  exact ⟨(keyed.jobs _ _ found).symm, update.repositoryId⟩

theorem Extends.withToolResult {record : ToolResult}
    (fresh : before.toolResults[record.id]? = none) :
    Extends before (before.withToolResult record) :=
  { Extends.refl before with toolResults := .insert_fresh (fun _ => rfl) fresh _ }

theorem Extends.withAuditRecord {record : AuditRecord}
    (fresh : before.auditRecords[record.id]? = none) :
    Extends before (before.withAuditRecord record) :=
  { Extends.refl before with auditRecords := .insert_fresh (fun _ => rfl) fresh _ }

theorem Keyed.empty : Keyed .empty where
  repositories := .empty
  jobs := .empty
  jobEvents := .empty
  policyDecisions := .empty
  lockDecisions := .empty
  schemaMigrations := .empty
  toolInvocations := .empty
  toolResults := .empty
  auditRecords := .empty

theorem Keyed.withJobEvent (keyed : Keyed before) (record : JobRecord) (event : JobEvent) :
    Keyed (before.withJobEvent record event) :=
  { keyed with jobs := keyed.jobs.insert rfl, jobEvents := keyed.jobEvents.insert rfl }

theorem Keyed.withToolResult (keyed : Keyed before) (record : ToolResult) :
    Keyed (before.withToolResult record) :=
  { keyed with toolResults := keyed.toolResults.insert rfl }

theorem Keyed.withAuditRecord (keyed : Keyed before) (record : AuditRecord) :
    Keyed (before.withAuditRecord record) :=
  { keyed with auditRecords := keyed.auditRecords.insert rfl }

theorem expireMigrationLock_id (now : LedgerTimestamp) (record : SchemaMigrationRecord) :
    (expireMigrationLock now record).id = record.id := by
  unfold expireMigrationLock
  cases record.migrationLock with
  | none => rfl
  | some lock =>
    dsimp only
    split <;> rfl

theorem expireSchemaMigrationLocks_lookup (inner : InMemoryInner) (now : LedgerTimestamp)
    (id : SchemaMigrationId) : (expireSchemaMigrationLocks inner now).schemaMigrations[id]? =
      inner.schemaMigrations[id]?.map (expireMigrationLock now) := by
  simp [expireSchemaMigrationLocks, Std.ExtTreeMap.getElem?_map]

theorem releaseMigrationLock_id {id : SchemaMigrationId} {record released : SchemaMigrationRecord}
    {releasedAt : LedgerTimestamp}
    (release : releaseMigrationLock id record leaderId releasedAt = .ok released) :
    released.id = record.id := by
  simp only [releaseMigrationLock, bind_eq_ok, exists_unit] at release
  obtain ⟨_, lock, _, _, release⟩ := release
  cases state : lock.status <;> simp only [state] at release
  · simp only [bind_eq_ok, exists_unit, pure_eq_ok] at release
    exact release.2 ▸ rfl
  · exact pure_eq_ok.mp release ▸ rfl
  · simp at release

/-- A commit retains every record. -/
theorem Commit.extends (commit : Commit admits before events after) (keyed : Keyed before) :
    Extends before after := by
  cases commit with
  | createRepository accepted =>
    exact { Extends.refl before with
      repositories := .insert_fresh (fun _ => rfl) accepted.fresh _ }
  | createJob _ _ fresh _ appended =>
    exact .withJobEvent appended.fresh (by simp [fresh])
  | appendEvent appended => exact .withEvent appended.fresh
  | updateJob found update appended => exact .withJobEvent appended.fresh (update.same keyed found)
  | createPolicyDecision _ _ fresh =>
    exact { Extends.refl before with policyDecisions := .insert_fresh (fun _ => rfl) fresh _ }
  | createLockDecision accepted =>
    exact { Extends.refl before with
      lockDecisions := .insert_fresh (fun _ => rfl) accepted.fresh _ }
  | expireMigrationLocks | createSchemaMigration | releaseMigrationLock =>
    exact { Extends.refl before with }
  | createToolInvocation _ fresh =>
    exact { Extends.refl before with toolInvocations := .insert_fresh (fun _ => rfl) fresh _ }
  | createToolResult _ fresh => exact .withToolResult fresh
  | createAuditRecord _ fresh => exact .withAuditRecord fresh
  | recordReceipt _ fresh =>
    exact { Extends.refl before with
      idempotentSubmitJobs := .insert_fresh (fun _ => rfl) fresh _ }

/-- A commit stores every record under its own identifier. -/
theorem Commit.keyed (commit : Commit admits before events after) (keyed : Keyed before) :
    Keyed after := by
  cases commit with
  | createRepository => exact { keyed with repositories := keyed.repositories.insert rfl }
  | createJob => exact keyed.withJobEvent _ _
  | appendEvent => exact { keyed with jobEvents := keyed.jobEvents.insert rfl }
  | updateJob => exact keyed.withJobEvent _ _
  | createPolicyDecision => exact { keyed with policyDecisions := keyed.policyDecisions.insert rfl }
  | createLockDecision => exact { keyed with lockDecisions := keyed.lockDecisions.insert rfl }
  | expireMigrationLocks now =>
    refine { keyed with schemaMigrations := ?_ }
    intro id record found
    rw [expireSchemaMigrationLocks_lookup, Option.map_eq_some_iff] at found
    obtain ⟨stored, foundStored, rfl⟩ := found
    rw [expireMigrationLock_id]
    exact keyed.schemaMigrations id stored foundStored
  | createSchemaMigration =>
    exact { keyed with schemaMigrations := keyed.schemaMigrations.insert rfl }
  | releaseMigrationLock found release =>
    have same := (releaseMigrationLock_id release).trans (keyed.schemaMigrations _ _ found)
    exact { keyed with schemaMigrations := keyed.schemaMigrations.insert same }
  | createToolInvocation => exact { keyed with toolInvocations := keyed.toolInvocations.insert rfl }
  | createToolResult => exact keyed.withToolResult _
  | createAuditRecord => exact keyed.withAuditRecord _
  | recordReceipt => exact { keyed with }

theorem Commits.keyed (commits : Commits admits before events after) (keyed : Keyed before) :
    Keyed after := by
  induction commits with
  | none => exact keyed
  | next commit _ ih => exact ih (commit.keyed keyed)

theorem Commits.extends (commits : Commits admits before events after) (keyed : Keyed before) :
    Extends before after := by
  induction commits with
  | none => exact .refl _
  | next commit _ ih => exact (commit.extends keyed).trans (ih (commit.keyed keyed))

end Growth

section Operations

variable {inner before after : InMemoryInner} {pending : PendingRecords}

/-- An event checked earlier, with records pending that have been stored since,
is appended. -/
theorem Appended.of_validated (grown : Extends inner after) (keyed : Keyed after)
    (stored : pending.StoredIn after)
    (checked : validateNewJobEventWithPendingRecords inner event pending = .ok ())
    (fresh : before.jobEventsById[event.id]? = none)
    (room : before.nextEventSequence + 1 ≤ maxSequence) : Appended before after event := by
  obtain ⟨_, subject, links⟩ := validateNewJobEventWithPendingRecords_eq_ok.mp checked
  exact ⟨fresh, room, subject, validateEventLinks_persists grown keyed stored links⟩

private theorem fresh_of_validated
    (checked : validateNewJobEventWithPendingRecords inner event pending = .ok ()) :
    inner.jobEventsById[event.id]? = none :=
  (validateNewJobEventWithPendingRecords_eq_ok.mp checked).1

/-- An update of a job, checked earlier, with its event. -/
private theorem Commit.of_checked (grown : Extends inner before) (keyed : Keyed before)
    (found : before.jobs[record.id]? = some existing) (change : JobUpdate existing record event)
    (checked : validateNewJobEventWithPendingRecords inner event pending = .ok ())
    (fresh : before.jobEventsById[event.id]? = none)
    (stored : pending.StoredIn (before.withJobEvent record event))
    (room : before.nextEventSequence + 1 ≤ maxSequence) :
    Commit admits before [before.numbered event] (before.withJobEvent record event) := by
  have step : Extends before (before.withJobEvent record event) :=
    .withJobEvent fresh (change.same keyed found)
  exact .updateJob found change (.of_validated (grown.trans step)
    (keyed.withJobEvent record event) stored checked fresh room)

/-- An event that concerns no pending record. -/
theorem Commit.of_newEvent (keyed : Keyed inner)
    (checked : validateNewJobEvent inner event none = .ok ())
    (room : inner.nextEventSequence + 1 ≤ maxSequence) :
    Commit admits inner [inner.numbered event] (inner.withEvent event) := by
  have fresh := fresh_of_validated checked
  have appended := Appended.of_validated (Extends.withEvent fresh)
    { keyed with jobEvents := keyed.jobEvents.insert rfl } (PendingRecords.storedIn_none _) checked
    fresh room
  exact .appendEvent appended

/-- An update of a job by one event. -/
theorem Commit.of_jobUpdate (keyed : Keyed inner)
    (update : validateJobUpdate inner record event = .ok ())
    (checked : validateNewJobEvent inner event none = .ok ())
    (room : inner.nextEventSequence + 1 ≤ maxSequence) :
    Commit admits inner [inner.numbered event] (inner.withJobEvent record event) := by
  obtain ⟨existing, found, _, against⟩ := validateJobUpdate_eq_ok.mp update
  exact .of_checked (.refl inner) keyed found (.of_validated against) checked
    (fresh_of_validated checked) (PendingRecords.storedIn_none _) room

theorem withJobEvent_next (inner : InMemoryInner) (record : JobRecord) (event : JobEvent) :
    (inner.withJobEvent record event).nextEventSequence = inner.nextEventSequence + 1 :=
  rfl

/-- The job stored by an update. -/
theorem withJobEvent_job (inner : InMemoryInner) (record : JobRecord) (event : JobEvent) :
    (inner.withJobEvent record event).jobs[record.id]? =
      some { record with latestEventId := some event.id } :=
  Table.lookup_insert_same _ _ _

/-- Another event stays absent when an event is appended. -/
theorem withJobEvent_absent (record : JobRecord) {other : JobEvent}
    (different : event.id ≠ other.id) (absent : inner.jobEventsById[other.id]? = none) :
    (inner.withJobEvent record event).jobEventsById[other.id]? = none :=
  (Table.lookup_insert_other different).trans absent

/-- An accepted update changes nothing when it is repeated by another event of
the job. -/
theorem JobUpdate.touch {other : JobEvent} (update : JobUpdate existing record event)
    (otherJob : other.refs.jobId = some record.id)
    (otherRepository : other.refs.repositoryId = some record.repositoryId)
    (latestEventId : Option JobEventId) : JobUpdate { record with latestEventId } record other where
  repositoryId := rfl
  schemaVersion := rfl
  createdAt := rfl
  requester := rfl
  kind := rfl
  goal := rfl
  updatedAt := le_refl _
  status := .inl ⟨rfl, rfl, rfl⟩
  running := update.running
  completed := update.completed
  cancellation := .inl rfl
  policySummary := .inl rfl
  eventJob := otherJob
  eventRepository := otherRepository

/-- An update does not depend on which event the job was last updated by. -/
theorem JobUpdate.version (update : JobUpdate existing record event)
    (latestEventId : Option JobEventId) :
    JobUpdate { existing with latestEventId } record event :=
  ⟨update.repositoryId, update.schemaVersion, update.createdAt, update.requester, update.kind,
    update.goal, update.updatedAt, update.status, update.running, update.completed,
    update.cancellation, update.policySummary, update.eventJob, update.eventRepository⟩

variable {finalRecord : JobRecord}

/-- The job that a terminal request leaves is the submitted one in its last status. -/
theorem terminalRecord_withStatus {status : ToolResultStatus}
    (transition : terminalRecord record status event = .ok finalRecord) :
    record.withStatus (terminalStatus status) event.createdAt = finalRecord := by
  unfold terminalRecord at transition
  cases moved : record.transitionStatus (terminalStatus status) event.createdAt with
  | error _ => simp [moved] at transition
  | ok next =>
    simp only [moved, Except.ok.injEq] at transition
    obtain ⟨_, _, same⟩ := JobRecord.transitionStatus_eq_ok.mp moved
    exact same.trans transition

theorem terminalRecord_id {status : ToolResultStatus}
    (transition : terminalRecord record status event = .ok finalRecord) :
    finalRecord.id = record.id := by
  rw [← terminalRecord_withStatus transition]
  rfl

theorem appendJobEventsAndUpdateJob_commits (keyed : Keyed before) {firstRecord : JobRecord}
    {firstEvent finalEvent : JobEvent} {stored : JobEvent × JobEvent}
    (succeeded : appendJobEventsAndUpdateJob firstRecord firstEvent
      finalRecord finalEvent before = .ok (stored, after)) :
    Commits admits before [stored.1, stored.2] after := by
  obtain ⟨⟨different, identity, update, checked, final, checkedFinal⟩, room, rfl, rfl, _⟩ :=
    appendJobEventsAndUpdateJob_eq_ok.mp succeeded
  simp only [validateTwoStageJobUpdateIdentity, bind_eq_ok, exists_unit, reject_eq_ok,
    not_not] at identity
  have first : Commit admits _ _ _ := .of_jobUpdate keyed update checked (by omega)
  have found : (before.withJobEvent firstRecord firstEvent).jobs[finalRecord.id]? =
      some { firstRecord with latestEventId := some firstEvent.id } := by
    rw [← identity.1]
    exact withJobEvent_job before firstRecord firstEvent
  have second : Commit admits _ _ _ := .of_checked (first.extends keyed) (first.keyed keyed) found
    (.of_validated final) checkedFinal
    (withJobEvent_absent _ different (fresh_of_validated checkedFinal))
    (PendingRecords.storedIn_none _) (by rw [withJobEvent_next]; omega)
  exact .next first second.once

section ToolRecords

variable {record : JobRecord} {toolResult : ToolResult} {toolResultEvent auditEvent : JobEvent}
  {auditRecord : AuditRecord}

private theorem toolResult_stored (inner : InMemoryInner) :
    ∀ pending, some toolResult = some pending →
      ∃ next, (inner.withToolResult toolResult).toolResults[pending.id]? = some next ∧
        pending = next := by
  rintro _ ⟨⟩
  exact ⟨toolResult, Table.lookup_insert_same _ _ _, rfl⟩

private theorem auditRecord_stored (inner : InMemoryInner) :
    ∀ pending, some auditRecord = some pending →
      ∃ next, (inner.withAuditRecord auditRecord).auditRecords[pending.id]? = some next ∧
        pending = next := by
  rintro _ ⟨⟩
  exact ⟨auditRecord, Table.lookup_insert_same _ _ _, rfl⟩

/-- A tool result, its event, its audit record and the event of that one are
four commits. -/
theorem ToolResultAndAuditAccepted.commits (keyed : Keyed before)
    (accepted : ToolResultAndAuditAccepted before record toolResult toolResultEvent auditRecord
      auditEvent) (different : toolResultEvent.id ≠ auditEvent.id)
    (room : before.nextEventSequence + 2 ≤ maxSequence) :
    Commits admits before
      [before.numbered toolResultEvent, (before.withEvent toolResultEvent).numbered auditEvent]
      (before.withToolResultAndAudit record toolResult toolResultEvent auditRecord auditEvent) := by
  obtain ⟨existing, found, _, against⟩ := validateJobUpdate_eq_ok.mp accepted.update
  obtain ⟨_, _, _, againstAudit⟩ := validateJobUpdate_eq_ok.mp accepted.auditUpdate
  have change := JobUpdate.of_validated against
  have changeAudit := JobUpdate.of_validated againstAudit
  have freshEvent := fresh_of_validated accepted.resultEvent
  have freshAudit := fresh_of_validated accepted.auditEventRefs
  have resultStored : Commit admits _ _ _ :=
    .createToolResult accepted.resultRefs accepted.freshToolResult
  have grownResult := resultStored.extends keyed
  have keyedResult := resultStored.keyed keyed
  have announced : Commit admits _ _ _ :=
    .of_checked grownResult keyedResult found change accepted.resultEvent freshEvent
    { job := by simp, toolResult := toolResult_stored before, auditRecord := by simp }
    (show before.nextEventSequence + 1 ≤ maxSequence by omega)
  have grownAnnounced := grownResult.trans (announced.extends keyedResult)
  have keyedAnnounced := announced.keyed keyedResult
  have auditStored : Commit admits _ _ _ := .createAuditRecord
    (validateAuditRecordRefs_persists grownAnnounced accepted.auditRefs) accepted.freshAuditRecord
  have grownAudit := grownAnnounced.trans (auditStored.extends keyedAnnounced)
  have keyedAudit := auditStored.keyed keyedAnnounced
  have audited : Commit admits _ _ _ := .of_checked grownAudit keyedAudit
    (withJobEvent_job (before.withToolResult toolResult) record toolResultEvent)
    (change.touch changeAudit.eventJob changeAudit.eventRepository _) accepted.auditEventRefs
    (withJobEvent_absent record different freshAudit)
    { job := by simp, toolResult := toolResult_stored before, auditRecord := auditRecord_stored _ }
    (show before.nextEventSequence + 1 + 1 ≤ maxSequence by omega)
  exact .next resultStored (.next announced (.next auditStored audited.once))

theorem recordToolResultAndAuditWithEvents_commits (keyed : Keyed before)
    {stored : JobEvent × JobEvent} (succeeded : recordToolResultAndAuditWithEvents record toolResult
      toolResultEvent auditRecord auditEvent before = .ok (stored, after)) :
    Commits admits before [stored.1, stored.2] after := by
  obtain ⟨different, accepted, room, rfl, rfl, _⟩ :=
    recordToolResultAndAuditWithEvents_eq_ok.mp succeeded
  exact accepted.commits keyed different room

end ToolRecords

/-- Storing a receipt is one commit, or none when the key has it already. -/
theorem insertSubmitJobIdempotencyLocked_commits {key : String}
    {record : SubmitJobIdempotencyRecord}
    (stored : insertSubmitJobIdempotencyLocked before key record = .ok after) :
    Commits admits before [] after := by
  obtain ⟨checked, ⟨_, rfl⟩ | ⟨fresh, rfl⟩⟩ := insertSubmitJobIdempotencyLocked_eq_ok.mp stored
  · exact .none before
  · exact (Commit.recordReceipt checked fresh).once

theorem TerminalAccepted.commits (keyed : Keyed before) {request : ToolResultAuditTerminalRequest}
    (accepted : TerminalAccepted before request finalRecord) :
    Commits admits before [(before.terminalEvents request).1, (before.terminalEvents request).2.1,
        (before.terminalEvents request).2.2] (before.withTerminal request finalRecord) := by
  have records : Commits admits _ _ _ :=
    accepted.records.commits keyed accepted.resultAudit (by have := accepted.room; omega)
  have sameId := terminalRecord_id accepted.transition
  have found : (before.withToolResultAndAudit request.record request.toolResult
      request.toolResultEvent request.auditRecord request.auditEvent).jobs[finalRecord.id]? =
      some { request.record with latestEventId := some request.auditEvent.id } := by
    rw [sameId]
    exact withJobEvent_job _ _ _
  have absent := fresh_of_validated accepted.event
  have fresh : (before.withToolResultAndAudit request.record request.toolResult
      request.toolResultEvent request.auditRecord
      request.auditEvent).jobEventsById[request.terminalEvent.id]? = none :=
    withJobEvent_absent request.record accepted.auditTerminal
      (withJobEvent_absent request.record accepted.resultTerminal absent)
  have completed : Commit admits _ _ _ :=
    .of_checked (records.extends keyed) (records.keyed keyed) found
    ((JobUpdate.of_validated accepted.update).version _) accepted.event fresh
    { job := by
        rintro _ ⟨⟩
        exact ⟨_, withJobEvent_job _ _ _, rfl, rfl⟩
      toolResult := toolResult_stored before
      auditRecord := auditRecord_stored _ }
    (show before.nextEventSequence + 1 + 1 + 1 ≤ maxSequence by have := accepted.room; omega)
  exact records.trans completed.once

theorem recordToolResultAuditTerminal_commits (keyed : Keyed before)
    {request : ToolResultAuditTerminalRequest} {stored : JobEvent × JobEvent × JobEvent}
    (succeeded : recordToolResultAuditTerminalWithSubmitJobIdempotency request before =
      .ok (stored, after)) :
    Commits admits before [stored.1, stored.2.1, stored.2.2] after := by
  obtain ⟨final, accepted, rfl, receipt, _⟩ := recordToolResultAuditTerminal_eq_ok.mp succeeded
  have completed : Commits admits _ _ _ := accepted.commits keyed
  unfold insertTerminalReceipt at receipt
  split at receipt
  · obtain rfl := Except.ok.inj receipt
    exact completed
  · simpa using completed.trans (insertSubmitJobIdempotencyLocked_commits receipt)

section Migrations

/-- A new migration lock passes the checks of its record. -/
theorem newMigrationLock_valid {uuid : Uuid} {lockedAt : LedgerTimestamp} {safe : Bool}
    {timeoutMillis : Nat} (named : ¬Text.isBlank leaderId = true) (positive : ¬timeoutMillis = 0) :
    validateSchemaMigrationRecord
      (SchemaMigrationRecord.newMigrationLock uuid leaderId lockedAt safe timeoutMillis) =
        .ok () := by
  have nameShown : Text.isBlank migrationLockRecordName = false := by decide
  simp only [validateSchemaMigrationRecord, SchemaMigrationRecord.newMigrationLock, nameShown,
    bind_eq_ok, exists_unit, reject_eq_ok, whenSome_eq_ok, if_true, okOr_eq_ok]
  refine ⟨by simp, ?_, by simp, leaderId, rfl, _, rfl, ?_⟩
  · rintro _ ⟨⟩
    exact named
  · simp [validateMigrationLock, bind_eq_ok, reject_eq_ok, named, positive]

/-- A lock that is still held after the expired ones have ended is active. -/
theorem expireMigrationLock_held {now : LedgerTimestamp} {record : SchemaMigrationRecord}
    {lock : MigrationLockRecord} (present : (expireMigrationLock now record).migrationLock = some lock)
    (held : lock.status = .held) : lock.isActive now = true := by
  unfold expireMigrationLock at present
  cases stored : record.migrationLock with
  | none =>
    simp only [stored] at present
    cases present
  | some own =>
    simp only [stored] at present
    split at present
    · obtain rfl := Option.some.inj present
      cases held
    · rename_i running
      rw [stored] at present
      obtain rfl := Option.some.inj present
      have unexpired : ¬own.isExpired now = true := fun expired => running ⟨held, expired⟩
      simpa [MigrationLockRecord.isActive, MigrationLockRecord.isExpired, held] using unexpired

theorem latestMigration_eq_none {records : List SchemaMigrationRecord}
    (none : latestMigration records = none) : records = [] := by
  cases records with
  | nil => rfl
  | cons first rest => cases none

/-- When no lock is active after the expired ones have ended, none is held. -/
theorem unheld_of_inactive {moment : LedgerTimestamp}
    (inactive : activeMigrationLock (expireSchemaMigrationLocks inner moment) moment = none) :
    ∀ other ∈ (expireSchemaMigrationLocks inner moment).schemaMigrations.records,
      other.holdsLock = false := by
  intro other member
  by_contra holds
  simp only [SchemaMigrationRecord.holdsLock, Bool.not_eq_false, Bool.and_eq_true] at holds
  obtain ⟨isLock, locked⟩ := holds
  obtain ⟨id, found⟩ := Table.mem_records.mp member
  rw [expireSchemaMigrationLocks_lookup, Option.map_eq_some_iff] at found
  obtain ⟨record, _, rfl⟩ := found
  cases present : (expireMigrationLock moment record).migrationLock with
  | none =>
    rw [present] at locked
    cases locked
  | some lock =>
    rw [present, Option.any_some, decide_eq_true_eq] at locked
    have active := expireMigrationLock_held present locked
    have empty := latestMigration_eq_none inactive
    have listed : expireMigrationLock moment record ∈ List.filter
        (fun record => record.migrationLock.any (·.isActive moment))
        ((expireSchemaMigrationLocks inner moment).schemaMigrations.records.filter
          (·.isMigrationLock)) := by
      rw [List.mem_filter, List.mem_filter, present]
      exact ⟨⟨member, isLock⟩, active⟩
    rw [empty] at listed
    cases listed

theorem createSchemaMigration_commits {record : SchemaMigrationRecord} {result : Unit}
    (succeeded : createSchemaMigration record before = .ok (result, after)) :
    Commits admits before [] after := by
  simp only [createSchemaMigration, bind_eq_ok, exists_unit, insertRecord_eq_ok, pure_eq_ok,
    Prod.mk.injEq] at succeeded
  obtain ⟨valid, free, _, ⟨fresh, rfl⟩, _, rfl⟩ := succeeded
  refine .next (.expireMigrationLocks _) (Commit.createSchemaMigration valid ?_ fresh).once
  intro isLock
  apply unheld_of_inactive
  -- a lock record is refused whenever a lock is active
  by_contra active
  obtain ⟨activeLock, found⟩ := Option.ne_none_iff_exists'.mp active
  simp only [whenSome_eq_ok, bind_eq_ok, exists_unit, reject_eq_ok] at free
  exact (free activeLock found).1 isLock

theorem acquireSchemaMigrationLock_commits {uuid : Uuid} {safe : Bool} {timeoutMillis : Nat}
    {lockedAt : LedgerTimestamp} {record : SchemaMigrationRecord}
    (succeeded : acquireSchemaMigrationLock uuid leaderId safe timeoutMillis lockedAt before =
      .ok (record, after)) : Commits admits before [] after := by
  simp only [acquireSchemaMigrationLock, bind_eq_ok, exists_unit, insertRecord_eq_ok, reject_eq_ok,
    pure_eq_ok, Prod.mk.injEq] at succeeded
  obtain ⟨named, positive, free, _, ⟨fresh, rfl⟩, _, rfl⟩ := succeeded
  refine .next (.expireMigrationLocks _)
    (Commit.createSchemaMigration (newMigrationLock_valid named positive) ?_ fresh).once
  intro _
  apply unheld_of_inactive
  by_contra active
  obtain ⟨activeLock, found⟩ := Option.ne_none_iff_exists'.mp active
  simp only [whenSome_eq_ok] at free
  cases free activeLock found

theorem releaseSchemaMigrationLock_commits {id : SchemaMigrationId} {releasedAt : LedgerTimestamp}
    {record : SchemaMigrationRecord}
    (succeeded : releaseSchemaMigrationLock id leaderId releasedAt before = .ok (record, after)) :
    Commits admits before [] after := by
  simp only [releaseSchemaMigrationLock, bind_eq_ok, okOr_eq_ok, pure_eq_ok,
    Prod.mk.injEq] at succeeded
  obtain ⟨stored, found, _, release, rfl, rfl⟩ := succeeded
  exact .next (.expireMigrationLocks _) (Commit.releaseMigrationLock found release).once

end Migrations

/-- The creation of a job with its initial event. -/
theorem Commit.of_newJob (keyed : Keyed before) (admitted : admits record)
    (repository : before.repositories.contains record.repositoryId = true)
    (fresh : before.jobs[record.id]? = none)
    (initial : validateInitialEventForJob record event = .ok ())
    (checked : validateNewJobEvent before event (some record) = .ok ())
    (room : before.nextEventSequence + 1 ≤ maxSequence) :
    Commit admits before [before.numbered event] (before.withJobEvent record event) := by
  have freshEvent := fresh_of_validated checked
  have grown : Extends before (before.withJobEvent record event) :=
    .withJobEvent freshEvent (by simp [fresh])
  have appended := Appended.of_validated grown (keyed.withJobEvent _ _)
    { job := by
        rintro _ ⟨⟩
        exact ⟨_, withJobEvent_job _ _ _, rfl, rfl⟩
      toolResult := by simp
      auditRecord := by simp } checked freshEvent room
  exact .createJob admitted repository fresh initial appended

/-- Every operation is a chain of commits that appends the events it publishes. -/
theorem StoreOperation.exec_commits (keyed : Keyed before) {operation : StoreOperation}
    (admitted : operation.Admitted admits) (succeeded : operation.exec before = .ok (after, events)) :
    Commits admits before events after := by
  obtain ⟨_, ran, rfl⟩ := StoreOperation.exec_eq_ok.mp succeeded
  cases operation
  case createRepository =>
    obtain ⟨accepted, rfl⟩ := createRepository_eq_ok.mp ran
    exact (Commit.createRepository accepted).once
  case createJob =>
    obtain ⟨⟨repository, fresh, initial, checked⟩, room, rfl, rfl, _⟩ :=
      createJobWithInitialEvent_eq_ok.mp ran
    exact (Commit.of_newJob keyed admitted repository fresh initial checked room).once
  case appendJobEvent =>
    obtain ⟨checked, room, rfl, rfl, _⟩ := appendJobEvent_eq_ok.mp ran
    exact (Commit.of_newEvent keyed checked room).once
  case appendJobEventAndUpdateJob =>
    obtain ⟨⟨update, checked⟩, room, rfl, rfl, _⟩ := appendJobEventAndUpdateJob_eq_ok.mp ran
    exact (Commit.of_jobUpdate keyed update checked room).once
  case appendJobEventAndUpdateJobWithSubmitJobIdempotency =>
    obtain ⟨⟨update, checked⟩, room, rfl, receipt, _⟩ :=
      appendJobEventAndUpdateJobWithSubmitJobIdempotency_eq_ok.mp ran
    exact .next (.of_jobUpdate keyed update checked room)
      (insertSubmitJobIdempotencyLocked_commits receipt)
  case appendJobEventsAndUpdateJob =>
    exact appendJobEventsAndUpdateJob_commits keyed ran
  case createPolicyDecision =>
    obtain ⟨repository, scope, fresh, rfl⟩ := createPolicyDecision_eq_ok.mp ran
    exact (Commit.createPolicyDecision repository scope fresh).once
  case createLockDecision =>
    obtain ⟨accepted, rfl⟩ := createLockDecision_eq_ok.mp ran
    exact (Commit.createLockDecision accepted).once
  case createSchemaMigration =>
    exact createSchemaMigration_commits ran
  case acquireSchemaMigrationLock =>
    exact acquireSchemaMigrationLock_commits ran
  case getSchemaMigrationLock =>
    obtain ⟨_, rfl⟩ := Prod.mk.inj (pure_eq_ok.mp ran)
    exact (Commit.expireMigrationLocks _).once
  case releaseSchemaMigrationLock =>
    exact releaseSchemaMigrationLock_commits ran
  case createToolInvocation =>
    obtain ⟨checked, fresh, rfl⟩ := createToolInvocation_eq_ok.mp ran
    exact (Commit.createToolInvocation checked fresh).once
  case createToolResult =>
    obtain ⟨checked, fresh, rfl⟩ := createToolResult_eq_ok.mp ran
    exact (Commit.createToolResult checked fresh).once
  case createAuditRecord =>
    obtain ⟨checked, fresh, rfl⟩ := createAuditRecord_eq_ok.mp ran
    exact (Commit.createAuditRecord checked fresh).once
  case recordSubmitJobIdempotency =>
    exact insertSubmitJobIdempotencyLocked_commits (recordSubmitJobIdempotency_eq_ok.mp ran)
  case recordToolResultAndAuditWithEvents =>
    exact recordToolResultAndAuditWithEvents_commits keyed ran
  case recordToolResultAuditTerminal =>
    exact recordToolResultAuditTerminal_commits keyed ran

end Operations

section Runs

variable {inner before after : InMemoryInner}

/-- What every commit preserves, every chain of commits preserves. -/
theorem Commits.preserve (Holds : InMemoryInner → Prop)
    (step : ∀ {before events after}, Keyed before → Commit admits before events after →
      Holds before → Holds after) (commits : Commits admits before events after)
    (keyed : Keyed before) (holds : Holds before) : Holds after := by
  induction commits with
  | none => exact holds
  | next first _ ih => exact ih (first.keyed keyed) (step keyed first holds)

theorem Step.commits (keyed : Keyed before) (step : Step before after) :
    ∃ events, Commits (fun _ => True) before events after := by
  obtain ⟨operation, events, succeeded⟩ := step
  exact ⟨events, StoreOperation.exec_commits keyed operation.admitted_any succeeded⟩

theorem Reachable.keyed (reachable : Reachable inner) : Keyed inner := by
  induction reachable with
  | refl => exact .empty
  | tail _ step keyed =>
    obtain ⟨_, commits⟩ := step.commits keyed
    exact commits.keyed keyed

theorem Run.extends (reachable : Reachable before) (run : Run before after) :
    Extends before after := by
  induction run with
  | refl => exact .refl _
  | tail earlier step ih =>
    have keyed := Reachable.keyed (reachable.trans earlier)
    obtain ⟨_, commits⟩ := step.commits keyed
    exact ih.trans (commits.extends keyed)

/-- What every commit preserves holds in every reachable state. -/
theorem Reachable.induct (Holds : InMemoryInner → Prop) (start : Holds .empty)
    (step : ∀ {before events after}, Keyed before → Commit (fun _ => True) before events after →
      Holds before → Holds after) (reachable : Reachable inner) : Holds inner := by
  induction reachable with
  | refl => exact start
  | tail earlier taken holds =>
    have keyed := Reachable.keyed earlier
    obtain ⟨_, commits⟩ := taken.commits keyed
    exact commits.preserve Holds step keyed holds

/-- What every commit preserves that creates its job as `JobRecord.new` does holds in
every state reached by such operations. -/
theorem ReachableByNewJobs.induct (Holds : InMemoryInner → Prop) (start : Holds .empty)
    (step : ∀ {before events after}, Keyed before → Commit JobRecord.IsNew before events after →
      Holds before → Holds after) (reached : ReachableByNewJobs inner) : Holds inner := by
  induction reached with
  | refl => exact start
  | tail earlier taken holds =>
    have keyed := Reachable.keyed (ReachableByNewJobs.reachable earlier)
    obtain ⟨operation, _, admitted, succeeded⟩ := taken
    exact (StoreOperation.exec_commits keyed admitted succeeded).preserve Holds step keyed holds

end Runs

end Atelia.Store
