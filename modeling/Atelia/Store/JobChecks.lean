import Atelia.Store.State

/-! Checks on a job update: which fields may change, and which event must accompany the
change. -/

namespace Atelia.Store

open Outcome

def jobUpdateConflict (jobId : JobId) (reason : String) : StoreError :=
  .conflict "jobs" s!"job update for {debug jobId} {reason}"

def invalidLifecycleTransition (jobId : JobId) (error : JobStatusTransitionError) : StoreError :=
  .conflict "jobs"
    s!"job update for {debug jobId} has invalid lifecycle transition: {debug error}"

def validateInitialEventForJob (record : JobRecord) (event : JobEvent) : StoreResult Unit := do
  reject (event.subject.subjectType ≠ .job ∨ event.subject.subjectId ≠ record.id.text)
    (.invalidReference "job_events" s!"initial event subject must identify job {debug record.id}")
  reject (event.refs.jobId ≠ some record.id) (.invalidReference "job_events"
    s!"initial event refs.job_id must identify job {debug record.id}")
  reject (event.refs.repositoryId ≠ some record.repositoryId) (.invalidReference "job_events"
    s!"initial event refs.repository_id must identify repository {debug record.repositoryId}")

def ensureImmutableJobField {α : Type} [DecidableEq α] [RustDebug α] (jobId : JobId)
    (fieldName : String) (existing incoming : α) : StoreResult Unit :=
  ensure (existing = incoming) (.conflict "jobs"
    s!"job update for {debug jobId} attempted to change immutable field {fieldName}: existing {debug existing}, incoming {debug incoming}")

variable {result : Unit}

@[simp] theorem ensureImmutableJobField_eq_ok {α : Type} [DecidableEq α] [RustDebug α]
    {jobId : JobId} {fieldName : String} {existing incoming : α} :
    ensureImmutableJobField jobId fieldName existing incoming = .ok result ↔
      existing = incoming :=
  ensure_eq_ok

/-- The transition a status change must be, run on the stored job. -/
def expectedTransition (existing record : JobRecord) : StoreResult JobRecord :=
  match existing.transitionStatus record.status record.updatedAt with
  | .ok expected => .ok expected
  | .error error => .error (invalidLifecycleTransition record.id error)

/-- A changed status needs its event and the timestamps of the transition; an
unchanged one keeps its timestamps and has no such event. -/
def validateJobStatusChange (existing record : JobRecord) (event : JobEvent) :
    StoreResult Unit :=
  if record.status ≠ existing.status then do
    ensure (event.kind = .jobStatusChanged existing.status record.status)
      (jobUpdateConflict record.id
        s!"status changed from {debug existing.status} to {debug record.status} without matching JobStatusChanged event")
    let expected ← expectedTransition existing record
    reject (record.startedAt ≠ expected.startedAt ∨ record.completedAt ≠ expected.completedAt)
      (jobUpdateConflict record.id
        s!"lifecycle timestamps do not match transition from {debug existing.status} to {debug record.status}")
  else do
    reject (event.kind matches .jobStatusChanged _ _) (jobUpdateConflict record.id
      "JobStatusChanged event did not change materialized job status")
    reject (record.startedAt ≠ existing.startedAt ∨ record.completedAt ≠ existing.completedAt)
      (jobUpdateConflict record.id "lifecycle timestamps changed without a status transition")

def validateJobLifecycleUpdate (existing record : JobRecord) (event : JobEvent) :
    StoreResult Unit := do
  reject (record.updatedAt < existing.updatedAt) (jobUpdateConflict record.id
    s!"updated_at moved backwards from {debug existing.updatedAt} to {debug record.updatedAt}")
  validateJobStatusChange existing record event
  reject (record.status = .running ∧ record.startedAt = none)
    (jobUpdateConflict record.id "running job must have started_at")
  reject (record.status.isTerminal ∧ record.completedAt = none)
    (jobUpdateConflict record.id "terminal job must have completed_at")
  reject (record.status.isTerminal = false ∧ record.completedAt ≠ none)
    (jobUpdateConflict record.id "non-terminal job cannot have completed_at")

def validateJobCancellationUpdate (existing record : JobRecord) (event : JobEvent) :
    StoreResult Unit :=
  if record.cancellationState = existing.cancellationState then
    reject (event.kind = .cancellationRequested) (jobUpdateConflict record.id
      "CancellationRequested event did not change materialized cancellation state")
  else
    ensure (existing.cancellationState = .notRequested ∧ record.cancellationState = .requested ∧
        event.kind = .cancellationRequested)
      (jobUpdateConflict record.id
        s!"cancellation_state changed from {debug existing.cancellationState} to {debug record.cancellationState} without matching CancellationRequested event")

def validateJobPolicySummaryUpdate (existing record : JobRecord) (event : JobEvent) :
    StoreResult Unit :=
  if record.policySummary = existing.policySummary then .ok ()
  else do
    ensure (event.kind matches .policyDecided _) (jobUpdateConflict record.id
      "policy_summary changed without a PolicyDecided event")
    reject (record.policySummary.bind (·.decisionId) ≠ event.refs.policyDecisionId)
      (jobUpdateConflict record.id
        "policy_summary decision_id must match event refs.policy_decision_id")

def validateJobUpdateAgainst (existing record : JobRecord) (event : JobEvent) :
    StoreResult Unit := do
  ensureSameRepository "jobs" "job.repository_id" existing.repositoryId record.repositoryId
  ensureImmutableJobField record.id "schema_version" existing.schemaVersion record.schemaVersion
  ensureImmutableJobField record.id "created_at" existing.createdAt record.createdAt
  ensureImmutableJobField record.id "requester" existing.requester record.requester
  ensureImmutableJobField record.id "kind" existing.kind record.kind
  ensureImmutableJobField record.id "goal" existing.goal record.goal
  validateJobLifecycleUpdate existing record event
  validateJobCancellationUpdate existing record event
  validateJobPolicySummaryUpdate existing record event
  reject (event.refs.jobId ≠ some record.id) (.invalidReference "job_events"
    s!"job update event refs.job_id must identify job {debug record.id}")
  reject (event.refs.repositoryId ≠ some record.repositoryId) (.invalidReference "job_events"
    s!"job update event refs.repository_id must identify repository {debug record.repositoryId}")

/-- The job as stored, and the version check that makes updates compare-and-set
on `latest_event_id`. -/
def validateJobUpdate (inner : InMemoryInner) (record : JobRecord) (event : JobEvent) :
    StoreResult Unit := do
  let existing ← okOr inner.jobs[record.id]? (.notFound "jobs" (debug record.id))
  reject (record.latestEventId ≠ existing.latestEventId) (.conflict "jobs"
    s!"job update for {debug record.id} is stale: expected latest_event_id {debug existing.latestEventId}, got {debug record.latestEventId}")
  validateJobUpdateAgainst existing record event

def validateTwoStageJobUpdateIdentity (firstRecord : JobRecord) (firstEvent : JobEvent)
    (finalRecord : JobRecord) (finalEvent : JobEvent) : StoreResult Unit := do
  reject (firstRecord.id ≠ finalRecord.id) (.invalidReference "jobs"
    s!"two-stage job update first_record {debug firstRecord.id} does not match final_record {debug finalRecord.id}")
  checkAll (fun (context, event) => reject (event.refs.jobId ≠ some firstRecord.id)
      (.invalidReference "job_events" s!"{context} must identify job {debug firstRecord.id}"))
    [("first_event.refs.job_id", firstEvent), ("final_event.refs.job_id", finalEvent)]

def validateSiblingEventIdsAreUnique (left right : JobEvent) : StoreResult Unit :=
  ensure (left.id ≠ right.id) (.duplicateId "job_events" (debug left.id))

variable {record existing : JobRecord}

theorem expectedTransition_eq_ok {expected : JobRecord} :
    expectedTransition existing record = .ok expected ↔
      existing.transitionStatus record.status record.updatedAt = .ok expected := by
  unfold expectedTransition
  split <;> simp_all

/-- How one update may change a job, and what its event must say. -/
structure JobUpdate (existing record : JobRecord) (event : JobEvent) : Prop where
  repositoryId : record.repositoryId = existing.repositoryId
  schemaVersion : record.schemaVersion = existing.schemaVersion
  createdAt : record.createdAt = existing.createdAt
  requester : record.requester = existing.requester
  kind : record.kind = existing.kind
  goal : record.goal = existing.goal
  updatedAt : existing.updatedAt ≤ record.updatedAt
  status : (record.status = existing.status ∧ record.startedAt = existing.startedAt ∧
      record.completedAt = existing.completedAt) ∨
    (event.kind = .jobStatusChanged existing.status record.status ∧
      existing.status ≠ record.status ∧
      existing.status.canTransitionTo record.status = true ∧
      existing.latestTimestamp ≤ record.updatedAt ∧
      record.startedAt = (existing.withStatus record.status record.updatedAt).startedAt ∧
      record.completedAt = (existing.withStatus record.status record.updatedAt).completedAt)
  running : record.status = .running → record.startedAt ≠ none
  completed : record.status.isTerminal = true ↔ record.completedAt ≠ none
  cancellation : record.cancellationState = existing.cancellationState ∨
    (existing.cancellationState = .notRequested ∧ record.cancellationState = .requested ∧
      event.kind = .cancellationRequested)
  policySummary : record.policySummary = existing.policySummary ∨
    record.policySummary.bind (·.decisionId) = event.refs.policyDecisionId
  eventJob : event.refs.jobId = some record.id
  eventRepository : event.refs.repositoryId = some record.repositoryId

variable {event : JobEvent}

private theorem validateJobStatusChange_ok
    (accepted : validateJobStatusChange existing record event = .ok result) :
    (record.status = existing.status ∧ record.startedAt = existing.startedAt ∧
        record.completedAt = existing.completedAt) ∨
      (event.kind = .jobStatusChanged existing.status record.status ∧
        existing.status ≠ record.status ∧
        existing.status.canTransitionTo record.status = true ∧
        existing.latestTimestamp ≤ record.updatedAt ∧
        record.startedAt = (existing.withStatus record.status record.updatedAt).startedAt ∧
        record.completedAt = (existing.withStatus record.status record.updatedAt).completedAt) := by
  unfold validateJobStatusChange at accepted
  split at accepted
  · rename_i changed
    simp only [bind_eq_ok, exists_unit, ensure_eq_ok, expectedTransition_eq_ok,
      JobRecord.transitionStatus_eq_ok, reject_eq_ok, not_or, not_not] at accepted
    obtain ⟨announced, _, ⟨allowed, late, rfl⟩, started, completed⟩ := accepted
    exact .inr ⟨announced, Ne.symm changed, allowed, late, started, completed⟩
  · rename_i unchanged
    simp only [bind_eq_ok, exists_unit, reject_eq_ok, not_or, not_not] at accepted unchanged
    exact .inl ⟨unchanged, accepted.2⟩

private theorem validateJobCancellationUpdate_ok
    (accepted : validateJobCancellationUpdate existing record event = .ok result) :
    record.cancellationState = existing.cancellationState ∨
      (existing.cancellationState = .notRequested ∧ record.cancellationState = .requested ∧
        event.kind = .cancellationRequested) := by
  unfold validateJobCancellationUpdate at accepted
  split at accepted
  · rename_i unchanged
    exact .inl unchanged
  · exact .inr (ensure_eq_ok.mp accepted)

private theorem validateJobPolicySummaryUpdate_ok
    (accepted : validateJobPolicySummaryUpdate existing record event = .ok result) :
    record.policySummary = existing.policySummary ∨
      record.policySummary.bind (·.decisionId) = event.refs.policyDecisionId := by
  unfold validateJobPolicySummaryUpdate at accepted
  split at accepted
  · rename_i unchanged
    exact .inl unchanged
  · simp only [bind_eq_ok, exists_unit, reject_eq_ok, not_not] at accepted
    exact .inr accepted.2

/-- What the store has checked of an update it accepts. -/
theorem JobUpdate.of_validated
    (accepted : validateJobUpdateAgainst existing record event = .ok result) :
    JobUpdate existing record event := by
  simp only [validateJobUpdateAgainst, validateJobLifecycleUpdate, bind_eq_ok, exists_unit,
    ensureSameRepository_eq_ok, ensureImmutableJobField_eq_ok, reject_eq_ok, not_lt, not_and,
    not_not] at accepted
  obtain ⟨repository, version, created, requester, kind, goal,
    ⟨monotone, change, running, completed, open_⟩, cancellation, summary, eventJob,
    eventRepository⟩ := accepted
  refine ⟨repository, version.symm, created.symm, requester.symm, kind.symm, goal.symm, monotone,
    validateJobStatusChange_ok change, running, ⟨completed, ?_⟩,
    validateJobCancellationUpdate_ok cancellation, validateJobPolicySummaryUpdate_ok summary,
    eventJob, eventRepository⟩
  intro present
  by_contra terminal
  exact present (open_ (Bool.not_eq_true _ ▸ terminal))

theorem validateJobUpdate_eq_ok {inner : InMemoryInner} :
    validateJobUpdate inner record event = .ok result ↔
      ∃ existing, inner.jobs[record.id]? = some existing ∧
        record.latestEventId = existing.latestEventId ∧
        validateJobUpdateAgainst existing record event = .ok () := by
  simp only [validateJobUpdate, bind_eq_ok, exists_unit, okOr_eq_ok, reject_eq_ok, not_not]

end Atelia.Store
