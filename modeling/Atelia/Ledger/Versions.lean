import Atelia.Ledger.JobLifecycle
import Atelia.Store.Drafts

/-! Job updates are compare-and-set. -/

namespace Atelia.Store

open Outcome

variable {start before after : InMemoryInner} {events : List JobEvent}
  {admits : JobRecord → Prop}

/-- The job record that a job-updating operation submits. -/
def StoreOperation.submittedJob : StoreOperation → Option JobRecord
  | .appendJobEventAndUpdateJob record _ => some record
  | .appendJobEventAndUpdateJobWithSubmitJobIdempotency record _ _ _ => some record
  | .appendJobEventsAndUpdateJob firstRecord _ _ _ => some firstRecord
  | .recordToolResultAndAuditWithEvents record _ _ _ _ => some record
  | .recordToolResultAuditTerminal request => some request.record
  | _ => none

/-- A job-updating operation computed from a read of a job: whatever it changes,
it names the job and the version that were read. -/
def StoreOperation.ComputedFrom (operation : StoreOperation) (job : JobRecord) : Prop :=
  ∃ record, operation.submittedJob = some record ∧ record.id = job.id ∧
    record.latestEventId = job.latestEventId

/-- A version that was not in use in a state. -/
def NewVersion (start : InMemoryInner) (job : JobRecord) : Prop :=
  ∃ id, job.latestEventId = some id ∧ start.jobEventsById[id]? = none

theorem NewVersion.earlier {job : JobRecord} (new : NewVersion before job)
    (grown : Extends start before) : NewVersion start job := by
  obtain ⟨id, latest, fresh⟩ := new
  refine ⟨id, latest, ?_⟩
  cases found : start.jobEventsById[id]? with
  | none => rfl
  | some event =>
    rw [grown.jobEvents.lookup found] at fresh
    exact absurd fresh (by simp)

/-- A version in use is not a new one. -/
theorem NewVersion.ne {job next : JobRecord} (sound : JobSound start job)
    (new : NewVersion start next) : next.latestEventId ≠ job.latestEventId := by
  obtain ⟨id, latest, fresh⟩ := new
  obtain ⟨old, event, current, stored, _⟩ := sound.latest
  intro same
  rw [latest, current, Option.some.injEq] at same
  rw [same, stored] at fresh
  exact absurd fresh (by simp)

theorem Commits.job_version (commits : Commits admits before events after) (keyed : Keyed before)
    {id : JobId} {job : JobRecord} (found : before.jobs[id]? = some job) :
    ∃ next, after.jobs[id]? = some next ∧ (next = job ∨ NewVersion before next) := by
  induction commits generalizing job with
  | none => exact ⟨job, found, .inl rfl⟩
  | next first rest ih =>
    obtain ⟨middle, foundMiddle, change⟩ := first.job_change found
    obtain ⟨next, foundNext, later⟩ := ih (first.keyed keyed) foundMiddle
    refine ⟨next, foundNext, ?_⟩
    rcases later with rfl | new
    · rcases change with rfl | ⟨event, _, _, latest, fresh, _⟩
      · exact .inl rfl
      · exact .inr ⟨event.id, latest, fresh⟩
    · exact .inr (new.earlier (first.extends keyed))

/-- Along a run a job is unchanged or has a new version. -/
theorem Run.job_version (reachable : Reachable start) (run : Run start after) {id : JobId}
    {job : JobRecord} (found : start.jobs[id]? = some job) :
    ∃ next, after.jobs[id]? = some next ∧ (next = job ∨ NewVersion start next) := by
  induction run with
  | refl => exact ⟨job, found, .inl rfl⟩
  | tail earlier step ih =>
    obtain ⟨middle, foundMiddle, change⟩ := ih
    have keyed := Reachable.keyed (reachable.trans earlier)
    obtain ⟨_, commits⟩ := step.commits keyed
    obtain ⟨next, foundNext, later⟩ := commits.job_version keyed foundMiddle
    refine ⟨next, foundNext, ?_⟩
    rcases later with rfl | new
    · exact change
    · exact .inr (new.earlier (Run.extends reachable earlier))

/-- Storing a receipt leaves the jobs as they are. -/
theorem insertSubmitJobIdempotencyLocked_jobs {key : String} {record : SubmitJobIdempotencyRecord}
    (stored : insertSubmitJobIdempotencyLocked before key record = .ok after) :
    after.jobs = before.jobs := by
  obtain ⟨_, ⟨_, rfl⟩ | ⟨_, rfl⟩⟩ := insertSubmitJobIdempotencyLocked_eq_ok.mp stored
  · rfl
  · rfl

theorem insertTerminalReceipt_jobs {request : ToolResultAuditTerminalRequest} {final : JobRecord}
    {stored : JobEvent × JobEvent × JobEvent}
    (inserted : insertTerminalReceipt before request final stored = .ok after) :
    after.jobs = before.jobs := by
  unfold insertTerminalReceipt at inserted
  split at inserted
  · exact Except.ok.inj inserted ▸ rfl
  · exact insertSubmitJobIdempotencyLocked_jobs inserted

variable {record : JobRecord}

private theorem current_of_update {event : JobEvent}
    (update : validateJobUpdate before record event = .ok ()) :
    ∃ existing, before.jobs[record.id]? = some existing ∧
      record.latestEventId = existing.latestEventId := by
  obtain ⟨existing, found, version, _⟩ := validateJobUpdate_eq_ok.mp update
  exact ⟨existing, found, version⟩

private theorem new_of_event {inner : InMemoryInner} {submitted : JobRecord} {event : JobEvent}
    {pending : PendingRecords} (same : record.id = submitted.id)
    (stored : after.jobs = (inner.withJobEvent record event).jobs)
    (checked : validateNewJobEventWithPendingRecords before event pending = .ok ()) :
    ∃ next, after.jobs[submitted.id]? = some next ∧ NewVersion before next := by
  obtain ⟨fresh, _⟩ := validateNewJobEventWithPendingRecords_eq_ok.mp checked
  refine ⟨{ record with latestEventId := some event.id }, ?_, event.id, rfl, fresh⟩
  rw [stored, ← same]
  exact withJobEvent_job inner record event

/-- A successful update names the current version and installs a new one. -/
theorem StoreOperation.exec_version {operation : StoreOperation}
    (submitted : operation.submittedJob = some record)
    (succeeded : operation.exec before = .ok (after, events)) :
    (∃ existing, before.jobs[record.id]? = some existing ∧
      record.latestEventId = existing.latestEventId) ∧
      ∃ next, after.jobs[record.id]? = some next ∧ NewVersion before next := by
  obtain ⟨_, ran, rfl⟩ := exec_eq_ok.mp succeeded
  cases operation <;> simp only [submittedJob, Option.some.injEq, reduceCtorEq] at submitted <;>
    subst submitted
  case appendJobEventAndUpdateJob =>
    obtain ⟨⟨update, checked⟩, _, _, rfl, _⟩ := appendJobEventAndUpdateJob_eq_ok.mp ran
    exact ⟨current_of_update update, new_of_event rfl rfl checked⟩
  case appendJobEventAndUpdateJobWithSubmitJobIdempotency =>
    obtain ⟨⟨update, checked⟩, _, _, receipt, _⟩ :=
      appendJobEventAndUpdateJobWithSubmitJobIdempotency_eq_ok.mp ran
    exact ⟨current_of_update update,
      new_of_event rfl (insertSubmitJobIdempotencyLocked_jobs receipt) checked⟩
  case appendJobEventsAndUpdateJob =>
    obtain ⟨⟨_, identity, update, _, _, checked⟩, _, _, rfl, _⟩ :=
      appendJobEventsAndUpdateJob_eq_ok.mp ran
    simp only [validateTwoStageJobUpdateIdentity, bind_eq_ok, exists_unit, reject_eq_ok,
      not_not] at identity
    exact ⟨current_of_update update, new_of_event identity.1.symm rfl checked⟩
  case recordToolResultAndAuditWithEvents =>
    obtain ⟨_, accepted, _, _, rfl, _⟩ := recordToolResultAndAuditWithEvents_eq_ok.mp ran
    exact ⟨current_of_update accepted.update, new_of_event rfl rfl accepted.auditEventRefs⟩
  case recordToolResultAuditTerminal request =>
    obtain ⟨final, accepted, _, receipt, _⟩ := recordToolResultAuditTerminal_eq_ok.mp ran
    exact ⟨current_of_update accepted.records.update, new_of_event
      (terminalRecord_id accepted.transition) (insertTerminalReceipt_jobs receipt) accepted.event⟩

/-- An update whose version is no longer current fails. -/
private theorem StoreOperation.exec_stale {operation : StoreOperation} {existing : JobRecord}
    (submitted : operation.submittedJob = some record)
    (found : before.jobs[record.id]? = some existing)
    (stale : existing.latestEventId ≠ record.latestEventId) :
    ∃ error, operation.exec before = .error error := by
  cases ran : operation.exec before with
  | error error => exact ⟨error, rfl⟩
  | ok result =>
    obtain ⟨⟨current, foundCurrent, version⟩, _⟩ := operation.exec_version submitted ran
    rw [found, Option.some.injEq] at foundCurrent
    exact absurd (foundCurrent ▸ version).symm stale

section Serving

variable {Registry : Type} {store : InMemoryStore Registry} {job : JobRecord}

/-- An update computed from a job that has a new version by now is refused. -/
private theorem serve_stale {update : StoreCall Registry} (sound : JobSound start job)
    (computed : update.operation.ComputedFrom job) {next : JobRecord}
    (found : store.inner.ledger.jobs[job.id]? = some next) (new : NewVersion start next) :
    ∃ error, store.serve update = (.error error, store) := by
  obtain ⟨record, submitted, sameId, version⟩ := computed
  obtain ⟨_, failed⟩ := update.operation.exec_stale submitted (sameId ▸ found)
    fun same => new.ne sound (same.trans version)
  rcases store.serve_cases update with refused | ⟨_, _, answered, _⟩
  · exact refused
  · cases failed.symm.trans (StoreOperation.exec_of_mutation answered)

/-- No job update is lost. In every interleaving of calls after a read of a job,
an update computed from that read succeeds only while the job is the one that
was read, and no other update computed from the same read succeeds later; an
update that fails leaves the store as it was. -/
theorem no_lost_job_update (reachable : Reachable store.inner.ledger)
    (read : getJob store.inner.ledger job.id = .ok job) (calls : List (StoreCall Registry))
    {update : StoreCall Registry} (computed : update.operation.ComputedFrom job) :
    let (answer, after) := (store.serveAll calls).serve update
    match answer with
    | .ok _ => getJob (store.serveAll calls).inner.ledger job.id = .ok job ∧
        ∀ laterCalls (other : StoreCall Registry), other.operation.ComputedFrom job →
          ∃ error, (after.serveAll laterCalls).serve other =
            (.error error, after.serveAll laterCalls)
    | .error _ => after = store.serveAll calls := by
  have found := getRecord_eq_ok.mp read
  have sound := reachable.sound.jobs _ _ found
  have run := store.serveAll_run calls
  rcases served : (store.serveAll calls).serve update with ⟨_ | response, after⟩
  · have kept := InMemoryStore.serve_failed (congrArg Prod.fst served)
    rwa [served] at kept
  · have succeeded := InMemoryStore.serve_ok served
    obtain ⟨record, submitted, sameId, version⟩ := computed
    obtain ⟨⟨existing, current, matching⟩, next, stored, new⟩ :=
      update.operation.exec_version submitted succeeded
    rw [sameId] at current stored
    refine ⟨?_, ?_⟩
    · obtain ⟨now, foundNow, change⟩ := Run.job_version reachable run found
      rw [current, Option.some.injEq] at foundNow
      rcases change with unchanged | changed
      · rw [getJob, getRecord_eq_ok, current, foundNow, unchanged]
      · exact absurd (foundNow ▸ matching ▸ version) (changed.ne sound)
    · intro laterCalls other otherComputed
      have finished := run.tail ⟨_, _, succeeded⟩
      obtain ⟨last, foundLast, change⟩ :=
        Run.job_version (reachable.trans finished) (after.serveAll_run laterCalls) stored
      apply serve_stale sound otherComputed foundLast
      rcases change with rfl | changed
      · exact new.earlier (Run.extends reachable run)
      · exact changed.earlier (Run.extends reachable finished)

def plainCall (operation : StoreOperation) : StoreCall Unit :=
  ⟨operation, id, fun _ _ => .ok ()⟩

/-- A store without a snapshot file, in which a job has been submitted. -/
def submittedStore : InMemoryStore Unit :=
  (InMemoryStore.empty () none).serveAll (exampleSubmission.map plainCall)

/-- Another update of the submitted job. -/
def runElsewhere : StoreOperation :=
  .appendJobEventAndUpdateJob (submittedExample.withStatus .running ⟨5⟩)
    (exampleEvent 5 (.jobStatusChanged .queued .running))

/-- The update of a submitted job succeeds after a notice of its repository, and the other
one from the same read fails. -/
theorem second_update_of_submitted_job_fails :
    Reachable submittedStore.inner.ledger ∧
      getJob submittedStore.inner.ledger exampleJob.id = .ok submittedExample ∧
      ∃ response after, (submittedStore.serveAll [plainCall (repositoryNotice 3)]).serve
          (plainCall runAndComplete) = (.ok response, after) ∧
        ∃ error, after.serve (plainCall runElsewhere) = (.error error, after) := by
  have reachable : Reachable submittedStore.inner.ledger :=
    InMemoryStore.serveAll_reachable () none _
  have read : getJob submittedStore.inner.ledger submittedExample.id = .ok submittedExample := by
    decide +kernel
  have succeeds : ((submittedStore.serveAll [plainCall (repositoryNotice 3)]).serve
      (plainCall runAndComplete)).1.isOk = true := by decide +kernel
  have computed : (plainCall runAndComplete).operation.ComputedFrom submittedExample :=
    ⟨_, rfl, rfl, rfl⟩
  have updated := no_lost_job_update reachable read [plainCall (repositoryNotice 3)] computed
  rcases served : (submittedStore.serveAll [plainCall (repositoryNotice 3)]).serve
      (plainCall runAndComplete) with ⟨_ | response, after⟩
  · rw [served] at succeeds
    cases succeeds
  · rw [served] at updated
    obtain ⟨error, refused⟩ := updated.2 [] (plainCall runElsewhere) ⟨_, rfl, rfl, rfl⟩
    exact ⟨reachable, read, response, after, rfl, error, refused⟩

end Serving

end Atelia.Store
