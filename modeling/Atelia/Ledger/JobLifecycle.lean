import Atelia.Ledger.Publish

/-! The lifecycle of a job over whole runs. -/

namespace Atelia.Store

variable {before middle after : InMemoryInner} {events : List JobEvent}
  {admits : JobRecord → Prop}

/-- What stays of a job while it is updated. -/
structure JobKept (job next : JobRecord) : Prop where
  id : next.id = job.id
  repositoryId : next.repositoryId = job.repositoryId
  schemaVersion : next.schemaVersion = job.schemaVersion
  createdAt : next.createdAt = job.createdAt
  requester : next.requester = job.requester
  kind : next.kind = job.kind
  goal : next.goal = job.goal
  updatedAt : job.updatedAt ≤ next.updatedAt
  startedAt : ∀ moment, job.startedAt = some moment → next.startedAt = some moment
  completedAt : ∀ moment, job.completedAt = some moment → next.completedAt = some moment
  cancellation : next.cancellationState = job.cancellationState ∨
    (job.cancellationState = .notRequested ∧ next.cancellationState = .requested)
  terminal : job.status.isTerminal = true → next.status = job.status

theorem JobKept.refl (job : JobRecord) : JobKept job job :=
  ⟨rfl, rfl, rfl, rfl, rfl, rfl, rfl, le_refl _, fun _ present => present,
    fun _ present => present, .inl rfl, fun _ => rfl⟩

theorem JobKept.trans {first second third : JobRecord} (early : JobKept first second)
    (late : JobKept second third) : JobKept first third where
  id := late.id.trans early.id
  repositoryId := late.repositoryId.trans early.repositoryId
  schemaVersion := late.schemaVersion.trans early.schemaVersion
  createdAt := late.createdAt.trans early.createdAt
  requester := late.requester.trans early.requester
  kind := late.kind.trans early.kind
  goal := late.goal.trans early.goal
  updatedAt := le_trans early.updatedAt late.updatedAt
  startedAt moment present := late.startedAt moment (early.startedAt moment present)
  completedAt moment present := late.completedAt moment (early.completedAt moment present)
  cancellation := by
    rcases early.cancellation with same | ⟨open_, requested⟩
    · rw [← same]
      exact late.cancellation
    · rcases late.cancellation with same | ⟨impossible, _⟩
      · exact .inr ⟨open_, same.trans requested⟩
      · rw [requested] at impossible
        exact absurd impossible (by decide)
  terminal ended := by
    have same := early.terminal ended
    exact (late.terminal (same.symm ▸ ended)).trans same

theorem JobKept.of_update {existing record : JobRecord} {event : JobEvent}
    (update : JobUpdate existing record event) (same : record.id = existing.id)
    (latestEventId : Option JobEventId) : JobKept existing { record with latestEventId } where
  id := same
  repositoryId := update.repositoryId
  schemaVersion := update.schemaVersion
  createdAt := update.createdAt
  requester := update.requester
  kind := update.kind
  goal := update.goal
  updatedAt := update.updatedAt
  startedAt moment present := by
    rcases update.status with ⟨_, started, _⟩ | ⟨_, _, _, _, started, _⟩
    · exact started.trans present
    · rw [started]
      simp [JobRecord.withStatus, present]
  completedAt moment present := by
    rcases update.status with ⟨_, _, completed⟩ | ⟨_, _, _, _, _, completed⟩
    · exact completed.trans present
    · rw [completed]
      simp [JobRecord.withStatus, present]
  cancellation := by
    rcases update.cancellation with unchanged | ⟨open_, requested, _⟩
    · exact .inl unchanged
    · exact .inr ⟨open_, requested⟩
  terminal ended := by
    rcases update.status with ⟨unchanged, _⟩ | ⟨_, _, allowed, _⟩
    · exact unchanged
    · exact JobStatus.eq_of_terminal_transition ended allowed

/-- A status change of a job that an event appended since announces. -/
def Announced (before after : InMemoryInner) (jobId : JobId) (source target : JobStatus) : Prop :=
  source ≠ target ∧ source.canTransitionTo target = true ∧
    ∃ event : JobEvent, before.jobEventsById[event.id]? = none ∧
      after.jobEventsById[event.id]? = some event ∧
      event.kind = .jobStatusChanged source target ∧ event.refs.jobId = some jobId

theorem Announced.extend {inner : InMemoryInner} {jobId : JobId} {source target : JobStatus}
    (announced : Announced middle after jobId source target) (earlier : Extends before middle)
    (later : Extends after inner) : Announced before inner jobId source target := by
  obtain ⟨different, allowed, event, fresh, stored, kind, job⟩ := announced
  refine ⟨different, allowed, event, ?_, later.jobEvents.lookup stored, kind, job⟩
  cases found : before.jobEventsById[event.id]? with
  | none => rfl
  | some early =>
    rw [earlier.jobEvents.lookup found] at fresh
    exact absurd fresh (by simp)

variable {job : JobRecord} {id : JobId}

/-- How a commit changes a stored job. -/
theorem Commit.job_change (commit : Commit admits before events after)
    (found : before.jobs[id]? = some job) :
    ∃ next, after.jobs[id]? = some next ∧ (next = job ∨ ∃ event ∈ events, JobUpdate job next event ∧
      next.latestEventId = some event.id ∧ before.jobEventsById[event.id]? = none ∧
      after.jobEventsById[event.id]? = some event) := by
  cases commit
  case createJob fresh _ _ =>
    exact ⟨job, Table.lookup_insert_fresh fresh found, .inl rfl⟩
  case updateJob existing record event foundExisting update appended =>
    by_cases same : record.id = id
    · subst same
      rw [found, Option.some.injEq] at foundExisting
      subst foundExisting
      refine ⟨_, withJobEvent_job _ _ _, .inr ⟨before.numbered event, List.mem_singleton_self _, ?_,
        rfl, appended.fresh, Table.lookup_insert_same _ _ _⟩⟩
      exact ⟨update.repositoryId, update.schemaVersion, update.createdAt, update.requester,
        update.kind, update.goal, update.updatedAt, update.status, update.running,
        update.completed, update.cancellation, update.policySummary, update.eventJob,
        update.eventRepository⟩
    · exact ⟨job, (Table.lookup_insert_other same).trans found, .inl rfl⟩
  all_goals exact ⟨job, found, .inl rfl⟩

theorem Commit.job_kept (commit : Commit admits before events after) (keyed : Keyed before)
    (found : before.jobs[id]? = some job) :
    ∃ next, after.jobs[id]? = some next ∧ JobKept job next ∧
      (next.status = job.status ∨ Announced before after id job.status next.status) := by
  obtain ⟨next, foundNext, same | ⟨event, _, update, latest, fresh, stored⟩⟩ :=
    commit.job_change found
  · exact ⟨next, foundNext, same ▸ .refl job, .inl (same ▸ rfl)⟩
  · have sameId : next.id = job.id := by
      rw [(commit.keyed keyed).jobs id next foundNext, keyed.jobs id job found]
    refine ⟨next, foundNext, .of_update update sameId next.latestEventId, ?_⟩
    rcases update.status with ⟨unchanged, _⟩ | ⟨announced, different, allowed, _⟩
    · exact .inl unchanged
    · have named : event.refs.jobId = some id := by
        rw [update.eventJob, (commit.keyed keyed).jobs id next foundNext]
      exact .inr ⟨different, allowed, event, fresh, stored, announced, named⟩

/-- A chain of commits without an event of a job leaves the job as it is. -/
theorem Commits.job_unchanged (commits : Commits admits before events after) (keyed : Keyed before)
    (found : before.jobs[id]? = some job) (spared : ∀ event ∈ events, event.refs.jobId ≠ some id) :
    after.jobs[id]? = some job := by
  induction commits with
  | none => exact found
  | next first rest ih =>
    have spare := List.forall_mem_append.mp spared
    obtain ⟨next, foundNext, same | ⟨event, member, update, _⟩⟩ := first.job_change found
    · exact ih (first.keyed keyed) (same ▸ foundNext) spare.2
    · have named : event.refs.jobId = some id := by
        rw [update.eventJob, (first.keyed keyed).jobs id next foundNext]
      exact absurd named (spare.1 event member)

/-- A chain of commits moves the status of a job along announced changes. -/
theorem Commits.job_kept (commits : Commits admits before events after) (keyed : Keyed before)
    (found : before.jobs[id]? = some job) :
    ∃ next, after.jobs[id]? = some next ∧ JobKept job next ∧
      Relation.ReflTransGen (Announced before after id) job.status next.status := by
  induction commits generalizing job with
  | none => exact ⟨job, found, .refl job, .refl⟩
  | @next before middle after _ _ first rest ih =>
    have early := first.extends keyed
    have keyedMiddle := first.keyed keyed
    obtain ⟨job', found', kept, moved⟩ := first.job_kept keyed found
    obtain ⟨last, foundLast, keptLast, path⟩ := ih keyedMiddle found'
    have later := rest.extends keyedMiddle
    have path' : Relation.ReflTransGen (Announced before after id) job'.status last.status :=
      path.lift (fun status => status) fun _ _ announced => announced.extend early (.refl _)
    refine ⟨last, foundLast, kept.trans keptLast, ?_⟩
    rcases moved with unchanged | announced
    · exact unchanged ▸ path'
    · exact .head (announced.extend (.refl _) later) path'

/-- The status graph has no path of three changes. -/
theorem announced_path_short {source target : JobStatus}
    (path : Relation.ReflTransGen (Announced before after id) source target) :
    target = source ∨ Announced before after id source target ∨
      ∃ between, Announced before after id source between ∧
        Announced before after id between target := by
  induction path with
  | refl => exact .inl rfl
  | @tail between target _ last ih =>
    rcases ih with rfl | first | ⟨early, first, second⟩
    · exact .inr (.inl last)
    · exact .inr (.inr ⟨between, first, last⟩)
    · -- three changes in a row: the middle ones already end in a terminal status
      have ended := JobStatus.terminal_of_two_transitions first.1 first.2.1 second.1 second.2.1
      exact absurd (JobStatus.eq_of_terminal_transition ended last.2.1).symm last.1

theorem Run.job_kept (reachable : Reachable before) (run : Run before after)
    (found : before.jobs[id]? = some job) :
    ∃ next, after.jobs[id]? = some next ∧ JobKept job next := by
  induction run with
  | refl => exact ⟨job, found, .refl job⟩
  | tail earlier step ih =>
    obtain ⟨middle, foundMiddle, kept⟩ := ih
    obtain ⟨_, commits⟩ := step.commits (Reachable.keyed (reachable.trans earlier))
    obtain ⟨next, foundNext, keptNext, _⟩ :=
      commits.job_kept (Reachable.keyed (reachable.trans earlier)) foundMiddle
    exact ⟨next, foundNext, kept.trans keptNext⟩

section Times

/-- The timestamps of a job are those of its status, and none precedes its creation. -/
structure JobTimed (job : JobRecord) : Prop where
  updated : job.createdAt ≤ job.updatedAt
  started : ∀ moment, job.startedAt = some moment → job.createdAt ≤ moment
  completed : ∀ moment, job.completedAt = some moment → job.createdAt ≤ moment
  running : job.status = .running → job.startedAt ≠ none
  terminal : job.status.isTerminal = true ↔ job.completedAt ≠ none

theorem JobTimed.of_new (new : job.IsNew) : JobTimed job := by
  obtain ⟨uuid, requester, repositoryId, kind, goal, createdAt, rfl⟩ := new
  exact {
    updated := le_refl _
    started := by simp [JobRecord.new]
    completed := by simp [JobRecord.new]
    running := by simp [JobRecord.new]
    terminal := by simp [JobRecord.new, JobStatus.isTerminal] }

/-- The timestamps of a transition do not precede the creation of the job. -/
private theorem withStatus_timestamps {next : JobStatus} {moment : LedgerTimestamp}
    (timed : JobTimed job) (late : job.createdAt ≤ moment) :
    (∀ time, (job.withStatus next moment).startedAt = some time → job.createdAt ≤ time) ∧
      ∀ time, (job.withStatus next moment).completedAt = some time → job.createdAt ≤ time := by
  constructor
  · intro time present
    simp only [JobRecord.withStatus] at present
    split at present
    · exact Option.some.inj present ▸ late
    · exact timed.started time present
  · intro time present
    simp only [JobRecord.withStatus] at present
    split at present
    · exact Option.some.inj present ▸ late
    · exact timed.completed time present

theorem JobTimed.update {existing record : JobRecord} {event : JobEvent}
    (timed : JobTimed existing) (change : JobUpdate existing record event) : JobTimed record := by
  have late : record.createdAt ≤ record.updatedAt := by
    rw [change.createdAt]
    exact le_trans timed.updated change.updatedAt
  have stamped : (∀ time, record.startedAt = some time → record.createdAt ≤ time) ∧
      ∀ time, record.completedAt = some time → record.createdAt ≤ time := by
    rcases change.status with ⟨_, started, completed⟩ | ⟨_, _, _, _, started, completed⟩
    · rw [started, completed, change.createdAt]
      exact ⟨timed.started, timed.completed⟩
    · rw [started, completed, change.createdAt]
      exact withStatus_timestamps timed (change.createdAt ▸ late)
  exact ⟨late, stamped.1, stamped.2, change.running, change.completed⟩

theorem JobTimed.version (timed : JobTimed job) (latestEventId : Option JobEventId) :
    JobTimed { job with latestEventId } :=
  ⟨timed.updated, timed.started, timed.completed, timed.running, timed.terminal⟩

theorem Commit.jobsTimed (commit : Commit JobRecord.IsNew before events after)
    (timed : before.jobs.Every JobTimed) : after.jobs.Every JobTimed := by
  cases commit
  case createJob admitted _ _ _ _ => exact timed.insert ((JobTimed.of_new admitted).version _) _
  case updateJob found update appended =>
    exact timed.insert (((timed _ _ found).update update).version _) _
  all_goals exact timed

/-- In every run that creates its jobs as `JobRecord.new` does, every job is timed. -/
theorem ReachableByNewJobs.timed {inner : InMemoryInner} (reached : ReachableByNewJobs inner) :
    inner.jobs.Every JobTimed :=
  reached.induct (fun inner => inner.jobs.Every JobTimed) .empty fun _ => Commit.jobsTimed

end Times

/-- The lifecycle of every job in every run: its finished and running states
carry their timestamps; an operation moves its status along at most two announced
changes; and whatever happens later keeps its identity, its timestamps and a
terminal status. -/
theorem job_lifecycle (reached : ReachableByNewJobs before) {id : JobId} {job : JobRecord}
    (found : before.jobs[id]? = some job) :
    (job.status.isTerminal = true ↔ job.completedAt ≠ none) ∧
      (job.status = .running → job.startedAt ≠ none) ∧
      (∀ after, Step before after → ∃ next, after.jobs[id]? = some next ∧
        (next.status = job.status ∨ Announced before after id job.status next.status ∨
          ∃ between, Announced before after id job.status between ∧
            Announced before after id between next.status)) ∧
      ∀ after, Run before after → ∃ next, after.jobs[id]? = some next ∧ JobKept job next := by
  have reachable := reached.reachable
  have timed := reached.timed id job found
  refine ⟨timed.terminal, timed.running, ?_, ?_⟩
  · intro after step
    obtain ⟨_, commits⟩ := step.commits reachable.keyed
    obtain ⟨next, foundNext, _, path⟩ := commits.job_kept reachable.keyed found
    exact ⟨next, foundNext, announced_path_short path⟩
  · intro after run
    exact Run.job_kept reachable run found

section SingleOperation

/-! A run that submits a job, and one operation that then runs and completes it. -/

def exampleRepository : RepositoryRecord :=
  .new (.ofNat 0) "ledger" "/srv/ledger" .trusted ⟨0⟩

def exampleJob : JobRecord :=
  .new (.ofNat 0) (.user "user" none) exampleRepository.id .read none ⟨0⟩

def exampleEvent (number : Nat) (kind : JobEventKind) : JobEvent :=
  jobEvent (.ofNat number) ⟨0⟩ (.job exampleJob.id) kind .info "lifecycle" (refsForJob exampleJob)

def exampleSubmission : List StoreOperation :=
  [.createRepository exampleRepository,
    .createJob exampleJob (exampleEvent 0 .jobSubmitted)]

theorem exampleSubmission_admitted :
    ∀ operation ∈ exampleSubmission, operation.Admitted JobRecord.IsNew := by
  intro operation member
  simp only [exampleSubmission, List.mem_cons, List.not_mem_nil, or_false] at member
  rcases member with rfl | rfl
  · trivial
  · exact ⟨_, _, _, _, _, _, rfl⟩

def submittedExample : JobRecord :=
  { exampleJob with latestEventId := some (exampleEvent 0 .jobSubmitted).id }

def runAndComplete : StoreOperation :=
  let running := submittedExample.withStatus .running ⟨1⟩
  .appendJobEventsAndUpdateJob running (exampleEvent 1 (.jobStatusChanged .queued .running))
    (running.withStatus .succeeded ⟨2⟩) (exampleEvent 2 (.jobStatusChanged .running .succeeded))

def jobNotice (number : Nat) : StoreOperation :=
  .appendJobEvent (exampleEvent number .message)

def repositoryNotice (number : Nat) : StoreOperation :=
  .appendJobEvent
    (jobEvent (.ofNat number) ⟨0⟩ (.repository exampleRepository.id) .message .info "notice" {})

private def completesExample (before : InMemoryInner) : Bool :=
  match StoreOperation.exec before runAndComplete with
  | .ok (after, _) => before.jobs[exampleJob.id]? = some submittedExample &&
      after.jobs[exampleJob.id]?.map (·.status) = some .succeeded
  | .error _ => false

private theorem completesExample_reached : reaches exampleSubmission completesExample = true := by
  decide +kernel

theorem example_completes :
    ∃ before after events, ReachableByNewJobs before ∧
      runAndComplete.exec before = .ok (after, events) ∧
      before.jobs[exampleJob.id]? = some submittedExample ∧
      ∃ next, after.jobs[exampleJob.id]? = some next ∧ next.status = .succeeded := by
  obtain ⟨before, reachable, completes⟩ :=
    ReachableByNewJobs.of_reaches exampleSubmission_admitted completesExample_reached
  unfold completesExample at completes
  split at completes
  · rename_i after events succeeded
    simp only [Bool.and_eq_true, decide_eq_true_eq, Option.map_eq_some_iff] at completes
    obtain ⟨found, next, foundNext, finished⟩ := completes
    exact ⟨before, after, events, reachable, succeeded, found, next, foundNext, finished⟩
  · exact absurd completes Bool.false_ne_true

/-- One operation can move a job from queued to succeeded, which is no
transition of the status graph. -/
theorem one_operation_completes_queued_job :
    ∃ before after, ReachableByNewJobs before ∧ Step before after ∧ ∃ (id : JobId) (job next : JobRecord),
      before.jobs[id]? = some job ∧ after.jobs[id]? = some next ∧ next.status ≠ job.status ∧
        job.status.canTransitionTo next.status = false := by
  obtain ⟨before, after, events, reachable, succeeded, found, next, foundNext, finished⟩ :=
    example_completes
  refine ⟨before, after, reachable, ⟨_, events, succeeded⟩, exampleJob.id, submittedExample, next,
    found, foundNext, ?_, ?_⟩
  · rw [finished]
    decide
  · rw [finished]
    decide

/-- The two changes of that operation are announced by two events. -/
theorem one_operation_announces_two_changes :
    ∃ before after id, ReachableByNewJobs before ∧ Step before after ∧
      Announced before after id .queued .running ∧ Announced before after id .running .succeeded := by
  obtain ⟨before, after, events, reachable, succeeded, found, next, foundNext, finished⟩ :=
    example_completes
  obtain ⟨_, _, moves, _⟩ := job_lifecycle reachable found
  obtain ⟨last, foundLast, moved⟩ := moves after ⟨_, events, succeeded⟩
  rw [foundNext, Option.some.injEq] at foundLast
  rw [← foundLast, finished] at moved
  rcases moved with same | direct | ⟨between, first, second⟩
  · exact absurd same (by decide)
  · exact absurd direct.2.1 (by decide)
  · have through : between = .running := by
      have enters : JobStatus.queued.canTransitionTo between = true := first.2.1
      have leaves := second.2.1
      have moving : JobStatus.queued ≠ between := first.1
      cases between <;> simp_all [JobStatus.canTransitionTo]
    subst through
    exact ⟨before, after, exampleJob.id, reachable, ⟨_, events, succeeded⟩, first, second⟩

end SingleOperation

end Atelia.Store
