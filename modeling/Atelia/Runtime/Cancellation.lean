import Atelia.Runtime.Histories
import Atelia.Runtime.RunToolJob
import Atelia.Ledger.JobEnds

/-! `cancel_job` beside other calls. -/

namespace Atelia.Runtime

open Store

variable {Call : Type} [DecidableEq Call] {call : Call} {target : JobId} {reason : String}
  {world later : World Call}

/-- The operation with which a job is canceled. -/
inductive Cancels (target : JobId) : StoreOperation → Prop where
  | operation {requested canceled : JobRecord} {cancelEvent statusEvent : JobEvent}
      (named : requested.id = target)
      (unended : requested.status.isTerminal = false) (status : canceled.status = .canceled)
      (cancelKind : cancelEvent.kind = .cancellationRequested)
      (statusKind : statusEvent.kind = .jobStatusChanged requested.status .canceled) :
    Cancels target (.appendJobEventsAndUpdateJob requested cancelEvent canceled statusEvent)

/-- What a cancel has done so far: nothing, or its one operation. -/
def CancelPath (call : Call) (target : JobId) (world : World Call) : Prop :=
  world.own call = [] ∨ ∃ operation, Cancels target operation ∧ world.own call = [.committed operation]

/-- A failure of a cancel on a job that has ended, from what the cancel has been told:
a conflict, unless the cancel found the job open and its clock was then behind that
record of the job. -/
inductive CancelRefusal (target : JobId) (told : List Reading) : RuntimeError → Prop where
  | conflict (reason : String) : CancelRefusal target told (.store (.conflict "jobs" reason))
  | lateClock {job : JobRecord} {created moment : LedgerTimestamp} (named : job.id = target)
      (unended : job.status.isTerminal = false)
      (read : [.job job, .clock created, .clock moment] <:+ told)
      (late : moment < job.latestTimestamp) :
    CancelRefusal target told
      (.jobStatusTransition (.nonMonotonicTimestamp moment job.latestTimestamp))

/-- What a cancel says when it returns. -/
def CancelReturned (call : Call) (target : JobId) (outcome : Except RuntimeError CancelJobReceipt)
    (world : World Call) : Prop :=
  match outcome with
  | .ok _ => ∃ operation, Cancels target operation ∧ world.own call = [.committed operation]
  | .error error => world.own call = [] ∧
    (world.issued.Nodup → Ended world.ledger target →
      CancelRefusal target (world.told call) error)

def CancelProceeds (call : Call) (target : JobId) (before after : World Call) : Prop :=
  World.Moves call before after ∧ CancelPath call target after

/-- Before its write a cancel knows the job as it was at some time. -/
structure Knows (call : Call) (job : JobRecord) (world : World Call) : Prop where
  unused : world.own call = []
  read : ∃ seen, Reachable seen ∧ Run seen world.ledger ∧ seen.jobs[job.id]? = some job

theorem Knows.others {job : JobRecord} (knows : Knows call job world)
    (moved : World.Others call world later) : Knows call job later where
  unused := moved.own.trans knows.unused
  read := by
    obtain ⟨seen, reachable, run, found⟩ := knows.read
    exact ⟨seen, reachable, run.trans moved.run, found⟩

/-- A job that is no longer as it was read cannot be updated from that read. -/
theorem stale_update_conflict {seen inner : InMemoryInner} {job record : JobRecord}
    (event : JobEvent) (reachable : Reachable seen) (run : Run seen inner)
    (found : seen.jobs[job.id]? = some job) (sameId : record.id = job.id)
    (sameVersion : record.latestEventId = job.latestEventId)
    (unended : job.status.isTerminal = false) (ended : Ended inner job.id) :
    ∃ reason, validateJobUpdate inner record event = .error (.conflict "jobs" reason) := by
  obtain ⟨next, foundNext, change⟩ := Run.job_version reachable run found
  obtain ⟨current, foundCurrent, terminal⟩ := ended
  obtain rfl := Option.some.inj (foundNext.symm.trans foundCurrent)
  have stale : record.latestEventId ≠ next.latestEventId := by
    rw [sameVersion]
    rcases change with rfl | new
    · rw [terminal] at unended
      cases unended
    · exact (new.ne (reachable.sound.jobs _ _ found)).symm
  unfold validateJobUpdate
  rw [sameId, foundNext]
  exact ⟨_, by simp [Outcome.okOr, Outcome.reject, stale, bind, Except.bind]; rfl⟩

/-- A two-event update whose events differ fails as its first update does. -/
theorem appendJobEvents_refused {inner : InMemoryInner} {first final : JobRecord}
    {firstEvent finalEvent : JobEvent} {error : StoreError} (distinct : firstEvent.id ≠ finalEvent.id)
    (same : first.id = final.id) (firstJob : firstEvent.refs.jobId = some first.id)
    (finalJob : finalEvent.refs.jobId = some first.id)
    (refused : validateJobUpdate inner first firstEvent = .error error) :
    Store.appendJobEventsAndUpdateJob first firstEvent final finalEvent inner = .error error := by
  have identity : validateTwoStageJobUpdateIdentity first firstEvent final finalEvent = .ok () := by
    simp [validateTwoStageJobUpdateIdentity, Outcome.checkAll, Outcome.reject, same, firstJob,
      finalJob]
  unfold Store.appendJobEventsAndUpdateJob mutateWithPublishedEvents
  simp only [validateSiblingEventIdsAreUnique, Outcome.ensure, if_pos distinct, identity, refused]
  rfl

section Meets

variable {job : JobRecord} {holds : World Call → Prop} {read : List Reading}

/-- What a cancel knows before its write: the others and its own readings of the
clock and of new identifiers leave it true. -/
structure Steady (call : Call) (holds : World Call → Prop) : Prop where
  unused : ∀ world, holds world → world.own call = []
  others : ∀ before after, holds before → World.Others call before after → holds after
  quiet : ∀ before after : World Call, holds before → after.ledger = before.ledger →
    after.history = before.history → before.issued <:+ after.issued → holds after

theorem Steady.knows : Steady call (Knows call job) where
  unused _ knows := knows.unused
  others _ _ knows moved := knows.others moved
  quiet _ _ knows ledger history _ := by
    refine ⟨?_, ledger ▸ knows.read⟩
    rw [World.own, history]
    exact knows.unused

/-- Facts about the drawn identifiers survive further draws. -/
theorem Steady.and_issued (steady : Steady call holds) (drawn : List Uuid → Prop)
    (grows : ∀ early late, early <:+ late → drawn early → drawn late) :
    Steady call fun world => holds world ∧ drawn world.issued where
  unused world held := steady.unused world held.1
  others before after held moved :=
    ⟨steady.others before after held.1 moved, grows _ _ moved.2.1 held.2⟩
  quiet before after held ledger history issued :=
    ⟨steady.quiet before after held.1 ledger history issued, grows _ _ issued held.2⟩

variable {α : Type} {post : Except RuntimeError α → World Call → Prop}

theorem Steady.now_meets (steady : Steady call holds) (held : holds world)
    (told : read <:+ world.told call) :
    now.Meets (Serves call) (World.Others call) (CancelProceeds call target)
      (Program.continued (fun moment world => holds world ∧
        read ++ [.clock moment] <:+ world.told call) post) world := by
  intro later moved moment after served
  have current := steady.others _ _ held moved
  have arrived : holds after := by
    obtain rfl : after = _ := served
    exact steady.quiet _ _ current rfl rfl (List.suffix_refl _)
  refine ⟨⟨served.moves, .inl (steady.unused _ arrived)⟩, arrived, ?_⟩
  obtain rfl : after = _ := served
  obtain ⟨earlier, told⟩ := told
  rw [World.told_inform, moved.told, ← told]
  exact ⟨earlier, (List.append_assoc _ _ _).symm⟩

theorem Steady.newUuid_meets (steady : Steady call holds) (held : holds world)
    (told : read <:+ world.told call) :
    newUuid.Meets (Serves call) (World.Others call) (CancelProceeds call target)
      (Program.continued (fun uuid world => holds world ∧ read <:+ world.told call ∧
        ∃ earlier : World Call, holds earlier ∧ world.issued = uuid :: earlier.issued) post)
      world := by
  intro later moved uuid after served
  have current := steady.others _ _ held moved
  have arrived : holds after := by
    obtain rfl : after = _ := served
    exact steady.quiet _ _ current rfl rfl (List.suffix_cons _ _)
  refine ⟨⟨served.moves, .inl (steady.unused _ arrived)⟩, arrived, ?_, later, current, ?_⟩
  · obtain rfl : after = _ := served
    exact moved.told ▸ told
  · obtain rfl : after = _ := served
    rfl

/-- The last command of a cancel: the operation, or the reason why not. -/
theorem cancel_store_meets {requested canceled : JobRecord} {cancelEvent statusEvent : JobEvent}
    (cancels : Cancels target (.appendJobEventsAndUpdateJob requested cancelEvent canceled statusEvent))
    (named : requested.id = target) (sameJob : requested.id = job.id)
    (sameVersion : requested.latestEventId = job.latestEventId)
    (unended : job.status.isTerminal = false) (sameId : requested.id = canceled.id)
    (cancelJob : cancelEvent.refs.jobId = some requested.id)
    (statusJob : statusEvent.refs.jobId = some requested.id)
    (knows : Knows call job world)
    (distinct : ∀ later, World.Others call world later → later.issued.Nodup →
      cancelEvent.id ≠ statusEvent.id)
    {receipt : JobEvent × JobEvent → CancelJobReceipt} :
    (store (.appendJobEventsAndUpdateJob requested cancelEvent canceled statusEvent) >>=
      fun stored => (pure (receipt stored) : Routine CancelJobReceipt)).Meets (Serves call)
      (World.Others call) (CancelProceeds call target) (CancelReturned call target) world := by
  intro later moved answer after served
  have knows := knows.others moved
  cases answer with
  | ok response =>
    obtain ⟨ledger, answered, rfl⟩ := id served
    have own := (World.own_commit later call (.appendJobEventsAndUpdateJob requested cancelEvent
      canceled statusEvent) ledger).trans (congrArg (· ++ _) knows.unused)
    exact ⟨⟨served.moves, .inr ⟨_, cancels, own⟩⟩, _, cancels, own⟩
  | error error =>
    obtain ⟨rfl, refusal⟩ := id served
    refine ⟨⟨served.moves, .inl knows.unused⟩, knows.unused, ?_⟩
    intro nodup ended
    obtain ⟨seen, reachable, run, found⟩ := knows.read
    obtain ⟨reason, stale⟩ := stale_update_conflict cancelEvent reachable run found
      sameJob sameVersion unended (sameJob ▸ named ▸ ended)
    have refused := appendJobEvents_refused (distinct _ moved nodup) sameId cancelJob statusJob stale
    obtain rfl := refusal _ refused
    exact .conflict reason

theorem Steady.newJobEvent_meets (steady : Steady call holds) (held : holds world)
    (told : read <:+ world.told call) (subject : EventSubject) (kind : JobEventKind)
    (severity : EventSeverity)
    (publicMessage : String) (refs : EventRefs) :
    (newJobEvent subject kind severity publicMessage refs).Meets (Serves call) (World.Others call)
      (CancelProceeds call target)
      (Program.continued (fun event world => ∃ uuid createdAt, holds world ∧
        read ++ [.clock createdAt] <:+ world.told call ∧
        (∃ earlier : World Call, holds earlier ∧ uuid :: earlier.issued <:+ world.issued) ∧
        event = jobEvent uuid createdAt subject kind severity publicMessage refs) post) world := by
  refine (steady.newUuid_meets held told).followedBy fun uuid world drawn => ?_
  have steady' := steady.and_issued (fun issued => ∃ earlier : World Call,
    holds earlier ∧ uuid :: earlier.issued <:+ issued) (by
      rintro early late suffix ⟨earlier, held, drawn⟩
      exact ⟨earlier, held, drawn.trans suffix⟩)
  obtain ⟨held, told, earlier, before, issued⟩ := drawn
  refine (steady'.now_meets ⟨held, earlier, before, issued ▸ List.suffix_refl _⟩ told).followedBy
    fun createdAt world drawn => ?_
  obtain ⟨⟨held, issued⟩, told⟩ := drawn
  exact ⟨uuid, createdAt, held, told, issued, rfl⟩

/-- A queued or running job can be canceled unless the clock is behind it. -/
theorem transitionStatus_canceled_meets {record : JobRecord} {moment : LedgerTimestamp}
    (unended : record.status.isTerminal = false) (unused : world.own call = [])
    (late : moment < record.latestTimestamp → CancelRefusal target (world.told call)
      (.jobStatusTransition (.nonMonotonicTimestamp moment record.latestTimestamp))) :
    (transitionStatus record .canceled moment).Meets (Serves call) (World.Others call)
      (CancelProceeds call target) (Program.continued (fun canceled state => state = world ∧
        canceled = record.withStatus .canceled moment) (CancelReturned call target)) world := by
  have allowed : record.status.canTransitionTo .canceled = true := by
    cases status : record.status <;> simp_all [JobStatus.isTerminal, JobStatus.canTransitionTo]
  have transition : record.transitionStatus .canceled moment =
      if moment < record.latestTimestamp then
        .error (.nonMonotonicTimestamp moment record.latestTimestamp)
      else .ok (record.withStatus .canceled moment) := by
    unfold JobRecord.transitionStatus JobRecord.ensureMonotonicTransitionTimestamp
    rw [Outcome.ensure, if_pos allowed]
    by_cases behind : moment < record.latestTimestamp
    · simp [Outcome.reject, behind, bind, Except.bind]
    · simp [Outcome.reject, behind, bind, Except.bind, pure, Except.pure]
  unfold transitionStatus
  rw [transition]
  by_cases behind : moment < record.latestTimestamp
  · rw [if_pos behind]
    exact ⟨unused, fun _ _ => late behind⟩
  · rw [if_neg behind]
    exact ⟨rfl, rfl⟩

theorem cancelOpenJob_meets (knows : Knows call job world) (named : job.id = target)
    (told : [.job job] <:+ world.told call) (unended : job.status.isTerminal = false) :
    (cancelOpenJob job reason).Meets (Serves call) (World.Others call) (CancelProceeds call target)
      (CancelReturned call target) world := by
  have steady : Steady call (Knows call job) := .knows
  unfold cancelOpenJob
  refine (steady.newJobEvent_meets knows told _ _ _ _ _).followedBy fun event world made => ?_
  obtain ⟨uuid, createdAt, knows, told, ⟨_, _, drawn⟩, rfl⟩ := made
  have first : uuid ∈ world.issued := drawn.subset List.mem_cons_self
  have steady := steady.and_issued (fun issued => uuid ∈ issued)
    fun early late suffix member => suffix.subset member
  refine (steady.now_meets ⟨knows, first⟩ told).followedBy fun moment world arrived => ?_
  obtain ⟨held, told⟩ := arrived
  refine (transitionStatus_canceled_meets (by exact unended) held.1.unused
    (by exact @CancelRefusal.lateClock _ _ job createdAt moment named unended told)).followedBy
    fun canceled state moved => ?_
  obtain ⟨rfl, rfl⟩ := moved
  refine (steady.newJobEvent_meets held told _ _ _ _ _).followedBy fun event world made => ?_
  obtain ⟨statusUuid, statusTime, held, _, ⟨earlier, before, drawn⟩, rfl⟩ := made
  have distinct : ∀ later, World.Others call world later → later.issued.Nodup →
      uuid ≠ statusUuid := by
    intro later moved nodup same
    have fresh := (nodup.sublist ((drawn.trans moved.2.1).sublist))
    exact (List.nodup_cons.mp fresh).1 (same ▸ before.2)
  refine cancel_store_meets (by exact ⟨named, unended, rfl, rfl, rfl⟩) (by exact named) (by rfl)
    (by rfl) unended (by rfl) (by rfl) (by rfl) held.1 ?_
  intro later moved nodup same
  exact distinct later moved nodup (Identifier.new_injective same)

/-- A cancel keeps to its one operation, and says truly how it ended. -/
theorem cancelJob_meets (reachable : Reachable world.ledger) (unused : world.own call = []) :
    (cancelJob target reason).Meets (Serves call) (World.Others call) (CancelProceeds call target)
      (CancelReturned call target) world := by
  intro later moved answer after served
  obtain ⟨answered, informed⟩ := id served
  have ledger : after.ledger = later.ledger := by rw [informed]; rfl
  rw [← ledger] at answered
  have reachable : Reachable after.ledger := ledger ▸ reachable.trans moved.run
  have own : after.own call = [] := by
    rw [informed]
    exact moved.own.trans unused
  refine ⟨⟨served.moves, .inl own⟩, ?_⟩
  cases answer with
  | error error =>
    refine ⟨own, fun _ ended => ?_⟩
    obtain ⟨record, found, _⟩ := ended
    rw [Store.getJob, getRecord_eq_ok.mpr found] at answered
    cases answered
  | ok job =>
    have found := getRecord_eq_ok.mp answered.symm
    have named : job.id = target := reachable.keyed.jobs _ _ found
    have knows : Knows call job after := ⟨own, after.ledger, reachable, .refl, named ▸ found⟩
    change Program.Meets _ _ _ _ (Program.bind (.ofExcept (Outcome.reject _ _)) _) after
    by_cases ended : job.status ≠ .queued ∧ job.status ≠ .running
    · rw [Outcome.reject, if_pos ended]
      exact ⟨own, fun _ _ => .conflict _⟩
    · rw [Outcome.reject, if_neg ended]
      have unended : job.status.isTerminal = false := by
        revert ended
        cases job.status <;> decide
      refine cancelOpenJob_meets knows named ?_ unended
      rw [informed, World.told_inform]
      exact List.suffix_append _ _

end Meets

end Atelia.Runtime
