import Atelia.Ledger.JobLifecycle
import Atelia.Store.Load

/-! Reloading the ledger. -/

namespace Atelia.Store

open Outcome

variable {inner : InMemoryInner} {log : List JobEvent}

section Sequence

/-- The walk after the events `done`. -/
structure Walked (inner : InMemoryInner) (done : List JobEvent) (walk : SequenceWalk) : Prop where
  expected : walk.expectedSequence = min (done.length + 1) maxSequence
  seen : walk.seenEventIds = (done.map (·.id)).reverse
  validated : ∃ byId bySequence, walk.validated =
    { inner with jobEventsById := byId, jobEventsBySequence := bySequence }

theorem Walked.start (inner : InMemoryInner) : Walked inner [] ⟨1, [], inner⟩ where
  expected := (Nat.min_eq_left (by decide : 1 ≤ maxSequence)).symm
  seen := rfl
  validated := ⟨inner.jobEventsById, inner.jobEventsBySequence, rfl⟩

/-- An event of the list stands under its own position. -/
private theorem Logged.sequenceNumber_eq (logged : Logged inner log) {done rest : List JobEvent}
    {event : JobEvent} (split : log = done ++ event :: rest) :
    event.sequenceNumber = done.length + 1 := by
  have position := congrArg (·[done.length]?) logged.numbered
  simp only [split, List.getElem?_map, List.length_append, List.length_cons] at position
  rw [List.getElem?_append_right (Nat.le_refl _), Nat.sub_self, List.getElem?_cons_zero,
    Option.map_some, List.getElem?_range' (by omega)] at position
  have same := Option.some.inj position
  omega

/-- The walk accepts the next event of the list. -/
theorem Walked.step (logged : Logged inner log) (sound : inner.jobEventsById.Every (EventSound inner))
    {done rest : List JobEvent} {event : JobEvent} (split : log = done ++ event :: rest)
    {walk : SequenceWalk} (walked : Walked inner done walk) :
    ∃ next, walk.step inner (event.sequenceNumber, event.id) = .ok next ∧
      Walked inner (done ++ [event]) next := by
  have member : event ∈ log := by simp [split]
  have found := (logged.stored event).mp member
  have position := logged.sequenceNumber_eq split
  have bound := (logged.sequenceNumber_le member).2
  have bounded := logged.bounded
  have expected : event.sequenceNumber = walk.expectedSequence := by
    rw [walked.expected]
    omega
  have unseen : event.id ∉ walk.seenEventIds := by
    have distinct := logged.distinct
    rw [split, List.map_append, List.map_cons, List.nodup_append] at distinct
    rw [walked.seen, List.mem_reverse]
    intro earlier
    exact distinct.2.2 _ earlier _ List.mem_cons_self rfl
  obtain ⟨byId, bySequence, validated⟩ := walked.validated
  -- the validated ledger lacks the event, and its other tables are those of the ledger
  have accepted : validateNewJobEvent
      (walk.validated.withoutEvent event.sequenceNumber event.id) event none = .ok () := by
    refine validateNewJobEventWithPendingRecords_eq_ok.mpr ⟨?_, (sound _ _ found).subject, ?_⟩
    · simp [InMemoryInner.withoutEvent]
    · rw [validated]
      exact (sound _ _ found).links
  have stepped : walk.step inner (event.sequenceNumber, event.id) = .ok
      { expectedSequence := min (walk.expectedSequence + 1) maxSequence
        seenEventIds := event.id :: walk.seenEventIds
        validated := walk.validated.withoutEvent event.sequenceNumber event.id } := by
    simp only [SequenceWalk.step, bind_eq_ok, exists_unit, ensure_eq_ok, reject_eq_ok, okOr_eq_ok,
      pure_eq_ok, not_not, and_true]
    exact ⟨expected, unseen, event, found, rfl, accepted⟩
  refine ⟨_, stepped, ?_, ?_, ?_⟩
  · rw [← expected, position, List.length_append, List.length_singleton]
  · simp [walked.seen]
  · exact ⟨byId.erase event.id, bySequence.erase event.sequenceNumber, by rw [validated]; rfl⟩

/-- The walk accepts the rest of the list. -/
theorem Walked.run (logged : Logged inner log) (sound : inner.jobEventsById.Every (EventSound inner))
    {done rest : List JobEvent} (split : log = done ++ rest) {walk : SequenceWalk}
    (walked : Walked inner done walk) :
    ∃ final, (rest.map fun event => (event.sequenceNumber, event.id)).foldlM
        (SequenceWalk.step inner) walk = .ok final ∧ Walked inner log final := by
  induction rest generalizing done walk with
  | nil =>
    rw [List.append_nil] at split
    exact ⟨walk, rfl, split ▸ walked⟩
  | cons event rest ih =>
    obtain ⟨next, stepped, walkedNext⟩ := walked.step logged sound split
    obtain ⟨final, ran, walkedFinal⟩ := ih (by rw [split, List.append_assoc]; rfl) walkedNext
    refine ⟨final, ?_, walkedFinal⟩
    rw [List.map_cons, List.foldlM_cons, stepped]
    exact ran

/-- The event ledger is accepted exactly when its last sequence number is not
the largest one. -/
theorem validateLoadedJobEventSequence_eq_ok (logged : Logged inner log)
    (sound : inner.jobEventsById.Every (EventSound inner)) {result : Unit} :
    validateLoadedJobEventSequence inner = .ok result ↔ inner.nextEventSequence < maxSequence := by
  obtain ⟨final, ran, walked⟩ := (Walked.start inner).run logged sound rfl
  have counted : final.seenEventIds.length = inner.jobEventsById.size := by
    rw [walked.seen, List.length_reverse, List.length_map, logged.size]
  have bounded := logged.bounded
  have counts := logged.count
  have large : 0 < maxSequence := by decide
  simp only [validateLoadedJobEventSequence, logged.index, ran, bind_eq_ok, Except.ok.injEq,
    exists_eq_left', exists_unit, ensure_eq_ok, counted, and_true, walked.expected]
  omega

end Sequence

section Records

theorem checkBlockedRoots_ok {repositories : List RepositoryRecord}
    (unblocked : ∀ first ∈ repositories, ∀ second ∈ repositories,
      repositoryRootsStrictlyOverlap first.rootPath second.rootPath = true →
        first.trustState ≠ .blocked ∧ second.trustState ≠ .blocked) :
    checkBlockedRoots repositories = .ok () := by
  induction repositories with
  | nil => rfl
  | cons repository rest ih =>
    simp only [checkBlockedRoots, bind_eq_ok, exists_unit, checkAll_eq_ok, reject_eq_ok]
    constructor
    · rintro other member ⟨overlap, blocked⟩
      have clear := unblocked repository List.mem_cons_self other (List.mem_cons_of_mem _ member)
        overlap
      exact blocked.elim clear.1 clear.2
    · apply ih
      intro first firstMember second secondMember
      exact unblocked first (List.mem_cons_of_mem _ firstMember) second
        (List.mem_cons_of_mem _ secondMember)

theorem RepositoriesSound.loads (keyed : Keyed inner) (sound : RepositoriesSound inner) :
    checkDistinct validateRepositoryRecord (·.rootPath)
        (fun repository : RepositoryRecord => StoreError.invalidRecord "repositories"
          s!"duplicate root_path {repository.rootPath}") inner.repositories.records [] = .ok () ∧
      checkBlockedRoots inner.repositories.records = .ok () ∧
      ∀ decision ∈ inner.policyDecisions.records, checkLoadedRootBlock inner decision = .ok () := by
  refine ⟨checkDistinct_eq_ok.mpr ⟨?_, keyed.repositories.nodup_map sound.distinct, ?_⟩,
    checkBlockedRoots_ok sound.unblocked, ?_⟩
  · intro record member
    exact sound.valid.mem_records member
  · simp
  · intro decision member
    unfold checkLoadedRootBlock
    split
    · rename_i rootScoped
      obtain ⟨repository, found, apart⟩ := sound.blocks.mem_records member rootScoped
      simp only [bind_eq_ok, okOr_eq_ok, checkAll_eq_ok, reject_eq_ok, not_and, Bool.not_eq_true]
      exact ⟨repository, found, apart⟩
    · rfl

theorem JobSound.loads {job : JobRecord} (sound : JobSound inner job) (timed : JobTimed job) :
    validateLoadedJobRecord inner job = .ok () := by
  obtain ⟨id, event, latest, found, named⟩ := sound.latest
  simp only [validateLoadedJobRecord, checkLoadedJobTime, checkLoadedJobLatestEvent, bind_eq_ok,
    exists_unit, ensureRefExists_eq_ok, reject_eq_ok, whenSome_eq_ok, okOr_eq_ok, not_lt, not_and,
    Option.not_isSome_iff_eq_none]
  refine ⟨sound.repository, timed.updated, timed.started, timed.completed, timed.running,
    timed.terminal.mp, ?_, ?_⟩
  · intro unfinished
    by_contra present
    rw [timed.terminal.mpr present] at unfinished
    exact absurd unfinished (by decide)
  · intro other isLatest
    rw [latest, Option.some.injEq] at isLatest
    exact ⟨event, isLatest ▸ found, fun different => absurd named different⟩

theorem LocksSound.loads (keyed : Keyed inner) (sound : LocksSound inner) :
    (∀ lock ∈ inner.lockDecisions.records, validateLoadedLockDecision inner lock = .ok ()) ∧
      ((inner.lockDecisions.records.filter fun lock => isActiveLockStatus lock.status).map
        fun lock : LockDecision => (lock.repositoryId.text, debug lock.lockedScope)).Nodup := by
  constructor
  · intro lock member
    have each := sound.each.mem_records member
    simp only [validateLoadedLockDecision, bind_eq_ok, exists_unit, ensureRefExists_eq_ok]
    exact ⟨each.timing, each.repository, each.policy, each.owner⟩
  · apply List.Nodup.map_on
    · intro first firstMember second secondMember same
      rw [List.mem_filter, isActiveLockStatus_iff] at firstMember secondMember
      obtain ⟨repository, scope⟩ := Prod.mk.inj same
      exact sound.exclusive first firstMember.1 second secondMember.1 firstMember.2 secondMember.2
        (Identifier.text_injective repository) (LockedScope.debug_injective scope)
    · exact keyed.lockDecisions.nodup_records.of_map.filter _

end Records

/-- A ledger that satisfies the invariant and holds no submit-job receipt passes
the validation of a loaded snapshot, exactly when it has room for an event. -/
theorem Sound.loads (keyed : Keyed inner) (sound : Sound inner) (timed : inner.jobs.Every JobTimed)
    (logged : Logged inner log) (unsubmitted : inner.idempotentSubmitJobs = ∅) {result : Unit} :
    validateLoadedStore inner = .ok result ↔ inner.nextEventSequence < maxSequence := by
  obtain ⟨roots, blockedRoots, rootBlocks⟩ := sound.repositories.loads keyed
  obtain ⟨locks, scopes⟩ := sound.locks.loads keyed
  have receipts : inner.idempotentSubmitJobs.toList = [] := by rw [unsubmitted]; rfl
  rw [← validateLoadedJobEventSequence_eq_ok logged sound.events]
  simp only [validateLoadedStore, bind_eq_ok, exists_unit, roots, blockedRoots, checkAll_eq_ok,
    checkDistinct_eq_ok, ensureRefExists_eq_ok, receipts, true_and]
  constructor
  · intro checked
    exact checked.2.2.2.2.2.2.2.2.2.2
  · intro accepted
    refine ⟨rootBlocks, fun _ member => (sound.jobs.mem_records member).loads (timed.mem_records member),
      fun _ member => sound.repositories.named.mem_records member, locks, ⟨by simp, scopes, by simp⟩,
      fun _ member => sound.migrations.mem_records member,
      fun _ member => sound.tools.invocations.mem_records member,
      ⟨fun _ member => sound.tools.results.mem_records member,
        keyed.toolResults.nodup_map sound.tools.unique, by simp⟩,
      fun _ member => sound.tools.audits.mem_records member, by simp, accepted⟩

/-- The ledger of every run that writes no submit-job receipt can be reloaded, as long
as it has not used the last sequence number. -/
theorem ledger_reloaded (reached : ReachableByNewJobs inner)
    (unsubmitted : inner.idempotentSubmitJobs = ∅)
    (room : inner.nextEventSequence < maxSequence) : validateLoadedStore inner = .ok () := by
  have reachable := reached.reachable
  obtain ⟨log, logged⟩ := reachable.logged
  exact (reachable.sound.loads reachable.keyed reached.timed logged unsubmitted).mpr room

private def completedAndNoted : List StoreOperation :=
  exampleSubmission ++ [runAndComplete, jobNotice 3]

private def holdsCompleted (inner : InMemoryInner) : Bool :=
  inner.idempotentSubmitJobs.isEmpty && inner.nextEventSequence = 4 &&
    inner.jobs[exampleJob.id]?.map (·.status) = some .succeeded

private theorem holdsCompleted_reached : reaches completedAndNoted holdsCompleted = true := by
  decide +kernel

/-- A ledger with a completed job and its four events is reloaded. -/
theorem completed_job_reloaded : ∃ inner, ReachableByNewJobs inner ∧
    inner.idempotentSubmitJobs = ∅ ∧ inner.nextEventSequence = 4 ∧
    (∃ job, inner.jobs[exampleJob.id]? = some job ∧ job.status = .succeeded) ∧
    validateLoadedStore inner = .ok () := by
  have admitted : ∀ operation ∈ completedAndNoted, operation.Admitted JobRecord.IsNew :=
    List.forall_mem_append.mpr ⟨exampleSubmission_admitted, by
      simp [StoreOperation.Admitted, runAndComplete, jobNotice]⟩
  obtain ⟨inner, reached, holds⟩ := ReachableByNewJobs.of_reaches admitted holdsCompleted_reached
  simp only [holdsCompleted, Bool.and_eq_true, decide_eq_true_eq, Option.map_eq_some_iff] at holds
  obtain ⟨⟨unsubmitted, count⟩, completed⟩ := holds
  have unsubmitted := Std.ExtTreeMap.isEmpty_iff.mp unsubmitted
  refine ⟨inner, reached, unsubmitted, count, completed, ledger_reloaded reached unsubmitted ?_⟩
  rw [count]
  decide

end Atelia.Store
