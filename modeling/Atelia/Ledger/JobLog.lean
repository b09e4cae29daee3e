import Atelia.Ledger.JobEnds
import Atelia.Ledger.JobEvents
import Atelia.Ledger.Selection
import Atelia.Ledger.Versions

/-! The log of one job: the events that refer to it, in sequence order. -/

namespace Atelia.Store

variable {before after : InMemoryInner} {event : JobEvent} {job : JobId}

/-- The events that refer to a job, in sequence order. -/
def InMemoryInner.jobEvents (inner : InMemoryInner) (job : JobId) : List JobEvent :=
  inner.events.filter fun event => Concerns inner job event

/-- Whether a stored event refers to a job does not change. -/
theorem concerns_persists (sound : Sound before) (grown : Extends before after)
    (stored : before.jobEventsById[event.id]? = some event) :
    Concerns after job event ↔ Concerns before job event :=
  ⟨fun concerns => concerns.earlier sound grown stored, fun concerns => belongs_persists grown concerns⟩

section Operations

variable {operation : StoreOperation} {response : operation.Response}

theorem StoreOperation.mutation_jobEvents (reachable : Reachable before)
    (answered : operation.mutation before = .ok (response, after))
    (named : ∀ event ∈ operation.published response, event.refs.jobId.isSome = true) (job : JobId) :
    after.jobEvents job = before.jobEvents job ++
      (operation.published response).filter fun event => event.refs.jobId = some job := by
  have step := StoreOperation.step_of_mutation answered
  have reached : Reachable after := reachable.tail step
  obtain ⟨log, logged⟩ := reachable.logged
  have logged' := StoreOperation.exec_logged reachable.keyed (exec_of_mutation answered) logged
  simp only [InMemoryInner.jobEvents, logged.events_eq, logged'.events_eq, List.filter_append]
  congr 1
  · refine List.filter_congr fun event member => decide_eq_decide.mpr ?_
    exact concerns_persists reachable.sound (Run.extends reachable (.single step))
      ((logged.stored event).mp member)
  · refine List.filter_congr fun event member => decide_eq_decide.mpr ⟨fun concerns => ?_, .of_named⟩
    obtain ⟨other, name⟩ := Option.isSome_iff_exists.mp (named event member)
    have stored := (logged'.stored event).mp (List.mem_append_right _ member)
    rw [concerns.named reached.keyed (reached.sound.events _ _ stored).links name, name]

/-- An operation that writes another job leaves the log of this one as it is. -/
theorem StoreOperation.Disciplined.jobEvents_other (disciplined : operation.Disciplined)
    (reachable : Reachable before) (answered : operation.mutation before = .ok (response, after))
    (different : operation.writtenJob ≠ some job) : after.jobEvents job = before.jobEvents job := by
  have names := (disciplined.write answered).named
  rw [mutation_jobEvents reachable answered (fun event member => (names event member).1) job,
    List.append_right_eq_self, List.filter_eq_nil_iff]
  intro event member same
  exact different ((names event member).2.symm.trans (of_decide_eq_true same))

/-- The latest event of a job that is written is one of those appended. -/
theorem JobWrite.latest {events : List JobEvent} (write : JobWrite before after events (some job)) :
    ∃ next last, after.jobs[job]? = some next ∧ last ∈ events ∧
      next.latestEventId = some last.id := by
  cases write with
  | created fresh stored queued latest others named submitted =>
    exact ⟨_, _, stored, List.mem_singleton_self _, latest⟩
  | moved move unended unsubmitted =>
    obtain ⟨next, found, _⟩ := move.moved
    obtain ⟨last, isLast, latest⟩ := move.latest
    exact ⟨next, last, found, List.mem_of_getLast? isLast, latest next found⟩

/-- An operation that writes a job gives it a new version. -/
theorem StoreOperation.Disciplined.newVersion (disciplined : operation.Disciplined)
    (reachable : Reachable before) (answered : operation.mutation before = .ok (response, after))
    (written : operation.writtenJob = some job) :
    ∃ next, after.jobs[job]? = some next ∧ NewVersion before next := by
  obtain ⟨next, last, found, member, latest⟩ := (written ▸ disciplined.write answered).latest
  refine ⟨next, found, last.id, latest, ?_⟩
  obtain ⟨log, logged⟩ := reachable.logged
  have logged' := StoreOperation.exec_logged reachable.keyed (exec_of_mutation answered) logged
  have distinct := logged'.distinct
  rw [List.map_append, List.nodup_append] at distinct
  cases stored : before.jobEventsById[last.id]? with
  | none => rfl
  | some event =>
    -- the identifiers in the log differ, and this one would stand there twice
    have same := reachable.keyed.jobEvents _ _ stored
    have early := (logged.stored event).mpr (same ▸ stored)
    exact absurd same (distinct.2.2 _ (List.mem_map_of_mem early) _ (List.mem_map_of_mem member))

end Operations

end Atelia.Store
