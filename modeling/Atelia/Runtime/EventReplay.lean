import Atelia.Ledger.JobLog
import Atelia.Runtime.PoolHistory
import Atelia.Runtime.Scripted

/-! Replaying the events of a job gives its record: the submission comes first and only
once, the status changes lead from the queue to the status of the job, and the last event is
the one the job names. -/

namespace Atelia.Store

variable {inner before after : InMemoryInner} {events log : List JobEvent} {job : JobId}

/-- The events tell how the job came to be as it is. -/
structure Reconstructs (events : List JobEvent) (record : JobRecord) : Prop where
  submitted : ∃ first rest, events = first :: rest ∧ first.kind = .jobSubmitted ∧
    ∀ event ∈ rest, event.kind ≠ .jobSubmitted
  chain : StatusChain .queued (events.flatMap (·.statusChange?.toList)) record.status
  latest : ∃ last, events.getLast? = some last ∧ record.latestEventId = some last.id

def eventsNaming (job : JobId) (log : List JobEvent) : List JobEvent :=
  log.filter fun event => event.refs.jobId = some job

/-- The events that name a job reconstruct it, and a job that is not there has none. -/
structure Replayed (inner : InMemoryInner) (log : List JobEvent) (job : JobId) : Prop where
  absent : inner.jobs[job]? = none → eventsNaming job log = []
  present : ∀ record, inner.jobs[job]? = some record → Reconstructs (eventsNaming job log) record

theorem Replayed.empty (job : JobId) : Replayed .empty [] job where
  absent _ := rfl
  present record found := by simp [InMemoryInner.empty] at found

theorem Reconstructs.submission {event : JobEvent} {record : JobRecord}
    (submitted : event.kind = .jobSubmitted) (queued : record.status = .queued)
    (latest : record.latestEventId = some event.id) : Reconstructs [event] record where
  submitted := ⟨event, [], rfl, submitted, by simp⟩
  chain := by
    rw [queued, List.flatMap_singleton, JobEvent.statusChange?, submitted]
    exact .nil
  latest := ⟨event, rfl, latest⟩

theorem Reconstructs.move {existing next : JobRecord} {earlier : List JobEvent}
    {source target : JobStatus} (reconstructs : Reconstructs earlier existing)
    (move : JobMove before after events job source target)
    (found : before.jobs[job]? = some existing) (foundNext : after.jobs[job]? = some next)
    (unsubmitted : ∀ event ∈ events, event.kind ≠ .jobSubmitted) :
    Reconstructs (earlier ++ events) next where
  submitted := by
    obtain ⟨first, rest, rfl, submitted, later⟩ := reconstructs.submitted
    exact ⟨first, rest ++ events, rfl, submitted, List.forall_mem_append.mpr ⟨later, unsubmitted⟩⟩
  chain := by
    obtain ⟨existing', found', rfl⟩ := move.found
    obtain ⟨next', foundNext', rfl⟩ := move.moved
    obtain rfl := Option.some.inj (found.symm.trans found')
    obtain rfl := Option.some.inj (foundNext.symm.trans foundNext')
    rw [List.flatMap_append]
    exact reconstructs.chain.append move.chain
  latest := by
    obtain ⟨last, final, named⟩ := move.latest
    refine ⟨last, ?_, named next foundNext⟩
    rw [List.getLast?_append, final]
    rfl

theorem Replayed.write {written : Option JobId} (replayed : Replayed before log job)
    (write : JobWrite before after events written) : Replayed after (log ++ events) job := by
  have split : eventsNaming job (log ++ events) = eventsNaming job log ++ eventsNaming job events :=
    List.filter_append _ _
  by_cases same : written = some job
  · subst same
    have own : eventsNaming job events = events :=
      List.filter_eq_self.mpr fun event member => by simp [(write.named event member).2]
    rw [own] at split
    cases write with
    | created fresh stored queued latest others named submitted =>
      rw [replayed.absent fresh, List.nil_append] at split
      refine ⟨fun missing => (nomatch stored.symm.trans missing), fun record found => ?_⟩
      obtain rfl := Option.some.inj (stored.symm.trans found)
      rw [split]
      exact .submission submitted queued latest
    | moved move unended unsubmitted =>
      obtain ⟨existing, found, _⟩ := move.found
      obtain ⟨next, foundNext, _⟩ := move.moved
      refine ⟨fun missing => (nomatch foundNext.symm.trans missing), fun record stored => ?_⟩
      rw [split]
      exact (replayed.present existing found).move move found stored unsubmitted
  · have none : eventsNaming job events = [] :=
      List.filter_eq_nil_iff.mpr fun event member named =>
        same ((write.named event member).2.symm.trans (of_decide_eq_true named))
    rw [none, List.append_nil] at split
    have kept := write.others same
    exact ⟨fun missing => split.trans (replayed.absent (kept ▸ missing)),
      fun record found => split ▸ replayed.present record (kept ▸ found)⟩

end Atelia.Store

namespace Atelia.Runtime

open Store

variable {Call : Type} [DecidableEq Call] {calls : Call → JobCall} {start : World Call}
  {pool : JobPool Call}

/-- In a ledger of named events the events that refer to a job are those that name it. -/
theorem jobEvents_eq {inner : InMemoryInner} {log : List JobEvent} {job : JobId}
    (logged : Logged inner log) (reachable : Reachable inner)
    (named : ∀ event ∈ log, ∃ name, event.refs.jobId = some name) :
    inner.jobEvents job = eventsNaming job log := by
  rw [InMemoryInner.jobEvents, logged.events_eq, eventsNaming]
  refine List.filter_congr fun event member => ?_
  rw [decide_eq_decide]
  constructor
  · intro concerns
    obtain ⟨name, reference⟩ := named event member
    have links := (reachable.sound.events _ _ ((logged.stored event).mp member)).links
    rw [concerns.named reachable.keyed links reference, reference]
  · exact Concerns.of_named

/-- At every moment of every run of calls from the empty store, the events that
refer to a job reconstruct it. -/
theorem job_events_reconstruct_jobs (empty : start.ledger = .empty) (quiet : start.history = [])
    (ran : JobPool.Run calls (Pool.fresh start) pool) {job : JobId} {record : JobRecord}
    (found : pool.state.ledger.jobs[job]? = some record) :
    Reconstructs (pool.state.ledger.jobEvents job) record := by
  have reachable : Reachable start.ledger := empty ▸ Relation.ReflTransGen.refl
  obtain ⟨_, sound⟩ := JobPool.Run.sound reachable quiet ran
  have replays := sound.replays quiet
  have disciplined := sound.disciplined
  have logged : Logged start.ledger [] := empty ▸ .empty
  have first : Replayed start.ledger [] job := empty ▸ .empty job
  obtain ⟨events, logged', replayed⟩ := replays.invariant (fun inner log => Replayed inner log job)
    (fun inner next log operation response member answered held =>
      held.write ((disciplined operation member).write answered)) reachable logged first
  obtain ⟨named, logged'', names⟩ := replays.named disciplined reachable logged
  have same : [] ++ named = [] ++ events := logged''.events_eq.symm.trans logged'.events_eq
  rw [List.nil_append] at logged' replayed
  rw [List.nil_append, List.nil_append] at same
  subst same
  rw [jobEvents_eq logged' sound.reachable names]
  exact replayed.present record found

/-- A run of a trusted repository that a cancel overtakes after the policy decision. -/
def overtakenPlan : List (Party × Nat × Nat) :=
  [(.registrar, 2, 5), (.runner, 13, 5), (.canceler, 20, 6), (.runner, 20, 7)]

private theorem overtakenPlan_found :
    ((samplePool .trusted overtakenPlan).state.ledger.jobs[sampleJob]?.map (·.status)) =
      some .canceled := by
  decide +kernel

theorem job_events_reconstruct_overtaken_job :
    ∃ record, (samplePool .trusted overtakenPlan).state.ledger.jobs[sampleJob]? = some record ∧
      record.status = .canceled ∧
      Reconstructs ((samplePool .trusted overtakenPlan).state.ledger.jobEvents sampleJob)
        record := by
  obtain ⟨record, found, status⟩ := Option.map_eq_some_iff.mp overtakenPlan_found
  exact ⟨record, found, status, job_events_reconstruct_jobs rfl rfl
    (samplePool_run .trusted overtakenPlan) found⟩

end Atelia.Runtime
