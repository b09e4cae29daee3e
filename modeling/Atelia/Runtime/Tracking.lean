import Atelia.Ledger.JobLog
import Atelia.Runtime.JobHistory
import Atelia.Runtime.RunToolJob

/-! A run's own copy of its job. -/

namespace Atelia.Runtime

open Store

variable {before after ledger : InMemoryInner} {effects : List Effect} {progress : Progress}

/-- The copy is what is stored: the job, and all events that refer to it. -/
structure Progress.ShownIn (progress : Progress) (ledger : InMemoryInner) : Prop where
  job : ledger.jobs[progress.job.id]? = some progress.job
  events : ledger.jobEvents progress.job.id = progress.events

/-- Along a history the copy stays what is stored, or the job has a new version. -/
theorem Progress.ShownIn.later (shown : progress.ShownIn before) (reachable : Reachable before)
    (replays : Replays before effects after) (disciplined : Disciplined effects) :
    progress.ShownIn after ∨
      ∃ next, after.jobs[progress.job.id]? = some next ∧ NewVersion before next := by
  let Holds : InMemoryInner → List JobEvent → Prop := fun inner _ => Run before inner ∧
    (progress.ShownIn inner ∨
      ∃ next, inner.jobs[progress.job.id]? = some next ∧ NewVersion before next)
  obtain ⟨log, logged⟩ := reachable.logged
  obtain ⟨_, _, _, holds⟩ := replays.invariant Holds
    (fun inner next log operation response member answered held => by
      obtain ⟨run, state⟩ := held
      have reached : Reachable inner := reachable.trans run
      have ordered := disciplined operation member
      refine ⟨run.tail (StoreOperation.step_of_mutation answered), ?_⟩
      by_cases written : operation.writtenJob = some progress.job.id
      · obtain ⟨job, found, new⟩ := ordered.newVersion reached answered written
        exact .inr ⟨job, found, new.earlier (Run.extends reachable run)⟩
      · have kept := (ordered.write answered).others written
        rcases state with shown | ⟨job, found, new⟩
        · exact .inl ⟨kept.trans shown.job,
            (ordered.jobEvents_other reached answered written).trans shown.events⟩
        · exact .inr ⟨job, kept.trans found, new⟩)
    reachable logged ⟨.refl, .inl shown⟩
  exact holds

/-- The copy was what is stored as of some moment. -/
def Progress.Tracks (progress : Progress) (ledger : InMemoryInner) : Prop :=
  ∃ earlier effects, Reachable earlier ∧ progress.ShownIn earlier ∧ Disciplined effects ∧
    Replays earlier effects ledger

theorem Disciplined.append {effects later : List Effect} (first : Disciplined effects)
    (second : Disciplined later) : Disciplined (effects ++ later) := by
  intro operation member
  rcases List.mem_append.mp member with early | late
  · exact first operation early
  · exact second operation late

theorem Progress.ShownIn.tracks (shown : progress.ShownIn ledger) (reachable : Reachable ledger) :
    progress.Tracks ledger :=
  ⟨ledger, [], reachable, shown, fun _ => nofun, rfl⟩

theorem Progress.Tracks.later (tracks : progress.Tracks before) (disciplined : Disciplined effects)
    (replays : Replays before effects after) : progress.Tracks after := by
  obtain ⟨earlier, effects', reachable, shown, disciplined', replays'⟩ := tracks
  exact ⟨earlier, _, reachable, shown, disciplined'.append disciplined, replays'.append replays⟩

/-- A copy of the stored version is what is stored. -/
theorem Progress.Tracks.shown (tracks : progress.Tracks ledger) {existing : JobRecord}
    (found : ledger.jobs[progress.job.id]? = some existing)
    (version : progress.job.latestEventId = existing.latestEventId) : progress.ShownIn ledger := by
  obtain ⟨earlier, effects, reachable, shown, disciplined, replays⟩ := tracks
  rcases shown.later reachable replays disciplined with current | ⟨next, found', new⟩
  · exact current
  · obtain rfl := Option.some.inj (found.symm.trans found')
    exact absurd version.symm (new.ne (reachable.sound.jobs _ _ shown.job))

/-- A copy that the store has accepted as the base of an update is what is stored. -/
theorem Progress.Tracks.accepted (tracks : progress.Tracks ledger) {record : JobRecord}
    {event : JobEvent} (id : record.id = progress.job.id)
    (version : record.latestEventId = progress.job.latestEventId)
    (update : validateJobUpdate ledger record event = .ok ()) : progress.ShownIn ledger := by
  obtain ⟨existing, found, current, _⟩ := validateJobUpdate_eq_ok.mp update
  exact tracks.shown (id ▸ found) (version.symm.trans current)

section Commits

variable {record : JobRecord} {event stored : JobEvent}

/-- A committed update is what the run goes on with. -/
theorem Progress.Tracks.updated (tracks : progress.Tracks before) (reachable : Reachable before)
    (id : record.id = progress.job.id) (version : record.latestEventId = progress.job.latestEventId)
    (ran : Store.appendJobEventAndUpdateJob record event before = .ok (stored, after)) :
    (Progress.advance ⟨record, progress.events⟩ stored).ShownIn after := by
  have answered : (StoreOperation.appendJobEventAndUpdateJob record event).mutation before =
    .ok (stored, after) := ran
  obtain ⟨⟨update, _⟩, _, rfl, rfl, _⟩ := appendJobEventAndUpdateJob_eq_ok.mp ran
  obtain ⟨_, _, _, against⟩ := validateJobUpdate_eq_ok.mp update
  have named : (before.numbered event).refs.jobId = some record.id :=
    (JobUpdate.of_validated against).eventJob
  refine ⟨withJobEvent_job _ _ _, ?_⟩
  have log := StoreOperation.mutation_jobEvents reachable answered
    (List.forall_mem_singleton.mpr (by rw [named]; rfl)) record.id
  refine log.trans ?_
  rw [id, (tracks.accepted id version update).events]
  simp [StoreOperation.published, Progress.advance, named, id]

end Commits

end Atelia.Runtime
