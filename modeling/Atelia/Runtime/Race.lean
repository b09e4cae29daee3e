import Atelia.Runtime.PoolHistory
import Atelia.Runtime.Scripted

/-! A run of a tool against cancels of its job. -/

namespace Atelia.Runtime

open Store

variable {Call : Type} [DecidableEq Call] {calls : Call → JobCall} {start : World Call}
  {pool later : JobPool Call} {run : Call} {job : JobId}

/-- A cancel of the job has been committed. -/
def JobPool.Canceled (calls : Call → JobCall) (pool : JobPool Call) (job : JobId) : Prop :=
  ∃ canceler reason operation, calls canceler = .cancel job reason ∧
    .committed operation ∈ pool.state.own canceler

/-- What a run leaves once its job is canceled. -/
structure JobPool.CanceledRun (calls : Call → JobCall) (run : Call) (job : JobId)
    (pool later : JobPool Call) : Prop where
  returns : ∃ final error, JobPool.Run calls later final ∧ final.outcome? run = some (.error error)
  fails : ∀ outcome, later.outcome? run = some outcome → ∃ error, outcome = .error error
  unrecorded : NoToolRecords later.state.ledger job
  silent : ∀ event, later.state.ledger.jobEventsById[event.id]? = some event →
    Concerns later.state.ledger job event →
      pool.state.ledger.jobEventsById[event.id]? = some event

/-- What a cancel says once the run has ended the job. -/
structure JobPool.CancelRefused (canceler : Call) (job : JobId) (pool later : JobPool Call) :
    Prop where
  unwritten : later.state.own canceler = []
  fails : ∀ outcome, later.outcome? canceler = some outcome → ∃ error, outcome = .error error
  refused : pool.outcome? canceler = none → later.state.issued.Nodup →
    ∀ error, later.outcome? canceler = some (.error error) →
      CancelRefusal job (later.state.told canceler) error

/-- A run and the cancels of its job do not mix. -/
structure JobPool.RaceSafe (calls : Call → JobCall) (run : Call) (job : JobId)
    (pool : JobPool Call) : Prop where
  settled : ∀ later, JobPool.Run calls pool later → Ended pool.state.ledger job →
    later.state.ledger.jobs[job]? = pool.state.ledger.jobs[job]?
  announced : ∀ first second : JobEvent, pool.state.ledger.jobEventsById[first.id]? = some first →
    pool.state.ledger.jobEventsById[second.id]? = some second →
    Concerns pool.state.ledger job first → Concerns pool.state.ledger job second →
    first.closes = true → second.closes = true → first = second
  unexecuted : pool.Canceled calls job →
    (∀ operation, .committed operation ∈ pool.state.own run → ¬ Invokes job operation) →
    ∀ later, JobPool.Run calls pool later → ∀ invocation request result,
      .executed invocation request result ∉ later.state.own run
  canceled : pool.Canceled calls job → ∀ later, JobPool.Run calls pool later →
    JobPool.CanceledRun calls run job pool later
  refused : ∀ operation, pool.EndedBy run job operation → ∀ later, JobPool.Run calls pool later →
    ∀ canceler reason, calls canceler = .cancel job reason →
      JobPool.CancelRefused canceler job pool later

section Proof

variable {json : ToolOutput.JsonWriter} {request : RuntimeJobRequest} {tool : RuntimeTool}
  {finalizer : Option Finalizer} {operation : StoreOperation}

theorem StoreOperation.written_of_created (created : operation.createdJob = some job) :
    operation.writtenJob = some job := by
  cases operation with
  | createJob => exact created
  | _ => cases created

/-- A run writes no job but the one it creates. -/
theorem JobPool.Sound.run_job (sound : pool.Sound start calls)
    (isRun : calls run = .runTool json request tool finalizer)
    (member : .committed operation ∈ pool.state.own run)
    (created : operation.createdJob = some job) {other : StoreOperation} {job' : JobId}
    (member' : .committed other ∈ pool.state.own run) (written : other.writtenJob = some job') :
    job' = job := by
  obtain ⟨repository, phase, path⟩ := sound.run_path isRun member
  have first := path.written member (StoreOperation.written_of_created created)
  exact Option.some.inj ((path.written member' written).symm.trans first)

/-- A committed cancel has ended the job. -/
theorem JobPool.Sound.canceled_ended (sound : pool.Sound start calls)
    (canceled : pool.Canceled calls job) :
    ∃ canceler reason operation, calls canceler = .cancel job reason ∧ Cancels job operation ∧
      pool.EndedBy canceler job operation := by
  obtain ⟨canceler, reason, operation, isCancel, member⟩ := canceled
  have cancels := sound.cancels isCancel member
  exact ⟨canceler, reason, operation, isCancel, cancels, member, cancels.ends, cancels.written⟩

/-- A run and a cancel do not both end a job. -/
theorem JobPool.Sound.ended_apart (sound : pool.Sound start calls) (quiet : start.history = [])
    (reachable : Reachable start.ledger) (isRun : calls run = .runTool json request tool finalizer)
    (ended : pool.EndedBy run job operation) : ¬ pool.Canceled calls job := by
  intro canceled
  obtain ⟨canceler, reason, cancel, isCancel, _, ended'⟩ := sound.canceled_ended canceled
  obtain ⟨rfl, _⟩ := sound.ended_once quiet reachable ended ended'
  rw [isRun] at isCancel
  cases isCancel

theorem JobPool.Canceled.kept (canceled : pool.Canceled calls job)
    (sound : later.Sound pool.state calls) : later.Canceled calls job := by
  obtain ⟨canceler, reason, operation, isCancel, member⟩ := canceled
  exact ⟨canceler, reason, operation, isCancel, sound.own_grows member⟩

/-- A job that has ended stays as it is, and no event about it is added. -/
theorem JobPool.Sound.settled (sound : later.Sound pool.state calls)
    (reachable : Reachable pool.state.ledger) {log : List JobEvent}
    (logged : Logged pool.state.ledger log) (ended : Ended pool.state.ledger job) :
    Settled job pool.state.ledger later.state.ledger log := by
  obtain ⟨entries, _, disciplined, replays⟩ := sound.since
  exact replays.settled disciplined reachable logged ended

theorem EndsOnce.of_absent {inner : InMemoryInner} {log : List JobEvent}
    (reachable : Reachable inner) (logged : Logged inner log) (absent : inner.jobs[job]? = none) :
    EndsOnce inner log job := by
  have none : log.countP (Closes job) = 0 := by
    refine List.countP_eq_zero.mpr fun event member closes => ?_
    simp only [Closes, Bool.and_eq_true, decide_eq_true_eq] at closes
    have known := (Concerns.of_named closes.2).job_stored reachable.keyed reachable.sound
      ((logged.stored event).mp member)
    rw [(Table.contains_eq_false_iff _ _).mpr absent] at known
    cases known
  exact ⟨none ▸ Nat.zero_le 1, fun _ => none⟩

section Stopped

variable (sound : pool.Sound start calls) (quiet : start.history = [])
  (reachable : Reachable start.ledger)
include sound quiet reachable

theorem JobPool.Sound.announced (absent : start.ledger.jobs[job]? = none) {first second : JobEvent}
    (stored : pool.state.ledger.jobEventsById[first.id]? = some first)
    (stored' : pool.state.ledger.jobEventsById[second.id]? = some second)
    (concerns : Concerns pool.state.ledger job first)
    (concerns' : Concerns pool.state.ledger job second) (closes : first.closes = true)
    (closes' : second.closes = true) : first = second := by
  have replays := sound.replays quiet
  have disciplined := sound.disciplined
  obtain ⟨log, logged⟩ := reachable.logged
  obtain ⟨events, logged', once⟩ := replays.endsOnce disciplined reachable logged
    (EndsOnce.of_absent reachable logged absent)
  have named := replays.concerns_named disciplined reachable absent stored concerns
  have named' := replays.concerns_named disciplined reachable absent stored' concerns'
  refine once.unique ((logged'.stored first).mpr stored) ((logged'.stored second).mpr stored') ?_ ?_
  · simp [Closes, closes, named]
  · simp [Closes, closes', named']

/-- A run whose job is canceled before it announces its invocation does not get to
the tool. -/
theorem JobPool.Sound.unexecuted (isRun : calls run = .runTool json request tool finalizer)
    (member : .committed operation ∈ pool.state.own run) (created : operation.createdJob = some job)
    (canceled : pool.Canceled calls job)
    (uninvoked : ∀ other, .committed other ∈ pool.state.own run → ¬ Invokes job other)
    (since : later.Sound pool.state calls) {invocation : ToolInvocation}
    {request' : RuntimeJobRequest} {result : ToolResult} :
    .executed invocation request' result ∉ later.state.own run := by
  intro executed
  obtain ⟨repository, phase, path⟩ := since.run_path isRun executed
  obtain ⟨job', invoke, listed, invokes, _⟩ := path.invoked (path.executed executed)
  obtain rfl := since.run_job isRun (since.own_grows member) created listed invokes.written
  obtain ⟨entries, added, disciplined, replays⟩ := since.since
  obtain ⟨canceler, _, cancel, _, _, ended⟩ := sound.canceled_ended canceled
  have entry := World.mem_own.mp listed
  rw [added, List.mem_append] at entry
  rcases entry with before | after
  · exact uninvoked invoke (World.mem_own.mpr before) invokes
  · exact replays.unwritten disciplined sound.reachable (sound.ended quiet reachable ended)
      (List.mem_map_of_mem (f := Prod.snd) after) invokes.written

/-- A canceled job has no tool result and no audit record. -/
theorem JobPool.Sound.unrecorded (absent : start.ledger.jobs[job]? = none)
    (canceled : pool.Canceled calls job) : NoToolRecords pool.state.ledger job := by
  refine (sound.replays quiet).noToolRecords sound.disciplined reachable absent ?_
  intro terminal member
  obtain ⟨⟨call, effect⟩, listed, rfl⟩ := List.mem_map.mp member
  have own := World.mem_own.mpr listed
  obtain ⟨invocation, recorded, owner, result, audit⟩ := sound.terminal_recorded own
  refine ⟨invocation, List.mem_map_of_mem (f := Prod.snd) (World.mem_own.mp recorded), ?_, result,
    audit⟩
  rintro rfl
  obtain ⟨canceler, _, cancel, _, cancels, ended⟩ := sound.canceled_ended canceled
  obtain ⟨_, rfl⟩ := sound.ended_once quiet reachable ended ⟨own, rfl, congrArg some owner.symm⟩
  cases cancels

end Stopped

/-- A call that has begun and not crashed can go on until it returns. -/
theorem JobPool.Sound.finishes (sound : pool.Sound start calls)
    {call : Call} {effect : Effect} (member : effect ∈ pool.state.own call) :
    ∃ final outcome, JobPool.Run calls pool final ∧ final.outcome? call = some outcome := by
  cases active : pool.activity call with
  | waiting =>
    rw [sound.waiting call active] at member
    cases member
  | crashed => exact absurd active (sound.alive call)
  | running program =>
    refine Pool.Run.finish (fun call world command => ?_) active
    exact ⟨_, _, Environment.plain.serves ⟨0⟩ call world command⟩

variable {canceler : Call} {reason : String}

theorem JobPool.Sound.cancel_unwritten (sound : pool.Sound start calls)
    (apart : ¬ pool.Canceled calls job) (isCancel : calls canceler = .cancel job reason) :
    pool.state.own canceler = [] := by
  have path := sound.paths canceler
  rw [isCancel] at path
  rcases path with unused | ⟨other, cancels, own⟩
  · exact unused
  · refine absurd ⟨canceler, reason, other, isCancel, ?_⟩ apart
    rw [own]
    exact List.mem_cons_self

section Runs

variable (reachable : Reachable start.ledger) (quiet : start.history = [])
  (ran : JobPool.Run calls (Pool.fresh start) pool)
include reachable quiet ran

/-- A run that returns a receipt has ended the job it created. -/
theorem JobPool.Run.run_fails (isRun : calls run = .runTool json request tool finalizer)
    (member : .committed operation ∈ pool.state.own run)
    (created : operation.createdJob = some job) (canceled : pool.Canceled calls job)
    {outcome : Except RuntimeError CallResult} (returned : pool.outcome? run = some outcome) :
    ∃ error, outcome = .error error := by
  obtain ⟨_, sound⟩ := JobPool.Run.sound reachable quiet ran
  cases outcome with
  | error error => exact ⟨error, rfl⟩
  | ok result =>
    obtain ⟨job', ending, ended⟩ := JobPool.Run.ended_of_ok reachable quiet ran isRun returned
    obtain rfl := sound.run_job isRun member created ended.1 ended.2.2
    exact absurd canceled (sound.ended_apart quiet reachable isRun ended)

theorem JobPool.Run.canceled_run (isRun : calls run = .runTool json request tool finalizer)
    (member : .committed operation ∈ pool.state.own run)
    (created : operation.createdJob = some job) (canceled : pool.Canceled calls job)
    (after : JobPool.Run calls pool later) : JobPool.CanceledRun calls run job pool later := by
  obtain ⟨meets, sound⟩ := JobPool.Run.sound reachable quiet ran
  have since := JobPool.Run.since after meets sound
  obtain ⟨meets', sound'⟩ := JobPool.Run.sound reachable quiet (ran.trans after)
  have absent := sound.created_absent quiet reachable member created
  obtain ⟨canceler, _, cancel, _, _, ended⟩ := sound.canceled_ended canceled
  obtain ⟨log, logged⟩ := sound.reachable.logged
  refine ⟨?_, ?_, sound'.unrecorded quiet reachable absent (canceled.kept since), ?_⟩
  · obtain ⟨final, outcome, rest, returned⟩ := sound'.finishes (since.own_grows member)
    have since' := JobPool.Run.since rest meets' sound'
    obtain ⟨error, rfl⟩ := JobPool.Run.run_fails reachable quiet ((ran.trans after).trans rest) isRun
      (since'.own_grows (since.own_grows member)) created ((canceled.kept since).kept since') returned
    exact ⟨final, error, rest, returned⟩
  · intro outcome returned
    exact JobPool.Run.run_fails reachable quiet (ran.trans after) isRun (since.own_grows member)
      created (canceled.kept since) returned
  · intro event stored concerns
    have named := (sound'.replays quiet).concerns_named sound'.disciplined reachable absent stored
      concerns
    obtain ⟨events, logged', others⟩ := (since.settled sound.reachable logged
      (sound.ended quiet reachable ended)).events
    rcases List.mem_append.mp ((logged'.stored event).mpr stored) with old | new
    · exact (logged.stored event).mp old
    · obtain ⟨other, name, different⟩ := others event new
      exact absurd (Option.some.inj (name.symm.trans named)) different

/-- A cancel that has written nothing returns no receipt. -/
theorem JobPool.Run.cancel_fails (isCancel : calls canceler = .cancel job reason)
    (unwritten : pool.state.own canceler = []) {outcome : Except RuntimeError CallResult}
    (returned : pool.outcome? canceler = some outcome) : ∃ error, outcome = .error error := by
  cases outcome with
  | error error => exact ⟨error, rfl⟩
  | ok result =>
    obtain ⟨moment, early, late, _, post⟩ :=
      JobPool.kept.returned ran (.fresh start) (.fresh reachable quiet) rfl returned
    obtain ⟨meets, sound⟩ := JobPool.Run.sound reachable quiet early
    change (calls canceler).Returned canceler moment.state (.ok result) at post
    rw [isCancel] at post
    cases result with
    | canceled receipt =>
      obtain ⟨other, _, own⟩ := post
      have grown := (JobPool.Run.since late meets sound).own_grows
        (own ▸ List.mem_cons_self : Effect.committed other ∈ moment.state.own canceler)
      rw [unwritten] at grown
      cases grown
    | ran receipt => exact post.elim
    | registered => exact post.elim

theorem JobPool.Run.cancel_refused (isRun : calls run = .runTool json request tool finalizer)
    (ended : pool.EndedBy run job operation) (after : JobPool.Run calls pool later)
    (isCancel : calls canceler = .cancel job reason) :
    JobPool.CancelRefused canceler job pool later := by
  obtain ⟨meets, sound⟩ := JobPool.Run.sound reachable quiet ran
  have since := JobPool.Run.since after meets sound
  obtain ⟨_, sound'⟩ := JobPool.Run.sound reachable quiet (ran.trans after)
  have apart := sound'.ended_apart quiet reachable isRun ⟨since.own_grows ended.1, ended.2⟩
  have unwritten := sound'.cancel_unwritten apart isCancel
  refine ⟨unwritten,
    fun _ => JobPool.Run.cancel_fails reachable quiet (ran.trans after) isCancel unwritten, ?_⟩
  -- The refusal is stated at the moment the cancel returns, when the job has ended already.
  intro unfinished nodup error returned
  obtain ⟨moment, early, late, ended', post⟩ :=
    JobPool.kept.returned after meets sound unfinished returned
  obtain ⟨meets', sound''⟩ := JobPool.Run.sound reachable quiet (ran.trans early)
  change (calls canceler).Returned canceler moment.state (.error error) at post
  rw [isCancel] at post
  have issued := (JobPool.Run.since late meets' sound'').issued
  obtain ⟨_, others⟩ := JobPool.kept.rests late meets' sound'' ended' fun _ _ => False.elim
  rw [others.told]
  refine post.2 (nodup.sublist issued.sublist) ?_
  obtain ⟨log, logged⟩ := sound.reachable.logged
  have closed := sound.ended quiet reachable ended
  have kept := ((JobPool.Run.since early meets sound).settled sound.reachable logged closed).record
  exact (ended_congr kept).mpr closed

end Runs

end Proof

/-- A run and the cancels of its job: the job ends once; a cancel before the
invocation is announced keeps the tool from running, every committed cancel makes
the run fail and leaves nothing of it behind, and once the run has ended the job
every cancel is refused. -/
theorem run_tool_job_versus_cancel_job {json : ToolOutput.JsonWriter} {request : RuntimeJobRequest}
    {tool : RuntimeTool} {finalizer : Option Finalizer}
    (isRun : calls run = .runTool json request tool finalizer)
    (reachable : Reachable start.ledger) (quiet : start.history = [])
    (ran : JobPool.Run calls (Pool.fresh start) pool) (created : pool.Created run job) :
    pool.RaceSafe calls run job := by
  obtain ⟨operation, member, creates⟩ := created
  obtain ⟨meets, sound⟩ := JobPool.Run.sound reachable quiet ran
  have absent := sound.created_absent quiet reachable member creates
  refine ⟨?_, ?_, ?_, ?_, ?_⟩
  · intro later after ended
    obtain ⟨log, logged⟩ := sound.reachable.logged
    exact ((JobPool.Run.since after meets sound).settled sound.reachable logged ended).record
  · intro first second stored stored' concerns concerns' closes closes'
    exact sound.announced quiet reachable absent stored stored' concerns concerns' closes closes'
  · intro canceled uninvoked later after invocation request' result
    exact sound.unexecuted quiet reachable isRun member creates canceled uninvoked
      (JobPool.Run.since after meets sound)
  · intro canceled later after
    exact JobPool.Run.canceled_run reachable quiet ran isRun member creates canceled after
  · intro ending ended later after canceler reason isCancel
    exact JobPool.Run.cancel_refused reachable quiet ran isRun ended after isCancel

/-- The run has read the policy and stopped, a cancel has read the job before. -/
def stoppedPlan : List (Party × Nat × Nat) :=
  [(.registrar, 2, 5), (.runner, 7, 5), (.canceler, 2, 5), (.runner, 10, 5)]

private theorem stoppedPlan_checked :
    (((samplePool .blocked stoppedPlan).state.own .runner).any (Effect.commits fun operation =>
        decide (operation.createdJob = some sampleJob)) &&
      ((samplePool .blocked stoppedPlan).state.own .runner).any (Effect.commits fun operation =>
        operation.ends && decide (operation.writtenJob = some sampleJob)) &&
      ((samplePool .blocked stoppedPlan).outcome? .canceler).isNone) = true := by
  decide +kernel

private theorem stoppedPlan_created :
    (samplePool .blocked stoppedPlan).Created .runner sampleJob := by
  have checked := stoppedPlan_checked
  rw [Bool.and_eq_true, Bool.and_eq_true] at checked
  obtain ⟨operation, member, created⟩ := exists_committed _ _ checked.1.1
  exact ⟨operation, member, of_decide_eq_true created⟩

private theorem stoppedPlan_ended :
    ∃ operation, (samplePool .blocked stoppedPlan).EndedBy .runner sampleJob operation := by
  have checked := stoppedPlan_checked
  rw [Bool.and_eq_true, Bool.and_eq_true] at checked
  obtain ⟨operation, member, ended⟩ := exists_committed _ _ checked.1.2
  rw [Bool.and_eq_true, decide_eq_true_eq] at ended
  exact ⟨operation, member, ended⟩

theorem run_tool_job_versus_cancel_job_stopped :
    (samplePool .blocked stoppedPlan).RaceSafe (sampleCalls .blocked) .runner sampleJob :=
  run_tool_job_versus_cancel_job rfl sampleStart_reachable rfl (samplePool_run .blocked stoppedPlan)
    stoppedPlan_created

/-- A cancel that has read the job in time and then reads a clock that is behind
the job does not fail with a conflict. -/
theorem cancel_with_late_clock_not_conflict :
    ∃ pool later : JobPool Party, JobPool.Run (sampleCalls .blocked) (Pool.fresh sampleStart) pool ∧
      JobPool.Run (sampleCalls .blocked) pool later ∧
      (∃ operation, pool.EndedBy .runner sampleJob operation) ∧ pool.outcome? .canceler = none ∧
      later.outcome? .canceler =
        some (.error (.jobStatusTransition (.nonMonotonicTimestamp ⟨1⟩ ⟨5⟩))) := by
  refine ⟨samplePool .blocked stoppedPlan, samplePool .blocked (stoppedPlan ++ [(.canceler, 5, 1)]),
    samplePool_run _ _, samplePool_extends _ _ _, stoppedPlan_ended, ?_, ?_⟩
  · have checked := stoppedPlan_checked
    rw [Bool.and_eq_true] at checked
    exact Option.isNone_iff_eq_none.mp checked.2
  · exact Pool.outcome_of_failure (by decide +kernel)

end Atelia.Runtime
