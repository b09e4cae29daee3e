import Atelia.Ledger.Versions

/-! What one operation does to the job it writes: the status it finds, the status it leaves,
and how many of its events announce the end of the job. -/

namespace Atelia

/-- The status from which an event with a job update starts. -/
def JobEvent.sourceStatus (event : JobEvent) (status : JobStatus) : JobStatus :=
  match event.kind with
  | .jobStatusChanged source _ => source
  | _ => status

/-- The event announces a terminal status. -/
def JobEvent.closes (event : JobEvent) : Bool :=
  match event.kind with
  | .jobStatusChanged _ target => target.isTerminal
  | _ => false

/-- The status change that an event announces. -/
def JobEvent.statusChange? (event : JobEvent) : Option (JobStatus × JobStatus) :=
  match event.kind with
  | .jobStatusChanged source target => some (source, target)
  | _ => none

/-- Status changes that follow on each other from one status to another. -/
inductive StatusChain : JobStatus → List (JobStatus × JobStatus) → JobStatus → Prop where
  | nil {status : JobStatus} : StatusChain status [] status
  | cons {source middle target : JobStatus} {changes : List (JobStatus × JobStatus)}
      (rest : StatusChain middle changes target) :
    StatusChain source ((source, middle) :: changes) target

theorem StatusChain.append {source middle target : JobStatus}
    {changes later : List (JobStatus × JobStatus)} (first : StatusChain source changes middle)
    (second : StatusChain middle later target) : StatusChain source (changes ++ later) target := by
  induction first with
  | nil => exact second
  | cons _ ih => exact .cons (ih second)

namespace Store

open Outcome

variable {before after : InMemoryInner}

section Updates

variable {existing record : JobRecord} {event : JobEvent}

section Accepted

variable (accepted : validateJobUpdateAgainst existing record event = .ok ())
include accepted

/-- The event of an accepted update announces exactly the status change it makes. -/
theorem announced_of_update :
    (record.status = existing.status ∧
        ∀ source target, event.kind ≠ .jobStatusChanged source target) ∨
      (event.kind = .jobStatusChanged existing.status record.status ∧
        existing.status.isTerminal = false) := by
  have update := JobUpdate.of_validated accepted
  simp only [validateJobUpdateAgainst, validateJobLifecycleUpdate, bind_eq_ok, exists_unit]
    at accepted
  have change := accepted.2.2.2.2.2.2.1.2.1
  unfold validateJobStatusChange at change
  split at change
  · rename_i changed
    simp only [bind_eq_ok, exists_unit, ensure_eq_ok] at change
    refine .inr ⟨change.1, ?_⟩
    rcases update.status with ⟨same, _⟩ | ⟨_, _, allowed, _⟩
    · exact absurd same changed
    · by_contra ended
      exact changed (JobStatus.eq_of_terminal_transition (Bool.not_eq_false _ ▸ ended) allowed)
  · rename_i unchanged
    simp only [bind_eq_ok, exists_unit, reject_eq_ok, ne_eq, not_not] at change unchanged
    refine .inl ⟨unchanged, ?_⟩
    intro source target kind
    simp [kind] at change

theorem sourceStatus_of_update :
    existing.status = event.sourceStatus record.status := by
  rcases announced_of_update accepted with ⟨unchanged, silent⟩ | ⟨announced, _⟩
  · unfold JobEvent.sourceStatus
    split
    · rename_i source target kind
      exact absurd kind (silent source target)
    · exact unchanged.symm
  · rw [JobEvent.sourceStatus, announced]

theorem chain_of_update :
    StatusChain existing.status event.statusChange?.toList record.status := by
  rcases announced_of_update accepted with ⟨unchanged, silent⟩ | ⟨announced, _⟩
  · have none : event.statusChange? = none := by
      unfold JobEvent.statusChange?
      split
      · rename_i source target kind
        exact absurd kind (silent source target)
      · rfl
    rw [none, unchanged]
    exact .nil
  · rw [JobEvent.statusChange?, announced]
    exact .cons .nil

theorem closes_of_update :
    event.closes = (record.status.isTerminal && !existing.status.isTerminal) := by
  rcases announced_of_update accepted with ⟨unchanged, silent⟩ | ⟨announced, unended⟩
  · rw [unchanged, Bool.and_not_self]
    unfold JobEvent.closes
    split
    · rename_i source target kind
      exact absurd kind (silent source target)
    · rfl
  · rw [JobEvent.closes, announced, unended, Bool.not_false, Bool.and_true]

theorem ended_of_update (ended : existing.status.isTerminal = true) :
    record.status.isTerminal = true := by
  rcases announced_of_update accepted with ⟨unchanged, _⟩ | ⟨_, unended⟩
  · rw [unchanged, ended]
  · rw [ended] at unended
    cases unended

end Accepted

end Updates

private theorem ends_once {before between after : Bool} (first : before = true → between = true)
    (second : between = true → after = true) :
    ((if (after && !between) = true then 1 else 0) + if (between && !before) = true then 1 else 0) =
      if (after && !before) = true then 1 else 0 := by
  cases before <;> cases between <;> cases after <;> simp at first second ⊢

/-- One operation writes one job and no other. -/
structure JobMove (before after : InMemoryInner) (events : List JobEvent) (job : JobId)
    (source target : JobStatus) : Prop where
  found : ∃ existing, before.jobs[job]? = some existing ∧ existing.status = source
  moved : ∃ next, after.jobs[job]? = some next ∧ next.status = target
  others : ∀ other, other ≠ job → after.jobs[other]? = before.jobs[other]?
  named : ∀ event ∈ events, event.refs.jobId = some job
  closing : events.countP (·.closes) = if target.isTerminal && !source.isTerminal then 1 else 0
  chain : StatusChain source (events.flatMap (·.statusChange?.toList)) target
  latest : ∃ last, events.getLast? = some last ∧
    ∀ next, after.jobs[job]? = some next → next.latestEventId = some last.id

theorem JobMove.of_append {record : JobRecord} {event stored : JobEvent}
    (ran : appendJobEventAndUpdateJob record event before = .ok (stored, after)) :
    JobMove before after [stored] record.id (event.sourceStatus record.status) record.status := by
  obtain ⟨⟨update, _⟩, _, rfl, rfl, _⟩ := appendJobEventAndUpdateJob_eq_ok.mp ran
  obtain ⟨existing, found, _, against⟩ := validateJobUpdate_eq_ok.mp update
  have source := sourceStatus_of_update against
  have closes : (before.numbered event).closes = _ := closes_of_update against
  have chain : StatusChain _ (before.numbered event).statusChange?.toList _ := chain_of_update against
  refine ⟨⟨existing, found, source⟩, ⟨_, withJobEvent_job _ _ _, rfl⟩, ?_, ?_, ?_, ?_, _, rfl, ?_⟩
  · intro other different
    exact Table.lookup_insert_other (Ne.symm different)
  · intro event member
    obtain rfl := List.mem_singleton.mp member
    exact (JobUpdate.of_validated against).eventJob
  · rw [List.countP_singleton, closes, source]
  · rw [List.flatMap_singleton, ← source]
    exact chain
  · intro next stored
    rw [withJobEvent_job, Option.some.injEq] at stored
    exact stored ▸ rfl

theorem JobMove.of_appendEvents {firstRecord finalRecord : JobRecord}
    {firstEvent finalEvent : JobEvent} {stored : JobEvent × JobEvent}
    (ran : appendJobEventsAndUpdateJob firstRecord firstEvent finalRecord finalEvent before =
      .ok (stored, after)) :
    JobMove before after [stored.1, stored.2] firstRecord.id
      (firstEvent.sourceStatus firstRecord.status) finalRecord.status := by
  obtain ⟨⟨_, identity, update, _, final, _⟩, _, rfl, rfl, _⟩ :=
    appendJobEventsAndUpdateJob_eq_ok.mp ran
  obtain ⟨existing, found, _, first⟩ := validateJobUpdate_eq_ok.mp update
  simp only [validateTwoStageJobUpdateIdentity, bind_eq_ok, exists_unit, reject_eq_ok,
    not_not] at identity
  have same : firstRecord.id = finalRecord.id := identity.1
  have source := sourceStatus_of_update first
  have firstCloses : (before.numbered firstEvent).closes = _ := closes_of_update first
  have finalCloses : ((before.withEvent firstEvent).numbered finalEvent).closes = _ :=
    closes_of_update final
  have firstChain : StatusChain _ (before.numbered firstEvent).statusChange?.toList _ :=
    chain_of_update first
  have finalChain : StatusChain _
      ((before.withEvent firstEvent).numbered finalEvent).statusChange?.toList _ :=
    chain_of_update final
  have stored : ((before.withJobEvent firstRecord firstEvent).withJobEvent finalRecord
      finalEvent).jobs[firstRecord.id]? =
      some { finalRecord with latestEventId := some finalEvent.id } := by
    rw [same]
    exact withJobEvent_job _ _ _
  refine ⟨⟨existing, found, source⟩, ⟨_, stored, rfl⟩, ?_, ?_, ?_, ?_, _, rfl, ?_⟩
  · intro other different
    have other' : other ≠ finalRecord.id := same ▸ different
    exact (Table.lookup_insert_other (Ne.symm other')).trans
      (Table.lookup_insert_other (Ne.symm different))
  · intro event member
    rcases List.mem_pair.mp member with rfl | rfl
    · exact (JobUpdate.of_validated first).eventJob
    · exact (JobUpdate.of_validated final).eventJob.trans (congrArg some same.symm)
  · -- at most one of the two events ends the job, since a job that has ended stays as it is
    have firstKept := ended_of_update first
    have finalKept := ended_of_update final
    rw [List.countP_cons, List.countP_singleton, firstCloses, finalCloses, ← source]
    exact ends_once firstKept finalKept
  · rw [List.flatMap_cons, List.flatMap_singleton, ← source]
    exact firstChain.append finalChain
  · intro next found
    rw [stored, Option.some.injEq] at found
    exact found ▸ rfl

theorem terminalRecord_status {record finalRecord : JobRecord} {status : ToolResultStatus}
    {event : JobEvent} (transition : terminalRecord record status event = .ok finalRecord) :
    finalRecord.status = terminalStatus status := by
  rw [← terminalRecord_withStatus transition]
  rfl

/-- The events of an accepted terminal request name its job. -/
theorem TerminalAccepted.named {request : ToolResultAuditTerminalRequest} {final : JobRecord}
    (accepted : TerminalAccepted before request final) :
    ∀ event ∈ [(before.terminalEvents request).1, (before.terminalEvents request).2.1,
      (before.terminalEvents request).2.2], event.refs.jobId = some request.record.id := by
  obtain ⟨_, _, _, update⟩ := validateJobUpdate_eq_ok.mp accepted.records.update
  obtain ⟨_, _, _, auditUpdate⟩ := validateJobUpdate_eq_ok.mp accepted.records.auditUpdate
  intro event member
  simp only [InMemoryInner.terminalEvents, List.mem_cons, List.not_mem_nil, or_false] at member
  rcases member with rfl | rfl | rfl
  · exact (JobUpdate.of_validated update).eventJob
  · exact (JobUpdate.of_validated auditUpdate).eventJob
  · exact (JobUpdate.of_validated accepted.update).eventJob.trans
      (congrArg some (terminalRecord_id accepted.transition))

theorem JobMove.of_terminal {request : ToolResultAuditTerminalRequest}
    {stored : JobEvent × JobEvent × JobEvent}
    (ran : recordToolResultAuditTerminalWithSubmitJobIdempotency request before =
      .ok (stored, after))
    (settled : request.toolResultEvent.sourceStatus request.record.status = request.record.status) :
    JobMove before after [stored.1, stored.2.1, stored.2.2] request.record.id request.record.status
      (terminalStatus request.toolResult.status) := by
  obtain ⟨final, accepted, rfl, inserted, _⟩ := recordToolResultAuditTerminal_eq_ok.mp ran
  obtain ⟨existing, found, _, update⟩ := validateJobUpdate_eq_ok.mp accepted.records.update
  obtain ⟨existing', found', _, auditUpdate⟩ := validateJobUpdate_eq_ok.mp
    accepted.records.auditUpdate
  obtain rfl : existing = existing' := Option.some.inj (found.symm.trans found')
  have same := terminalRecord_id accepted.transition
  have target := terminalRecord_status accepted.transition
  have source : existing.status = request.record.status :=
    (sourceStatus_of_update update).trans settled
  have resultCloses : (before.numbered request.toolResultEvent).closes = _ := closes_of_update update
  have auditCloses : ((before.withEvent request.toolResultEvent).numbered
    request.auditEvent).closes = _ := closes_of_update auditUpdate
  have terminalCloses : (((before.withEvent request.toolResultEvent).withEvent
    request.auditEvent).numbered request.terminalEvent).closes = _ :=
      closes_of_update accepted.update
  have resultChain : StatusChain _ (before.numbered request.toolResultEvent).statusChange?.toList _ :=
    chain_of_update update
  have auditChain : StatusChain _ ((before.withEvent request.toolResultEvent).numbered
    request.auditEvent).statusChange?.toList _ := chain_of_update auditUpdate
  have terminalChain : StatusChain _ (((before.withEvent request.toolResultEvent).withEvent
    request.auditEvent).numbered request.terminalEvent).statusChange?.toList _ :=
      chain_of_update accepted.update
  have jobs := insertTerminalReceipt_jobs inserted
  have stored : after.jobs[request.record.id]? =
      some { final with latestEventId := some request.terminalEvent.id } := by
    rw [jobs, ← same]
    exact withJobEvent_job _ _ _
  refine ⟨⟨existing, found, source⟩, ⟨_, stored, target⟩, ?_, accepted.named, ?_, ?_, _, rfl, ?_⟩
  · intro other different
    have other' : other ≠ final.id := same ▸ different
    rw [jobs]
    exact (Table.lookup_insert_other (Ne.symm other')).trans
      ((Table.lookup_insert_other (Ne.symm different)).trans
        (Table.lookup_insert_other (Ne.symm different)))
  · simp only [InMemoryInner.terminalEvents, List.countP_cons, List.countP_nil, resultCloses,
      auditCloses, terminalCloses, source, target, Bool.and_not_self, Bool.false_eq_true, if_false,
      Nat.add_zero, Nat.zero_add]
  · rw [source] at resultChain auditChain
    rw [target] at terminalChain
    simp only [InMemoryInner.terminalEvents, List.flatMap_cons, List.flatMap_nil, List.append_nil]
    exact resultChain.append (auditChain.append terminalChain)
  · intro next found
    rw [stored, Option.some.injEq] at found
    exact found ▸ rfl

/-- The last event of a terminal request announces the end of the job. -/
theorem terminalEvent_announces {request : ToolResultAuditTerminalRequest}
    {stored : JobEvent × JobEvent × JobEvent}
    (ran : recordToolResultAuditTerminalWithSubmitJobIdempotency request before =
      .ok (stored, after)) (unended : request.record.status.isTerminal = false) :
    request.terminalEvent.closes = true := by
  obtain ⟨final, accepted, _⟩ := recordToolResultAuditTerminal_eq_ok.mp ran
  rw [closes_of_update accepted.update, unended, terminalRecord_status accepted.transition]
  cases request.toolResult.status <;> rfl

end Store

end Atelia
