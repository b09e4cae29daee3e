import Atelia.Runtime.Conformance
import Atelia.Runtime.Tracking

/-! The stages of a run, seen from the records they leave behind. -/

namespace Atelia.Runtime

open Store

variable {Call : Type} {call : Call} {world : World Call} {ledger before after : InMemoryInner}
  {effects : List Effect} {α : Type}

/-- What disciplined calls do to the world of another. -/
def World.Orderly (call : Call) (before after : World Call) : Prop :=
  World.Others call before after ∧
    ∃ effects, Disciplined effects ∧ Replays before.ledger effects after.ledger

instance World.orderly_refl : Std.Refl (World.Orderly call) where
  refl world := ⟨refl_of (World.Others call) world, [], fun _ => nofun, rfl⟩

instance World.orderly_trans : IsTrans (World Call) (World.Orderly call) where
  trans _ _ _ first second := by
    obtain ⟨others, effects, disciplined, replays⟩ := first
    obtain ⟨others', effects', disciplined', replays'⟩ := second
    exact ⟨trans_of (World.Others call) others others', _, disciplined.append disciplined',
      replays.append replays'⟩

/-- The records that a run has stored so far. -/
structure Recorded (progress : Progress) (decision : Option PolicyDecision)
    (invocation : Option ToolInvocation) (ledger : InMemoryInner) : Prop where
  reachable : Reachable ledger
  job : progress.Tracks ledger
  decision : ∀ record, decision = some record → ledger.policyDecisions[record.id]? = some record
  invocation : ∀ record, invocation = some record →
    ledger.toolInvocations[record.id]? = some record

section Commands

variable {progress : Progress} {decision : Option PolicyDecision}
  {invocation : Option ToolInvocation}

theorem Recorded.later (recorded : Recorded progress decision invocation before)
    (disciplined : Disciplined effects) (replays : Replays before effects after) :
    Recorded progress decision invocation after := by
  have grown := Run.extends recorded.reachable replays.run
  exact ⟨recorded.reachable.trans replays.run, recorded.job.later disciplined replays,
    fun record same => grown.policyDecisions.lookup (recorded.decision record same),
    fun record same => grown.toolInvocations.lookup (recorded.invocation record same)⟩

/-- What disciplined operations do not end. -/
def Lasting (holds : InMemoryInner → Prop) : Prop :=
  ∀ before after effects, Disciplined effects → Replays before effects after → holds before →
    holds after

theorem Recorded.lasting : Lasting (Recorded progress decision invocation) :=
  fun _ _ _ disciplined replays recorded => recorded.later disciplined replays

/-- An operation of the run that writes no job. -/
theorem Recorded.performed (recorded : Recorded progress decision invocation before)
    {operation : StoreOperation} {response : operation.Response} (disciplined : operation.Disciplined)
    (answered : operation.mutation before = .ok (response, after)) :
    Recorded progress decision invocation after := by
  have replays : Replays before [.committed operation] after := ⟨response, after, answered, rfl⟩
  refine recorded.later ?_ replays
  intro other member
  obtain rfl := Effect.committed.inj (List.mem_singleton.mp member)
  exact disciplined

/-- An update of the job by the run. -/
theorem Recorded.updated (recorded : Recorded progress decision invocation before)
    {record : JobRecord} {event stored : JobEvent} (id : record.id = progress.job.id)
    (version : record.latestEventId = progress.job.latestEventId)
    (ran : Store.appendJobEventAndUpdateJob record event before = .ok (stored, after)) :
    Recorded (Progress.advance ⟨record, progress.events⟩ stored) decision invocation after := by
  have answered : (StoreOperation.appendJobEventAndUpdateJob record event).mutation before =
    .ok (stored, after) := ran
  have step := StoreOperation.step_of_mutation answered
  have reached : Reachable after := recorded.reachable.tail step
  have grown := Run.extends recorded.reachable (.single step)
  have shown := recorded.job.updated recorded.reachable id version ran
  exact ⟨reached, shown.tracks reached,
    fun record same => grown.policyDecisions.lookup (recorded.decision record same),
    fun record same => grown.toolInvocations.lookup (recorded.invocation record same)⟩

/-- The result of the program, as long as the others are disciplined. -/
abbrev Leaves (call : Call) (program : Routine α) (holds : α → InMemoryInner → Prop)
    (world : World Call) : Prop :=
  program.Meets (Serves call) (World.Orderly call) (fun _ _ => True)
    (Program.returning fun result world => holds result world.ledger) world

/-- A command that is not for the store leaves the ledger alone. -/
theorem Serves.quiet {later : World Call} {command : RuntimeCommand} {answer : command.Answer}
    (served : Serves call world command answer later)
    (quiet : ∀ operation, command ≠ .store operation) : later.ledger = world.ledger := by
  cases command with
  | store operation => exact absurd rfl (quiet operation)
  | getRepository id => exact served.2 ▸ rfl
  | getJob id => exact served.2 ▸ rfl
  | writeArtifactBytes config scope label mediaType bytes =>
    obtain rfl : later = _ := served
    cases answer <;> rfl
  | updateSpillMetadata config scope outputRef originalBytes retainedBytes =>
    obtain rfl : later = _ := served
    cases answer <;> rfl
  | _ =>
    obtain rfl : later = _ := served
    rfl

/-- Programs without commands for the store. -/
abbrev Quiet (promised : α → Prop) (program : Routine α) : Prop :=
  program.Confined (fun command => ∀ operation, command ≠ .store operation) (fun _ _ => True) promised

theorem Quiet.leaves {program : Routine α} {promised : α → Prop} (quiet : Quiet promised program)
    {holds : InMemoryInner → Prop} (lasting : Lasting holds) (held : holds world.ledger) :
    Leaves call program (fun result ledger => promised result ∧ holds ledger) world := by
  induction program generalizing world with
  | done result => exact ⟨quiet, held⟩
  | fail failure => exact trivial
  | perform command next ih =>
    intro later moved answer after served
    obtain ⟨_, effects, disciplined, replays⟩ := moved
    refine ⟨trivial, ih answer (quiet.2 answer trivial) ?_⟩
    rw [served.quiet quiet.1]
    exact lasting _ _ effects disciplined replays held

end Commands

section Quiet

/-- The events of the last commit are made without sequence numbers. -/
structure Closing.Unnumbered (closing : Closing) : Prop where
  result : closing.resultEvent.sequenceNumber = 0
  audit : closing.auditEvent.sequenceNumber = 0
  terminal : closing.terminalEvent.sequenceNumber = 0

end Quiet

section Stages

variable {progress : Progress} {policyDecision : PolicyDecision} {invocation : ToolInvocation}
  {decision : Option PolicyDecision} {invoked : Option ToolInvocation}

end Stages

section Receipts

variable {progress : Progress} {policyDecision : PolicyDecision} {invocation : ToolInvocation}

/-- The records of a receipt are the stored ones, and its events are those that
refer to the job. -/
structure CommittedIn (receipt : RuntimeJobReceipt) (ledger : InMemoryInner) : Prop where
  job : ledger.jobs[receipt.job.id]? = some receipt.job
  policyDecision : ledger.policyDecisions[receipt.policyDecision.id]? = some receipt.policyDecision
  toolInvocation : ∀ record, receipt.toolInvocation = some record →
    ledger.toolInvocations[record.id]? = some record
  toolResult : ∀ record, receipt.toolResult = some record →
    ledger.toolResults[record.id]? = some record
  auditRecord : ∀ record, receipt.auditRecord = some record →
    ledger.auditRecords[record.id]? = some record
  events : receipt.events = ledger.jobEvents receipt.job.id

/-- The receipt that the finalizer is given: its last three events have no sequence
numbers yet. -/
def draftReceipt (receipt : RuntimeJobReceipt) : RuntimeJobReceipt :=
  let committed := receipt.events.length - 3
  { receipt with
    events := receipt.events.take committed ++
      (receipt.events.drop committed).map fun event => { event with sequenceNumber := 0 } }

/-- A record that the finalizer makes of the receipt is stored with the receipt. -/
def KeptByKey (finalizer : Option Finalizer) (receipt : RuntimeJobReceipt) (ledger : InMemoryInner) :
    Prop :=
  ∀ key submission, finalize finalizer (draftReceipt receipt) = some (key, submission) →
    submission.receipt = draftReceipt receipt →
    ledger.idempotentSubmitJobs[key]? = some { submission with receipt }

/-- What a run leaves with the receipt it returns. -/
structure Delivered (finalizer : Option Finalizer) (receipt : RuntimeJobReceipt)
    (ledger : InMemoryInner) : Prop where
  committed : CommittedIn receipt ledger
  kept : KeptByKey finalizer receipt ledger
  ended : receipt.job.status.isTerminal = true

variable {closing : Closing} {stored : JobEvent × JobEvent × JobEvent}

/-- The job and its events after the last commit. -/
theorem Progress.Tracks.terminal (tracks : progress.Tracks before) (reachable : Reachable before)
    {idempotency : Option (String × SubmitJobIdempotencyRecord)}
    (ran : recordToolResultAuditTerminalWithSubmitJobIdempotency
      (closing.request progress idempotency) before = .ok (stored, after)) :
    Progress.ShownIn ⟨{ closing.job progress with latestEventId := some closing.terminalEvent.id },
      progress.events ++ [stored.1, stored.2.1, stored.2.2]⟩ after := by
  have answered : (StoreOperation.recordToolResultAuditTerminal
    (closing.request progress idempotency)).mutation before = .ok (stored, after) := ran
  obtain ⟨final, accepted, rfl, inserted, _⟩ := recordToolResultAuditTerminal_eq_ok.mp ran
  have shown := tracks.accepted rfl rfl accepted.records.update
  have moved : progress.job.withStatus (terminalStatus closing.result.status)
      closing.terminalEvent.createdAt = final := terminalRecord_withStatus accepted.transition
  refine ⟨?_, ?_⟩
  · rw [insertTerminalReceipt_jobs inserted]
    have stored := withJobEvent_job (before.withToolResultAndAudit progress.job closing.result
      closing.resultEvent closing.audit closing.auditEvent) final closing.terminalEvent
    rw [← moved] at stored ⊢
    exact stored
  · have log := StoreOperation.mutation_jobEvents reachable answered
      (fun event member => by rw [accepted.named event member]; rfl) progress.job.id
    refine log.trans ?_
    rw [shown.events]
    exact congrArg (progress.events ++ ·) (List.filter_eq_self.mpr fun event member =>
      decide_eq_true (accepted.named event member))

/-- What a terminal request stores beside the job. -/
theorem terminal_records {request : ToolResultAuditTerminalRequest}
    (ran : recordToolResultAuditTerminalWithSubmitJobIdempotency request before =
      .ok (stored, after)) :
    after.toolResults[request.toolResult.id]? = some request.toolResult ∧
      after.auditRecords[request.auditRecord.id]? = some request.auditRecord := by
  obtain ⟨final, _, _, inserted, _⟩ := recordToolResultAuditTerminal_eq_ok.mp ran
  obtain ⟨_, results, audits⟩ := insertTerminalReceipt_tools inserted
  rw [results, audits]
  exact ⟨Table.lookup_insert_same _ _ _, Table.lookup_insert_same _ _ _⟩

/-- The receipt that a completed run returns. -/
def Closing.returned (closing : Closing) (policyDecision : PolicyDecision)
    (invocation : ToolInvocation) (progress : Progress) (rendered : RenderedToolOutput)
    (stored : JobEvent × JobEvent × JobEvent) : RuntimeJobReceipt :=
  let receipt := closing.receipt policyDecision invocation progress rendered (closing.job progress)
  { receipt with events := persistEvents receipt.events stored.1 stored.2.1 stored.2.2 }

theorem Closing.returned_events (closing : Closing) (rendered : RenderedToolOutput)
    (stored : JobEvent × JobEvent × JobEvent) :
    (closing.returned policyDecision invocation progress rendered stored).events =
      progress.events ++ [stored.1, stored.2.1, stored.2.2] := by
  simp only [Closing.returned, Closing.receipt, Closing.pending, pendingProgress, List.append_assoc,
    List.cons_append, List.nil_append, persistEvents_append]

/-- The finalizer of a completed run is given the draft of what the run returns. -/
theorem Closing.draft_returned (unnumbered : closing.Unnumbered) (rendered : RenderedToolOutput)
    (idempotency : Option (String × SubmitJobIdempotencyRecord)) :
    draftReceipt (closing.returned policyDecision invocation progress rendered
      (ledger.terminalEvents (closing.request progress idempotency))) =
      closing.receipt policyDecision invocation progress rendered (closing.job progress) := by
  obtain ⟨result, audit, terminal⟩ := unnumbered
  have drafted : ∀ (inner : InMemoryInner) (event : JobEvent), event.sequenceNumber = 0 →
      { inner.numbered event with sequenceNumber := 0 } = event := by
    rintro inner event unnumbered
    cases event
    cases unnumbered
    rfl
  rw [draftReceipt, Closing.returned_events]
  simp [Closing.returned, Closing.receipt, Closing.pending, pendingProgress, drafted,
    InMemoryInner.terminalEvents, Closing.request, result, audit, terminal]

theorem Closing.delivered (finalizer : Option Finalizer) (rendered : RenderedToolOutput)
    (unnumbered : closing.Unnumbered)
    (recorded : Recorded progress (some policyDecision) (some invocation) before)
    (ran : recordToolResultAuditTerminalWithSubmitJobIdempotency (closing.request progress
      (finalize finalizer (closing.receipt policyDecision invocation progress rendered
        (closing.job progress)))) before = .ok (stored, after)) :
    Delivered finalizer (closing.returned policyDecision invocation progress rendered stored)
      after := by
  have answered : (StoreOperation.recordToolResultAuditTerminal (closing.request progress
    (finalize finalizer (closing.receipt policyDecision invocation progress rendered
      (closing.job progress))))).mutation before = .ok (stored, after) := ran
  have grown := Run.extends recorded.reachable (.single (StoreOperation.step_of_mutation answered))
  have shown := recorded.job.terminal recorded.reachable ran
  obtain ⟨result, audit⟩ := terminal_records ran
  refine ⟨⟨shown.job, grown.policyDecisions.lookup (recorded.decision _ rfl), ?_, ?_, ?_, ?_⟩, ?_,
    terminalStatus_isTerminal _⟩
  · intro record same
    exact Option.some.inj same ▸ grown.toolInvocations.lookup (recorded.invocation _ rfl)
  · intro record same
    exact Option.some.inj same ▸ result
  · intro record same
    exact Option.some.inj same ▸ audit
  · exact (closing.returned_events rendered stored).trans shown.events.symm
  · intro key submission finalized carried
    obtain ⟨_, _, rfl, _⟩ := recordToolResultAuditTerminal_eq_ok.mp ran
    rw [Closing.draft_returned unnumbered] at finalized carried
    obtain ⟨signature, draft⟩ := submission
    obtain rfl : draft = _ := carried
    rw [finalized] at ran
    rw [finalized]
    exact Closing.stored_receipt rfl ran

/-- The receipt of a run that was stopped before its tool ran. -/
theorem Recorded.stopped (finalizer : Option Finalizer) {job : JobRecord} {event stored : JobEvent}
    (recorded : Recorded progress (some policyDecision) none before)
    (ran : Store.appendJobEventAndUpdateJob job event before = .ok (stored, after))
    (id : job.id = progress.job.id) (version : job.latestEventId = progress.job.latestEventId)
    (blocked : job.status = .blocked) :
    Delivered finalizer
      { job := { job with latestEventId := some event.id }
        policyDecision
        toolInvocation := none
        toolResult := none
        renderedOutput := none
        auditRecord := none
        events := replaceLast (progress.events ++ [event]) stored } after := by
  have shown := recorded.job.updated recorded.reachable id version ran
  have decided := (recorded.updated id version ran).decision _ rfl
  obtain ⟨_, _, rfl, _⟩ := appendJobEventAndUpdateJob_eq_ok.mp ran
  refine ⟨⟨shown.job, decided, ?_, ?_, ?_, ?_⟩, ?_, ?_⟩
  · exact fun _ absent => nomatch absent
  · exact fun _ absent => nomatch absent
  · exact fun _ absent => nomatch absent
  · refine Eq.trans ?_ shown.events.symm
    simp [replaceLast, Progress.advance]
  · intro key submission finalized
    rw [finalize, draftReceipt, if_neg (by simp [blocked])] at finalized
    cases finalized
  · simp only [blocked]
    rfl

end Receipts

end Atelia.Runtime
