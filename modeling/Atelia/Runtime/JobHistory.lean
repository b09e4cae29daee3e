import Atelia.Ledger.JobEnds
import Atelia.Ledger.JobEvents
import Atelia.Runtime.Histories

/-! Histories of disciplined operations. -/

namespace Atelia.Runtime

open Store

variable {before after : InMemoryInner} {effects : List Effect} {log : List JobEvent} {job : JobId}

/-- What holds of the ledger and its events at first and survives every operation
holds at the end. -/
theorem Replays.invariant (Holds : InMemoryInner → List JobEvent → Prop)
    (replays : Replays before effects after)
    (step : ∀ inner next log (operation : StoreOperation) response,
      .committed operation ∈ effects → operation.mutation inner = .ok (response, next) →
      Holds inner log → Holds next (log ++ operation.published response))
    (reachable : Reachable before) (logged : Logged before log) (holds : Holds before log) :
    ∃ events, Logged after (log ++ events) ∧ Holds after (log ++ events) := by
  induction effects generalizing before log with
  | nil =>
    obtain rfl : after = before := replays
    refine ⟨[], ?_⟩
    rw [List.append_nil]
    exact ⟨logged, holds⟩
  | cons effect rest ih =>
    have later := fun inner next log operation response member =>
      step inner next log operation response (List.mem_cons_of_mem effect member)
    cases effect with
    | committed operation =>
      obtain ⟨response, middle, answered, replays⟩ := replays
      have executed := StoreOperation.exec_of_mutation answered
      have first := step before middle log operation response List.mem_cons_self answered holds
      have reached : Reachable middle := reachable.tail (StoreOperation.step_of_mutation answered)
      obtain ⟨events, logged, holds⟩ := ih replays later reached
        (StoreOperation.exec_logged reachable.keyed executed logged) first
      refine ⟨operation.published response ++ events, ?_⟩
      rw [← List.append_assoc]
      exact ⟨logged, holds⟩
    | executed invocation request result => exact ih replays later reachable logged holds
    | artifactWritten outputRef => exact ih replays later reachable logged holds
    | artifactFailed error => exact ih replays later reachable logged holds

variable {operation : StoreOperation}

/-- An operation among the effects was performed at some moment. -/
theorem Replays.performed (replays : Replays before effects after)
    (member : .committed operation ∈ effects) :
    ∃ early late response inner next, effects = early ++ .committed operation :: late ∧
      Replays before early inner ∧ operation.mutation inner = .ok (response, next) ∧
      Replays next late after := by
  obtain ⟨early, late, rfl⟩ := List.append_of_mem member
  obtain ⟨inner, first, response, next, answered, rest⟩ := replays.split
  exact ⟨early, late, response, inner, next, rfl, first, answered, rest⟩

/-- An operation that creates a job finds no such job and leaves one. -/
theorem StoreOperation.createdJob_write {inner next : InMemoryInner} {response : operation.Response}
    (created : operation.createdJob = some job)
    (answered : operation.mutation inner = .ok (response, next)) :
    inner.jobs[job]? = none ∧ ∃ record, next.jobs[job]? = some record := by
  cases operation with
  | createJob record event =>
    obtain rfl := Option.some.inj created
    obtain ⟨⟨_, fresh, _⟩, _, _, rfl, _⟩ := createJobWithInitialEvent_eq_ok.mp answered
    exact ⟨fresh, _, withJobEvent_job _ _ _⟩
  | _ => cases created

variable {early late : List Effect}

/-- A job is not created twice. -/
theorem Replays.not_created_again {between : List Effect} {operation' : StoreOperation}
    (replays : Replays before (early ++ .committed operation :: (between ++
      .committed operation' :: late)) after) (reachable : Reachable before)
    (created : operation.createdJob = some job) (created' : operation'.createdJob = some job) :
    False := by
  obtain ⟨inner, first, response, next, answered, rest⟩ := replays.split
  obtain ⟨inner', second, response', next', answered', _⟩ := rest.split
  obtain ⟨_, record, found⟩ := StoreOperation.createdJob_write created answered
  obtain ⟨fresh, _⟩ := StoreOperation.createdJob_write created' answered'
  have reached : Reachable next :=
    (reachable.trans first.run).tail (StoreOperation.step_of_mutation answered)
  obtain ⟨kept, foundKept, _⟩ := Run.job_kept reached second.run found
  cases fresh.symm.trans foundKept

/-- All operations among the effects are disciplined. -/
def Disciplined (effects : List Effect) : Prop :=
  ∀ operation, .committed operation ∈ effects → operation.Disciplined

theorem Disciplined.of_append (disciplined : Disciplined (early ++ late)) :
    Disciplined early ∧ Disciplined late :=
  ⟨fun operation member => disciplined operation (List.mem_append_left _ member),
    fun operation member => disciplined operation (List.mem_append_right _ member)⟩

/-- What the operations after the end of a job leave as it is. -/
structure Settled (job : JobId) (before after : InMemoryInner) (log : List JobEvent) : Prop where
  record : after.jobs[job]? = before.jobs[job]?
  events : ∃ events, Logged after (log ++ events) ∧
    ∀ event ∈ events, ∃ other, event.refs.jobId = some other ∧ other ≠ job

theorem Replays.settled (replays : Replays before effects after) (disciplined : Disciplined effects)
    (reachable : Reachable before) (logged : Logged before log) (ended : Ended before job) :
    Settled job before after log := by
  let Holds : InMemoryInner → List JobEvent → Prop := fun inner current =>
    inner.jobs[job]? = before.jobs[job]? ∧ ∃ events, current = log ++ events ∧
      ∀ event ∈ events, ∃ other, event.refs.jobId = some other ∧ other ≠ job
  have start : Holds before log := ⟨rfl, [], (List.append_nil log).symm, by simp⟩
  obtain ⟨events, logged, kept, events', same, named⟩ :=
    replays.invariant Holds (fun inner next current operation response member answered held => by
      obtain ⟨kept, events, rfl, named⟩ := held
      have write := (disciplined operation member).write answered
      have elsewhere := write.ended ((ended_congr kept).mpr ended)
      refine ⟨(write.others elsewhere).trans kept, events ++ operation.published response,
        List.append_assoc _ _ _, ?_⟩
      refine List.forall_mem_append.mpr ⟨named, fun event added => ?_⟩
      obtain ⟨some, written⟩ := write.named event added
      obtain ⟨other, found⟩ := Option.isSome_iff_exists.mp some
      refine ⟨other, found, ?_⟩
      rintro rfl
      exact elsewhere (written.symm.trans found)) reachable logged start
  exact ⟨kept, events', same ▸ logged, named⟩

/-- No operation writes a job that has ended. -/
theorem Replays.unwritten (replays : Replays before effects after)
    (disciplined : Disciplined effects) (reachable : Reachable before) (ended : Ended before job)
    (member : .committed operation ∈ effects) : operation.writtenJob ≠ some job := by
  obtain ⟨early, late, response, inner, next, rfl, first, answered, _⟩ := replays.performed member
  obtain ⟨log, logged⟩ := reachable.logged
  have kept := first.settled disciplined.of_append.1 reachable logged ended
  exact ((disciplined operation member).write answered).ended
    ((ended_congr kept.record).mpr ended)

/-- An operation that ends a job leaves it ended, and nothing later writes the job. -/
theorem Replays.after_end (replays : Replays before (early ++ .committed operation :: late) after)
    (disciplined : Disciplined (early ++ .committed operation :: late))
    (reachable : Reachable before) (ends : operation.ends = true)
    (written : operation.writtenJob = some job) :
    Ended after job ∧ ∀ other, .committed other ∈ late → other.writtenJob ≠ some job := by
  obtain ⟨inner, first, response, next, answered, rest⟩ := replays.split
  have reached : Reachable next :=
    (reachable.trans first.run).tail (StoreOperation.step_of_mutation answered)
  have ended := (disciplined operation (by simp)).ended ends written answered
  have later : Disciplined late := fun other member =>
    disciplined.of_append.2 other (List.mem_cons_of_mem _ member)
  obtain ⟨log, logged⟩ := reached.logged
  refine ⟨(ended_congr (rest.settled later reached logged ended).record).mpr ended, ?_⟩
  intro other member
  exact rest.unwritten later reached ended member

section Replayed

variable (replays : Replays before effects after) (disciplined : Disciplined effects)
  (reachable : Reachable before)
include replays disciplined reachable

/-- The end of a job is announced at most once. -/
theorem Replays.endsOnce (logged : Logged before log) (ends : EndsOnce before log job) :
    ∃ events, Logged after (log ++ events) ∧ EndsOnce after (log ++ events) job := by
  refine replays.invariant (fun inner log => EndsOnce inner log job) ?_ reachable logged ends
  intro inner next log operation response member answered ends
  exact ends.write ((disciplined operation member).write answered)

/-- Every event that the operations add names a job. -/
theorem Replays.named (logged : Logged before log) :
    ∃ events, Logged after (log ++ events) ∧
      ∀ event ∈ events, ∃ named, event.refs.jobId = some named := by
  let Holds : InMemoryInner → List JobEvent → Prop := fun _ current =>
    ∃ events, current = log ++ events ∧ ∀ event ∈ events, ∃ named, event.refs.jobId = some named
  have start : Holds before log := ⟨[], (List.append_nil log).symm, by simp⟩
  obtain ⟨_, logged, events, same, named⟩ :=
    replays.invariant Holds (fun inner next current operation response member answered held => by
      obtain ⟨events, rfl, named⟩ := held
      have write := (disciplined operation member).write answered
      refine ⟨events ++ operation.published response, List.append_assoc _ _ _, ?_⟩
      refine List.forall_mem_append.mpr ⟨named, fun event added => ?_⟩
      exact Option.isSome_iff_exists.mp (write.named event added).1) reachable logged start
  exact ⟨events, same ▸ logged, named⟩

/-- The events that concern a new job are those that name it. -/
theorem Replays.concerns_named (absent : before.jobs[job]? = none) {event : JobEvent}
    (stored : after.jobEventsById[event.id]? = some event) (concerns : Concerns after job event) :
    event.refs.jobId = some job := by
  have reached : Reachable after := reachable.trans replays.run
  obtain ⟨log, logged⟩ := reachable.logged
  obtain ⟨events, logged', named⟩ := replays.named disciplined reachable logged
  rcases List.mem_append.mp ((logged'.stored event).mpr stored) with old | new
  · have early := (logged.stored event).mp old
    have known := (concerns.earlier reachable.sound (Run.extends reachable replays.run)
      early).job_stored reachable.keyed reachable.sound early
    rw [(Table.contains_eq_false_iff _ _).mpr absent] at known
    cases known
  · obtain ⟨other, name⟩ := named event new
    have links := (reached.sound.events _ _ stored).links
    rw [concerns.named reached.keyed links name, name]

/-- Tool records were there, or come from an operation among the effects. -/
structure Provenance (effects : List Effect) (before after : InMemoryInner) : Prop where
  invocations : ∀ (id : ToolInvocationId) (invocation : ToolInvocation),
    after.toolInvocations[id]? = some invocation →
      before.toolInvocations[id]? = some invocation ∨
        .committed (.createToolInvocation invocation) ∈ effects
  results : ∀ (id : ToolResultId) (result : ToolResult), after.toolResults[id]? = some result →
    before.toolResults[id]? = some result ∨ ∃ request,
      .committed (.recordToolResultAuditTerminal request) ∈ effects ∧ request.toolResult = result
  audits : ∀ (id : AuditRecordId) (record : AuditRecord), after.auditRecords[id]? = some record →
    before.auditRecords[id]? = some record ∨ ∃ request,
      .committed (.recordToolResultAuditTerminal request) ∈ effects ∧ request.auditRecord = record

theorem Replays.provenance :
    Provenance effects before after := by
  obtain ⟨log, logged⟩ := reachable.logged
  obtain ⟨_, _, holds⟩ := replays.invariant (fun inner _ => Provenance effects before inner)
    (fun inner next log operation response member answered held => by
      have records := (disciplined operation member).toolRecords answered
      refine ⟨fun id invocation found => ?_, fun id result found => ?_, fun id record found => ?_⟩
      · rcases records.invocations id invocation found with earlier | rfl
        · exact held.invocations id invocation earlier
        · exact .inr member
      · rcases records.results id result found with earlier | ⟨request, rfl, same⟩
        · exact held.results id result earlier
        · exact .inr ⟨request, member, same⟩
      · rcases records.audits id record found with earlier | ⟨request, rfl, same⟩
        · exact held.audits id record earlier
        · exact .inr ⟨request, member, same⟩)
    reachable logged ⟨fun _ _ => .inl, fun _ _ => .inl, fun _ _ => .inl⟩
  exact holds

end Replayed

/-- A tool invocation among the effects is stored. -/
theorem Replays.invocation (replays : Replays before effects after) (reachable : Reachable before)
    {invocation : ToolInvocation} (member : .committed (.createToolInvocation invocation) ∈ effects) :
    after.toolInvocations[invocation.id]? = some invocation := by
  obtain ⟨early, late, response, inner, next, rfl, first, answered, rest⟩ := replays.performed member
  obtain ⟨_, _, rfl⟩ := createToolInvocation_eq_ok.mp answered
  have reached : Reachable (inner.withToolInvocation invocation) :=
    (reachable.trans first.run).tail (StoreOperation.step_of_mutation answered)
  exact (Run.extends reached rest.run).toolInvocations.lookup (Table.lookup_insert_same _ _ _)

/-- The terminal request is about a tool invocation, of another job, that is among
the effects. -/
def Foreign (job : JobId) (effects : List Effect) (request : ToolResultAuditTerminalRequest) :
    Prop :=
  ∃ invocation, .committed (.createToolInvocation invocation) ∈ effects ∧
    invocation.jobId ≠ job ∧ request.toolResult.invocationId = invocation.id ∧
    request.auditRecord.toolInvocationId = some invocation.id

/-- A new job has no tool records as long as every terminal request is foreign to it. -/
theorem Replays.noToolRecords (replays : Replays before effects after)
    (disciplined : Disciplined effects) (reachable : Reachable before)
    (absent : before.jobs[job]? = none)
    (foreign : ∀ request, .committed (.recordToolResultAuditTerminal request) ∈ effects →
      Foreign job effects request) : NoToolRecords after job := by
  have provenance := replays.provenance disciplined reachable
  have grown := Run.extends reachable replays.run
  -- an invocation that was there at first belongs to a job that was there at first
  have early : ∀ {id : ToolInvocationId} {old found : ToolInvocation},
      before.toolInvocations[id]? = some old → after.toolInvocations[id]? = some found →
        found.jobId ≠ job := by
    intro id old found stored kept same
    obtain rfl := Option.some.inj ((grown.toolInvocations.lookup stored).symm.trans kept)
    have known := reachable.sound.invocation_job stored
    rw [same, (Table.contains_eq_false_iff _ _).mpr absent] at known
    cases known
  refine ⟨?_, ?_⟩
  · intro id result invocation found stored
    rcases provenance.results id result found with old | ⟨request, member, rfl⟩
    · obtain ⟨earlier, known⟩ := reachable.sound.result_invocation old
      exact early known stored
    · obtain ⟨recorded, created, elsewhere, named, _⟩ := foreign request member
      rw [named, replays.invocation reachable created] at stored
      exact Option.some.inj stored ▸ elsewhere
  · intro id record invocationId invocation found name stored
    rcases provenance.audits id record found with old | ⟨request, member, rfl⟩
    · obtain ⟨earlier, known⟩ := reachable.sound.audit_invocation old name
      exact early known stored
    · obtain ⟨recorded, created, elsewhere, _, named⟩ := foreign request member
      obtain rfl := Option.some.inj (name.symm.trans named)
      rw [replays.invocation reachable created] at stored
      exact Option.some.inj stored ▸ elsewhere

end Atelia.Runtime
