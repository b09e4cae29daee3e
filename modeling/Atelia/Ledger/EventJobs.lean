import Atelia.Ledger.EventRepository
import Atelia.Ledger.JobEnds
import Atelia.Ledger.ReceiptRuns

/-! The job of an event. -/

namespace Atelia.Store

open Outcome

variable {inner before after : InMemoryInner} {event : JobEvent} {job : JobId}

section Determined

/-- A job that the subject of an event determines. -/
inductive SubjectJob (inner : InMemoryInner) (event : JobEvent) : JobId → Prop where
  | job {id : JobId} (kind : event.subject.subjectType = .job)
      (named : id.text = event.subject.subjectId) : SubjectJob inner event id
  | toolInvocation {id : ToolInvocationId} {job : JobId}
      (kind : event.subject.subjectType = .toolInvocation)
      (named : id.text = event.subject.subjectId) (owner : InvocationJob inner id job) :
      SubjectJob inner event job
  | toolResult {id : ToolResultId} {job : JobId} (kind : event.subject.subjectType = .toolResult)
      (named : id.text = event.subject.subjectId) (owner : ResultJob inner id job) :
      SubjectJob inner event job
  | auditRecord {id : AuditRecordId} {job : JobId}
      (kind : event.subject.subjectType = .auditRecord)
      (named : id.text = event.subject.subjectId) (owner : AuditJob inner id job) :
      SubjectJob inner event job

/-- All jobs that an event determines are one. -/
def SingleJob (inner : InMemoryInner) (event : JobEvent) : Prop :=
  ∀ first second, SubjectJob inner event first ∨ RefJob inner event first →
    SubjectJob inner event second ∨ RefJob inner event second → first = second

/-- The subject is a tool record that no reference of the event names. -/
def subjectUnreferenced (event : JobEvent) : Bool :=
  match event.subject.subjectType with
  | .toolInvocation => event.refs.toolInvocationId.isNone
  | .toolResult => event.refs.toolResultId.isNone
  | .auditRecord => event.refs.auditRecordId.isNone
  | _ => false

/-- A subject that no reference names belongs to the job of the references. -/
def SubjectAgrees (inner : InMemoryInner) (event : JobEvent) : Prop :=
  subjectUnreferenced event = true → ∀ first second, SubjectJob inner event first →
    RefJob inner event second → first = second

/-- The subject of an event determines at most one job. -/
theorem SubjectJob.unique {first second : JobId} (one : SubjectJob inner event first)
    (two : SubjectJob inner event second) : first = second := by
  have sameId {kind : IdKind} {id other : Identifier kind} (named : id.text = event.subject.subjectId)
      (named' : other.text = event.subject.subjectId) : id = other :=
    Identifier.text_injective (named.trans named'.symm)
  cases one with
  | job kind named =>
    cases two with
    | job _ named' => exact sameId named named'
    | toolInvocation kind' | toolResult kind' | auditRecord kind' => cases kind.symm.trans kind'
  | toolInvocation kind named owner =>
    cases two with
    | toolInvocation _ named' owner' => exact owner.unique (sameId named named' ▸ owner')
    | job kind' | toolResult kind' | auditRecord kind' => cases kind.symm.trans kind'
  | toolResult kind named owner =>
    cases two with
    | toolResult _ named' owner' => exact owner.unique (sameId named named' ▸ owner')
    | job kind' | toolInvocation kind' | auditRecord kind' => cases kind.symm.trans kind'
  | auditRecord kind named owner =>
    cases two with
    | auditRecord _ named' owner' => exact owner.unique (sameId named named' ▸ owner')
    | job kind' | toolInvocation kind' | toolResult kind' => cases kind.symm.trans kind'

end Determined

section Identity

/-- A reference of the kind of the subject names the subject. -/
theorem subject_named (links : validateEventLinks inner event {} = .ok ()) :
    (∀ id, event.refs.toolInvocationId = some id → event.subject.subjectType = .toolInvocation →
      event.subject.subjectId = id.text) ∧
    (∀ id, event.refs.toolResultId = some id → event.subject.subjectType = .toolResult →
      event.subject.subjectId = id.text) ∧
    ∀ id, event.refs.auditRecordId = some id → event.subject.subjectType = .auditRecord →
      event.subject.subjectId = id.text := by
  simp only [validateEventLinks, validateEventRefs, bind_eq_ok, exists_unit, pure_eq_ok,
    and_true] at links
  obtain ⟨_, _, _, _, _, _, _, _, _, _, invocation, _, result, _, audit⟩ := links
  refine ⟨?_, ?_, ?_⟩
  · intro id named kind
    simp only [checkToolInvocationRef, named, bind_eq_ok, exists_unit, ensureSubjectRefMatches,
      ensure_eq_ok, kind, ne_eq, not_true_eq_false, false_or] at invocation
    exact invocation.1
  · intro id named kind
    simp only [checkToolResultRef, named, bind_eq_ok, exists_unit, ensureSubjectRefMatches,
      ensure_eq_ok, kind, ne_eq, not_true_eq_false, false_or] at result
    exact result.1
  · intro id named kind
    simp only [checkAuditRecordRef, named, bind_eq_ok, exists_unit, ensureSubjectRefMatches,
      ensure_eq_ok, kind, ne_eq, not_true_eq_false, false_or] at audit
    exact audit.1

/-- The job of a subject that a reference names too is the job of that reference. -/
theorem SubjectJob.refJob (links : validateEventLinks inner event {} = .ok ())
    (referenced : subjectUnreferenced event = false) (tool : event.subject.subjectType ≠ .job)
    (determined : SubjectJob inner event job) : RefJob inner event job := by
  obtain ⟨invocation, result, audit⟩ := subject_named links
  cases determined with
  | job kind => exact absurd kind tool
  | toolInvocation kind named owner =>
    simp only [subjectUnreferenced, kind, Option.isNone_eq_false_iff] at referenced
    obtain ⟨id, reference⟩ := Option.isSome_iff_exists.mp referenced
    have same := Identifier.text_injective (named.trans (invocation id reference kind))
    exact .toolInvocation reference (same ▸ owner)
  | toolResult kind named owner =>
    simp only [subjectUnreferenced, kind, Option.isNone_eq_false_iff] at referenced
    obtain ⟨id, reference⟩ := Option.isSome_iff_exists.mp referenced
    have same := Identifier.text_injective (named.trans (result id reference kind))
    exact .toolResult reference (same ▸ owner)
  | auditRecord kind named owner =>
    simp only [subjectUnreferenced, kind, Option.isNone_eq_false_iff] at referenced
    obtain ⟨id, reference⟩ := Option.isSome_iff_exists.mp referenced
    have same := Identifier.text_injective (named.trans (audit id reference kind))
    exact .auditRecord reference (same ▸ owner)

/-- What the checks of an event leave open. -/
theorem singleJob_iff (keyed : Keyed inner) (links : validateEventLinks inner event {} = .ok ()) :
    SingleJob inner event ↔ SubjectAgrees inner event := by
  constructor
  · intro single _ first second subject ref
    exact single first second (.inl subject) (.inr ref)
  · intro agrees
    have across (first second : JobId) (subject : SubjectJob inner event first)
        (ref : RefJob inner event second) : first = second := by
      cases referenced : subjectUnreferenced event with
      | true => exact agrees referenced first second subject ref
      | false =>
        by_cases kind : event.subject.subjectType = .job
        · -- a job that is the subject has been compared with the references
          obtain ⟨owner, agree, itself⟩ := refs_agree keyed links
          have named : first.text = event.subject.subjectId := by
            cases subject with
            | job _ named => exact named
            | toolInvocation kind' | toolResult kind' | auditRecord kind' =>
              cases kind.symm.trans kind'
          apply Identifier.text_injective
          rw [named]
          exact Option.some.inj ((itself kind).symm.trans (agree second ref))
        · exact RefJob.unique keyed links (subject.refJob links referenced kind) ref
    intro first second one two
    rcases one with subject | ref <;> rcases two with subject' | ref'
    · exact subject.unique subject'
    · exact across first second subject ref'
    · exact (across second first subject' ref).symm
    · exact RefJob.unique keyed links ref ref'

end Identity

section Persistence

section Growth

variable (grown : Extends before after)
include grown

theorem InvocationJob.persists {id : ToolInvocationId} (owner : InvocationJob before id job) :
    InvocationJob after id job := by
  obtain ⟨invocation, found, same⟩ := owner
  exact ⟨invocation, grown.toolInvocations.lookup found, same⟩

theorem ResultJob.persists {id : ToolResultId} (owner : ResultJob before id job) :
    ResultJob after id job := by
  obtain ⟨result, found, owner⟩ := owner
  exact ⟨result, grown.toolResults.lookup found, owner.persists grown⟩

theorem AuditJob.persists {id : AuditRecordId} (owner : AuditJob before id job) :
    AuditJob after id job := by
  obtain ⟨record, invocationId, found, about, owner⟩ := owner
  exact ⟨record, invocationId, grown.auditRecords.lookup found, about, owner.persists grown⟩

theorem InvocationJob.earlier {id : ToolInvocationId} {invocation : ToolInvocation}
    (stored : before.toolInvocations[id]? = some invocation) (owner : InvocationJob after id job) :
    InvocationJob before id job := by
  obtain ⟨_, found, same⟩ := owner
  cases found.symm.trans (grown.toolInvocations.lookup stored)
  exact ⟨invocation, stored, same⟩

theorem ResultJob.earlier {id : ToolResultId} {result : ToolResult} {invocation : ToolInvocation}
    (stored : before.toolResults[id]? = some result)
    (storedOwner : before.toolInvocations[result.invocationId]? = some invocation)
    (owner : ResultJob after id job) : ResultJob before id job := by
  obtain ⟨_, found, owner⟩ := owner
  cases found.symm.trans (grown.toolResults.lookup stored)
  exact ⟨result, stored, owner.earlier grown storedOwner⟩

/-- The invocation that an audit record is about was stored before the record. -/
theorem AuditJob.earlier (tools : ToolsSound before) {id : AuditRecordId} {record : AuditRecord}
    (stored : before.auditRecords[id]? = some record) (owner : AuditJob after id job) :
    AuditJob before id job := by
  obtain ⟨_, invocationId, found, about, owner⟩ := owner
  cases found.symm.trans (grown.auditRecords.lookup stored)
  have checked := tools.audits id record stored
  simp only [validateAuditRecordRefs, validateAuditRecordRefsWithPendingToolResult, bind_eq_ok,
    exists_unit, whenSome_eq_ok, okOr_eq_ok] at checked
  obtain ⟨_, _, _, _, named⟩ := checked
  obtain ⟨invocation, storedOwner, _⟩ := named invocationId about
  exact ⟨record, invocationId, stored, about, owner.earlier grown storedOwner⟩

theorem SubjectJob.persists (determined : SubjectJob before event job) :
    SubjectJob after event job := by
  cases determined with
  | job kind named => exact .job kind named
  | toolInvocation kind named owner => exact .toolInvocation kind named (owner.persists grown)
  | toolResult kind named owner => exact .toolResult kind named (owner.persists grown)
  | auditRecord kind named owner => exact .auditRecord kind named (owner.persists grown)

theorem RefJob.persists (determined : RefJob before event job) :
    RefJob after event job := by
  cases determined with
  | job named => exact .job named
  | toolInvocation named owner => exact .toolInvocation named (owner.persists grown)
  | toolResult named owner => exact .toolResult named (owner.persists grown)
  | auditRecord named owner => exact .auditRecord named (owner.persists grown)

/-- What an event names was stored when the event was. -/
theorem SubjectJob.earlier (keyed : Keyed before) (tools : ToolsSound before)
    (links : validateEventLinks before event {} = .ok ()) (determined : SubjectJob after event job) :
    SubjectJob before event job := by
  obtain ⟨_, subject, _⟩ := RefsBelong.of_links links
  have belongs := SubjectBelongs.of_found keyed subject
  cases determined with
  | job kind named => exact .job kind named
  | toolInvocation kind named owner =>
    simp only [SubjectBelongs, kind] at belongs
    obtain ⟨id, invocation, named', stored, _⟩ := belongs
    obtain rfl := Identifier.text_injective (named.trans named'.symm)
    exact .toolInvocation kind named (owner.earlier grown stored)
  | toolResult kind named owner =>
    simp only [SubjectBelongs, kind] at belongs
    obtain ⟨id, result, invocation, named', stored, storedOwner, _⟩ := belongs
    obtain rfl := Identifier.text_injective (named.trans named'.symm)
    exact .toolResult kind named (owner.earlier grown stored storedOwner)
  | auditRecord kind named owner =>
    simp only [SubjectBelongs, kind] at belongs
    obtain ⟨id, record, named', stored, _⟩ := belongs
    obtain rfl := Identifier.text_injective (named.trans named'.symm)
    exact .auditRecord kind named (owner.earlier grown tools stored)

theorem RefJob.earlier (tools : ToolsSound before)
    (links : validateEventLinks before event {} = .ok ()) (determined : RefJob after event job) :
    RefJob before event job := by
  have refs := ToolRefsStored.of_links links
  cases determined with
  | job named => exact .job named
  | toolInvocation named owner =>
    obtain ⟨invocation, stored⟩ := refs.invocation _ named
    exact .toolInvocation named (owner.earlier grown stored)
  | toolResult named owner =>
    obtain ⟨result, invocation, stored, storedOwner⟩ := refs.result _ named
    exact .toolResult named (owner.earlier grown stored storedOwner)
  | auditRecord named owner =>
    obtain ⟨record, stored⟩ := refs.audit _ named
    exact .auditRecord named (owner.earlier grown tools stored)

/-- A stored event determines the same jobs from then on. -/
theorem singleJob_persists (keyed : Keyed before) (tools : ToolsSound before)
    (links : validateEventLinks before event {} = .ok ()) :
    SingleJob after event ↔ SingleJob before event := by
  have subject (job : JobId) : SubjectJob after event job ↔ SubjectJob before event job :=
    ⟨.earlier grown keyed tools links, .persists grown⟩
  have ref (job : JobId) : RefJob after event job ↔ RefJob before event job :=
    ⟨.earlier grown tools links, .persists grown⟩
  simp only [SingleJob, subject, ref]

end Growth

end Persistence

variable {operation : StoreOperation} {events : List JobEvent}

section Given

/-- Two ledgers hold the same tool records. -/
structure SameTools (first second : InMemoryInner) : Prop where
  invocations : first.toolInvocations = second.toolInvocations
  results : first.toolResults = second.toolResults
  audits : first.auditRecords = second.auditRecords

theorem SameTools.symm {first second : InMemoryInner} (same : SameTools first second) :
    SameTools second first :=
  ⟨same.invocations.symm, same.results.symm, same.audits.symm⟩

/-- An event as it was given, but for its number. -/
structure AsGiven (given stored : JobEvent) : Prop where
  subject : stored.subject = given.subject
  refs : stored.refs = given.refs

theorem Published.asGiven {given stored : JobEvent} (same : Published inner given stored) :
    AsGiven given stored := by
  obtain ⟨⟨_, rfl⟩, _⟩ := same
  exact ⟨rfl, rfl⟩

variable {first second : InMemoryInner}

section SameTools

variable (same : SameTools first second)
include same

private theorem InvocationJob.carry {id : ToolInvocationId} (owner : InvocationJob first id job) :
    InvocationJob second id job := by
  rw [InvocationJob, ← same.invocations]
  exact owner

private theorem ResultJob.carry {id : ToolResultId} (owner : ResultJob first id job) :
    ResultJob second id job := by
  obtain ⟨result, found, owner⟩ := owner
  exact ⟨result, same.results ▸ found, owner.carry same⟩

private theorem AuditJob.carry {id : AuditRecordId} (owner : AuditJob first id job) :
    AuditJob second id job := by
  obtain ⟨record, invocationId, found, about, owner⟩ := owner
  exact ⟨record, invocationId, same.audits ▸ found, about, owner.carry same⟩

private theorem SubjectJob.carry {other : JobEvent} (subject : other.subject = event.subject)
    (determined : SubjectJob first event job) :
    SubjectJob second other job := by
  cases determined with
  | job kind named => exact .job (subject ▸ kind) (subject ▸ named)
  | toolInvocation kind named owner =>
    exact .toolInvocation (subject ▸ kind) (subject ▸ named) (owner.carry same)
  | toolResult kind named owner =>
    exact .toolResult (subject ▸ kind) (subject ▸ named) (owner.carry same)
  | auditRecord kind named owner =>
    exact .auditRecord (subject ▸ kind) (subject ▸ named) (owner.carry same)

private theorem RefJob.carry {other : JobEvent} (refs : other.refs = event.refs)
    (determined : RefJob first event job) :
    RefJob second other job := by
  cases determined with
  | job named => exact .job (refs ▸ named)
  | toolInvocation named owner => exact .toolInvocation (refs ▸ named) (owner.carry same)
  | toolResult named owner => exact .toolResult (refs ▸ named) (owner.carry same)
  | auditRecord named owner => exact .auditRecord (refs ▸ named) (owner.carry same)

/-- Whether a subject agrees depends on the tool records, the subject and the
references only. -/
theorem subjectAgrees_asGiven {given stored : JobEvent} (as : AsGiven given stored) :
    SubjectAgrees second stored ↔ SubjectAgrees first given := by
  have unreferenced : subjectUnreferenced stored = subjectUnreferenced given := by
    rw [subjectUnreferenced, subjectUnreferenced, as.subject, as.refs]
  have subject (job : JobId) : SubjectJob second stored job ↔ SubjectJob first given job :=
    ⟨.carry same.symm as.subject.symm, .carry same as.subject⟩
  have refs (job : JobId) : RefJob second stored job ↔ RefJob first given job :=
    ⟨.carry same.symm as.refs.symm, .carry same as.refs⟩
  simp only [SubjectAgrees, unreferenced, subject, refs]

theorem subjectsAgree_asGiven {given stored : List JobEvent}
    (as : List.Forall₂ AsGiven given stored) :
    (∀ event ∈ stored, SubjectAgrees second event) ↔ ∀ event ∈ given, SubjectAgrees first event := by
  induction as with
  | nil => simp
  | cons as _ ih =>
    rw [List.forall_mem_cons, List.forall_mem_cons, subjectAgrees_asGiven same as, ih]

end SameTools

/-- The ledger with the tool records that an operation brings with its events. -/
def StoreOperation.withRecords (inner : InMemoryInner) : StoreOperation → InMemoryInner
  | .recordToolResultAndAuditWithEvents _ toolResult _ auditRecord _ =>
    (inner.withToolResult toolResult).withAuditRecord auditRecord
  | .recordToolResultAuditTerminal request =>
    (inner.withToolResult request.toolResult).withAuditRecord request.auditRecord
  | _ => inner

/-- The subjects of the events of an operation belong to the jobs of their
references. -/
def StoreOperation.SubjectsAgree (inner : InMemoryInner) (operation : StoreOperation) : Prop :=
  ∀ event ∈ operation.submittedEvents, SubjectAgrees (operation.withRecords inner) event

/-- An operation that is given events stores no tool records but those it brings with
them. -/
theorem StoreOperation.exec_tools (succeeded : operation.exec before = .ok (after, events))
    (given : operation.submittedEvents ≠ []) : SameTools (operation.withRecords before) after := by
  obtain ⟨_, ran, rfl⟩ := StoreOperation.exec_eq_ok.mp succeeded
  cases operation
  case createJob =>
    obtain ⟨_, _, _, rfl, _⟩ := createJobWithInitialEvent_eq_ok.mp ran
    exact ⟨rfl, rfl, rfl⟩
  case appendJobEvent =>
    obtain ⟨_, _, _, rfl, _⟩ := appendJobEvent_eq_ok.mp ran
    exact ⟨rfl, rfl, rfl⟩
  case appendJobEventAndUpdateJob =>
    obtain ⟨_, _, _, rfl, _⟩ := appendJobEventAndUpdateJob_eq_ok.mp ran
    exact ⟨rfl, rfl, rfl⟩
  case appendJobEventAndUpdateJobWithSubmitJobIdempotency =>
    obtain ⟨_, _, _, receipt, _⟩ :=
      appendJobEventAndUpdateJobWithSubmitJobIdempotency_eq_ok.mp ran
    obtain ⟨_, ⟨_, rfl⟩ | ⟨_, rfl⟩⟩ := insertSubmitJobIdempotencyLocked_eq_ok.mp receipt
    · exact ⟨rfl, rfl, rfl⟩
    · exact ⟨rfl, rfl, rfl⟩
  case appendJobEventsAndUpdateJob =>
    obtain ⟨_, _, _, rfl, _⟩ := appendJobEventsAndUpdateJob_eq_ok.mp ran
    exact ⟨rfl, rfl, rfl⟩
  case recordToolResultAndAuditWithEvents =>
    obtain ⟨_, _, _, _, rfl, _⟩ := recordToolResultAndAuditWithEvents_eq_ok.mp ran
    exact ⟨rfl, rfl, rfl⟩
  case recordToolResultAuditTerminal =>
    obtain ⟨_, _, _, receipt, _⟩ := recordToolResultAuditTerminal_eq_ok.mp ran
    obtain ⟨invocations, results, audits⟩ := insertTerminalReceipt_tools receipt
    exact ⟨invocations.symm, results.symm, audits.symm⟩
  all_goals exact absurd rfl given

end Given

section Runs

/-- Every stored event determines one job. -/
def SingleJobs (inner : InMemoryInner) : Prop :=
  ∀ (id : JobEventId) (event : JobEvent), inner.jobEventsById[id]? = some event →
    SingleJob inner event

theorem Consistent.singleJobs_iff {log : List JobEvent} (consistent : Consistent inner log) :
    SingleJobs inner ↔ ∀ event ∈ log, SingleJob inner event := by
  constructor
  · intro single event member
    exact single event.id event ((consistent.logged.stored event).mp member)
  · intro single id event found
    apply single
    rw [consistent.logged.stored, consistent.keyed.jobEvents id event found]
    exact found

/-- The new events of an operation determine one job each exactly when their subjects
agree with their references. -/
theorem StoreOperation.exec_singleJob_iff (succeeded : operation.exec before = .ok (after, events))
    (agree : ∀ event ∈ events, SingleJob after event ↔ SubjectAgrees after event) :
    (∀ event ∈ events, SingleJob after event) ↔ operation.SubjectsAgree before := by
  have published := StoreOperation.exec_published succeeded
  by_cases nothing : operation.submittedEvents = []
  · rw [nothing, List.forall₂_nil_left_iff] at published
    simp [published, StoreOperation.SubjectsAgree, nothing]
  · rw [forall₂_congr agree]
    exact subjectsAgree_asGiven (StoreOperation.exec_tools succeeded nothing)
      (published.imp fun _ _ => Published.asGiven)

/-- One operation: what it adds. -/
theorem StoreOperation.exec_singleJobs (reachable : Reachable before)
    (succeeded : operation.exec before = .ok (after, events)) :
    SingleJobs after ↔ SingleJobs before ∧ operation.SubjectsAgree before := by
  obtain ⟨log, consistent⟩ := reachable.consistent
  have commits := StoreOperation.exec_commits reachable.keyed operation.admitted_any succeeded
  have resulting := commits.consistent consistent
  have linked {event : JobEvent} (member : event ∈ log ++ events) :
      validateEventLinks after event {} = .ok () :=
    (resulting.sound.events _ _ ((resulting.logged.stored event).mp member)).links
  have kept : (∀ event ∈ log, SingleJob after event) ↔ ∀ event ∈ log, SingleJob before event := by
    refine forall₂_congr fun event member => ?_
    exact singleJob_persists (commits.extends consistent.keyed) consistent.keyed
      consistent.sound.tools
      (consistent.sound.events _ _ ((consistent.logged.stored event).mp member)).links
  have added := StoreOperation.exec_singleJob_iff succeeded fun event member =>
    singleJob_iff resulting.keyed (linked (List.mem_append_right log member))
  rw [resulting.singleJobs_iff, consistent.singleJobs_iff, List.forall_mem_append, kept, added]

/-- Each operation of a run meets the condition in the state it runs in. -/
abbrev SubjectsAgree : InMemoryInner → List StoreOperation → Prop :=
  AlongRun fun inner operation => operation.SubjectsAgree inner

/-- After a run every stored event determines one job exactly when, at each operation
of the run, the subjects of the events it was given agreed with their references. -/
theorem single_job_of_events_iff {operations : List StoreOperation}
    (ran : runOperations .empty operations = .ok inner) :
    SingleJobs inner ↔ SubjectsAgree .empty operations := by
  have start : SingleJobs .empty := by
    intro id event found
    simp [InMemoryInner.empty] at found
  rw [runOperations_iff (fun _ _ {_ _ _} => StoreOperation.exec_singleJobs) .refl ran]
  exact and_iff_right start

/-- Events whose tool subjects are also named by a reference agree in every state. -/
theorem SubjectsAgree.of_referenced {operations : List StoreOperation} (referenced : ∀ operation ∈
      operations, ∀ event ∈ operation.submittedEvents, subjectUnreferenced event = false) :
    SubjectsAgree inner operations := by
  induction operations generalizing inner with
  | nil => trivial
  | cons operation rest ih =>
    refine ⟨?_, fun next _ _ => ih fun other member => referenced other (.tail _ member)⟩
    intro event member unreferenced
    rw [referenced operation (.head _) event member] at unreferenced
    cases unreferenced

end Runs

section Mixed

/-! A tool invocation of one job is the subject of an event that refers to another job of
the repository. -/

def secondJob : JobRecord :=
  .new (.ofNat 1) (.user "user" none) exampleRepository.id .read none ⟨0⟩

def exampleInvocation : ToolInvocation where
  id := .new _ (.ofNat 0)
  schemaVersion := runtimeSchemaVersion
  createdAt := ⟨0⟩
  jobId := exampleJob.id
  repositoryId := exampleRepository.id
  policyDecisionId := exampleDecision.id
  actor := exampleJob.requester
  toolId := "fs.read"
  requestedCapability := "filesystem.read"
  argsSummary := "."
  resolvedPaths := []
  timeoutMillis := none
  redactions := []

def invocationEvent (refs : EventRefs) : JobEvent :=
  jobEvent (.ofNat 2) ⟨0⟩ (.toolInvocation exampleInvocation.id) .message .info "invoked" refs

/-- Two submitted jobs, an invocation of the first and an event about it. -/
def invocationRun (refs : EventRefs) : List StoreOperation :=
  exampleSubmission ++
    [.createJob secondJob
        (jobEvent (.ofNat 1) ⟨0⟩ (.job secondJob.id) .jobSubmitted .info "submitted"
          (refsForJob secondJob)),
      .createPolicyDecision exampleDecision, .createToolInvocation exampleInvocation,
      .appendJobEvent (invocationEvent refs)]

private def holdsInvocation (refs : EventRefs) (inner : InMemoryInner) : Bool :=
  inner.toolInvocations[exampleInvocation.id]? = some exampleInvocation &&
    inner.jobEventsById[(invocationEvent refs).id]? =
      some { invocationEvent refs with sequenceNumber := 3 }

def namedRefs : EventRefs :=
  { jobId := some exampleJob.id, toolInvocationId := some exampleInvocation.id }

private theorem holdsInvocation_reached :
    (reaches (invocationRun (refsForJob secondJob)) (holdsInvocation (refsForJob secondJob)) &&
      reaches (invocationRun namedRefs) (holdsInvocation namedRefs)) = true := by
  decide +kernel

/-- The event is stored although it determines two jobs. -/
theorem mixed_event_two_jobs :
    ∃ inner, runOperations .empty (invocationRun (refsForJob secondJob)) = .ok inner ∧
      ¬SingleJobs inner := by
  obtain ⟨inner, ran, holds⟩ := ran_of_reaches (Bool.and_eq_true _ _ ▸ holdsInvocation_reached).1
  simp only [holdsInvocation, Bool.and_eq_true, decide_eq_true_eq] at holds
  refine ⟨inner, ran, ?_⟩
  intro single
  have one := single _ _ holds.2 exampleJob.id secondJob.id
    (.inl (.toolInvocation rfl rfl ⟨_, holds.1, rfl⟩)) (.inr (.job rfl))
  revert one
  decide

theorem named_event_single_job :
    ∃ inner, runOperations .empty (invocationRun namedRefs) = .ok inner ∧ SingleJobs inner := by
  obtain ⟨inner, ran, _⟩ := ran_of_reaches (Bool.and_eq_true _ _ ▸ holdsInvocation_reached).2
  exact ⟨inner, ran, (single_job_of_events_iff ran).mpr (.of_referenced (by decide))⟩

end Mixed

end Atelia.Store
