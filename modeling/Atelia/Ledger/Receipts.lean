import Atelia.Ledger.Belonging
import Atelia.Ledger.Versions

/-! Stored submit-job receipts across later operations. -/

namespace Atelia.Store

open Outcome

variable {inner before after : InMemoryInner} {events : List JobEvent} {event : JobEvent}
  {admits : JobRecord → Prop}
  {jobId : JobId}

section Chain

variable {latest : JobEventId} {found final : Bool} {collected : List JobEvent}

/-- One step of the walk over the events of a job. -/
theorem collectReceiptEvents_cons {id : JobEventId} {rest : List JobEventId} :
    collectReceiptEvents inner jobId latest (id :: rest) found = .ok (collected, final) ↔
      ∃ event, inner.jobEventsById[id]? = some event ∧
        ((submitJobReceiptEventBelongsToJob inner jobId event = .ok true ∧ found = false ∧
          ∃ later, collectReceiptEvents inner jobId latest rest (event.id = latest) =
            .ok (later, final) ∧ collected = event :: later) ∨
        (submitJobReceiptEventBelongsToJob inner jobId event = .ok false ∧
          collectReceiptEvents inner jobId latest rest found = .ok (collected, final))) := by
  simp only [collectReceiptEvents, bind_eq_ok, okOr_eq_ok]
  refine exists_congr fun event => and_congr_right fun _ => ?_
  constructor
  · rintro ⟨belongs, decided, walked⟩
    cases belongs with
    | true =>
      simp only [if_true, bind_eq_ok, exists_unit, reject_eq_ok, Bool.not_eq_true, Prod.exists,
        pure_eq_ok, Prod.mk.injEq] at walked
      obtain ⟨unfound, later, _, walked, rfl, rfl⟩ := walked
      exact .inl ⟨decided, unfound, later, walked, rfl⟩
    | false =>
      simp only [Bool.false_eq_true, if_false] at walked
      exact .inr ⟨decided, walked⟩
  · rintro (⟨decided, unfound, later, walked, rfl⟩ | ⟨decided, walked⟩)
    · refine ⟨true, decided, ?_⟩
      simp only [if_true, bind_eq_ok, exists_unit, reject_eq_ok, Bool.not_eq_true, Prod.exists,
        pure_eq_ok, Prod.mk.injEq]
      exact ⟨unfound, later, final, walked, rfl, rfl⟩
    · refine ⟨false, decided, ?_⟩
      simp only [Bool.false_eq_true, if_false]
      exact walked

/-- The walk goes on where it stopped. -/
theorem collectReceiptEvents_append {first rest : List JobEventId} :
    collectReceiptEvents inner jobId latest (first ++ rest) found = .ok (collected, final) ↔
      ∃ early middle later,
        collectReceiptEvents inner jobId latest first found = .ok (early, middle) ∧
        collectReceiptEvents inner jobId latest rest middle = .ok (later, final) ∧
        collected = early ++ later := by
  induction first generalizing found collected with
  | nil =>
    simp only [List.nil_append, collectReceiptEvents, Except.ok.injEq, Prod.mk.injEq]
    constructor
    · intro walked
      exact ⟨[], found, collected, ⟨rfl, rfl⟩, walked, rfl⟩
    · rintro ⟨_, _, later, ⟨rfl, rfl⟩, walked, rfl⟩
      exact walked
  | cons id first ih =>
    simp only [List.cons_append, collectReceiptEvents_cons, ih]
    constructor
    · rintro ⟨event, stored, ⟨decided, unfound, _, ⟨early, middle, later, before, after, rfl⟩, rfl⟩ |
        ⟨decided, early, middle, later, before, after, rfl⟩⟩
      · exact ⟨event :: early, middle, later,
          ⟨event, stored, .inl ⟨decided, unfound, early, before, rfl⟩⟩, after, rfl⟩
      · exact ⟨early, middle, later, ⟨event, stored, .inr ⟨decided, before⟩⟩, after, rfl⟩
    · rintro ⟨_, middle, later, ⟨event, stored, ⟨decided, unfound, early, before, rfl⟩ |
        ⟨decided, before⟩⟩, after, rfl⟩
      · exact ⟨event, stored, .inl ⟨decided, unfound, _, ⟨early, middle, later, before, after, rfl⟩,
          rfl⟩⟩
      · exact ⟨event, stored, .inr ⟨decided, _, middle, later, before, after, rfl⟩⟩

theorem collectReceiptEvents_persists (grown : Extends before after) {ids : List JobEventId}
    (walked : collectReceiptEvents before jobId latest ids found = .ok (collected, final)) :
    collectReceiptEvents after jobId latest ids found = .ok (collected, final) := by
  induction ids generalizing found collected with
  | nil => exact walked
  | cons id rest ih =>
    rw [collectReceiptEvents_cons] at walked ⊢
    obtain ⟨event, stored, ⟨decided, unfound, later, walked, rfl⟩ | ⟨decided, walked⟩⟩ := walked
    · exact ⟨event, grown.jobEvents.lookup stored,
        .inl ⟨belongs_persists grown decided, unfound, later, ih walked, rfl⟩⟩
    · exact ⟨event, grown.jobEvents.lookup stored,
        .inr ⟨belongs_persists grown decided, ih walked⟩⟩

/-- After the latest event of the job, the walk passes over events of other jobs
and stops at one of the job. -/
theorem collectReceiptEvents_after_latest
    (stored : ∀ event ∈ events, inner.jobEventsById[event.id]? = some event) :
    collectReceiptEvents inner jobId latest (events.map (·.id)) true = .ok (collected, final) ↔
      (∀ event ∈ events, submitJobReceiptEventBelongsToJob inner jobId event = .ok false) ∧
        collected = [] ∧ final = true := by
  induction events with
  | nil => simp [collectReceiptEvents, eq_comm]
  | cons event rest ih =>
    have here := stored event List.mem_cons_self
    have tail := ih fun other member => stored other (List.mem_cons_of_mem _ member)
    rw [List.map_cons, collectReceiptEvents_cons, List.forall_mem_cons]
    constructor
    · rintro ⟨other, found, ⟨_, impossible, _⟩ | ⟨belongs, walked⟩⟩
      · exact absurd impossible (by decide)
      · rw [here, Option.some.injEq] at found
        obtain ⟨spared, ended⟩ := tail.mp walked
        exact ⟨⟨found ▸ belongs, spared⟩, ended⟩
    · rintro ⟨⟨belongs, spared⟩, ended⟩
      exact ⟨event, here, .inr ⟨belongs, tail.mpr ⟨spared, ended⟩⟩⟩

variable {receipt : RuntimeJobReceipt}

theorem expectedSubmitJobReceiptEvents_eq_ok :
    expectedSubmitJobReceiptEvents inner receipt = .ok collected ↔
      ∃ latest, receipt.job.latestEventId = some latest ∧
        collectReceiptEvents inner receipt.job.id latest inner.jobEventsBySequence.records false =
          .ok (collected, true) := by
  simp only [expectedSubmitJobReceiptEvents, bind_eq_ok, okOr_eq_ok, Prod.exists, exists_unit,
    ensure_eq_ok, pure_eq_ok]
  constructor
  · rintro ⟨latest, named, _, _, walked, rfl, rfl⟩
    exact ⟨latest, named, walked⟩
  · rintro ⟨latest, named, walked⟩
    exact ⟨latest, named, collected, true, walked, rfl, rfl⟩

/-- The expected chain of a receipt is the same later, unless an event of the job
has been appended. -/
theorem expectedSubmitJobReceiptEvents_later {log : List JobEvent}
    (logged : Logged before log) (loggedAfter : Logged after (log ++ events))
    (grown : Extends before after) {expected : List JobEvent}
    (earlier : expectedSubmitJobReceiptEvents before receipt = .ok expected)
    (collected : List JobEvent) :
    expectedSubmitJobReceiptEvents after receipt = .ok collected ↔
      (∀ event ∈ events,
        submitJobReceiptEventBelongsToJob after receipt.job.id event = .ok false) ∧
        collected = expected := by
  obtain ⟨latest, named, walked⟩ := expectedSubmitJobReceiptEvents_eq_ok.mp earlier
  rw [logged.sequence_records] at walked
  have kept := collectReceiptEvents_persists grown walked
  have stored : ∀ event ∈ events, after.jobEventsById[event.id]? = some event :=
    fun event member => (loggedAfter.stored event).mp (List.mem_append_right log member)
  rw [expectedSubmitJobReceiptEvents_eq_ok, loggedAfter.sequence_records, List.map_append]
  constructor
  · rintro ⟨latest', named', walkedAfter⟩
    rw [named, Option.some.injEq] at named'
    subst named'
    obtain ⟨early, middle, later, first, second, rfl⟩ :=
      collectReceiptEvents_append.mp walkedAfter
    rw [kept, Except.ok.injEq, Prod.mk.injEq] at first
    obtain ⟨rfl, rfl⟩ := first
    obtain ⟨spared, rfl, _⟩ := (collectReceiptEvents_after_latest stored).mp second
    exact ⟨spared, List.append_nil _⟩
  · rintro ⟨spared, rfl⟩
    refine ⟨latest, named, collectReceiptEvents_append.mpr ⟨collected, true, [], kept, ?_, ?_⟩⟩
    · exact (collectReceiptEvents_after_latest stored).mpr ⟨spared, rfl, rfl⟩
    · exact (List.append_nil _).symm

end Chain

section Record

variable {receipt : RuntimeJobReceipt}

private theorem validateReceiptRecord_persists {kind : IdKind} {Record : Type}
    [DecidableEq Record] {stored later : Table (Identifier kind) Record}
    (kept : stored.Retains Eq later) {id : Identifier kind} {record : Record}
    {collection context mismatch : String}
    (checked : validateReceiptRecord stored id record collection context mismatch = .ok ()) :
    validateReceiptRecord later id record collection context mismatch = .ok () := by
  simp only [validateReceiptRecord, bind_eq_ok, okOr_eq_ok, reject_eq_ok] at checked ⊢
  obtain ⟨found, present, same⟩ := checked
  exact ⟨found, kept.lookup present, same⟩

private theorem validateReceiptToolRecords_persists (grown : Extends before after)
    (checked : validateReceiptToolRecords before receipt = .ok ()) :
    validateReceiptToolRecords after receipt = .ok () := by
  unfold validateReceiptToolRecords at checked ⊢
  split at checked
  · rfl
  · simp only [bind_eq_ok, exists_unit] at checked ⊢
    obtain ⟨invocation, result, audit, links⟩ := checked
    exact ⟨validateReceiptRecord_persists grown.toolInvocations invocation,
      validateReceiptRecord_persists grown.toolResults result,
      validateReceiptRecord_persists grown.auditRecords audit, links⟩
  · simp at checked

private theorem validateLoadedSubmitJobReceiptLineage_persists (grown : Extends before after)
    (checked : validateLoadedSubmitJobReceiptLineage before receipt = .ok ()) :
    validateLoadedSubmitJobReceiptLineage after receipt = .ok () := by
  simp only [validateLoadedSubmitJobReceiptLineage, bind_eq_ok, exists_unit, checkAll_eq_ok]
    at checked ⊢
  obtain ⟨policy, invocation, result, audit, lineage⟩ := checked
  refine ⟨policy, invocation, result, audit, ?_⟩
  intro event member
  have belongs := lineage event member
  simp only [validateSubmitJobReceiptEventLineage, bind_eq_ok, ensure_eq_ok] at belongs ⊢
  obtain ⟨answer, decided, yes⟩ := belongs
  exact ⟨answer, belongs_persists grown decided, yes⟩

/-- A receipt that is valid stays valid exactly as long as no event of its job
is appended. -/
theorem validateLoadedSubmitJobReceipt_later {log : List JobEvent}
    (consistent : Consistent before log) (commits : Commits admits before events after)
    (valid : validateLoadedSubmitJobReceipt before receipt = .ok ()) :
    validateLoadedSubmitJobReceipt after receipt = .ok () ↔ ∀ event ∈ events,
      submitJobReceiptEventBelongsToJob after receipt.job.id event = .ok false := by
  have grown := commits.extends consistent.keyed
  have loggedAfter := commits.logged consistent.logged
  simp only [validateLoadedSubmitJobReceipt, validateLoadedSubmitJobReceiptEventChain, bind_eq_ok,
    exists_unit, okOr_eq_ok] at valid ⊢
  obtain ⟨job, found, sameJob, policy, lineage, tools, nonempty, ordered, ⟨expected, earlier,
    complete⟩, stored, last⟩ := valid
  have later := expectedSubmitJobReceiptEvents_later consistent.logged loggedAfter grown earlier
  constructor
  · rintro ⟨_, _, _, _, _, _, _, _, ⟨collected, chain, _⟩, _⟩
    exact ((later collected).mp chain).1
  · intro spared
    have unchanged : after.jobs[receipt.job.id]? = some job :=
      commits.job_unchanged consistent.keyed found fun event member named =>
        absurd (spared event member) (by rw [belongs_of_jobRef named]; simp)
    refine ⟨job, unchanged, sameJob, validateReceiptRecord_persists grown.policyDecisions policy,
      validateLoadedSubmitJobReceiptLineage_persists grown lineage,
      validateReceiptToolRecords_persists grown tools, nonempty, ordered,
      ⟨expected, (later expected).mpr ⟨spared, rfl⟩, complete⟩, ?_, last⟩
    rw [checkAll_eq_ok] at stored ⊢
    intro event member
    have present := stored event member
    simp only [bind_eq_ok, okOr_eq_ok] at present ⊢
    obtain ⟨storedEvent, foundEvent, same⟩ := present
    exact ⟨storedEvent, grown.jobEvents.lookup foundEvent, same⟩

end Record

end Atelia.Store
