import Atelia.Ledger.Publish
import Atelia.Store.Watch

/-! The events a query selects. -/

namespace Atelia.Store

open Outcome Feed

variable {inner before after : InMemoryInner} {log : List JobEvent} {event : JobEvent}
  {query : EventQuery}

/-- All events of a ledger, in sequence order. -/
def InMemoryInner.events (inner : InMemoryInner) : List JobEvent :=
  inner.jobEventsBySequence.records.filterMap fun id => inner.jobEventsById[id]?

theorem Logged.events_eq (logged : Logged inner log) : inner.events = log := by
  have found : ∀ event ∈ log, inner.jobEventsById[event.id]? = some event :=
    fun event member => (logged.stored event).mp member
  rw [InMemoryInner.events, logged.sequence_records, List.filterMap_map]
  calc log.filterMap _ = log.filterMap some := List.filterMap_congr found
    _ = log := List.filterMap_some

def matchesQuery (inner : InMemoryInner) (query : EventQuery) (event : JobEvent) : Bool :=
  match eventMatchesQuery inner event query with
  | .ok answer => answer
  | .error _ => false

/-- The events after a sequence number that match a query, in sequence order. -/
def InMemoryInner.selectedEvents (inner : InMemoryInner) (query : EventQuery)
    (afterSequence : Nat) : List JobEvent :=
  inner.events.filter fun event =>
    decide (afterSequence < event.sequenceNumber) && matchesQuery inner query event

/-- Whether an event is published on a channel. -/
def onChannel (inner : InMemoryInner) (channel : Option RepositoryId) (event : JobEvent) : Bool :=
  match channel with
  | none => true
  | some repositoryId =>
    match eventRepositoryId inner event with
    | .ok own => own = repositoryId
    | .error _ => false

theorem Consistent.links (consistent : Consistent inner log) (member : event ∈ log) :
    validateEventLinks inner event {} = .ok () :=
  (consistent.sound.events _ _ ((consistent.logged.stored event).mp member)).links

theorem Consistent.repository (consistent : Consistent inner log) (member : event ∈ log) :
    ∃ repositoryId, eventRepositoryId inner event = .ok repositoryId := by
  obtain ⟨repositoryId, _, derived, _⟩ :=
    consistent.sound.eventRepository_stored (consistent.links member)
  exact ⟨repositoryId, derived⟩

/-- The filter of a query never fails on an event of the ledger. -/
theorem Consistent.eventMatchesQuery (consistent : Consistent inner log) (member : event ∈ log)
    (query : EventQuery) :
    Store.eventMatchesQuery inner event query = .ok (matchesQuery inner query event) := by
  obtain ⟨repositoryId, derived⟩ := consistent.repository member
  unfold matchesQuery Store.eventMatchesQuery
  cases query.repositoryId with
  | none => rfl
  | some requested =>
    rw [derived]
    rfl

section Grown

variable (consistent : Consistent before log) (member : event ∈ log) (grown : Extends before after)
  (keyed : Keyed after)
include consistent member grown keyed

private theorem repository_persists :
    eventRepositoryId after event = eventRepositoryId before event :=
  eventRepositoryId_persists grown keyed (consistent.links member)

theorem Consistent.matchesQuery_persists :
    matchesQuery after query event = matchesQuery before query event := by
  unfold matchesQuery Store.eventMatchesQuery
  rw [repository_persists consistent member grown keyed]

theorem Consistent.onChannel_persists (channel : Option RepositoryId) :
    onChannel after channel event = onChannel before channel event := by
  unfold onChannel
  rw [repository_persists consistent member grown keyed]

end Grown

/-- A matching event is published on the channel of the query. -/
theorem onChannel_of_matches (selected : matchesQuery inner query event = true) :
    onChannel inner query.repositoryId event = true := by
  unfold matchesQuery Store.eventMatchesQuery at selected
  unfold onChannel
  cases named : query.repositoryId with
  | none => rfl
  | some requested =>
    rw [named] at selected
    cases derived : eventRepositoryId inner event with
    | error _ =>
      rw [derived] at selected
      exact selected
    | ok own =>
      rw [derived] at selected
      have chosen : matchesEventQuery event query (some (requested, some own)) = true := selected
      simp only [matchesEventQuery, Bool.and_eq_true, decide_eq_true_eq, Option.some.injEq] at chosen
      exact decide_eq_true chosen.1.1.1

section Publication

/-- The sends of a list that go to one channel. -/
def sendsTo (targets : List (Option RepositoryId × JobEvent)) (channel : Option RepositoryId) :
    List JobEvent :=
  (targets.filter fun target => target.1 = channel).map (·.2)

/-- An operation sends its events to exactly the channels they are published on. -/
theorem sendsTo_publishTargets {events : List JobEvent}
    {targets : List (Option RepositoryId × JobEvent)}
    (prepared : publishTargets inner events = .ok targets) (channel : Option RepositoryId) :
    sendsTo targets channel = events.filter (onChannel inner channel) := by
  induction events generalizing targets with
  | nil =>
    obtain rfl := Except.ok.inj prepared
    rfl
  | cons event rest ih =>
    simp only [publishTargets, bind_eq_ok, pure_eq_ok] at prepared
    obtain ⟨own, derived, later, preparedRest, rfl⟩ := prepared
    have tail := ih preparedRest
    unfold sendsTo at tail ⊢
    cases channel with
    | none =>
      have everywhere : onChannel inner none event = true := rfl
      simp [List.filter_cons_of_pos everywhere, tail]
    | some repositoryId =>
      by_cases same : own = repositoryId
      · have here : onChannel inner (some repositoryId) event = true := by
          simp [onChannel, derived, same]
        simp [List.filter_cons_of_pos here, same, tail]
      · have elsewhere : ¬onChannel inner (some repositoryId) event = true := by
          simp [onChannel, derived, same]
        simp [List.filter_cons_of_neg elsewhere, same, tail]

/-- Making a send moves one event from the outstanding sends to its channel. -/
theorem sendsTo_send (broadcasters : Broadcasters) (target channel : Option RepositoryId)
    (event : JobEvent) (rest : List (Option RepositoryId × JobEvent)) :
    broadcasters.send target event channel ++ sendsTo rest channel =
      broadcasters channel ++ sendsTo ((target, event) :: rest) channel := by
  unfold Broadcasters.send sendsTo
  by_cases same : channel = target
  · subst same
    simp
  · simp [same, Ne.symm same]

end Publication

section Scan

theorem scanBatch_eq (logged : Logged inner log) (reached cutoff : Nat) :
    scanBatch inner (reached + 1) cutoff =
      ((window JobEvent.sequenceNumber reached cutoff log).take liveWatchSnapshotScanBatch).map
        fun event => (event.sequenceNumber, event.id) := by
  unfold scanBatch window
  rw [logged.index, List.filter_map, List.map_take]
  rfl

/-- A candidate matches as its event does. -/
theorem queryCandidate_eq (consistent : Consistent inner log) (member : event ∈ log)
    {number : Nat} {candidate : EventQueryCandidate}
    (read : queryCandidate inner query (number, event.id) = .ok candidate) :
    candidate.event = event ∧
      eventCandidateMatchesQuery candidate query = matchesQuery inner query event := by
  have stored := (consistent.logged.stored event).mp member
  obtain ⟨own, derived⟩ := consistent.repository member
  simp only [queryCandidate, bind_eq_ok, okOr_eq_ok, stored, Option.some.injEq, pure_eq_ok] at read
  obtain ⟨_, rfl, repositoryId, found, rfl⟩ := read
  refine ⟨rfl, ?_⟩
  unfold candidateRepository at found
  unfold eventCandidateMatchesQuery matchesQuery Store.eventMatchesQuery
  cases named : query.repositoryId with
  | none => rfl
  | some requested =>
    simp only [named, derived, bind_eq_ok, Except.ok.injEq, pure_eq_ok] at found
    obtain ⟨_, rfl, rfl⟩ := found
    rw [derived]
    rfl

/-- The matching candidates of a batch are its matching events. -/
theorem candidates_eq (consistent : Consistent inner log) {batch : List JobEvent}
    (members : ∀ event ∈ batch, event ∈ log) {candidates : List EventQueryCandidate}
    (read : (batch.map fun event => (event.sequenceNumber, event.id)).mapM
      (queryCandidate inner query) = .ok candidates) :
    (candidates.filter (eventCandidateMatchesQuery · query)).map (·.event) =
      batch.filter (matchesQuery inner query) := by
  induction batch generalizing candidates with
  | nil =>
    rw [List.map_nil, List.mapM_nil] at read
    obtain rfl := pure_eq_ok.mp read
    rfl
  | cons event rest ih =>
    rw [List.map_cons, List.mapM_cons] at read
    simp only [bind_eq_ok, pure_eq_ok] at read
    obtain ⟨candidate, readEvent, others, readRest, rfl⟩ := read
    obtain ⟨same, decided⟩ :=
      queryCandidate_eq consistent (members event List.mem_cons_self) readEvent
    have tail := ih (fun other member => members other (List.mem_cons_of_mem _ member)) readRest
    rw [List.filter_cons, List.filter_cons, decided]
    split
    · rw [List.map_cons, tail, same]
    · exact tail

theorem collectMatches_eq {candidates : List EventQueryCandidate} {events result : List JobEvent}
    (collected : collectMatches query candidates events = .ok result) :
    result = events ++
      (candidates.filter (eventCandidateMatchesQuery · query)).map (·.event) := by
  induction candidates generalizing events with
  | nil =>
    obtain rfl := Except.ok.inj collected
    simp
  | cons candidate rest ih =>
    unfold collectMatches at collected
    rw [List.filter_cons]
    split at collected
    · rename_i accepted
      simp only [bind_eq_ok, exists_unit] at collected
      rw [if_pos accepted, ih collected.2, List.map_cons, List.append_assoc]
      rfl
    · rename_i refused
      rw [if_neg refused, ih collected]

/-- What a scan has collected when it has reached a sequence number. -/
def Collected (inner : InMemoryInner) (query : EventQuery) (log : List JobEvent)
    (afterSequence reached : Nat) (events : List JobEvent) : Prop :=
  events = (window JobEvent.sequenceNumber afterSequence reached log).filter
    (matchesQuery inner query)

/-- A batch extends what the scan has collected up to the last event it read, or
up to the cutoff when nothing is left to read. -/
theorem Collected.batch {afterSequence reached cutoff : Nat} {events result : List JobEvent}
    (consistent : Consistent inner log)
    (collected : Collected inner query log afterSequence reached events)
    (lower : afterSequence ≤ reached) (upper : reached ≤ cutoff)
    (read : (scanBatch inner (reached + 1) cutoff).mapM (queryCandidate inner query) >>=
      (collectMatches query · events) = .ok result) :
    (scanBatch inner (reached + 1) cutoff = [] ∧
        Collected inner query log afterSequence cutoff result) ∨
      ∃ last, (scanBatch inner (reached + 1) cutoff).getLast?.map (·.1) = some last ∧
        reached < last ∧ last ≤ cutoff ∧ Collected inner query log afterSequence last result := by
  have ordered := consistent.logged.ordered
  rw [scanBatch_eq consistent.logged] at read ⊢
  rw [bind_eq_ok] at read
  obtain ⟨candidates, found, matched⟩ := read
  have members : ∀ event ∈ (window JobEvent.sequenceNumber reached cutoff log).take
      liveWatchSnapshotScanBatch, event ∈ log :=
    fun event member => List.mem_of_mem_filter (List.mem_of_mem_take member)
  rw [collectMatches_eq matched, candidates_eq consistent members found]
  unfold Collected at collected ⊢
  rw [collected]
  cases ends : ((window JobEvent.sequenceNumber reached cutoff log).take
      liveWatchSnapshotScanBatch).getLast? with
  | none =>
    have nothing := List.getLast?_eq_none_iff.mp ends
    have exhausted : window JobEvent.sequenceNumber reached cutoff log = [] :=
      (List.take_eq_nil_iff.mp nothing).resolve_left (by decide)
    refine .inl ⟨by rw [nothing]; rfl, ?_⟩
    rw [nothing, window_append ordered lower upper, exhausted, List.append_nil, List.filter_nil,
      List.append_nil]
  | some last =>
    have inside := List.mem_of_mem_take (List.mem_of_getLast? ends)
    rw [mem_window] at inside
    refine .inr ⟨last.sequenceNumber, ?_, inside.2.1, inside.2.2, ?_⟩
    · rw [List.getLast?_map, ends]
      rfl
    · rw [window_take ordered ends, ← List.filter_append,
        ← window_append ordered lower (Nat.le_of_lt inside.2.1)]

end Scan

theorem selectedEvents_ordered (reachable : Reachable inner) (query : EventQuery)
    (afterSequence : Nat) :
    (inner.selectedEvents query afterSequence).Pairwise (·.sequenceNumber < ·.sequenceNumber) := by
  obtain ⟨log, logged⟩ := reachable.logged
  rw [InMemoryInner.selectedEvents, logged.events_eq]
  exact logged.ordered.filter _

theorem mem_selectedEvents {afterSequence : Nat}
    (member : event ∈ inner.selectedEvents query afterSequence) :
    afterSequence < event.sequenceNumber ∧ matchesQuery inner query event = true := by
  have chosen := (List.mem_filter.mp member).2
  rw [Bool.and_eq_true, decide_eq_true_eq] at chosen
  exact chosen

end Atelia.Store
