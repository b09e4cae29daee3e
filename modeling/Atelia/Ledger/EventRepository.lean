import Atelia.Ledger.AppendOnly
import Atelia.Store.EventPages

/-! The repository of an event. -/

namespace Atelia.Store

open Outcome

variable {inner before after : InMemoryInner} {log : List JobEvent} {event : JobEvent}
  {repositoryId : RepositoryId}

section Subject

/-- The record that the subject of an event names is stored and belongs to the
repository. -/
def SubjectBelongs (inner : InMemoryInner) (event : JobEvent) (repositoryId : RepositoryId) :
    Prop :=
  match event.subject.subjectType with
  | .repository => inner.repositories.contains repositoryId = true ∧
      repositoryId.text = event.subject.subjectId
  | .job => ∃ (id : JobId) (job : JobRecord), id.text = event.subject.subjectId ∧
      inner.jobs[id]? = some job ∧ job.repositoryId = repositoryId
  | .policyDecision => ∃ (id : PolicyDecisionId) (decision : PolicyDecision),
      id.text = event.subject.subjectId ∧ inner.policyDecisions[id]? = some decision ∧
        decision.repositoryId = repositoryId
  | .lockDecision => ∃ (id : LockDecisionId) (lock : LockDecision),
      id.text = event.subject.subjectId ∧ inner.lockDecisions[id]? = some lock ∧
        lock.repositoryId = repositoryId
  | .toolInvocation => ∃ (id : ToolInvocationId) (invocation : ToolInvocation),
      id.text = event.subject.subjectId ∧ inner.toolInvocations[id]? = some invocation ∧
        invocation.repositoryId = repositoryId
  | .toolResult => ∃ (id : ToolResultId) (result : ToolResult) (invocation : ToolInvocation),
      id.text = event.subject.subjectId ∧ inner.toolResults[id]? = some result ∧
        inner.toolInvocations[result.invocationId]? = some invocation ∧
        invocation.repositoryId = repositoryId
  | .auditRecord => ∃ (id : AuditRecordId) (record : AuditRecord),
      id.text = event.subject.subjectId ∧ inner.auditRecords[id]? = some record ∧
        record.repositoryId = repositoryId

/-- A record found by its text is stored under an identifier with that text. -/
private theorem found_by_text {kind : IdKind} {Record : Type} {table : Table (Identifier kind) Record}
    {own : Record → Identifier kind} (keyed : table.KeyedBy own) {text : String} {record : Record}
    (scan : table.records.find? (fun record => (own record).text = text) = some record) :
    ∃ id : Identifier kind, id.text = text ∧ table[id]? = some record := by
  obtain ⟨id, stored⟩ := Table.mem_records.mp (List.mem_of_find?_eq_some scan)
  refine ⟨id, ?_, stored⟩
  have named := List.find?_some scan
  rw [keyed id record stored] at named
  exact of_decide_eq_true named

theorem SubjectBelongs.of_found (keyed : Keyed inner)
    (found : subjectRepositoryId inner event {} = .ok repositoryId) :
    SubjectBelongs inner event repositoryId := by
  unfold subjectRepositoryId at found
  unfold SubjectBelongs
  cases kind : event.subject.subjectType with
  | repository =>
    simp only [kind, okOr_eq_ok] at found
    obtain ⟨⟨id, record⟩, listed, rfl⟩ := List.mem_map.mp (List.mem_of_find?_eq_some found)
    have stored := Std.ExtTreeMap.mem_toList_iff_getElem?_eq_some.mp listed
    have named := List.find?_some found
    exact ⟨(Table.contains_iff _ _).mpr ⟨record, stored⟩, of_decide_eq_true named⟩
  | job =>
    simp only [kind, bind_eq_ok, okOr_eq_ok, pure_eq_ok, Option.filter_none, Option.or_none] at found
    obtain ⟨job, scan, rfl⟩ := found
    obtain ⟨id, named, stored⟩ := found_by_text keyed.jobs scan
    exact ⟨id, job, named, stored, rfl⟩
  | policyDecision =>
    simp only [kind, bind_eq_ok, okOr_eq_ok, pure_eq_ok] at found
    obtain ⟨decision, scan, rfl⟩ := found
    obtain ⟨id, named, stored⟩ := found_by_text keyed.policyDecisions scan
    exact ⟨id, decision, named, stored, rfl⟩
  | lockDecision =>
    simp only [kind, bind_eq_ok, okOr_eq_ok, pure_eq_ok] at found
    obtain ⟨lock, scan, rfl⟩ := found
    obtain ⟨id, named, stored⟩ := found_by_text keyed.lockDecisions scan
    exact ⟨id, lock, named, stored, rfl⟩
  | toolInvocation =>
    simp only [kind, bind_eq_ok, okOr_eq_ok, pure_eq_ok] at found
    obtain ⟨invocation, scan, rfl⟩ := found
    obtain ⟨id, named, stored⟩ := found_by_text keyed.toolInvocations scan
    exact ⟨id, invocation, named, stored, rfl⟩
  | toolResult =>
    simp only [kind, bind_eq_ok, okOr_eq_ok, pure_eq_ok, Option.filter_none, Option.or_none] at found
    obtain ⟨result, scan, invocation, owner, rfl⟩ := found
    obtain ⟨id, named, stored⟩ := found_by_text keyed.toolResults scan
    exact ⟨id, result, invocation, named, stored, owner, rfl⟩
  | auditRecord =>
    simp only [kind, bind_eq_ok, okOr_eq_ok, pure_eq_ok, Option.filter_none, Option.or_none] at found
    obtain ⟨record, scan, rfl⟩ := found
    obtain ⟨id, named, stored⟩ := found_by_text keyed.auditRecords scan
    exact ⟨id, record, named, stored, rfl⟩

end Subject

/-- The record an event is about and the records it refers to are stored and belong
to the repository. -/
structure EventBelongs (inner : InMemoryInner) (event : JobEvent) (repositoryId : RepositoryId) :
    Prop where
  repository : inner.repositories.contains repositoryId = true
  subject : SubjectBelongs inner event repositoryId
  refs : RefsBelong inner event repositoryId

/-- A stored event belongs to one repository, in this state and in every later one. -/
theorem Reachable.eventBelongs (reachable : Reachable inner)
    (stored : inner.jobEventsById[event.id]? = some event) :
    ∃ repositoryId, ∀ later, Run inner later →
      EventBelongs later event repositoryId ∧ eventRepositoryId later event = .ok repositoryId := by
  have links := (reachable.sound.events _ _ stored).links
  obtain ⟨repositoryId, _, here⟩ := eventRepositoryId_of_links links
  refine ⟨repositoryId, ?_⟩
  intro later run
  have reachableLater : Reachable later := reachable.trans run
  have grown := Run.extends reachable run
  have derived := eventRepositoryId_persists grown reachableLater.keyed links
  obtain ⟨own, subject, refs⟩ := RefsBelong.of_links
    (reachableLater.sound.events _ _ (grown.jobEvents.lookup stored)).links
  obtain rfl : own = repositoryId :=
    Except.ok.inj ((refs.eventRepositoryId subject).symm.trans (derived.trans here))
  exact ⟨⟨reachableLater.sound.subject_stored subject, .of_found reachableLater.keyed subject, refs⟩,
    refs.eventRepositoryId subject⟩

/-- The events of a repository, in sequence order. -/
def InMemoryInner.eventsOf (inner : InMemoryInner) (repositoryId : RepositoryId) : List JobEvent :=
  inner.events.filter fun event => eventRepositoryId inner event = .ok repositoryId

section Query

/-- How the walk of a query treats an entry of the index. -/
theorem collectPage_cons {query : EventQuery} {start pageSize skipped number : Nat}
    {id : JobEventId} {rest : List (Nat × JobEventId)} {retained : List JobEvent} {selected : Bool}
    (stored : inner.jobEventsById[id]? = some event)
    (decided : eventMatchesQuery inner event query = .ok selected) :
    collectPage inner query start pageSize ((number, id) :: rest) skipped retained =
      if !selected then collectPage inner query start pageSize rest skipped retained
      else if skipped < start then
        collectPage inner query start pageSize rest (skipped + 1) retained
      else if retained.length = pageSize then .ok (retained, true)
      else collectPage inner query start pageSize rest skipped (retained ++ [event]) := by
  rw [collectPage, stored]
  simp only [okOr, Bind.bind, Except.bind, decided]
  rfl

/-- The walk retains the matching events from the start of the page on, as many as
the page holds, and tells whether there are more. -/
theorem collectPage_eq (consistent : Consistent inner log) (query : EventQuery)
    {start pageSize : Nat} (events : List JobEvent) (members : ∀ event ∈ events, event ∈ log)
    {skipped : Nat} (early : skipped ≤ start) (retained : List JobEvent)
    (room : retained.length ≤ pageSize) :
    collectPage inner query start pageSize
        (events.map fun event => (event.sequenceNumber, event.id)) skipped retained =
      .ok (retained ++ ((events.filter (matchesQuery inner query)).drop (start - skipped)).take
          (pageSize - retained.length),
        decide (pageSize - retained.length <
          ((events.filter (matchesQuery inner query)).drop (start - skipped)).length)) := by
  induction events generalizing skipped retained with
  | nil => simp [collectPage]
  | cons event rest ih =>
    have member := members event List.mem_cons_self
    have later : ∀ other ∈ rest, other ∈ log := fun other inside =>
      members other (List.mem_cons_of_mem _ inside)
    have stored := (consistent.logged.stored event).mp member
    rw [List.map_cons, collectPage_cons stored (consistent.eventMatchesQuery member query)]
    cases selected : matchesQuery inner query event with
    | false =>
      rw [List.filter_cons_of_neg (by simp [selected])]
      exact ih later early retained room
    | true =>
      rw [List.filter_cons_of_pos selected]
      by_cases before : skipped < start
      · -- the event belongs to an earlier page
        have left : start - skipped = start - (skipped + 1) + 1 := by omega
        rw [left, List.drop_succ_cons, if_neg (by simp), if_pos before]
        exact ih later before retained room
      · have left : start - skipped = 0 := by omega
        rw [left, List.drop_zero, if_neg (by simp), if_neg before]
        by_cases full : retained.length = pageSize
        · rw [if_pos full, full]
          simp
        · have more : pageSize - retained.length = pageSize - (retained ++ [event]).length + 1 := by
            rw [List.length_append, List.length_singleton]
            omega
          have fits : (retained ++ [event]).length ≤ pageSize := by
            rw [List.length_append, List.length_singleton]
            omega
          rw [if_neg full, ih later early _ fits, left, List.drop_zero, more, List.take_succ_cons,
            List.append_assoc, List.length_cons]
          simp only [Nat.add_lt_add_iff_right]
          rfl

/-- The entries of the index after a cursor. -/
theorem Consistent.entries_eq (consistent : Consistent inner log) (afterSequence : Nat) :
    (if afterSequence + 1 ≤ maxSequence then
        inner.jobEventsBySequence.toList.filter fun entry => afterSequence + 1 ≤ entry.1
      else []) =
      (log.filter fun event => decide (afterSequence < event.sequenceNumber)).map fun event =>
        (event.sequenceNumber, event.id) := by
  split
  · rw [consistent.logged.index, List.filter_map]
    rfl
  · rename_i last
    symm
    rw [List.map_eq_nil_iff, List.filter_eq_nil_iff]
    intro event member
    have bounded := consistent.logged.bounded
    have within := (consistent.logged.sequenceNumber_le member).2
    simp only [decide_eq_true_eq]
    omega

/-- A page holds the selected events from its start on, as many as it has room for,
and a token when there are more. -/
theorem collectPaginatedFilteredJobEvents_eq (consistent : Consistent inner log)
    (query : EventQuery) {afterSequence : Nat}
    (resolved : eventCursorSequence inner query.cursor = .ok afterSequence) (start : Nat)
    {pageSize : Nat} (positive : pageSize ≠ 0) :
    collectPaginatedFilteredJobEvents inner query start pageSize =
      .ok (((inner.selectedEvents query afterSequence).drop start).take pageSize,
        if pageSize < ((inner.selectedEvents query afterSequence).drop start).length then
          some (toString (start + pageSize))
        else none) := by
  have selected : (log.filter fun event => decide (afterSequence < event.sequenceNumber)).filter
      (matchesQuery inner query) = inner.selectedEvents query afterSequence := by
    rw [List.filter_filter, InMemoryInner.selectedEvents, consistent.logged.events_eq]
    simp only [Bool.and_comm]
  have collected := collectPage_eq consistent query
    (log.filter fun event => decide (afterSequence < event.sequenceNumber))
    (fun _ member => List.mem_of_mem_filter member) (Nat.zero_le start) [] (Nat.zero_le pageSize)
  rw [← consistent.entries_eq afterSequence, selected] at collected
  simp only [Nat.sub_zero, List.length_nil, List.nil_append] at collected
  simp only [collectPaginatedFilteredJobEvents, bind_eq_ok]
  refine ⟨afterSequence, resolved, ?_⟩
  rw [if_neg positive, collected]
  by_cases more : pageSize < ((inner.selectedEvents query afterSequence).drop start).length
  · have full : (((inner.selectedEvents query afterSequence).drop start).take pageSize).length =
        pageSize := List.length_take_of_le (Nat.le_of_lt more)
    rw [decide_eq_true more, if_pos more]
    simp only [Bind.bind, Except.bind, full, if_true]
    rfl
  · rw [decide_eq_false more, if_neg more]
    rfl

/-- A query for a repository with no other condition selects the events of the
repository. -/
theorem queryJobEvents_repository (consistent : Consistent inner log)
    (repositoryId : RepositoryId) :
    queryJobEvents inner { repositoryId := some repositoryId } =
      .ok ⟨inner.eventsOf repositoryId, none, none⟩ := by
  have selected : inner.selectedEvents { repositoryId := some repositoryId } 0 =
      inner.eventsOf repositoryId := by
    rw [InMemoryInner.selectedEvents, InMemoryInner.eventsOf, consistent.logged.events_eq]
    apply List.filter_congr
    intro event member
    obtain ⟨own, derived⟩ := consistent.repository member
    have numbered : 0 < event.sequenceNumber := (consistent.logged.sequenceNumber_le member).1
    simp [numbered, matchesQuery, eventMatchesQuery, derived, matchesEventQuery, Bind.bind,
      Except.bind, Pure.pure, Except.pure]
  have few : (inner.eventsOf repositoryId).length ≤ maxUsize := by
    rw [InMemoryInner.eventsOf, consistent.logged.events_eq]
    exact Nat.le_trans (List.length_filter_le _ _) consistent.logged.bounded
  have page := collectPaginatedFilteredJobEvents_eq consistent
    { repositoryId := some repositoryId } rfl 0 (by decide : maxUsize ≠ 0)
  rw [selected, List.drop_zero, List.take_of_length_le few, if_neg (Nat.not_lt.mpr few)] at page
  simp only [queryJobEvents, bind_eq_ok, Option.getD_none]
  exact ⟨0, rfl, none, rfl, _, page, rfl⟩

end Query

section Latest

theorem findRepositoryEvent_eq (consistent : Consistent inner log) (events : List JobEvent)
    (members : ∀ event ∈ events, event ∈ log) (repositoryId : RepositoryId) :
    findRepositoryEvent inner repositoryId
        (events.map fun event => (event.sequenceNumber, event.id)) =
      .ok (events.find? fun event => eventRepositoryId inner event = .ok repositoryId) := by
  induction events with
  | nil => rfl
  | cons event rest ih =>
    have member := members event List.mem_cons_self
    have stored := (consistent.logged.stored event).mp member
    obtain ⟨own, derived⟩ := consistent.repository member
    have later := ih fun other inside => members other (List.mem_cons_of_mem _ inside)
    rw [List.map_cons, findRepositoryEvent, stored, List.find?_cons]
    simp only [okOr, Bind.bind, Except.bind, derived, later, Except.ok.injEq]
    by_cases same : own = repositoryId
    · simp [same, Pure.pure, Except.pure]
    · simp [same]

/-- The latest event of a repository is the last of its events. -/
theorem latestJobEventForRepository_eq (consistent : Consistent inner log)
    (repositoryId : RepositoryId) :
    latestJobEventForRepository inner repositoryId =
      .ok (inner.eventsOf repositoryId).getLast? := by
  have found := findRepositoryEvent_eq consistent log.reverse
    (fun _ member => List.mem_reverse.mp member) repositoryId
  rw [latestJobEventForRepository, consistent.logged.index, ← List.map_reverse, found,
    InMemoryInner.eventsOf, consistent.logged.events_eq, ← List.head?_filter, List.filter_reverse,
    List.head?_reverse]

end Latest

section Channels

variable {Registry : Type} {store : InMemoryStore Registry}

theorem sendAll_eq (broadcasters : Broadcasters)
    (targets : List (Option RepositoryId × JobEvent)) (channel : Option RepositoryId) :
    broadcasters.sendAll targets channel = broadcasters channel ++ sendsTo targets channel := by
  induction targets generalizing broadcasters with
  | nil => simp [Broadcasters.sendAll, sendsTo]
  | cons target rest ih =>
    rw [← sendsTo_send]
    exact ih (broadcasters.send target.1 target.2)

theorem Consistent.publishTargets (consistent : Consistent inner log) (events : List JobEvent)
    (members : ∀ event ∈ events, event ∈ log) :
    ∃ targets, Store.publishTargets inner events = .ok targets := by
  induction events with
  | nil => exact ⟨[], rfl⟩
  | cons event rest ih =>
    obtain ⟨own, derived⟩ := consistent.repository (members event List.mem_cons_self)
    obtain ⟨targets, prepared⟩ := ih fun other inside => members other (List.mem_cons_of_mem _ inside)
    refine ⟨(none, event) :: (some own, event) :: targets, ?_⟩
    simp only [Store.publishTargets, derived, prepared]
    rfl

/-- What every channel has carried are the events that are published on it. -/
def InMemoryStore.Broadcast (store : InMemoryStore Registry) : Prop :=
  ∀ channel, store.broadcasters channel =
    store.inner.ledger.events.filter (onChannel store.inner.ledger channel)

theorem InMemoryStore.Broadcast.serve (broadcast : store.Broadcast)
    (reachable : Reachable store.inner.ledger) (call : StoreCall Registry) :
    (store.serve call).2.Broadcast := by
  rcases store.serve_cases call with ⟨_, unchanged⟩ | ⟨response, ledger, answered, installed⟩
  · rw [unchanged]
    exact broadcast
  · rw [installed]
    intro channel
    obtain ⟨log, consistent⟩ := reachable.consistent
    have commits := StoreOperation.exec_commits consistent.keyed call.operation.admitted_any
      (StoreOperation.exec_of_mutation answered)
    have resulting := commits.consistent consistent
    obtain ⟨targets, prepared⟩ := resulting.publishTargets (call.operation.published response)
      fun event member => List.mem_append_right log member
    -- the channel of an old event is still the one it was sent to
    have kept : log.filter (onChannel ledger channel) =
        log.filter (onChannel store.inner.ledger channel) := by
      apply List.filter_congr
      intro event member
      exact consistent.onChannel_persists member (commits.extends consistent.keyed) resulting.keyed
        channel
    have sent := broadcast channel
    rw [consistent.logged.events_eq, ← kept] at sent
    simp only [publishJobEvents, prepared]
    rw [sendAll_eq, sendsTo_publishTargets prepared, resulting.logged.events_eq, List.filter_append,
      sent]

theorem InMemoryStore.Broadcast.serveAll (broadcast : store.Broadcast)
    (reachable : Reachable store.inner.ledger) (calls : List (StoreCall Registry)) :
    (store.serveAll calls).Broadcast := by
  induction calls generalizing store with
  | nil => exact broadcast
  | cons call rest ih =>
    exact ih (broadcast.serve reachable call) (reachable.trans (store.serve_run call))

theorem InMemoryStore.Broadcast.repository (broadcast : store.Broadcast)
    (consistent : Consistent store.inner.ledger log) (repositoryId : RepositoryId) :
    store.broadcasters (some repositoryId) = store.inner.ledger.eventsOf repositoryId := by
  rw [broadcast, InMemoryInner.eventsOf, consistent.logged.events_eq]
  apply List.filter_congr
  intro event member
  obtain ⟨own, derived⟩ := consistent.repository member
  simp [onChannel, derived]

end Channels

/-- Every event of a store, whatever operations it has served, belongs to one
repository in this state and in every later one; the query for a repository, its
channel and its latest event are given by the same list of events. -/
theorem one_repository_of_every_event {Registry : Type} (registry : Registry)
    (durableSnapshotPath : Option String) (calls : List (StoreCall Registry)) :
    let store := (InMemoryStore.empty registry durableSnapshotPath).serveAll calls
    (∀ event : JobEvent, store.inner.ledger.jobEventsById[event.id]? = some event →
      ∃ repositoryId, ∀ later, EventBelongs (store.serveAll later).inner.ledger event repositoryId ∧
        eventRepositoryId (store.serveAll later).inner.ledger event = .ok repositoryId) ∧
      ∀ repositoryId,
        queryJobEvents store.inner.ledger { repositoryId := some repositoryId } =
            .ok ⟨store.inner.ledger.eventsOf repositoryId, none, none⟩ ∧
          store.broadcasters (some repositoryId) = store.inner.ledger.eventsOf repositoryId ∧
          latestJobEventForRepository store.inner.ledger repositoryId =
            .ok (store.inner.ledger.eventsOf repositoryId).getLast? := by
  intro store
  have reachable : Reachable store.inner.ledger :=
    InMemoryStore.serveAll_reachable registry durableSnapshotPath calls
  have opened : (InMemoryStore.empty registry durableSnapshotPath).Broadcast := fun _ => rfl
  have broadcast : store.Broadcast := opened.serveAll Relation.ReflTransGen.refl calls
  constructor
  · intro event stored
    obtain ⟨repositoryId, belongs⟩ := reachable.eventBelongs stored
    exact ⟨repositoryId, fun later => belongs _ (store.serveAll_run later)⟩
  · intro repositoryId
    obtain ⟨log, consistent⟩ := reachable.consistent
    exact ⟨queryJobEvents_repository consistent repositoryId,
      broadcast.repository consistent repositoryId,
      latestJobEventForRepository_eq consistent repositoryId⟩

end Atelia.Store
