import Atelia.Ledger.Commits

/-! The event ledger as a list. -/

namespace Atelia.Store

/-- The list of events that the indexes of a ledger represent. -/
structure Logged (inner : InMemoryInner) (log : List JobEvent) : Prop where
  count : inner.nextEventSequence = log.length
  index : inner.jobEventsBySequence.toList = log.map fun event => (event.sequenceNumber, event.id)
  numbered : log.map (·.sequenceNumber) = List.range' 1 log.length
  distinct : (log.map (·.id)).Nodup
  stored : ∀ event, event ∈ log ↔ inner.jobEventsById[event.id]? = some event
  size : inner.jobEventsById.size = log.length
  bounded : log.length ≤ maxSequence

variable {inner before after : InMemoryInner} {log events : List JobEvent}
  {admits : JobRecord → Prop}

theorem Logged.empty : Logged .empty [] where
  count := rfl
  index := rfl
  numbered := rfl
  distinct := List.nodup_nil
  stored := by simp [InMemoryInner.empty]
  size := rfl
  bounded := Nat.zero_le _

/-- The sequence numbers of the list are those of the positions, from one. -/
theorem Logged.sequenceNumber_le (logged : Logged inner log) {event : JobEvent}
    (member : event ∈ log) : 1 ≤ event.sequenceNumber ∧ event.sequenceNumber ≤ log.length := by
  have listed : event.sequenceNumber ∈ log.map (·.sequenceNumber) := List.mem_map_of_mem member
  rw [logged.numbered, List.mem_range'_1] at listed
  omega

theorem Logged.sequence_records (logged : Logged inner log) :
    inner.jobEventsBySequence.records = log.map (·.id) := by
  rw [Table.records, logged.index, List.map_map]
  rfl

/-- Later events of the list have larger sequence numbers. -/
theorem Logged.ordered (logged : Logged inner log) :
    log.Pairwise fun first second => first.sequenceNumber < second.sequenceNumber := by
  have increasing := List.pairwise_lt_range' (s := 1) (n := log.length)
  rw [← logged.numbered, List.pairwise_map] at increasing
  exact increasing

/-- What is appended to the list is numbered after all of it. -/
theorem Logged.length_lt (logged : Logged inner (log ++ events)) {event : JobEvent}
    (member : event ∈ events) : log.length < event.sequenceNumber := by
  have numbers := logged.numbered
  rw [List.map_append, List.length_append, ← List.range'_append_1] at numbers
  have later := (List.append_inj numbers (by simp)).2
  have listed : event.sequenceNumber ∈ events.map (·.sequenceNumber) := List.mem_map_of_mem member
  rw [later, List.mem_range'_1] at listed
  omega

theorem Logged.sequenceNumber_le_of_take (logged : Logged inner log) {count : Nat}
    {event : JobEvent} (member : event ∈ log.take count) : event.sequenceNumber ≤ count := by
  have listed : event.sequenceNumber ∈ (List.range' 1 log.length).take count := by
    rw [← logged.numbered, ← List.map_take]
    exact List.mem_map_of_mem member
  rcases Nat.le_total count log.length with inside | beyond
  · rw [List.take_range'_of_length_ge inside, List.mem_range'_1] at listed
    omega
  · exact Nat.le_trans (logged.sequenceNumber_le (List.mem_of_mem_take member)).2 beyond

private theorem Logged.index_append (logged : Logged inner log) (event : JobEvent) :
    (inner.withEvent event).jobEventsBySequence.toList =
      (log ++ [inner.numbered event]).map fun event => (event.sequenceNumber, event.id) := by
  have above : ∀ other id, inner.jobEventsBySequence[other]? = some id →
      other < inner.nextEventSequence + 1 := by
    intro other id found
    have member := Std.ExtTreeMap.mem_toList_iff_getElem?_eq_some.mpr found
    rw [logged.index, List.mem_map] at member
    obtain ⟨event, listed, same⟩ := member
    obtain ⟨rfl, rfl⟩ := Prod.mk.inj same
    have bound := (logged.sequenceNumber_le listed).2
    rw [logged.count]
    omega
  calc (inner.withEvent event).jobEventsBySequence.toList
      = inner.jobEventsBySequence.toList ++ [(inner.nextEventSequence + 1, event.id)] :=
        Table.toList_insert_last above event.id
    _ = _ := by rw [logged.index, List.map_append]; rfl

private theorem Logged.stored_append (logged : Logged inner log) {event : JobEvent}
    (fresh : inner.jobEventsById[event.id]? = none) (other : JobEvent) :
    other ∈ log ++ [inner.numbered event] ↔
      (inner.withEvent event).jobEventsById[other.id]? = some other := by
  have lookup : (inner.withEvent event).jobEventsById[other.id]? =
      if event.id = other.id then some (inner.numbered event)
      else inner.jobEventsById[other.id]? :=
    Table.lookup_insert _ _ _ _
  rw [List.mem_append, List.mem_singleton, logged.stored, lookup]
  by_cases same : event.id = other.id
  · rw [if_pos same, ← same, fresh]
    simp [eq_comm]
  · have different : other ≠ inner.numbered event := by
      rintro rfl
      exact same rfl
    simp [same, different]

/-- Appending an event to the ledger appends it to the list. -/
theorem Logged.append (logged : Logged inner log) {event : JobEvent}
    (fresh : inner.jobEventsById[event.id]? = none)
    (room : inner.nextEventSequence + 1 ≤ maxSequence) :
    Logged (inner.withEvent event) (log ++ [inner.numbered event]) where
  count := by
    rw [List.length_append, List.length_singleton, ← logged.count]
    rfl
  index := logged.index_append event
  numbered := by
    rw [List.map_append, logged.numbered, List.length_append, List.length_singleton,
      List.range'_1_concat, ← logged.count]
    simp [InMemoryInner.numbered, Nat.add_comm]
  distinct := by
    rw [List.map_append, List.nodup_append]
    refine ⟨logged.distinct, List.nodup_singleton _, ?_⟩
    intro id listed other last
    obtain ⟨stored, member, rfl⟩ := List.mem_map.mp listed
    rw [List.map_singleton, List.mem_singleton] at last
    rintro same
    have found := (logged.stored stored).mp member
    rw [same, last] at found
    exact absurd (fresh.symm.trans found) (by simp)
  stored := logged.stored_append fresh
  size := by
    have absent : ¬event.id ∈ inner.jobEventsById := by
      rw [← Std.ExtTreeMap.contains_iff_mem, Bool.not_eq_true, Table.contains_eq_false_iff]
      exact fresh
    rw [List.length_append, List.length_singleton, ← logged.size]
    exact (Std.ExtTreeMap.size_insert).trans (if_neg absent)
  bounded := by
    rw [List.length_append, List.length_singleton, ← logged.count]
    exact room

/-- A commit appends its events to the list. -/
theorem Commit.logged (commit : Commit admits before events after) (logged : Logged before log) :
    Logged after (log ++ events) := by
  cases commit
  case createJob appended => exact { logged.append appended.fresh appended.room with }
  case appendEvent appended => exact logged.append appended.fresh appended.room
  case updateJob appended => exact { logged.append appended.fresh appended.room with }
  all_goals
    rw [List.append_nil]
    exact { logged with }

theorem Commits.logged (commits : Commits admits before events after) (logged : Logged before log) :
    Logged after (log ++ events) := by
  induction commits generalizing log with
  | none => exact (List.append_nil log).symm ▸ logged
  | next first _ ih => exact List.append_assoc log _ _ ▸ ih (first.logged logged)

theorem Reachable.logged (reachable : Reachable inner) : ∃ log, Logged inner log := by
  refine Reachable.induct (fun inner => ∃ log, Logged inner log) ⟨[], .empty⟩ ?_ reachable
  rintro before events after _ commit ⟨log, logged⟩
  exact ⟨log ++ events, commit.logged logged⟩

/-- An operation appends exactly the events it publishes. -/
theorem StoreOperation.exec_logged (keyed : Keyed before) {operation : StoreOperation}
    (succeeded : operation.exec before = .ok (after, events)) (logged : Logged before log) :
    Logged after (log ++ events) :=
  (StoreOperation.exec_commits keyed operation.admitted_any succeeded).logged logged

end Atelia.Store
