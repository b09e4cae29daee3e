import Atelia.Ledger.Selection
import Atelia.Store.Drafts

/-! The event ledger is append-only. -/

namespace Atelia.Store

variable {inner before after : InMemoryInner} {log : List JobEvent}

/-- The sequence index and the events agree. -/
structure GapFree (inner : InMemoryInner) : Prop where
  keys : ∀ number : Nat, inner.jobEventsBySequence.contains number = true ↔
    1 ≤ number ∧ number ≤ inner.nextEventSequence
  injective : ∀ (first second : Nat) (id : JobEventId), inner.jobEventsBySequence[first]? = some id →
    inner.jobEventsBySequence[second]? = some id → first = second
  onto : ∀ id, (∃ number : Nat, inner.jobEventsBySequence[number]? = some id) ↔
    inner.jobEventsById.contains id = true
  numbered : ∀ (number : Nat) (id : JobEventId), inner.jobEventsBySequence[number]? = some id →
    ∃ event, inner.jobEventsById[id]? = some event ∧ event.sequenceNumber = number

/-- The entries of the sequence index are those of the events in the list. -/
theorem Logged.bySequence_eq_some (logged : Logged inner log) {number : Nat} {id : JobEventId} :
    inner.jobEventsBySequence[number]? = some id ↔
      ∃ event ∈ log, event.sequenceNumber = number ∧ event.id = id := by
  rw [← Std.ExtTreeMap.mem_toList_iff_getElem?_eq_some, logged.index, List.mem_map]
  simp only [Prod.mk.injEq]

theorem Logged.gapFree (keyed : Keyed inner) (logged : Logged inner log) : GapFree inner where
  keys number := by
    rw [Std.ExtTreeMap.contains_eq_isSome_getElem?, Option.isSome_iff_exists, logged.count]
    constructor
    · rintro ⟨id, found⟩
      obtain ⟨event, member, rfl, _⟩ := logged.bySequence_eq_some.mp found
      exact logged.sequenceNumber_le member
    · intro inside
      have listed : number ∈ log.map (·.sequenceNumber) := by
        rw [logged.numbered, List.mem_range'_1]
        omega
      obtain ⟨event, member, same⟩ := List.mem_map.mp listed
      exact ⟨event.id, logged.bySequence_eq_some.mpr ⟨event, member, same, rfl⟩⟩
  injective first second id found found' := by
    obtain ⟨event, member, rfl, rfl⟩ := logged.bySequence_eq_some.mp found
    obtain ⟨event', member', rfl, same⟩ := logged.bySequence_eq_some.mp found'
    have stored := (logged.stored event).mp member
    have stored' := (logged.stored event').mp member'
    rw [same, stored, Option.some.injEq] at stored'
    rw [stored']
  onto id := by
    rw [Std.ExtTreeMap.contains_eq_isSome_getElem?, Option.isSome_iff_exists]
    constructor
    · rintro ⟨number, found⟩
      obtain ⟨event, member, _, rfl⟩ := logged.bySequence_eq_some.mp found
      exact ⟨event, (logged.stored event).mp member⟩
    · rintro ⟨event, found⟩
      obtain rfl := keyed.jobEvents id event found
      exact ⟨_, logged.bySequence_eq_some.mpr ⟨event, (logged.stored event).mpr found, rfl, rfl⟩⟩
  numbered number id found := by
    obtain ⟨event, member, same, rfl⟩ := logged.bySequence_eq_some.mp found
    exact ⟨event, (logged.stored event).mp member, same⟩

/-- A run appends to the list of events. -/
theorem Run.events_append (reachable : Reachable before) (run : Run before after) :
    ∃ appended, after.events = before.events ++ appended := by
  induction run with
  | refl => exact ⟨[], (List.append_nil _).symm⟩
  | @tail middle after earlier step ih =>
    obtain ⟨appended, grown⟩ := ih
    have reached : Reachable middle := reachable.trans earlier
    obtain ⟨log, logged⟩ := reached.logged
    obtain ⟨events, commits⟩ := step.commits reached.keyed
    refine ⟨appended ++ events, ?_⟩
    rw [(commits.logged logged).events_eq, ← logged.events_eq, grown, List.append_assoc]

/-- In every state that a store reaches from the empty one by operations that
succeed or fail, the events are numbered without gaps; a further operation appends
events at most, none is changed or removed by any later operation, and an operation
that fails leaves the store as it was. -/
theorem append_only_ledger {Registry : Type} (registry : Registry)
    (durableSnapshotPath : Option String) (calls : List (StoreCall Registry)) :
    let store := (InMemoryStore.empty registry durableSnapshotPath).serveAll calls
    GapFree store.inner.ledger ∧
      (∀ call, ∃ appended, (store.serve call).2.inner.ledger.events =
        store.inner.ledger.events ++ appended) ∧
      (∀ later (id : JobEventId) event, store.inner.ledger.jobEventsById[id]? = some event →
        (store.serveAll later).inner.ledger.jobEventsById[id]? = some event) ∧
      ∀ call error, (store.serve call).1 = .error error → (store.serve call).2 = store := by
  intro store
  have reachable : Reachable store.inner.ledger :=
    InMemoryStore.serveAll_reachable registry durableSnapshotPath calls
  refine ⟨?_, ?_, ?_, ?_⟩
  · obtain ⟨log, logged⟩ := reachable.logged
    exact logged.gapFree reachable.keyed
  · intro call
    exact Run.events_append reachable (store.serve_run call)
  · intro later id event found
    have grown := Run.extends reachable (store.serveAll_run later)
    exact grown.jobEvents.lookup found
  · intro call error failed
    exact InMemoryStore.serve_failed failed

end Atelia.Store
