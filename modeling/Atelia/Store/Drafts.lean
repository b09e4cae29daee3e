import Atelia.Store.Runs
import Atelia.Store.Watch

/-! The store around the ledger. -/

namespace Atelia.Store

/-- Make sends in their order. -/
def Broadcasters.sendAll (broadcasters : Broadcasters)
    (targets : List (Option RepositoryId × JobEvent)) : Broadcasters :=
  targets.foldl (fun broadcasters target => broadcasters.send target.1 target.2) broadcasters

/-- The state behind the lock of the store. -/
structure StoreInner (Registry : Type) where
  ledger : InMemoryInner
  extensionRegistrySnapshot : Registry

structure InMemoryStore (Registry : Type) where
  inner : StoreInner Registry
  durableSnapshotPath : Option String
  broadcasters : Broadcasters

variable {Registry α : Type}

namespace InMemoryStore

/-- A store that has served no operation. -/
def empty (registry : Registry) (durableSnapshotPath : Option String) : InMemoryStore Registry where
  inner := ⟨.empty, registry⟩
  durableSnapshotPath := durableSnapshotPath
  broadcasters := fun _ => []

/-- The mutator answers with the draft as it leaves it, also when it fails. Writing
the snapshot may fail as well. -/
def mutate (store : InMemoryStore Registry)
    (persistDurableSnapshot : String → StoreInner Registry → StoreResult Unit)
    (mutator : StoreInner Registry → StoreResult α × StoreInner Registry) :
    StoreResult α × InMemoryStore Registry :=
  match mutator store.inner with
  | (.error error, _) => (.error error, store)
  | (.ok result, draft) =>
    match store.durableSnapshotPath with
    | none => (.ok result, { store with inner := draft })
    | some snapshotPath =>
      match persistDurableSnapshot snapshotPath draft with
      | .error error => (.error error, store)
      | .ok () => (.ok result, { store with inner := draft })

/-- A failing `mutate` leaves the store as it was, a succeeding one installs the draft. -/
theorem mutate_cases (store : InMemoryStore Registry)
    (persistDurableSnapshot : String → StoreInner Registry → StoreResult Unit)
    (mutator : StoreInner Registry → StoreResult α × StoreInner Registry) :
    (∃ error, store.mutate persistDurableSnapshot mutator = (.error error, store)) ∨
      ∃ result draft, mutator store.inner = (.ok result, draft) ∧
        store.mutate persistDurableSnapshot mutator = (.ok result, { store with inner := draft }) := by
  unfold mutate
  split
  · exact .inl ⟨_, rfl⟩
  · rename_i result draft worked
    split
    · exact .inr ⟨result, draft, worked, rfl⟩
    · split
      · exact .inl ⟨_, rfl⟩
      · exact .inr ⟨result, draft, worked, rfl⟩

/-- Send events to their channels. -/
def publishJobEvents (store : InMemoryStore Registry) (events : List JobEvent) :
    InMemoryStore Registry :=
  match publishTargets store.inner.ledger events with
  | .ok targets => { store with broadcasters := store.broadcasters.sendAll targets }
  | .error _ => store

theorem publishJobEvents_inner (store : InMemoryStore Registry) (events : List JobEvent) :
    (store.publishJobEvents events).inner = store.inner := by
  unfold publishJobEvents
  split <;> rfl

end InMemoryStore

/-- A call of a store operation, with what is not decided by the state of the store:
what a failing operation has written to its draft, and how the write of the
snapshot ends. -/
structure StoreCall (Registry : Type) where
  operation : StoreOperation
  abandoned : StoreInner Registry → StoreInner Registry
  persistDurableSnapshot : String → StoreInner Registry → StoreResult Unit

/-- The operation on a draft. -/
def StoreCall.mutator (call : StoreCall Registry) (draft : StoreInner Registry) :
    StoreResult call.operation.Response × StoreInner Registry :=
  match call.operation.mutation draft.ledger with
  | .ok (response, ledger) => (.ok response, { draft with ledger })
  | .error error => (.error error, call.abandoned draft)

namespace InMemoryStore

/-- Serve one operation. The lock is held until its events are sent. -/
def serve (store : InMemoryStore Registry) (call : StoreCall Registry) :
    StoreResult call.operation.Response × InMemoryStore Registry :=
  match store.mutate call.persistDurableSnapshot call.mutator with
  | (.error error, store) => (.error error, store)
  | (.ok response, store) =>
    (.ok response, store.publishJobEvents (call.operation.published response))

/-- The store after calls, successful or not, one after the other. -/
def serveAll (store : InMemoryStore Registry) (calls : List (StoreCall Registry)) :
    InMemoryStore Registry :=
  calls.foldl (fun store call => (store.serve call).2) store

theorem serve_cases (store : InMemoryStore Registry) (call : StoreCall Registry) :
    (∃ error, store.serve call = (.error error, store)) ∨
      ∃ response ledger, call.operation.mutation store.inner.ledger = .ok (response, ledger) ∧
        store.serve call = (.ok response, publishJobEvents
          { store with inner := { store.inner with ledger } } (call.operation.published response)) := by
  unfold serve
  rcases store.mutate_cases call.persistDurableSnapshot call.mutator with
    ⟨error, failed⟩ | ⟨response, draft, worked, installed⟩
  · exact .inl ⟨error, by rw [failed]⟩
  · right
    unfold StoreCall.mutator at worked
    split at worked
    · rename_i answer ledger answered
      obtain ⟨same, rfl⟩ := Prod.mk.inj worked
      obtain rfl := Except.ok.inj same
      exact ⟨answer, ledger, answered, by rw [installed]⟩
    · cases (Prod.mk.inj worked).1

/-- A call that fails changes nothing. -/
theorem serve_failed {store : InMemoryStore Registry} {call : StoreCall Registry}
    {error : StoreError} (failed : (store.serve call).1 = .error error) :
    (store.serve call).2 = store := by
  rcases store.serve_cases call with ⟨_, unchanged⟩ | ⟨response, _, _, installed⟩
  · rw [unchanged]
  · rw [installed] at failed
    cases failed

/-- A call that succeeds has performed its operation on the ledger. -/
theorem serve_ok {store after : InMemoryStore Registry} {call : StoreCall Registry}
    {response : call.operation.Response} (served : store.serve call = (.ok response, after)) :
    call.operation.exec store.inner.ledger =
      .ok (after.inner.ledger, call.operation.published response) := by
  rcases store.serve_cases call with ⟨_, failed⟩ | ⟨_, ledger, answered, installed⟩
  · cases failed.symm.trans served
  · obtain ⟨same, rfl⟩ := Prod.mk.inj (installed.symm.trans served)
    obtain rfl := Except.ok.inj same
    rw [publishJobEvents_inner, StoreOperation.exec_of_mutation answered]

theorem serve_run (store : InMemoryStore Registry) (call : StoreCall Registry) :
    Run store.inner.ledger (store.serve call).2.inner.ledger := by
  rcases store.serve_cases call with ⟨_, unchanged⟩ | ⟨response, ledger, answered, installed⟩
  · rw [unchanged]
  · rw [installed, publishJobEvents_inner]
    exact .single (StoreOperation.step_of_mutation answered)

/-- What calls do to the ledger is a run of successful operations. -/
theorem serveAll_run (store : InMemoryStore Registry) (calls : List (StoreCall Registry)) :
    Run store.inner.ledger (store.serveAll calls).inner.ledger := by
  induction calls generalizing store with
  | nil => exact .refl
  | cons call rest ih => exact (store.serve_run call).trans (ih _)

theorem serveAll_reachable (registry : Registry) (durableSnapshotPath : Option String)
    (calls : List (StoreCall Registry)) :
    Reachable ((empty registry durableSnapshotPath).serveAll calls).inner.ledger :=
  serveAll_run (empty registry durableSnapshotPath) calls

end InMemoryStore

end Atelia.Store
