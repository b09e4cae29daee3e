import Atelia.Ledger.Invariant
import Atelia.Store.Drafts

/-! Migration locks exclude each other. -/

namespace Atelia.Store

open Outcome

variable {inner before after : InMemoryInner} {events : List JobEvent}
  {admits : JobRecord → Prop} {record other : SchemaMigrationRecord} {lock : MigrationLockRecord}
  {moment : LedgerTimestamp}

section Records

/-- A valid record with lock data is a migration lock. -/
theorem isMigrationLock_of_valid (valid : validateSchemaMigrationRecord record = .ok ())
    (present : record.migrationLock = some lock) : record.isMigrationLock = true := by
  simp only [validateSchemaMigrationRecord, bind_eq_ok, exists_unit, present] at valid
  obtain ⟨_, _, _, shape⟩ := valid
  split at shape
  · rename_i named
    simp [SchemaMigrationRecord.isMigrationLock, named, present]
  · simp at shape

theorem holdsLock_iff (valid : validateSchemaMigrationRecord record = .ok ()) :
    record.holdsLock = true ↔ ∃ lock, record.migrationLock = some lock ∧ lock.status = .held := by
  constructor
  · intro holds
    simp only [SchemaMigrationRecord.holdsLock, Bool.and_eq_true] at holds
    cases present : record.migrationLock with
    | none =>
      rw [present] at holds
      cases holds.2
    | some lock =>
      rw [present, Option.any_some, decide_eq_true_eq] at holds
      exact ⟨lock, rfl, holds.2⟩
  · rintro ⟨lock, present, held⟩
    simp [SchemaMigrationRecord.holdsLock, isMigrationLock_of_valid valid present, present, held]

/-- Ending expired locks lets no lock be held that was not. -/
theorem holdsLock_of_expire (holds : (expireMigrationLock moment record).holdsLock = true) :
    record.holdsLock = true := by
  unfold expireMigrationLock at holds
  split at holds
  · exact holds
  · split at holds
    · simp [SchemaMigrationRecord.holdsLock] at holds
    · exact holds

/-- A lock that is active at a moment is left alone when the locks end that have
expired by then. -/
theorem expireMigrationLock_active (present : record.migrationLock = some lock)
    (active : lock.isActive moment = true) : expireMigrationLock moment record = record := by
  simp only [MigrationLockRecord.isActive, Bool.and_eq_true, decide_eq_true_eq] at active
  have unexpired : ¬lock.isExpired moment = true := by
    simp only [MigrationLockRecord.isExpired, decide_eq_true_eq, not_le]
    exact active.2
  simp [expireMigrationLock, present, unexpired]

/-- An active lock is held. -/
theorem holdsLock_of_active (isLock : record.isMigrationLock = true)
    (active : (record.migrationLock.any fun lock => lock.isActive moment) = true) :
    record.holdsLock = true := by
  cases present : record.migrationLock with
  | none =>
    rw [present] at active
    cases active
  | some lock =>
    rw [present, Option.any_some, MigrationLockRecord.isActive, Bool.and_eq_true] at active
    rw [SchemaMigrationRecord.holdsLock, isLock, present]
    exact active.1

/-- A released lock is not held. -/
theorem holdsLock_of_release {id : SchemaMigrationId} {released : SchemaMigrationRecord}
    {leaderId : String} (release : releaseMigrationLock id record leaderId moment = .ok released) :
    released.holdsLock = false := by
  simp only [releaseMigrationLock, bind_eq_ok, exists_unit, okOr_eq_ok] at release
  obtain ⟨_, lock, present, _, release⟩ := release
  cases state : lock.status with
  | held =>
    simp only [state, bind_eq_ok, exists_unit, pure_eq_ok] at release
    obtain ⟨_, rfl⟩ := release
    simp [SchemaMigrationRecord.holdsLock]
  | released =>
    simp only [state, pure_eq_ok] at release
    subst release
    simp [SchemaMigrationRecord.holdsLock, present, state]
  | expired => simp [state] at release

end Records

/-- At most one stored lock is held. -/
def HeldOnce (inner : InMemoryInner) : Prop :=
  ∀ (first second : SchemaMigrationId) (record other : SchemaMigrationRecord),
    inner.schemaMigrations[first]? = some record → inner.schemaMigrations[second]? = some other →
    record.holdsLock = true → other.holdsLock = true → first = second

theorem HeldOnce.expire (once : HeldOnce inner) (moment : LedgerTimestamp) :
    HeldOnce (expireSchemaMigrationLocks inner moment) := by
  intro first second record other found found' holds holds'
  rw [expireSchemaMigrationLocks_lookup, Option.map_eq_some_iff] at found found'
  obtain ⟨stored, foundStored, rfl⟩ := found
  obtain ⟨stored', foundStored', rfl⟩ := found'
  exact once first second stored stored' foundStored foundStored' (holdsLock_of_expire holds)
    (holdsLock_of_expire holds')

/-- A record may be stored that holds no lock, or that finds none held. -/
theorem HeldOnce.insert (once : HeldOnce inner) {id : SchemaMigrationId}
    (free : record.holdsLock = true →
      ∀ other ∈ inner.schemaMigrations.records, other.holdsLock = false) :
    HeldOnce { inner with schemaMigrations := inner.schemaMigrations.insert id record } := by
  have alone : record.holdsLock = true → ∀ (other : SchemaMigrationId) stored,
      inner.schemaMigrations[other]? = some stored → stored.holdsLock = true → False := by
    intro holds other stored found held
    rw [free holds stored (Table.mem_records.mpr ⟨other, found⟩)] at held
    cases held
  intro first second stored stored' found found' holds holds'
  by_cases same : id = first <;> by_cases same' : id = second
  · exact same.symm.trans same'
  · subst same
    rw [Table.lookup_insert_same, Option.some.injEq] at found
    rw [Table.lookup_insert_other same'] at found'
    exact (alone (found ▸ holds) second stored' found' holds').elim
  · subst same'
    rw [Table.lookup_insert_same, Option.some.injEq] at found'
    rw [Table.lookup_insert_other same] at found
    exact (alone (found' ▸ holds') first stored found holds).elim
  · rw [Table.lookup_insert_other same] at found
    rw [Table.lookup_insert_other same'] at found'
    exact once first second stored stored' found found' holds holds'

theorem Commit.heldOnce (commit : Commit admits before events after) (once : HeldOnce before) :
    HeldOnce after := by
  cases commit
  case expireMigrationLocks now => exact once.expire now
  case createSchemaMigration unlocked _ =>
    refine once.insert ?_
    intro holds
    simp only [SchemaMigrationRecord.holdsLock, Bool.and_eq_true] at holds
    exact unlocked holds.1
  case releaseMigrationLock release =>
    refine once.insert ?_
    intro holds
    rw [holdsLock_of_release release] at holds
    cases holds
  all_goals exact once

theorem Reachable.heldOnce (reachable : Reachable inner) : HeldOnce inner := by
  refine Reachable.induct HeldOnce ?_ (fun _ => Commit.heldOnce) reachable
  intro first second record other found
  cases found.symm.trans (Table.empty_lookup first)

section Refusals

theorem latestMigration_mem {records : List SchemaMigrationRecord}
    (latest : latestMigration records = some record) : record ∈ records := by
  cases records with
  | nil => cases latest
  | cons first rest =>
    obtain rfl := Option.some.inj latest
    clear latest
    induction rest generalizing first with
    | nil => exact List.mem_cons_self
    | cons next rest ih =>
      have chosen : laterMigration first next = first ∨ laterMigration first next = next := by
        unfold laterMigration
        split
        · exact .inl rfl
        · exact .inr rfl
      rcases List.mem_cons.mp (ih (laterMigration first next)) with same | member
      · rw [List.foldl_cons, same]
        rcases chosen with chosen | chosen <;> rw [chosen] <;> simp
      · exact List.mem_cons_of_mem _ (List.mem_cons_of_mem _ member)

/-- While a lock is active, the lock that a write finds is that one. -/
theorem HeldOnce.activeMigrationLock_eq (once : HeldOnce inner) {id : SchemaMigrationId}
    (found : inner.schemaMigrations[id]? = some record) (isLock : record.isMigrationLock = true)
    (present : record.migrationLock = some lock) (active : lock.isActive moment = true) :
    activeMigrationLock (expireSchemaMigrationLocks inner moment) moment = some record := by
  have kept : (expireSchemaMigrationLocks inner moment).schemaMigrations[id]? = some record := by
    rw [expireSchemaMigrationLocks_lookup, found, Option.map_some,
      expireMigrationLock_active present active]
  have holds := holdsLock_of_active isLock (by rw [present]; exact active)
  cases scan : activeMigrationLock (expireSchemaMigrationLocks inner moment) moment with
  | none =>
    have free := unheld_of_inactive scan record (Table.mem_records.mpr ⟨id, kept⟩)
    rw [holds] at free
    cases free
  | some other =>
    have listed := latestMigration_mem scan
    rw [List.mem_filter, List.mem_filter] at listed
    obtain ⟨id', found'⟩ := Table.mem_records.mp listed.1.1
    have same := once.expire moment id' id other record found' kept
      (holdsLock_of_active listed.1.2 listed.2) holds
    subst same
    exact congrArg some (Option.some.inj (found'.symm.trans kept))

/-- No lock is acquired while one is active. -/
theorem acquire_refused
    (active : activeMigrationLock (expireSchemaMigrationLocks inner moment) moment = some record)
    {uuid : Uuid} {leaderId : String} {safe : Bool} {timeoutMillis : Nat}
    {response : SchemaMigrationRecord × InMemoryInner} :
    acquireSchemaMigrationLock uuid leaderId safe timeoutMillis moment inner ≠ .ok response := by
  intro succeeded
  simp only [acquireSchemaMigrationLock, bind_eq_ok, exists_unit, active, whenSome_eq_ok] at succeeded
  obtain ⟨_, _, free, _⟩ := succeeded
  cases free record rfl

/-- While a lock is active, a migration is recorded by the leader of the lock only. -/
theorem createSchemaMigration_refused
    (active : activeMigrationLock (expireSchemaMigrationLocks inner moment) moment = some record)
    (present : record.migrationLock = some lock) (ordinary : other.migrationLock = none)
    (written : other.updatedAt = moment) (foreign : other.leaderId ≠ some lock.leaderId)
    {response : Unit × InMemoryInner} : createSchemaMigration other inner ≠ .ok response := by
  intro succeeded
  simp only [createSchemaMigration, bind_eq_ok, exists_unit, ordinary, Option.map_none,
    Option.getD_none, written, active, whenSome_eq_ok, reject_eq_ok, not_not] at succeeded
  obtain ⟨_, free, _⟩ := succeeded
  have leader := (free record rfl).2
  rw [present, Option.map_some, Option.getD_some] at leader
  exact foreign leader

end Refusals

/-- In every state that a store reaches from the empty one, whatever timestamps its
operations are called with and however they end: at most one migration lock is
held, every migration record is valid, nobody acquires a lock and no other leader
records a migration at a moment at which a lock is active, and an operation that
fails changes nothing. -/
theorem migration_locks_exclude {Registry : Type} (registry : Registry)
    (durableSnapshotPath : Option String) (calls : List (StoreCall Registry)) :
    let store := (InMemoryStore.empty registry durableSnapshotPath).serveAll calls
    let migrations := store.inner.ledger.schemaMigrations
    (∀ (first second : SchemaMigrationId) record other lock otherLock,
      migrations[first]? = some record → migrations[second]? = some other →
      record.migrationLock = some lock → other.migrationLock = some otherLock →
      lock.status = .held → otherLock.status = .held → first = second) ∧
    (∀ (id : SchemaMigrationId) record, migrations[id]? = some record →
      validateSchemaMigrationRecord record = .ok ()) ∧
    (∀ (id : SchemaMigrationId) record lock moment, migrations[id]? = some record →
      record.migrationLock = some lock → lock.isActive moment = true →
      (∀ call uuid leaderId safe timeoutMillis, call.operation =
          .acquireSchemaMigrationLock uuid leaderId safe timeoutMillis moment →
        ∃ error, (store.serve call).1 = .error error) ∧
      ∀ call new, call.operation = .createSchemaMigration new → new.migrationLock = none →
        new.updatedAt = moment → new.leaderId ≠ some lock.leaderId →
        ∃ error, (store.serve call).1 = .error error) ∧
    ∀ call error, (store.serve call).1 = .error error → (store.serve call).2 = store := by
  intro store migrations
  have reachable : Reachable store.inner.ledger :=
    InMemoryStore.serveAll_reachable registry durableSnapshotPath calls
  have valid := reachable.sound.migrations
  refine ⟨?_, valid, ?_, ?_⟩
  · intro first second record other lock otherLock found found' present present' held held'
    exact reachable.heldOnce first second record other found found'
      ((holdsLock_iff (valid _ _ found)).mpr ⟨lock, present, held⟩)
      ((holdsLock_iff (valid _ _ found')).mpr ⟨otherLock, present', held'⟩)
  · intro id record lock moment found present active
    have scan := reachable.heldOnce.activeMigrationLock_eq found
      (isMigrationLock_of_valid (valid _ _ found) present) present active
    constructor
    · rintro ⟨operation, abandoned, persist⟩ uuid leaderId safe timeoutMillis rfl
      rcases store.serve_cases ⟨_, abandoned, persist⟩ with
        ⟨error, failed⟩ | ⟨response, ledger, answered, _⟩
      · exact ⟨error, by rw [failed]⟩
      · exact (acquire_refused scan answered).elim
    · rintro ⟨operation, abandoned, persist⟩ new rfl ordinary written foreign
      rcases store.serve_cases ⟨_, abandoned, persist⟩ with
        ⟨error, failed⟩ | ⟨response, ledger, answered, _⟩
      · exact ⟨error, by rw [failed]⟩
      · exact (createSchemaMigration_refused scan present ordinary written foreign answered).elim
  · intro call error failed
    exact InMemoryStore.serve_failed failed

end Atelia.Store
