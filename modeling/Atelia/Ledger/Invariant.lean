import Atelia.Ledger.EventLog

/-! The invariant of the ledger: what every stored record satisfies in the state that stores
it. -/

namespace Atelia.Store

open Outcome

/-- Repository roots are distinct, and no repository overlaps a blocked one. -/
structure RepositoriesSound (inner : InMemoryInner) : Prop where
  valid : inner.repositories.Every fun record => validateRepositoryRecord record = .ok ()
  distinct : ∀ first ∈ inner.repositories.records, ∀ second ∈ inner.repositories.records,
    first.rootPath = second.rootPath → first = second
  unblocked : ∀ first ∈ inner.repositories.records, ∀ second ∈ inner.repositories.records,
    repositoryRootsStrictlyOverlap first.rootPath second.rootPath = true →
      first.trustState ≠ .blocked ∧ second.trustState ≠ .blocked
  named : inner.policyDecisions.Every fun decision =>
    inner.repositories.contains decision.repositoryId = true
  blocks : inner.policyDecisions.Every fun decision => isRootScopedRepositoryBlock decision = true →
    ∃ repository, inner.repositories[decision.repositoryId]? = some repository ∧
      ∀ other ∈ inner.repositories.records, other.id ≠ repository.id →
        repositoryRootsStrictlyOverlap repository.rootPath other.rootPath = false

/-- What holds of a stored job. -/
structure JobSound (inner : InMemoryInner) (job : JobRecord) : Prop where
  repository : inner.repositories.contains job.repositoryId = true
  latest : ∃ id event, job.latestEventId = some id ∧ inner.jobEventsById[id]? = some event ∧
    event.refs.jobId = some job.id

/-- What holds of a stored lock decision. -/
structure LockSound (inner : InMemoryInner) (lock : LockDecision) : Prop where
  timing : validateLockDecisionTiming lock = .ok ()
  repository : inner.repositories.contains lock.repositoryId = true
  policy : validateLockPolicy inner lock = .ok ()
  owner : validateLockOwner inner lock = .ok ()

/-- What holds of a stored event. -/
structure EventSound (inner : InMemoryInner) (event : JobEvent) : Prop where
  subject : event.subject.hasValidSubjectId = true
  links : validateEventLinks inner event {} = .ok ()

variable {before after : InMemoryInner} {events : List JobEvent} {admits : JobRecord → Prop}

section Repositories

theorem RepositoriesSound.empty : RepositoriesSound .empty where
  valid := .empty
  distinct := by simp [InMemoryInner.empty, Table.records]
  unblocked := by simp [InMemoryInner.empty, Table.records]
  named := .empty
  blocks := .empty

private theorem RepositoriesSound.distinct_insert (sound : RepositoriesSound before)
    {record : RepositoryRecord} (accepted : RepositoryAccepted before record) :
    ∀ first ∈ Table.records (before.repositories.insert record.id record),
      ∀ second ∈ Table.records (before.repositories.insert record.id record),
        first.rootPath = second.rootPath → first = second := by
  intro first firstMember second secondMember same
  rw [Table.mem_records_insert accepted.fresh] at firstMember secondMember
  rcases firstMember with rfl | firstMember <;> rcases secondMember with rfl | secondMember
  · rfl
  · exact absurd same.symm (accepted.distinct second secondMember)
  · exact absurd same (accepted.distinct first firstMember)
  · exact sound.distinct first firstMember second secondMember same

private theorem RepositoriesSound.unblocked_insert (sound : RepositoriesSound before)
    {record : RepositoryRecord} (accepted : RepositoryAccepted before record) :
    ∀ first ∈ Table.records (before.repositories.insert record.id record),
      ∀ second ∈ Table.records (before.repositories.insert record.id record),
        repositoryRootsStrictlyOverlap first.rootPath second.rootPath = true →
          first.trustState ≠ .blocked ∧ second.trustState ≠ .blocked := by
  intro first firstMember second secondMember overlap
  rw [Table.mem_records_insert accepted.fresh] at firstMember secondMember
  rcases firstMember with rfl | firstMember <;> rcases secondMember with rfl | secondMember
  · simp [repositoryRootsStrictlyOverlap, Path.strictlyOverlap] at overlap
  · exact accepted.unblocked second secondMember overlap
  · rw [repositoryRootsStrictlyOverlap_comm] at overlap
    exact (accepted.unblocked first firstMember overlap).symm
  · exact sound.unblocked first firstMember second secondMember overlap

private theorem RepositoriesSound.blocks_insert (sound : RepositoriesSound before)
    {record : RepositoryRecord} (accepted : RepositoryAccepted before record) :
    before.policyDecisions.Every fun decision => isRootScopedRepositoryBlock decision = true →
      ∃ repository,
        (before.repositories.insert record.id record)[decision.repositoryId]? = some repository ∧
        ∀ other ∈ Table.records (before.repositories.insert record.id record),
          other.id ≠ repository.id →
            repositoryRootsStrictlyOverlap repository.rootPath other.rootPath = false := by
  intro id decision found rootScoped
  obtain ⟨repository, stored, apart⟩ := sound.blocks id decision found rootScoped
  refine ⟨repository, Table.lookup_insert_fresh accepted.fresh stored, ?_⟩
  intro other member different
  rw [Table.mem_records_insert accepted.fresh] at member
  rcases member with rfl | member
  · have uncovered := rootScopedBlockedPolicyOverlappingRepository_eq_none.mp accepted.uncovered
    obtain ⟨covering, storedCovering, clear⟩ :=
      uncovered decision (Table.mem_records.mpr ⟨id, found⟩) rootScoped
    rw [stored, Option.some.injEq] at storedCovering
    rw [storedCovering, repositoryRootsStrictlyOverlap_comm]
    exact clear
  · exact apart other member different

theorem Commit.repositoriesSound (commit : Commit admits before events after) (keyed : Keyed before)
    (sound : RepositoriesSound before) : RepositoriesSound after := by
  have grown := commit.extends keyed
  cases commit
  case createRepository record accepted =>
    exact {
      valid := sound.valid.insert accepted.valid _
      distinct := sound.distinct_insert accepted
      unblocked := sound.unblocked_insert accepted
      named := sound.named.imp fun _ present => grown.contains_repository present
      blocks := sound.blocks_insert accepted }
  case createPolicyDecision record repository scope fresh =>
    have checked := validateRootScopedBlock_eq_ok.mp scope
    exact { sound with
      named := sound.named.insert repository _
      blocks := sound.blocks.insert checked _ }
  all_goals exact { sound with }

end Repositories

variable {event : JobEvent}

section Jobs

theorem JobSound.extends (grown : Extends before after) {job : JobRecord}
    (sound : JobSound before job) : JobSound after job := by
  obtain ⟨id, event, latest, found, named⟩ := sound.latest
  exact {
    repository := grown.contains_repository sound.repository
    latest := ⟨id, event, latest, grown.jobEvents.lookup found, named⟩ }

/-- A job stored with an event of its own is sound. -/
theorem JobSound.of_event {record : JobRecord}
    (repository : before.repositories.contains record.repositoryId = true)
    (named : event.refs.jobId = some record.id) :
    JobSound (before.withJobEvent record event)
      { record with latestEventId := some event.id } where
  repository := repository
  latest := ⟨event.id, before.numbered event, rfl, Table.lookup_insert_same _ _ _, named⟩

/-- An initial event names its job. -/
theorem validateInitialEventForJob_job {record : JobRecord}
    (initial : validateInitialEventForJob record event = .ok ()) :
    event.refs.jobId = some record.id := by
  simp only [validateInitialEventForJob, bind_eq_ok, exists_unit, reject_eq_ok, not_not] at initial
  exact initial.2.1

theorem Commit.jobsSound (commit : Commit admits before events after) (keyed : Keyed before)
    (sound : before.jobs.Every (JobSound before)) : after.jobs.Every (JobSound after) := by
  have grown := commit.extends keyed
  have kept : ∀ job, JobSound before job → JobSound after job := fun _ => JobSound.extends grown
  cases commit
  case createJob admitted repository fresh initial appended =>
    exact sound.insert_imp kept (.of_event repository (validateInitialEventForJob_job initial)) _
  case updateJob found update appended =>
    have repository := (sound _ _ found).repository
    rw [← update.repositoryId] at repository
    exact sound.insert_imp kept (.of_event repository update.eventJob) _
  all_goals exact sound.imp kept

end Jobs

section Locks

theorem LockSound.extends (grown : Extends before after) {lock : LockDecision}
    (sound : LockSound before lock) : LockSound after lock where
  timing := sound.timing
  repository := grown.contains_repository sound.repository
  policy := validateLockPolicy_persists grown sound.policy
  owner := validateLockOwner_persists grown sound.owner

/-- Stored locks are sound, and a scope of a repository has one held lock. -/
structure LocksSound (inner : InMemoryInner) : Prop where
  each : inner.lockDecisions.Every (LockSound inner)
  exclusive : ∀ first ∈ inner.lockDecisions.records, ∀ second ∈ inner.lockDecisions.records,
    first.status = .held → second.status = .held → first.repositoryId = second.repositoryId →
    first.lockedScope = second.lockedScope → first = second

theorem Commit.locksSound (commit : Commit admits before events after) (keyed : Keyed before)
    (sound : LocksSound before) : LocksSound after := by
  have grown := commit.extends keyed
  have kept : ∀ lock, LockSound before lock → LockSound after lock :=
    fun _ => LockSound.extends grown
  cases commit
  case createLockDecision record accepted =>
    have new : LockSound before record :=
      ⟨accepted.timing, accepted.repository, accepted.policy, accepted.owner⟩
    refine ⟨sound.each.insert_imp kept (kept record new) _, ?_⟩
    intro first firstMember second secondMember firstHeld secondHeld repository scope
    simp only [InMemoryInner.withLockDecision, Table.mem_records_insert accepted.fresh]
      at firstMember secondMember
    rcases firstMember with rfl | firstMember <;> rcases secondMember with rfl | secondMember
    · rfl
    · exact absurd scope.symm
        (accepted.uncovered second secondMember firstHeld secondHeld repository.symm)
    · exact absurd scope (accepted.uncovered first firstMember secondHeld firstHeld repository)
    · exact sound.exclusive first firstMember second secondMember firstHeld secondHeld repository
        scope
  all_goals exact ⟨sound.each.imp kept, sound.exclusive⟩

end Locks

section Migrations

variable {record : SchemaMigrationRecord}

/-- A lock that ends, at a moment not before its creation and not after its
update, leaves a valid record. -/
private theorem validateSchemaMigrationRecord_settled {lock : MigrationLockRecord}
    (present : record.migrationLock = some lock) {status : MigrationLockStatus}
    (ended : status ≠ .held) {moment updated : LedgerTimestamp} (late : record.createdAt ≤ moment)
    (bound : moment ≤ updated) (valid : validateSchemaMigrationRecord record = .ok ()) :
    validateSchemaMigrationRecord { record with
      migrationLock := some { lock with status, releasedAt := some moment }
      updatedAt := updated } = .ok () := by
  simp only [validateSchemaMigrationRecord, bind_eq_ok, exists_unit, reject_eq_ok, whenSome_eq_ok,
    not_lt] at valid ⊢
  obtain ⟨named, leader, _, shape⟩ := valid
  refine ⟨named, leader, le_trans late bound, ?_⟩
  split at shape
  · rename_i isLock
    simp only [bind_eq_ok, okOr_eq_ok, present, Option.some.injEq] at shape
    obtain ⟨top, topFound, _, rfl, checked⟩ := shape
    simp only [isLock, if_true, bind_eq_ok, okOr_eq_ok, Option.some.injEq]
    refine ⟨top, topFound, _, rfl, ?_⟩
    simp only [validateMigrationLock, bind_eq_ok, exists_unit, reject_eq_ok] at checked ⊢
    obtain ⟨timeout, leaderShown, sameLeader, created, _⟩ := checked
    refine ⟨timeout, leaderShown, sameLeader, created, ?_⟩
    simp [ended, bind_eq_ok, reject_eq_ok, late, bound]
  · simp [present] at shape

private theorem createdAt_le_updatedAt (valid : validateSchemaMigrationRecord record = .ok ()) :
    record.createdAt ≤ record.updatedAt := by
  simp only [validateSchemaMigrationRecord, bind_eq_ok, exists_unit, reject_eq_ok, not_lt] at valid
  exact valid.2.2.1

theorem expireMigrationLock_valid {now : LedgerTimestamp}
    (valid : validateSchemaMigrationRecord record = .ok ()) :
    validateSchemaMigrationRecord (expireMigrationLock now record) = .ok () := by
  unfold expireMigrationLock
  cases present : record.migrationLock with
  | none => exact valid
  | some lock =>
    dsimp only
    split
    · have late := le_trans (createdAt_le_updatedAt valid) (le_max_right now record.updatedAt)
      exact validateSchemaMigrationRecord_settled present (by decide) late (le_refl _) valid
    · exact valid

theorem releaseMigrationLock_valid {id : SchemaMigrationId} {released : SchemaMigrationRecord}
    {leaderId : String} {releasedAt : LedgerTimestamp}
    (valid : validateSchemaMigrationRecord record = .ok ())
    (release : releaseMigrationLock id record leaderId releasedAt = .ok released) :
    validateSchemaMigrationRecord released = .ok () := by
  simp only [releaseMigrationLock, bind_eq_ok, exists_unit, okOr_eq_ok] at release
  obtain ⟨_, lock, present, _, release⟩ := release
  cases state : lock.status with
  | held =>
    simp only [state, bind_eq_ok, exists_unit, reject_eq_ok, pure_eq_ok, not_lt] at release
    obtain ⟨late, rfl⟩ := release
    have created : record.createdAt = lock.lockedAt := by
      simp only [validateSchemaMigrationRecord, bind_eq_ok, exists_unit] at valid
      obtain ⟨_, _, _, shape⟩ := valid
      split at shape
      · simp only [bind_eq_ok, okOr_eq_ok, present, Option.some.injEq, validateMigrationLock,
          exists_unit, reject_eq_ok, not_not] at shape
        obtain ⟨_, _, _, rfl, _, _, _, created, _⟩ := shape
        exact created
      · simp [present] at shape
    have bound : record.createdAt ≤ releasedAt := by
      rw [created, LedgerTimestamp.le_iff]
      exact late
    exact validateSchemaMigrationRecord_settled present (by decide) bound (le_max_left _ _) valid
  | released =>
    simp only [state, pure_eq_ok] at release
    exact release ▸ valid
  | expired => simp [state] at release

theorem Commit.migrationsSound (commit : Commit admits before events after)
    (sound : before.schemaMigrations.Every fun record =>
      validateSchemaMigrationRecord record = .ok ()) :
    after.schemaMigrations.Every fun record => validateSchemaMigrationRecord record = .ok () := by
  cases commit
  case expireMigrationLocks now =>
    intro id record found
    rw [expireSchemaMigrationLocks_lookup, Option.map_eq_some_iff] at found
    obtain ⟨stored, foundStored, rfl⟩ := found
    exact expireMigrationLock_valid (sound id stored foundStored)
  case createSchemaMigration valid _ _ => exact sound.insert valid _
  case releaseMigrationLock found release =>
    exact sound.insert (releaseMigrationLock_valid (sound _ _ found) release) _
  all_goals exact sound

end Migrations

section Tools

/-- Stored tool records are linked, and an invocation has at most one result. -/
structure ToolsSound (inner : InMemoryInner) : Prop where
  invocations : inner.toolInvocations.Every fun record =>
    validateToolInvocationRefs inner record = .ok ()
  results : inner.toolResults.Every fun record =>
    validateLoadedToolResultRecord inner record = .ok ()
  unique : ∀ first ∈ inner.toolResults.records, ∀ second ∈ inner.toolResults.records,
    first.invocationId = second.invocationId → first = second
  audits : inner.auditRecords.Every fun record => validateAuditRecordRefs inner record = .ok ()

theorem Commit.toolsSound (commit : Commit admits before events after) (keyed : Keyed before)
    (sound : ToolsSound before) : ToolsSound after := by
  have grown := commit.extends keyed
  have invocations : before.toolInvocations.Every fun record =>
      validateToolInvocationRefs after record = .ok () :=
    sound.invocations.imp fun _ => validateToolInvocationRefs_persists grown
  have results : before.toolResults.Every fun record =>
      validateLoadedToolResultRecord after record = .ok () :=
    sound.results.imp fun _ => validateLoadedToolResultRecord_persists grown
  have audits : before.auditRecords.Every fun record =>
      validateAuditRecordRefs after record = .ok () :=
    sound.audits.imp fun _ => validateAuditRecordRefs_persists grown
  cases commit
  case createToolInvocation checked _ =>
    have new := validateToolInvocationRefs_persists grown checked
    exact ⟨invocations.insert new _, results, sound.unique, audits⟩
  case createToolResult record checked fresh =>
    simp only [validateToolResultRefs, bind_eq_ok, exists_unit, reject_eq_ok, Bool.not_eq_true,
      List.any_eq_false, decide_eq_true_eq] at checked
    have new := validateLoadedToolResultRecord_persists grown checked.1
    refine ⟨invocations, results.insert new _, ?_, audits⟩
    intro first firstMember second secondMember same
    simp only [InMemoryInner.withToolResult, Table.mem_records_insert fresh]
      at firstMember secondMember
    rcases firstMember with rfl | firstMember <;> rcases secondMember with rfl | secondMember
    · rfl
    · exact absurd same.symm (checked.2 second secondMember)
    · exact absurd same (checked.2 first firstMember)
    · exact sound.unique first firstMember second secondMember same
  case createAuditRecord checked _ =>
    have new := validateAuditRecordRefs_persists grown checked
    exact ⟨invocations, results, sound.unique, audits.insert new _⟩
  all_goals exact ⟨invocations, results, sound.unique, audits⟩

end Tools

section Events

theorem EventSound.extends (grown : Extends before after) (keyed : Keyed after)
    (sound : EventSound before event) : EventSound after event where
  subject := sound.subject
  links := validateEventLinks_persists grown keyed (PendingRecords.storedIn_none _) sound.links

theorem Appended.sound (appended : Appended before after event) :
    EventSound after (before.numbered event) where
  subject := appended.subject
  links := appended.links

theorem Commit.eventsSound (commit : Commit admits before events after) (keyed : Keyed before)
    (sound : before.jobEventsById.Every (EventSound before)) :
    after.jobEventsById.Every (EventSound after) := by
  have kept : ∀ event, EventSound before event → EventSound after event :=
    fun _ => EventSound.extends (commit.extends keyed) (commit.keyed keyed)
  cases commit
  case createJob appended => exact sound.insert_imp kept appended.sound _
  case appendEvent appended => exact sound.insert_imp kept appended.sound _
  case updateJob appended => exact sound.insert_imp kept appended.sound _
  all_goals exact sound.imp kept

end Events

/-- The invariant of the ledger. -/
structure Sound (inner : InMemoryInner) : Prop where
  repositories : RepositoriesSound inner
  jobs : inner.jobs.Every (JobSound inner)
  locks : LocksSound inner
  migrations : inner.schemaMigrations.Every fun record =>
    validateSchemaMigrationRecord record = .ok ()
  tools : ToolsSound inner
  events : inner.jobEventsById.Every (EventSound inner)

theorem Sound.empty : Sound .empty where
  repositories := .empty
  jobs := .empty
  locks := ⟨.empty, by simp [InMemoryInner.empty, Table.records]⟩
  migrations := .empty
  tools := ⟨.empty, .empty, by simp [InMemoryInner.empty, Table.records], .empty⟩
  events := .empty

theorem Commit.sound (keyed : Keyed before) (commit : Commit admits before events after)
    (sound : Sound before) : Sound after where
  repositories := commit.repositoriesSound keyed sound.repositories
  jobs := commit.jobsSound keyed sound.jobs
  locks := commit.locksSound keyed sound.locks
  migrations := commit.migrationsSound sound.migrations
  tools := commit.toolsSound keyed sound.tools
  events := commit.eventsSound keyed sound.events

/-- Every reachable ledger satisfies the invariant. -/
theorem Reachable.sound {inner : InMemoryInner} (reachable : Reachable inner) : Sound inner :=
  Reachable.induct Sound .empty Commit.sound reachable

end Atelia.Store
