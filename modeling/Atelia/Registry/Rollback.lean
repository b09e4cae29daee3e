import Mathlib.Data.List.Range
import Mathlib.Order.Interval.Finset.Nat
import Atelia.Registry.Reload

/-! Rolling a package back again and again. -/

namespace Atelia.Registry

open Outcome Attempt

namespace ExtensionRegistry

/-- The registry after a number of rollbacks of a package in a row. -/
def rolledBack (registry : ExtensionRegistry) (extensionId : String) : Nat → ExtensionRegistry
  | 0 => registry
  | calls + 1 => (exec (rollback extensionId) (registry.rolledBack extensionId calls)).2

/-- The answer to the next rollback after a number of them. -/
def rollbackAnswer (registry : ExtensionRegistry) (extensionId : String) (calls : Nat) :
    RegistryResult ExtensionInstallRecord :=
  (exec (rollback extensionId) (registry.rolledBack extensionId calls)).1

/-- Why a rollback of a package in a registry fails: the package is not active, its
active version has no version before it, or the version before it is blocked. -/
inductive RollbackRefusal (registry : ExtensionRegistry) (extensionId : String) :
    RegistryError → Prop where
  | notActive (inactive : registry.activeVersions[extensionId]? = none) :
      RollbackRefusal registry extensionId (.notInstalled extensionId)
  | noPrevious {version : String} {record : ExtensionInstallRecord}
      (active : registry.activeVersions[extensionId]? = some version)
      (stored : registry.records.find extensionId version = some record)
      (unlinked : record.previousVersion = none) :
      RollbackRefusal registry extensionId (.rollbackUnavailable extensionId)
  | previousBlocked {version previous : String} {record : ExtensionInstallRecord}
      {manifest : ExtensionManifest} {entry : BlocklistEntry}
      (active : registry.activeVersions[extensionId]? = some version)
      (stored : registry.records.find extensionId version = some record)
      (linked : record.previousVersion = some previous)
      (storedManifest : registry.manifests.find extensionId previous = some manifest)
      (hit : registry.findBlocklistHit manifest = some entry) :
      RollbackRefusal registry extensionId (.blocked manifest.id entry.reason entry.key)

variable {registry : ExtensionRegistry} {extensionId : String}

section OneRollback

private theorem change_of_rollback {record : ExtensionInstallRecord} {after : ExtensionRegistry}
    (done : exec (rollback extensionId) registry = (.ok record, after)) :
    Change registry (.rollback extensionId) after := by
  have performed : exec (RegistryOperation.perform (.rollback extensionId)) registry =
      (.ok (some record), after) := exec_bind_eq_ok.mpr ⟨record, after, done, rfl⟩
  exact RegistryOperation.change_of_perform performed

/-- A rollback follows a link and keeps every link. -/
private theorem rollback_follows {record : ExtensionInstallRecord} {after : ExtensionRegistry}
    (done : exec (rollback extensionId) registry = (.ok record, after)) :
    ∃ current previous, registry.activeVersions[extensionId]? = some current ∧
      after.activeVersions[extensionId]? = some previous ∧
      Chain.Link (registry.previousOf extensionId) current previous ∧
      after.previousOf extensionId = registry.previousOf extensionId := by
  have change := change_of_rollback done
  cases change with
  | @rollback _ previous _ restored manifest active linked foundManifest unblocked found =>
    obtain ⟨version, activated, stored⟩ := Option.bind_eq_some_iff.mp active
    refine ⟨version, previous, activated, Table.lookup_insert_same _ _ _, ?_, ?_⟩
    · rw [Chain.Link, ExtensionRegistrySnapshot.previousOf, stored]
      exact linked
    · funext other
      simp only [ExtensionRegistrySnapshot.previousOf, ExtensionRegistry.restate, Catalog.find_store]
      split
      · rename_i same
        rw [← same.2, found]
        rfl
      · rfl

/-- A rollback that fails has one of the three reasons. -/
theorem rollback_refused (consistent : registry.Consistent) {error : RegistryError}
    {after : ExtensionRegistry}
    (failed : exec (rollback extensionId) registry = (.error error, after)) :
    RollbackRefusal registry extensionId error := by
  cases activated : registry.activeVersions[extensionId]? with
  | none =>
    have inactive : registry.activeRecord extensionId = none := by
      rw [ExtensionRegistrySnapshot.activeRecord, activated]
      rfl
    simp only [rollback, exec_get_bind, inactive, okOr, exec_check_error_bind, Prod.mk.injEq,
      Except.error.injEq] at failed
    rw [← failed.1]
    exact .notActive activated
  | some version =>
    obtain ⟨record, stored⟩ := consistent.activeStored _ _ activated
    have active : registry.activeRecord extensionId = some record := by
      rw [ExtensionRegistrySnapshot.activeRecord, activated]
      exact stored
    cases linked : record.previousVersion with
    | none =>
      simp only [rollback, exec_get_bind, active, linked, okOr, exec_check_ok_bind,
        exec_check_error_bind, Prod.mk.injEq, Except.error.injEq] at failed
      rw [← failed.1]
      exact .noPrevious activated stored linked
    | some previous =>
      have link : registry.previousOf extensionId version = some previous := by
        rw [ExtensionRegistrySnapshot.previousOf, stored]
        exact linked
      obtain ⟨target, storedTarget⟩ := consistent.previousStored _ _ _ link
      obtain ⟨manifest, storedManifest, _⟩ := consistent.manifest_of_record storedTarget
      cases hit : registry.findBlocklistHit manifest with
      | none =>
        -- nothing is left that could fail
        simp only [rollback, exec_get_bind, active, linked, storedManifest, storedTarget, okOr,
          ExtensionRegistrySnapshot.ensureNotBlocked, hit, exec_check_ok_bind, exec_modify_bind,
          exec_pure, Prod.mk.injEq] at failed
        cases failed.1
      | some entry =>
        simp only [rollback, exec_get_bind, active, linked, storedManifest, okOr,
          ExtensionRegistrySnapshot.ensureNotBlocked, hit, exec_check_ok_bind,
          exec_check_error_bind, Prod.mk.injEq, Except.error.injEq] at failed
        rw [← failed.1]
        exact .previousBlocked activated stored linked storedManifest hit

end OneRollback

section ManyRollbacks

/-- The version that is active after a number of rollbacks. -/
private def versionAfter (registry : ExtensionRegistry) (extensionId : String) (calls : Nat) :
    String :=
  ((registry.rolledBack extensionId calls).activeVersions[extensionId]?).getD ""

/-- Rollbacks that succeed follow the links of the first registry. -/
private theorem link_of_answers {count : Nat}
    (succeeded : ∀ calls < count, ∃ record, registry.rollbackAnswer extensionId calls = .ok record) :
    (registry.rolledBack extensionId count).previousOf extensionId =
        registry.previousOf extensionId ∧
      ∀ calls < count,
        (registry.rolledBack extensionId calls).activeVersions[extensionId]? =
            some (registry.versionAfter extensionId calls) ∧
          (registry.rolledBack extensionId (calls + 1)).activeVersions[extensionId]? =
            some (registry.versionAfter extensionId (calls + 1)) ∧
          Chain.Link (registry.previousOf extensionId) (registry.versionAfter extensionId calls)
            (registry.versionAfter extensionId (calls + 1)) := by
  induction count with
  | zero => exact ⟨rfl, fun calls below => absurd below (Nat.not_lt_zero calls)⟩
  | succ count ih =>
    obtain ⟨kept, links⟩ := ih fun calls below => succeeded calls (Nat.lt_succ_of_lt below)
    obtain ⟨record, answered⟩ := succeeded count (Nat.lt_succ_self count)
    rcases outcome : exec (rollback extensionId) (registry.rolledBack extensionId count) with
      ⟨error | answer, after⟩
    · rw [rollbackAnswer, outcome] at answered
      cases answered
    · have next : registry.rolledBack extensionId (count + 1) = after := by
        rw [rolledBack, outcome]
      obtain ⟨current, previous, active, activeNext, link, sameLinks⟩ :=
        rollback_follows outcome
      refine ⟨by rw [next, sameLinks, kept], ?_⟩
      intro calls below
      rcases Nat.lt_succ_iff_lt_or_eq.mp below with earlier | rfl
      · exact links calls earlier
      · have here : registry.versionAfter extensionId calls = current := by
          rw [versionAfter, active, Option.getD_some]
        have there : registry.versionAfter extensionId (calls + 1) = previous := by
          rw [versionAfter, next, activeNext, Option.getD_some]
        rw [here, there, next]
        exact ⟨active, activeNext, kept ▸ link⟩

private theorem versions_nodup (consistent : registry.Consistent) {count : Nat}
    (succeeded : ∀ calls < count, ∃ record, registry.rollbackAnswer extensionId calls = .ok record) :
    ((List.range (count + 1)).map (registry.versionAfter extensionId)).Nodup := by
  apply (consistent.acyclic extensionId).nodup
  rw [List.isChain_map, List.isChain_range_succ]
  intro calls below
  exact ((link_of_answers succeeded).2 calls below).2.2

/-- Only so many rollbacks in a row succeed. -/
private theorem answers_bound (consistent : registry.Consistent) {count : Nat}
    (succeeded : ∀ calls < count, ∃ record, registry.rollbackAnswer extensionId calls = .ok record) :
    count ≤ (registry.records.editions extensionId).size - 1 := by
  cases count with
  | zero => exact Nat.zero_le _
  | succ count =>
    have links := (link_of_answers succeeded).2
    have stored : (List.range (count + 1 + 1)).map (registry.versionAfter extensionId) ⊆
        (registry.records.editions extensionId).keys := by
      intro version member
      obtain ⟨calls, inRange, rfl⟩ := List.mem_map.mp member
      have found : ∃ record, registry.records.find extensionId
          (registry.versionAfter extensionId calls) = some record := by
        cases calls with
        | zero => exact consistent.activeStored _ _ (links 0 (Nat.succ_pos count)).1
        | succ calls =>
          have below : calls < count + 1 := Nat.lt_of_succ_lt_succ (List.mem_range.mp inRange)
          exact consistent.previousStored _ _ _ (links calls below).2.2
      obtain ⟨record, present⟩ := found
      rw [Catalog.find_eq_editions] at present
      rw [Std.ExtTreeMap.mem_keys, Std.ExtTreeMap.mem_iff_contains]
      exact (Table.contains_iff _ _).mpr ⟨record, present⟩
    have bound := (List.Nodup.subperm (versions_nodup consistent succeeded) stored).length_le
    rw [List.length_map, List.length_range, Std.ExtTreeMap.length_keys] at bound
    omega

/-- A rollback that fails is repeated in vain. -/
private theorem rolledBack_of_failed {count : Nat} {error : RegistryError}
    (failed : registry.rollbackAnswer extensionId count = .error error) {calls : Nat}
    (later : count ≤ calls) :
    registry.rolledBack extensionId calls = registry.rolledBack extensionId count := by
  induction calls, later using Nat.le_induction with
  | base => rfl
  | succ calls _ ih =>
    rcases outcome : exec (rollback extensionId) (registry.rolledBack extensionId count) with
      ⟨reason | record, after⟩
    · have refused : exec (RegistryOperation.perform (.rollback extensionId))
          (registry.rolledBack extensionId count) = (.error reason, after) := by
        rw [RegistryOperation.perform, exec_bind, outcome]
      rw [rolledBack, ih, outcome]
      exact RegistryOperation.perform_atomic _ _ _ _ refused
    · rw [rollbackAnswer, outcome] at failed
      cases failed

private theorem exists_first_failure (consistent : registry.Consistent) (extensionId : String) :
    ∃ count, (∀ calls < count, ∃ record, registry.rollbackAnswer extensionId calls = .ok record) ∧
      ∃ error, registry.rollbackAnswer extensionId count = .error error := by
  have fails : ∃ count error, registry.rollbackAnswer extensionId count = .error error := by
    by_contra never
    have always : ∀ calls < (registry.records.editions extensionId).size + 1,
        ∃ record, registry.rollbackAnswer extensionId calls = .ok record := by
      intro calls _
      cases answer : registry.rollbackAnswer extensionId calls with
      | ok record => exact ⟨record, rfl⟩
      | error error => exact absurd ⟨calls, error, answer⟩ never
    have bound := answers_bound consistent always
    omega
  classical
  refine ⟨Nat.find fails, ?_, Nat.find_spec fails⟩
  intro calls below
  have early := Nat.find_min fails below
  cases answer : registry.rollbackAnswer extensionId calls with
  | ok record => exact ⟨record, rfl⟩
  | error error => exact absurd ⟨error, answer⟩ early

end ManyRollbacks

end ExtensionRegistry

open ExtensionRegistry

/-- In every registry that operations lead to, rolling a package back again and
again succeeds a number of times that is below the number of its stored versions,
with a different version active each time, and fails from then on. A rollback
fails because the package is not active, because there is no version before the
active one, or because that version is blocked. -/
theorem rollback_ends (policy : ManifestValidationPolicy) (operations : List RegistryOperation)
    (extensionId : String) :
    (∃ count ≤
        (((new policy).performAll operations).records.editions extensionId).size - 1,
      (∀ calls < count, ∃ record,
        ((new policy).performAll operations).rollbackAnswer extensionId calls = .ok record) ∧
      (∀ calls ≥ count, ∃ error,
        ((new policy).performAll operations).rollbackAnswer extensionId calls = .error error) ∧
      ∀ first second, first < second → second ≤ count →
        (((new policy).performAll operations).rolledBack extensionId
            first).activeVersions[extensionId]? ≠
          (((new policy).performAll operations).rolledBack extensionId
            second).activeVersions[extensionId]?) ∧
    ∀ error,
      (exec (rollback extensionId) ((new policy).performAll operations)).1 = .error error →
        RollbackRefusal ((new policy).performAll operations) extensionId error := by
  have consistent : ((new policy).performAll operations).Consistent :=
    performAll_consistent consistent_empty operations
  generalize (new policy).performAll operations = registry at consistent
  refine ⟨?_, ?_⟩
  · obtain ⟨count, succeeded, error, failed⟩ := exists_first_failure consistent extensionId
    refine ⟨count, answers_bound consistent succeeded, succeeded, ?_, ?_⟩
    · intro calls later
      refine ⟨error, ?_⟩
      rw [rollbackAnswer, rolledBack_of_failed failed later]
      exact failed
    · intro first second before within same
      have equal : registry.versionAfter extensionId first =
          registry.versionAfter extensionId second := by
        rw [versionAfter, versionAfter, same]
      have apart := List.inj_on_of_nodup_map (versions_nodup consistent succeeded)
        (List.mem_range.mpr (by omega)) (List.mem_range.mpr (by omega)) equal
      omega
  · intro error failed
    rcases outcome : exec (rollback extensionId) registry with ⟨reason | record, after⟩
    · rw [outcome] at failed
      obtain rfl := Except.error.inj failed
      exact rollback_refused consistent outcome
    · rw [outcome] at failed
      cases failed

end Atelia.Registry
