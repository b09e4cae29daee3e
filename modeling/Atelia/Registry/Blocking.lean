import Atelia.Registry.Queries
import Atelia.Registry.Reload

/-! The blocklist over whole runs. -/

namespace Atelia.Registry

open Outcome Attempt

namespace RegistryOperation

/-- The package whose active version the operation chooses, revives or rewrites. -/
def activates : RegistryOperation → Option String
  | install manifest _ => some manifest.id
  | rollback extensionId => some extensionId
  | enable extensionId => some extensionId
  | updatePublication extensionId _ => some extensionId
  | updateRegistrySubmission extensionId _ _ => some extensionId
  | disable _ | remove _ | addBlocklistEntry _ | appendAuditRecord _ => none

end RegistryOperation

namespace ExtensionRegistrySnapshot

/-- The manifest of the active version matches no entry of the blocklist. -/
def Clear (registry : ExtensionRegistrySnapshot) (extensionId : String) : Prop :=
  ∃ manifest, registry.activeManifest extensionId = some manifest ∧
    ∀ entry ∈ registry.blocklist, entry.matchesManifest manifest = false

/-- The manifest of the active version matches an entry of the blocklist. -/
def Blocked (registry : ExtensionRegistrySnapshot) (extensionId : String) : Prop :=
  ∃ manifest, registry.activeManifest extensionId = some manifest ∧
    ∃ entry ∈ registry.blocklist, entry.matchesManifest manifest = true

variable {registry before after : ExtensionRegistrySnapshot} {manifest : ExtensionManifest}
  {extensionId version : String}

theorem findBlocklistHit_eq_none :
    registry.findBlocklistHit manifest = none ↔
      ∀ entry ∈ registry.blocklist, entry.matchesManifest manifest = false := by
  simp [findBlocklistHit]

theorem Blocked.hit (blocked : registry.Blocked extensionId)
    (active : registry.activeManifest extensionId = some manifest) :
    registry.findBlocklistHit manifest ≠ none := by
  intro unblocked
  obtain ⟨_, found, entry, member, matching⟩ := blocked
  obtain rfl := Option.some.inj (found.symm.trans active)
  rw [findBlocklistHit_eq_none.mp unblocked entry member] at matching
  cases matching

theorem Clear.of_active (active : registry.activeManifest extensionId = some manifest)
    (unblocked : registry.findBlocklistHit manifest = none) : registry.Clear extensionId :=
  ⟨manifest, active, findBlocklistHit_eq_none.mp unblocked⟩

theorem activeManifest_eq_find (active : registry.activeVersions[extensionId]? = some version) :
    registry.activeManifest extensionId = registry.manifests.find extensionId version := by
  rw [activeManifest, active, Option.bind_some]

/-- A blocked package stays blocked while its active manifest stays. -/
theorem Blocked.mono (blocked : before.Blocked extensionId)
    (kept : after.activeManifest extensionId = before.activeManifest extensionId)
    (listed : before.blocklist ⊆ after.blocklist) : after.Blocked extensionId := by
  obtain ⟨manifest, active, entry, member, matching⟩ := blocked
  exact ⟨manifest, kept.trans active, entry, listed member, matching⟩

end ExtensionRegistrySnapshot

open ExtensionRegistrySnapshot

section Matching

variable {registry : ExtensionRegistrySnapshot} {manifest : ExtensionManifest}

/-- Matching looks neither at the publication nor at the registry identity. -/
theorem findBlocklistHit_withPublication (publication : Option ExtensionPublication) :
    registry.findBlocklistHit (manifest.withPublication publication) =
      registry.findBlocklistHit manifest := rfl

theorem findBlocklistHit_submittedManifest (publication : ExtensionPublication)
    (registrySubmission : ExtensionRegistrySubmission) (registryIdentity : Option String) :
    registry.findBlocklistHit (ExtensionRegistry.submittedManifest manifest publication
      registrySubmission registryIdentity) = registry.findBlocklistHit manifest := by
  unfold ExtensionRegistry.submittedManifest
  rw [findBlocklistHit_withPublication]
  split <;> rfl

end Matching

section Steps

variable {before after : ExtensionRegistry} {operation : RegistryOperation}
  {extensionId other version : String} {manifest : ExtensionManifest}
  {record : ExtensionInstallRecord} {status : ExtensionInstallStatus}
  {activeVersions : Table String String}

theorem ExtensionRegistry.write_activeManifest (active : activeVersions[extensionId]? = some version) :
    (before.write extensionId version manifest record activeVersions).activeManifest extensionId =
      some manifest := by
  have found : (before.write extensionId version manifest record activeVersions).activeManifest
      extensionId = (before.manifests.store extensionId version manifest).find extensionId version :=
    activeManifest_eq_find active
  exact found.trans (Catalog.find_store_same ..)

theorem ExtensionRegistry.write_activeManifest_other (different : extensionId ≠ other)
    (kept : activeVersions[other]? = before.activeVersions[other]?) :
    (before.write extensionId version manifest record activeVersions).activeManifest other =
      before.activeManifest other := by
  simp only [ExtensionRegistry.write, ExtensionRegistrySnapshot.activeManifest, kept]
  congr 1
  funext another
  exact Catalog.find_store_other (fun same => different same.1)

/-- What an operation activates is not blocked afterwards. -/
theorem Change.clear (change : Change before operation after)
    (activates : operation.activates = some extensionId) : after.Clear extensionId := by
  cases change with
  | install valid unblocked stable approved ends =>
    obtain rfl := Option.some.inj activates
    exact Clear.of_active
      (ExtensionRegistry.write_activeManifest Std.ExtTreeMap.getElem?_insert_self) unblocked
  | rollback active linked foundManifest unblocked found =>
    obtain rfl := Option.some.inj activates
    exact Clear.of_active
      ((activeManifest_eq_find Std.ExtTreeMap.getElem?_insert_self).trans foundManifest) unblocked
  | enable active foundManifest unblocked found =>
    obtain rfl := Option.some.inj activates
    exact Clear.of_active ((activeManifest_eq_find active).trans foundManifest) unblocked
  | updatePublication active foundManifest found carried valid unblocked =>
    obtain rfl := Option.some.inj activates
    exact Clear.of_active (ExtensionRegistry.write_activeManifest active) unblocked
  | updateRegistrySubmission active found published foundManifest submits valid unblocked =>
    obtain rfl := Option.some.inj activates
    exact Clear.of_active (ExtensionRegistry.write_activeManifest active) unblocked
  | disable active found => cases activates
  | remove active found => cases activates
  | addBlocklistEntry supported => cases activates
  | appendAuditRecord wellFormed fresh targets => cases activates

/-- A package stays blocked unless it is removed or another version takes over. -/
theorem Change.blocked (change : Change before operation after) (blocked : before.Blocked extensionId) :
    after.Blocked extensionId ∨ operation = .remove extensionId ∨
      operation = .rollback extensionId ∨
      ∃ manifest options, operation = .install manifest options ∧ manifest.id = extensionId := by
  cases change with
  | @install manifest options boundary valid unblocked stable approved ends =>
    by_cases same : manifest.id = extensionId
    · exact .inr (.inr (.inr ⟨manifest, options, rfl, same⟩))
    · refine .inl (blocked.mono ?_ (List.Subset.refl _))
      exact ExtensionRegistry.write_activeManifest_other same
        (Std.ExtTreeMap.getElem?_insert.trans (if_neg (by simpa using same)))
  | @rollback acted previous current record manifest active linked foundManifest unblocked found =>
    by_cases same : acted = extensionId
    · exact .inr (.inr (.inl (congrArg _ same)))
    · refine .inl (blocked.mono ?_ (List.Subset.refl _))
      simp [ExtensionRegistry.restate, ExtensionRegistrySnapshot.activeManifest,
        Std.ExtTreeMap.getElem?_insert, same]
  | disable active found => exact .inl (blocked.mono rfl (List.Subset.refl _))
  | enable active foundManifest unblocked found => exact .inl (blocked.mono rfl (List.Subset.refl _))
  | @remove acted version record active found =>
    by_cases same : acted = extensionId
    · exact .inr (.inl (congrArg _ same))
    · refine .inl (blocked.mono ?_ (List.Subset.refl _))
      simp [ExtensionRegistry.restate, ExtensionRegistrySnapshot.activeManifest,
        Std.ExtTreeMap.getElem?_erase, same]
  | @updatePublication acted version _ _ _ _ _ active foundManifest found carried valid unblocked =>
    by_cases same : acted = extensionId
    · -- the change would have been refused
      subst same
      rw [findBlocklistHit_withPublication] at unblocked
      exact absurd unblocked (blocked.hit ((activeManifest_eq_find active).trans foundManifest))
    · exact .inl (blocked.mono (ExtensionRegistry.write_activeManifest_other same rfl)
        (List.Subset.refl _))
  | @updateRegistrySubmission acted version _ _ _ _ _ _ _ active found published foundManifest submits
      valid unblocked =>
    by_cases same : acted = extensionId
    · subst same submits
      rw [findBlocklistHit_submittedManifest] at unblocked
      exact absurd unblocked (blocked.hit ((activeManifest_eq_find active).trans foundManifest))
    · exact .inl (blocked.mono (ExtensionRegistry.write_activeManifest_other same rfl)
        (List.Subset.refl _))
  | addBlocklistEntry supported =>
    exact .inl (blocked.mono rfl (List.subset_append_left _ _))
  | appendAuditRecord wellFormed fresh targets =>
    exact .inl (blocked.mono rfl (List.Subset.refl _))

end Steps

section Answers

variable {registry : ExtensionRegistrySnapshot} {extensionId : String}

theorem extensionStatus_of_blocked (consistent : registry.Consistent)
    (blocked : registry.Blocked extensionId) :
    ∃ status, registry.extensionStatus extensionId = .ok status ∧ status.record.status = .blocked := by
  have ⟨manifest, active, _⟩ := blocked
  obtain ⟨version, chosen, stored⟩ := Option.bind_eq_some_iff.mp active
  obtain ⟨record, found, _⟩ := consistent.record_of_manifest stored
  have activeRecord : registry.activeRecord extensionId = some record := by
    rw [ExtensionRegistrySnapshot.activeRecord, chosen, Option.bind_some, found]
  obtain ⟨entry, hit⟩ := Option.ne_none_iff_exists'.mp (blocked.hit active)
  simp [extensionStatus, active, activeRecord, hit, okOr]

theorem not_blocked_of_authorize {request : ServiceCallRequest} {grant : ServiceCallGrant}
    (granted : registry.authorizeServiceCall request = .ok grant) :
    ¬ registry.Blocked request.callerExtensionId ∧ ¬ registry.Blocked request.calleeExtensionId := by
  simp only [authorizeServiceCall, bind_eq_ok, exists_unit, okOr_eq_ok, ensureNotBlocked_eq_ok]
    at granted
  obtain ⟨_, _, caller, callerActive, callee, calleeActive, callerClear, calleeClear, _⟩ := granted
  exact ⟨fun blocked => blocked.hit callerActive callerClear,
    fun blocked => blocked.hit calleeActive calleeClear⟩

end Answers

/-- In every state of every run: a successful operation on the active version of a
package leaves it clear of the blocklist; a blocked package stays blocked until it
is removed or a version that is clear takes over, and is reported as blocked; and a
service call is granted only between packages that are not blocked. -/
theorem blocklist_fails_closed (policy : ManifestValidationPolicy)
    (operations : List RegistryOperation) (registry : ExtensionRegistry)
    (reached : (ExtensionRegistry.new policy).performAll operations = registry) :
    (∀ (operation : RegistryOperation) answer after extensionId,
      exec operation.perform registry = (.ok answer, after) →
        operation.activates = some extensionId → after.Clear extensionId) ∧
    (∀ extensionId, registry.Blocked extensionId →
      (∃ status, registry.extensionStatus extensionId = .ok status ∧
        status.record.status = .blocked) ∧
      ∀ operation : RegistryOperation, ¬ (exec operation.perform registry).2.Blocked extensionId →
        operation = .remove extensionId ∨
        (operation = .rollback extensionId ∨
          ∃ manifest options, operation = .install manifest options ∧ manifest.id = extensionId) ∧
        (exec operation.perform registry).2.Clear extensionId) ∧
    ∀ request grant, registry.authorizeServiceCall request = .ok grant →
      ¬ registry.Blocked request.callerExtensionId ∧ ¬ registry.Blocked request.calleeExtensionId := by
  have consistent : registry.Consistent := reached ▸ performAll_consistent consistent_empty operations
  refine ⟨?_, ?_, fun request grant => not_blocked_of_authorize⟩
  · intro operation answer after extensionId succeeded activates
    exact (RegistryOperation.change_of_perform succeeded).clear activates
  · intro extensionId blocked
    refine ⟨extensionStatus_of_blocked consistent blocked, ?_⟩
    intro operation left
    rcases perform_cases registry operation with ⟨error, failed⟩ | ⟨answer, after, done, change⟩
    · rw [failed] at left
      exact absurd blocked left
    · rw [done] at left ⊢
      rcases change.blocked blocked with still | removed | rolledBack | ⟨manifest, options, rfl, named⟩
      · exact absurd still left
      · exact .inl removed
      · exact .inr ⟨.inl rolledBack, change.clear (by rw [rolledBack]; rfl)⟩
      · exact .inr ⟨.inr ⟨manifest, options, rfl, named⟩, change.clear (congrArg some named)⟩

/-- A package is installed and blocked. -/
def notesBlocked : List RegistryOperation :=
  [.install (notesManifest "1.0.0" 'a') noOptions,
    .addBlocklistEntry ⟨.publisher " Example", .userBlocked, none⟩]

theorem blocklist_fails_closed_notes :
    ((ExtensionRegistry.new .default).performAll notesBlocked).Blocked "dev.example.notes" ∧
    ∃ status,
      ((ExtensionRegistry.new .default).performAll notesBlocked).extensionStatus
        "dev.example.notes" = .ok status ∧ status.record.status = .blocked := by
  have blocked : ((ExtensionRegistry.new .default).performAll notesBlocked).Blocked
      "dev.example.notes" :=
    ⟨notesManifest "1.0.0" 'a', by decide +kernel, ⟨.publisher " Example", .userBlocked, none⟩,
      by decide +kernel, by decide⟩
  exact ⟨blocked, ((blocklist_fails_closed .default notesBlocked _ rfl).2.1 _ blocked).1⟩

end Atelia.Registry
