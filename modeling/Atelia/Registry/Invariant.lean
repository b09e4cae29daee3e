import Atelia.Registry.Changes
import Atelia.Registry.Consistency

/-! Every operation keeps the registry consistent. -/

namespace Atelia.Registry

open Outcome Attempt

variable {registry : ExtensionRegistry} {extensionId version other : String}
  {manifest : ExtensionManifest} {record : ExtensionInstallRecord}
  {activeVersions : Table String String}

namespace ExtensionRegistrySnapshot.Consistent

section Links

private theorem previousOf_write_same :
    (registry.write extensionId version manifest record activeVersions).previousOf extensionId =
      Function.update (registry.previousOf extensionId) version record.previousVersion := by
  funext other
  by_cases same : other = version
  · subst same
    rw [Function.update_self, previousOf, ExtensionRegistry.write, Catalog.find_store_same,
      Option.bind_some]
  · have apart : ¬ (extensionId = extensionId ∧ version = other) := fun both => same both.2.symm
    rw [Function.update_of_ne same, previousOf, ExtensionRegistry.write,
      Catalog.find_store_other apart, previousOf]

private theorem previousOf_write_other (different : extensionId ≠ other) :
    (registry.write extensionId version manifest record activeVersions).previousOf other =
      registry.previousOf other := by
  funext another
  have apart : ¬ (extensionId = other ∧ version = another) := fun both => different both.1
  rw [previousOf, ExtensionRegistry.write, Catalog.find_store_other apart, previousOf]

end Links

/-- A version that was stored is stored after a write, and so is the written one. -/
private theorem stored_write {another : String}
    (stored : (extensionId = other ∧ version = another) ∨
      ∃ found, registry.records.find other another = some found) :
    ∃ found, (registry.write extensionId version manifest record activeVersions).records.find other
      another = some found := by
  by_cases same : extensionId = other ∧ version = another
  · obtain ⟨rfl, rfl⟩ := same
    exact ⟨record, Catalog.find_store_same _ _ _ _⟩
  · obtain ⟨found, present⟩ := stored.resolve_left same
    exact ⟨found, (Catalog.find_store_other same).trans present⟩

/-- A write keeps the registry consistent when the written parts describe the
version, link it to a stored version that does not lead back, and keep the digests. -/
theorem write (consistent : registry.Consistent)
    (describes : Describes extensionId version manifest record)
    (linked : ∀ previous, record.previousVersion = some previous →
      (∃ found, registry.records.find extensionId previous = some found) ∧
        ¬ Chain.Leads (registry.previousOf extensionId) previous version)
    (digests : ∀ old, registry.records.find extensionId version = some old →
      record.manifestDigest = old.manifestDigest ∧ record.artifactDigest = old.artifactDigest)
    (activated : ∀ other active : String, activeVersions[other]? = some active →
      (extensionId = other ∧ version = active) ∨ registry.activeVersions[other]? = some active) :
    (registry.write extensionId version manifest record activeVersions).Consistent where
  paired other another := by
    by_cases same : extensionId = other ∧ version = another
    · obtain ⟨rfl, rfl⟩ := same
      simp only [ExtensionRegistry.write, Catalog.find_store_same]
      exact .some describes
    · simp only [ExtensionRegistry.write, Catalog.find_store_other same]
      exact consistent.paired other another
  previousStored other another previous link := by
    apply stored_write
    by_cases same : extensionId = other
    · subst same
      rw [previousOf_write_same] at link
      by_cases written : another = version
      · subst written
        rw [Function.update_self] at link
        exact .inr (linked previous link).1
      · rw [Function.update_of_ne written] at link
        exact .inr (consistent.previousStored _ _ _ link)
    · rw [previousOf_write_other same] at link
      exact .inr (consistent.previousStored _ _ _ link)
  acyclic other := by
    by_cases same : extensionId = other
    · subst same
      rw [previousOf_write_same]
      exact (consistent.acyclic extensionId).update fun previous link => (linked previous link).2
    · rw [previousOf_write_other same]
      exact consistent.acyclic other
  activeStored other active found := by
    apply stored_write
    exact (activated other active found).imp_right (consistent.activeStored other active)
  supported := consistent.supported
  auditWellFormed := consistent.auditWellFormed
  auditIds := consistent.auditIds
  auditTargets audit member :=
    validateExtensionRegistryAuditTargets_retains
      (Catalog.Retains.store (fun _ => ⟨rfl, rfl⟩) digests) (consistent.auditTargets audit member)

/-- A write that replaces a stored record and keeps its link and its digests. -/
theorem revise (consistent : registry.Consistent) {old : ExtensionInstallRecord}
    (stored : registry.records.find extensionId version = some old)
    (describes : Describes extensionId version manifest record)
    (sameLink : record.previousVersion = old.previousVersion)
    (manifestDigest : record.manifestDigest = old.manifestDigest)
    (artifactDigest : record.artifactDigest = old.artifactDigest)
    (activated : ∀ other active : String, activeVersions[other]? = some active →
      (extensionId = other ∧ version = active) ∨ registry.activeVersions[other]? = some active) :
    (registry.write extensionId version manifest record activeVersions).Consistent := by
  apply consistent.write describes _ _ activated
  · intro previous linked
    have link : registry.previousOf extensionId version = some previous := by
      rw [previousOf, stored, Option.bind_some, ← sameLink, linked]
    exact ⟨consistent.previousStored _ _ _ link,
      (consistent.acyclic extensionId).not_leads_back link⟩
  · intro found present
    rw [stored, Option.some.injEq] at present
    exact present ▸ ⟨manifestDigest, artifactDigest⟩

/-- A change of the status is a write of the stored manifest. -/
theorem restate_eq_write (consistent : registry.Consistent)
    (stored : registry.records.find extensionId version = some record)
    (status : ExtensionInstallStatus) (activeVersions : Table String String) :
    ∃ manifest, registry.manifests.find extensionId version = some manifest ∧
      Describes extensionId version manifest record ∧
      registry.restate extensionId version record status activeVersions =
        registry.write extensionId version manifest { record with status } activeVersions := by
  obtain ⟨manifest, found, describes⟩ := consistent.manifest_of_record stored
  refine ⟨manifest, found, describes, ?_⟩
  rw [ExtensionRegistry.restate, ExtensionRegistry.write, Catalog.store_of_find found]

theorem restate (consistent : registry.Consistent)
    (stored : registry.records.find extensionId version = some record)
    {status : ExtensionInstallStatus}
    (activated : ∀ other active : String, activeVersions[other]? = some active →
      (extensionId = other ∧ version = active) ∨ registry.activeVersions[other]? = some active) :
    (registry.restate extensionId version record status activeVersions).Consistent := by
  obtain ⟨manifest, _, describes, same⟩ := consistent.restate_eq_write stored status activeVersions
  rw [same]
  apply consistent.revise stored _ (by rfl) (by rfl) (by rfl) activated
  exact { describes with }

end ExtensionRegistrySnapshot.Consistent

variable {active : String}

section Installing

/-- The walk along the links meets every version that the active one leads to. -/
private theorem not_leads_of_installWouldCreateRollbackCycle (consistent : registry.Consistent)
    (activated : registry.activeVersions[extensionId]? = some active)
    (ends : registry.installWouldCreateRollbackCycle extensionId version = false) :
    ¬ Chain.Leads (registry.previousOf extensionId) active version := by
  intro leads
  have sources : ∀ source target, registry.previousOf extensionId source = some target →
      source ∈ (registry.records.editions extensionId).keys.toFinset := by
    intro source target link
    obtain ⟨found, stored, _⟩ := Option.bind_eq_some_iff.mp link
    rw [Catalog.find_eq_editions] at stored
    rw [List.mem_toFinset, Std.ExtTreeMap.mem_keys, Std.ExtTreeMap.mem_iff_contains]
    exact (Table.contains_iff _ _).mpr ⟨found, stored⟩
  have enough : (registry.records.editions extensionId).keys.toFinset.card <
      (registry.records.editions extensionId).size + 1 := by
    have bound := (registry.records.editions extensionId).keys.toFinset_card_le
    rw [Std.ExtTreeMap.length_keys] at bound
    omega
  have met := Chain.meets_of_leads (consistent.acyclic extensionId) sources enough leads
  rw [ExtensionRegistry.installWouldCreateRollbackCycle, activated, met] at ends
  cases ends

/-- The version an installation links to is stored and does not lead back. -/
private theorem linked_previousVersionFor (consistent : registry.Consistent)
    (ends : registry.refusesReinstall extensionId version = false) {previous : String}
    (link : registry.previousVersionFor extensionId version = some previous) :
    (∃ found, registry.records.find extensionId previous = some found) ∧
      ¬ Chain.Leads (registry.previousOf extensionId) previous version := by
  unfold ExtensionRegistry.previousVersionFor at link
  cases activated : registry.activeVersions[extensionId]? with
  | none =>
    rw [activated] at link
    cases link
  | some active =>
    simp only [activated] at link
    by_cases same : active = version
    · subst same
      rw [if_pos rfl] at link
      exact ⟨consistent.previousStored _ _ _ link,
        (consistent.acyclic extensionId).not_leads_back link⟩
    · rw [if_neg same, Option.some.injEq] at link
      subst link
      refine ⟨consistent.activeStored _ _ activated, ?_⟩
      intro leads
      -- a chain can only lead to a version that is stored
      have stored : (registry.records.find extensionId version).isSome = true := by
        rcases Relation.ReflTransGen.cases_tail leads with equal | ⟨middle, _, last⟩
        · exact absurd equal.symm same
        · obtain ⟨found, present⟩ := consistent.previousStored _ _ _ last
          rw [present]
          rfl
      have walked : registry.installWouldCreateRollbackCycle extensionId version = false := by
        simpa [ExtensionRegistry.refusesReinstall, stored, activated, same] using ends
      exact not_leads_of_installWouldCreateRollbackCycle consistent activated walked leads

end Installing

private theorem activated_insert
    (found : (registry.activeVersions.insert extensionId version)[other]? = some active) :
    (extensionId = other ∧ version = active) ∨ registry.activeVersions[other]? = some active := by
  rw [Table.lookup_insert] at found
  split at found
  · exact .inl ⟨‹_›, Option.some.inj found⟩
  · exact .inr found

private theorem activated_erase
    (found : (registry.activeVersions.erase extensionId)[other]? = some active) :
    registry.activeVersions[other]? = some active := by
  rw [Std.ExtTreeMap.getElem?_erase] at found
  split at found
  · cases found
  · exact found

/-- One successful operation. -/
theorem Change.consistent {operation : RegistryOperation} {after : ExtensionRegistry}
    (change : Change registry operation after) (consistent : registry.Consistent) :
    after.Consistent := by
  cases change with
  | install valid unblocked stable approved ends =>
    apply consistent.write ⟨rfl, rfl, rfl, rfl, rfl, rfl, rfl⟩
    · exact fun previous link => linked_previousVersionFor consistent ends link
    · intro old stored
      simp only [ExtensionRegistry.ensureSameVersionDigestIsStable, stored, ensure_eq_ok] at stable
      exact ⟨stable.1.symm, stable.2.symm⟩
    · exact fun other active found => activated_insert found
  | rollback active linked foundManifest unblocked found =>
    exact consistent.restate found fun other active found => activated_insert found
  | disable active found => exact consistent.restate found fun other active found => .inr found
  | enable active foundManifest unblocked found =>
    exact consistent.restate found fun other active found => .inr found
  | remove active found =>
    exact consistent.restate found fun other active found => .inr (activated_erase found)
  | updatePublication active foundManifest found carried valid unblocked =>
    obtain ⟨_, present, describes⟩ := consistent.manifest_of_record found
    obtain rfl := Option.some.inj (foundManifest.symm.trans present)
    apply consistent.revise found _ (by rfl) (by rfl) (by rfl) fun other active found => .inr found
    exact { describes with source := by rw [describes.source]; rfl }
  | @updateRegistrySubmission extensionId version registrySubmission registryIdentity publication record
      manifest submitted boundary active found published foundManifest submits valid unblocked =>
    obtain ⟨_, present, describes⟩ := consistent.manifest_of_record found
    obtain rfl := Option.some.inj (foundManifest.symm.trans present)
    apply consistent.revise found _ (by rfl) (by rfl) (by rfl) fun other active found => .inr found
    subst submits
    unfold ExtensionRegistry.submittedManifest
    split <;> exact { describes with source := rfl }
  | addBlocklistEntry supported =>
    exact { consistent with
      supported := by
        intro entry member
        rcases List.mem_append.mp member with old | new
        · exact consistent.supported entry old
        · exact List.mem_singleton.mp new ▸ supported }
  | appendAuditRecord wellFormed fresh targets =>
    exact { consistent with
      auditWellFormed := by
        intro audit member
        rcases List.mem_append.mp member with old | new
        · exact consistent.auditWellFormed audit old
        · exact List.mem_singleton.mp new ▸ wellFormed
      auditIds := by
        rw [List.map_append, List.map_singleton, List.nodup_append]
        refine ⟨consistent.auditIds, List.nodup_singleton _, ?_⟩
        rintro id old _ new rfl
        exact fresh (List.mem_singleton.mp new ▸ old)
      auditTargets := by
        intro audit member
        rcases List.mem_append.mp member with old | new
        · exact consistent.auditTargets audit old
        · rw [List.mem_singleton.mp new]
          exact validateExtensionRegistryAuditTargets_retains
            (fun _ _ record found => ⟨record, found, rfl, rfl⟩) targets }

theorem consistent_empty : ExtensionRegistrySnapshot.empty.Consistent where
  paired extensionId version := by
    simp only [ExtensionRegistrySnapshot.empty, Catalog.find_empty]
    exact .none
  previousStored extensionId version previous link := by
    simp [ExtensionRegistrySnapshot.previousOf, ExtensionRegistrySnapshot.empty] at link
  acyclic extensionId := by
    have unlinked : ExtensionRegistrySnapshot.empty.previousOf extensionId = fun _ => none := by
      funext version
      simp [ExtensionRegistrySnapshot.previousOf, ExtensionRegistrySnapshot.empty]
    rw [unlinked]
    exact Chain.acyclic_empty
  activeStored extensionId version found := by
    simp [ExtensionRegistrySnapshot.empty] at found
  supported := by simp [ExtensionRegistrySnapshot.empty]
  auditWellFormed := by simp [ExtensionRegistrySnapshot.empty]
  auditIds := List.nodup_nil
  auditTargets := by simp [ExtensionRegistrySnapshot.empty]

end Atelia.Registry
