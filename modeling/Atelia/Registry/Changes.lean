import Atelia.Registry.Operations

/-! What operations on the registry change. -/

namespace Atelia.Registry

open Outcome Attempt

namespace ExtensionRegistry

/-- Write the manifest and the install record of a version. -/
def write (registry : ExtensionRegistry) (extensionId version : String)
    (manifest : ExtensionManifest) (record : ExtensionInstallRecord)
    (activeVersions : Table String String) : ExtensionRegistry :=
  { registry with
    manifests := registry.manifests.store extensionId version manifest
    records := registry.records.store extensionId version record
    activeVersions }

/-- Give the install record of a version another status. -/
def restate (registry : ExtensionRegistry) (extensionId version : String)
    (record : ExtensionInstallRecord) (status : ExtensionInstallStatus)
    (activeVersions : Table String String) : ExtensionRegistry :=
  { registry with
    records := registry.records.store extensionId version { record with status }
    activeVersions }

/-- The manifest that a change of the registry submission has validated. -/
def submittedManifest (manifest : ExtensionManifest) (publication : ExtensionPublication)
    (registrySubmission : ExtensionRegistrySubmission) (registryIdentity : Option String) :
    ExtensionManifest :=
  let manifest := if (Text.trimOptional manifest.provenance.registryIdentity).isNone then
    manifest.withRegistryIdentity (Text.trimOptional registryIdentity) else manifest
  manifest.withPublication (some { publication with registrySubmission })

end ExtensionRegistry

theorem validateManifest_manifest {manifest : ExtensionManifest} {policy : ManifestValidationPolicy}
    {validated : ValidatedExtensionManifest}
    (valid : validateManifest manifest policy = .ok validated) : validated.manifest = manifest := by
  simp only [validateManifest, bind_eq_ok, exists_unit, pure_eq_ok] at valid
  obtain ⟨_, _, _, _, _, _, rfl⟩ := valid
  rfl

theorem ExtensionRegistrySnapshot.ensureNotBlocked_eq_ok {registry : ExtensionRegistrySnapshot}
    {manifest : ExtensionManifest} :
    registry.ensureNotBlocked manifest = .ok () ↔ registry.findBlocklistHit manifest = none := by
  unfold ensureNotBlocked
  cases registry.findBlocklistHit manifest <;> simp

/-- Everything a successful operation does. -/
inductive Change (before : ExtensionRegistry) : RegistryOperation → ExtensionRegistry → Prop where
  | install {manifest : ExtensionManifest} {options : InstallOptions} {boundary : ExtensionBoundary}
      (valid : validateManifest manifest (before.policyWith options) = .ok ⟨manifest, boundary⟩)
      (unblocked : before.findBlocklistHit manifest = none)
      (stable : before.ensureSameVersionDigestIsStable manifest = .ok ())
      (approved : before.ensureSourceChangeIsApproved manifest options = .ok ())
      (ends : before.refusesReinstall manifest.id manifest.version = false) :
      Change before (.install manifest options)
        (before.write manifest.id manifest.version manifest
          (before.installRecord ⟨manifest, boundary⟩ (before.policyWith options))
          (before.activeVersions.insert manifest.id manifest.version))
  | rollback {extensionId previous : String} {current record : ExtensionInstallRecord}
      {manifest : ExtensionManifest} (active : before.activeRecord extensionId = some current)
      (linked : current.previousVersion = some previous)
      (foundManifest : before.manifests.find extensionId previous = some manifest)
      (unblocked : before.findBlocklistHit manifest = none)
      (found : before.records.find extensionId previous = some record) :
      Change before (.rollback extensionId)
        (before.restate extensionId previous record .installedPreviousVersion
          (before.activeVersions.insert extensionId previous))
  | disable {extensionId version : String} {record : ExtensionInstallRecord}
      (active : before.activeVersions[extensionId]? = some version)
      (found : before.records.find extensionId version = some record) :
      Change before (.disable extensionId)
        (before.restate extensionId version record .disabled before.activeVersions)
  | enable {extensionId version : String} {record : ExtensionInstallRecord}
      {manifest : ExtensionManifest} (active : before.activeVersions[extensionId]? = some version)
      (foundManifest : before.manifests.find extensionId version = some manifest)
      (unblocked : before.findBlocklistHit manifest = none)
      (found : before.records.find extensionId version = some record) :
      Change before (.enable extensionId)
        (before.restate extensionId version record .installed before.activeVersions)
  | remove {extensionId version : String} {record : ExtensionInstallRecord}
      (active : before.activeVersions[extensionId]? = some version)
      (found : before.records.find extensionId version = some record) :
      Change before (.remove extensionId)
        (before.restate extensionId version record .disabled
          (before.activeVersions.erase extensionId))
  | updatePublication {extensionId version : String} {publication written : ExtensionPublication}
      {record : ExtensionInstallRecord} {manifest : ExtensionManifest}
      {boundary : ExtensionBoundary} (active : before.activeVersions[extensionId]? = some version)
      (foundManifest : before.manifests.find extensionId version = some manifest)
      (found : before.records.find extensionId version = some record)
      (carried : ExtensionRegistry.carriedSubmission record publication = written)
      (valid : validateManifest (manifest.withPublication (some written))
        (withRecordApprovals before.validationPolicy record) =
          .ok ⟨manifest.withPublication (some written), boundary⟩)
      (unblocked : before.findBlocklistHit (manifest.withPublication (some written)) = none) :
      Change before (.updatePublication extensionId publication)
        (before.write extensionId version (manifest.withPublication (some written))
          { record with source := { record.source with publication := some written } }
          before.activeVersions)
  | updateRegistrySubmission {extensionId version : String}
      {registrySubmission : ExtensionRegistrySubmission} {registryIdentity : Option String}
      {publication : ExtensionPublication} {record : ExtensionInstallRecord}
      {manifest submitted : ExtensionManifest} {boundary : ExtensionBoundary}
      (active : before.activeVersions[extensionId]? = some version)
      (found : before.records.find extensionId version = some record)
      (published : record.source.publication = some publication)
      (foundManifest : before.manifests.find extensionId version = some manifest)
      (submits : ExtensionRegistry.submittedManifest manifest publication registrySubmission
        registryIdentity = submitted)
      (valid : validateManifest submitted (withRecordApprovals before.validationPolicy record) =
        .ok ⟨submitted, boundary⟩)
      (unblocked : before.findBlocklistHit submitted = none) :
      Change before (.updateRegistrySubmission extensionId registrySubmission registryIdentity)
        (before.write extensionId version
          (submitted.withRegistryIdentity (Text.trimOptional submitted.provenance.registryIdentity))
          { record with
            source := .fromProvenance (submitted.withRegistryIdentity
              (Text.trimOptional submitted.provenance.registryIdentity)).provenance }
          before.activeVersions)
  | addBlocklistEntry {entry : BlocklistEntry} (supported : entry.key.isVulnerabilityId = false) :
      Change before (.addBlocklistEntry entry)
        { before with blocklist := before.blocklist ++ [entry] }
  | appendAuditRecord {record : ExtensionRegistryAuditRecord} (wellFormed : record.WellFormed)
      (fresh : record.id ∉ before.auditRecords.map ExtensionRegistryAuditRecord.id)
      (targets : validateExtensionRegistryAuditTargets before.records record true = .ok ()) :
      Change before (.appendAuditRecord record)
        { before with auditRecords := before.auditRecords ++ [record] }

theorem Change.append_inv {before after : ExtensionRegistry} {record : ExtensionRegistryAuditRecord}
    (change : Change before (.appendAuditRecord record) after) :
    record.WellFormed ∧ after = { before with auditRecords := before.auditRecords ++ [record] } := by
  cases change with
  | appendAuditRecord wellFormed fresh targets => exact ⟨wellFormed, rfl⟩

section Failures

/-- Whatever an operation writes, it writes after its last check. -/
theorem RegistryOperation.perform_atomic (operation : RegistryOperation) :
    Atomic operation.perform := by
  -- read the registry and check, then only write
  cases operation <;> apply Atomic.bind_pure
  case addBlocklistEntry => exact .check_bind fun _ _ => (Succeeds.of_modify _).atomic
  all_goals
    refine .get_bind fun _ => .check_bind fun _ _ => .check_bind fun _ _ => ?_
    with_reducible
      repeat refine .check_bind fun _ _ => ?_
      apply Succeeds.atomic
      repeat apply Succeeds.modify_bind
      first | exact .of_pure _ | exact .of_modify _

end Failures

namespace RegistryOperation

/-- The package an operation is about. -/
def target : RegistryOperation → Option String
  | install manifest _ => some manifest.id
  | rollback extensionId | disable extensionId | enable extensionId | remove extensionId =>
    some extensionId
  | updatePublication extensionId _ => some extensionId
  | updateRegistrySubmission extensionId _ _ => some extensionId
  | addBlocklistEntry _ | appendAuditRecord _ => none

/-- The operation has made one of the changes, and its answer is a record that it
has stored. -/
structure Performed (before : ExtensionRegistry) (operation : RegistryOperation)
    (answer : Option ExtensionInstallRecord) (after : ExtensionRegistry) : Prop where
  change : Change before operation after
  stored : ∀ record, answer = some record → ∃ extensionId version,
    operation.target = some extensionId ∧ after.records.find extensionId version = some record

variable {before after : ExtensionRegistry} {answer : Option ExtensionInstallRecord}
  {operation : RegistryOperation}

private theorem Performed.of_stored {extensionId version : String} {record : ExtensionInstallRecord}
    (change : Change before operation after) (about : operation.target = some extensionId)
    (stored : after.records.find extensionId version = some record) :
    Performed before operation (some record) after where
  change := change
  stored := by
    intro other same
    cases same
    exact ⟨extensionId, version, about, stored⟩

private theorem Performed.of_change (change : Change before operation after) :
    Performed before operation none after where
  change := change
  stored := fun record same => absurd same.symm (Option.some_ne_none record)

private theorem performed_install {manifest : ExtensionManifest} {options : InstallOptions}
    {record : ExtensionInstallRecord}
    (succeeded : exec (ExtensionRegistry.install manifest options) before = (.ok record, after)) :
    Performed before (.install manifest options) (some record) after := by
  simp only [ExtensionRegistry.install, exec_get_bind, exec_check_bind_eq_ok, exec_modify_bind,
    exec_pure, reject_eq_ok, exists_unit, Prod.exists, Bool.not_eq_true, Prod.mk.injEq,
    Except.ok.injEq] at succeeded
  obtain ⟨validated, policy, checked, ends, rfl, rfl⟩ := succeeded
  simp only [ExtensionRegistry.runValidationChecks, bind_eq_ok, mapError_eq_ok, pure_eq_ok, exists_unit,
    ExtensionRegistrySnapshot.ensureNotBlocked_eq_ok, Prod.mk.injEq] at checked
  obtain ⟨⟨_, boundary⟩, valid, unblocked, stable, approved, rfl, rfl⟩ := checked
  obtain rfl := validateManifest_manifest valid
  exact .of_stored (.install valid unblocked stable approved ends) rfl (Catalog.find_store_same ..)

/-- A successful operation is one of the changes. -/
theorem performed (succeeded : exec operation.perform before = (.ok answer, after)) :
    Performed before operation answer after := by
  cases operation <;> obtain ⟨_, done, rfl⟩ := exec_bind_pure_eq_ok.mp succeeded
  case install => exact performed_install done
  case rollback =>
    simp only [ExtensionRegistry.rollback, exec_get_bind, exec_check_bind_eq_ok, exec_modify_bind,
      exec_pure, okOr_eq_ok, exists_unit, Prod.mk.injEq, Except.ok.injEq,
      ExtensionRegistrySnapshot.ensureNotBlocked_eq_ok] at done
    obtain ⟨current, active, previous, linked, manifest, foundManifest, unblocked, record, found, rfl,
      rfl⟩ := done
    exact .of_stored (.rollback active linked foundManifest unblocked found) rfl
      (Catalog.find_store_same ..)
  case disable =>
    simp only [ExtensionRegistry.disable, exec_get_bind, exec_check_bind_eq_ok, exec_modify_bind,
      exec_pure, okOr_eq_ok, Prod.mk.injEq, Except.ok.injEq] at done
    obtain ⟨version, active, record, found, rfl, rfl⟩ := done
    exact .of_stored (.disable active found) rfl (Catalog.find_store_same ..)
  case enable =>
    simp only [ExtensionRegistry.enable, exec_get_bind, exec_check_bind_eq_ok, exec_modify_bind,
      exec_pure, okOr_eq_ok, exists_unit, Prod.mk.injEq, Except.ok.injEq,
      ExtensionRegistrySnapshot.ensureNotBlocked_eq_ok] at done
    obtain ⟨version, active, manifest, foundManifest, unblocked, record, found, rfl, rfl⟩ := done
    exact .of_stored (.enable active foundManifest unblocked found) rfl (Catalog.find_store_same ..)
  case remove =>
    simp only [ExtensionRegistry.remove, exec_get_bind, exec_check_bind_eq_ok, exec_modify_bind,
      exec_pure, okOr_eq_ok, Prod.mk.injEq, Except.ok.injEq] at done
    obtain ⟨version, active, record, found, rfl, rfl⟩ := done
    exact .of_stored (.remove active found) rfl (Catalog.find_store_same ..)
  case updatePublication =>
    simp only [ExtensionRegistry.updatePublication, exec_get_bind, exec_check_bind_eq_ok,
      exec_modify_bind, exec_pure, okOr_eq_ok, exists_unit, Prod.mk.injEq, Except.ok.injEq,
      mapError_eq_ok, ExtensionRegistrySnapshot.ensureNotBlocked_eq_ok] at done
    obtain ⟨version, active, manifest, foundManifest, record, found, ⟨_, boundary⟩, valid, unblocked,
      rfl, rfl⟩ := done
    obtain rfl := validateManifest_manifest valid
    exact .of_stored (.updatePublication active foundManifest found rfl valid unblocked) rfl
      (Catalog.find_store_same ..)
  case updateRegistrySubmission =>
    simp only [ExtensionRegistry.updateRegistrySubmission, exec_get_bind, exec_check_bind_eq_ok,
      exec_modify_bind, exec_pure, okOr_eq_ok, exists_unit, Prod.mk.injEq, Except.ok.injEq,
      mapError_eq_ok, ExtensionRegistrySnapshot.ensureNotBlocked_eq_ok] at done
    obtain ⟨version, active, record, found, publication, published, manifest, foundManifest, _,
      ⟨_, boundary⟩, valid, unblocked, rfl, rfl⟩ := done
    obtain rfl := validateManifest_manifest valid
    exact .of_stored (.updateRegistrySubmission active found published foundManifest rfl valid unblocked)
      rfl (Catalog.find_store_same ..)
  case addBlocklistEntry =>
    simp only [ExtensionRegistry.addBlocklistEntry, exec_check_bind_eq_ok, exec_modify, reject_eq_ok,
      exists_unit, Bool.not_eq_true, Prod.mk.injEq] at done
    obtain ⟨supported, -, rfl⟩ := done
    exact .of_change (.addBlocklistEntry supported)
  case appendAuditRecord =>
    simp only [ExtensionRegistry.appendAuditRecord, exec_get_bind, exec_check_bind_eq_ok, exec_modify,
      mapError_eq_ok, exists_unit, Prod.mk.injEq, validateExtensionRegistryAuditRecord_eq_ok] at done
    obtain ⟨⟨wellFormed, fresh⟩, targets, -, rfl⟩ := done
    exact .of_change (.appendAuditRecord wellFormed fresh targets)

theorem change_of_perform (succeeded : exec operation.perform before = (.ok answer, after)) :
    Change before operation after :=
  (performed succeeded).change

end RegistryOperation

end Atelia.Registry
