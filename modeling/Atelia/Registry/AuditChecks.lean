import Mathlib.Tactic.Tauto
import Atelia.Registry.ManifestChecks
import Atelia.Registry.Records

/-! The checks of an audit record: on its own, and against the install records it mentions.
-/

namespace Atelia.Registry

open Outcome

def extensionRegistryAuditSchemaVersion : Nat := 1

/-- A check of a manifest field that fails with the text of its error. -/
private def textual (result : ExtensionValidationResult Unit) : Except String Unit :=
  result.mapError ExtensionValidationError.display

def validateAuditReverseDnsId (field value : String) : Except String Unit :=
  textual (requireReverseDnsId field value)

def validateAuditSemver (field value : String) : Except String Unit :=
  textual (requireSemver field value)

def validateAuditDigest (field value : String) : Except String Unit :=
  textual (requireDigest field value)

variable {field other value : String}

/-- Whether a manifest field is valid does not depend on its name. -/
theorem validateAuditReverseDnsId_of_field (valid : requireReverseDnsId other value = .ok ()) :
    validateAuditReverseDnsId field value = .ok () := by
  simp only [validateAuditReverseDnsId, textual, requireReverseDnsId, mapError_eq_ok, bind_eq_ok,
    exists_unit, reject_eq_ok, ensure_eq_ok] at valid ⊢
  exact valid

theorem validateAuditSemver_of_field (valid : requireSemver other value = .ok ()) :
    validateAuditSemver field value = .ok () := by
  simp only [validateAuditSemver, textual, requireSemver, mapError_eq_ok, ensure_eq_ok] at valid ⊢
  exact valid

theorem validateAuditDigest_of_field (valid : requireDigest other value = .ok ()) :
    validateAuditDigest field value = .ok () := by
  simp only [validateAuditDigest, textual, requireDigest, mapError_eq_ok, bind_eq_ok, okOr_eq_ok,
    ensure_eq_ok] at valid ⊢
  exact valid

def validateAuditOptionalTrimmed (field : String) (value : Option String) : Except String Unit :=
  whenSome value fun value => do
    reject (Text.isBlank value) s!"{field} must not be empty"
    reject (Text.trim value ≠ value) s!"{field} must not contain surrounding whitespace"

def requireAuditOptionalValue (field : String) (value : Option String) : Except String Unit :=
  ensure value.isSome s!"{field} must not be empty"

def validateExtensionRegistryAuditRecordRef (field : String)
    (recordRef : ExtensionRegistryAuditRecordRef) : Except String Unit := do
  validateAuditReverseDnsId field recordRef.packageId
  validateAuditSemver field recordRef.version
  validateAuditDigest field recordRef.manifestDigest
  validateAuditDigest field recordRef.artifactDigest

def validateExtensionRegistryAuditProvenance (provenance : ExtensionRegistryAuditProvenance) :
    Except String Unit := do
  validateAuditOptionalTrimmed "audit.provenance.repository" provenance.repository
  validateAuditOptionalTrimmed "audit.provenance.ref" provenance.sourceRef
  validateAuditOptionalTrimmed "audit.provenance.manifest_path" provenance.manifestPath
  validateAuditOptionalTrimmed "audit.provenance.commit" provenance.commit
  validateAuditOptionalTrimmed "audit.provenance.registry_identity" provenance.registryIdentity
  match provenance.source with
  | .github => do
    requireAuditOptionalValue "audit.provenance.repository" provenance.repository
    requireAuditOptionalValue "audit.provenance.ref" provenance.sourceRef
    requireAuditOptionalValue "audit.provenance.manifest_path" provenance.manifestPath
    requireAuditOptionalValue "audit.provenance.commit" provenance.commit
  | .registry =>
    requireAuditOptionalValue "audit.provenance.registry_identity" provenance.registryIdentity
  | .local_ => .ok ()

section Payload

variable (record : ExtensionRegistryAuditRecord)

/-- Audits of the kind have to carry the field. -/
private def requireAuditField (present : Bool) (field : String) : Except String Unit :=
  ensure present s!"{debug record.kind} audits must include {field}"

def requireAuditPackageId : Except String Unit :=
  requireAuditField record record.packageId.isSome "audit.package_id"

def requireAuditPreviousRecord : Except String Unit :=
  requireAuditField record record.previousRecord.isSome "audit.previous_record"

def requireAuditNewRecord : Except String Unit :=
  requireAuditField record record.newRecord.isSome "audit.new_record"

def requireAuditProvenance : Except String Unit :=
  requireAuditField record record.provenance.isSome "audit.provenance"

def validateBlocklistAuditPackageId (keyName packageId : String) : Except String Unit := do
  let auditPackageId ← okOr record.packageId
    s!"blocklist apply audits for {keyName} must include audit.package_id"
  ensure (auditPackageId = packageId)
    s!"audit.package_id {auditPackageId} does not match audit.blocklist_entry extension id {packageId}"

def validateBlocklistAuditRecordRefPackage (field : String)
    (recordRef : Option ExtensionRegistryAuditRecordRef) (packageId : String) : Except String Unit :=
  whenSome recordRef fun recordRef =>
    ensure (recordRef.packageId = packageId)
      s!"{field}.package_id {recordRef.packageId} does not match audit.blocklist_entry extension id {packageId}"

def validateBlocklistAuditRecordRefVersion (field : String)
    (recordRef : Option ExtensionRegistryAuditRecordRef) (packageId version : String) :
    Except String Unit := do
  validateBlocklistAuditRecordRefPackage field recordRef packageId
  whenSome recordRef fun recordRef =>
    ensure (recordRef.version = version)
      s!"{field}.version {recordRef.version} does not match audit.blocklist_entry version {version}"

def rejectUnscopedBlocklistAuditTarget : Except String Unit :=
  reject (record.packageId.isSome ∨ record.previousRecord.isSome ∨ record.newRecord.isSome ∨
      record.provenance.isSome)
    "blocklist apply audits for unscoped blocklist keys must not include package target refs"

def validateBlocklistAuditPayload : Except String Unit := do
  let entry ← okOr record.blocklistEntry
    "blocklist apply audits must include audit.blocklist_entry"
  match entry.key with
  | .extensionId packageId => do
    validateBlocklistAuditPackageId record "extension ids" packageId
    validateBlocklistAuditRecordRefPackage "audit.previous_record" record.previousRecord packageId
    validateBlocklistAuditRecordRefPackage "audit.new_record" record.newRecord packageId
  | .version id version => do
    validateBlocklistAuditPackageId record "versions" id
    validateBlocklistAuditRecordRefVersion "audit.previous_record" record.previousRecord id version
    validateBlocklistAuditRecordRefVersion "audit.new_record" record.newRecord id version
  | .artifactDigest _ | .signer _ | .publisher _ | .sourceRepository _ | .permissionPattern _ =>
    rejectUnscopedBlocklistAuditTarget record
  | .vulnerabilityId _ =>
    .error "blocklist apply audits must not use unsupported vulnerability_id keys"

def validateExtensionRegistryAuditKindPayload : Except String Unit :=
  match record.kind with
  | .install => do
    requireAuditPackageId record
    requireAuditNewRecord record
    requireAuditProvenance record
  | .update | .rollback | .disable | .enable | .publicationUpdate | .registrySubmissionUpdate => do
    requireAuditPackageId record
    requireAuditPreviousRecord record
    requireAuditNewRecord record
    requireAuditProvenance record
  | .remove => do
    requireAuditPackageId record
    requireAuditPreviousRecord record
    requireAuditProvenance record
  | .blocklistApply => validateBlocklistAuditPayload record

/-- An audit record of a package that mentions everything is complete. -/
theorem validateExtensionRegistryAuditKindPayload_eq_ok {record : ExtensionRegistryAuditRecord}
    (packaged : record.kind ≠ .blocklistApply) (packageId : record.packageId.isSome = true)
    (previousRecord : record.previousRecord.isSome = true)
    (newRecord : record.newRecord.isSome = true) (provenance : record.provenance.isSome = true) :
    validateExtensionRegistryAuditKindPayload record = .ok () := by
  have package : requireAuditPackageId record = .ok () := ensure_eq_ok.mpr packageId
  have previous : requireAuditPreviousRecord record = .ok () := ensure_eq_ok.mpr previousRecord
  have new : requireAuditNewRecord record = .ok () := ensure_eq_ok.mpr newRecord
  have source : requireAuditProvenance record = .ok () := ensure_eq_ok.mpr provenance
  unfold validateExtensionRegistryAuditKindPayload
  cases kind : record.kind with
  | blocklistApply => exact absurd kind packaged
  | _ => simp only [package, previous, new, source, bind_eq_ok, exists_unit, and_self]

/-- The checks before the one for a duplicate. -/
def validateAuditHead : Except String Unit := do
  ensure (record.schemaVersion = extensionRegistryAuditSchemaVersion)
    s!"unsupported audit schema_version {record.schemaVersion}"
  reject (Text.isBlank record.reason) "audit.reason must not be empty"
  reject (Text.isBlank record.requestSource) "audit.request_source must not be empty"

/-- The checks after the one for a duplicate. -/
def validateAuditBody : Except String Unit := do
  whenSome record.packageId (validateAuditReverseDnsId "audit.package_id")
  whenSome record.previousRecord (validateExtensionRegistryAuditRecordRef "audit.previous_record")
  whenSome record.newRecord (validateExtensionRegistryAuditRecordRef "audit.new_record")
  whenSome record.provenance validateExtensionRegistryAuditProvenance
  validateExtensionRegistryAuditKindPayload record

def validateExtensionRegistryAuditRecord (seenIds : List AuditRecordId) : Except String Unit := do
  validateAuditHead record
  reject (record.id ∈ seenIds) s!"duplicate audit id {record.id.text}"
  validateAuditBody record

/-- The checks of all records in their order. -/
def validateExtensionRegistryAuditRecords (records : List ExtensionRegistryAuditRecord) :
    Except String Unit :=
  checkUnseen validateAuditHead validateAuditBody ExtensionRegistryAuditRecord.id
    (fun record => s!"duplicate audit id {record.id.text}") records []

/-- A record is valid on its own. -/
def ExtensionRegistryAuditRecord.WellFormed : Prop :=
  validateAuditHead record = .ok () ∧ validateAuditBody record = .ok ()

theorem validateExtensionRegistryAuditRecord_eq_ok {record : ExtensionRegistryAuditRecord}
    {seenIds : List AuditRecordId} :
    validateExtensionRegistryAuditRecord record seenIds = .ok () ↔
      record.WellFormed ∧ record.id ∉ seenIds := by
  simp only [validateExtensionRegistryAuditRecord, bind_eq_ok, exists_unit, reject_eq_ok,
    ExtensionRegistryAuditRecord.WellFormed]
  tauto

theorem validateExtensionRegistryAuditRecords_eq_ok {records : List ExtensionRegistryAuditRecord} :
    validateExtensionRegistryAuditRecords records = .ok () ↔
      (∀ record ∈ records, record.WellFormed) ∧
        (records.map ExtensionRegistryAuditRecord.id).Nodup := by
  simp [validateExtensionRegistryAuditRecords, checkUnseen_eq_ok,
    ExtensionRegistryAuditRecord.WellFormed]

end Payload

section Targets

variable (records : Catalog String String ExtensionInstallRecord)

def validateAuditRecordPackageMatch (field packageId : String)
    (recordRef : ExtensionRegistryAuditRecordRef) : Except String Unit :=
  ensure (recordRef.packageId = packageId)
    s!"{field} {recordRef.packageId} does not match audit.package_id {packageId}"

def validateAuditRecordTarget (field : String) (recordRef : ExtensionRegistryAuditRecordRef)
    (enforceCurrentStatus : Bool) : Except String Unit := do
  let recordVersions ← okOr records[recordRef.packageId]?
    s!"{field} references unknown package {recordRef.packageId}"
  let record ← okOr recordVersions[recordRef.version]?
    s!"{field} references unknown version {recordRef.version} for package {recordRef.packageId}"
  ensure (record.manifestDigest = recordRef.manifestDigest)
    s!"{field} manifest digest does not match persisted record {recordRef.packageId}:{recordRef.version}"
  ensure (record.artifactDigest = recordRef.artifactDigest)
    s!"{field} artifact digest does not match persisted record {recordRef.packageId}:{recordRef.version}"
  reject (enforceCurrentStatus ∧ record.status ≠ recordRef.status)
    s!"{field} status does not match persisted record {recordRef.packageId}:{recordRef.version}"

def validateExtensionRegistryAuditTargets (auditRecord : ExtensionRegistryAuditRecord)
    (enforceCurrentStatus : Bool) : Except String Unit := do
  whenSome auditRecord.packageId fun packageId => do
    whenSome auditRecord.previousRecord
      (validateAuditRecordPackageMatch "audit.previous_record.package_id" packageId)
    whenSome auditRecord.newRecord
      (validateAuditRecordPackageMatch "audit.new_record.package_id" packageId)
  -- the previous record has often been changed by what the audit is about
  whenSome auditRecord.previousRecord fun previousRecord =>
    validateAuditRecordTarget records "audit.previous_record" previousRecord false
  whenSome auditRecord.newRecord fun newRecord =>
    validateAuditRecordTarget records "audit.new_record" newRecord enforceCurrentStatus

/-- Records that keep the digests of the versions keep the targets valid. -/
theorem validateExtensionRegistryAuditTargets_retains
    {records later : Catalog String String ExtensionInstallRecord}
    (kept : Catalog.Retains (fun record next => next.manifestDigest = record.manifestDigest ∧
      next.artifactDigest = record.artifactDigest) records later)
    {auditRecord : ExtensionRegistryAuditRecord} {enforceCurrentStatus : Bool}
    (valid : validateExtensionRegistryAuditTargets records auditRecord enforceCurrentStatus = .ok ()) :
    validateExtensionRegistryAuditTargets later auditRecord false = .ok () := by
  have target {field : String} {recordRef : ExtensionRegistryAuditRecordRef} {enforce : Bool}
      (valid : validateAuditRecordTarget records field recordRef enforce = .ok ()) :
      validateAuditRecordTarget later field recordRef false = .ok () := by
    simp only [validateAuditRecordTarget, bind_eq_ok, okOr_eq_ok, exists_unit, ensure_eq_ok,
      reject_eq_ok] at valid
    obtain ⟨versions, found, record, stored, manifestDigest, artifactDigest, _⟩ := valid
    obtain ⟨next, foundNext, sameManifest, sameArtifact⟩ :=
      kept _ _ record (Catalog.find_eq_some_iff.mpr ⟨versions, found, stored⟩)
    obtain ⟨laterVersions, foundLater, storedLater⟩ := Catalog.find_eq_some_iff.mp foundNext
    simp only [validateAuditRecordTarget, bind_eq_ok, okOr_eq_ok, exists_unit, ensure_eq_ok,
      reject_eq_ok]
    exact ⟨laterVersions, foundLater, next, storedLater, sameManifest.trans manifestDigest,
      sameArtifact.trans artifactDigest, by simp⟩
  simp only [validateExtensionRegistryAuditTargets, bind_eq_ok, exists_unit, whenSome_eq_ok]
    at valid ⊢
  obtain ⟨packages, previous, new⟩ := valid
  exact ⟨packages, fun record found => target (previous record found),
    fun record found => target (new record found)⟩

end Targets

end Atelia.Registry
