import Atelia.Foundation.Attempt
import Atelia.Foundation.Chain
import Atelia.Registry.AuditChecks

/-! The extension registry and its operations. -/

namespace Atelia.Registry

open Outcome Attempt

/-- What the registry persists: the manifest and the install record of every
version, the version of each package that is active, the blocklist and the audit
trail. -/
structure ExtensionRegistrySnapshot where
  manifests : Catalog String String ExtensionManifest
  records : Catalog String String ExtensionInstallRecord
  activeVersions : Table String String
  blocklist : List BlocklistEntry
  auditRecords : List ExtensionRegistryAuditRecord

def ExtensionRegistrySnapshot.empty : ExtensionRegistrySnapshot where
  manifests := ∅
  records := ∅
  activeVersions := ∅
  blocklist := []
  auditRecords := []

structure ExtensionRegistry extends ExtensionRegistrySnapshot where
  validationPolicy : ManifestValidationPolicy

abbrev RegistryAction (α : Type) : Type := Attempt ExtensionRegistry RegistryError α

namespace ExtensionRegistrySnapshot

variable (registry : ExtensionRegistrySnapshot)

def activeRecord (extensionId : String) : Option ExtensionInstallRecord :=
  registry.activeVersions[extensionId]?.bind (registry.records.find extensionId)

def activeManifest (extensionId : String) : Option ExtensionManifest :=
  registry.activeVersions[extensionId]?.bind (registry.manifests.find extensionId)

/-- The version a version was installed over. -/
def previousOf (extensionId version : String) : Option String :=
  (registry.records.find extensionId version).bind ExtensionInstallRecord.previousVersion

def findBlocklistHit (manifest : ExtensionManifest) : Option BlocklistEntry :=
  registry.blocklist.find? fun entry => entry.matchesManifest manifest

def ensureNotBlocked (manifest : ExtensionManifest) : RegistryResult Unit :=
  match registry.findBlocklistHit manifest with
  | some entry => .error (.blocked manifest.id entry.reason entry.key)
  | none => .ok ()

end ExtensionRegistrySnapshot

def ExtensionManifest.withPublication (manifest : ExtensionManifest)
    (publication : Option ExtensionPublication) : ExtensionManifest :=
  { manifest with provenance := { manifest.provenance with publication } }

def ExtensionManifest.withRegistryIdentity (manifest : ExtensionManifest)
    (registryIdentity : Option String) : ExtensionManifest :=
  { manifest with provenance := { manifest.provenance with registryIdentity } }

namespace ExtensionRegistry

def new (validationPolicy : ManifestValidationPolicy) : ExtensionRegistry :=
  { ExtensionRegistrySnapshot.empty with validationPolicy }

def snapshot (registry : ExtensionRegistry) : ExtensionRegistrySnapshot :=
  registry.toExtensionRegistrySnapshot

section Installation

variable (registry : ExtensionRegistry)

def ensureSameVersionDigestIsStable (manifest : ExtensionManifest) : RegistryResult Unit :=
  match registry.records.find manifest.id manifest.version with
  | none => .ok ()
  | some existing =>
    ensure (existing.manifestDigest = manifest.provenance.manifestDigest ∧
        existing.artifactDigest = manifest.provenance.artifactDigest)
      (.digestConflict manifest.id manifest.version)

def ensureSourceChangeIsApproved (manifest : ExtensionManifest) (options : InstallOptions) :
    RegistryResult Unit :=
  match registry.activeRecord manifest.id with
  | none => .ok ()
  | some current =>
    let next := ExtensionSourceSnapshot.fromProvenance manifest.provenance
    ensure (current.source.matchesAuthority next ∨ options.approveSourceChange = some true)
      (.sourceChangeRequiresApproval manifest.id)

/-- The policy of the registry with the choices of one installation. -/
def policyWith (options : InstallOptions) : ManifestValidationPolicy :=
  { registry.validationPolicy with
    allowLocalUnsigned :=
      options.approveLocalUnsigned.getD registry.validationPolicy.allowLocalUnsigned
    allowLocalProcessRuntime :=
      options.allowLocalProcessRuntime.getD registry.validationPolicy.allowLocalProcessRuntime }

def runValidationChecks (manifest : ExtensionManifest) (options : InstallOptions) :
    RegistryResult (ValidatedExtensionManifest × ManifestValidationPolicy) := do
  let validationPolicy := registry.policyWith options
  let validated ← (validateManifest manifest validationPolicy).mapError .validation
  registry.ensureNotBlocked validated.manifest
  registry.ensureSameVersionDigestIsStable validated.manifest
  registry.ensureSourceChangeIsApproved validated.manifest options
  return (validated, validationPolicy)

/-- The loop visits every stored version at most once. -/
def installWouldCreateRollbackCycle (extensionId version : String) : Bool :=
  Chain.meets (registry.previousOf extensionId) version
    ((registry.records.editions extensionId).size + 1) [] registry.activeVersions[extensionId]?

/-- A version that is installed again keeps the version before it; any other is
installed over the active one. -/
def previousVersionFor (extensionId version : String) : Option String :=
  match registry.activeVersions[extensionId]? with
  | none => none
  | some activeVersion =>
    if activeVersion = version then registry.previousOf extensionId activeVersion
    else some activeVersion

/-- The install record of a manifest that passed its checks. -/
def installRecord (validated : ValidatedExtensionManifest)
    (validationPolicy : ManifestValidationPolicy) : ExtensionInstallRecord where
  id := validated.manifest.id
  version := validated.manifest.version
  manifestDigest := validated.manifest.provenance.manifestDigest
  artifactDigest := validated.manifest.provenance.artifactDigest
  source := .fromProvenance validated.manifest.provenance
  boundary := validated.boundary
  status := .installed
  previousVersion := registry.previousVersionFor validated.manifest.id validated.manifest.version
  approvedPermissions := validated.manifest.permissions.keys
  rollbackSnapshot := some {
    manifestDigest := validated.manifest.provenance.manifestDigest
    artifactDigest := validated.manifest.provenance.artifactDigest }
  approvedLocalUnsigned := validationPolicy.allowLocalUnsigned
  approvedLocalProcessRuntime := validationPolicy.allowLocalProcessRuntime

/-- Reinstalling the version would make a version its own predecessor. -/
def refusesReinstall (extensionId version : String) : Bool :=
  (registry.records.find extensionId version).isSome &&
    (registry.activeVersions[extensionId]?.any fun activeVersion => activeVersion ≠ version) &&
    registry.installWouldCreateRollbackCycle extensionId version

end Installation

def install (manifest : ExtensionManifest) (options : InstallOptions) :
    RegistryAction ExtensionInstallRecord := do
  let registry ← get
  let (validated, validationPolicy) ← check (registry.runValidationChecks manifest options)
  let id := validated.manifest.id
  let version := validated.manifest.version
  check (reject (registry.refusesReinstall id version) (.validation (.invalidField "version"
    s!"version {version} is already installed for {id} but inactive")))
  let record := registry.installRecord validated validationPolicy
  modify fun registry =>
    { registry with manifests := registry.manifests.store record.id record.version validated.manifest }
  modify fun registry =>
    { registry with records := registry.records.store record.id record.version record }
  modify fun registry =>
    { registry with activeVersions := registry.activeVersions.insert record.id record.version }
  return record

/-- Preflight: the checks of an installation. -/
def validate (registry : ExtensionRegistry) (manifest : ExtensionManifest)
    (options : InstallOptions) : RegistryResult ValidatedExtensionManifest := do
  let (validated, _) ← registry.runValidationChecks manifest options
  return validated

section Lifecycle

variable (extensionId : String)

def rollback : RegistryAction ExtensionInstallRecord := do
  let registry ← get
  let current ← check (okOr (registry.activeRecord extensionId) (.notInstalled extensionId))
  let previousVersion ← check (okOr current.previousVersion (.rollbackUnavailable extensionId))
  let previousManifest ← check (okOr (registry.manifests.find extensionId previousVersion)
    (.rollbackUnavailable extensionId))
  check (registry.ensureNotBlocked previousManifest)
  let previousRecord ← check (okOr (registry.records.find extensionId previousVersion)
    (.rollbackUnavailable extensionId))
  modify fun registry =>
    { registry with activeVersions := registry.activeVersions.insert extensionId previousVersion }
  let previousRecord := { previousRecord with status := .installedPreviousVersion }
  modify fun registry =>
    { registry with records := registry.records.store extensionId previousVersion previousRecord }
  return previousRecord

def disable : RegistryAction ExtensionInstallRecord := do
  let registry ← get
  let version ← check (okOr registry.activeVersions[extensionId]? (.notInstalled extensionId))
  let record ← check (okOr (registry.records.find extensionId version) (.notInstalled extensionId))
  let record := { record with status := .disabled }
  modify fun registry =>
    { registry with records := registry.records.store extensionId version record }
  return record

def enable : RegistryAction ExtensionInstallRecord := do
  let registry ← get
  let version ← check (okOr registry.activeVersions[extensionId]? (.notInstalled extensionId))
  let manifest ← check (okOr (registry.manifests.find extensionId version)
    (.notInstalled extensionId))
  check (registry.ensureNotBlocked manifest)
  let record ← check (okOr (registry.records.find extensionId version) (.notInstalled extensionId))
  let record := { record with status := .installed }
  modify fun registry =>
    { registry with records := registry.records.store extensionId version record }
  return record

def remove : RegistryAction ExtensionInstallRecord := do
  let registry ← get
  let version ← check (okOr registry.activeVersions[extensionId]? (.notInstalled extensionId))
  let record ← check (okOr (registry.records.find extensionId version) (.notInstalled extensionId))
  modify fun registry =>
    { registry with activeVersions := registry.activeVersions.erase extensionId }
  let record := { record with status := .disabled }
  modify fun registry =>
    { registry with records := registry.records.store extensionId version record }
  return record

end Lifecycle

section Publication

/-- A submission that the registry has received is not taken back by a change of
the publication. -/
def carriedSubmission (record : ExtensionInstallRecord) (publication : ExtensionPublication) :
    ExtensionPublication :=
  match record.source.publication.map ExtensionPublication.registrySubmission with
  | some .submitted => { publication with registrySubmission := .submitted }
  | some .accepted => { publication with registrySubmission := .accepted }
  | some .rejected => { publication with registrySubmission := .rejected }
  | _ => publication

def updatePublication (extensionId : String) (publication : ExtensionPublication) :
    RegistryAction ExtensionInstallRecord := do
  let registry ← get
  let version ← check (okOr registry.activeVersions[extensionId]? (.notInstalled extensionId))
  let manifest ← check (okOr (registry.manifests.find extensionId version)
    (.notInstalled extensionId))
  let record ← check (okOr (registry.records.find extensionId version) (.notInstalled extensionId))
  let publication := carriedSubmission record publication
  let manifest := manifest.withPublication (some publication)
  let effectivePolicy := withRecordApprovals registry.validationPolicy record
  let _ ← check ((validateManifest manifest effectivePolicy).mapError .validation)
  check (registry.ensureNotBlocked manifest)
  modify fun registry =>
    { registry with manifests := registry.manifests.store extensionId version manifest }
  let record := { record with source := { record.source with publication := some publication } }
  modify fun registry =>
    { registry with records := registry.records.store extensionId version record }
  return record

def updateRegistrySubmission (extensionId : String)
    (registrySubmission : ExtensionRegistrySubmission) (registryIdentity : Option String) :
    RegistryAction ExtensionInstallRecord := do
  let registry ← get
  let version ← check (okOr registry.activeVersions[extensionId]? (.notInstalled extensionId))
  let record ← check (okOr (registry.records.find extensionId version) (.notInstalled extensionId))
  let existingPublication ← check (okOr record.source.publication
    (.validation (.missingField "provenance.publication")))
  let manifest ← check (okOr (registry.manifests.find extensionId version)
    (.notInstalled extensionId))
  let existingRegistryIdentity := Text.trimOptional manifest.provenance.registryIdentity
  let registryIdentity := Text.trimOptional registryIdentity
  check (reject (existingRegistryIdentity.isSome ∧ registryIdentity.isSome ∧
    existingRegistryIdentity ≠ registryIdentity) (.sourceChangeRequiresApproval extensionId))
  let manifest := if existingRegistryIdentity.isNone then
    manifest.withRegistryIdentity registryIdentity else manifest
  let manifest := manifest.withPublication (some { existingPublication with registrySubmission })
  let effectivePolicy := withRecordApprovals registry.validationPolicy record
  let _ ← check ((validateManifest manifest effectivePolicy).mapError .validation)
  check (registry.ensureNotBlocked manifest)
  let manifest := manifest.withRegistryIdentity
    (Text.trimOptional manifest.provenance.registryIdentity)
  modify fun registry =>
    { registry with manifests := registry.manifests.store extensionId version manifest }
  let record := { record with source := .fromProvenance manifest.provenance }
  modify fun registry =>
    { registry with records := registry.records.store extensionId version record }
  return record

end Publication

def addBlocklistEntry (entry : BlocklistEntry) : RegistryAction Unit := do
  check (reject entry.key.isVulnerabilityId (.unsupportedBlocklistKey entry.key))
  modify fun registry => { registry with blocklist := registry.blocklist ++ [entry] }

def appendAuditRecord (record : ExtensionRegistryAuditRecord) : RegistryAction Unit := do
  let registry ← get
  let seenIds := registry.auditRecords.map ExtensionRegistryAuditRecord.id
  check ((validateExtensionRegistryAuditRecord record seenIds).mapError fun reason =>
    .validation (.invalidField "audit.record" reason))
  check ((validateExtensionRegistryAuditTargets registry.records record true).mapError fun reason =>
    .validation (.invalidField "audit.record" reason))
  modify fun registry => { registry with auditRecords := registry.auditRecords ++ [record] }

end ExtensionRegistry

/-- An operation on the registry with its arguments. -/
inductive RegistryOperation where
  | install (manifest : ExtensionManifest) (options : InstallOptions)
  | rollback (extensionId : String)
  | disable (extensionId : String)
  | enable (extensionId : String)
  | remove (extensionId : String)
  | updatePublication (extensionId : String) (publication : ExtensionPublication)
  | updateRegistrySubmission (extensionId : String)
      (registrySubmission : ExtensionRegistrySubmission) (registryIdentity : Option String)
  | addBlocklistEntry (entry : BlocklistEntry)
  | appendAuditRecord (record : ExtensionRegistryAuditRecord)

namespace RegistryOperation

/-- Carry the operation out; it answers the install record it has written. -/
def perform : RegistryOperation → RegistryAction (Option ExtensionInstallRecord)
  | install manifest options => do return some (← ExtensionRegistry.install manifest options)
  | rollback extensionId => do return some (← ExtensionRegistry.rollback extensionId)
  | disable extensionId => do return some (← ExtensionRegistry.disable extensionId)
  | enable extensionId => do return some (← ExtensionRegistry.enable extensionId)
  | remove extensionId => do return some (← ExtensionRegistry.remove extensionId)
  | updatePublication extensionId publication => do
    return some (← ExtensionRegistry.updatePublication extensionId publication)
  | updateRegistrySubmission extensionId registrySubmission registryIdentity => do
    return some (← ExtensionRegistry.updateRegistrySubmission extensionId registrySubmission
      registryIdentity)
  | addBlocklistEntry entry => do
    ExtensionRegistry.addBlocklistEntry entry
    return none
  | appendAuditRecord record => do
    ExtensionRegistry.appendAuditRecord record
    return none

end RegistryOperation

/-- The registry after operations, successful or not, one after the other. -/
def ExtensionRegistry.performAll (registry : ExtensionRegistry)
    (operations : List RegistryOperation) : ExtensionRegistry :=
  operations.foldl (fun registry operation => (exec operation.perform registry).2) registry

end Atelia.Registry
