import Atelia.Registry.Operations

/-! Loading a registry from its snapshot. -/

namespace Atelia.Registry

open Outcome

/-- The version at which the chain of previous versions closes, if it does. -/
def detectRollbackCycle (records : Table String ExtensionInstallRecord) (startVersion : String) :
    Option String :=
  Chain.revisits records.contains
    (fun version => records[version]?.bind ExtensionInstallRecord.previousVersion)
    (records.size + 1) [] startVersion

namespace ExtensionRegistrySnapshot

variable (snapshot : ExtensionRegistrySnapshot)

/-- The checks of an install record against the manifest stored beside it. -/
def validateRecordEntry (extensionId : String) (records : Table String ExtensionInstallRecord)
    (version : String) (record : ExtensionInstallRecord) : Except String Unit := do
  let manifests ← okOr snapshot.manifests[extensionId]?
    s!"missing manifests map for extension {extensionId} in snapshot"
  let manifest ← okOr manifests[version]?
    s!"active manifest missing for extension {extensionId} version {version}"
  ensure (record.id = extensionId)
    s!"record id {record.id} does not match extension map key {extensionId}"
  ensure (record.version = version)
    s!"record version {record.version} does not match extension map key {version}"
  whenSome record.previousVersion fun previousVersion => do
    reject (previousVersion = version)
      s!"record {extensionId}:{version} has self-referential previous_version"
    ensure (manifests.contains previousVersion ∧ records.contains previousVersion)
      s!"record {extensionId}:{version} references missing previous_version {previousVersion}"
  whenSome (detectRollbackCycle records version) fun cycleEntryVersion =>
    .error s!"record {extensionId}:{version} has rollback-cycle previous_version chain involving {cycleEntryVersion}"
  ensure (manifest.id = extensionId)
    s!"manifest id {manifest.id} does not match extension map key {extensionId}"
  ensure (manifest.version = version)
    s!"manifest version {manifest.version} does not match extension map key {version}"
  ensure (manifest.provenance.artifactDigest = record.artifactDigest)
    s!"artifact digest mismatch for extension {extensionId} version {version}"
  ensure (manifest.provenance.manifestDigest = record.manifestDigest)
    s!"manifest digest mismatch for extension {extensionId} version {version}"
  ensure (record.source = .fromProvenance manifest.provenance)
    s!"source snapshot mismatch for extension {extensionId} version {version}"

/-- The checks of a manifest against the install record stored beside it. -/
def validateManifestEntry (extensionId version : String) (manifest : ExtensionManifest) :
    Except String Unit := do
  let records ← okOr snapshot.records[extensionId]?
    s!"missing records map for extension {extensionId} in snapshot"
  let record ← okOr records[version]?
    s!"missing record for extension {extensionId} version {version}"
  ensure (manifest.id = extensionId ∧ manifest.version = version)
    s!"manifest key {extensionId}:{version} does not match manifest body {manifest.id}:{manifest.version}"
  ensure (manifest.provenance.artifactDigest = record.artifactDigest)
    s!"record artifact digest mismatch for extension {extensionId} version {version}"
  ensure (manifest.provenance.manifestDigest = record.manifestDigest)
    s!"record manifest digest mismatch for extension {extensionId} version {version}"

def validateActiveVersion (extensionId activeVersion : String) : Except String Unit := do
  let records ← okOr snapshot.records[extensionId]?
    s!"active extension {extensionId} has no record map"
  let _ ← okOr records[activeVersion]?
    s!"active extension {extensionId} references unknown version {activeVersion}"
  let manifests ← okOr snapshot.manifests[extensionId]?
    s!"active extension {extensionId} has no manifest map"
  let _ ← okOr manifests[activeVersion]?
    s!"active extension {extensionId} references unknown manifest version {activeVersion}"

/-- `validate_extension_registry_snapshot`. -/
def validate : Except String Unit := do
  validateExtensionRegistryAuditRecords snapshot.auditRecords
  checkAll (fun (extensionId, records) =>
    checkAll (fun (version, record) =>
      snapshot.validateRecordEntry extensionId records version record) records.toList)
    snapshot.records.toList
  checkAll (fun (extensionId, manifests) =>
    checkAll (fun (version, manifest) =>
      snapshot.validateManifestEntry extensionId version manifest) manifests.toList)
    snapshot.manifests.toList
  checkAll (fun (extensionId, activeVersion) =>
    snapshot.validateActiveVersion extensionId activeVersion) snapshot.activeVersions.toList
  reject (snapshot.blocklist.any fun entry => entry.key.isVulnerabilityId)
    "extension blocklist contains unsupported vulnerability_id key"
  -- install records move on after the event, so their status is not compared
  checkAll (fun record => validateExtensionRegistryAuditTargets snapshot.records record false)
    snapshot.auditRecords

def validateManifests (policy : ManifestValidationPolicy) : Except String Unit :=
  checkAll (fun (extensionId, records) =>
    checkAll (fun (version, record) => do
      let manifest ← okOr (snapshot.manifests.find extensionId version)
        s!"manifest missing for extension {extensionId} version {version}"
      let validated ← (validateManifest manifest (withRecordApprovals policy record)).mapError
        fun error =>
          s!"manifest validation failed for extension {extensionId} version {version}: {error.display}"
      ensure (validated.boundary = record.boundary)
        s!"boundary mismatch for extension {extensionId} version {version}: manifest validates as {debug validated.boundary}, record stores {debug record.boundary}")
      records.toList)
    snapshot.records.toList

def validateWithPolicy (policy : ManifestValidationPolicy) : Except String Unit := do
  snapshot.validate
  snapshot.validateManifests policy

end ExtensionRegistrySnapshot

def ExtensionRegistry.fromSnapshot (snapshot : ExtensionRegistrySnapshot)
    (validationPolicy : ManifestValidationPolicy) : Except String ExtensionRegistry := do
  snapshot.validateWithPolicy validationPolicy
  return { snapshot with validationPolicy }

end Atelia.Registry
