import Atelia.Service.Packages

/-! What the service answers about packages without changing any: the details of an
installed package with a preview of its rollback, and the index of packages. -/

namespace Atelia.Service

open Registry Outcome

structure ExtensionStatusResponse where
  extensionId : String
  record : Option ExtensionInstallRecord
  block : Option ExtensionBlocklistMatch
  deriving DecidableEq

def ExtensionStatusResponse.ofSnapshot (status : ExtensionStatusSnapshot) :
    ExtensionStatusResponse where
  extensionId := status.extensionId
  record := some status.record
  block := status.block

structure PackageInspectResponse where
  extension : ExtensionStatusResponse
  manifest : ExtensionManifest
  block : Option ExtensionBlocklistMatch
  permissions : List String
  services : ExtensionServices
  rollbackAvailable : Bool
  rollbackSnapshot : Option RollbackSnapshot
  source : ExtensionSourceSnapshot
  trust : Option ExtensionPublication
  deriving DecidableEq

section Inspection

variable (registry : ExtensionRegistry)

def extensionStatus (extensionId : String) : Except ServiceError ExtensionStatusResponse :=
  (ExtensionStatusResponse.ofSnapshot <$> registry.extensionStatus extensionId).mapError
    .extensionRegistry

/-- The digests of the version before, unless it is blocked. -/
def rollbackPreview (extensionId : String) (record : ExtensionInstallRecord) :
    Option RollbackSnapshot :=
  let previousManifest := record.previousVersion.bind (registry.manifests.find extensionId)
  let permitted := previousManifest.filter fun manifest =>
    !registry.blocklist.any fun entry => entry.matchesManifest manifest
  permitted.map fun manifest => {
    manifestDigest := manifest.provenance.manifestDigest
    artifactDigest := manifest.provenance.artifactDigest }

def packageInspect (extensionId : String) : Except ServiceError PackageInspectResponse := do
  let extension ← extensionStatus registry extensionId
  let record ← okOr extension.record
    (.internal s!"extension {extensionId} is missing active record after status lookup")
  let manifest ← okOr (registry.manifests.find extensionId record.version)
    (.store (.notFound "extension_manifests" extensionId))
  let rollbackSnapshot := rollbackPreview registry extensionId record
  return {
    extension, manifest
    block := extension.block
    permissions := record.approvedPermissions
    services := manifest.services
    rollbackAvailable := rollbackSnapshot.isSome
    rollbackSnapshot
    source := record.source
    trust := record.source.publication }

end Inspection

section Index

variable (registry : ExtensionRegistry)

def listExtensions (includeBlocked : Bool) : Except ServiceError (List ExtensionStatusResponse) := do
  let statuses ← registry.listExtensionStatuses.mapError .extensionRegistry
  let extensions := statuses.map .ofSnapshot
  return if includeBlocked then extensions
    else extensions.filter fun status => status.block.isNone

structure PackageTrustIndexEntry where
  packageId : String
  version : Option String
  status : Option ExtensionInstallStatus
  boundary : Option ExtensionBoundary
  manifestDigest : Option String
  artifactDigest : Option String
  source : Option ExtensionSourceSnapshot
  block : Option ExtensionBlocklistMatch
  deriving DecidableEq

def PackageTrustIndexEntry.ofStatus (status : ExtensionStatusResponse) : PackageTrustIndexEntry where
  packageId := status.extensionId
  version := status.record.map ExtensionInstallRecord.version
  status := status.record.map ExtensionInstallRecord.status
  boundary := status.record.map ExtensionInstallRecord.boundary
  manifestDigest := status.record.map ExtensionInstallRecord.manifestDigest
  artifactDigest := status.record.map ExtensionInstallRecord.artifactDigest
  source := status.record.map ExtensionInstallRecord.source
  block := status.block

/-- What an index for discovery keeps. -/
def PackageTrustIndexEntry.discoverable (entry : PackageTrustIndexEntry) : Bool :=
  if entry.boundary = some .localDevelopment then false
  else if entry.block.isSome then false
  else (entry.source.bind ExtensionSourceSnapshot.publication).any fun publication =>
    publication.visibility = .publicSearchable && publication.registrySubmission = .accepted

structure ListPackageTrustIndexRequest where
  includeBlocked : Bool
  discoveryOnly : Bool
  deriving DecidableEq

def listPackageTrustIndex (request : ListPackageTrustIndexRequest) :
    Except ServiceError (List PackageTrustIndexEntry) := do
  let extensions ← listExtensions registry request.includeBlocked
  let packages := extensions.map .ofStatus
  return if request.discoveryOnly then packages.filter PackageTrustIndexEntry.discoverable else packages

end Index

end Atelia.Service
