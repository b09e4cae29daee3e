import Atelia.Domain.Jobs
import Atelia.Foundation.Catalog
import Atelia.Registry.Manifest

/-! Install records, blocklist entries and audit records of the extension registry. -/

namespace Atelia.Registry

/-- Where an installed version came from. Its texts are trimmed, except for the
commit. -/
structure ExtensionSourceSnapshot where
  source : ProvenanceSource
  repository : Option String
  sourceRef : Option String
  manifestPath : Option String
  commit : Option String
  registryIdentity : Option String
  lineage : Option ExtensionLineage
  publication : Option ExtensionPublication
  deriving DecidableEq

def ExtensionSourceSnapshot.fromProvenance (provenance : ExtensionProvenance) :
    ExtensionSourceSnapshot where
  source := provenance.source
  repository := Text.trimOptional provenance.repository
  sourceRef := Text.trimOptional provenance.sourceRef
  manifestPath := Text.trimOptional provenance.manifestPath
  commit := provenance.commit
  registryIdentity := Text.trimOptional provenance.registryIdentity
  lineage := provenance.lineage
  publication := provenance.publication

/-- Two sources with one authority may differ in commit and publication. -/
def ExtensionSourceSnapshot.matchesAuthority (current other : ExtensionSourceSnapshot) : Bool :=
  current.source = other.source &&
    Text.trimOptional current.repository = Text.trimOptional other.repository &&
    Text.trimOptional current.sourceRef = Text.trimOptional other.sourceRef &&
    Text.trimOptional current.manifestPath = Text.trimOptional other.manifestPath &&
    Text.trimOptional current.registryIdentity = Text.trimOptional other.registryIdentity &&
    current.lineage = other.lineage

inductive ExtensionInstallStatus where
  | installed | disabled | blocked | updating | rollbackInProgress | installedPreviousVersion
  deriving DecidableEq

structure RollbackSnapshot where
  manifestDigest : String
  artifactDigest : String
  deriving DecidableEq

structure ExtensionInstallRecord where
  id : String
  version : String
  manifestDigest : String
  artifactDigest : String
  source : ExtensionSourceSnapshot
  boundary : ExtensionBoundary
  status : ExtensionInstallStatus
  previousVersion : Option String
  approvedPermissions : List String
  approvedLocalUnsigned : Bool
  approvedLocalProcessRuntime : Bool
  rollbackSnapshot : Option RollbackSnapshot
  deriving DecidableEq

structure InstallOptions where
  approveLocalUnsigned : Option Bool
  allowLocalProcessRuntime : Option Bool
  approveSourceChange : Option Bool
  deriving DecidableEq

/-- The policy under which an installed version is validated again: what was
approved at its installation stays approved. -/
def withRecordApprovals (policy : ManifestValidationPolicy) (record : ExtensionInstallRecord) :
    ManifestValidationPolicy :=
  { policy with
    allowLocalUnsigned := policy.allowLocalUnsigned || record.approvedLocalUnsigned
    allowLocalProcessRuntime :=
      policy.allowLocalProcessRuntime || record.approvedLocalProcessRuntime }

section Blocklist

inductive BlockKey where
  | extensionId (id : String)
  | version (id version : String)
  | artifactDigest (digest : String)
  | signer (signer : String)
  | publisher (publisher : String)
  | sourceRepository (repository : String)
  | permissionPattern (pattern : String)
  | vulnerabilityId (id : String)
  deriving DecidableEq

instance : RustDebug BlockKey where
  debug
    | .extensionId id => s!"ExtensionId({debug id})"
    | .version id version =>
      s!"Version \x7b id: {debug id}, version: {debug version} \x7d"
    | .artifactDigest digest => s!"ArtifactDigest({debug digest})"
    | .signer signer => s!"Signer({debug signer})"
    | .publisher publisher => s!"Publisher({debug publisher})"
    | .sourceRepository repository => s!"SourceRepository({debug repository})"
    | .permissionPattern pattern => s!"PermissionPattern({debug pattern})"
    | .vulnerabilityId id => s!"VulnerabilityId({debug id})"

def BlockKey.isVulnerabilityId : BlockKey → Bool
  | vulnerabilityId _ => true
  | _ => false

inductive BlockReason where
  | malware | manifestMismatch | overPermissioned | vulnerableVersion | compromisedSigner
  | policyViolation | userBlocked | registryRemoved
  deriving DecidableEq

instance : RustDebug BlockReason where
  debug
    | .malware => "Malware"
    | .manifestMismatch => "ManifestMismatch"
    | .overPermissioned => "OverPermissioned"
    | .vulnerableVersion => "VulnerableVersion"
    | .compromisedSigner => "CompromisedSigner"
    | .policyViolation => "PolicyViolation"
    | .userBlocked => "UserBlocked"
    | .registryRemoved => "RegistryRemoved"

structure BlocklistEntry where
  key : BlockKey
  reason : BlockReason
  note : Option String
  deriving DecidableEq

/-- A pattern that ends in `*` stands for every permission with its lead. -/
def permissionMatches (pattern permission : String) : Bool :=
  match Text.stripTail pattern "*" with
  | some lead => Text.startsWith permission lead
  | none => pattern = permission

def BlocklistEntry.matchesManifest (entry : BlocklistEntry) (manifest : ExtensionManifest) : Bool :=
  match entry.key with
  | .extensionId id => manifest.id = id
  | .version id version => manifest.id = id && manifest.version = version
  | .artifactDigest digest => manifest.provenance.artifactDigest = digest
  | .signer signer =>
    manifest.provenance.signer.any fun manifestSigner => Text.trim manifestSigner = Text.trim signer
  | .publisher publisher => Text.trim manifest.publisher.name = Text.trim publisher
  | .sourceRepository repository =>
    manifest.provenance.repository.any fun manifestRepository =>
      Text.trim manifestRepository = Text.trim repository
  | .permissionPattern pattern => manifest.permissions.keys.any (permissionMatches pattern)
  | .vulnerabilityId _ => false

end Blocklist

section Errors

inductive RegistryError where
  | validation (error : ExtensionValidationError)
  | unsupportedBlocklistKey (key : BlockKey)
  | blocked (extensionId : String) (reason : BlockReason) (key : BlockKey)
  | digestConflict (extensionId version : String)
  | sourceChangeRequiresApproval (extensionId : String)
  | notInstalled (extensionId : String)
  | rollbackUnavailable (extensionId : String)
  | serviceDenied (reason : String)
  | serviceUnavailable (reason : String)
  deriving DecidableEq

abbrev RegistryResult (α : Type) : Type := Except RegistryError α

/-- The text of the error. -/
def RegistryError.display : RegistryError → String
  | validation error => error.display
  | unsupportedBlocklistKey key => s!"unsupported blocklist key: {debug key}"
  | blocked extensionId reason key =>
    s!"extension {extensionId} is blocklisted by {debug reason}: {debug key}"
  | digestConflict extensionId version =>
    s!"extension {extensionId} version {version} changed digest"
  | sourceChangeRequiresApproval extensionId =>
    s!"extension {extensionId} changed source provenance and requires explicit approval"
  | notInstalled extensionId => s!"extension {extensionId} is not installed"
  | rollbackUnavailable extensionId => s!"extension {extensionId} has no rollback target"
  | serviceDenied reason => s!"service call denied: {reason}"
  | serviceUnavailable reason => s!"service unavailable: {reason}"

end Errors

section Audit

inductive ExtensionRegistryAuditKind where
  | install | update | rollback | disable | enable | remove | publicationUpdate
  | registrySubmissionUpdate | blocklistApply
  deriving DecidableEq

instance : RustDebug ExtensionRegistryAuditKind where
  debug
    | .install => "Install"
    | .update => "Update"
    | .rollback => "Rollback"
    | .disable => "Disable"
    | .enable => "Enable"
    | .remove => "Remove"
    | .publicationUpdate => "PublicationUpdate"
    | .registrySubmissionUpdate => "RegistrySubmissionUpdate"
    | .blocklistApply => "BlocklistApply"

/-- An install record as an audit record mentions it. -/
structure ExtensionRegistryAuditRecordRef where
  packageId : String
  version : String
  manifestDigest : String
  artifactDigest : String
  status : ExtensionInstallStatus
  deriving DecidableEq

def ExtensionInstallRecord.auditRef (record : ExtensionInstallRecord) :
    ExtensionRegistryAuditRecordRef where
  packageId := record.id
  version := record.version
  manifestDigest := record.manifestDigest
  artifactDigest := record.artifactDigest
  status := record.status

structure ExtensionRegistryAuditProvenance where
  source : ProvenanceSource
  repository : Option String
  sourceRef : Option String
  manifestPath : Option String
  commit : Option String
  registryIdentity : Option String
  publication : Option ExtensionPublication
  deriving DecidableEq

def ExtensionSourceSnapshot.auditProvenance (source : ExtensionSourceSnapshot) :
    ExtensionRegistryAuditProvenance where
  source := source.source
  repository := source.repository
  sourceRef := source.sourceRef
  manifestPath := source.manifestPath
  commit := source.commit
  registryIdentity := source.registryIdentity
  publication := source.publication

structure ExtensionRegistryAuditRecord where
  id : AuditRecordId
  schemaVersion : Nat
  createdAt : LedgerTimestamp
  kind : ExtensionRegistryAuditKind
  actor : Actor
  requestSource : String
  reason : String
  policyDecisionId : Option PolicyDecisionId
  packageId : Option String
  previousRecord : Option ExtensionRegistryAuditRecordRef
  newRecord : Option ExtensionRegistryAuditRecordRef
  provenance : Option ExtensionRegistryAuditProvenance
  blocklistEntry : Option BlocklistEntry
  deriving DecidableEq

end Audit

end Atelia.Registry
