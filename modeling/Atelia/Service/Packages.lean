import Atelia.Foundation.Mutex
import Atelia.Registry.Queries
import Atelia.Registry.Snapshots
import Atelia.Store.Drafts

/-! Package calls of the secretary service. -/

namespace Atelia

open Outcome Registry

/-- Validate a snapshot and write it to the store. -/
def Store.InMemoryStore.setExtensionRegistrySnapshot
    (store : Store.InMemoryStore ExtensionRegistrySnapshot)
    (persistDurableSnapshot :
      String → Store.StoreInner ExtensionRegistrySnapshot → Store.StoreResult Unit)
    (snapshot : ExtensionRegistrySnapshot) :
    Store.StoreResult Unit × Store.InMemoryStore ExtensionRegistrySnapshot :=
  match snapshot.validateWithPolicy .default with
  | .error reason => (.error (.invalidRecord "extension_registry" reason), store)
  | .ok () => store.mutate persistDurableSnapshot fun inner =>
      (.ok (), { inner with extensionRegistrySnapshot := snapshot })

namespace Service

inductive ServiceError where
  | store (error : Store.StoreError)
  | extensionRegistry (error : RegistryError)
  | invalidArgument (reason : String)
  | internal (reason : String)
  deriving DecidableEq

/-- What a call does while it holds the lock of the registry. -/
inductive PackageCommand where
  | extensionRegistry
  | newAuditRecordId
  | now
  | setExtensionRegistrySnapshot (snapshot : ExtensionRegistrySnapshot)
  | replaceExtensionRegistry (registry : ExtensionRegistry)

def PackageCommand.Answer : PackageCommand → Type
  | extensionRegistry => ExtensionRegistry
  | newAuditRecordId => AuditRecordId
  | now => LedgerTimestamp
  | setExtensionRegistrySnapshot _ => Store.StoreResult Unit
  | replaceExtensionRegistry _ => Unit

abbrev PackageProgram (α : Type) : Type :=
  Program PackageCommand PackageCommand.Answer ServiceError α

/-- The registry in memory and the store. -/
structure PackageState where
  extensionRegistry : ExtensionRegistry
  store : Store.InMemoryStore ExtensionRegistrySnapshot

/-- Identifiers and clock readings are arbitrary, and so is the outcome of writing
the snapshot to disk. -/
def Serves (before : PackageState) :
    (command : PackageCommand) → command.Answer → PackageState → Prop
  | .extensionRegistry, registry, after => registry = before.extensionRegistry ∧ after = before
  | .newAuditRecordId, _, after => after = before
  | .now, _, after => after = before
  | .setExtensionRegistrySnapshot snapshot, answer, after => ∃ persistDurableSnapshot,
    before.store.setExtensionRegistrySnapshot persistDurableSnapshot snapshot =
      (answer, after.store) ∧ after.extensionRegistry = before.extensionRegistry
  | .replaceExtensionRegistry registry, _, after =>
    after = { before with extensionRegistry := registry }

section Audit

/-- Who asks for a change, from where, and why. -/
structure Attribution where
  requester : Option Actor
  requestSource : Option String
  reason : Option String
  deriving DecidableEq

structure ExtensionRegistryAuditContext where
  packageId : Option String
  recordVersion : Option String
  actor : Actor
  policyDecisionId : Option PolicyDecisionId
  blocklistEntry : Option BlocklistEntry

def packageRegistryRequestSourceMaxChars : Nat := 128

def packageRegistryReasonMaxChars : Nat := 1024

def defaultPackageRegistryActor : Actor := .system "atelia-secretary"

def packageRegistryActor (requester : Option Actor) : Actor :=
  requester.getD defaultPackageRegistryActor

def truncateAuditText (value : String) (maxChars : Nat) : String :=
  if value.toList.length ≤ maxChars then value else String.ofList (value.toList.take maxChars)

def packageRegistryRequestSource (requestSource : Option String) : String :=
  truncateAuditText ((Text.trimOptional requestSource).getD "service")
    packageRegistryRequestSourceMaxChars

def packageRegistryReason (reason : Option String) (defaultReason : String) : String :=
  truncateAuditText ((Text.trimOptional reason).getD defaultReason) packageRegistryReasonMaxChars

section Targets

variable (snapshot : ExtensionRegistrySnapshot)

def activeExtensionRecordRef (packageId : String) : Option ExtensionRegistryAuditRecordRef :=
  (snapshot.activeRecord packageId).map ExtensionInstallRecord.auditRef

def extensionRecordRef (packageId version : String) : Option ExtensionRegistryAuditRecordRef :=
  (snapshot.records.find packageId version).map ExtensionInstallRecord.auditRef

def activeExtensionProvenance (packageId : String) : Option ExtensionRegistryAuditProvenance :=
  (snapshot.activeRecord packageId).map fun record => record.source.auditProvenance

def extensionProvenance (packageId version : String) : Option ExtensionRegistryAuditProvenance :=
  (snapshot.records.find packageId version).map fun record => record.source.auditProvenance

/-- The record an audit mentions: that of a version, or that of the active one. -/
def auditedRecordRef (packageId recordVersion : Option String) :
    Option ExtensionRegistryAuditRecordRef :=
  packageId.bind fun packageId =>
    match recordVersion with
    | some version => extensionRecordRef snapshot packageId version
    | none => activeExtensionRecordRef snapshot packageId

end Targets

def auditedProvenance (before after : ExtensionRegistrySnapshot)
    (packageId recordVersion : Option String) : Option ExtensionRegistryAuditProvenance :=
  packageId.bind fun packageId =>
    match recordVersion with
    | some version =>
      (extensionProvenance after packageId version).or (extensionProvenance before packageId version)
    | none =>
      (activeExtensionProvenance after packageId).or (activeExtensionProvenance before packageId)

def extensionRegistryAuditRecord (id : AuditRecordId) (createdAt : LedgerTimestamp)
    (kind : ExtensionRegistryAuditKind) (requestSource reason : String)
    (context : ExtensionRegistryAuditContext) (before after : ExtensionRegistrySnapshot) :
    ExtensionRegistryAuditRecord where
  id := id
  schemaVersion := extensionRegistryAuditSchemaVersion
  createdAt := createdAt
  kind := kind
  actor := context.actor
  requestSource := requestSource
  reason := reason
  policyDecisionId := context.policyDecisionId
  packageId := context.packageId
  previousRecord := auditedRecordRef before context.packageId context.recordVersion
  newRecord := auditedRecordRef after context.packageId context.recordVersion
  provenance := auditedProvenance before after context.packageId context.recordVersion
  blocklistEntry := context.blocklistEntry

end Audit

section Calls

/-- An error of the registry on a draft. -/
def onDraft {α : Type} (action : RegistryAction α) (draft : ExtensionRegistry) :
    PackageProgram (α × ExtensionRegistry) :=
  match Attempt.exec action draft with
  | (.ok value, draft) => .done (value, draft)
  | (.error error, _) => .fail (.extensionRegistry error)

def mutateExtensionRegistryWithAudit {α : Type} (kind : ExtensionRegistryAuditKind)
    (requestSource reason : String) (mutator : RegistryAction α)
    (auditContext : α → ExtensionRegistryAuditContext)
    (attachAuditRecordId : α → AuditRecordId → α) : PackageProgram α := do
  let registry ← Program.perform PackageCommand.extensionRegistry .done
  let before := registry.snapshot
  let draft ← Program.ofExcept ((ExtensionRegistry.fromSnapshot before
    registry.validationPolicy).mapError fun reason =>
      .store (.invalidRecord "extension_registry" reason))
  let (response, draft) ← onDraft mutator draft
  let id ← Program.perform PackageCommand.newAuditRecordId .done
  let createdAt ← Program.perform PackageCommand.now .done
  let auditRecord := extensionRegistryAuditRecord id createdAt kind requestSource reason
    (auditContext response) before draft.snapshot
  let (_, draft) ← onDraft (ExtensionRegistry.appendAuditRecord auditRecord) draft
  let persisted ← Program.perform (.setExtensionRegistrySnapshot draft.snapshot) .done
  Program.ofExcept (Except.mapError ServiceError.store persisted)
  Program.perform (.replaceExtensionRegistry draft) .done
  return attachAuditRecordId response id

/-- The answer to a call that has written the install record of a package. -/
structure PackageRecordResponse where
  record : ExtensionInstallRecord
  auditRecordId : Option AuditRecordId
  deriving DecidableEq

structure ApplyBlocklistResponse where
  entry : BlocklistEntry
  auditRecordId : Option AuditRecordId
  deriving DecidableEq

/-- What the calls that answer an install record have in common. -/
def mutatePackage (kind : ExtensionRegistryAuditKind) (defaultReason : String)
    (attribution : Attribution) (mutator : RegistryAction ExtensionInstallRecord) :
    PackageProgram PackageRecordResponse :=
  mutateExtensionRegistryWithAudit kind (packageRegistryRequestSource attribution.requestSource)
    (packageRegistryReason attribution.reason defaultReason)
    (do return { record := ← mutator, auditRecordId := none })
    (fun response => {
      packageId := some response.record.id
      recordVersion := none
      actor := packageRegistryActor attribution.requester
      policyDecisionId := none
      blocklistEntry := none })
    (fun response auditRecordId => { response with auditRecordId := some auditRecordId })

/-- The manifest of a request to install, update or validate, and what it approves. -/
structure InstallRequest where
  manifest : ExtensionManifest
  approveLocalUnsigned : Bool
  allowLocalProcessRuntime : Bool
  approveSourceChange : Bool
  deriving DecidableEq

def InstallRequest.options (request : InstallRequest) : InstallOptions where
  approveLocalUnsigned := if request.approveLocalUnsigned then some true else none
  allowLocalProcessRuntime := if request.allowLocalProcessRuntime then some true else none
  approveSourceChange := if request.approveSourceChange then some true else none

variable (attribution : Attribution)

def installExtension (request : InstallRequest) : PackageProgram PackageRecordResponse :=
  mutatePackage .install "install package" attribution
    (ExtensionRegistry.install request.manifest request.options)

def updateExtension (request : InstallRequest) : PackageProgram PackageRecordResponse :=
  mutatePackage .update "update package" attribution
    (ExtensionRegistry.install request.manifest request.options)

def rollbackExtension (extensionId : String) : PackageProgram PackageRecordResponse :=
  mutatePackage .rollback "rollback package" attribution (ExtensionRegistry.rollback extensionId)

def disableExtension (extensionId : String) : PackageProgram PackageRecordResponse :=
  mutatePackage .disable "disable package" attribution (ExtensionRegistry.disable extensionId)

def enableExtension (extensionId : String) : PackageProgram PackageRecordResponse :=
  mutatePackage .enable "enable package" attribution (ExtensionRegistry.enable extensionId)

def removeExtension (extensionId : String) : PackageProgram PackageRecordResponse :=
  mutatePackage .remove "remove package" attribution (ExtensionRegistry.remove extensionId)

def updateExtensionPublication (extensionId : String) (publication : ExtensionPublication) :
    PackageProgram PackageRecordResponse :=
  mutatePackage .publicationUpdate "update package publication" attribution
    (ExtensionRegistry.updatePublication extensionId publication)

def updateExtensionRegistrySubmission (extensionId : String)
    (registrySubmission : ExtensionRegistrySubmission) (registryIdentity : Option String) :
    PackageProgram PackageRecordResponse :=
  mutatePackage .registrySubmissionUpdate "update package registry submission" attribution
    (ExtensionRegistry.updateRegistrySubmission extensionId registrySubmission registryIdentity)

def blockedPackageId : BlockKey → Option String
  | .extensionId packageId => some packageId
  | .version id _ => some id
  | _ => none

def blockedVersion : BlockKey → Option String
  | .version _ version => some version
  | _ => none

def applyBlocklist (entry : BlocklistEntry) : PackageProgram ApplyBlocklistResponse :=
  mutateExtensionRegistryWithAudit .blocklistApply
    (packageRegistryRequestSource attribution.requestSource)
    (packageRegistryReason attribution.reason "apply package blocklist")
    (do
      ExtensionRegistry.addBlocklistEntry entry
      return { entry, auditRecordId := none })
    (fun response => {
      packageId := blockedPackageId response.entry.key
      recordVersion := blockedVersion response.entry.key
      actor := packageRegistryActor attribution.requester
      policyDecisionId := none
      blocklistEntry := some response.entry })
    (fun response auditRecordId => { response with auditRecordId := some auditRecordId })

end Calls

/-- What a package call is asked to do. -/
inductive PackageChange where
  | install (request : InstallRequest)
  | update (request : InstallRequest)
  | rollback (extensionId : String)
  | disable (extensionId : String)
  | enable (extensionId : String)
  | remove (extensionId : String)
  | updatePublication (extensionId : String) (publication : ExtensionPublication)
  | updateRegistrySubmission (extensionId : String)
      (registrySubmission : ExtensionRegistrySubmission) (registryIdentity : Option String)
  | applyBlocklist (entry : BlocklistEntry)
  deriving DecidableEq

structure PackageRequest where
  change : PackageChange
  attribution : Attribution
  deriving DecidableEq

inductive PackageResponse where
  | package (response : PackageRecordResponse)
  | blocklist (response : ApplyBlocklistResponse)
  deriving DecidableEq

def PackageResponse.auditRecordId : PackageResponse → Option AuditRecordId
  | package response => response.auditRecordId
  | blocklist response => response.auditRecordId

/-- The call of the service for a request. -/
def PackageRequest.call (request : PackageRequest) : PackageProgram PackageResponse :=
  match request.change with
  | .install manifest => .package <$> installExtension request.attribution manifest
  | .update manifest => .package <$> updateExtension request.attribution manifest
  | .rollback extensionId => .package <$> rollbackExtension request.attribution extensionId
  | .disable extensionId => .package <$> disableExtension request.attribution extensionId
  | .enable extensionId => .package <$> enableExtension request.attribution extensionId
  | .remove extensionId => .package <$> removeExtension request.attribution extensionId
  | .updatePublication extensionId publication =>
    .package <$> updateExtensionPublication request.attribution extensionId publication
  | .updateRegistrySubmission extensionId registrySubmission registryIdentity =>
    .package <$> updateExtensionRegistrySubmission request.attribution extensionId
      registrySubmission registryIdentity
  | .applyBlocklist entry => .blocklist <$> applyBlocklist request.attribution entry

/-- A service that has served no call. -/
def PackageState.empty (durableSnapshotPath : Option String) : PackageState where
  extensionRegistry := .new .default
  store := .empty .empty durableSnapshotPath

end Service

end Atelia
