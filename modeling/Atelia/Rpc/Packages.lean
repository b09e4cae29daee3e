import Atelia.Rpc.Errors
import Atelia.Service.PackageViews

/-! Package calls of the RPC server. -/

namespace Atelia.Rpc

open Registry Service Outcome

section Authoring

inductive PackageSourceClass where
  | hostShippedBuiltIn | workspaceLocal | userSelected | verifiedRegistry | bundledOfficial
  | development
  deriving DecidableEq

inductive PackageAuthoringStage where
  | install | inspect | validate | remix | publish | registrySearch
  deriving DecidableEq

inductive PackageAuthoringStepState where
  | available | blocked | requiresValidation | requiresConsent | inProgress | complete
  deriving DecidableEq

inductive PackageGitHubPublicationAction where
  | createRepository | forkRepository | createBranch | commitChanges | openPullRequest
  | prepareReleaseMetadata | submitRegistryMetadata
  deriving DecidableEq

/-- The visibilities of the registry under the names of the protocol. -/
abbrev PackagePublicationVisibility : Type := ExtensionPublicationVisibility

/-- The submission states of the registry under the names of the protocol. -/
abbrev PackageRegistrySubmissionState : Type := ExtensionRegistrySubmission

structure PackageGitHubSourceReference where
  repository : String
  sourceRef : Option String
  manifestPath : String
  manifestDigest : Option String
  artifactDigests : List String
  deriving DecidableEq

structure PackagePublicationPlan where
  visibility : PackagePublicationVisibility
  sourceClass : PackageSourceClass
  source : Option PackageGitHubSourceReference
  githubActions : List PackageGitHubPublicationAction
  requiresRegistrySubmission : Bool
  productionInstallable : Bool
  deriving DecidableEq

structure PackageAuthoringFlowStep where
  id : PackageAuthoringStage
  title : String
  state : PackageAuthoringStepState
  requiresExplicitConsent : Bool
  policyNotes : List String
  deriving DecidableEq

structure PackageAuthoringFlow where
  packageId : String
  sourceClass : PackageSourceClass
  source : Option PackageGitHubSourceReference
  steps : List PackageAuthoringFlowStep
  publicationPlan : Option PackagePublicationPlan
  deriving DecidableEq

def packageSourceClassFromRecord (record : ExtensionInstallRecord) : PackageSourceClass :=
  match record.boundary with
  | .official => .bundledOfficial
  | .localDevelopment => .development
  | .thirdParty =>
    match record.source.source with
    | .registry => .verifiedRegistry
    | .github => .userSelected
    | .local_ => .workspaceLocal

def packageSourceReferenceFromRecord (record : ExtensionInstallRecord) :
    Option PackageGitHubSourceReference := do
  return {
    repository := ← record.source.repository
    sourceRef := record.source.sourceRef
    manifestPath := ← record.source.manifestPath
    manifestDigest := some record.manifestDigest
    artifactDigests := [record.artifactDigest] }

def defaultPackagePublicationActions : List PackageGitHubPublicationAction :=
  [.createRepository, .createBranch, .commitChanges, .openPullRequest, .prepareReleaseMetadata,
    .submitRegistryMetadata]

def packagePublicationPlanFromRecord (record : ExtensionInstallRecord)
    (publication : ExtensionPublication) : PackagePublicationPlan :=
  let requiresRegistrySubmission := publication.registrySubmission ≠ .notSubmitted
  { visibility := publication.visibility
    sourceClass := packageSourceClassFromRecord record
    source := packageSourceReferenceFromRecord record
    githubActions := if requiresRegistrySubmission then defaultPackagePublicationActions
      else defaultPackagePublicationActions.filter (· ≠ .submitRegistryMetadata)
    requiresRegistrySubmission
    productionInstallable := publication.registrySubmission = .accepted }

def packageRegistrySearchState (publication : ExtensionPublication) : PackageAuthoringStepState :=
  match publication.visibility, publication.registrySubmission with
  | .privateRemix, .notSubmitted => .complete
  | .unlistedShare, .notSubmitted => .complete
  | _, .awaitingSubmission => .requiresConsent
  | _, .notSubmitted => .requiresConsent
  | _, .submitted => .inProgress
  | _, .accepted => .complete
  | _, .rejected => .blocked

def packageAuthoringStep (id : PackageAuthoringStage) (title : String)
    (state : PackageAuthoringStepState) (requiresExplicitConsent : Bool) (policyNotes : List String) :
    PackageAuthoringFlowStep :=
  { id, title, state, requiresExplicitConsent, policyNotes }

def packageAuthoringFlowFromStatus (status : ExtensionStatusResponse) (includePrivateSteps : Bool) :
    RpcResult PackageAuthoringFlow := do
  let record ← okOr status.record ⟨.notFound, s!"package {status.extensionId} is not installed"⟩
  let publicationPlan := record.source.publication.map (packagePublicationPlanFromRecord record)
  let blocked := status.block.isSome || record.status = .blocked
  let registryState :=
    (record.source.publication.map packageRegistrySearchState).getD .available
  let policyNotes := match status.block with
    | some block => [s!"Package is blocked by {debug block.reason}"]
    | none => []
  let steps := [
    packageAuthoringStep .install "Install" .complete false [],
    packageAuthoringStep .inspect "Inspect" .complete false [],
    packageAuthoringStep .validate "Validate" (if blocked then .blocked else .complete) false
      policyNotes,
    packageAuthoringStep .remix "Remix" .available true [],
    packageAuthoringStep .publish "Publish"
      (if publicationPlan.isSome then .complete else .available) true [],
    packageAuthoringStep .registrySearch "Registry Search" registryState true []]
  return {
    packageId := status.extensionId
    sourceClass := packageSourceClassFromRecord record
    source := packageSourceReferenceFromRecord record
    steps := if includePrivateSteps then steps
      else steps.filter fun step => step.id ≠ .remix && step.id ≠ .publish
    publicationPlan }

/-- Give the first step of the stage another state. -/
def markPackageAuthoringStep (flow : PackageAuthoringFlow) (stage : PackageAuthoringStage)
    (state : PackageAuthoringStepState) : PackageAuthoringFlow :=
  { flow with steps := mark flow.steps }
where
  mark : List PackageAuthoringFlowStep → List PackageAuthoringFlowStep
    | [] => []
    | step :: rest => if step.id = stage then { step with state } :: rest else step :: mark rest

end Authoring

section Requests

inductive RpcActorDto where
  | user (id : String) (displayName : Option String)
  | agent (id : String) (displayName : Option String)
  | extension (id : String)
  | system (id : String)
  deriving DecidableEq

def RpcActorDto.id : RpcActorDto → String
  | user id _ | agent id _ | extension id | system id => id

def RpcActorDto.toActor (actor : RpcActorDto) : RpcResult Actor := do
  reject (Text.isBlank actor.id) (.invalidArgument "actor.id must not be empty")
  match actor with
  | user id displayName => return .user id displayName
  | agent id displayName => return .agent id displayName
  | extension id => return .extension id
  | system id => return .system id

/-- Who asks for a change, as the request names them. -/
structure RpcAttribution where
  requester : Option RpcActorDto
  requestSource : Option String
  reason : Option String
  deriving DecidableEq

def RpcAttribution.toAttribution (attribution : RpcAttribution) : RpcResult Attribution := do
  let requester ← attribution.requester.mapM RpcActorDto.toActor
  return { requester, requestSource := attribution.requestSource, reason := attribution.reason }

structure PackageAuthoringFlowRequest where
  packageId : String
  includePrivateSteps : Bool
  deriving DecidableEq

structure PackageRemixRequest where
  packageId : String
  sourceClass : PackageSourceClass
  source : Option PackageGitHubSourceReference
  deriving DecidableEq

structure PackagePublicationRequest where
  packageId : String
  visibility : PackagePublicationVisibility
  requiresRegistrySubmission : Bool
  attribution : RpcAttribution
  deriving DecidableEq

structure PackagePublicationResponse where
  flow : PackageAuthoringFlow
  auditRecordId : Option AuditRecordId
  deriving DecidableEq

structure PackageRegistrySubmissionRequest where
  packageId : String
  state : PackageRegistrySubmissionState
  registryIdentity : Option String
  attribution : RpcAttribution
  deriving DecidableEq

structure PackageRegistrySubmissionResponse where
  packageId : String
  state : PackageRegistrySubmissionState
  flow : Option PackageAuthoringFlow
  auditRecordId : Option AuditRecordId
  deriving DecidableEq

end Requests

section Calls

abbrev RpcProgram (α : Type) : Type := Program PackageCommand PackageCommand.Answer RpcError α

/-- A call of the service; its errors are errors of the server. -/
def ofService {α : Type} (call : PackageProgram α) : RpcProgram α :=
  call.embed id (fun _ answer => answer) .ofService

/-- A call of the service that only looks at the registry. -/
def inspecting {α : Type} (look : ExtensionRegistry → Except ServiceError α) : RpcProgram α :=
  ofService do
    let registry ← Program.perform PackageCommand.extensionRegistry .done
    Program.ofExcept (look registry)

/-- A state that only the registry may write. -/
def isVerdict : ExtensionRegistrySubmission → Bool
  | .accepted | .rejected => true
  | .notSubmitted | .awaitingSubmission | .submitted => false

def registryAuthorityRequired : RpcError :=
  ⟨.invalidArgument, "registry accepted and rejected states require registry authority"⟩

def rejectClientWritableRegistryVerdict (manifest : ExtensionManifest) : RpcResult Unit :=
  reject (manifest.provenance.publication.any fun publication =>
    isVerdict publication.registrySubmission) registryAuthorityRequired

def installExtension (attribution : Attribution) (request : InstallRequest) :
    RpcProgram PackageRecordResponse := do
  Program.ofExcept (rejectClientWritableRegistryVerdict request.manifest)
  ofService (Service.installExtension attribution request)

def validateExtension (request : InstallRequest) : RpcProgram ValidatedExtensionManifest := do
  Program.ofExcept (rejectClientWritableRegistryVerdict request.manifest)
  inspecting fun registry =>
    (registry.validate request.manifest request.options).mapError .extensionRegistry

def updateExtension (attribution : Attribution) (request : InstallRequest) :
    RpcProgram PackageRecordResponse := do
  Program.ofExcept (rejectClientWritableRegistryVerdict request.manifest)
  ofService (Service.updateExtension attribution request)

def packageAuthoringFlow (request : PackageAuthoringFlowRequest) :
    RpcProgram PackageAuthoringFlow := do
  let extension ← inspecting (extensionStatus · request.packageId)
  Program.ofExcept (packageAuthoringFlowFromStatus extension request.includePrivateSteps)

def remixPackage (request : PackageRemixRequest) : RpcProgram PackageAuthoringFlow := do
  let extension ← inspecting (extensionStatus · request.packageId)
  let flow ← Program.ofExcept (packageAuthoringFlowFromStatus extension true)
  let sourceClass := request.sourceClass
  let source := request.source.or flow.source
  let flow := { flow with
    sourceClass, source
    publicationPlan := flow.publicationPlan.map fun plan => { plan with sourceClass, source } }
  return markPackageAuthoringStep (markPackageAuthoringStep flow .remix .complete) .publish .available

def packagePublicationVisibilityRequiresRegistrySubmission :
    PackagePublicationVisibility → Bool
  | .publicSearchable | .official => true
  | .privateRemix | .unlistedShare => false

def preparePackagePublication (request : PackagePublicationRequest) :
    RpcProgram PackagePublicationResponse := do
  let requiresRegistrySubmission :=
    packagePublicationVisibilityRequiresRegistrySubmission request.visibility
  Program.ofExcept (reject (request.requiresRegistrySubmission ≠ requiresRegistrySubmission)
    (.invalidArgument "requires_registry_submission must match the selected visibility"))
  let attribution ← Program.ofExcept request.attribution.toAttribution
  let response ← ofService (updateExtensionPublication attribution request.packageId {
    visibility := request.visibility
    registrySubmission :=
      if requiresRegistrySubmission then .awaitingSubmission else .notSubmitted })
  let extension : ExtensionStatusResponse :=
    { extensionId := request.packageId, record := some response.record, block := none }
  let flow ← Program.ofExcept (packageAuthoringFlowFromStatus extension true)
  return { flow, auditRecordId := response.auditRecordId }

def submitPackageRegistrySubmission (request : PackageRegistrySubmissionRequest) :
    RpcProgram PackageRegistrySubmissionResponse := do
  Program.ofExcept (reject (isVerdict request.state) registryAuthorityRequired)
  let attribution ← Program.ofExcept request.attribution.toAttribution
  let response ← ofService (updateExtensionRegistrySubmission attribution request.packageId
    request.state request.registryIdentity)
  let extension : ExtensionStatusResponse :=
    { extensionId := request.packageId, record := some response.record, block := none }
  let publication ← Program.ofExcept (okOr response.record.source.publication
    ⟨.internal, "registry submission update did not persist publication state"⟩)
  let flow ← Program.ofExcept (packageAuthoringFlowFromStatus extension true)
  return {
    packageId := request.packageId
    state := publication.registrySubmission
    flow := some flow
    auditRecordId := response.auditRecordId }

end Calls

/-- A call of the server about packages. -/
inductive PackageCall where
  | installExtension (attribution : Attribution) (request : InstallRequest)
  | validateExtension (request : InstallRequest)
  | updateExtension (attribution : Attribution) (request : InstallRequest)
  | extensionStatus (extensionId : String)
  | packageInspect (extensionId : String)
  | listExtensions (includeBlocked : Bool)
  | listPackageTrustIndex (request : ListPackageTrustIndexRequest)
  | packageAuthoringFlow (request : PackageAuthoringFlowRequest)
  | remixPackage (request : PackageRemixRequest)
  | preparePackagePublication (request : PackagePublicationRequest)
  | submitPackageRegistrySubmission (request : PackageRegistrySubmissionRequest)
  | rollbackExtension (attribution : Attribution) (extensionId : String)
  | disableExtension (attribution : Attribution) (extensionId : String)
  | enableExtension (attribution : Attribution) (extensionId : String)
  | removeExtension (attribution : Attribution) (extensionId : String)
  | applyBlocklist (attribution : Attribution) (entry : BlocklistEntry)
  deriving DecidableEq

inductive PackageReply where
  | record (response : PackageRecordResponse)
  | validated (manifest : ValidatedExtensionManifest)
  | status (extension : ExtensionStatusResponse)
  | inspect (response : PackageInspectResponse)
  | extensions (extensions : List ExtensionStatusResponse)
  | trustIndex (packages : List PackageTrustIndexEntry)
  | flow (authoring : PackageAuthoringFlow)
  | publication (response : PackagePublicationResponse)
  | registrySubmission (response : PackageRegistrySubmissionResponse)
  | blocklist (response : ApplyBlocklistResponse)

/-- The publication plan in a reply. -/
def PackageReply.publicationPlan : PackageReply → Option PackagePublicationPlan
  | flow authoring => authoring.publicationPlan
  | publication response => response.flow.publicationPlan
  | registrySubmission response => response.flow.bind PackageAuthoringFlow.publicationPlan
  | _ => none

/-- What the server does for a call. -/
def PackageCall.serve : PackageCall → RpcProgram PackageReply
  | installExtension attribution request => .record <$> Rpc.installExtension attribution request
  | validateExtension request => .validated <$> Rpc.validateExtension request
  | updateExtension attribution request => .record <$> Rpc.updateExtension attribution request
  | extensionStatus extensionId => .status <$> inspecting (Service.extensionStatus · extensionId)
  | packageInspect extensionId => .inspect <$> inspecting (Service.packageInspect · extensionId)
  | listExtensions includeBlocked =>
    .extensions <$> inspecting (Service.listExtensions · includeBlocked)
  | listPackageTrustIndex request =>
    .trustIndex <$> inspecting (Service.listPackageTrustIndex · request)
  | packageAuthoringFlow request => .flow <$> Rpc.packageAuthoringFlow request
  | remixPackage request => .flow <$> Rpc.remixPackage request
  | preparePackagePublication request => .publication <$> Rpc.preparePackagePublication request
  | submitPackageRegistrySubmission request =>
    .registrySubmission <$> Rpc.submitPackageRegistrySubmission request
  | rollbackExtension attribution extensionId =>
    .record <$> ofService (Service.rollbackExtension attribution extensionId)
  | disableExtension attribution extensionId =>
    .record <$> ofService (Service.disableExtension attribution extensionId)
  | enableExtension attribution extensionId =>
    .record <$> ofService (Service.enableExtension attribution extensionId)
  | removeExtension attribution extensionId =>
    .record <$> ofService (Service.removeExtension attribution extensionId)
  | applyBlocklist attribution entry =>
    .blocklist <$> ofService (Service.applyBlocklist attribution entry)

end Atelia.Rpc
