import Atelia.Domain.Identifiers

/-! Extension manifests, the policy they are validated with, and the errors of their
validation. -/

namespace Atelia.Registry

def extensionManifestSchema : String := "atelia.extension.v1"
def extensionRpcProtocol : String := "atelia-extension-rpc.v1"

structure ExtensionPublisher where
  name : String
  url : Option String
  deriving DecidableEq

inductive ExtensionKind where
  | tool | service | hookProvider | webhookReceiver | toolOutputCustomizer | workflow
  | notification | approvalAgent | review | reviewAgent | agentProvider | delegatedAgent
  | memoryProvider | memoryStrategy | integration | presentation
  deriving DecidableEq

structure ExtensionCompatibility where
  ateliaProtocol : String
  ateliaSecretary : String
  deriving DecidableEq

inductive ExtensionRealm where
  | backend | client
  deriving DecidableEq

inductive ExtensionRuntime where
  | wasmRust | wasm | docker | process | remote | swiftClient
  deriving DecidableEq

instance : RustDebug ExtensionRuntime where
  debug
    | .wasmRust => "WasmRust"
    | .wasm => "Wasm"
    | .docker => "Docker"
    | .process => "Process"
    | .remote => "Remote"
    | .swiftClient => "SwiftClient"

structure ExtensionEntrypoints where
  realm : ExtensionRealm
  runtime : ExtensionRuntime
  command : Option String
  image : Option String
  wasm : Option String
  protocol : String
  deriving DecidableEq

structure ExtensionPermission where
  description : String
  riskTier : Option String
  deriving DecidableEq

structure ExtensionToolDefinition where
  id : String
  permissions : List String
  permissionsRequired : List String
  deriving DecidableEq

structure ExtensionServiceDefinition where
  service : String
  method : String
  schemaVersion : String
  requiredPermission : String
  deriving DecidableEq

structure ExtensionServiceDependency where
  extensionId : String
  service : String
  method : String
  schemaVersion : String
  requiredPermission : String
  deriving DecidableEq

structure ExtensionServices where
  provides : List ExtensionServiceDefinition
  consumes : List ExtensionServiceDependency
  deriving DecidableEq

structure ExtensionToolOutputDefinition where
  toolId : String
  format : Option String
  verbosity : Option String
  languageMode : Option String
  fields : List String
  redactions : List String
  includePolicy : Option Bool
  includeCost : Option Bool
  includeDiagnostics : Option Bool
  deriving DecidableEq

structure ExtensionHookDefinition where
  hookId : String
  trigger : Option String
  verification : Option String
  requiredCapabilities : List String
  action : Option String
  status : Option String
  deriving DecidableEq

structure ExtensionWebhookDefinition where
  webhookId : String
  source : Option String
  event : Option String
  endpoint : Option String
  verification : Option String
  requiredCapabilities : List String
  status : Option String
  deriving DecidableEq

structure ExtensionCompositionAttachment where
  extensionId : String
  required : Option Bool
  deriving DecidableEq

structure ExtensionComposition where
  attachments : List ExtensionCompositionAttachment
  deriving DecidableEq

structure ExtensionMigration where
  from_ : List String
  notes : Option String
  deriving DecidableEq

inductive DegradeBehavior where
  | disableExtension | disableFeature | returnUnavailable | requireHuman
  deriving DecidableEq

inductive RetryPolicy where
  | none | bounded
  deriving DecidableEq

structure ExtensionFailure where
  degrade : DegradeBehavior
  retryPolicy : RetryPolicy
  deriving DecidableEq

inductive ProvenanceSource where
  | github | registry | local_
  deriving DecidableEq

inductive ExtensionLineageRelationship where
  | remix | fork | derived
  deriving DecidableEq

/-- The package that a package derives from. -/
structure ExtensionLineage where
  parentId : String
  parentVersion : Option String
  parentManifestDigest : Option String
  relationship : ExtensionLineageRelationship
  deriving DecidableEq

inductive ExtensionPublicationVisibility where
  | privateRemix | unlistedShare | publicSearchable | official
  deriving DecidableEq

inductive ExtensionRegistrySubmission where
  | notSubmitted | awaitingSubmission | submitted | accepted | rejected
  deriving DecidableEq

structure ExtensionPublication where
  visibility : ExtensionPublicationVisibility
  registrySubmission : ExtensionRegistrySubmission
  deriving DecidableEq

structure ExtensionProvenance where
  source : ProvenanceSource
  repository : Option String
  sourceRef : Option String
  manifestPath : Option String
  commit : Option String
  registryIdentity : Option String
  lineage : Option ExtensionLineage
  publication : Option ExtensionPublication
  artifactDigest : String
  manifestDigest : String
  signature : Option String
  signer : Option String
  deriving DecidableEq

structure ExtensionBundleMembership where
  id : String
  required : Bool
  deriving DecidableEq

structure ExtensionManifest where
  schema : String
  id : String
  name : String
  version : String
  publisher : ExtensionPublisher
  description : String
  types : List ExtensionKind
  compatibility : ExtensionCompatibility
  entrypoints : ExtensionEntrypoints
  permissions : Table String ExtensionPermission
  tools : List ExtensionToolDefinition
  services : ExtensionServices
  toolOutput : List ExtensionToolOutputDefinition
  hooks : List ExtensionHookDefinition
  webhooks : List ExtensionWebhookDefinition
  composition : ExtensionComposition
  failure : ExtensionFailure
  provenance : ExtensionProvenance
  bundle : Option ExtensionBundleMembership
  migration : ExtensionMigration
  deriving DecidableEq

inductive ExtensionBoundary where
  | official | thirdParty | localDevelopment
  deriving DecidableEq

instance : RustDebug ExtensionBoundary where
  debug
    | .official => "Official"
    | .thirdParty => "ThirdParty"
    | .localDevelopment => "LocalDevelopment"

structure ValidatedExtensionManifest where
  manifest : ExtensionManifest
  boundary : ExtensionBoundary
  deriving DecidableEq

structure ManifestValidationPolicy where
  allowLocalUnsigned : Bool
  allowLocalProcessRuntime : Bool
  officialIdPrefix : String
  localIdPrefix : String
  officialRegistryIdentity : String
  deriving DecidableEq

/-- The policy of a registry that was given none. -/
def ManifestValidationPolicy.default : ManifestValidationPolicy where
  allowLocalUnsigned := false
  allowLocalProcessRuntime := false
  officialIdPrefix := "ai.atelia."
  localIdPrefix := "local."
  officialRegistryIdentity := "atelia-official"

inductive ExtensionValidationError where
  | invalidSchema (expected found : String)
  | missingField (field : String)
  | invalidField (field reason : String)
  | unsupportedRuntime (runtime : ExtensionRuntime) (reason : String)
  | provenanceRequired (field reason : String)
  | boundaryViolation (reason : String)
  | duplicateServiceDeclaration (service method schemaVersion : String)
  | missingServicePermission (service method permission : String)
  | missingToolPermission (tool permission : String)
  | duplicateToolDeclaration (tool : String)
  | duplicateToolOutputDeclaration (toolId : String)
  | duplicateHookDeclaration (hookId : String)
  | duplicateWebhookDeclaration (webhookId : String)
  deriving DecidableEq

abbrev ExtensionValidationResult (α : Type) : Type := Except ExtensionValidationError α

/-- The text of the error. -/
def ExtensionValidationError.display : ExtensionValidationError → String
  | invalidSchema expected found =>
    s!"extension manifest schema must be {expected}, found {found}"
  | missingField field => s!"extension manifest field {field} is required"
  | invalidField field reason => s!"extension manifest field {field} is invalid: {reason}"
  | unsupportedRuntime runtime reason =>
    s!"extension runtime {debug runtime} is not supported: {reason}"
  | provenanceRequired field reason =>
    s!"extension provenance field {field} is required: {reason}"
  | boundaryViolation reason => s!"extension boundary violation: {reason}"
  | duplicateServiceDeclaration service method schemaVersion =>
    s!"duplicate service declaration {service}.{method} schema {schemaVersion}"
  | missingServicePermission service method permission =>
    s!"service {service}.{method} requires undeclared permission {permission}"
  | missingToolPermission tool permission =>
    s!"tool {tool} requires undeclared permission {permission}"
  | duplicateToolDeclaration tool => s!"duplicate tool declaration {tool}"
  | duplicateToolOutputDeclaration toolId => s!"duplicate tool output declaration {toolId}"
  | duplicateHookDeclaration hookId => s!"duplicate hook declaration {hookId}"
  | duplicateWebhookDeclaration webhookId => s!"duplicate webhook declaration {webhookId}"

end Atelia.Registry
