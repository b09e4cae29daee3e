import Atelia.Foundation.Ipv6
import Atelia.Foundation.Outcome
import Atelia.Registry.Manifest

/-! The validation of an extension manifest. -/

namespace Atelia.Registry

open Outcome ExtensionValidationError

section FieldChecks

def requireNonEmpty (field value : String) : ExtensionValidationResult Unit :=
  reject (Text.isBlank value) (missingField field)

def requireTrimmedNonEmpty (field value : String) : ExtensionValidationResult Unit := do
  requireNonEmpty field value
  reject (Text.trim value ≠ value)
    (invalidField field "must not contain surrounding whitespace")

def hasNonEmptyTrimmed (value : Option String) : Bool :=
  !Text.isBlank (value.getD "")

def requireNoWhitespace (field value : String) : ExtensionValidationResult Unit :=
  reject (Text.hasWhitespace value) (invalidField field "must not contain whitespace")

/-- A segment of a dotted identifier. -/
private def isIdSegment (segment : String) : Bool :=
  (segment.toList.all fun character => character.isLower || character.isDigit || character == '-') &&
    segment.toList.head?.any Char.isLower

def requireReverseDnsId (field value : String) : ExtensionValidationResult Unit := do
  reject (Text.startsWith value "." ∨ Text.endsWith value "." ∨ '.' ∉ value.toList)
    (invalidField field "must use a reverse-DNS-like dotted namespace")
  ensure ((Text.split (· == '.') value).all isIdSegment)
    (invalidField field
      "segments must start with a lowercase ascii letter and contain lowercase ascii, digits, or hyphen")

def requireSemver (field value : String) : ExtensionValidationResult Unit :=
  let parts := Text.split (· == '.') value
  ensure (parts.length = 3 ∧
      parts.all fun part => !part.toList.isEmpty && part.toList.all Char.isDigit)
    (invalidField field "must be major.minor.patch numeric semver")

def requireDigest (field value : String) : ExtensionValidationResult Unit := do
  let hex ← okOr (Text.stripLead value "sha256:") (invalidField field "must start with sha256:")
  ensure (Text.byteLength hex = 64 ∧ hex.toList.all Text.isHexDigit)
    (invalidField field "must contain 64 hex characters after sha256:")

def requirePermissionName (value : String) : ExtensionValidationResult Unit := do
  requireNonEmpty "permission" value
  requireNoWhitespace "permission" value
  ensure ('.' ∈ value.toList ∨ ':' ∈ value.toList)
    (invalidField "permission" "must include a namespace separator")

def validateRequiredString (field : String) (value : Option String) :
    ExtensionValidationResult Unit := do
  let value ← okOr value (missingField field)
  requireNonEmpty field value
  requireNoWhitespace field value

def validateOptionalChoice (field : String) (value : Option String) (allowed : List String) :
    ExtensionValidationResult Unit :=
  whenSome value fun value => do
    requireNonEmpty field value
    requireNoWhitespace field value
    ensure (value ∈ allowed)
      (invalidField field ("must be one of: " ++ ", ".intercalate allowed))

def validateStringList (field : String) (values : List String) : ExtensionValidationResult Unit :=
  checkAll (fun value => do
    requireNonEmpty field value
    requireNoWhitespace field value) values

end FieldChecks

section Endpoints

private def validatePort (field port : String) : ExtensionValidationResult Unit :=
  ensure (port.toList.all Char.isDigit) (invalidField field "port must be numeric")

/-- An authority whose host is an IPv6 address in brackets; `stripped` follows the
opening one. -/
private def validateBracketedAuthority (field stripped : String) : ExtensionValidationResult Unit := do
  let (host, remainder) := (stripped.toList.span (· ≠ ']'))
  reject (remainder.isEmpty) (invalidField field "must contain a closing ] for IPv6 hosts")
  reject (host.isEmpty) (invalidField field "must include a host")
  ensure (Ipv6.accepts (String.ofList host))
    (invalidField field "must contain a valid IPv6 host inside brackets")
  match remainder.drop 1 with
  | [] => .ok ()
  | ':' :: port => do
    reject port.isEmpty (invalidField field "port must be numeric")
    validatePort field (String.ofList port)
  | _ => .error (invalidField field "must separate the host and path with /")

/-- The host and the port of an authority. A port stands after the only colon. -/
private def splitPort (authority : String) : String × Option String :=
  match Text.split (· == ':') authority with
  | [host, port] => if port.toList.isEmpty then (authority, none) else (host, some port)
  | _ => (authority, none)

def validateHttpsEndpointAuthority (field value : String) : ExtensionValidationResult Unit := do
  let authority := (Text.split (fun character => character ∈ ['/', '?', '#']) value).headD ""
  reject authority.toList.isEmpty (invalidField field "must include a host")
  reject ('@' ∈ authority.toList) (invalidField field "must not contain userinfo")
  match Text.stripLead authority "[" with
  | some stripped => validateBracketedAuthority field stripped
  | none => do
    let (host, port) := splitPort authority
    reject (host.toList.isEmpty ∨ Text.startsWith host "." ∨ Text.endsWith host ".")
      (invalidField field "must include a valid host")
    ensure (host.toList.all fun character =>
        character.isAlphanum || character == '-' || character == '.')
      (invalidField field "host contains invalid characters")
    whenSome port (validatePort field)

def validateHttpEndpoint (field : String) (value : Option String) :
    ExtensionValidationResult Unit := do
  let value ← okOr value (missingField field)
  requireNonEmpty field value
  requireNoWhitespace field value
  let rest ← okOr (Text.stripLead value "https://") (invalidField field "must start with https://")
  validateHttpsEndpointAuthority field rest

end Endpoints

section Parts

variable (manifest : ExtensionManifest) (boundary : ExtensionBoundary)
  (policy : ManifestValidationPolicy)

def classifyBoundary : ExtensionValidationResult ExtensionBoundary :=
  let isOfficialId := Text.startsWith manifest.id policy.officialIdPrefix
  let isLocalId := Text.startsWith manifest.id policy.localIdPrefix
  match manifest.provenance.source with
  | .local_ => do
    ensure isLocalId
      (boundaryViolation s!"local extensions must use the {policy.localIdPrefix} id namespace")
    return .localDevelopment
  | .registry | .github =>
    if isOfficialId then do
      ensure (manifest.provenance.registryIdentity = some policy.officialRegistryIdentity)
        (boundaryViolation "official extensions must be issued by the official registry identity")
      return .official
    else do
      reject isLocalId
        (boundaryViolation "non-local extensions cannot use the local id namespace")
      return .thirdParty

def validateEntrypoint : ExtensionValidationResult Unit := do
  ensure (manifest.entrypoints.realm = .backend)
    (unsupportedRuntime manifest.entrypoints.runtime
      "this registry slice only accepts backend extensions")
  ensure (manifest.entrypoints.protocol = extensionRpcProtocol)
    (invalidField "entrypoints.protocol" s!"expected {extensionRpcProtocol}")
  match manifest.entrypoints.runtime with
  | .wasmRust | .wasm =>
    ensure (hasNonEmptyTrimmed manifest.entrypoints.wasm) (missingField "entrypoints.wasm")
  | .process => do
    ensure (boundary = .localDevelopment ∧ policy.allowLocalProcessRuntime)
      (unsupportedRuntime .process
        "process runtime is local-development only and must be explicitly enabled")
    ensure (hasNonEmptyTrimmed manifest.entrypoints.command) (missingField "entrypoints.command")
  | .docker | .remote | .swiftClient =>
    .error (unsupportedRuntime manifest.entrypoints.runtime
      "first backend slice supports wasm-rust, wasm, and explicit local process development only")

def validatePublication : ExtensionValidationResult Unit :=
  whenSome manifest.provenance.publication fun publication =>
    match publication.visibility with
    | .privateRemix =>
      ensure (publication.registrySubmission = .notSubmitted)
        (invalidField "provenance.publication.registry_submission"
          "private remixes must not claim registry submission")
    | .unlistedShare => do
      reject (publication.registrySubmission = .rejected)
        (invalidField "provenance.publication.registry_submission"
          "unlisted shares cannot rely on rejected registry submission")
      reject (publication.registrySubmission ∈
            [ExtensionRegistrySubmission.submitted, .accepted] ∧
          hasNonEmptyTrimmed manifest.provenance.registryIdentity = false)
        (provenanceRequired "provenance.registry_identity"
          "registry-submitted unlisted shares must declare registry identity")
    | .publicSearchable => do
      reject (boundary = .localDevelopment)
        (boundaryViolation
          "public searchable packages cannot use local-development package authority")
      reject (publication.registrySubmission ≠ .awaitingSubmission ∧
          hasNonEmptyTrimmed manifest.provenance.registryIdentity = false)
        (provenanceRequired "provenance.registry_identity"
          "public packages must declare registry identity")
      reject (publication.registrySubmission ∈
            [ExtensionRegistrySubmission.notSubmitted, .rejected])
        (invalidField "provenance.publication.registry_submission"
          "public packages must be submitted or accepted by the registry")
    | .official => do
      ensure (boundary = .official)
        (boundaryViolation "official publication requires official package authority")
      ensure (manifest.provenance.registryIdentity = some policy.officialRegistryIdentity)
        (boundaryViolation "official publication must use the official registry identity")
      ensure (publication.registrySubmission = .accepted)
        (invalidField "provenance.publication.registry_submission"
          "official packages must be accepted by the registry")

def requireSigned : ExtensionValidationResult Unit :=
  match boundary with
  | .localDevelopment =>
    reject ((hasNonEmptyTrimmed manifest.provenance.signature = false ∨
          hasNonEmptyTrimmed manifest.provenance.signer = false) ∧
        policy.allowLocalUnsigned = false)
      (provenanceRequired "provenance.signature"
        "local unsigned extensions require explicit dev-mode approval")
  | .official | .thirdParty => do
    ensure (hasNonEmptyTrimmed manifest.provenance.signature)
      (provenanceRequired "provenance.signature" "non-local extensions must be signed")
    ensure (hasNonEmptyTrimmed manifest.provenance.signer)
      (provenanceRequired "provenance.signer" "non-local extensions must identify a signer")

def requireSourceFields : ExtensionValidationResult Unit :=
  match manifest.provenance.source with
  | .github => do
    ensure (hasNonEmptyTrimmed manifest.provenance.repository)
      (provenanceRequired "provenance.repository"
        "github-sourced extensions must declare a repository")
    ensure (hasNonEmptyTrimmed manifest.provenance.sourceRef)
      (provenanceRequired "provenance.ref" "github-sourced extensions must declare a ref")
    ensure (hasNonEmptyTrimmed manifest.provenance.manifestPath)
      (provenanceRequired "provenance.manifest_path"
        "github-sourced extensions must declare a manifest path")
    ensure (hasNonEmptyTrimmed manifest.provenance.commit)
      (provenanceRequired "provenance.commit" "github-sourced extensions must declare a commit")
  | .registry =>
    ensure (hasNonEmptyTrimmed manifest.provenance.registryIdentity)
      (provenanceRequired "provenance.registry_identity"
        "registry-sourced extensions must declare registry identity")
  | .local_ => .ok ()

def validateProvenance : ExtensionValidationResult Unit := do
  requireDigest "provenance.artifact_digest" manifest.provenance.artifactDigest
  requireDigest "provenance.manifest_digest" manifest.provenance.manifestDigest
  requireSigned manifest boundary policy
  requireSourceFields manifest
  whenSome manifest.provenance.lineage fun lineage => do
    requireReverseDnsId "provenance.lineage.parent_id" lineage.parentId
    whenSome lineage.parentVersion (requireSemver "provenance.lineage.parent_version")
    whenSome lineage.parentManifestDigest
      (requireDigest "provenance.lineage.parent_manifest_digest")
  validatePublication manifest boundary policy

def validatePermissions (permissions : Table String ExtensionPermission) :
    ExtensionValidationResult Unit :=
  checkAll (fun (permission, metadata) => do
    requirePermissionName permission
    requireNonEmpty "permissions.description" metadata.description
    whenSome metadata.riskTier fun riskTier =>
      ensure (riskTier ∈ ["R0", "R1", "R2", "R3", "R4"])
        (invalidField "permissions.risk_tier" s!"unsupported risk tier {riskTier}"))
    permissions.toList

/-- The permissions of a tool in their order, each once. -/
private def requiredPermissions (tool : ExtensionToolDefinition) : List String :=
  ((tool.permissions ++ tool.permissionsRequired).foldl
    (fun names permission => names.insert permission ()) (∅ : Table String Unit)).keys

def validateTools : ExtensionValidationResult Unit := do
  let hasToolType := ExtensionKind.tool ∈ manifest.types
  let hasTools := !manifest.tools.isEmpty
  reject (hasTools ∧ ¬ hasToolType) (invalidField "types" "tool declarations require type tool")
  reject (hasToolType ∧ ¬ hasTools) (missingField "tools")
  checkUnseen (fun tool => requireNonEmpty "tools.id" tool.id)
    (fun tool => do
      reject (tool.permissions.isEmpty ∧ tool.permissionsRequired.isEmpty)
        (missingField "tools.permissions")
      checkAll (fun permission => do
        requirePermissionName permission
        ensure (manifest.permissions.contains permission)
          (missingToolPermission tool.id permission)) (requiredPermissions tool))
    ExtensionToolDefinition.id (fun tool => duplicateToolDeclaration tool.id) manifest.tools []

def validateServiceParts (service method schemaVersion : String) :
    ExtensionValidationResult Unit := do
  requireNonEmpty "services.service" service
  requireNonEmpty "services.method" method
  requireNonEmpty "services.schema_version" schemaVersion
  checkAll (fun (field, value) => requireNoWhitespace field value)
    [("services.service", service), ("services.method", method),
      ("services.schema_version", schemaVersion)]

def requireDeclaredServicePermission (permissions : Table String ExtensionPermission)
    (service method permission : String) : ExtensionValidationResult Unit :=
  ensure (permissions.contains permission) (missingServicePermission service method permission)

def serviceKey (service method schemaVersion : String) : String :=
  s!"{service}:{method}:{schemaVersion}"

def validateServices : ExtensionValidationResult Unit := do
  let hasServiceKind := ExtensionKind.service ∈ manifest.types
  let declaresServices := !manifest.services.provides.isEmpty || !manifest.services.consumes.isEmpty
  reject (declaresServices ∧ ¬ hasServiceKind)
    (invalidField "types" "service declarations require type service")
  reject (hasServiceKind ∧ ¬ declaresServices) (missingField "services")
  checkDistinct (fun service => do
      validateServiceParts service.service service.method service.schemaVersion
      requirePermissionName service.requiredPermission
      requireDeclaredServicePermission manifest.permissions service.service service.method
        service.requiredPermission)
    (fun service => serviceKey service.service service.method service.schemaVersion)
    (fun service => duplicateServiceDeclaration service.service service.method service.schemaVersion)
    manifest.services.provides []
  checkDistinct (fun dependency => do
      requireReverseDnsId "services.consumes.extension_id" dependency.extensionId
      validateServiceParts dependency.service dependency.method dependency.schemaVersion
      requirePermissionName dependency.requiredPermission
      requireDeclaredServicePermission manifest.permissions dependency.service dependency.method
        dependency.requiredPermission)
    (fun dependency => s!"{dependency.extensionId}:" ++
      serviceKey dependency.service dependency.method dependency.schemaVersion)
    (fun dependency =>
      duplicateServiceDeclaration dependency.service dependency.method dependency.schemaVersion)
    manifest.services.consumes []

def validateToolOutput : ExtensionValidationResult Unit := do
  reject (manifest.toolOutput ≠ [] ∧ ExtensionKind.toolOutputCustomizer ∉ manifest.types)
    (invalidField "types" "tool output declarations require type tool_output_customizer")
  checkUnseen (fun toolOutput => requireTrimmedNonEmpty "tool_output.tool_id" toolOutput.toolId)
    (fun toolOutput => do
      validateOptionalChoice "tool_output.format" toolOutput.format ["toon", "json"]
      validateOptionalChoice "tool_output.verbosity" toolOutput.verbosity
        ["minimal", "normal", "expanded", "debug"]
      validateOptionalChoice "tool_output.language_mode" toolOutput.languageMode
        ["user", "english_agent", "mixed"]
      validateStringList "tool_output.fields" toolOutput.fields
      validateStringList "tool_output.redactions" toolOutput.redactions
      ensure (toolOutput.toolId ∈ manifest.tools.map ExtensionToolDefinition.id)
        (invalidField "tool_output.tool_id"
          s!"tool output customization targets undeclared tool {toolOutput.toolId}"))
    ExtensionToolOutputDefinition.toolId
    (fun toolOutput => duplicateToolOutputDeclaration toolOutput.toolId) manifest.toolOutput []

private def verifications : List String :=
  ["hmac", "github_signature", "oidc", "none_for_local_only"]

private def declarationStatuses : List String :=
  ["enabled", "disabled", "blocked", "needs_approval"]

/-- Hooks and webhooks name how their callers are verified. -/
private def validateVerification (field : String) (verification : Option String) :
    ExtensionValidationResult Unit := do
  validateOptionalChoice field verification verifications
  reject (verification = some "none_for_local_only" ∧ boundary ≠ .localDevelopment)
    (invalidField field "none_for_local_only is only allowed for local-development manifests")

private def validateCapabilities (field : String) (capabilities : List String) :
    ExtensionValidationResult Unit := do
  validateStringList field capabilities
  checkAll requirePermissionName capabilities

def validateHooks : ExtensionValidationResult Unit := do
  reject (manifest.hooks ≠ [] ∧ ExtensionKind.hookProvider ∉ manifest.types)
    (invalidField "types" "hook declarations require type hook_provider")
  checkUnseen (fun hook => requireTrimmedNonEmpty "hooks.hook_id" hook.hookId)
    (fun hook => do
      validateRequiredString "hooks.trigger" hook.trigger
      validateVerification boundary "hooks.verification" hook.verification
      validateCapabilities "hooks.required_capabilities" hook.requiredCapabilities
      validateOptionalChoice "hooks.action" hook.action
        ["workflow", "tool", "notification", "memory_update", "extension_action"]
      validateOptionalChoice "hooks.status" hook.status declarationStatuses)
    ExtensionHookDefinition.hookId (fun hook => duplicateHookDeclaration hook.hookId)
    manifest.hooks []

def validateWebhooks : ExtensionValidationResult Unit := do
  reject (manifest.webhooks ≠ [] ∧ ExtensionKind.webhookReceiver ∉ manifest.types)
    (invalidField "types" "webhook declarations require type webhook_receiver")
  checkUnseen (fun webhook => requireTrimmedNonEmpty "webhooks.webhook_id" webhook.webhookId)
    (fun webhook => do
      validateOptionalChoice "webhooks.source" webhook.source ["atelia", "github", "external"]
      validateRequiredString "webhooks.event" webhook.event
      validateHttpEndpoint "webhooks.endpoint" webhook.endpoint
      validateVerification boundary "webhooks.verification" webhook.verification
      validateCapabilities "webhooks.required_capabilities" webhook.requiredCapabilities
      validateOptionalChoice "webhooks.status" webhook.status declarationStatuses)
    ExtensionWebhookDefinition.webhookId
    (fun webhook => duplicateWebhookDeclaration webhook.webhookId) manifest.webhooks []

def validateComposition : ExtensionValidationResult Unit :=
  checkAll (fun attachment =>
    requireReverseDnsId "composition.attachments.extension_id" attachment.extensionId)
    manifest.composition.attachments

def validateMigration : ExtensionValidationResult Unit :=
  checkAll (requireSemver "migration.from") manifest.migration.from_

/-- The fields at the head of a manifest. -/
def validateHeader : ExtensionValidationResult Unit := do
  ensure (manifest.schema = extensionManifestSchema)
    (invalidSchema extensionManifestSchema manifest.schema)
  requireNonEmpty "id" manifest.id
  requireReverseDnsId "id" manifest.id
  requireNonEmpty "name" manifest.name
  requireNonEmpty "version" manifest.version
  requireSemver "version" manifest.version
  requireNonEmpty "publisher.name" manifest.publisher.name
  requireNonEmpty "description" manifest.description
  requireNonEmpty "compatibility.atelia_protocol" manifest.compatibility.ateliaProtocol
  requireNonEmpty "compatibility.atelia_secretary" manifest.compatibility.ateliaSecretary
  reject manifest.types.isEmpty (missingField "types")

/-- What is declared after the provenance. -/
def validateDeclarations : ExtensionValidationResult Unit := do
  validatePermissions manifest.permissions
  validateTools manifest
  validateServices manifest
  validateToolOutput manifest
  validateHooks manifest boundary
  validateWebhooks manifest boundary
  validateComposition manifest
  validateMigration manifest

def validateManifest : ExtensionValidationResult ValidatedExtensionManifest := do
  validateHeader manifest
  let boundary ← classifyBoundary manifest policy
  validateEntrypoint manifest boundary policy
  validateProvenance manifest boundary policy
  validateDeclarations manifest boundary
  return { manifest, boundary }

end Parts

end Atelia.Registry
