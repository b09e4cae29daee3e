import Atelia.Registry.Operations

/-! What the registry answers without changing: the status of packages and grants of service
calls between them. -/

namespace Atelia.Registry

open Outcome

structure ExtensionBlocklistMatch where
  reason : BlockReason
  key : BlockKey
  deriving DecidableEq

structure ExtensionStatusSnapshot where
  extensionId : String
  record : ExtensionInstallRecord
  block : Option ExtensionBlocklistMatch
  deriving DecidableEq

structure ServiceCallRequest where
  callerExtensionId : String
  calleeExtensionId : String
  service : String
  method : String
  schemaVersion : String
  requiredPermission : Option String
  deriving DecidableEq

structure ServiceCallGrant where
  callerExtensionId : String
  callerVersion : String
  calleeExtensionId : String
  calleeVersion : String
  service : String
  method : String
  schemaVersion : String
  requiredPermission : String
  deriving DecidableEq

namespace ExtensionRegistrySnapshot

variable (registry : ExtensionRegistrySnapshot)

def extensionStatus (extensionId : String) : RegistryResult ExtensionStatusSnapshot := do
  let manifest ← okOr (registry.activeManifest extensionId) (.notInstalled extensionId)
  let record ← okOr (registry.activeRecord extensionId) (.notInstalled extensionId)
  let block := (registry.findBlocklistHit manifest).map fun entry =>
    { reason := entry.reason, key := entry.key : ExtensionBlocklistMatch }
  let record := if block.isSome then { record with status := .blocked } else record
  return { extensionId, record, block }

def listExtensionStatuses : RegistryResult (List ExtensionStatusSnapshot) :=
  registry.activeVersions.keys.mapM registry.extensionStatus

def ensureActiveRecordEnabled (extensionId role : String) : RegistryResult Unit := do
  let record ← okOr (registry.activeRecord extensionId) (.notInstalled extensionId)
  match record.status with
  | .installed | .installedPreviousVersion => .ok ()
  | .disabled => .error (.serviceDenied s!"{role} extension {extensionId} is disabled")
  | .blocked => .error (.serviceDenied s!"{role} extension {extensionId} is blocked")
  | .updating | .rollbackInProgress =>
    .error (.serviceDenied s!"{role} extension {extensionId} is not ready for service calls")

def authorizeServiceCall (request : ServiceCallRequest) : RegistryResult ServiceCallGrant := do
  registry.ensureActiveRecordEnabled request.callerExtensionId "caller"
  registry.ensureActiveRecordEnabled request.calleeExtensionId "callee"
  let callerManifest ← okOr (registry.activeManifest request.callerExtensionId)
    (.notInstalled request.callerExtensionId)
  let calleeManifest ← okOr (registry.activeManifest request.calleeExtensionId)
    (.notInstalled request.calleeExtensionId)
  registry.ensureNotBlocked callerManifest
  registry.ensureNotBlocked calleeManifest
  let consume ← okOr (callerManifest.services.consumes.find? fun dependency =>
      dependency.extensionId = request.calleeExtensionId && dependency.service = request.service &&
        dependency.method = request.method && dependency.schemaVersion = request.schemaVersion)
    (.serviceDenied "caller did not declare services.consumes for this callee service")
  let provide ← okOr (calleeManifest.services.provides.find? fun definition =>
      definition.service = request.service && definition.method = request.method &&
        definition.schemaVersion = request.schemaVersion)
    (.serviceUnavailable "callee did not declare services.provides for this service")
  let requiredPermission := request.requiredPermission.getD provide.requiredPermission
  ensure (consume.requiredPermission = requiredPermission ∧
      provide.requiredPermission = requiredPermission)
    (.serviceDenied
      "caller consume permission, callee provide permission, and request permission must match")
  ensure (callerManifest.permissions.contains requiredPermission)
    (.serviceDenied s!"caller does not have approved permission {requiredPermission}")
  let providerPermission ← okOr calleeManifest.permissions[requiredPermission]?
    (.serviceDenied s!"callee permission metadata missing for {requiredPermission}")
  let callerPermission ← okOr callerManifest.permissions[requiredPermission]?
    (.serviceDenied s!"caller does not have approved permission {requiredPermission}")
  ensure (callerPermission = providerPermission)
    (.serviceDenied "caller permission metadata does not match provider permission metadata")
  return {
    callerExtensionId := request.callerExtensionId
    callerVersion := registry.activeVersions[request.callerExtensionId]?.getD ""
    calleeExtensionId := request.calleeExtensionId
    calleeVersion := registry.activeVersions[request.calleeExtensionId]?.getD ""
    service := request.service
    method := request.method
    schemaVersion := request.schemaVersion
    requiredPermission }

end ExtensionRegistrySnapshot

end Atelia.Registry
