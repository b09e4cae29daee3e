import Atelia.Service.Packages

/-! Errors of remote calls. -/

namespace Atelia

/-- The text of the error. -/
def Store.StoreError.display : Store.StoreError → String
  | .notFound collection id => s!"{collection} record was not found: {id}"
  | .duplicateId collection id => s!"{collection} record already exists: {id}"
  | .conflict collection reason => s!"{collection} conflict: {reason}"
  | .invalidReference collection reason => s!"{collection} invalid reference: {reason}"
  | .invalidCursor reason => s!"invalid event cursor: {reason}"
  | .cursorExpired reason => s!"expired event cursor: {reason}"
  | .sequenceOverflow => "job event sequence overflowed"
  | .invalidRecord collection reason => s!"{collection} invalid record: {reason}"

namespace Rpc

inductive RpcErrorCode where
  | invalidArgument | notFound | cursorExpired | conflict | unsupportedCapability | internal
  deriving DecidableEq

structure RpcError where
  code : RpcErrorCode
  reason : String
  deriving DecidableEq

abbrev RpcResult (α : Type) : Type := Except RpcError α

namespace RpcError

def invalidArgument (reason : String) : RpcError := ⟨.invalidArgument, reason⟩

/-- `store_error_to_rpc`. -/
def ofStore (error : Store.StoreError) : RpcError where
  code := match error with
    | .notFound _ _ => .notFound
    | .duplicateId _ _ | .conflict _ _ => .conflict
    | .invalidReference _ _ | .invalidCursor _ | .invalidRecord _ _ => .invalidArgument
    | .cursorExpired _ => .cursorExpired
    | .sequenceOverflow => .internal
  reason := error.display

/-- `registry_error_to_rpc`. -/
def ofRegistry (error : Registry.RegistryError) : RpcError where
  code := match error with
    | .validation _ | .unsupportedBlocklistKey _ | .serviceDenied _ => .invalidArgument
    | .blocked _ _ _ | .digestConflict _ _ | .sourceChangeRequiresApproval _
    | .rollbackUnavailable _ => .conflict
    | .notInstalled _ => .notFound
    | .serviceUnavailable _ => .internal
  reason := error.display

def ofService : Service.ServiceError → RpcError
  | .store error => ofStore error
  | .extensionRegistry error => ofRegistry error
  | .invalidArgument reason => ⟨.invalidArgument, reason⟩
  | .internal reason => ⟨.internal, reason⟩

end RpcError

end Rpc

end Atelia
