import Atelia.Domain.Records
import Atelia.Store.State

/-! The default policy engine: free-form capability names, the ordered rules and the
decision they produce. -/

namespace Atelia.Policy

def policySchemaVersion : Nat := 1
def defaultPolicyVersion : String := "policy-default-v1"

inductive Capability where
  | informational | filesystemRead | filesystemWrite | processExec | broadRepositoryMutation
  | destructiveRepositoryAction | externalNetworkOrService | secretAccess | unsupported
  deriving DecidableEq

namespace Capability

/-- The characters that may stand for the dot between the parts of a name. -/
def separators : List Char := ['_', '-', ':', '/']

def normalizedName (name : String) : String :=
  Text.replaceAny separators '.' (Text.toAsciiLowercase (Text.trim name))

/-- The names of each supported capability. -/
def names : Capability → List String
  | informational => ["informational", "status", "health", "capability.discovery",
      "capabilities.list", "policy.preview", "policy.check"]
  | filesystemRead => ["filesystem.read", "filesystem.list", "filesystem.search",
      "filesystem.stat", "filesystem.diff", "fs.read", "fs.list", "fs.search", "fs.stat", "fs.diff"]
  | filesystemWrite => ["filesystem.write", "filesystem.patch", "filesystem.delete",
      "filesystem.move", "fs.write", "fs.patch", "fs.delete", "fs.move"]
  | processExec => ["process.exec", "process.execute", "process.run", "proc.exec", "proc.run"]
  | broadRepositoryMutation => ["repository.mutate.broad", "repo.mutate.broad",
      "repository.broad.mutation", "repo.broad.mutation"]
  | destructiveRepositoryAction => ["repository.destructive", "repo.destructive",
      "repository.delete", "repo.delete", "repository.reset.hard", "repo.reset.hard"]
  | externalNetworkOrService => ["network.external", "external.network", "service.external",
      "external.service", "network.call", "service.call"]
  | secretAccess => ["secret.access", "secrets.access", "secret.read", "secrets.read"]
  | unsupported => []

/-- The capabilities in the order in which a name is looked up. -/
def supported : List Capability :=
  [informational, filesystemRead, filesystemWrite, processExec, broadRepositoryMutation,
    destructiveRepositoryAction, externalNetworkOrService, secretAccess]

def fromName (name : String) : Capability :=
  (supported.find? fun capability => normalizedName name ∈ capability.names).getD unsupported

def isRepositoryMutating : Capability → Bool
  | filesystemWrite | processExec | broadRepositoryMutation | destructiveRepositoryAction => true
  | _ => false

end Capability

def canonicalizeJobRequestedCapability (name : String) : Option String :=
  if Capability.fromName name = .informational then some "capability.discovery" else none

section Rules

structure PolicyInput where
  requester : Actor
  repositoryId : RepositoryId
  requestedCapability : String
  resourceScope : ResourceScope
  toolId : Option String := none
  providerId : Option String := none
  declaredEffect : String
  currentTrustState : RepositoryTrustState
  approvalAvailable : Bool
  policyVersion : String
  registeredScope : Bool := true
  broadOrUnbounded : Bool := false

structure RuleDecision where
  outcome : PolicyOutcome
  riskTier : RiskTier
  reasonCode : String
  userReason : String

/-- The rule that the capability alone selects. -/
def capabilityRule (input : PolicyInput) : Capability → RuleDecision
  | .informational => ⟨.allowed, .r0, "informational_allowed",
      "Informational status or capability discovery is allowed."⟩
  | .filesystemRead =>
    if input.currentTrustState = .readOnly then ⟨.audited, .r1, "bounded_read_audited_read_only",
      "Bounded filesystem read is allowed in a read-only repository with audit evidence."⟩
    else ⟨.allowed, .r1, "bounded_read_allowed",
      "Bounded filesystem read is allowed inside the registered repository scope."⟩
  | .filesystemWrite =>
    if input.broadOrUnbounded then ⟨.needsApproval, .r3,
      "filesystem_write_broad_or_unbounded_needs_approval",
      "Broad or unbounded filesystem write needs approval before it can run."⟩
    else ⟨.audited, .r2, "bounded_write_audited",
      "Filesystem modifications inside the registered repository scope require audit evidence."⟩
  | .processExec =>
    if input.broadOrUnbounded then ⟨.needsApproval, .r3,
      "process_broad_or_unbounded_needs_approval",
      "Process execution is broad or unbounded and needs approval before it can run."⟩
    else ⟨.audited, .r2, "bounded_process_audited",
      "Process execution with explicit argv, cwd, timeout, and env allowlist requires audit evidence."⟩
  | .broadRepositoryMutation => ⟨.needsApproval, .r3, "broad_repository_mutation_needs_approval",
      "Broad repository mutation needs approval before it can run."⟩
  | .destructiveRepositoryAction => ⟨.blocked, .r4, "destructive_repository_action_blocked",
      "Destructive repository actions are blocked until explicit policy support exists."⟩
  | .externalNetworkOrService => ⟨.needsApproval, .r3, "external_network_or_service_needs_approval",
      "External network or service access needs approval before it can run."⟩
  | .secretAccess => ⟨.needsApproval, .r3, "secret_access_needs_approval",
      "Secret access needs approval before it can run."⟩
  | .unsupported => ⟨.blocked, .r4, "unsupported_capability_blocked",
      "The requested capability is not supported by the default policy."⟩

def evaluateRule (input : PolicyInput) : RuleDecision :=
  let capability := Capability.fromName input.requestedCapability
  if input.currentTrustState = .blocked then ⟨.blocked, .r4, Store.reasonRepositoryBlocked,
    "The repository is blocked by policy, so the requested action cannot run."⟩
  else if input.registeredScope = false then ⟨.blocked, .r4, "outside_registered_scope",
    "The requested resource is outside the registered repository scope."⟩
  else if capability.isRepositoryMutating ∧ input.currentTrustState = .readOnly then
    ⟨.blocked, .r4, "repository_read_only",
      "The repository is read-only, so repository-mutating actions cannot run."⟩
  else capabilityRule input capability

def evaluate (uuid : Uuid) (createdAt : LedgerTimestamp) (input : PolicyInput) : PolicyDecision :=
  let rule := evaluateRule input
  { id := .new _ uuid
    schemaVersion := policySchemaVersion
    createdAt := createdAt
    requester := input.requester
    repositoryId := input.repositoryId
    requestedCapability := input.requestedCapability
    resourceScope := input.resourceScope
    toolId := input.toolId
    providerId := input.providerId
    declaredEffect := input.declaredEffect
    currentTrustState := input.currentTrustState
    approvalAvailable := input.approvalAvailable
    policyVersion := input.policyVersion
    outcome := rule.outcome
    riskTier := rule.riskTier
    reasonCode := rule.reasonCode
    userReason := rule.userReason
    approvalRequestRef := none
    auditRef := none
    redactions := [] }

theorem evaluate_requestedCapability (uuid : Uuid) (createdAt : LedgerTimestamp)
    (input : PolicyInput) :
    (evaluate uuid createdAt input).requestedCapability = input.requestedCapability := rfl

theorem evaluate_repositoryId (uuid : Uuid) (createdAt : LedgerTimestamp) (input : PolicyInput) :
    (evaluate uuid createdAt input).repositoryId = input.repositoryId := rfl

theorem evaluate_outcome (uuid : Uuid) (createdAt : LedgerTimestamp) (input : PolicyInput) :
    (evaluate uuid createdAt input).outcome = (evaluateRule input).outcome := rfl

/-- The outcomes with which a tool runs. -/
def permits (outcome : PolicyOutcome) : Prop :=
  outcome = .allowed ∨ outcome = .audited

/-- A capability that no rule blocks for the trust state. -/
def Trusts (trustState : RepositoryTrustState) (capability : Capability) : Prop :=
  trustState ≠ .blocked ∧ capability ≠ .unsupported ∧
    (trustState = .readOnly → capability.isRepositoryMutating = false)

/-- A permitting decision respects the trust state of the repository. -/
theorem evaluateRule_trusts {input : PolicyInput} (permitted : permits (evaluateRule input).outcome) :
    Trusts input.currentTrustState (Capability.fromName input.requestedCapability) := by
  simp only [evaluateRule] at permitted
  split at permitted
  · simp [permits] at permitted
  · rename_i unblocked
    split at permitted
    · simp [permits] at permitted
    · split at permitted
      · simp [permits] at permitted
      · rename_i harmless
        refine ⟨unblocked, ?_, ?_⟩
        · intro unknown
          simp [unknown, capabilityRule, permits] at permitted
        · intro readOnly
          simpa [readOnly] using harmless

end Rules

section Spelling

/-- Two characters that a reader of capability names does not tell apart. -/
def SameCharacter (first second : Char) : Prop :=
  first.toLower = second.toLower ∨
    (first ∈ '.' :: Capability.separators ∧ second ∈ '.' :: Capability.separators)

/-- Spellings of one name: they differ in surrounding white space, in the case
of ASCII letters and in the choice of separators. -/
def SameSpelling (first second : String) : Prop :=
  List.Forall₂ SameCharacter (Text.trim first).toList (Text.trim second).toList

private def normalizedCharacter (character : Char) : Char :=
  if character.toLower ∈ Capability.separators then '.' else character.toLower

private theorem normalizedCharacter_separator : ∀ character ∈ '.' :: Capability.separators,
    normalizedCharacter character = '.' := by
  intro character member
  simp only [Capability.separators, List.mem_cons, List.not_mem_nil, or_false] at member
  rcases member with rfl | rfl | rfl | rfl | rfl <;> rfl

private theorem SameCharacter.normalized {first second : Char} (same : SameCharacter first second) :
    normalizedCharacter first = normalizedCharacter second := by
  rcases same with lower | ⟨separator, separator'⟩
  · rw [normalizedCharacter, normalizedCharacter, lower]
  · rw [normalizedCharacter_separator _ separator, normalizedCharacter_separator _ separator']

private theorem map_normalizedCharacter {first second : List Char}
    (same : List.Forall₂ SameCharacter first second) :
    first.map normalizedCharacter = second.map normalizedCharacter := by
  induction same with
  | nil => rfl
  | cons alike _ ih => rw [List.map_cons, List.map_cons, alike.normalized, ih]

private theorem toList_normalizedName (name : String) :
    (Capability.normalizedName name).toList = (Text.trim name).toList.map normalizedCharacter := by
  simp [Capability.normalizedName, Text.replaceAny, Text.toAsciiLowercase, normalizedCharacter,
    List.map_map, Function.comp_def]

/-- Every spelling of a name names the same capability. -/
theorem SameSpelling.fromName_eq {first second : String} (same : SameSpelling first second) :
    Capability.fromName first = Capability.fromName second := by
  have names : Capability.normalizedName first = Capability.normalizedName second := by
    rw [← String.toList_inj, toList_normalizedName, toList_normalizedName]
    exact map_normalizedCharacter same
  rw [Capability.fromName, Capability.fromName, names]

theorem fromName_trim (name : String) :
    Capability.fromName (Text.trim name) = Capability.fromName name := by
  rw [Capability.fromName, Capability.fromName, Capability.normalizedName,
    Capability.normalizedName, Text.trim_trim]

end Spelling

end Atelia.Policy
