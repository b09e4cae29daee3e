import Atelia.Runtime.Policy
import Atelia.Service.Packages

/-! The arguments of a submitted job: the capabilities it names, the tool they stand for,
and the arguments that this tool takes. -/

namespace Atelia.Service

open Outcome Policy

section Capabilities

abbrev ServiceResult (α : Type) : Type := Except ServiceError α

def capabilityDiscovery : String := "capability.discovery"

/-- The capabilities of the file system, each with its short name. -/
def filesystemCapabilities : List (String × String) :=
  [("filesystem.read", "fs.read"), ("filesystem.list", "fs.list"), ("filesystem.stat", "fs.stat"),
    ("filesystem.delete", "fs.delete"), ("filesystem.write", "fs.write"),
    ("filesystem.patch", "fs.patch"), ("filesystem.move", "fs.move"),
    ("filesystem.search", "fs.search"), ("filesystem.diff", "fs.diff")]

/-- The capability with the given normalized name. -/
def filesystemCapability (normalized : String) : Option String :=
  (filesystemCapabilities.find? fun names =>
    normalized = names.1 || normalized = names.2).map (·.1)

def canonicalizeSubmitRequestedCapability (name : String) : Option String :=
  (canonicalizeJobRequestedCapability name).or
    (filesystemCapability (Capability.normalizedName name))

/-- Note a capability unless it is there already. -/
def pushCapability (normalized : List String) (canonical : String) : List String :=
  if canonical ∈ normalized then normalized else normalized ++ [canonical]

/-- One turn of the loop over the requested capabilities. -/
def normalizeCapability (normalized : List String) (capability : String) :
    ServiceResult (List String) := do
  let trimmed := Text.trim capability
  reject (trimmed = "")
    (.invalidArgument "requested_capabilities must not contain empty entries")
  let canonical ← okOr (canonicalizeSubmitRequestedCapability trimmed)
    (.invalidArgument s!"requested_capabilities contains unsupported capability: {trimmed}")
  return pushCapability normalized canonical

def normalizeRequestedCapabilities (requestedCapabilities : List String) :
    ServiceResult (List String) := do
  let normalized ← requestedCapabilities.foldlM normalizeCapability []
  let normalized := if normalized.isEmpty then [capabilityDiscovery] else normalized
  return normalized.mergeSort (· ≤ ·)

end Capabilities

section Kinds

inductive SubmitJobToolKind where
  | echo | fsRead | fsList | fsStat | fsDelete | fsWrite | fsPatch | fsMove | fsSearch | fsDiff
  deriving DecidableEq

/-- The capabilities that change files. -/
def mutatingCapabilities : List String :=
  ["filesystem.delete", "filesystem.write", "filesystem.patch", "filesystem.move"]

def filesystemToolKind : String → SubmitJobToolKind
  | "filesystem.list" => .fsList
  | "filesystem.stat" => .fsStat
  | "filesystem.delete" => .fsDelete
  | "filesystem.write" => .fsWrite
  | "filesystem.patch" => .fsPatch
  | "filesystem.move" => .fsMove
  | "filesystem.search" => .fsSearch
  | "filesystem.diff" => .fsDiff
  | _ => .fsRead

/-- Only the kind of the job and the resource scope of the request are read. -/
def resolveSubmitJobToolKind (kind : JobKind) (resourceScope : Option ResourceScope) :
    List String → ServiceResult SubmitJobToolKind
  | [capability] =>
    if capability = capabilityDiscovery then return .echo
    else if capability ∈ filesystemCapabilities.map (·.1) then do
      let resourceScope ← okOr resourceScope
        (.invalidArgument s!"{capability} requires a path_scope/resource_scope")
      reject (capability ∈ mutatingCapabilities ∧ kind ≠ .mutate)
        (.invalidArgument "filesystem mutate operations require job kind mutate")
      reject (capability ∈ mutatingCapabilities ∧ Text.trim resourceScope.kind = "read_only")
        (.invalidArgument
          "filesystem mutate operations require resource_scope.kind to be repository, explicit_paths, or path")
      ensure (Text.trim resourceScope.kind ∈ ["repository", "explicit_paths", "read_only", "path"])
        (.invalidArgument
          s!"{capability} requires resource_scope.kind to be repository, explicit_paths, read_only, or path")
      return filesystemToolKind capability
    else .error (.invalidArgument
      s!"requested_capabilities contains unsupported capability: {capability}")
  | _ => .error (.invalidArgument
    "requested_capabilities must resolve to exactly one supported capability")

end Kinds

section Arguments

structure SubmitJobToolArgs where
  pattern : Option String := none
  max : Option UInt64 := none
  content : Option String := none
  comparisonPath : Option String := none
  maxBytes : Option UInt64 := none
  destinationPath : Option String := none
  allowOverwrite : Option Bool := none
  replacementText : Option String := none
  maxChars : Option UInt64 := none
  deriving DecidableEq

inductive SubmitJobToolArgsSpec where
  | search (pattern : String) (maxResults : Option Nat)
  | write (content : String) (allowOverwrite : Bool) (maxBytes : Option Nat)
  | patch (findText replacementText : String) (maxBytes : Option Nat)
  | move (destinationPath : String) (allowOverwrite : Bool)
  | diff (comparisonPath : String) (maxBytes maxChars : Option Nat)
  | none
  deriving DecidableEq

/-- The width of `usize`. -/
def usizeBits : Nat := 64

/-- `usize::try_from`, with the error for a value that does not fit. -/
def usizeLimit (limit : Option UInt64) (reason : String) : ServiceResult (Option Nat) :=
  match limit with
  | .none => return .none
  | .some value => do
    ensure (value.toNat < 2 ^ usizeBits) (.invalidArgument reason)
    return .some value.toNat

/-- A text that must be there and must not be blank. -/
def requiredText (value : Option String) (reason : String) : ServiceResult String := do
  let text ← okOr value (.invalidArgument reason)
  reject (Text.isBlank text) (.invalidArgument reason)
  return text

/-- Refuse arguments beside those that a tool takes. -/
def refuseOthers {ε : Type} (others : List Bool) (error : ε) : Except ε Unit :=
  reject (others.any id) error

def missingToolArgs : ServiceError :=
  .invalidArgument "tool_args is required for this capability"

def resolveSearch (args : SubmitJobToolArgs) : ServiceResult SubmitJobToolArgsSpec := do
  refuseOthers [args.comparisonPath.isSome, args.maxBytes.isSome, args.maxChars.isSome,
    args.content.isSome, args.destinationPath.isSome, args.allowOverwrite.isSome,
    args.replacementText.isSome] (.invalidArgument "search tool_args only supports pattern and max")
  let pattern ← requiredText args.pattern "search requires non-empty pattern in tool_args"
  let maxResults ← usizeLimit args.max "search max must fit in usize"
  return .search pattern maxResults

def resolveWrite (args : SubmitJobToolArgs) : ServiceResult SubmitJobToolArgsSpec := do
  refuseOthers [args.pattern.isSome, args.max.isSome, args.comparisonPath.isSome,
    args.replacementText.isSome, args.destinationPath.isSome, args.maxChars.isSome]
    (.invalidArgument "write tool_args only supports content, allow_overwrite, and max_bytes")
  let content ← okOr args.content (.invalidArgument "write requires content in tool_args")
  let maxBytes ← usizeLimit args.maxBytes "max_bytes must fit in usize"
  return .write content (args.allowOverwrite.getD false) maxBytes

def resolvePatch (args : SubmitJobToolArgs) : ServiceResult SubmitJobToolArgsSpec := do
  refuseOthers [args.max.isSome, args.comparisonPath.isSome, args.content.isSome,
    args.allowOverwrite.isSome, args.destinationPath.isSome, args.maxChars.isSome]
    (.invalidArgument "patch tool_args only supports pattern, replacement_text, and max_bytes")
  let findText ← requiredText args.pattern "patch requires non-empty pattern in tool_args"
  let replacementText ← okOr args.replacementText
    (.invalidArgument "patch requires replacement_text in tool_args")
  let maxBytes ← usizeLimit args.maxBytes "max_bytes must fit in usize"
  return .patch findText replacementText maxBytes

def resolveMove (args : SubmitJobToolArgs) : ServiceResult SubmitJobToolArgsSpec := do
  refuseOthers [args.pattern.isSome, args.max.isSome, args.content.isSome,
    args.comparisonPath.isSome, args.replacementText.isSome, args.maxBytes.isSome,
    args.maxChars.isSome]
    (.invalidArgument "move tool_args only supports destination_path and allow_overwrite")
  let destinationPath ← requiredText args.destinationPath
    "move requires non-empty destination_path in tool_args"
  return .move destinationPath (args.allowOverwrite.getD false)

def resolveDiff (args : SubmitJobToolArgs) : ServiceResult SubmitJobToolArgsSpec := do
  refuseOthers [args.pattern.isSome, args.max.isSome, args.content.isSome,
    args.destinationPath.isSome, args.allowOverwrite.isSome, args.replacementText.isSome]
    (.invalidArgument "diff tool_args only supports comparison_path, max_bytes, and max_chars")
  let comparisonPath ← requiredText args.comparisonPath
    "diff requires non-empty comparison_path in tool_args"
  let maxBytes ← usizeLimit args.maxBytes "max_bytes must fit in usize"
  let maxChars ← usizeLimit args.maxChars "max_chars must fit in usize"
  return .diff comparisonPath maxBytes maxChars

def resolveSubmitJobToolArgs (toolKind : SubmitJobToolKind) (toolArgs : Option SubmitJobToolArgs) :
    ServiceResult SubmitJobToolArgsSpec :=
  match toolKind with
  | .fsSearch => okOr toolArgs missingToolArgs >>= resolveSearch
  | .fsWrite => okOr toolArgs missingToolArgs >>= resolveWrite
  | .fsPatch => okOr toolArgs missingToolArgs >>= resolvePatch
  | .fsMove => okOr toolArgs missingToolArgs >>= resolveMove
  | .fsDiff => okOr toolArgs missingToolArgs >>= resolveDiff
  | _ =>
    if toolArgs.isSome then .error (.invalidArgument
      "tool_args are only supported for filesystem.search, filesystem.diff, filesystem.write, filesystem.patch, and filesystem.move")
    else return .none

end Arguments

end Atelia.Service
