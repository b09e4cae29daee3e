import Atelia.Service.ToolArguments

/-! The transport checks the arguments of a submitted job before the service does. -/

namespace Atelia.Rpc

open Outcome Service Policy

section Transport

structure SubmitJobToolArgs where
  pattern : Option String := none
  max : Option UInt64 := none
  content : Option String := none
  destinationPath : Option String := none
  allowOverwrite : Option Bool := none
  replacementText : Option String := none
  comparisonPath : Option String := none
  maxBytes : Option UInt64 := none
  maxChars : Option UInt64 := none
  deriving DecidableEq

/-- The arguments that the service is called with. -/
def SubmitJobToolArgs.toService (args : SubmitJobToolArgs) : Service.SubmitJobToolArgs where
  pattern := args.pattern
  max := args.max
  content := args.content
  destinationPath := args.destinationPath
  allowOverwrite := args.allowOverwrite
  replacementText := args.replacementText
  comparisonPath := args.comparisonPath
  maxBytes := args.maxBytes
  maxChars := args.maxChars

def normalizeCapabilityName (capability : String) : String :=
  Text.replaceAny ['_', '-', ':', '/'] '.' (Text.toAsciiLowercase (Text.trim capability))

def canonicalFilesystemCapability (capability : String) : Option String :=
  match normalizeCapabilityName capability with
  | "filesystem.read" | "fs.read" => some "filesystem.read"
  | "filesystem.list" | "fs.list" => some "filesystem.list"
  | "filesystem.stat" | "fs.stat" => some "filesystem.stat"
  | "filesystem.delete" | "fs.delete" => some "filesystem.delete"
  | "filesystem.write" | "fs.write" => some "filesystem.write"
  | "filesystem.patch" | "fs.patch" => some "filesystem.patch"
  | "filesystem.move" | "fs.move" => some "filesystem.move"
  | "filesystem.search" | "fs.search" => some "filesystem.search"
  | "filesystem.diff" | "fs.diff" => some "filesystem.diff"
  | _ => none

/-- One turn of the loop over the requested capabilities. -/
def pushFilesystemCapability (normalized : List String) (capability : String) : List String :=
  match canonicalFilesystemCapability capability with
  | some canonical => pushCapability normalized canonical
  | none => normalized

def requestedFilesystemCapabilities (capabilities : List String) : List String :=
  capabilities.foldl pushFilesystemCapability []

def validateSearch (args : SubmitJobToolArgs) : Except String Unit := do
  refuseOthers [args.comparisonPath.isSome, args.maxBytes.isSome, args.maxChars.isSome,
    args.content.isSome, args.destinationPath.isSome, args.allowOverwrite.isSome,
    args.replacementText.isSome]
    "search tool_args only supports pattern and max"
  reject (args.pattern.all Text.isBlank) "search requires non-empty pattern in tool_args"

def validateWrite (args : SubmitJobToolArgs) : Except String Unit := do
  refuseOthers [args.pattern.isSome, args.max.isSome, args.comparisonPath.isSome,
    args.replacementText.isSome, args.destinationPath.isSome, args.maxChars.isSome]
    "write tool_args only supports content, allow_overwrite, and max_bytes"
  reject args.content.isNone "write requires content in tool_args"

def validatePatch (args : SubmitJobToolArgs) : Except String Unit := do
  refuseOthers [args.max.isSome, args.comparisonPath.isSome, args.content.isSome,
    args.allowOverwrite.isSome, args.destinationPath.isSome, args.maxChars.isSome]
    "patch tool_args only supports pattern, replacement_text, and max_bytes"
  reject (args.pattern.all Text.isBlank) "patch requires non-empty pattern in tool_args"
  reject args.replacementText.isNone "patch requires replacement_text in tool_args"

def validateMove (args : SubmitJobToolArgs) : Except String Unit := do
  refuseOthers [args.pattern.isSome, args.max.isSome, args.content.isSome,
    args.comparisonPath.isSome, args.replacementText.isSome, args.maxBytes.isSome,
    args.maxChars.isSome]
    "move tool_args only supports destination_path and allow_overwrite"
  reject (args.destinationPath.all Text.isBlank)
    "move requires non-empty destination_path in tool_args"

def validateDiff (args : SubmitJobToolArgs) : Except String Unit := do
  refuseOthers [args.pattern.isSome, args.max.isSome, args.content.isSome,
    args.destinationPath.isSome, args.allowOverwrite.isSome, args.replacementText.isSome]
    "diff tool_args only supports comparison_path, max_bytes, and max_chars"
  reject (args.comparisonPath.all Text.isBlank)
    "diff requires non-empty comparison_path in tool_args"

/-- The arguments of the first capability. -/
def validateSubmitJobToolArgs (toolArgs : Option SubmitJobToolArgs) (capability : String) :
    Except String Unit :=
  match toolArgs with
  | none => reject (capability ∈ ["filesystem.search", "filesystem.diff", "filesystem.write",
      "filesystem.patch", "filesystem.move"]) s!"tool_args is required for {capability}"
  | some args =>
    match capability with
    | "filesystem.search" => validateSearch args
    | "filesystem.write" => validateWrite args
    | "filesystem.patch" => validatePatch args
    | "filesystem.move" => validateMove args
    | "filesystem.diff" => validateDiff args
    | _ => .error "tool_args are only supported for filesystem.search, filesystem.diff, filesystem.write, filesystem.patch, and filesystem.move"

def validateSubmitJobToolArgsForCapabilities (toolArgs : Option SubmitJobToolArgs)
    (requestedCapabilities : List String) : Except String Unit :=
  match (requestedFilesystemCapabilities requestedCapabilities).head? with
  | none => reject toolArgs.isSome
    "tool_args are only supported when a filesystem capability is requested"
  | some capability => validateSubmitJobToolArgs toolArgs capability

end Transport

variable {capability : String}

section Capabilities

theorem filesystemCapability_mem {normalized : String}
    (named : filesystemCapability normalized = some capability) :
    capability ∈ filesystemCapabilities.map (·.1) := by
  obtain ⟨names, found, rfl⟩ := Option.map_eq_some_iff.mp named
  exact List.mem_map_of_mem (List.mem_of_find?_eq_some found)

/-- No capability of the file system has an informational name. -/
theorem fromName_of_filesystemCapability {name : String}
    (named : filesystemCapability (Capability.normalizedName name) = some capability) :
    Capability.fromName name ≠ .informational := by
  have apart : ∀ names ∈ filesystemCapabilities, names.1 ∉ Capability.informational.names ∧
      names.2 ∉ Capability.informational.names := by decide
  obtain ⟨names, found, -⟩ := Option.map_eq_some_iff.mp named
  have spelled := List.find?_some found
  simp only [Bool.or_eq_true, decide_eq_true_eq] at spelled
  obtain ⟨full, short⟩ := apart names (List.mem_of_find?_eq_some found)
  have other : Capability.normalizedName name ∉ Capability.informational.names := by
    rcases spelled with same | same <;> rwa [same]
  intro informational
  unfold Capability.fromName at informational
  cases looked : Capability.supported.find?
      fun capability => decide (Capability.normalizedName name ∈ capability.names) with
  | none => simp [looked] at informational
  | some capability =>
    rw [looked, Option.getD_some] at informational
    have spelled := List.find?_some looked
    subst informational
    exact other (of_decide_eq_true spelled)

theorem discovery_not_mem : capabilityDiscovery ∉ filesystemCapabilities.map (·.1) := by decide

/-- The transport knows the names that the service knows. -/
theorem canonicalFilesystemCapability_eq (capability : String) :
    canonicalFilesystemCapability capability =
      filesystemCapability (normalizeCapabilityName capability) := by
  unfold canonicalFilesystemCapability
  split
  case h_19 =>
    simp [filesystemCapability, filesystemCapabilities]
    and_intros <;> assumption
  all_goals
    rename_i named
    rw [named]
    rfl

theorem canonicalFilesystemCapability_trim (capability : String) :
    canonicalFilesystemCapability capability =
      filesystemCapability (Capability.normalizedName (Text.trim capability)) := by
  rw [canonicalFilesystemCapability_eq, Capability.normalizedName, Text.trim_trim]
  rfl

theorem filter_pushCapability {normalized : List String} {canonical : String}
    (different : canonical ≠ capabilityDiscovery) :
    (pushCapability normalized canonical).filter (· ≠ capabilityDiscovery) =
      pushCapability (normalized.filter (· ≠ capabilityDiscovery)) canonical := by
  unfold pushCapability
  by_cases present : canonical ∈ normalized
  · simp [present, different]
  · simp [present, different, List.filter_append]

/-- Both read a spelling in the same way, except that the service also knows
informational names. -/
theorem canonicalize_cases {canonical : String}
    (named : canonicalizeSubmitRequestedCapability (Text.trim capability) = some canonical) :
    canonical = capabilityDiscovery ∧ canonicalFilesystemCapability capability = none ∨
      canonical ≠ capabilityDiscovery ∧
        canonicalFilesystemCapability capability = some canonical := by
  rw [canonicalFilesystemCapability_trim]
  rcases Option.or_eq_some_iff.mp named with informational | ⟨-, filesystem⟩
  · have hinted : Capability.fromName (Text.trim capability) = .informational := by
      by_contra other
      rw [canonicalizeJobRequestedCapability, if_neg other] at informational
      cases informational
    rw [canonicalizeJobRequestedCapability, if_pos hinted] at informational
    refine .inl ⟨(Option.some.inj informational).symm, ?_⟩
    by_contra other
    obtain ⟨found, filesystem⟩ := Option.ne_none_iff_exists'.mp other
    exact fromName_of_filesystemCapability filesystem hinted
  · exact .inr ⟨fun same => discovery_not_mem (same ▸ filesystemCapability_mem filesystem),
      filesystem⟩

/-- A turn of the service moves the list of the transport as its own loop does. -/
theorem normalizeCapability_moves (before : List String) (capability : String)
    (after : List String) (turned : normalizeCapability before capability = .ok after) :
    after.filter (· ≠ capabilityDiscovery) =
      pushFilesystemCapability (before.filter (· ≠ capabilityDiscovery)) capability := by
  simp only [normalizeCapability, bind_eq_ok, exists_unit, okOr_eq_ok, pure_eq_ok] at turned
  obtain ⟨-, canonical, named, rfl⟩ := turned
  unfold pushFilesystemCapability
  rcases canonicalize_cases named with ⟨same, none⟩ | ⟨different, named⟩
  · rw [none, pushCapability]
    split_ifs with present
    · rfl
    · simp [List.filter_append, same]
  · rw [named]
    exact filter_pushCapability different

/-- What the transport finds where the service finds one capability. -/
theorem requestedFilesystemCapabilities_eq {capabilities : List String}
    (resolves : normalizeRequestedCapabilities capabilities = .ok [capability]) :
    requestedFilesystemCapabilities capabilities =
      [capability].filter (· ≠ capabilityDiscovery) := by
  simp only [normalizeRequestedCapabilities, bind_eq_ok, pure_eq_ok] at resolves
  obtain ⟨normalized, looped, sorted⟩ := resolves
  have moved : normalized.filter (· ≠ capabilityDiscovery) =
      requestedFilesystemCapabilities capabilities :=
    foldlM_moves normalizeCapability_moves looped
  rw [← moved]
  have single := List.perm_singleton.mp (sorted ▸ (List.mergeSort_perm _ _).symm)
  cases normalized with
  | nil =>
    rw [← List.singleton_inj.mp single]
    simp
  | cons first rest => exact congrArg _ single

end Capabilities

section Agreement

variable {args : SubmitJobToolArgs} {toolArgs : Option SubmitJobToolArgs}

/-- A value of 64 bits fits in a `usize`. -/
theorem usizeLimit_eq_ok (limit : Option UInt64) (reason : String) :
    usizeLimit limit reason = .ok (limit.map UInt64.toNat) := by
  cases limit with
  | none => rfl
  | some value => simp [usizeLimit, usizeBits, value.toNat_lt, ensure]

theorem requiredText_eq_ok {value : Option String} {reason text : String} :
    requiredText value reason = .ok text ↔ value = some text ∧ Text.isBlank text = false := by
  simp only [requiredText, bind_eq_ok, exists_unit, okOr_eq_ok, reject_eq_ok, pure_eq_ok,
    Bool.not_eq_true]
  constructor
  · rintro ⟨_, found, present, rfl⟩
    exact ⟨found, present⟩
  · rintro ⟨found, present⟩
    exact ⟨text, found, present, rfl⟩

theorem all_isBlank {value : Option String} :
    value.all Text.isBlank = false ↔ ∃ text, value = some text ∧ Text.isBlank text = false := by
  cases value <;> simp

theorem search_agrees : validateSearch args = .ok () ↔
    ∃ spec, resolveSearch args.toService = .ok spec := by
  simp [validateSearch, resolveSearch, refuseOthers, SubmitJobToolArgs.toService, usizeLimit_eq_ok,
    requiredText_eq_ok, all_isBlank]

theorem write_agrees : validateWrite args = .ok () ↔
    ∃ spec, resolveWrite args.toService = .ok spec := by
  simp [validateWrite, resolveWrite, refuseOthers, SubmitJobToolArgs.toService, usizeLimit_eq_ok,
    ← ne_eq, Option.ne_none_iff_exists']

theorem patch_agrees : validatePatch args = .ok () ↔
    ∃ spec, resolvePatch args.toService = .ok spec := by
  simp [validatePatch, resolvePatch, refuseOthers, SubmitJobToolArgs.toService, usizeLimit_eq_ok,
    requiredText_eq_ok, all_isBlank, ← ne_eq, Option.ne_none_iff_exists']

theorem move_agrees : validateMove args = .ok () ↔
    ∃ spec, resolveMove args.toService = .ok spec := by
  simp [validateMove, resolveMove, refuseOthers, SubmitJobToolArgs.toService, requiredText_eq_ok,
    all_isBlank]

theorem diff_agrees : validateDiff args = .ok () ↔
    ∃ spec, resolveDiff args.toService = .ok spec := by
  simp [validateDiff, resolveDiff, refuseOthers, SubmitJobToolArgs.toService, usizeLimit_eq_ok,
    requiredText_eq_ok, all_isBlank]

theorem filesystem_agrees (known : capability ∈ filesystemCapabilities.map (·.1)) :
    validateSubmitJobToolArgs toolArgs capability = .ok () ↔
      ∃ spec, resolveSubmitJobToolArgs (filesystemToolKind capability)
        (toolArgs.map SubmitJobToolArgs.toService) = .ok spec := by
  simp only [filesystemCapabilities, List.map_cons, List.map_nil, List.mem_cons,
    List.not_mem_nil, or_false] at known
  cases toolArgs with
  | none =>
    rcases known with rfl | rfl | rfl | rfl | rfl | rfl | rfl | rfl | rfl <;>
      simp [validateSubmitJobToolArgs, resolveSubmitJobToolArgs, filesystemToolKind]
  | some args =>
    rcases known with rfl | rfl | rfl | rfl | rfl | rfl | rfl | rfl | rfl <;>
      simp [validateSubmitJobToolArgs, resolveSubmitJobToolArgs, filesystemToolKind,
        search_agrees, write_agrees, patch_agrees, move_agrees, diff_agrees]

/-- The transport accepts the arguments of a job exactly when the service accepts them for
the tool of its capability. -/
theorem transport_accepts_iff_service_accepts {kind : JobKind}
    {resourceScope : Option ResourceScope} {capabilities : List String} {capability : String}
    {toolKind : SubmitJobToolKind}
    (resolves : normalizeRequestedCapabilities capabilities = .ok [capability])
    (tool : resolveSubmitJobToolKind kind resourceScope [capability] = .ok toolKind)
    (toolArgs : Option SubmitJobToolArgs) :
    validateSubmitJobToolArgsForCapabilities toolArgs capabilities = .ok () ↔
      ∃ spec, resolveSubmitJobToolArgs toolKind (toolArgs.map SubmitJobToolArgs.toService) =
        .ok spec := by
  rw [validateSubmitJobToolArgsForCapabilities, requestedFilesystemCapabilities_eq resolves]
  unfold resolveSubmitJobToolKind at tool
  dsimp only at tool
  split_ifs at tool with discovery known
  · cases pure_eq_ok.mp tool
    cases toolArgs <;> simp [discovery, resolveSubmitJobToolArgs]
  · simp only [bind_eq_ok, exists_unit, pure_eq_ok] at tool
    obtain ⟨scope, -, -, -, -, rfl⟩ := tool
    rw [List.filter_cons_of_pos (by simpa using discovery)]
    exact filesystem_agrees known

/-- A search under a name of its own spelling. -/
theorem spelled_search_accepted :
    validateSubmitJobToolArgsForCapabilities (some { pattern := some "main" })
      [" FS/Search", "filesystem.search"] = .ok () ↔
    ∃ spec, resolveSubmitJobToolArgs .fsSearch (some { pattern := some "main" }) = .ok spec :=
  @transport_accepts_iff_service_accepts .read (some ⟨"path", "src"⟩) _ "filesystem.search" _
    (by decide +kernel) (by decide +kernel) _

end Agreement

end Atelia.Rpc
