import Atelia.Domain.Records

/-! Tool output settings and the render policy they determine. -/

namespace Atelia

/-- The largest value of a `u64`, and of a `usize` on the daemon's platforms. -/
def maxUnsigned : Nat := 2 ^ 64 - 1

def saturatingAdd (first second : Nat) : Nat :=
  min (first + second) maxUnsigned

structure RenderOptions where
  format : OutputFormat := .toon
  includePolicy : Bool := false
  includeDiagnostics : Bool := false
  includeCost : Bool := false
  deriving DecidableEq

inductive ToolOutputVerbosity where
  | minimal | normal | expanded | debug
  deriving DecidableEq

inductive ToolOutputGranularity where
  | summary | keyFields | full
  deriving DecidableEq

inductive OversizeOutputPolicy where
  | truncateWithMetadata | spillToArtifactRef | rejectOversize
  deriving DecidableEq

def defaultMaxInlineBytes : Nat := 16 * 1024
def defaultMaxInlineLines : Nat := 200

structure ToolOutputDefaults where
  renderOptions : RenderOptions := {}
  maxInlineBytes : Nat := defaultMaxInlineBytes
  maxInlineLines : Nat := defaultMaxInlineLines
  verbosity : ToolOutputVerbosity := .normal
  granularity : ToolOutputGranularity := .keyFields
  oversizePolicy : OversizeOutputPolicy := .truncateWithMetadata
  deriving DecidableEq

structure ToolOutputRenderPolicy where
  renderOptions : RenderOptions
  maxFields : Option Nat
  maxInlineLines : Option Nat
  maxInlineBytes : Option Nat
  oversizePolicy : OversizeOutputPolicy
  includeEvidenceRefs : Bool
  includeOutputRefs : Bool
  includeRedactions : Bool

def ToolOutputRenderPolicy.fromRenderOptions (renderOptions : RenderOptions) :
    ToolOutputRenderPolicy where
  renderOptions
  maxFields := none
  maxInlineLines := none
  maxInlineBytes := none
  oversizePolicy := .truncateWithMetadata
  includeEvidenceRefs := true
  includeOutputRefs := true
  includeRedactions := true

def applyVerbosityConstraints (options : RenderOptions) : ToolOutputVerbosity → RenderOptions
  | .minimal | .normal =>
    { options with includePolicy := false, includeDiagnostics := false, includeCost := false }
  | .expanded => { options with includeCost := false }
  | .debug => { options with includePolicy := true, includeDiagnostics := true, includeCost := true }

namespace ToolOutputDefaults

def fieldLimit (defaults : ToolOutputDefaults) : Option Nat :=
  match defaults.granularity with
  | .summary => some (min 1 defaults.maxInlineLines)
  | .keyFields => some (min 3 defaults.maxInlineLines)
  | .full => none

/-- Requested options replace the configured ones before verbosity constrains them. -/
def renderPolicyWithRenderOptions (defaults : ToolOutputDefaults)
    (requested : Option RenderOptions) : ToolOutputRenderPolicy where
  renderOptions :=
    applyVerbosityConstraints (requested.getD defaults.renderOptions) defaults.verbosity
  maxFields := defaults.fieldLimit
  maxInlineLines := some defaults.maxInlineLines
  maxInlineBytes := some defaults.maxInlineBytes
  oversizePolicy := defaults.oversizePolicy
  includeEvidenceRefs := defaults.granularity ≠ .summary
  includeOutputRefs := defaults.granularity ≠ .summary
  includeRedactions := defaults.granularity ≠ .summary

end ToolOutputDefaults

end Atelia
