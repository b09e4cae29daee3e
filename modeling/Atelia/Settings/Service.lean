import Mathlib.Data.List.Sort
import Atelia.Foundation.Outcome
import Atelia.Runtime.Settings

/-! Configurable defaults for tool output. -/

namespace Atelia.Settings

open Outcome

section Scopes

/-- A project is named by a UUID, in its canonical spelling. -/
structure ProjectId where
  text : String
  deriving DecidableEq

inductive ToolOutputSettingsLevel where
  | workspace
  | repository (repositoryId : RepositoryId)
  | project (projectId : ProjectId)
  | session (sessionId : String)
  | agentProfile (agentId : String)
  deriving DecidableEq

structure ToolOutputSettingsScope where
  level : ToolOutputSettingsLevel
  toolId : Option String
  deriving DecidableEq

namespace ToolOutputSettingsScope

def workspace : ToolOutputSettingsScope := ⟨.workspace, none⟩

def forTool (scope : ToolOutputSettingsScope) (toolId : String) : ToolOutputSettingsScope :=
  { scope with toolId := some toolId }

end ToolOutputSettingsScope

def pushUnique (chain : List ToolOutputSettingsScope) (scope : ToolOutputSettingsScope) :
    List ToolOutputSettingsScope :=
  if scope ∈ chain then chain else chain ++ [scope]

/-- The scopes whose settings a scope inherits, from the most general to itself. -/
def resolutionChain (scope : ToolOutputSettingsScope) : List ToolOutputSettingsScope :=
  let chain := pushUnique [] .workspace
  let chain := pushUnique chain { level := scope.level, toolId := none }
  let chain := match scope.toolId with
    | some toolId => pushUnique chain (ToolOutputSettingsScope.workspace.forTool toolId)
    | none => chain
  match scope.toolId with
  | some _ => pushUnique chain scope
  | none => chain

def scopeMigrationDepth (scope : ToolOutputSettingsScope) : Nat :=
  scope.toolId.isSome.toNat + 1

end Scopes

section Overrides

def toolOutputSettingsSchemaVersion : Nat := 1
def minMaxInlineBytes : Nat := 256
def maxMaxInlineBytes : Nat := 1024 * 1024
def minMaxInlineLines : Nat := 1
def maxMaxInlineLines : Nat := 10000

inductive ToolOutputSettingsError where
  | duplicateScope (scope : ToolOutputSettingsScope)
  | emptyUpdate
  | missingReason
  | maxInlineBytesOutOfRange (value min max : Nat)
  | maxInlineLinesOutOfRange (value min max : Nat)
  deriving DecidableEq

abbrev SettingsResult (α : Type) : Type := Except ToolOutputSettingsError α

def validateInlineBytes (value : Nat) : SettingsResult Unit :=
  ensure (minMaxInlineBytes ≤ value ∧ value ≤ maxMaxInlineBytes)
    (.maxInlineBytesOutOfRange value minMaxInlineBytes maxMaxInlineBytes)

def validateInlineLines (value : Nat) : SettingsResult Unit :=
  ensure (minMaxInlineLines ≤ value ∧ value ≤ maxMaxInlineLines)
    (.maxInlineLinesOutOfRange value minMaxInlineLines maxMaxInlineLines)

def validateDefaults (defaults : ToolOutputDefaults) : SettingsResult Unit := do
  validateInlineBytes defaults.maxInlineBytes
  validateInlineLines defaults.maxInlineLines

structure ToolOutputOverrides where
  format : Option OutputFormat := none
  includePolicy : Option Bool := none
  includeDiagnostics : Option Bool := none
  includeCost : Option Bool := none
  maxInlineBytes : Option Nat := none
  maxInlineLines : Option Nat := none
  verbosity : Option ToolOutputVerbosity := none
  granularity : Option ToolOutputGranularity := none
  oversizePolicy : Option OversizeOutputPolicy := none
  deriving DecidableEq

/-- A value that differs from the inherited one. -/
def differing {α : Type} [DecidableEq α] (base inherited : α) : Option α :=
  if base ≠ inherited then some base else none

namespace ToolOutputOverrides

def isEmpty (overrides : ToolOutputOverrides) : Bool :=
  overrides.format.isNone && overrides.includePolicy.isNone && overrides.includeDiagnostics.isNone &&
    overrides.includeCost.isNone && overrides.maxInlineBytes.isNone &&
    overrides.maxInlineLines.isNone && overrides.verbosity.isNone &&
    overrides.granularity.isNone && overrides.oversizePolicy.isNone

def fromDefaultsWithParent (base inherited : ToolOutputDefaults) : ToolOutputOverrides where
  format := differing base.renderOptions.format inherited.renderOptions.format
  includePolicy := differing base.renderOptions.includePolicy inherited.renderOptions.includePolicy
  includeDiagnostics :=
    differing base.renderOptions.includeDiagnostics inherited.renderOptions.includeDiagnostics
  includeCost := differing base.renderOptions.includeCost inherited.renderOptions.includeCost
  maxInlineBytes := differing base.maxInlineBytes inherited.maxInlineBytes
  maxInlineLines := differing base.maxInlineLines inherited.maxInlineLines
  verbosity := differing base.verbosity inherited.verbosity
  granularity := differing base.granularity inherited.granularity
  oversizePolicy := differing base.oversizePolicy inherited.oversizePolicy

def merge (overrides update : ToolOutputOverrides) : ToolOutputOverrides where
  format := update.format.or overrides.format
  includePolicy := update.includePolicy.or overrides.includePolicy
  includeDiagnostics := update.includeDiagnostics.or overrides.includeDiagnostics
  includeCost := update.includeCost.or overrides.includeCost
  maxInlineBytes := update.maxInlineBytes.or overrides.maxInlineBytes
  maxInlineLines := update.maxInlineLines.or overrides.maxInlineLines
  verbosity := update.verbosity.or overrides.verbosity
  granularity := update.granularity.or overrides.granularity
  oversizePolicy := update.oversizePolicy.or overrides.oversizePolicy

def applyTo (overrides : ToolOutputOverrides) (defaults : ToolOutputDefaults) :
    ToolOutputDefaults where
  renderOptions := {
    format := overrides.format.getD defaults.renderOptions.format
    includePolicy := overrides.includePolicy.getD defaults.renderOptions.includePolicy
    includeDiagnostics := overrides.includeDiagnostics.getD defaults.renderOptions.includeDiagnostics
    includeCost := overrides.includeCost.getD defaults.renderOptions.includeCost }
  maxInlineBytes := overrides.maxInlineBytes.getD defaults.maxInlineBytes
  maxInlineLines := overrides.maxInlineLines.getD defaults.maxInlineLines
  verbosity := overrides.verbosity.getD defaults.verbosity
  granularity := overrides.granularity.getD defaults.granularity
  oversizePolicy := overrides.oversizePolicy.getD defaults.oversizePolicy

end ToolOutputOverrides

def withOverrides (defaults : ToolOutputDefaults) (overrides : ToolOutputOverrides) :
    SettingsResult ToolOutputDefaults := do
  let defaults := overrides.applyTo defaults
  validateDefaults defaults
  return defaults

end Overrides

section Records

structure ToolOutputSettings where
  schemaVersion : Nat
  scope : ToolOutputSettingsScope
  overrides : ToolOutputOverrides
  updatedAt : LedgerTimestamp
  updatedBy : Option Actor
  legacyDefaults : Option ToolOutputDefaults
  deriving DecidableEq

structure ToolOutputSettingsChange where
  schemaVersion : Nat
  actor : Actor
  scope : ToolOutputSettingsScope
  oldDefaults : ToolOutputDefaults
  newDefaults : ToolOutputDefaults
  reason : String
  changedAt : LedgerTimestamp
  deriving DecidableEq

namespace ToolOutputSettings

def new (scope : ToolOutputSettingsScope) (createdAt : LedgerTimestamp) : ToolOutputSettings where
  schemaVersion := toolOutputSettingsSchemaVersion
  scope
  overrides := {}
  updatedAt := createdAt
  updatedBy := none
  legacyDefaults := none

def resolvedOverrides (settings : ToolOutputSettings) (inherited : ToolOutputDefaults) :
    ToolOutputOverrides :=
  match settings.legacyDefaults with
  | some defaults => .fromDefaultsWithParent defaults inherited
  | none => settings.overrides

def applyLegacyMigration (settings : ToolOutputSettings) (inherited : ToolOutputDefaults) :
    ToolOutputSettings :=
  match settings.legacyDefaults with
  | some defaults => { settings with
      overrides := .fromDefaultsWithParent defaults inherited
      legacyDefaults := none }
  | none => settings

/-- The answer to an update and the record it leaves. -/
def applyUpdate (settings : ToolOutputSettings) (actor : Actor) (update : ToolOutputOverrides)
    (reason : String) (inheritedDefaults : ToolOutputDefaults) (updatedAt : LedgerTimestamp) :
    SettingsResult ToolOutputSettingsChange × ToolOutputSettings :=
  if update.isEmpty then (.error .emptyUpdate, settings)
  else if Text.isBlank reason then (.error .missingReason, settings)
  else
    let resolvedOverrides := settings.resolvedOverrides inheritedDefaults
    let oldDefaults := resolvedOverrides.applyTo inheritedDefaults
    match withOverrides oldDefaults update with
    | .error error => (.error error, settings)
    | .ok newDefaults =>
      (.ok {
          schemaVersion := toolOutputSettingsSchemaVersion
          actor
          scope := settings.scope
          oldDefaults
          newDefaults
          reason
          changedAt := updatedAt },
        { settings with
          overrides := resolvedOverrides.merge update
          legacyDefaults := none
          updatedBy := some actor
          updatedAt })

end ToolOutputSettings

end Records

section Service

structure InMemoryToolOutputSettingsService where
  settings : List ToolOutputSettings
  changes : List ToolOutputSettingsChange
  deriving DecidableEq

/-- The record of a scope: the first one in the list. -/
def findSettings (settings : List ToolOutputSettings) (scope : ToolOutputSettingsScope) :
    Option ToolOutputSettings :=
  settings.find? fun setting => setting.scope = scope

/-- One turn of the loops over a resolution chain. -/
def inheritFrom (settings : List ToolOutputSettings) (defaults : ToolOutputDefaults)
    (candidateScope : ToolOutputSettingsScope) : ToolOutputDefaults :=
  match findSettings settings candidateScope with
  | some candidate => (candidate.resolvedOverrides defaults).applyTo defaults
  | none => defaults

def resolveDefaults (settings : List ToolOutputSettings) (scope : ToolOutputSettingsScope) :
    ToolOutputDefaults :=
  (resolutionChain scope).foldl (inheritFrom settings) {}

/-- The loop stops at the scope itself. -/
def resolveParentDefaultsFor (settings : List ToolOutputSettings)
    (scope : ToolOutputSettingsScope) : ToolOutputDefaults :=
  ((resolutionChain scope).takeWhile (· ≠ scope)).foldl (inheritFrom settings) {}

/-- The order of the keys by which the records are sorted for migration. -/
def MigratesBefore (settings : List ToolOutputSettings) (first second : Nat) : Prop :=
  let depth (index : Nat) := (settings[index]?.map fun setting =>
    scopeMigrationDepth setting.scope).getD 0
  depth first < depth second ∨ depth first = depth second ∧ first ≤ second

instance (settings : List ToolOutputSettings) : DecidableRel (MigratesBefore settings) :=
  fun _ _ => inferInstanceAs (Decidable (_ ∨ _))

def migrationOrder (settings : List ToolOutputSettings) : List Nat :=
  (List.range settings.length).insertionSort (MigratesBefore settings)

def migrateAt (settings : List ToolOutputSettings) (index : Nat) : List ToolOutputSettings :=
  match settings[index]? with
  | some setting =>
    settings.set index
      (setting.applyLegacyMigration (resolveParentDefaultsFor settings setting.scope))
  | none => settings

def migrateLegacySettings (settings : List ToolOutputSettings) : List ToolOutputSettings :=
  (migrationOrder settings).foldl migrateAt settings

def checkDistinctScopes (scopes : List ToolOutputSettingsScope) :
    List ToolOutputSettings → SettingsResult Unit
  | [] => .ok ()
  | setting :: rest =>
    if setting.scope ∈ scopes then .error (.duplicateScope setting.scope)
    else checkDistinctScopes (scopes ++ [setting.scope]) rest

/-- A record for the workspace is added when there is none. -/
def withWorkspace (createdAt : LedgerTimestamp) (settings : List ToolOutputSettings) :
    List ToolOutputSettings :=
  if settings.any fun setting => setting.scope = .workspace then settings
  else settings ++ [.new .workspace createdAt]

namespace InMemoryToolOutputSettingsService

def newWithSettings (createdAt : LedgerTimestamp) (settings : List ToolOutputSettings) :
    SettingsResult InMemoryToolOutputSettingsService := do
  checkDistinctScopes [] settings
  return { settings := migrateLegacySettings (withWorkspace createdAt settings), changes := [] }

def resolveDefaults (service : InMemoryToolOutputSettingsService) (scope : ToolOutputSettingsScope) :
    ToolOutputDefaults :=
  Settings.resolveDefaults service.settings scope

/-- The answer to an update and the service it leaves. -/
def applyUpdate (service : InMemoryToolOutputSettingsService) (actor : Actor)
    (scope : ToolOutputSettingsScope) (update : ToolOutputOverrides) (reason : String)
    (updatedAt : LedgerTimestamp) :
    SettingsResult ToolOutputSettingsChange × InMemoryToolOutputSettingsService :=
  let inherited := resolveParentDefaultsFor service.settings scope
  match findSettings service.settings scope with
  | some own =>
    let (answer, updated) := own.applyUpdate actor update reason inherited updatedAt
    let position := service.settings.findIdx fun candidate => candidate.scope = scope
    let service := { service with settings := service.settings.set position updated }
    match answer with
    | .error error => (.error error, service)
    | .ok change => (.ok change, { service with changes := service.changes ++ [change] })
  | none =>
    let (answer, settings) :=
      (ToolOutputSettings.new scope updatedAt).applyUpdate actor update reason inherited updatedAt
    match answer with
    | .error error => (.error error, service)
    | .ok change =>
      (.ok change,
        { settings := service.settings ++ [settings], changes := service.changes ++ [change] })

end InMemoryToolOutputSettingsService

end Service

end Atelia.Settings
