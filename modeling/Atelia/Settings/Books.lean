import Atelia.Foundation.Layers
import Atelia.Foundation.Listing
import Atelia.Settings.Service

/-! Settings as layers of defaults. -/

namespace Atelia.Settings

open Outcome Layers

variable {settings : List ToolOutputSettings} {scope : ToolOutputSettingsScope}
  {defaults inherited : ToolOutputDefaults}

section Fields

variable {α : Type} [DecidableEq α]

@[simp] theorem differing_getD (base inherited : α) :
    (differing base inherited).getD inherited = base := by
  unfold differing
  split
  · rfl
  · rename_i same
    exact (not_not.mp same).symm

theorem differing_mem {base inherited value : α} (differs : differing base inherited = some value) :
    value = base := by
  unfold differing at differs
  split at differs
  · exact (Option.some.inj differs).symm
  · cases differs

end Fields

theorem fromDefaultsWithParent_applyTo (defaults inherited : ToolOutputDefaults) :
    (ToolOutputOverrides.fromDefaultsWithParent defaults inherited).applyTo inherited =
      defaults := by
  simp only [ToolOutputOverrides.applyTo, ToolOutputOverrides.fromDefaultsWithParent,
    differing_getD]

instance : Patching ToolOutputDefaults ToolOutputOverrides where
  apply := ToolOutputOverrides.applyTo
  diff := ToolOutputOverrides.fromDefaultsWithParent
  apply_diff := fromDefaultsWithParent_applyTo

/-- Overrides that are merged act one after the other. -/
theorem merge_applyTo (overrides update : ToolOutputOverrides) (defaults : ToolOutputDefaults) :
    (overrides.merge update).applyTo defaults = update.applyTo (overrides.applyTo defaults) := by
  simp only [ToolOutputOverrides.applyTo, ToolOutputOverrides.merge, Option.getD_or]

section Chains

/-- The scopes that a scope inherits from. -/
def parents (scope : ToolOutputSettingsScope) : List ToolOutputSettingsScope :=
  (resolutionChain scope).takeWhile (· ≠ scope)

theorem parents_workspace : parents .workspace = [] := by
  decide

theorem parents_level {level : ToolOutputSettingsLevel} (inner : level ≠ .workspace) :
    parents ⟨level, none⟩ = [.workspace] := by
  simp [parents, resolutionChain, pushUnique, ToolOutputSettingsScope.workspace, inner,
    Ne.symm inner]

theorem parents_workspace_tool (toolId : String) :
    parents ⟨.workspace, some toolId⟩ = [.workspace] := by
  simp [parents, resolutionChain, pushUnique, ToolOutputSettingsScope.workspace,
    ToolOutputSettingsScope.forTool]

theorem parents_tool {level : ToolOutputSettingsLevel} (inner : level ≠ .workspace)
    (toolId : String) :
    parents ⟨level, some toolId⟩ =
      [.workspace, ⟨level, none⟩, ToolOutputSettingsScope.workspace.forTool toolId] := by
  simp [parents, resolutionChain, pushUnique, ToolOutputSettingsScope.workspace,
    ToolOutputSettingsScope.forTool, inner, Ne.symm inner]

/-- A scope is the last of its chain. -/
theorem resolutionChain_eq (scope : ToolOutputSettingsScope) :
    resolutionChain scope = parents scope ++ [scope] := by
  obtain ⟨level, toolId⟩ := scope
  by_cases inner : level = .workspace
  · subst inner
    cases toolId <;>
      simp [parents, resolutionChain, pushUnique, ToolOutputSettingsScope.workspace,
        ToolOutputSettingsScope.forTool]
  · cases toolId <;>
      simp [parents, resolutionChain, pushUnique, ToolOutputSettingsScope.workspace,
        ToolOutputSettingsScope.forTool, inner, Ne.symm inner]

end Chains

section Books

/-- What a record holds: full defaults of the older format, or overrides. -/
def ToolOutputSettings.layer (settings : ToolOutputSettings) :
    Layer ToolOutputDefaults ToolOutputOverrides :=
  match settings.legacyDefaults with
  | some defaults => .whole defaults
  | none => .patch settings.overrides

/-- The layers of a list of records. -/
def bookOf (settings : List ToolOutputSettings) :
    Book ToolOutputSettingsScope ToolOutputDefaults ToolOutputOverrides :=
  fun scope => (findSettings settings scope).map (·.layer)

theorem layer_resolved (record : ToolOutputSettings) (inherited : ToolOutputDefaults) :
    record.layer.resolved inherited = record.resolvedOverrides inherited := by
  unfold ToolOutputSettings.layer ToolOutputSettings.resolvedOverrides
  cases record.legacyDefaults <;> rfl

theorem layer_migration (record : ToolOutputSettings) (inherited : ToolOutputDefaults) :
    (record.applyLegacyMigration inherited).layer = record.layer.settle inherited := by
  unfold ToolOutputSettings.applyLegacyMigration ToolOutputSettings.layer
  cases legacy : record.legacyDefaults with
  | none =>
    simp only [legacy]
    rfl
  | some defaults => rfl

theorem inheritFrom_eq (settings : List ToolOutputSettings) :
    inheritFrom settings = (bookOf settings).inherit := by
  funext defaults candidate
  unfold inheritFrom Book.inherit bookOf
  cases findSettings settings candidate with
  | none => rfl
  | some record =>
    simp only [Option.map_some, Layer.onto, layer_resolved]
    rfl

theorem resolveParentDefaultsFor_eq (settings : List ToolOutputSettings)
    (scope : ToolOutputSettingsScope) :
    resolveParentDefaultsFor settings scope = (bookOf settings).along {} (parents scope) := by
  rw [resolveParentDefaultsFor, inheritFrom_eq]
  rfl

theorem resolveDefaults_eq (settings : List ToolOutputSettings) (scope : ToolOutputSettingsScope) :
    resolveDefaults settings scope = (bookOf settings).along {} (parents scope ++ [scope]) := by
  rw [resolveDefaults, inheritFrom_eq, resolutionChain_eq]
  rfl

/-- The defaults of a scope are those it inherits, with its own layer. -/
theorem resolveDefaults_parent (settings : List ToolOutputSettings)
    (scope : ToolOutputSettingsScope) :
    resolveDefaults settings scope =
      inheritFrom settings (resolveParentDefaultsFor settings scope) scope := by
  rw [resolveDefaults_eq, along_append_singleton, inheritFrom_eq, resolveParentDefaultsFor_eq]

end Books

section Migration

def scopesOf (settings : List ToolOutputSettings) : List ToolOutputSettingsScope :=
  settings.map (·.scope)

theorem applyLegacyMigration_scope (record : ToolOutputSettings) (inherited : ToolOutputDefaults) :
    (record.applyLegacyMigration inherited).scope = record.scope := by
  unfold ToolOutputSettings.applyLegacyMigration
  cases record.legacyDefaults <;> rfl

theorem scopesOf_migrateAt (settings : List ToolOutputSettings) (index : Nat) :
    scopesOf (migrateAt settings index) = scopesOf settings := by
  unfold migrateAt
  cases present : settings[index]? with
  | none => rfl
  | some record => exact Listing.map_set present (applyLegacyMigration_scope record _)

/-- Migrating a record settles the layer of its scope. -/
theorem bookOf_migrateAt (distinct : (scopesOf settings).Nodup) {index : Nat}
    {record : ToolOutputSettings} (present : settings[index]? = some record) :
    bookOf (migrateAt settings index) = (bookOf settings).migrate {} parents record.scope := by
  have found : findSettings settings record.scope = some record :=
    Listing.find_of_mem distinct (List.mem_of_getElem? present)
  have replaced : findSettings (migrateAt settings index) =
      Function.update (findSettings settings) record.scope
        (some (record.applyLegacyMigration (resolveParentDefaultsFor settings record.scope))) := by
    rw [migrateAt, present]
    exact Listing.find_set distinct present (applyLegacyMigration_scope record _)
  funext scope
  by_cases here : scope = record.scope
  · subst here
    rw [migrate_self, bookOf, replaced, Function.update_self, Option.map_some, layer_migration,
      resolveParentDefaultsFor_eq, bookOf, found]
    rfl
  · rw [migrate_of_ne here, bookOf, replaced, Function.update_of_ne here, bookOf]

theorem bookOf_foldl_migrateAt (distinct : (scopesOf settings).Nodup) (order : List Nat) :
    bookOf (order.foldl migrateAt settings) =
      (bookOf settings).migrateAll {} parents (order.filterMap fun index =>
        (scopesOf settings)[index]?) := by
  induction order generalizing settings with
  | nil => rfl
  | cons index rest ih =>
    have same := scopesOf_migrateAt settings index
    rw [List.foldl_cons, ih (same ▸ distinct), same, List.filterMap_cons]
    cases present : settings[index]? with
    | none =>
      have absent : (scopesOf settings)[index]? = none := by
        rw [scopesOf, List.getElem?_map, present]
        rfl
      rw [absent, migrateAt, present]
    | some record =>
      have named : (scopesOf settings)[index]? = some record.scope := by
        rw [scopesOf, List.getElem?_map, present]
        rfl
      rw [named, bookOf_migrateAt distinct present]
      rfl

/-- The scopes in the order in which their records are migrated. -/
def migrationScopes (settings : List ToolOutputSettings) : List ToolOutputSettingsScope :=
  (migrationOrder settings).filterMap fun index => (scopesOf settings)[index]?

theorem bookOf_migrateLegacySettings (distinct : (scopesOf settings).Nodup) :
    bookOf (migrateLegacySettings settings) =
      (bookOf settings).migrateAll {} parents (migrationScopes settings) :=
  bookOf_foldl_migrateAt distinct _

theorem checkDistinctScopes_eq_ok {scopes : List ToolOutputSettingsScope} {result : Unit} :
    checkDistinctScopes scopes settings = .ok result ↔
      (scopesOf settings).Nodup ∧ ∀ scope ∈ scopesOf settings, scope ∉ scopes := by
  induction settings generalizing scopes with
  | nil => simp [checkDistinctScopes, scopesOf]
  | cons setting rest ih =>
    have split : scopesOf (setting :: rest) = setting.scope :: scopesOf rest := rfl
    rw [checkDistinctScopes, split, List.nodup_cons, List.forall_mem_cons]
    by_cases present : setting.scope ∈ scopes
    · simp [present]
    · rw [if_neg present, ih]
      simp only [List.mem_append, List.mem_singleton, not_or, present, not_false_eq_true, true_and]
      constructor
      · rintro ⟨distinct, apart⟩
        exact ⟨⟨fun member => (apart _ member).2 rfl, distinct⟩, fun scope member =>
          (apart scope member).1⟩
      · rintro ⟨⟨fresh, distinct⟩, apart⟩
        exact ⟨distinct, fun scope member => ⟨apart scope member, fun same =>
          fresh (same ▸ member)⟩⟩

theorem scopesOf_withWorkspace (createdAt : LedgerTimestamp)
    (distinct : (scopesOf settings).Nodup) :
    (scopesOf (withWorkspace createdAt settings)).Nodup := by
  unfold withWorkspace
  split
  · exact distinct
  · rename_i absent
    simp only [List.any_eq_true, decide_eq_true_eq, not_exists, not_and] at absent
    rw [scopesOf, List.map_append, List.nodup_append]
    refine ⟨distinct, by simp, ?_⟩
    intro scope member other member'
    simp only [List.map_cons, List.map_nil, List.mem_singleton] at member'
    obtain ⟨setting, listed, rfl⟩ := List.mem_map.mp member
    rw [member']
    exact absent setting listed

/-- The book of a new service. -/
theorem newWithSettings_eq_ok {createdAt : LedgerTimestamp}
    {service : InMemoryToolOutputSettingsService} :
    InMemoryToolOutputSettingsService.newWithSettings createdAt settings = .ok service ↔
      (scopesOf settings).Nodup ∧
        service = ⟨migrateLegacySettings (withWorkspace createdAt settings), []⟩ := by
  simp only [InMemoryToolOutputSettingsService.newWithSettings, bind_eq_ok, exists_unit,
    checkDistinctScopes_eq_ok, pure_eq_ok, List.not_mem_nil, not_false_eq_true, implies_true,
    and_true]
  exact and_congr_right fun _ => eq_comm

end Migration

end Atelia.Settings
