import Atelia.Settings.Books

/-! Migration of legacy settings. -/

namespace Atelia.Settings

open Outcome Layers

variable {settings : List ToolOutputSettings} {createdAt : LedgerTimestamp}
  {scope : ToolOutputSettingsScope} {level : ToolOutputSettingsLevel} {toolId : String}
  {order : List ToolOutputSettingsScope}
  {book : Book ToolOutputSettingsScope ToolOutputDefaults ToolOutputOverrides}

section Hiding

variable {α : Type} [DecidableEq α]

/-- A value of a tool in a level that is also its value in the workspace, where it is
inherited, while the level has another. -/
def hidden (legacy tool workspace level : α) : Bool :=
  legacy = tool && tool = workspace && workspace ≠ level

/-- Overrides relative to one value, applied to overrides relative to another. -/
theorem differing_differing_getD (legacy tool workspace level : α) :
    (differing legacy tool).getD ((differing tool workspace).getD level) = legacy ↔
      hidden legacy tool workspace level = false := by
  unfold differing hidden
  by_cases first : legacy = tool
  · by_cases second : tool = workspace
    · subst first second
      simp only [ne_eq, not_true_eq_false, if_false, Option.getD_none, decide_true, Bool.true_and,
        decide_eq_false_iff_not, not_not]
      exact eq_comm
    · subst first
      simp [second]
  · simp [first]

/-- Some field is hidden. -/
def hides (legacy tool workspace level : ToolOutputDefaults) : Bool :=
  hidden legacy.renderOptions.format tool.renderOptions.format workspace.renderOptions.format
      level.renderOptions.format ||
    hidden legacy.renderOptions.includePolicy tool.renderOptions.includePolicy
      workspace.renderOptions.includePolicy level.renderOptions.includePolicy ||
    hidden legacy.renderOptions.includeDiagnostics tool.renderOptions.includeDiagnostics
      workspace.renderOptions.includeDiagnostics level.renderOptions.includeDiagnostics ||
    hidden legacy.renderOptions.includeCost tool.renderOptions.includeCost
      workspace.renderOptions.includeCost level.renderOptions.includeCost ||
    hidden legacy.maxInlineBytes tool.maxInlineBytes workspace.maxInlineBytes
      level.maxInlineBytes ||
    hidden legacy.maxInlineLines tool.maxInlineLines workspace.maxInlineLines
      level.maxInlineLines ||
    hidden legacy.verbosity tool.verbosity workspace.verbosity level.verbosity ||
    hidden legacy.granularity tool.granularity workspace.granularity level.granularity ||
    hidden legacy.oversizePolicy tool.oversizePolicy workspace.oversizePolicy level.oversizePolicy

theorem applyTo_applyTo_eq_iff (legacy tool workspace level : ToolOutputDefaults) :
    (ToolOutputOverrides.fromDefaultsWithParent legacy tool).applyTo
        ((ToolOutputOverrides.fromDefaultsWithParent tool workspace).applyTo level) = legacy ↔
      hides legacy tool workspace level = false := by
  obtain ⟨⟨_, _, _, _⟩, _, _, _, _, _⟩ := legacy
  simp only [ToolOutputOverrides.applyTo, ToolOutputOverrides.fromDefaultsWithParent, hides,
    ToolOutputDefaults.mk.injEq, RenderOptions.mk.injEq, differing_differing_getD,
    Bool.or_eq_false_iff, and_assoc]

end Hiding

section Chains

/-- Scopes that inherit from the workspace only. -/
def Shallow (scope : ToolOutputSettingsScope) : Prop :=
  scope.level = .workspace ∨ scope.toolId = none

theorem linear_workspace : Linear parents .workspace := by
  intro earlier ancestor later part
  rw [parents_workspace] at part
  cases earlier with
  | nil =>
    obtain ⟨rfl, _⟩ := List.cons.inj part
    exact parents_workspace
  | cons _ rest => simp at part

theorem linear_of_parents (parent : parents scope = [.workspace]) : Linear parents scope := by
  intro earlier ancestor later part
  rw [parent] at part
  match earlier, part with
  | [], part =>
    obtain ⟨rfl, _⟩ := List.cons.inj part
    exact parents_workspace
  | [first], part =>
    obtain ⟨same, part⟩ := List.cons.inj part
    obtain ⟨rfl, _⟩ := List.cons.inj part
    rw [parent, same]
  | _ :: _ :: _, part => simp at part

theorem Shallow.linear (shallow : Shallow scope) : Linear parents scope := by
  obtain ⟨level, toolId⟩ := scope
  by_cases inner : level = .workspace
  · subst inner
    cases toolId with
    | none => exact linear_workspace
    | some toolId => exact linear_of_parents (parents_workspace_tool toolId)
  · obtain rfl : toolId = none := shallow.resolve_left inner
    exact linear_of_parents (parents_level inner)

/-- What a tool in a level inherits: the settings of the tool in the workspace, over
those of the level. -/
theorem along_parents_tool (inner : level ≠ .workspace) (toolId : String) :
    book.along {} (parents ⟨level, some toolId⟩) =
      book.inherit (book.along {} (parents ⟨level, none⟩ ++ [⟨level, none⟩]))
        ⟨.workspace, some toolId⟩ := by
  rw [parents_tool inner, parents_level inner]
  rfl

end Chains

section Settled

/-- What a level has before the migration. -/
def levelValue (book : Book ToolOutputSettingsScope ToolOutputDefaults ToolOutputOverrides)
    (level : ToolOutputSettingsLevel) : ToolOutputDefaults :=
  book.along {} (parents ⟨level, none⟩ ++ [⟨level, none⟩])

/-- No settings of a tool in a level are hidden by those of the tool in the workspace. -/
def BookUnhidden (book : Book ToolOutputSettingsScope ToolOutputDefaults ToolOutputOverrides) :
    Prop :=
  ∀ level toolId legacy tool, level ≠ .workspace →
    book ⟨level, some toolId⟩ = some (.whole legacy) →
    book ⟨.workspace, some toolId⟩ = some (.whole tool) →
    hides legacy tool (levelValue book .workspace) (levelValue book level) = false

/-- Every scope with a layer has its turn. -/
def Covers (order : List ToolOutputSettingsScope)
    (book : Book ToolOutputSettingsScope ToolOutputDefaults ToolOutputOverrides) : Prop :=
  ∀ scope, scope ∉ order → book scope = none

/-- Migration keeps the value of a level, and the settings of a tool in the workspace
are migrated over those of the workspace, whatever the order. -/
theorem along_migrateAll_level (level : ToolOutputSettingsLevel)
    (order : List ToolOutputSettingsScope) :
    levelValue (book.migrateAll {} parents order) level = levelValue book level := by
  have shallow : Shallow ⟨level, none⟩ := .inr rfl
  exact shallow.linear.along_migrateAll (List.append_nil _).symm order

theorem along_parents_workspace_tool (toolId : String) :
    book.along {} (parents ⟨.workspace, some toolId⟩) = levelValue book .workspace := by
  rw [parents_workspace_tool, levelValue, show parents ⟨.workspace, none⟩ = [] from
    parents_workspace]
  rfl

theorem migrateAll_workspace_tool (toolId : String)
    (covered : ⟨.workspace, some toolId⟩ ∉ order → book ⟨.workspace, some toolId⟩ = none) :
    book.migrateAll {} parents order ⟨.workspace, some toolId⟩ =
      (book ⟨.workspace, some toolId⟩).map (·.settle (levelValue book .workspace)) := by
  have shallow : Shallow ⟨.workspace, some toolId⟩ := .inl rfl
  rw [shallow.linear.migrateAll_of_covered covered, along_parents_workspace_tool]

/-- What a tool in a level inherits after the migration. -/
theorem along_migrateAll_parents_tool (inner : level ≠ .workspace) (toolId : String)
    (order : List ToolOutputSettingsScope) :
    (book.migrateAll {} parents order).along {} (parents ⟨level, some toolId⟩) =
      (book.migrateAll {} parents order).inherit (levelValue book level)
        ⟨.workspace, some toolId⟩ := by
  rw [along_parents_tool inner, ← along_migrateAll_level level order]
  rfl

section Tool

variable {legacy : ToolOutputDefaults} {first second : List ToolOutputSettingsScope}

section Split

variable (inner : level ≠ .workspace) (held : book ⟨level, some toolId⟩ = some (.whole legacy))
  (split : order = first ++ ⟨level, some toolId⟩ :: second) (absent : ⟨level, some toolId⟩ ∉ first)
include inner held split absent

/-- Full defaults of a tool in a level: they are rewritten over what the level inherits
for the tool at their turn, and apply to what it inherits in the end. -/
theorem along_migrateAll_tool :
    (book.migrateAll {} parents order).along {}
        (parents ⟨level, some toolId⟩ ++ [⟨level, some toolId⟩]) =
      (ToolOutputOverrides.fromDefaultsWithParent legacy
          ((book.migrateAll {} parents first).inherit (levelValue book level)
            ⟨.workspace, some toolId⟩)).applyTo
        ((book.migrateAll {} parents order).inherit (levelValue book level)
          ⟨.workspace, some toolId⟩) := by
  have settled : book.migrateAll {} parents order ⟨level, some toolId⟩ = _ :=
    split ▸ migrateAll_split first second absent
  rw [along_append_singleton, along_migrateAll_parents_tool inner, Book.inherit, settled, held,
    along_migrateAll_parents_tool inner]
  rfl

/-- The tool in the workspace has had its turn, or holds no full defaults. -/
theorem along_migrateAll_tool_late
    (settled : book.migrateAll {} parents first ⟨.workspace, some toolId⟩ =
      book.migrateAll {} parents order ⟨.workspace, some toolId⟩) :
    (book.migrateAll {} parents order).along {}
        (parents ⟨level, some toolId⟩ ++ [⟨level, some toolId⟩]) = legacy := by
  rw [along_migrateAll_tool inner held split absent, Book.inherit, settled]
  exact fromDefaultsWithParent_applyTo legacy _

/-- The tool in the workspace has full defaults, and has its turn later. -/
theorem along_migrateAll_tool_early (covers : Covers order book) {tool : ToolOutputDefaults}
    (shared : book ⟨.workspace, some toolId⟩ = some (.whole tool))
    (later : ⟨.workspace, some toolId⟩ ∉ first) :
    (book.migrateAll {} parents order).along {}
        (parents ⟨level, some toolId⟩ ++ [⟨level, some toolId⟩]) = legacy ↔
      hides legacy tool (levelValue book .workspace) (levelValue book level) = false := by
  have before : (book.migrateAll {} parents first).inherit (levelValue book level)
      ⟨.workspace, some toolId⟩ = tool := by
    rw [Book.inherit, migrateAll_of_not_mem later, shared]
    exact Layer.whole_onto tool _
  have after : (book.migrateAll {} parents order).inherit (levelValue book level)
      ⟨.workspace, some toolId⟩ = (ToolOutputOverrides.fromDefaultsWithParent tool
        (levelValue book .workspace)).applyTo (levelValue book level) := by
    rw [Book.inherit, migrateAll_workspace_tool toolId (covers _), shared]
    rfl
  rw [along_migrateAll_tool inner held split absent, before, after, applyTo_applyTo_eq_iff]

end Split

/-- Full defaults are kept, in any order, when nothing of them is hidden. -/
theorem along_migrateAll_whole (unhidden : BookUnhidden book) (covers : Covers order book)
    (held : book scope = some (.whole legacy)) :
    (book.migrateAll {} parents order).along {} (parents scope ++ [scope]) = legacy := by
  obtain ⟨level, toolId⟩ := scope
  by_cases shallow : Shallow ⟨level, toolId⟩
  · rw [shallow.linear.along_migrateAll (List.append_nil _).symm, along_append_singleton,
      Book.inherit, held]
    exact Layer.whole_onto legacy _
  · obtain ⟨inner, tool⟩ : level ≠ .workspace ∧ toolId ≠ none := not_or.mp shallow
    obtain ⟨toolId, rfl⟩ := Option.ne_none_iff_exists'.mp tool
    have member : ⟨level, some toolId⟩ ∈ order := by
      by_contra absent
      rw [covers _ absent] at held
      cases held
    obtain ⟨first, second, split, absent⟩ := List.eq_append_cons_of_mem member
    by_cases earlier : ⟨.workspace, some toolId⟩ ∈ first
    · apply along_migrateAll_tool_late inner held split absent
      rw [migrateAll_workspace_tool toolId (covers _),
        migrateAll_workspace_tool toolId fun missing => absurd earlier missing]
    · by_cases full : ∃ tool, book ⟨.workspace, some toolId⟩ = some (.whole tool)
      · obtain ⟨tool, shared⟩ := full
        exact (along_migrateAll_tool_early inner held split absent covers shared earlier).mpr
          (unhidden level toolId legacy tool inner held shared)
      · apply along_migrateAll_tool_late inner held split absent
        rw [migrateAll_of_patch (not_exists.mp full), migrateAll_of_patch (not_exists.mp full)]

end Tool

/-- The order of the migration does not matter when nothing is hidden. -/
theorem along_migrateAll_order (unhidden : BookUnhidden book) (covers : Covers order book)
    {other : List ToolOutputSettingsScope} (otherCovers : Covers other book)
    (scope : ToolOutputSettingsScope) :
    (book.migrateAll {} parents other).along {} (parents scope ++ [scope]) =
      (book.migrateAll {} parents order).along {} (parents scope ++ [scope]) := by
  by_cases full : ∃ legacy, book scope = some (.whole legacy)
  · obtain ⟨legacy, held⟩ := full
    rw [along_migrateAll_whole unhidden covers held,
      along_migrateAll_whole unhidden otherCovers held]
  · obtain ⟨level, toolId⟩ := scope
    by_cases shallow : Shallow ⟨level, toolId⟩
    · rw [shallow.linear.along_migrateAll (List.append_nil _).symm,
        shallow.linear.along_migrateAll (List.append_nil _).symm]
    · obtain ⟨inner, tool⟩ : level ≠ .workspace ∧ toolId ≠ none := not_or.mp shallow
      obtain ⟨toolId, rfl⟩ := Option.ne_none_iff_exists'.mp tool
      have patched := not_exists.mp full
      rw [along_append_singleton, along_append_singleton, along_migrateAll_parents_tool inner,
        along_migrateAll_parents_tool inner]
      simp only [Book.inherit, migrateAll_of_patch patched,
        migrateAll_workspace_tool toolId (covers _),
        migrateAll_workspace_tool toolId (otherCovers _)]

end Settled

variable {record : ToolOutputSettings}

section Order

instance (settings : List ToolOutputSettings) : Std.Total (MigratesBefore settings) where
  total first second := by
    unfold MigratesBefore
    omega

instance (settings : List ToolOutputSettings) : IsTrans Nat (MigratesBefore settings) where
  trans first second third := by
    unfold MigratesBefore
    omega

theorem migrationScopes_perm (settings : List ToolOutputSettings) :
    (migrationScopes settings).Perm (scopesOf settings) := by
  have whole := Listing.filterMap_range_getElem? (scopesOf settings)
  rw [scopesOf, List.length_map] at whole
  calc (migrationScopes settings).Perm
        ((List.range settings.length).filterMap fun index => (scopesOf settings)[index]?) :=
          (List.perm_insertionSort _ _).filterMap _
    _ = scopesOf settings := whole

/-- Every scope with a record has its turn. -/
theorem migrationScopes_covers (settings : List ToolOutputSettings) :
    Covers (migrationScopes settings) (bookOf settings) := by
  intro scope absent
  rw [(migrationScopes_perm settings).mem_iff] at absent
  cases found : findSettings settings scope with
  | none =>
    rw [bookOf, found]
    rfl
  | some record =>
    exact absurd (List.mem_map.mpr ⟨record, Listing.mem_of_find found⟩) absent

/-- A record of a tool that is the first of the list has its turn before all others of tools. -/
theorem migrationScopes_cons {rest : List ToolOutputSettings} (tool : record.scope.toolId ≠ none) :
    ∃ first second, migrationScopes (record :: rest) = first ++ record.scope :: second ∧
      ∀ scope ∈ first, scope.toolId = none := by
  have member : 0 ∈ migrationOrder (record :: rest) := by
    rw [migrationOrder, List.mem_insertionSort, List.mem_range]
    exact Nat.zero_lt_succ _
  obtain ⟨first, second, split, absent⟩ := List.eq_append_cons_of_mem member
  have ordered : (migrationOrder (record :: rest)).Pairwise (MigratesBefore (record :: rest)) :=
    List.pairwise_insertionSort _ _
  rw [split, List.pairwise_append] at ordered
  refine ⟨first.filterMap fun index => (scopesOf (record :: rest))[index]?,
    second.filterMap fun index => (scopesOf (record :: rest))[index]?, ?_, ?_⟩
  · rw [migrationScopes, split, List.filterMap_append]
    rfl
  · intro scope listed
    obtain ⟨index, earlier, named⟩ := List.mem_filterMap.mp listed
    have before := ordered.2.2 index earlier 0 List.mem_cons_self
    have later : index ≠ 0 := fun same => absent (same ▸ earlier)
    rw [scopesOf, List.getElem?_map, Option.map_eq_some_iff] at named
    obtain ⟨other, present, rfl⟩ := named
    simp only [MigratesBefore, present, Option.map_some, Option.getD_some, List.getElem?_cons_zero,
      scopeMigrationDepth] at before
    cases own : other.scope.toolId with
    | none => rfl
    | some toolId =>
      obtain ⟨recordTool, named⟩ := Option.ne_none_iff_exists'.mp tool
      rw [own, named] at before
      simp [later] at before

end Order

variable {legacy : ToolOutputDefaults} {other : List ToolOutputSettings}

section Records

theorem layer_eq_whole : record.layer = .whole legacy ↔ record.legacyDefaults = some legacy := by
  unfold ToolOutputSettings.layer
  cases record.legacyDefaults <;> simp

/-- The scopes with full defaults. -/
theorem bookOf_eq_whole (distinct : (scopesOf settings).Nodup) :
    bookOf settings scope = some (.whole legacy) ↔
      ∃ record ∈ settings, record.scope = scope ∧ record.legacyDefaults = some legacy := by
  simp only [bookOf, Option.map_eq_some_iff, layer_eq_whole, ← and_assoc]
  exact exists_congr fun record => and_congr_left' (Listing.find_eq_some distinct)

theorem bookOf_perm (distinct : (scopesOf settings).Nodup) (same : other.Perm settings) :
    bookOf other = bookOf settings := by
  funext scope
  exact congrArg (Option.map _) (congrFun (Listing.find_perm distinct same) scope)

/-- The record that is added for the workspace overrides nothing. -/
theorem inheritFrom_withWorkspace (createdAt : LedgerTimestamp)
    (settings : List ToolOutputSettings) :
    inheritFrom (withWorkspace createdAt settings) = inheritFrom settings := by
  unfold withWorkspace
  split
  · rfl
  · funext defaults candidate
    rw [inheritFrom, inheritFrom, findSettings, List.find?_append, findSettings]
    cases settings.find? fun setting => setting.scope = candidate with
    | some record => rfl
    | none =>
      by_cases here : .workspace = candidate
      · subst here
        rfl
      · have missing : (ToolOutputSettings.new .workspace createdAt).scope ≠ candidate := here
        simp [missing]

theorem resolveDefaults_withWorkspace (createdAt : LedgerTimestamp)
    (settings : List ToolOutputSettings) (scope : ToolOutputSettingsScope) :
    resolveDefaults (withWorkspace createdAt settings) scope = resolveDefaults settings scope := by
  rw [resolveDefaults, inheritFrom_withWorkspace, resolveDefaults]

theorem mem_withWorkspace (full : record.legacyDefaults = some legacy) :
    record ∈ withWorkspace createdAt settings ↔ record ∈ settings := by
  unfold withWorkspace
  split
  · rfl
  · have other : record ≠ .new .workspace createdAt := by
      rintro rfl
      cases full
    simp [other]

theorem withWorkspace_perm (same : other.Perm settings) (createdAt : LedgerTimestamp) :
    (withWorkspace createdAt other).Perm (withWorkspace createdAt settings) := by
  unfold withWorkspace
  rw [same.any_eq]
  split
  · exact same
  · exact same.append_right _

theorem withWorkspace_cons (createdAt : LedgerTimestamp) (record : ToolOutputSettings)
    (rest : List ToolOutputSettings) :
    ∃ others, withWorkspace createdAt (record :: rest) = record :: others := by
  unfold withWorkspace
  split
  · exact ⟨rest, rfl⟩
  · exact ⟨rest ++ [.new .workspace createdAt], rfl⟩

end Records

section Migration

/-- No full defaults of a tool in a level agree with those of the tool in the workspace,
and these with the workspace, in a field where the level has another value. -/
def Unhidden (settings : List ToolOutputSettings) : Prop :=
  ∀ record ∈ settings, ∀ shared ∈ settings, ∀ toolId legacy tool,
    record.scope.level ≠ .workspace → record.scope.toolId = some toolId →
    record.legacyDefaults = some legacy →
    shared.scope = ToolOutputSettingsScope.workspace.forTool toolId →
    shared.legacyDefaults = some tool →
    hides legacy tool (resolveDefaults settings .workspace)
      (resolveDefaults settings { record.scope with toolId := none }) = false

theorem levelValue_withWorkspace (createdAt : LedgerTimestamp) (settings : List ToolOutputSettings)
    (level : ToolOutputSettingsLevel) :
    levelValue (bookOf (withWorkspace createdAt settings)) level =
      resolveDefaults settings ⟨level, none⟩ := by
  rw [levelValue, ← resolveDefaults_eq, resolveDefaults_withWorkspace]

theorem bookOf_withWorkspace_eq_whole (distinct : (scopesOf settings).Nodup) :
    bookOf (withWorkspace createdAt settings) scope = some (.whole legacy) ↔
      ∃ record ∈ settings, record.scope = scope ∧ record.legacyDefaults = some legacy := by
  rw [bookOf_eq_whole (scopesOf_withWorkspace createdAt distinct)]
  refine exists_congr fun record => and_congr_left ?_
  rintro ⟨_, full⟩
  exact mem_withWorkspace full

theorem Unhidden.bookUnhidden (unhidden : Unhidden settings)
    (distinct : (scopesOf settings).Nodup) (createdAt : LedgerTimestamp) :
    BookUnhidden (bookOf (withWorkspace createdAt settings)) := by
  intro level toolId legacy tool inner held shared
  obtain ⟨record, member, named, full⟩ := (bookOf_withWorkspace_eq_whole distinct).mp held
  obtain ⟨other, listed, workspace, otherFull⟩ :=
    (bookOf_withWorkspace_eq_whole distinct).mp shared
  have shown := unhidden record member other listed toolId legacy tool (named ▸ inner)
    (named ▸ rfl) full workspace otherFull
  rw [named] at shown
  rw [levelValue_withWorkspace, levelValue_withWorkspace]
  exact shown

/-- The defaults that a new service resolves. -/
theorem resolveDefaults_newWithSettings (distinct : (scopesOf settings).Nodup)
    (createdAt : LedgerTimestamp) (scope : ToolOutputSettingsScope) :
    resolveDefaults (migrateLegacySettings (withWorkspace createdAt settings)) scope =
      ((bookOf (withWorkspace createdAt settings)).migrateAll {} parents
        (migrationScopes (withWorkspace createdAt settings))).along {}
          (parents scope ++ [scope]) := by
  rw [resolveDefaults_eq,
    bookOf_migrateLegacySettings (scopesOf_withWorkspace createdAt distinct)]

/-- A service is made of the records, in which the records of the older format keep
their full defaults, and of the records in another order one that resolves the same. -/
structure MigrationKeeps (createdAt : LedgerTimestamp) (settings : List ToolOutputSettings)
    (service : InMemoryToolOutputSettingsService) : Prop where
  made : InMemoryToolOutputSettingsService.newWithSettings createdAt settings = .ok service
  legacy : ∀ record ∈ settings, ∀ defaults, record.legacyDefaults = some defaults →
    service.resolveDefaults record.scope = defaults
  order : ∀ other : List ToolOutputSettings, other.Perm settings →
    ∃ reordered, InMemoryToolOutputSettingsService.newWithSettings createdAt other = .ok reordered ∧
      ∀ scope, reordered.resolveDefaults scope = service.resolveDefaults scope

theorem scopesOf_perm (distinct : (scopesOf settings).Nodup) (same : other.Perm settings) :
    (scopesOf other).Nodup :=
  (same.map _).nodup_iff.mpr distinct

/-- With nothing hidden the migration keeps what the settings say. -/
theorem Unhidden.migrationKeeps (unhidden : Unhidden settings)
    (distinct : (scopesOf settings).Nodup) (createdAt : LedgerTimestamp) :
    MigrationKeeps createdAt settings
      ⟨migrateLegacySettings (withWorkspace createdAt settings), []⟩ where
  made := newWithSettings_eq_ok.mpr ⟨distinct, rfl⟩
  legacy record member defaults full := by
    have held : bookOf (withWorkspace createdAt settings) record.scope = some (.whole defaults) :=
      (bookOf_withWorkspace_eq_whole distinct).mpr ⟨record, member, rfl, full⟩
    rw [InMemoryToolOutputSettingsService.resolveDefaults,
      resolveDefaults_newWithSettings distinct]
    exact along_migrateAll_whole (unhidden.bookUnhidden distinct createdAt)
      (migrationScopes_covers _) held
  order other same := by
    have otherDistinct := scopesOf_perm distinct same
    have sameBook := bookOf_perm (scopesOf_withWorkspace createdAt distinct)
      (withWorkspace_perm same createdAt)
    refine ⟨_, newWithSettings_eq_ok.mpr ⟨otherDistinct, rfl⟩, fun scope => ?_⟩
    rw [InMemoryToolOutputSettingsService.resolveDefaults,
      resolveDefaults_newWithSettings otherDistinct,
      InMemoryToolOutputSettingsService.resolveDefaults, resolveDefaults_newWithSettings distinct,
      sameBook]
    exact along_migrateAll_order (unhidden.bookUnhidden distinct createdAt)
      (migrationScopes_covers _) (sameBook ▸ migrationScopes_covers _) scope

/-- The record of a tool in a level that is listed first is rewritten before that of the
tool in the workspace. -/
theorem resolveDefaults_listed_first {shared : ToolOutputSettings} {rest : List ToolOutputSettings}
    {tool : ToolOutputDefaults} (distinct : (scopesOf (record :: rest)).Nodup)
    (inner : level ≠ .workspace) (named : record.scope = ⟨level, some toolId⟩)
    (full : record.legacyDefaults = some legacy) (listed : shared ∈ record :: rest)
    (workspace : shared.scope = ⟨.workspace, some toolId⟩)
    (sharedFull : shared.legacyDefaults = some tool) (createdAt : LedgerTimestamp) :
    resolveDefaults (migrateLegacySettings (withWorkspace createdAt (record :: rest)))
        ⟨level, some toolId⟩ = legacy ↔
      hides legacy tool (resolveDefaults (record :: rest) .workspace)
        (resolveDefaults (record :: rest) ⟨level, none⟩) = false := by
  have held : bookOf (withWorkspace createdAt (record :: rest)) ⟨level, some toolId⟩ =
      some (.whole legacy) :=
    (bookOf_withWorkspace_eq_whole distinct).mpr ⟨record, List.mem_cons_self, named, full⟩
  have sharedHeld : bookOf (withWorkspace createdAt (record :: rest)) ⟨.workspace, some toolId⟩ =
      some (.whole tool) :=
    (bookOf_withWorkspace_eq_whole distinct).mpr ⟨shared, listed, workspace, sharedFull⟩
  obtain ⟨others, front⟩ := withWorkspace_cons createdAt record rest
  obtain ⟨first, second, split, toolless⟩ :
      ∃ first second, migrationScopes (record :: others) = first ++ record.scope :: second ∧
        ∀ scope ∈ first, scope.toolId = none :=
    migrationScopes_cons (named ▸ Option.some_ne_none toolId)
  rw [← front, named] at split
  have later : ∀ level, ⟨level, some toolId⟩ ∉ first := fun level member =>
    Option.some_ne_none toolId (toolless _ member)
  have reached := along_migrateAll_tool_early inner held split (later level)
    (migrationScopes_covers _) sharedHeld (later .workspace)
  rw [levelValue_withWorkspace, levelValue_withWorkspace] at reached
  rw [resolveDefaults_newWithSettings distinct]
  exact reached

theorem resolveDefaults_perm (distinct : (scopesOf settings).Nodup) (same : other.Perm settings)
    (scope : ToolOutputSettingsScope) :
    resolveDefaults other scope = resolveDefaults settings scope := by
  rw [resolveDefaults_eq, bookOf_perm distinct same, resolveDefaults_eq]

/-- Legacy migration keeps what the settings say exactly where nothing is hidden. Where
something is, the orders that list the tool of the level before the tool of the
workspace lose it. -/
theorem legacy_migration_keeps_iff (distinct : (scopesOf settings).Nodup)
    (createdAt : LedgerTimestamp) :
    (∃ service, MigrationKeeps createdAt settings service) ↔ Unhidden settings := by
  constructor
  · rintro ⟨service, keeps⟩ record member shared listed toolId legacy tool inner named full
      workspace sharedFull
    have same : (record :: settings.erase record).Perm settings :=
      (List.perm_cons_erase member).symm
    have placed : record.scope = ⟨record.scope.level, some toolId⟩ := by rw [← named]
    obtain ⟨reordered, made, agrees⟩ := keeps.order _ same
    obtain ⟨otherDistinct, rfl⟩ := newWithSettings_eq_ok.mp made
    have value := (agrees record.scope).trans (keeps.legacy record member legacy full)
    rw [placed] at value
    have shown := (resolveDefaults_listed_first otherDistinct inner placed full
      (same.mem_iff.mpr listed) workspace sharedFull createdAt).mp value
    rw [resolveDefaults_perm distinct same, resolveDefaults_perm distinct same] at shown
    exact shown
  · intro unhidden
    exact ⟨_, unhidden.migrationKeeps distinct createdAt⟩

/-- A session with a small bound on inline output. -/
def sessionSettings : ToolOutputSettings :=
  { ToolOutputSettings.new ⟨.session "s", none⟩ ⟨0⟩ with
    overrides := { maxInlineBytes := some 1000 } }

/-- Full defaults of a tool, in the older format. -/
def legacySettings (level : ToolOutputSettingsLevel) (defaults : ToolOutputDefaults) :
    ToolOutputSettings :=
  { ToolOutputSettings.new ⟨level, some "fs.read"⟩ ⟨0⟩ with legacyDefaults := some defaults }

/-- The tool of the session has the defaults of the tool in the workspace, which has those
of the workspace: the session's bound takes their place. -/
theorem session_tool_hidden :
    (scopesOf [sessionSettings, legacySettings (.session "s") {},
        legacySettings .workspace {}]).Nodup ∧
      ¬ ∃ service, MigrationKeeps ⟨0⟩
        [sessionSettings, legacySettings (.session "s") {}, legacySettings .workspace {}]
        service := by
  refine ⟨by decide, ?_⟩
  rintro ⟨service, keeps⟩
  obtain ⟨_, rfl⟩ := newWithSettings_eq_ok.mp keeps.made
  have kept := keeps.legacy (legacySettings (.session "s") {}) (by simp) {} rfl
  revert kept
  decide

/-- A tool in the workspace that has its own bound hides nothing of the session. -/
theorem session_tool_kept :
    (scopesOf [sessionSettings, legacySettings (.session "s") {},
        legacySettings .workspace { maxInlineBytes := 4096 }]).Nodup ∧
      ∃ service, MigrationKeeps ⟨0⟩
        [sessionSettings, legacySettings (.session "s") {},
          legacySettings .workspace { maxInlineBytes := 4096 }] service := by
  have distinct : (scopesOf [sessionSettings, legacySettings (.session "s") {},
      legacySettings .workspace { maxInlineBytes := 4096 }]).Nodup := by decide
  refine ⟨distinct, (legacy_migration_keeps_iff distinct ⟨0⟩).mpr ?_⟩
  intro record member shared listed toolId legacy tool inner named full workspace sharedFull
  simp only [List.mem_cons, List.not_mem_nil, or_false] at member listed
  rcases member with rfl | rfl | rfl
  · cases full
  · rcases listed with rfl | rfl | rfl
    · cases sharedFull
    · cases workspace
    · cases full
      cases sharedFull
      decide
  · exact absurd rfl inner

end Migration

end Atelia.Settings
