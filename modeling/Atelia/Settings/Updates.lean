import Atelia.Settings.Books

/-! Updates of settings. -/

namespace Atelia.Settings

open Outcome Layers

variable {service after : InMemoryToolOutputSettingsService} {settings : List ToolOutputSettings}
  {scope : ToolOutputSettingsScope} {update : ToolOutputOverrides} {reason : String}
  {actor : Actor} {updatedAt : LedgerTimestamp} {change : ToolOutputSettingsChange}

section Ranges

/-- The limits that overrides set are in range. -/
structure OverridesInRange (overrides : ToolOutputOverrides) : Prop where
  bytes : ∀ value ∈ overrides.maxInlineBytes, validateInlineBytes value = .ok ()
  lines : ∀ value ∈ overrides.maxInlineLines, validateInlineLines value = .ok ()

/-- Settings as they are read: overrides and full defaults are checked. -/
structure SettingsInRange (settings : ToolOutputSettings) : Prop where
  overrides : OverridesInRange settings.overrides
  legacy : ∀ defaults ∈ settings.legacyDefaults, validateDefaults defaults = .ok ()

def LayerInRange : Layer ToolOutputDefaults ToolOutputOverrides → Prop
  | .whole defaults => validateDefaults defaults = .ok ()
  | .patch overrides => OverridesInRange overrides

def BookInRange (book : Book ToolOutputSettingsScope ToolOutputDefaults ToolOutputOverrides) :
    Prop :=
  ∀ scope, ∀ layer ∈ book scope, LayerInRange layer

theorem validateDefaults_eq_ok {defaults : ToolOutputDefaults} {result : Unit} :
    validateDefaults defaults = .ok result ↔
      validateInlineBytes defaults.maxInlineBytes = .ok () ∧
        validateInlineLines defaults.maxInlineLines = .ok () := by
  simp only [validateDefaults, bind_eq_ok, exists_unit]

theorem OverridesInRange.applyTo {overrides : ToolOutputOverrides} {defaults : ToolOutputDefaults}
    (inRange : OverridesInRange overrides) (valid : validateDefaults defaults = .ok ()) :
    validateDefaults (overrides.applyTo defaults) = .ok () := by
  rw [validateDefaults_eq_ok] at valid ⊢
  constructor
  · cases set : overrides.maxInlineBytes with
    | none => simpa [ToolOutputOverrides.applyTo, set] using valid.1
    | some value => simpa [ToolOutputOverrides.applyTo, set] using inRange.bytes value set
  · cases set : overrides.maxInlineLines with
    | none => simpa [ToolOutputOverrides.applyTo, set] using valid.2
    | some value => simpa [ToolOutputOverrides.applyTo, set] using inRange.lines value set

theorem OverridesInRange.of_defaults {base : ToolOutputDefaults} (inherited : ToolOutputDefaults)
    (valid : validateDefaults base = .ok ()) :
    OverridesInRange (.fromDefaultsWithParent base inherited) := by
  rw [validateDefaults_eq_ok] at valid
  constructor
  · intro value set
    rw [differing_mem set]
    exact valid.1
  · intro value set
    rw [differing_mem set]
    exact valid.2

/-- An update whose result is accepted sets limits in range. -/
theorem OverridesInRange.of_applyTo {defaults : ToolOutputDefaults}
    (valid : validateDefaults (update.applyTo defaults) = .ok ()) : OverridesInRange update := by
  rw [validateDefaults_eq_ok] at valid
  constructor
  · intro value set
    rw [Option.mem_def] at set
    simpa [ToolOutputOverrides.applyTo, set] using valid.1
  · intro value set
    rw [Option.mem_def] at set
    simpa [ToolOutputOverrides.applyTo, set] using valid.2

theorem OverridesInRange.merge {overrides : ToolOutputOverrides}
    (inRange : OverridesInRange overrides) (inRangeUpdate : OverridesInRange update) :
    OverridesInRange (overrides.merge update) := by
  constructor
  · intro value set
    rcases Option.or_eq_some_iff.mp set with new | ⟨_, old⟩
    · exact inRangeUpdate.bytes value new
    · exact inRange.bytes value old
  · intro value set
    rcases Option.or_eq_some_iff.mp set with new | ⟨_, old⟩
    · exact inRangeUpdate.lines value new
    · exact inRange.lines value old

theorem LayerInRange.resolved {layer : Layer ToolOutputDefaults ToolOutputOverrides}
    (inRange : LayerInRange layer) (inherited : ToolOutputDefaults) :
    OverridesInRange (layer.resolved inherited) := by
  cases layer with
  | whole defaults => exact .of_defaults inherited inRange
  | patch overrides => exact inRange

/-- All defaults inherited along a chain are in range. -/
theorem BookInRange.along
    {book : Book ToolOutputSettingsScope ToolOutputDefaults ToolOutputOverrides}
    (inRange : BookInRange book) (chain : List ToolOutputSettingsScope) :
    validateDefaults (book.along {} chain) = .ok () := by
  induction chain using List.reverseRecOn with
  | nil => rfl
  | append_singleton chain scope ih =>
    rw [along_append_singleton, Book.inherit]
    cases found : book scope with
    | none => exact ih
    | some layer => exact ((inRange scope layer found).resolved _).applyTo ih

theorem BookInRange.migrateAll
    {book : Book ToolOutputSettingsScope ToolOutputDefaults ToolOutputOverrides}
    (inRange : BookInRange book) (order : List ToolOutputSettingsScope) :
    BookInRange (book.migrateAll {} parents order) := by
  induction order generalizing book with
  | nil => exact inRange
  | cons scope rest ih =>
    apply ih
    intro target layer found
    by_cases here : target = scope
    · subst here
      rw [Option.mem_def, migrate_self, Option.map_eq_some_iff] at found
      obtain ⟨own, present, rfl⟩ := found
      exact (inRange target own present).resolved _
    · rw [migrate_of_ne here] at found
      exact inRange target layer found

theorem SettingsInRange.layer {record : ToolOutputSettings} (inRange : SettingsInRange record) :
    LayerInRange record.layer := by
  unfold ToolOutputSettings.layer
  cases legacy : record.legacyDefaults with
  | none => exact inRange.overrides
  | some defaults => exact inRange.legacy defaults legacy

theorem BookInRange.of_settings (inRange : ∀ record ∈ settings, SettingsInRange record) :
    BookInRange (bookOf settings) := by
  intro scope layer found
  rw [Option.mem_def, bookOf, Option.map_eq_some_iff] at found
  obtain ⟨record, present, rfl⟩ := found
  exact (inRange record (Listing.mem_of_find present).1).layer

end Ranges

section Effects

/-- What a successful update does. -/
structure Updated (service after : InMemoryToolOutputSettingsService)
    (scope : ToolOutputSettingsScope) (update : ToolOutputOverrides)
    (change : ToolOutputSettingsChange) : Prop where
  old : change.oldDefaults = resolveDefaults service.settings scope
  accepted : withOverrides change.oldDefaults update = .ok change.newDefaults
  book : ∃ overrides : ToolOutputOverrides,
    overrides.applyTo (resolveParentDefaultsFor service.settings scope) = change.oldDefaults ∧
      (BookInRange (bookOf service.settings) → OverridesInRange overrides) ∧
      bookOf after.settings =
        Function.update (bookOf service.settings) scope (some (.patch (overrides.merge update)))
  changes : after.changes = service.changes ++ [change]

/-- An update of a record either fails and leaves it, or merges the update into it. -/
theorem ToolOutputSettings.applyUpdate_cases (record : ToolOutputSettings) (actor : Actor)
    (update : ToolOutputOverrides) (reason : String) (inherited : ToolOutputDefaults)
    (updatedAt : LedgerTimestamp) :
    (∃ error, record.applyUpdate actor update reason inherited updatedAt =
        (.error error, record)) ∨
      ∃ change updated,
        record.applyUpdate actor update reason inherited updatedAt = (.ok change, updated) ∧
          change.oldDefaults = (record.resolvedOverrides inherited).applyTo inherited ∧
          withOverrides change.oldDefaults update = .ok change.newDefaults ∧
          updated.scope = record.scope ∧
          updated.layer = .patch ((record.resolvedOverrides inherited).merge update) := by
  unfold ToolOutputSettings.applyUpdate
  split
  · exact .inl ⟨_, rfl⟩
  · split
    · exact .inl ⟨_, rfl⟩
    · cases checked : withOverrides ((record.resolvedOverrides inherited).applyTo inherited) update
        with
      | error error =>
        simp only [checked]
        exact .inl ⟨error, rfl⟩
      | ok newDefaults =>
        simp only [checked]
        exact .inr ⟨_, _, rfl, rfl, checked, rfl, rfl⟩

theorem bookOf_update {records : List ToolOutputSettings} {record : ToolOutputSettings}
    (found : findSettings records =
      Function.update (findSettings settings) scope (some record)) :
    bookOf records = Function.update (bookOf settings) scope (some record.layer) := by
  funext other
  by_cases here : other = scope
  · subst here
    rw [bookOf, found, Function.update_self, Function.update_self, Option.map_some]
  · rw [bookOf, found, Function.update_of_ne here, Function.update_of_ne here, bookOf]

/-- An update of a service either fails and leaves it, or changes the layer of its
scope. -/
theorem applyUpdate_cases (service : InMemoryToolOutputSettingsService) (actor : Actor)
    (scope : ToolOutputSettingsScope) (update : ToolOutputOverrides) (reason : String)
    (updatedAt : LedgerTimestamp) :
    (∃ error, service.applyUpdate actor scope update reason updatedAt = (.error error, service)) ∨
      ∃ change after,
        service.applyUpdate actor scope update reason updatedAt = (.ok change, after) ∧
          Updated service after scope update change := by
  unfold InMemoryToolOutputSettingsService.applyUpdate
  cases found : findSettings service.settings scope with
  | some own =>
    have named : own.scope = scope := (Listing.mem_of_find found).2
    rcases own.applyUpdate_cases actor update reason
        (resolveParentDefaultsFor service.settings scope) updatedAt with
      ⟨error, failed⟩ | ⟨change, updated, succeeded, old, accepted, kept, layer⟩
    · refine .inl ⟨error, ?_⟩
      simp only [failed]
      have same := Listing.set_findIdx_self found
      simp only [same]
    · simp only [succeeded]
      refine .inr ⟨change, _, rfl, ?_, accepted, ⟨_, old.symm, ?_, ?_⟩, rfl⟩
      · rw [old, resolveDefaults_parent, inheritFrom, found]
      · intro inRange
        have present : bookOf service.settings scope = some own.layer := by
          rw [bookOf, found, Option.map_some]
        rw [← layer_resolved]
        exact (inRange scope own.layer present).resolved _
      · rw [← layer]
        exact bookOf_update (Listing.find_set_findIdx found (kept.trans named))
  | none =>
    rcases (ToolOutputSettings.new scope updatedAt).applyUpdate_cases actor update reason
        (resolveParentDefaultsFor service.settings scope) updatedAt with
      ⟨error, failed⟩ | ⟨change, updated, succeeded, old, accepted, kept, layer⟩
    · exact .inl ⟨error, by simp only [failed]⟩
    · have fresh : Listing.find (·.scope) service.settings updated.scope = none := by
        rw [kept]
        exact found
      simp only [succeeded]
      refine .inr ⟨change, _, rfl, ?_, accepted, ⟨_, old.symm, ?_, ?_⟩, rfl⟩
      · rw [old, resolveDefaults_parent, inheritFrom, found]
        rfl
      · intro _
        constructor <;> rintro _ ⟨⟩
      · rw [← layer]
        apply bookOf_update
        have added := Listing.find_append_new fresh
        rw [kept] at added
        exact added

end Effects

section Reachable

/-- The services that updates lead to from settings in range. -/
inductive Reachable : InMemoryToolOutputSettingsService → Prop where
  | opened {createdAt : LedgerTimestamp} {settings : List ToolOutputSettings}
      {service : InMemoryToolOutputSettingsService}
      (inRange : ∀ record ∈ settings, SettingsInRange record)
      (made : InMemoryToolOutputSettingsService.newWithSettings createdAt settings = .ok service) :
      Reachable service
  | updated {service : InMemoryToolOutputSettingsService} (earlier : Reachable service)
      (actor : Actor) (scope : ToolOutputSettingsScope) (update : ToolOutputOverrides)
      (reason : String) (updatedAt : LedgerTimestamp) :
      Reachable (service.applyUpdate actor scope update reason updatedAt).2

/-- An update leaves the layers of a service in range. -/
theorem Updated.inRange (updated : Updated service after scope update change)
    (inRange : BookInRange (bookOf service.settings)) : BookInRange (bookOf after.settings) := by
  obtain ⟨overrides, _, within, book⟩ := updated.book
  have accepted := updated.accepted
  simp only [withOverrides, bind_eq_ok, exists_unit] at accepted
  rw [book]
  intro target layer found
  by_cases here : target = scope
  · subst here
    rw [Option.mem_def, Function.update_self] at found
    obtain rfl := Option.some.inj found
    exact (within inRange).merge (.of_applyTo accepted.1)
  · rw [Function.update_of_ne here] at found
    exact inRange target layer found

theorem withWorkspace_inRange (createdAt : LedgerTimestamp)
    (inRange : ∀ record ∈ settings, SettingsInRange record) :
    ∀ record ∈ withWorkspace createdAt settings, SettingsInRange record := by
  unfold withWorkspace
  split
  · exact inRange
  · intro record member
    rcases List.mem_append.mp member with old | new
    · exact inRange record old
    · obtain rfl := List.mem_singleton.mp new
      exact ⟨⟨nofun, nofun⟩, nofun⟩

theorem Reachable.inRange (reachable : Reachable service) :
    BookInRange (bookOf service.settings) := by
  induction reachable with
  | opened inRange made =>
    obtain ⟨distinct, rfl⟩ := newWithSettings_eq_ok.mp made
    rw [bookOf_migrateLegacySettings (scopesOf_withWorkspace _ distinct)]
    exact (BookInRange.of_settings (withWorkspace_inRange _ inRange)).migrateAll _
  | updated _ actor scope update reason updatedAt ih =>
    rename_i service _
    rcases applyUpdate_cases service actor scope update reason updatedAt with
      ⟨_, failed⟩ | ⟨_, _, succeeded, updated⟩
    · rw [failed]
      exact ih
    · rw [succeeded]
      exact updated.inRange ih

end Reachable

section Audit

/-- A scope that does not inherit from the updated one resolves as before. -/
theorem Updated.elsewhere (updated : Updated service after scope update change)
    {target : ToolOutputSettingsScope} (outside : scope ∉ resolutionChain target) :
    after.resolveDefaults target = service.resolveDefaults target := by
  obtain ⟨_, _, _, book⟩ := updated.book
  rw [resolutionChain_eq] at outside
  rw [InMemoryToolOutputSettingsService.resolveDefaults,
    InMemoryToolOutputSettingsService.resolveDefaults, resolveDefaults_eq, resolveDefaults_eq, book]
  apply along_congr
  intro ancestor member
  apply Function.update_of_ne
  rintro rfl
  exact outside member

theorem not_mem_parents (scope : ToolOutputSettingsScope) : scope ∉ parents scope := by
  intro member
  have differs := List.mem_takeWhile_imp member
  simp at differs

/-- The updated scope resolves to the recorded new defaults. -/
theorem Updated.here (updated : Updated service after scope update change) :
    after.resolveDefaults scope = change.newDefaults := by
  obtain ⟨overrides, old, _, book⟩ := updated.book
  have accepted := updated.accepted
  simp only [withOverrides, bind_eq_ok, exists_unit, pure_eq_ok] at accepted
  have inherited : (bookOf after.settings).along {} (parents scope) =
      resolveParentDefaultsFor service.settings scope := by
    rw [resolveParentDefaultsFor_eq, book]
    apply along_congr
    intro ancestor member
    apply Function.update_of_ne
    rintro rfl
    exact not_mem_parents ancestor member
  rw [InMemoryToolOutputSettingsService.resolveDefaults, resolveDefaults_eq, along_append_singleton,
    inherited, Book.inherit, book, Function.update_self, ← accepted.2, ← old]
  exact merge_applyTo overrides update _

theorem Reachable.resolves_inRange (reachable : Reachable service)
    (target : ToolOutputSettingsScope) :
    validateDefaults (service.resolveDefaults target) = .ok () := by
  rw [InMemoryToolOutputSettingsService.resolveDefaults, resolveDefaults_eq]
  exact reachable.inRange.along _

/-- Updates are audited exactly and stay local. -/
theorem settings_updates_audited (reachable : Reachable service) (actor : Actor)
    (scope : ToolOutputSettingsScope) (update : ToolOutputOverrides) (reason : String)
    (updatedAt : LedgerTimestamp) :
    let (answer, after) := service.applyUpdate actor scope update reason updatedAt
    (∀ target, validateDefaults (after.resolveDefaults target) = .ok ()) ∧
      match answer with
      | .ok change => change.oldDefaults = service.resolveDefaults scope ∧
          withOverrides change.oldDefaults update = .ok change.newDefaults ∧
          change.newDefaults = after.resolveDefaults scope ∧
          (∀ target, scope ∉ resolutionChain target →
            after.resolveDefaults target = service.resolveDefaults target) ∧
          after.changes = service.changes ++ [change]
      | .error _ => (∀ target, after.resolveDefaults target = service.resolveDefaults target) ∧
          after.changes = service.changes := by
  have inRange := (reachable.updated actor scope update reason updatedAt).resolves_inRange
  rcases applyUpdate_cases service actor scope update reason updatedAt with
    ⟨_, failed⟩ | ⟨_, _, succeeded, updated⟩
  · rw [failed] at inRange ⊢
    exact ⟨inRange, fun _ => rfl, rfl⟩
  · rw [succeeded] at inRange ⊢
    exact ⟨inRange, updated.old, updated.accepted, updated.here.symm, fun _ => updated.elsewhere,
      updated.changes⟩

/-- Short sessions in a workspace with a limit on bytes. -/
def shortSessions : List ToolOutputSettings :=
  [{ ToolOutputSettings.new .workspace ⟨0⟩ with overrides := { maxInlineBytes := some 4096 } },
    { ToolOutputSettings.new ⟨.session "s", none⟩ ⟨0⟩ with
      overrides := { maxInlineLines := some 100 } }]

/-- A tool of a session is given more lines after the workspace gave it more bytes. -/
theorem session_tool_updated :
    ∃ service change after, Reachable service ∧ service.changes.length = 1 ∧
      service.applyUpdate (.system "daemon") ⟨.session "s", some "fs.read"⟩
        { maxInlineLines := some 400 } "long files" ⟨2⟩ = (.ok change, after) ∧
      change.oldDefaults = service.resolveDefaults ⟨.session "s", some "fs.read"⟩ ∧
      change.oldDefaults = { maxInlineBytes := 8192, maxInlineLines := 100 } ∧
      change.newDefaults = after.resolveDefaults ⟨.session "s", some "fs.read"⟩ ∧
      change.newDefaults = { maxInlineBytes := 8192, maxInlineLines := 400 } ∧
      after.resolveDefaults ⟨.session "s", none⟩ = service.resolveDefaults ⟨.session "s", none⟩ ∧
      after.changes = service.changes ++ [change] := by
  have inRange : ∀ record ∈ shortSessions, SettingsInRange record := by
    simp only [shortSessions, List.forall_mem_cons]
    exact ⟨⟨⟨by decide, by decide⟩, by decide⟩, ⟨⟨by decide, by decide⟩, by decide⟩, by simp⟩
  let opened : InMemoryToolOutputSettingsService := ⟨shortSessions, []⟩
  have reachable : Reachable opened := @Reachable.opened ⟨0⟩ _ _ inRange (by decide)
  have widened := reachable.updated (.system "daemon") ⟨.workspace, some "fs.read"⟩
    { maxInlineBytes := some 8192 } "wide files" ⟨1⟩
  have audited := settings_updates_audited widened (.system "daemon")
    ⟨.session "s", some "fs.read"⟩ { maxInlineLines := some 400 } "long files" ⟨2⟩
  exact ⟨_, _, _, widened, by decide, rfl, audited.2.1, by decide, audited.2.2.2.1, by decide,
    audited.2.2.2.2.1 _ (by decide), audited.2.2.2.2.2⟩

end Audit

end Atelia.Settings
