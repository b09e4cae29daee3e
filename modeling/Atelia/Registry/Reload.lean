import Atelia.Registry.Invariant
import Atelia.Registry.Revalidation

/-! Snapshots of a registry load again. -/

namespace Atelia.Registry

open Outcome Attempt

section Runs

variable {registry : ExtensionRegistry}

/-- An operation changes the registry in one of the known ways, or leaves it. -/
theorem perform_cases (registry : ExtensionRegistry) (operation : RegistryOperation) :
    (∃ error, exec operation.perform registry = (.error error, registry)) ∨
      ∃ answer after, exec operation.perform registry = (.ok answer, after) ∧
        Change registry operation after := by
  rcases outcome : exec operation.perform registry with ⟨error | answer, after⟩
  · obtain rfl := operation.perform_atomic registry error after outcome
    exact .inl ⟨error, rfl⟩
  · exact .inr ⟨answer, after, rfl, RegistryOperation.change_of_perform outcome⟩

/-- What every change keeps holds after every run. -/
theorem performAll_induct (holds : ExtensionRegistry → Prop)
    (kept : ∀ before operation after, holds before → Change before operation after → holds after)
    (start : holds registry) (operations : List RegistryOperation) :
    holds (registry.performAll operations) := by
  induction operations generalizing registry with
  | nil => exact start
  | cons operation rest ih =>
    apply ih
    change holds (exec operation.perform registry).2
    rcases perform_cases registry operation with ⟨error, failed⟩ | ⟨answer, after, done, change⟩
    · rw [failed]
      exact start
    · rw [done]
      exact kept registry operation after start change

theorem performAll_consistent (consistent : registry.Consistent)
    (operations : List RegistryOperation) : (registry.performAll operations).Consistent :=
  performAll_induct _ (fun _ _ _ consistent change => change.consistent consistent) consistent operations

theorem Change.validationPolicy_eq {operation : RegistryOperation} {after : ExtensionRegistry}
    (change : Change registry operation after) :
    after.validationPolicy = registry.validationPolicy := by
  cases change <;> rfl

end Runs

/-- Every stored manifest is acceptable under the approvals of its record. -/
def ExtensionRegistry.Acceptable (registry : ExtensionRegistry) : Prop :=
  ∀ extensionId version manifest record,
    registry.manifests.find extensionId version = some manifest →
      registry.records.find extensionId version = some record →
        validateManifest manifest (withRecordApprovals registry.validationPolicy record) =
          .ok ⟨manifest, record.boundary⟩

variable {registry : ExtensionRegistry} {extensionId version : String}
  {manifest : ExtensionManifest} {record : ExtensionInstallRecord}
  {activeVersions : Table String String}

theorem ExtensionRegistry.Acceptable.write (acceptable : registry.Acceptable)
    (valid : validateManifest manifest (withRecordApprovals registry.validationPolicy record) =
      .ok ⟨manifest, record.boundary⟩) :
    (registry.write extensionId version manifest record activeVersions).Acceptable := by
  intro other another stored found storedManifest foundRecord
  by_cases same : extensionId = other ∧ version = another
  · obtain ⟨rfl, rfl⟩ := same
    simp only [ExtensionRegistry.write, Catalog.find_store_same, Option.some.injEq]
      at storedManifest foundRecord
    subst storedManifest foundRecord
    exact valid
  · simp only [ExtensionRegistry.write, Catalog.find_store_other same] at storedManifest foundRecord
    exact acceptable other another stored found storedManifest foundRecord

theorem ExtensionRegistry.Acceptable.restate (acceptable : registry.Acceptable)
    (consistent : registry.Consistent)
    (stored : registry.records.find extensionId version = some record)
    {status : ExtensionInstallStatus} :
    (registry.restate extensionId version record status activeVersions).Acceptable := by
  obtain ⟨manifest, found, _, same⟩ := consistent.restate_eq_write stored status activeVersions
  have valid := acceptable _ _ _ _ found stored
  rw [same]
  exact acceptable.write valid

/-- One successful operation. -/
theorem Change.acceptable {operation : RegistryOperation} {after : ExtensionRegistry}
    (change : Change registry operation after)
    (trimmed : Text.trim registry.validationPolicy.officialRegistryIdentity =
      registry.validationPolicy.officialRegistryIdentity)
    (consistent : registry.Consistent) (acceptable : registry.Acceptable) : after.Acceptable := by
  cases change with
  | install valid unblocked stable approved ends =>
    apply acceptable.write
    exact validateManifest_extends (policyWith_extends registry _ _) valid
  | rollback active linked foundManifest unblocked found => exact acceptable.restate consistent found
  | disable active found => exact acceptable.restate consistent found
  | enable active foundManifest unblocked found => exact acceptable.restate consistent found
  | remove active found => exact acceptable.restate consistent found
  | updatePublication active foundManifest found carried valid unblocked =>
    apply acceptable.write
    have before := acceptable _ _ _ _ foundManifest found
    -- the publication does not bear on the boundary
    obtain rfl := classifyBoundary_unique rfl rfl (validateManifest_eq_ok.mp before).2.1
      (validateManifest_eq_ok.mp valid).2.1
    exact valid
  | updateRegistrySubmission active found published foundManifest submits valid unblocked =>
    apply acceptable.write
    have before := acceptable _ _ _ _ foundManifest found
    have sameBoundary := classifyBoundary_unique (by
      rw [← submits]
      unfold ExtensionRegistry.submittedManifest
      split <;> rfl)
      (by rw [← submits]; unfold ExtensionRegistry.submittedManifest; split <;> rfl)
      (validateManifest_eq_ok.mp before).2.1 (validateManifest_eq_ok.mp valid).2.1
    rw [sameBoundary] at valid
    refine validateManifest_trimmed trimmed ?_ valid
    intro text identity
    exact submittedManifest_identity (submits ▸ identity)
  | addBlocklistEntry supported => exact acceptable
  | appendAuditRecord wellFormed fresh targets => exact acceptable

namespace ExtensionRegistrySnapshot

theorem validateManifests_eq_ok {registry : ExtensionRegistry} (consistent : registry.Consistent)
    (acceptable : registry.Acceptable) :
    registry.toExtensionRegistrySnapshot.validateManifests registry.validationPolicy = .ok () := by
  unfold validateManifests
  simp only [checkAll_eq_ok, Prod.forall, Std.ExtTreeMap.mem_toList_iff_getElem?_eq_some]
  intro extensionId editions found version record edition
  have stored := Catalog.find_eq_some_iff.mpr ⟨editions, found, edition⟩
  obtain ⟨manifest, foundManifest, _⟩ := consistent.manifest_of_record stored
  simp only [bind_eq_ok, okOr_eq_ok, mapError_eq_ok, ensure_eq_ok]
  exact ⟨manifest, foundManifest, _, acceptable _ _ _ _ foundManifest stored, rfl⟩

end ExtensionRegistrySnapshot

theorem ExtensionRegistry.validateWithPolicy_snapshot (consistent : registry.Consistent)
    (acceptable : registry.Acceptable) :
    registry.snapshot.validateWithPolicy registry.validationPolicy = .ok () := by
  simp only [ExtensionRegistrySnapshot.validateWithPolicy, bind_eq_ok, exists_unit]
  exact ⟨ExtensionRegistrySnapshot.validate_eq_ok.mpr consistent,
    ExtensionRegistrySnapshot.validateManifests_eq_ok consistent acceptable⟩

/-- Loading the snapshot of a registry in order gives the registry back. -/
theorem ExtensionRegistry.fromSnapshot_snapshot (consistent : registry.Consistent)
    (acceptable : registry.Acceptable) :
    fromSnapshot registry.snapshot registry.validationPolicy = .ok registry := by
  simp only [fromSnapshot, bind_eq_ok, exists_unit, pure_eq_ok]
  exact ⟨validateWithPolicy_snapshot consistent acceptable, rfl⟩

/-- After every sequence of operations, successful or failing, the snapshot of the
registry is valid and loads into the same registry, and an operation that fails
next leaves the registry as it is. -/
theorem registry_snapshot_reloads (policy : ManifestValidationPolicy)
    (trimmed : Text.trim policy.officialRegistryIdentity = policy.officialRegistryIdentity)
    (operations : List RegistryOperation) :
    ((ExtensionRegistry.new policy).performAll operations).snapshot.validate = .ok () ∧
    ExtensionRegistry.fromSnapshot
        ((ExtensionRegistry.new policy).performAll operations).snapshot policy =
      .ok ((ExtensionRegistry.new policy).performAll operations) ∧
    ∀ (operation : RegistryOperation) (error : RegistryError),
      (exec operation.perform ((ExtensionRegistry.new policy).performAll operations)).1 =
          .error error →
        (exec operation.perform ((ExtensionRegistry.new policy).performAll operations)).2 =
          (ExtensionRegistry.new policy).performAll operations := by
  have invariant : ((ExtensionRegistry.new policy).performAll operations).validationPolicy = policy ∧
      ((ExtensionRegistry.new policy).performAll operations).Consistent ∧
      ((ExtensionRegistry.new policy).performAll operations).Acceptable := by
    refine performAll_induct (fun registry => registry.validationPolicy = policy ∧
      registry.Consistent ∧ registry.Acceptable) ?_ ?_ operations
    · rintro before operation after ⟨rfl, consistent, acceptable⟩ change
      exact ⟨change.validationPolicy_eq, change.consistent consistent,
        change.acceptable trimmed consistent acceptable⟩
    · refine ⟨rfl, consistent_empty, ?_⟩
      intro extensionId version manifest record found
      simp [ExtensionRegistry.new, ExtensionRegistrySnapshot.empty] at found
  generalize (ExtensionRegistry.new policy).performAll operations = registry at invariant
  obtain ⟨rfl, consistent, acceptable⟩ := invariant
  refine ⟨ExtensionRegistrySnapshot.validate_eq_ok.mpr consistent,
    ExtensionRegistry.fromSnapshot_snapshot consistent acceptable, ?_⟩
  intro operation error failed
  rcases perform_cases registry operation with ⟨_, unchanged⟩ | ⟨_, _, done, _⟩
  · rw [unchanged]
  · rw [done] at failed
    cases failed

/-- A third-party package without declarations. The digit fills its digests. -/
def notesManifest (version : String) (digit : Char) : ExtensionManifest where
  schema := extensionManifestSchema
  id := "dev.example.notes"
  name := "Notes"
  version := version
  publisher := { name := "Example", url := none }
  description := "Keeps notes."
  types := [.workflow]
  compatibility := { ateliaProtocol := ">=0.1 <0.3", ateliaSecretary := ">=0.1 <0.2" }
  entrypoints :=
    { realm := .backend, runtime := .wasm, command := none, image := none,
      wasm := some "notes.wasm", protocol := extensionRpcProtocol }
  permissions := ∅
  tools := []
  services := { provides := [], consumes := [] }
  toolOutput := []
  hooks := []
  webhooks := []
  composition := { attachments := [] }
  failure := { degrade := .returnUnavailable, retryPolicy := .none }
  provenance :=
    { source := .registry, repository := none, sourceRef := none, manifestPath := none,
      commit := none, registryIdentity := some " example-registry ", lineage := none,
      publication := some { visibility := .unlistedShare, registrySubmission := .notSubmitted }
      artifactDigest := "sha256:" ++ String.ofList (List.replicate 64 digit)
      manifestDigest := "sha256:" ++ String.ofList (List.replicate 64 digit)
      signature := some "signature", signer := some "example" }
  bundle := none
  migration := { from_ := [], notes := none }

def noOptions : InstallOptions := ⟨none, none, none⟩

/-- Two versions are installed, the newer is submitted and blocked, and the older
is active again. -/
def notesHistory : List RegistryOperation :=
  [.install (notesManifest "1.0.0" 'a') noOptions, .install (notesManifest "1.1.0" 'b') noOptions,
    .updateRegistrySubmission "dev.example.notes" .submitted none,
    .addBlocklistEntry ⟨.version "dev.example.notes" "1.1.0", .userBlocked, none⟩,
    .rollback "dev.example.notes", .enable "dev.example.other"]

theorem registry_snapshot_reloads_notes :
    ((ExtensionRegistry.new .default).performAll notesHistory).activeVersions["dev.example.notes"]? =
      some "1.0.0" ∧
    ExtensionRegistry.fromSnapshot
        ((ExtensionRegistry.new .default).performAll notesHistory).snapshot .default =
      .ok ((ExtensionRegistry.new .default).performAll notesHistory) :=
  ⟨by decide +kernel, (registry_snapshot_reloads .default (by decide) notesHistory).2.1⟩

end Atelia.Registry
