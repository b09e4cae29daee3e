import Atelia.Registry.Reload

/-! Installing a version that is stored already. -/

namespace Atelia.Registry

open Outcome Attempt

section Preflight

variable {registry : ExtensionRegistry} {manifest : ExtensionManifest} {options : InstallOptions}
  {validated : ValidatedExtensionManifest} {policy : ManifestValidationPolicy}

theorem ExtensionRegistry.runValidationChecks_eq_ok :
    registry.runValidationChecks manifest options = .ok (validated, policy) ↔
      registry.policyWith options = policy ∧ validateManifest manifest policy = .ok validated ∧
        registry.findBlocklistHit validated.manifest = none ∧
        registry.ensureSameVersionDigestIsStable validated.manifest = .ok () ∧
        registry.ensureSourceChangeIsApproved validated.manifest options = .ok () := by
  simp only [runValidationChecks, bind_eq_ok, mapError_eq_ok, pure_eq_ok, exists_unit,
    ExtensionRegistrySnapshot.ensureNotBlocked_eq_ok, Prod.mk.injEq]
  constructor
  · rintro ⟨_, valid, unblocked, stable, approved, rfl, rfl⟩
    exact ⟨rfl, valid, unblocked, stable, approved⟩
  · rintro ⟨rfl, valid, unblocked, stable, approved⟩
    exact ⟨validated, valid, unblocked, stable, approved, rfl, rfl⟩

/-- The checks of an installation keep the manifest as it is. -/
theorem ExtensionRegistry.runValidationChecks_manifest
    (passed : registry.runValidationChecks manifest options = .ok (validated, policy)) :
    validated.manifest = manifest :=
  validateManifest_manifest (runValidationChecks_eq_ok.mp passed).2.1

variable {error : RegistryError}

theorem ExtensionRegistry.install_of_failed
    (failed : registry.runValidationChecks manifest options = .error error) :
    exec (install manifest options) registry = (.error error, registry) := by
  rw [install, exec_get_bind, failed, exec_check_error_bind]

theorem ExtensionRegistry.validate_of_failed
    (failed : registry.runValidationChecks manifest options = .error error) :
    registry.validate manifest options = .error error := by
  rw [validate, failed]
  rfl

theorem ExtensionRegistry.validate_of_passed
    (passed : registry.runValidationChecks manifest options = .ok (validated, policy)) :
    registry.validate manifest options = .ok validated := by
  rw [validate, passed]
  rfl

/-- After the checks, `install` fails exactly when it refuses to reinstall. -/
theorem ExtensionRegistry.install_of_passed
    (passed : registry.runValidationChecks manifest options = .ok (validated, policy)) :
    (∃ record, (exec (install manifest options) registry).1 = .ok record) ↔
      registry.refusesReinstall manifest.id manifest.version = false := by
  obtain rfl := runValidationChecks_manifest passed
  rw [install, exec_get_bind, passed, exec_check_ok_bind]
  cases refused : registry.refusesReinstall validated.manifest.id validated.manifest.version with
  | true => simp [reject, refused]
  | false =>
    simp only [reject, refused, Bool.false_eq_true, if_false, exec_check_ok_bind, exec_modify_bind,
      exec_pure, iff_true]
    exact ⟨_, rfl⟩

/-- The preflight and the installation succeed together, and fail with the same
error. -/
structure PreflightAgrees (registry : ExtensionRegistry) (manifest : ExtensionManifest)
    (options : InstallOptions) : Prop where
  succeed : (∃ validated, registry.validate manifest options = .ok validated) ↔
    ∃ record, (exec (ExtensionRegistry.install manifest options) registry).1 = .ok record
  fail : ∀ first second, registry.validate manifest options = .error first →
    (exec (ExtensionRegistry.install manifest options) registry).1 = .error second → first = second

theorem preflightAgrees_of_failed
    (failed : registry.runValidationChecks manifest options = .error error) :
    PreflightAgrees registry manifest options := by
  have refused := ExtensionRegistry.validate_of_failed failed
  have stopped : (exec (ExtensionRegistry.install manifest options) registry).1 = .error error :=
    congrArg Prod.fst (ExtensionRegistry.install_of_failed failed)
  constructor
  · simp [refused, stopped]
  · intro first second preflight installation
    rw [refused] at preflight
    rw [stopped] at installation
    exact (Except.error.inj preflight).symm.trans (Except.error.inj installation)

theorem preflightAgrees_of_passed
    (passed : registry.runValidationChecks manifest options = .ok (validated, policy)) :
    PreflightAgrees registry manifest options ↔
      registry.refusesReinstall manifest.id manifest.version = false := by
  have accepted := ExtensionRegistry.validate_of_passed passed
  rw [← ExtensionRegistry.install_of_passed passed]
  constructor
  · intro agrees
    exact agrees.succeed.mp ⟨validated, accepted⟩
  · intro installed
    refine ⟨⟨fun _ => installed, fun _ => ⟨validated, accepted⟩⟩, ?_⟩
    intro first second preflight _
    rw [accepted] at preflight
    cases preflight

/-- The preflight agrees with the installation unless the checks pass and the
installation would close a cycle of rollback links. -/
theorem preflight_agrees_iff (registry : ExtensionRegistry) (manifest : ExtensionManifest)
    (options : InstallOptions) :
    PreflightAgrees registry manifest options ↔
      ((registry.runValidationChecks manifest options).isOk = true →
        registry.refusesReinstall manifest.id manifest.version = false) := by
  cases checked : registry.runValidationChecks manifest options with
  | error error =>
    have agrees := preflightAgrees_of_failed checked
    simp [agrees, Except.isOk, Except.toBool]
  | ok result =>
    rw [preflightAgrees_of_passed checked]
    simp [Except.isOk, Except.toBool]

/-- A package that has been updated. -/
def updatedNotes : ExtensionRegistry :=
  (ExtensionRegistry.new .default).performAll
    [.install (notesManifest "1.0.0" 'a') noOptions, .install (notesManifest "1.1.0" 'b') noOptions]

theorem preflight_disagrees_notes :
    ¬ PreflightAgrees updatedNotes (notesManifest "1.0.0" 'a') noOptions := by
  intro agrees
  have passes : (updatedNotes.runValidationChecks (notesManifest "1.0.0" 'a') noOptions).isOk = true ∧
      updatedNotes.refusesReinstall "dev.example.notes" "1.0.0" = true := by
    decide +kernel
  cases checked : updatedNotes.runValidationChecks (notesManifest "1.0.0" 'a') noOptions with
  | error error =>
    rw [checked] at passes
    cases passes.1
  | ok result =>
    exact Bool.false_ne_true (((preflightAgrees_of_passed checked).mp agrees).symm.trans passes.2)

end Preflight

section Immutability

/-- The manifests differ at most in their publication and their registry identity. -/
def SameContent (first second : ExtensionManifest) : Prop :=
  (first.withPublication none).withRegistryIdentity none =
    (second.withPublication none).withRegistryIdentity none

/-- An installation that goes through brings the manifest that is stored, if one is. -/
def RepeatsStored (registry : ExtensionRegistry) : RegistryOperation → Prop
  | .install manifest options =>
    (registry.runValidationChecks manifest options).isOk = true →
      registry.refusesReinstall manifest.id manifest.version = false →
        ∀ stored, registry.manifests.find manifest.id manifest.version = some stored →
          SameContent stored manifest
  | _ => True

variable {registry after : ExtensionRegistry} {operation : RegistryOperation}

theorem SameContent.refl (manifest : ExtensionManifest) : SameContent manifest manifest := rfl

theorem SameContent.trans {first second third : ExtensionManifest}
    (one : SameContent first second) (two : SameContent second third) : SameContent first third :=
  Eq.trans one two

theorem submittedManifest_sameContent (manifest : ExtensionManifest)
    (publication : ExtensionPublication) (registrySubmission : ExtensionRegistrySubmission)
    (registryIdentity trimmed : Option String) :
    SameContent manifest ((ExtensionRegistry.submittedManifest manifest publication
      registrySubmission registryIdentity).withRegistryIdentity trimmed) := by
  unfold ExtensionRegistry.submittedManifest
  dsimp only
  split <;> rfl

/-- Apart from installations, operations keep every stored manifest. -/
theorem Change.manifests_retained (change : Change registry operation after)
    (repeats : RepeatsStored registry operation) :
    Catalog.Retains SameContent registry.manifests after.manifests := by
  cases change with
  | @install manifest options boundary valid unblocked stable approved ends =>
    apply Catalog.Retains.store SameContent.refl
    apply repeats _ ends
    rw [ExtensionRegistry.runValidationChecks_eq_ok.mpr ⟨rfl, valid, unblocked, stable, approved⟩]
    rfl
  | updatePublication active foundManifest found carried valid unblocked =>
    apply Catalog.Retains.store SameContent.refl
    intro stored present
    cases foundManifest.symm.trans present
    rfl
  | updateRegistrySubmission active found published foundManifest submits valid unblocked =>
    apply Catalog.Retains.store SameContent.refl
    intro stored present
    cases foundManifest.symm.trans present
    rw [← submits]
    exact submittedManifest_sameContent _ _ _ _ _
  | rollback | disable | enable | remove | addBlocklistEntry | appendAuditRecord =>
    exact .refl SameContent.refl registry.manifests

/-- An installation that goes through stores its manifest. -/
theorem find_of_install {manifest : ExtensionManifest} {options : InstallOptions}
    (passes : (registry.runValidationChecks manifest options).isOk = true)
    (ends : registry.refusesReinstall manifest.id manifest.version = false) :
    (exec (RegistryOperation.perform (.install manifest options)) registry).2.manifests.find
      manifest.id manifest.version = some manifest := by
  cases checked : registry.runValidationChecks manifest options with
  | error error =>
    rw [checked] at passes
    cases passes
  | ok result =>
    obtain ⟨record, installed⟩ := (ExtensionRegistry.install_of_passed checked).mpr ends
    have done : exec (RegistryOperation.perform (.install manifest options)) registry =
        (.ok (some record), (exec (ExtensionRegistry.install manifest options) registry).2) :=
      exec_bind_pure_eq_ok.mpr ⟨record, Prod.ext installed rfl, rfl⟩
    rw [done]
    generalize (exec (ExtensionRegistry.install manifest options) registry).2 = after at done
    cases RegistryOperation.change_of_perform done with
    | install valid unblocked stable approved ends => exact Catalog.find_store_same ..

/-- One operation. -/
theorem manifests_retained_iff (registry : ExtensionRegistry) (operation : RegistryOperation) :
    Catalog.Retains SameContent registry.manifests (exec operation.perform registry).2.manifests ↔
      RepeatsStored registry operation := by
  constructor
  · intro retained
    cases operation with
    | install manifest options =>
      intro passes ends stored found
      obtain ⟨next, present, same⟩ := retained _ _ stored found
      cases (find_of_install passes ends).symm.trans present
      exact same
    | _ => exact trivial
  · intro repeats
    rcases perform_cases registry operation with ⟨error, failed⟩ | ⟨answer, after, done, change⟩
    · rw [failed]
      exact .refl SameContent.refl registry.manifests
    · rw [done]
      exact change.manifests_retained repeats

theorem ExtensionRegistry.performAll_append (registry : ExtensionRegistry)
    (first second : List RegistryOperation) :
    registry.performAll (first ++ second) = (registry.performAll first).performAll second :=
  List.foldl_append

/-- A run in which every installation of a stored version repeats the stored
manifest keeps all manifests. -/
theorem performAll_retains {registry : ExtensionRegistry} {operations : List RegistryOperation}
    (repeats : ∀ earlier operation later, operations = earlier ++ operation :: later →
      RepeatsStored (registry.performAll earlier) operation) :
    Catalog.Retains SameContent registry.manifests (registry.performAll operations).manifests := by
  induction operations generalizing registry with
  | nil => exact .refl SameContent.refl registry.manifests
  | cons operation rest ih =>
    have first := (manifests_retained_iff registry operation).mpr (repeats [] operation rest rfl)
    have others : Catalog.Retains SameContent (exec operation.perform registry).2.manifests
        ((exec operation.perform registry).2.performAll rest).manifests := by
      apply ih
      intro earlier next later split
      exact repeats (operation :: earlier) next later (by rw [split, List.cons_append])
    refine Catalog.Retains.trans ?_ first others
    intro one two three same still
    exact same.trans still

/-- Along a run from an empty registry, the manifest stored for a version stays the
same up to its publication and its registry identity exactly when every installation
that goes through and finds its version stored brings the stored manifest. -/
theorem stored_manifests_immutable_iff (policy : ManifestValidationPolicy)
    (operations : List RegistryOperation) :
    (∀ earlier between later, operations = earlier ++ between ++ later →
      Catalog.Retains SameContent ((ExtensionRegistry.new policy).performAll earlier).manifests
        ((ExtensionRegistry.new policy).performAll (earlier ++ between)).manifests) ↔
    ∀ earlier operation later, operations = earlier ++ operation :: later →
      RepeatsStored ((ExtensionRegistry.new policy).performAll earlier) operation := by
  constructor
  · intro retained earlier operation later split
    have step := retained earlier [operation] later (by simpa using split)
    rw [ExtensionRegistry.performAll_append] at step
    exact (manifests_retained_iff _ operation).mp step
  · intro repeats earlier between later split
    rw [ExtensionRegistry.performAll_append]
    apply performAll_retains
    intro before operation rest same
    rw [← ExtensionRegistry.performAll_append]
    apply repeats (earlier ++ before) operation (rest ++ later)
    rw [split, same]
    simp

/-- The same version under the same digests, with another module to run. -/
def swappedNotes : ExtensionManifest :=
  { notesManifest "1.0.0" 'a' with
    entrypoints := { (notesManifest "1.0.0" 'a').entrypoints with wasm := some "other.wasm" } }

theorem stored_manifest_replaced_notes :
    ((ExtensionRegistry.new .default).performAll
      [.install (notesManifest "1.0.0" 'a') noOptions]).manifests.find "dev.example.notes" "1.0.0" =
        some (notesManifest "1.0.0" 'a') ∧
    ((ExtensionRegistry.new .default).performAll
      [.install (notesManifest "1.0.0" 'a') noOptions, .install swappedNotes noOptions]).manifests.find
        "dev.example.notes" "1.0.0" = some swappedNotes ∧
    ¬ SameContent (notesManifest "1.0.0" 'a') swappedNotes :=
  ⟨by decide +kernel, by decide +kernel, by unfold SameContent; decide⟩

end Immutability

end Atelia.Registry
