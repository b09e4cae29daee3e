import Atelia.Registry.Changes
import Atelia.Registry.Consistency

/-! A manifest that was accepted once is accepted again. -/

namespace Atelia.Registry

open Outcome

variable {manifest : ExtensionManifest} {policy : ManifestValidationPolicy}
  {boundary : ExtensionBoundary}

theorem validateManifest_eq_ok :
    validateManifest manifest policy = .ok ⟨manifest, boundary⟩ ↔
      validateHeader manifest = .ok () ∧ classifyBoundary manifest policy = .ok boundary ∧
        validateEntrypoint manifest boundary policy = .ok () ∧
        validateProvenance manifest boundary policy = .ok () ∧
        validateDeclarations manifest boundary = .ok () := by
  simp only [validateManifest, bind_eq_ok, exists_unit, pure_eq_ok,
    ValidatedExtensionManifest.mk.injEq, true_and]
  constructor
  · rintro ⟨header, _, classified, entrypoint, provenance, declarations, rfl⟩
    exact ⟨header, classified, entrypoint, provenance, declarations⟩
  · rintro ⟨header, classified, entrypoint, provenance, declarations⟩
    exact ⟨header, boundary, classified, entrypoint, provenance, declarations, rfl⟩

section Approvals

/-- The second policy allows what the first allows. -/
structure ManifestValidationPolicy.Extends (policy wider : ManifestValidationPolicy) : Prop where
  unsigned : policy.allowLocalUnsigned = true → wider.allowLocalUnsigned = true
  processRuntime : policy.allowLocalProcessRuntime = true → wider.allowLocalProcessRuntime = true
  officialIdPrefix : wider.officialIdPrefix = policy.officialIdPrefix
  localIdPrefix : wider.localIdPrefix = policy.localIdPrefix
  officialRegistryIdentity : wider.officialRegistryIdentity = policy.officialRegistryIdentity

theorem validateManifest_extends {wider : ManifestValidationPolicy} (extend : policy.Extends wider)
    (valid : validateManifest manifest policy = .ok ⟨manifest, boundary⟩) :
    validateManifest manifest wider = .ok ⟨manifest, boundary⟩ := by
  rw [validateManifest_eq_ok] at valid ⊢
  obtain ⟨header, classified, entrypoint, provenance, declarations⟩ := valid
  refine ⟨header, ?_, ?_, ?_, declarations⟩
  · rw [← classified]
    simp only [classifyBoundary, extend.officialIdPrefix, extend.localIdPrefix,
      extend.officialRegistryIdentity]
  · simp only [validateEntrypoint, bind_eq_ok, exists_unit, ensure_eq_ok] at entrypoint ⊢
    refine ⟨entrypoint.1, entrypoint.2.1, ?_⟩
    have runtime := entrypoint.2.2
    split at runtime
    · exact runtime
    · exact runtime
    · simp only [bind_eq_ok, exists_unit, ensure_eq_ok] at runtime ⊢
      exact ⟨⟨runtime.1.1, extend.processRuntime runtime.1.2⟩, runtime.2⟩
    · exact runtime
    · exact runtime
    · exact runtime
  · simp only [validateProvenance, bind_eq_ok, exists_unit] at provenance ⊢
    obtain ⟨artifactDigest, manifestDigest, signed, sources, lineage, publication⟩ := provenance
    refine ⟨artifactDigest, manifestDigest, ?_, sources, lineage, ?_⟩
    · cases boundary with
      | localDevelopment =>
        simp only [requireSigned, reject_eq_ok, not_and, Bool.not_eq_false] at signed ⊢
        exact fun missing => extend.unsigned (signed missing)
      | official => exact signed
      | thirdParty => exact signed
    · rw [← publication]
      simp only [validatePublication, extend.officialRegistryIdentity]

/-- What one installation was allowed stays allowed for its record. -/
theorem policyWith_extends (registry : ExtensionRegistry) (options : InstallOptions)
    (validated : ValidatedExtensionManifest) :
    (registry.policyWith options).Extends (withRecordApprovals registry.validationPolicy
      (registry.installRecord validated (registry.policyWith options))) where
  unsigned allowed := by
    rw [withRecordApprovals, ExtensionRegistry.installRecord, allowed, Bool.or_true]
  processRuntime allowed := by
    rw [withRecordApprovals, ExtensionRegistry.installRecord, allowed, Bool.or_true]
  officialIdPrefix := rfl
  localIdPrefix := rfl
  officialRegistryIdentity := rfl

end Approvals

section Boundary

/-- The three boundaries and what each of them asks for. -/
theorem classifyBoundary_eq_ok : classifyBoundary manifest policy = .ok boundary ↔
    (manifest.provenance.source = .local_ ∧
      Text.startsWith manifest.id policy.localIdPrefix = true ∧ .localDevelopment = boundary) ∨
    (manifest.provenance.source ≠ .local_ ∧
      Text.startsWith manifest.id policy.officialIdPrefix = true ∧
      manifest.provenance.registryIdentity = some policy.officialRegistryIdentity ∧
      .official = boundary) ∨
    (manifest.provenance.source ≠ .local_ ∧
      Text.startsWith manifest.id policy.officialIdPrefix = false ∧
      Text.startsWith manifest.id policy.localIdPrefix = false ∧ .thirdParty = boundary) := by
  unfold classifyBoundary
  cases manifest.provenance.source with
  | local_ => simp
  | github =>
    by_cases official : Text.startsWith manifest.id policy.officialIdPrefix = true <;>
      simp [official]
  | registry =>
    by_cases official : Text.startsWith manifest.id policy.officialIdPrefix = true <;>
      simp [official]

/-- The boundary of an accepted manifest is decided by its source and identifier. -/
theorem classifyBoundary_unique {other : ExtensionManifest} {otherBoundary : ExtensionBoundary}
    (sameSource : other.provenance.source = manifest.provenance.source)
    (sameId : other.id = manifest.id) (classified : classifyBoundary manifest policy = .ok boundary)
    (classifiedOther : classifyBoundary other policy = .ok otherBoundary) :
    otherBoundary = boundary := by
  rw [classifyBoundary_eq_ok] at classified classifiedOther
  rw [sameSource, sameId] at classifiedOther
  rcases classified with ⟨source, _, rfl⟩ | ⟨source, official, _, rfl⟩ | ⟨source, official, _, rfl⟩
  · simp only [source, ne_eq, not_true, false_and, or_false] at classifiedOther
    exact classifiedOther.2.2.symm
  · simp only [source, official, Bool.true_eq_false, false_and, and_false, or_false, false_or]
      at classifiedOther
    exact classifiedOther.2.2.2.symm
  · simp only [source, official, Bool.false_eq_true, false_and, and_false, false_or] at classifiedOther
    exact classifiedOther.2.2.2.symm

end Boundary

section Identity

theorem hasNonEmptyTrimmed_trimOptional (value : Option String) :
    hasNonEmptyTrimmed (Text.trimOptional value) = hasNonEmptyTrimmed value := by
  cases value with
  | none => rfl
  | some text =>
    by_cases blank : Text.isBlank text = true
    · have nothing : Text.trimOptional (some text) = none := by
        simpa [Text.trimOptional, Text.isBlank] using blank
      rw [nothing, hasNonEmptyTrimmed, hasNonEmptyTrimmed, Option.getD_some, blank]
      rfl
    · rw [Text.trimOptional_some (Bool.not_eq_true _ ▸ blank), hasNonEmptyTrimmed, hasNonEmptyTrimmed,
        Option.getD_some, Option.getD_some, Text.isBlank_trim]

/-- Trimming the registry identity keeps a manifest acceptable. -/
theorem validateManifest_trimmed
    (trimmed : Text.trim policy.officialRegistryIdentity = policy.officialRegistryIdentity)
    (present : ∀ text, manifest.provenance.registryIdentity = some text → Text.isBlank text = false)
    (valid : validateManifest manifest policy = .ok ⟨manifest, boundary⟩) :
    validateManifest
        (manifest.withRegistryIdentity (Text.trimOptional manifest.provenance.registryIdentity))
        policy =
      .ok ⟨manifest.withRegistryIdentity (Text.trimOptional manifest.provenance.registryIdentity),
        boundary⟩ := by
  have keepsOfficial
      (official : manifest.provenance.registryIdentity = some policy.officialRegistryIdentity) :
      Text.trimOptional manifest.provenance.registryIdentity =
        some policy.officialRegistryIdentity := by
    rw [official, Text.trimOptional_some (present _ official), trimmed]
  rw [validateManifest_eq_ok] at valid ⊢
  obtain ⟨header, classified, entrypoint, provenance, declarations⟩ := valid
  refine ⟨header, ?_, entrypoint, ?_, declarations⟩
  · rw [classifyBoundary_eq_ok] at classified ⊢
    exact classified.imp_right fun others => others.imp_left fun ⟨source, id, identity, same⟩ =>
      ⟨source, id, keepsOfficial identity, same⟩
  · simp only [validateProvenance, bind_eq_ok, exists_unit] at provenance ⊢
    obtain ⟨artifactDigest, manifestDigest, signed, sources, lineage, publication⟩ := provenance
    refine ⟨artifactDigest, manifestDigest, signed, ?_, lineage, ?_⟩
    · simp only [requireSourceFields, ExtensionManifest.withRegistryIdentity] at sources ⊢
      cases source : manifest.provenance.source with
      | github =>
        simp only [source] at sources
        exact sources
      | registry =>
        simp only [source, ensure_eq_ok, hasNonEmptyTrimmed_trimOptional] at sources ⊢
        exact sources
      | local_ => rfl
    · simp only [validatePublication, whenSome_eq_ok] at publication ⊢
      intro found published
      have accepted := publication found published
      cases visibility : found.visibility with
      | privateRemix => simpa only [visibility] using accepted
      | unlistedShare =>
        simp only [visibility, ExtensionManifest.withRegistryIdentity, bind_eq_ok, exists_unit,
          reject_eq_ok, hasNonEmptyTrimmed_trimOptional] at accepted ⊢
        exact accepted
      | publicSearchable =>
        simp only [visibility, ExtensionManifest.withRegistryIdentity, bind_eq_ok, exists_unit,
          reject_eq_ok, hasNonEmptyTrimmed_trimOptional] at accepted ⊢
        exact accepted
      | official =>
        simp only [visibility, bind_eq_ok, exists_unit, ensure_eq_ok] at accepted ⊢
        exact ⟨accepted.1, keepsOfficial accepted.2.1, accepted.2.2⟩

/-- The identity that a change of the submission validates is absent or not blank. -/
theorem submittedManifest_identity {publication : ExtensionPublication}
    {registrySubmission : ExtensionRegistrySubmission} {registryIdentity : Option String}
    {text : String}
    (identity : (ExtensionRegistry.submittedManifest manifest publication registrySubmission
      registryIdentity).provenance.registryIdentity = some text) : Text.isBlank text = false := by
  unfold ExtensionRegistry.submittedManifest at identity
  split at identity
  · exact Text.isBlank_of_trimOptional identity
  · rename_i existing
    have original : manifest.provenance.registryIdentity = some text := identity
    by_contra blank
    apply existing
    rw [original]
    simpa [Text.trimOptional, Text.isBlank] using blank

end Identity

end Atelia.Registry
