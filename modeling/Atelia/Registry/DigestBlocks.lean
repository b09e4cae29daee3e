import Atelia.Registry.Reload

/-! Blocking an artifact by its digest. -/

namespace Atelia.Registry

open Outcome Attempt

/-- The manifests are equal up to the letter case of their artifact digest. -/
structure Respelled (first second : ExtensionManifest) : Prop where
  elsewhere : second = { first with
    provenance := { first.provenance with artifactDigest := second.provenance.artifactDigest } }
  value : first.provenance.artifactDigest.toList.map Char.toLower =
    second.provenance.artifactDigest.toList.map Char.toLower

/-- The spellings agree, or the entry is about neither of them. -/
def SpellingIndependent (entry : BlocklistEntry) (first second : ExtensionManifest) : Prop :=
  first.provenance.artifactDigest = second.provenance.artifactDigest ∨
    entry.key ≠ .artifactDigest first.provenance.artifactDigest ∧
      entry.key ≠ .artifactDigest second.provenance.artifactDigest

variable {first second : ExtensionManifest} {entry : BlocklistEntry}

theorem matchesManifest_respelled_iff (respelled : Respelled first second) :
    entry.matchesManifest first = entry.matchesManifest second ↔
      SpellingIndependent entry first second := by
  obtain ⟨key, reason, note⟩ := entry
  unfold SpellingIndependent
  cases key with
  | artifactDigest digest =>
    simp only [BlocklistEntry.matchesManifest, decide_eq_decide, ne_eq, BlockKey.artifactDigest.injEq]
    by_cases same : first.provenance.artifactDigest = second.provenance.artifactDigest
    · simp [same]
    · by_cases blocked : first.provenance.artifactDigest = digest
      · subst blocked
        simp [Ne.symm same, same]
      · by_cases other : second.provenance.artifactDigest = digest
        · subst other
          simp [same]
        · simp [blocked, other, Ne.symm blocked, Ne.symm other]
  | _ =>
    rw [respelled.elsewhere]
    simp [BlocklistEntry.matchesManifest]

/-- An entry that matches a manifest stops its installation. -/
theorem install_refused_of_match {registry : ExtensionRegistry} {manifest : ExtensionManifest}
    {options : InstallOptions} (listed : entry ∈ registry.blocklist)
    (hit : entry.matchesManifest manifest = true) :
    ∃ error, (exec (ExtensionRegistry.install manifest options) registry).1 = .error error := by
  rcases outcome : exec (ExtensionRegistry.install manifest options) registry with
    ⟨error | record, after⟩
  · exact ⟨error, rfl⟩
  · have done : exec (RegistryOperation.perform (.install manifest options)) registry =
        (.ok (some record), after) := exec_bind_pure_eq_ok.mpr ⟨record, outcome, rfl⟩
    cases RegistryOperation.change_of_perform done with
    | install valid unblocked stable approved ends =>
      have missed := List.find?_eq_none.mp unblocked entry listed
      exact absurd hit missed

/-- A blocklist entry treats two spellings of one artifact digest alike exactly when
the spellings agree or it is about neither of them; and then an entry that matches
the one spelling stops the installation of both. -/
theorem digest_block_spelling_iff (respelled : Respelled first second) :
    (entry.matchesManifest first = entry.matchesManifest second ↔
      SpellingIndependent entry first second) ∧
    (SpellingIndependent entry first second → entry.matchesManifest first = true →
      ∀ (registry : ExtensionRegistry) (options : InstallOptions), entry ∈ registry.blocklist →
        ∀ manifest, manifest = first ∨ manifest = second →
          ∃ error, (exec (ExtensionRegistry.install manifest options) registry).1 = .error error) := by
  have alike : entry.matchesManifest first = entry.matchesManifest second ↔ _ :=
    matchesManifest_respelled_iff respelled
  refine ⟨alike, ?_⟩
  intro independent hit registry options listed manifest either
  rcases either with rfl | rfl
  · exact install_refused_of_match listed hit
  · exact install_refused_of_match listed ((alike.mpr independent).symm.trans hit)

section Notes

/-- The artifact of the notes package in capital letters. -/
def respelledNotes : ExtensionManifest :=
  { notesManifest "1.0.0" 'a' with
    provenance := { (notesManifest "1.0.0" 'a').provenance with
      artifactDigest := "sha256:" ++ String.ofList (List.replicate 64 'A') } }

theorem notes_respelled : Respelled (notesManifest "1.0.0" 'a') respelledNotes where
  elsewhere := rfl
  value := by decide +kernel

/-- The digest of another artifact is blocked. -/
def otherDigestBlock : BlocklistEntry :=
  ⟨.artifactDigest (notesManifest "1.0.0" 'b').provenance.artifactDigest, .malware, none⟩

/-- A block of another digest treats both spellings alike, and one of the package stops both. -/
theorem digest_block_spelling_iff_notes :
    Respelled (notesManifest "1.0.0" 'a') respelledNotes ∧
    otherDigestBlock.matchesManifest (notesManifest "1.0.0" 'a') =
      otherDigestBlock.matchesManifest respelledNotes ∧
    ∃ error, (exec (ExtensionRegistry.install respelledNotes noOptions)
      ((ExtensionRegistry.new .default).performAll [.addBlocklistEntry
        ⟨.extensionId "dev.example.notes", .malware, none⟩])).1 = .error error :=
  ⟨notes_respelled,
    (digest_block_spelling_iff notes_respelled).1.mpr (.inr (by decide +kernel)),
    (@digest_block_spelling_iff _ _ ⟨.extensionId "dev.example.notes", .malware, none⟩
      notes_respelled).2 (.inr ⟨nofun, nofun⟩) (by decide) _ _ List.mem_cons_self _ (.inr rfl)⟩

/-- The digest of the package is blocked; its other spelling is installed. -/
def notesDigestBlock : BlocklistEntry :=
  ⟨.artifactDigest (notesManifest "1.0.0" 'a').provenance.artifactDigest, .malware, none⟩

theorem digest_block_evaded_notes :
    Respelled (notesManifest "1.0.0" 'a') respelledNotes ∧
    (validateManifest (notesManifest "1.0.0" 'a') .default).isOk = true ∧
    (validateManifest respelledNotes .default).isOk = true ∧
    notesDigestBlock.matchesManifest (notesManifest "1.0.0" 'a') = true ∧
    notesDigestBlock.matchesManifest respelledNotes = false ∧
    (exec (ExtensionRegistry.install respelledNotes noOptions)
      ((ExtensionRegistry.new .default).performAll [.addBlocklistEntry notesDigestBlock])).1.isOk =
      true := by
  refine ⟨notes_respelled, ?_⟩
  decide +kernel

end Notes

end Atelia.Registry
