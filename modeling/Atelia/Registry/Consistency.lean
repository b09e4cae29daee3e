import Atelia.Registry.Snapshots

/-! What a valid snapshot is. -/

namespace Atelia.Registry

open Outcome

/-- The manifest and the record stored for a version describe that version. -/
structure Describes (extensionId version : String) (manifest : ExtensionManifest)
    (record : ExtensionInstallRecord) : Prop where
  manifestId : manifest.id = extensionId
  manifestVersion : manifest.version = version
  recordId : record.id = extensionId
  recordVersion : record.version = version
  artifactDigest : manifest.provenance.artifactDigest = record.artifactDigest
  manifestDigest : manifest.provenance.manifestDigest = record.manifestDigest
  source : record.source = .fromProvenance manifest.provenance

namespace ExtensionRegistrySnapshot

structure Consistent (snapshot : ExtensionRegistrySnapshot) : Prop where
  paired : ∀ extensionId version, Option.Rel (Describes extensionId version)
    (snapshot.manifests.find extensionId version) (snapshot.records.find extensionId version)
  previousStored : ∀ extensionId version previous,
    snapshot.previousOf extensionId version = some previous →
      ∃ record, snapshot.records.find extensionId previous = some record
  acyclic : ∀ extensionId, Chain.Acyclic (snapshot.previousOf extensionId)
  activeStored : ∀ (extensionId version : String),
    snapshot.activeVersions[extensionId]? = some version →
      ∃ record, snapshot.records.find extensionId version = some record
  supported : ∀ entry ∈ snapshot.blocklist, entry.key.isVulnerabilityId = false
  auditWellFormed : ∀ record ∈ snapshot.auditRecords, record.WellFormed
  auditIds : (snapshot.auditRecords.map ExtensionRegistryAuditRecord.id).Nodup
  auditTargets : ∀ record ∈ snapshot.auditRecords,
    validateExtensionRegistryAuditTargets snapshot.records record false = .ok ()

variable {snapshot : ExtensionRegistrySnapshot}

theorem Consistent.manifest_of_record (consistent : snapshot.Consistent)
    {extensionId version : String} {record : ExtensionInstallRecord}
    (stored : snapshot.records.find extensionId version = some record) :
    ∃ manifest, snapshot.manifests.find extensionId version = some manifest ∧
      Describes extensionId version manifest record := by
  have pair := consistent.paired extensionId version
  rw [stored] at pair
  cases found : snapshot.manifests.find extensionId version with
  | none =>
    rw [found] at pair
    cases pair
  | some manifest =>
    rw [found] at pair
    cases pair with
    | some describes => exact ⟨manifest, rfl, describes⟩

theorem Consistent.record_of_manifest (consistent : snapshot.Consistent)
    {extensionId version : String} {manifest : ExtensionManifest}
    (stored : snapshot.manifests.find extensionId version = some manifest) :
    ∃ record, snapshot.records.find extensionId version = some record ∧
      Describes extensionId version manifest record := by
  have pair := consistent.paired extensionId version
  rw [stored] at pair
  cases found : snapshot.records.find extensionId version with
  | none =>
    rw [found] at pair
    cases pair
  | some record =>
    rw [found] at pair
    cases pair with
    | some describes => exact ⟨record, rfl, describes⟩

section Entries

variable {extensionId version : String} {records : Table String ExtensionInstallRecord}
  {record : ExtensionInstallRecord} {manifest : ExtensionManifest}

private theorem validateRecordEntry_eq_ok :
    snapshot.validateRecordEntry extensionId records version record = .ok () ↔
      ∃ manifests : Table String ExtensionManifest, snapshot.manifests[extensionId]? = some manifests ∧
        (∃ manifest, manifests[version]? = some manifest ∧
          Describes extensionId version manifest record) ∧
        (∀ previous, record.previousVersion = some previous →
          previous ≠ version ∧ manifests.contains previous = true ∧
            records.contains previous = true) ∧
        detectRollbackCycle records version = none := by
  simp only [validateRecordEntry, bind_eq_ok, okOr_eq_ok, exists_unit, ensure_eq_ok, whenSome_eq_ok,
    reject_eq_ok, Ne]
  constructor
  · rintro ⟨manifests, found, manifest, stored, recordId, recordVersion, previous, ends, manifestId,
      manifestVersion, artifactDigest, manifestDigest, source⟩
    have unclosed : detectRollbackCycle records version = none := by
      by_contra closed
      obtain ⟨entry, detected⟩ := Option.ne_none_iff_exists'.mp closed
      cases ends entry detected
    exact ⟨manifests, found, ⟨manifest, stored, manifestId, manifestVersion, recordId, recordVersion,
      artifactDigest, manifestDigest, source⟩, previous, unclosed⟩
  · rintro ⟨manifests, found, ⟨manifest, stored, describes⟩, previous, ends⟩
    refine ⟨manifests, found, manifest, stored, describes.recordId, describes.recordVersion, previous,
      ?_, describes.manifestId, describes.manifestVersion, describes.artifactDigest,
      describes.manifestDigest, describes.source⟩
    intro entry detected
    rw [ends] at detected
    cases detected

private theorem record_of_validateManifestEntry
    (valid : snapshot.validateManifestEntry extensionId version manifest = .ok ()) :
    ∃ record, snapshot.records.find extensionId version = some record := by
  simp only [validateManifestEntry, bind_eq_ok, okOr_eq_ok] at valid
  obtain ⟨records, found, record, stored, _⟩ := valid
  exact ⟨record, Catalog.find_eq_some_iff.mpr ⟨records, found, stored⟩⟩

/-- The links among the versions of a stored package. -/
private theorem previousOf_eq (found : snapshot.records[extensionId]? = some records) :
    snapshot.previousOf extensionId =
      fun version => records[version]?.bind ExtensionInstallRecord.previousVersion := by
  funext version
  rw [previousOf, Catalog.find, found, Option.bind_some]

private theorem detectRollbackCycle_eq_none
    (found : snapshot.records[extensionId]? = some records)
    (acyclic : Chain.Acyclic (snapshot.previousOf extensionId)) (start : String) :
    detectRollbackCycle records start = none := by
  rw [previousOf_eq found] at acyclic
  exact Chain.revisits_eq_none acyclic _ _ _

private theorem acyclic_of_detectRollbackCycle
    (found : snapshot.records[extensionId]? = some records)
    (settled : ∀ (start : String) (record : ExtensionInstallRecord), records[start]? = some record →
      detectRollbackCycle records start = none) :
    Chain.Acyclic (snapshot.previousOf extensionId) := by
  rw [previousOf_eq found]
  have sources : ∀ source target : String,
      records[source]?.bind ExtensionInstallRecord.previousVersion = some target →
        records.contains source = true ∧ source ∈ records.keys.toFinset := by
    intro source target link
    obtain ⟨record, stored, _⟩ := Option.bind_eq_some_iff.mp link
    have present : records.contains source = true := (Table.contains_iff _ _).mpr ⟨record, stored⟩
    refine ⟨present, ?_⟩
    rw [List.mem_toFinset, Std.ExtTreeMap.mem_keys, Std.ExtTreeMap.mem_iff_contains, present]
  have enough : records.keys.toFinset.card < records.size + 1 := by
    have bound := records.keys.toFinset_card_le
    rw [Std.ExtTreeMap.length_keys] at bound
    omega
  apply Chain.acyclic_of_revisits sources enough
  intro start present
  obtain ⟨record, stored⟩ := (Table.contains_iff _ _).mp present
  exact settled start record stored

end Entries

/-- What the validation of a snapshot accepts. -/
theorem validate_eq_ok : snapshot.validate = .ok () ↔ snapshot.Consistent := by
  simp only [validate, bind_eq_ok, exists_unit, reject_eq_ok, validateExtensionRegistryAuditRecords_eq_ok,
    checkAll_eq_ok, validateRecordEntry_eq_ok, Prod.forall,
    Std.ExtTreeMap.mem_toList_iff_getElem?_eq_some, List.any_eq_true, not_exists, not_and,
    Bool.not_eq_true]
  constructor
  · rintro ⟨⟨wellFormed, distinct⟩, records, manifests, active, supported, targets⟩
    have recordEntry {extensionId version : String} {record : ExtensionInstallRecord}
        (stored : snapshot.records.find extensionId version = some record) :
        ∃ manifest, snapshot.manifests.find extensionId version = some manifest ∧
          Describes extensionId version manifest record := by
      obtain ⟨editions, found, edition⟩ := Catalog.find_eq_some_iff.mp stored
      obtain ⟨manifests, foundManifests, ⟨manifest, storedManifest, describes⟩, _⟩ :=
        records extensionId editions found version record edition
      exact ⟨manifest, Catalog.find_eq_some_iff.mpr ⟨manifests, foundManifests, storedManifest⟩,
        describes⟩
    refine ⟨?_, ?_, ?_, ?_, supported, wellFormed, distinct, targets⟩
    · intro extensionId version
      cases stored : snapshot.records.find extensionId version with
      | some record =>
        obtain ⟨manifest, found, describes⟩ := recordEntry stored
        rw [found]
        exact .some describes
      | none =>
        cases found : snapshot.manifests.find extensionId version with
        | none => exact .none
        | some manifest =>
          obtain ⟨editions, foundEditions, edition⟩ := Catalog.find_eq_some_iff.mp found
          obtain ⟨record, present⟩ := record_of_validateManifestEntry
            (manifests extensionId editions foundEditions version manifest edition)
          rw [stored] at present
          cases present
    · intro extensionId version previous link
      obtain ⟨record, stored, linked⟩ := Option.bind_eq_some_iff.mp link
      obtain ⟨editions, found, edition⟩ := Catalog.find_eq_some_iff.mp stored
      obtain ⟨_, _, _, previousKnown, _⟩ := records extensionId editions found version record edition
      obtain ⟨target, storedTarget⟩ :=
        (Table.contains_iff _ _).mp (previousKnown previous linked).2.2
      exact ⟨target, Catalog.find_eq_some_iff.mpr ⟨editions, found, storedTarget⟩⟩
    · intro extensionId
      cases found : snapshot.records[extensionId]? with
      | none =>
        have unlinked : snapshot.previousOf extensionId = fun _ => none := by
          funext version
          rw [previousOf, Catalog.find, found]
          rfl
        rw [unlinked]
        exact Chain.acyclic_empty
      | some editions =>
        apply acyclic_of_detectRollbackCycle found
        intro start record edition
        obtain ⟨_, _, _, _, ends⟩ := records extensionId editions found start record edition
        exact ends
    · intro extensionId version activated
      have checked := active extensionId version activated
      simp only [validateActiveVersion, bind_eq_ok, okOr_eq_ok] at checked
      obtain ⟨editions, found, record, stored, _⟩ := checked
      exact ⟨record, Catalog.find_eq_some_iff.mpr ⟨editions, found, stored⟩⟩
  · intro consistent
    refine ⟨⟨consistent.auditWellFormed, consistent.auditIds⟩, ?_, ?_, ?_, consistent.supported,
      consistent.auditTargets⟩
    · intro extensionId editions found version record edition
      have stored := Catalog.find_eq_some_iff.mpr ⟨editions, found, edition⟩
      obtain ⟨manifest, foundManifest, describes⟩ := consistent.manifest_of_record stored
      obtain ⟨manifests, foundManifests, storedManifest⟩ := Catalog.find_eq_some_iff.mp foundManifest
      refine ⟨manifests, foundManifests, ⟨manifest, storedManifest, describes⟩, ?_,
        detectRollbackCycle_eq_none found (consistent.acyclic extensionId) version⟩
      intro previous linked
      have link : snapshot.previousOf extensionId version = some previous := by
        rw [previousOf, stored]
        exact linked
      obtain ⟨target, storedTarget⟩ := consistent.previousStored _ _ _ link
      obtain ⟨targetManifest, foundTarget, _⟩ := consistent.manifest_of_record storedTarget
      refine ⟨?_, ?_, ?_⟩
      · rintro rfl
        exact consistent.acyclic extensionId previous (.single link)
      · rw [Catalog.find, foundManifests] at foundTarget
        exact (Table.contains_iff _ _).mpr ⟨targetManifest, foundTarget⟩
      · rw [Catalog.find, found] at storedTarget
        exact (Table.contains_iff _ _).mpr ⟨target, storedTarget⟩
    · intro extensionId editions found version manifest edition
      have stored := Catalog.find_eq_some_iff.mpr ⟨editions, found, edition⟩
      obtain ⟨record, foundRecord, describes⟩ := consistent.record_of_manifest stored
      obtain ⟨records, foundRecords, storedRecord⟩ := Catalog.find_eq_some_iff.mp foundRecord
      simp only [validateManifestEntry, bind_eq_ok, okOr_eq_ok, exists_unit, ensure_eq_ok]
      exact ⟨records, foundRecords, record, storedRecord,
        ⟨describes.manifestId, describes.manifestVersion⟩, describes.artifactDigest,
        describes.manifestDigest⟩
    · intro extensionId version activated
      obtain ⟨record, stored⟩ := consistent.activeStored extensionId version activated
      obtain ⟨manifest, foundManifest, _⟩ := consistent.manifest_of_record stored
      obtain ⟨records, foundRecords, storedRecord⟩ := Catalog.find_eq_some_iff.mp stored
      obtain ⟨manifests, foundManifests, storedManifest⟩ := Catalog.find_eq_some_iff.mp foundManifest
      simp only [validateActiveVersion, bind_eq_ok, okOr_eq_ok]
      exact ⟨records, foundRecords, record, storedRecord, manifests, foundManifests, manifest,
        storedManifest, rfl⟩

end ExtensionRegistrySnapshot

end Atelia.Registry
