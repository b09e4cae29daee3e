import Atelia.Registry.Rollback
import Atelia.Service.PackageAudit
import Atelia.Service.PackageViews

/-! The rollback preview of a package. -/

namespace Atelia.Service

open Registry Outcome Attempt

section Preview

variable {registry changed : ExtensionRegistry} {extensionId version : String}
  {current record : ExtensionInstallRecord} {digests : RollbackSnapshot}

theorem rollbackPreview_eq_some :
    rollbackPreview registry extensionId current = some digests ↔
      ∃ previous manifest, current.previousVersion = some previous ∧
        registry.manifests.find extensionId previous = some manifest ∧
        registry.findBlocklistHit manifest = none ∧
        digests = ⟨manifest.provenance.manifestDigest, manifest.provenance.artifactDigest⟩ := by
  simp only [rollbackPreview, Option.map_eq_some_iff, Option.filter_eq_some_iff,
    Option.bind_eq_some_iff, ExtensionRegistrySnapshot.findBlocklistHit, List.find?_eq_none,
    Bool.not_eq_true', List.any_eq_false]
  constructor
  · rintro ⟨manifest, ⟨⟨previous, linked, found⟩, unblocked⟩, rfl⟩
    exact ⟨previous, manifest, linked, found, unblocked, rfl⟩
  · rintro ⟨previous, manifest, linked, found, unblocked, rfl⟩
    exact ⟨manifest, ⟨⟨previous, linked, found⟩, unblocked⟩, rfl⟩

/-- What the preview shows is what a rollback activates. -/
theorem rollback_of_preview (consistent : registry.Consistent)
    (active : registry.activeVersions[extensionId]? = some version)
    (stored : registry.records.find extensionId version = some current)
    (preview : rollbackPreview registry extensionId current = some digests) :
    ∃ record changed, exec (ExtensionRegistry.rollback extensionId) registry = (.ok record, changed) ∧
      digests = ⟨record.manifestDigest, record.artifactDigest⟩ ∧
      changed.activeRecord extensionId = some record := by
  obtain ⟨previous, manifest, linked, found, unblocked, rfl⟩ := rollbackPreview_eq_some.mp preview
  obtain ⟨target, storedTarget, describes⟩ := consistent.record_of_manifest found
  have activeRecord : registry.activeRecord extensionId = some current := by
    rw [ExtensionRegistrySnapshot.activeRecord, active, Option.bind_some, stored]
  refine ⟨{ target with status := .installedPreviousVersion },
    registry.restate extensionId previous target .installedPreviousVersion
      (registry.activeVersions.insert extensionId previous), ?_, ?_, ?_⟩
  · simp only [ExtensionRegistry.rollback, exec_get_bind, activeRecord, linked, found, storedTarget, okOr,
      exec_check_ok_bind, ExtensionRegistrySnapshot.ensureNotBlocked_eq_ok.mpr unblocked,
      exec_modify_bind, exec_pure]
    rfl
  · rw [describes.manifestDigest, describes.artifactDigest]
  · simp [ExtensionRegistrySnapshot.activeRecord, ExtensionRegistry.restate]

/-- What a rollback reads and what it leaves behind. -/
structure RolledBack (registry : ExtensionRegistry) (extensionId previous : String)
    (current target : ExtensionInstallRecord) (manifest : ExtensionManifest)
    (record : ExtensionInstallRecord) (changed : ExtensionRegistry) : Prop where
  active : registry.activeRecord extensionId = some current
  linked : current.previousVersion = some previous
  foundManifest : registry.manifests.find extensionId previous = some manifest
  unblocked : registry.findBlocklistHit manifest = none
  found : registry.records.find extensionId previous = some target
  answer : record = { target with status := .installedPreviousVersion }
  changed : changed = registry.restate extensionId previous target .installedPreviousVersion
    (registry.activeVersions.insert extensionId previous)

theorem rolledBack_of_rollback
    (done : exec (ExtensionRegistry.rollback extensionId) registry = (.ok record, changed)) :
    ∃ previous current target manifest,
      RolledBack registry extensionId previous current target manifest record changed := by
  simp only [ExtensionRegistry.rollback, exec_get_bind, exec_check_bind_eq_ok, exec_modify_bind,
    exec_pure, okOr_eq_ok, exists_unit, Prod.mk.injEq, Except.ok.injEq,
    ExtensionRegistrySnapshot.ensureNotBlocked_eq_ok] at done
  obtain ⟨current, active, previous, linked, manifest, foundManifest, unblocked, target, found, answer,
    changed⟩ := done
  exact ⟨previous, current, target, manifest, active, linked, foundManifest, unblocked, found,
    answer.symm, changed.symm⟩

/-- A rollback that the registry carries out is previewed. -/
theorem preview_of_rollback (active : registry.activeRecord extensionId = some current)
    (done : exec (ExtensionRegistry.rollback extensionId) registry = (.ok record, changed)) :
    (rollbackPreview registry extensionId current).isSome = true := by
  obtain ⟨previous, _, target, manifest, rolledBack⟩ := rolledBack_of_rollback done
  obtain rfl := Option.some.inj (active.symm.trans rolledBack.active)
  have preview := rollbackPreview_eq_some.mpr
    ⟨previous, manifest, rolledBack.linked, rolledBack.foundManifest, rolledBack.unblocked, rfl⟩
  rw [preview]
  rfl

end Preview

section Texts

theorem truncateAuditText_not_blank {value : String} (trimmed : Text.trim value = value)
    (present : Text.isBlank value = false) (maxChars : Nat) :
    Text.isBlank (truncateAuditText value (maxChars + 1)) = false := by
  unfold truncateAuditText
  split
  · exact present
  · exact Text.isBlank_take trimmed present maxChars

theorem packageRegistryRequestSource_not_blank (requestSource : Option String) :
    Text.isBlank (packageRegistryRequestSource requestSource) = false := by
  unfold packageRegistryRequestSource
  cases given : Text.trimOptional requestSource with
  | none => decide
  | some text =>
    exact truncateAuditText_not_blank (Text.trim_of_trimOptional given)
      (Text.isBlank_of_trimOptional given) 127

theorem packageRegistryReason_not_blank (reason : Option String) {defaultReason : String}
    (trimmed : Text.trim defaultReason = defaultReason)
    (present : Text.isBlank defaultReason = false) :
    Text.isBlank (packageRegistryReason reason defaultReason) = false := by
  unfold packageRegistryReason
  cases given : Text.trimOptional reason with
  | none => exact truncateAuditText_not_blank trimmed present 1023
  | some text =>
    exact truncateAuditText_not_blank (Text.trim_of_trimOptional given)
      (Text.isBlank_of_trimOptional given) 1023

end Texts

section Sources

/-- Every stored record has a source that an audit record may carry. -/
def SourcesAudited (registry : ExtensionRegistry) : Prop :=
  ∀ extensionId version record, registry.records.find extensionId version = some record →
    validateExtensionRegistryAuditProvenance record.source.auditProvenance = .ok ()

variable {before after : ExtensionRegistry} {operation : RegistryOperation}
  {extensionId version : String} {record : ExtensionInstallRecord}

/-- A record whose source is new is the active one of the package that the
operation is about. -/
theorem source_of_change (change : Change before operation after)
    (stored : after.records.find extensionId version = some record) :
    (∃ old, before.records.find extensionId version = some old ∧ old.source = record.source) ∨
      operation.target = some extensionId ∧ after.activeRecord extensionId = some record := by
  have written {manifest : ExtensionManifest} {acted chosen : String}
      {new : ExtensionInstallRecord} {activeVersions : Table String String}
      (about : operation.target = some acted) (active : activeVersions[acted]? = some chosen)
      (stored : (before.write acted chosen manifest new activeVersions).records.find extensionId
        version = some record) :
      (∃ old, before.records.find extensionId version = some old ∧ old.source = record.source) ∨
        operation.target = some extensionId ∧
          (before.write acted chosen manifest new activeVersions).activeRecord extensionId =
            some record := by
    by_cases same : acted = extensionId ∧ chosen = version
    · obtain ⟨rfl, rfl⟩ := same
      refine .inr ⟨about, ?_⟩
      simp only [ExtensionRegistrySnapshot.activeRecord, ExtensionRegistry.write, active,
        Option.bind_some]
      exact stored
    · simp only [ExtensionRegistry.write, Catalog.find_store_other same] at stored
      exact .inl ⟨record, stored, rfl⟩
  have restated {acted chosen : String} {old : ExtensionInstallRecord}
      {status : ExtensionInstallStatus} {activeVersions : Table String String}
      (found : before.records.find acted chosen = some old)
      (stored : (before.restate acted chosen old status activeVersions).records.find extensionId
        version = some record) :
      ∃ old, before.records.find extensionId version = some old ∧ old.source = record.source := by
    by_cases same : acted = extensionId ∧ chosen = version
    · obtain ⟨rfl, rfl⟩ := same
      simp only [ExtensionRegistry.restate, Catalog.find_store_same, Option.some.injEq] at stored
      exact ⟨old, found, by rw [← stored]⟩
    · simp only [ExtensionRegistry.restate, Catalog.find_store_other same] at stored
      exact ⟨record, stored, rfl⟩
  cases change with
  | install valid unblocked stable approved ends =>
    exact written rfl Std.ExtTreeMap.getElem?_insert_self stored
  | rollback active linked foundManifest unblocked found => exact .inl (restated found stored)
  | disable active found => exact .inl (restated found stored)
  | enable active foundManifest unblocked found => exact .inl (restated found stored)
  | remove active found => exact .inl (restated found stored)
  | updatePublication active foundManifest found carried valid unblocked =>
    exact written rfl active stored
  | updateRegistrySubmission active found published foundManifest submits valid unblocked =>
    exact written rfl active stored
  | addBlocklistEntry supported => exact .inl ⟨record, stored, rfl⟩
  | appendAuditRecord wellFormed fresh targets => exact .inl ⟨record, stored, rfl⟩

/-- The audit record of a call has been checked with the source it installs. -/
theorem Served.sourcesAudited {change : PackageChange} {before after : PackageState}
    {outcome : Except ServiceError PackageResponse} (served : Served change before outcome after)
    (audited : SourcesAudited before.extensionRegistry) :
    SourcesAudited after.extensionRegistry := by
  cases outcome with
  | error _ =>
    obtain rfl : after = before := served
    exact audited
  | ok response =>
    obtain ⟨answer, changed, record, done, audit, _, recorded⟩ := served
    obtain ⟨⟨_, body⟩, grown⟩ := audit.append_inv
    have records : after.extensionRegistry.records = changed.records := by rw [grown]
    have provenance := recorded.provenance
    intro extensionId version stored found
    rw [records] at found
    rcases source_of_change (RegistryOperation.change_of_perform done) found with
      ⟨old, foundOld, same⟩ | ⟨about, active⟩
    · rw [← same]
      exact audited extensionId version old foundOld
    · have active' : change.recordIn after.extensionRegistry = some stored := by
        rw [PackageChange.recordIn_of_target about, grown]
        exact active
      have carried : record.provenance = some stored.source.auditProvenance := by
        rw [provenance, active', Option.some_or, Option.map_some]
      simp only [validateAuditBody, bind_eq_ok, exists_unit, whenSome_eq_ok] at body
      exact body.2.2.2.1 _ carried

end Sources

section AuditOfRollback

variable {registry changed : ExtensionRegistry} {extensionId version : String}
  {record : ExtensionInstallRecord}

section Stored

variable (consistent : registry.Consistent) (acceptable : registry.Acceptable)
  (stored : registry.records.find extensionId version = some record) (field : String)
include consistent acceptable stored field

/-- A stored record can be mentioned in an audit record. -/
theorem auditRef_valid :
    validateExtensionRegistryAuditRecordRef field record.auditRef = .ok () := by
  obtain ⟨manifest, found, describes⟩ := consistent.manifest_of_record stored
  obtain ⟨header, _, _, provenance, _⟩ :=
    validateManifest_eq_ok.mp (acceptable _ _ _ _ found stored)
  simp only [validateHeader, bind_eq_ok, exists_unit] at header
  obtain ⟨_, _, id, _, _, semver, _⟩ := header
  simp only [validateProvenance, bind_eq_ok, exists_unit] at provenance
  obtain ⟨artifactDigest, manifestDigest, _⟩ := provenance
  rw [describes.manifestId, ← describes.recordId] at id
  rw [describes.manifestVersion, ← describes.recordVersion] at semver
  rw [describes.artifactDigest] at artifactDigest
  rw [describes.manifestDigest] at manifestDigest
  simp only [validateExtensionRegistryAuditRecordRef, bind_eq_ok, exists_unit]
  exact ⟨validateAuditReverseDnsId_of_field id, validateAuditSemver_of_field semver,
    validateAuditDigest_of_field manifestDigest, validateAuditDigest_of_field artifactDigest⟩

theorem auditPackageId_valid :
    validateAuditReverseDnsId field record.id = .ok () := by
  have valid := auditRef_valid consistent acceptable stored field
  simp only [validateExtensionRegistryAuditRecordRef, bind_eq_ok, exists_unit] at valid
  exact valid.1

end Stored

/-- A record with the digests of the one that is mentioned is its target. -/
theorem validateAuditRecordTarget_eq_ok {mentioned : ExtensionInstallRecord}
    (stored : registry.records.find mentioned.id mentioned.version = some record)
    (manifestDigest : record.manifestDigest = mentioned.manifestDigest)
    (artifactDigest : record.artifactDigest = mentioned.artifactDigest) {enforce : Bool}
    (status : enforce = true → record.status = mentioned.status) (field : String) :
    validateAuditRecordTarget registry.records field mentioned.auditRef enforce = .ok () := by
  obtain ⟨versions, found, edition⟩ := Catalog.find_eq_some_iff.mp stored
  simp only [validateAuditRecordTarget, bind_eq_ok, okOr_eq_ok, exists_unit, ensure_eq_ok,
    reject_eq_ok]
  refine ⟨versions, found, record, edition, manifestDigest, artifactDigest, ?_⟩
  rintro ⟨enforced, different⟩
  exact different (status enforced)

theorem appendAuditRecord_succeeds {audit : ExtensionRegistryAuditRecord}
    (wellFormed : audit.WellFormed)
    (fresh : audit.id ∉ registry.auditRecords.map ExtensionRegistryAuditRecord.id)
    (targets : validateExtensionRegistryAuditTargets registry.records audit true = .ok ()) :
    exec (ExtensionRegistry.appendAuditRecord audit) registry =
      (.ok (), { registry with auditRecords := registry.auditRecords ++ [audit] }) := by
  have valid := validateExtensionRegistryAuditRecord_eq_ok.mpr ⟨wellFormed, fresh⟩
  simp only [ExtensionRegistry.appendAuditRecord, exec_get_bind, valid, targets, Except.mapError,
    exec_check_ok_bind, exec_modify]

/-- The audit record of a rollback is accepted. -/
theorem rollback_audit_accepted (consistent : registry.Consistent)
    (acceptable : registry.Acceptable) (policy : registry.validationPolicy = .default)
    (audited : SourcesAudited registry)
    (done : exec (ExtensionRegistry.rollback extensionId) registry = (.ok record, changed))
    {id : AuditRecordId} (fresh : id ∉ registry.auditRecords.map ExtensionRegistryAuditRecord.id)
    (createdAt : LedgerTimestamp) (attribution : Attribution) :
    ∃ draft, exec (ExtensionRegistry.appendAuditRecord (extensionRegistryAuditRecord id createdAt
      .rollback (packageRegistryRequestSource attribution.requestSource)
      (packageRegistryReason attribution.reason "rollback package")
      ⟨some record.id, none, packageRegistryActor attribution.requester, none, none⟩
      registry.snapshot changed.snapshot)) changed = (.ok (), draft) := by
  have performed : exec (RegistryOperation.perform (.rollback extensionId)) registry =
      (.ok (some record), changed) := exec_bind_pure_eq_ok.mpr ⟨record, done, rfl⟩
  have change := RegistryOperation.change_of_perform performed
  have later := change.consistent consistent
  have laterAcceptable := change.acceptable (by rw [policy]; decide) consistent acceptable
  obtain ⟨previous, current, target, manifest, rolledBack⟩ := rolledBack_of_rollback done
  obtain ⟨version, chosen, storedCurrent⟩ := Option.bind_eq_some_iff.mp rolledBack.active
  obtain ⟨_, _, describesCurrent⟩ := consistent.manifest_of_record storedCurrent
  -- the record that is active afterwards
  have stored : changed.records.find extensionId previous = some record := by
    rw [rolledBack.changed, rolledBack.answer]
    exact Catalog.find_store_same ..
  obtain ⟨_, _, describes⟩ := later.manifest_of_record stored
  have active : changed.activeRecord record.id = some record := by
    rw [describes.recordId, ExtensionRegistrySnapshot.activeRecord]
    have inserted : changed.activeVersions[extensionId]? = some previous := by
      rw [rolledBack.changed]
      exact Std.ExtTreeMap.getElem?_insert_self
    rw [inserted, Option.bind_some, stored]
  have activeBefore : registry.activeRecord record.id = some current := by
    rw [describes.recordId]
    exact rolledBack.active
  -- the record that was active before is still there, with its digests
  have kept : ∃ old, changed.records.find current.id current.version = some old ∧
      old.manifestDigest = current.manifestDigest ∧ old.artifactDigest = current.artifactDigest := by
    rw [describesCurrent.recordId, describesCurrent.recordVersion, rolledBack.changed]
    simp only [ExtensionRegistry.restate, Catalog.find_store]
    split
    · rename_i same
      have found := rolledBack.found
      rw [same.2, storedCurrent] at found
      obtain rfl := Option.some.inj found
      exact ⟨_, rfl, rfl, rfl⟩
    · exact ⟨current, storedCurrent, rfl, rfl⟩
  generalize written : extensionRegistryAuditRecord id createdAt .rollback
    (packageRegistryRequestSource attribution.requestSource)
    (packageRegistryReason attribution.reason "rollback package")
    ⟨some record.id, none, packageRegistryActor attribution.requester, none, none⟩
    registry.snapshot changed.snapshot = audit
  have previousRecord : audit.previousRecord = some current.auditRef := by
    rw [← written]
    exact congrArg (Option.map _) activeBefore
  have newRecord : audit.newRecord = some record.auditRef := by
    rw [← written]
    exact congrArg (Option.map _) active
  have provenance : audit.provenance = some record.source.auditProvenance := by
    rw [← written]
    simp [extensionRegistryAuditRecord, auditedProvenance, activeExtensionProvenance,
      ExtensionRegistry.snapshot, active]
  have packageId : audit.packageId = some record.id := by rw [← written]; rfl
  have source : validateExtensionRegistryAuditProvenance record.source.auditProvenance = .ok () := by
    rw [rolledBack.answer]
    exact audited _ _ target rolledBack.found
  refine ⟨_, appendAuditRecord_succeeds ⟨?_, ?_⟩ ?_ ?_⟩
  · simp only [validateAuditHead, bind_eq_ok, exists_unit, ensure_eq_ok, reject_eq_ok, ← written]
    refine ⟨rfl, ?_, ?_⟩
    · rw [Bool.not_eq_true]
      exact packageRegistryReason_not_blank _ (by decide) (by decide)
    · rw [Bool.not_eq_true]
      exact packageRegistryRequestSource_not_blank _
  · simp only [validateAuditBody, bind_eq_ok, exists_unit, whenSome_eq_ok, previousRecord, newRecord,
      provenance, packageId, Option.some.injEq, forall_eq']
    refine ⟨auditPackageId_valid later laterAcceptable stored _,
      auditRef_valid consistent acceptable storedCurrent _, auditRef_valid later laterAcceptable stored _,
      source, ?_⟩
    have kind : audit.kind = .rollback := by rw [← written]; rfl
    apply validateExtensionRegistryAuditKindPayload_eq_ok
    · rw [kind]
      decide
    · rw [packageId, Option.isSome_some]
    · rw [previousRecord, Option.isSome_some]
    · rw [newRecord, Option.isSome_some]
    · rw [provenance, Option.isSome_some]
  · have same : audit.id = id := by rw [← written]; rfl
    rw [same, rolledBack.changed]
    exact fresh
  · obtain ⟨old, foundOld, manifestDigest, artifactDigest⟩ := kept
    simp only [validateExtensionRegistryAuditTargets, bind_eq_ok, exists_unit, whenSome_eq_ok,
      previousRecord, newRecord, packageId, Option.some.injEq, forall_eq',
      validateAuditRecordPackageMatch, ensure_eq_ok]
    refine ⟨⟨?_, rfl⟩, ?_, ?_⟩
    · exact describesCurrent.recordId.trans describes.recordId.symm
    · refine validateAuditRecordTarget_eq_ok foundOld manifestDigest artifactDigest ?_ _
      intro enforced
      cases enforced
    · have found : changed.records.find record.id record.version = some record := by
        rw [describes.recordId, describes.recordVersion, stored]
      exact validateAuditRecordTarget_eq_ok found rfl rfl (fun _ => rfl) _

end AuditOfRollback

section Calls

variable {state : PackageState} {kind : ExtensionRegistryAuditKind} {defaultReason : String}
  {attribution : Attribution} {mutator : RegistryAction ExtensionInstallRecord}
  {id : AuditRecordId} {createdAt : LedgerTimestamp} {changed draft : ExtensionRegistry}
  {record : ExtensionInstallRecord}

theorem setExtensionRegistrySnapshot_succeeds {snapshot : ExtensionRegistrySnapshot}
    (valid : snapshot.validateWithPolicy .default = .ok ())
    (store : Store.InMemoryStore ExtensionRegistrySnapshot) :
    store.setExtensionRegistrySnapshot (fun _ _ => .ok ()) snapshot =
      (.ok (), { store with inner := { store.inner with extensionRegistrySnapshot := snapshot } }) := by
  simp only [Store.InMemoryStore.setExtensionRegistrySnapshot, valid, Store.InMemoryStore.mutate]
  cases store.durableSnapshotPath <;> rfl

/-- A call that the registry refuses. -/
theorem mutatePackage_evaluate_error (settled : state.Settled) {error : RegistryError}
    (failed : exec mutator state.extensionRegistry = (.error error, changed)) :
    (mutatePackage kind defaultReason attribution mutator).evaluate (writes id createdAt) state =
      (.error (.extensionRegistry error), state) := by
  simp only [mutatePackage, mutateExtensionRegistryWithAudit, Program.evaluate_bind, Program.evaluate,
    writes, settled.loads, Except.mapError, Program.ofExcept, onDraft, exec_bind, failed]

/-- A call that the registry accepts, audit record included. -/
theorem mutatePackage_evaluate_ok (settled : state.Settled)
    (done : exec mutator state.extensionRegistry = (.ok record, changed))
    (appended : exec (ExtensionRegistry.appendAuditRecord (extensionRegistryAuditRecord id createdAt kind
      (packageRegistryRequestSource attribution.requestSource)
      (packageRegistryReason attribution.reason defaultReason)
      ⟨some record.id, none, packageRegistryActor attribution.requester, none, none⟩
      state.extensionRegistry.snapshot changed.snapshot)) changed = (.ok (), draft))
    (valid : draft.snapshot.validateWithPolicy .default = .ok ()) :
    (mutatePackage kind defaultReason attribution mutator).evaluate (writes id createdAt) state =
      (.ok ⟨record, some id⟩, state.install draft) := by
  simp only [mutatePackage, mutateExtensionRegistryWithAudit, Program.evaluate_bind, Program.evaluate,
    writes, settled.loads, Except.mapError, Program.ofExcept, onDraft, exec_bind, done, exec_pure,
    appended, setExtensionRegistrySnapshot_succeeds valid]
  rfl

end Calls

section Reachable

variable {Thread : Type} {requests : Thread → PackageRequest} {start finish : PackageState}
  {history : List (Finished Thread ServiceError PackageResponse PackageState)}

theorem serial_sourcesAudited
    (serial : Mutex.Serial (fun thread => (requests thread).call) Serves start history finish)
    (settled : start.Settled) (audited : SourcesAudited start.extensionRegistry) :
    finish.Settled ∧ SourcesAudited finish.extensionRegistry := by
  have kept : (finish.Settled ∧ SourcesAudited finish.extensionRegistry) ∧
      ∀ entry ∈ history, (fun _ => True) entry := by
    apply serial.induct ⟨settled, audited⟩
    intro thread before ended outcome after invariant ran returned
    have served := served_of_runs invariant.1 ran returned
    exact ⟨⟨served.settled invariant.1, served.sourcesAudited invariant.2⟩, trivial⟩
  exact kept.1

end Reachable

section Inspection

variable {registry : ExtensionRegistry} {extensionId version : String}
  {current : ExtensionInstallRecord}

/-- An active package can be inspected, and the preview is that of its record. -/
theorem packageInspect_of_active (consistent : registry.Consistent)
    (active : registry.activeVersions[extensionId]? = some version)
    (stored : registry.records.find extensionId version = some current) :
    ∃ inspected, packageInspect registry extensionId = .ok inspected ∧
      inspected.rollbackSnapshot = rollbackPreview registry extensionId current ∧
      inspected.rollbackAvailable = inspected.rollbackSnapshot.isSome := by
  obtain ⟨manifest, found, describes⟩ := consistent.manifest_of_record stored
  have activeManifest : registry.activeManifest extensionId = some manifest := by
    rw [ExtensionRegistrySnapshot.activeManifest, active, Option.bind_some, found]
  have activeRecord : registry.activeRecord extensionId = some current := by
    rw [ExtensionRegistrySnapshot.activeRecord, active, Option.bind_some, stored]
  have reported : ∃ status block, registry.extensionStatus extensionId =
      .ok ⟨extensionId, { current with status }, block⟩ := by
    cases hit : registry.findBlocklistHit manifest with
    | none => exact ⟨current.status, none, by
        simp [ExtensionRegistrySnapshot.extensionStatus, activeManifest, activeRecord, hit, okOr]⟩
    | some entry => exact ⟨.blocked, some ⟨entry.reason, entry.key⟩, by
        simp [ExtensionRegistrySnapshot.extensionStatus, activeManifest, activeRecord, hit, okOr]⟩
  obtain ⟨status, block, reported⟩ := reported
  have foundManifest : registry.manifests.find extensionId current.version = some manifest := by
    rw [describes.recordVersion, found]
  have answered : ∃ inspected, packageInspect registry extensionId = .ok inspected ∧
      inspected.rollbackSnapshot =
        rollbackPreview registry extensionId { current with status } ∧
      inspected.rollbackAvailable = inspected.rollbackSnapshot.isSome := by
    simp [packageInspect, extensionStatus, reported, ExtensionStatusResponse.ofSnapshot, Except.mapError,
      foundManifest, okOr, Functor.map, Except.map]
  exact answered

end Inspection

/-- Whatever calls have been served: the inspection of an active package announces a
rollback exactly when the rollback would succeed, given that its snapshot is written
and its audit record gets an unused identifier; an announced rollback comes with its
digests, and these are those of the record that the rollback activates. -/
theorem rollback_preview_accurate (durableSnapshotPath : Option String) (state : PackageState)
    (history : List (Finished PackageRequest ServiceError PackageResponse PackageState))
    (reached : Mutex.Serial PackageRequest.call Serves (.empty durableSnapshotPath) history state)
    (extensionId version : String)
    (active : state.extensionRegistry.activeVersions[extensionId]? = some version) :
    ∃ inspected, packageInspect state.extensionRegistry extensionId = .ok inspected ∧
      (inspected.rollbackAvailable = true ↔ ∃ digests, inspected.rollbackSnapshot = some digests) ∧
      ∀ id createdAt attribution,
        id ∉ state.extensionRegistry.auditRecords.map ExtensionRegistryAuditRecord.id →
        (inspected.rollbackAvailable = true ↔ ∃ response after,
          (rollbackExtension attribution extensionId).evaluate (writes id createdAt) state =
            (.ok response, after)) ∧
        ∀ digests, inspected.rollbackSnapshot = some digests → ∃ response after,
          (rollbackExtension attribution extensionId).evaluate (writes id createdAt) state =
            (.ok response, after) ∧
          after.extensionRegistry.activeRecord extensionId = some response.record ∧
          digests = ⟨response.record.manifestDigest, response.record.artifactDigest⟩ := by
  obtain ⟨settled, audited⟩ : state.Settled ∧ SourcesAudited state.extensionRegistry := by
    refine serial_sourcesAudited reached (PackageState.settled_empty durableSnapshotPath) ?_
    intro extensionId version record found
    simp [PackageState.empty, ExtensionRegistry.new, ExtensionRegistrySnapshot.empty] at found
  obtain ⟨current, stored⟩ := settled.consistent.activeStored _ _ active
  obtain ⟨inspected, answered, preview, available⟩ :=
    packageInspect_of_active settled.consistent active stored
  refine ⟨inspected, answered, ?_, ?_⟩
  · rw [available, Option.isSome_iff_exists]
  intro id createdAt attribution fresh
  have shown : ∀ digests, inspected.rollbackSnapshot = some digests → ∃ response after,
      (rollbackExtension attribution extensionId).evaluate (writes id createdAt) state =
        (.ok response, after) ∧
      after.extensionRegistry.activeRecord extensionId = some response.record ∧
      digests = ⟨response.record.manifestDigest, response.record.artifactDigest⟩ := by
    intro digests shows
    obtain ⟨record, changed, done, same, activated⟩ :=
      rollback_of_preview settled.consistent active stored (preview.symm.trans shows)
    obtain ⟨draft, appended⟩ := rollback_audit_accepted settled.consistent settled.acceptable
      settled.policy audited done fresh createdAt attribution
    have performed : exec (RegistryOperation.perform (.rollback extensionId))
        state.extensionRegistry = (.ok (some record), changed) :=
      exec_bind_pure_eq_ok.mpr ⟨record, done, rfl⟩
    have audit := appendAuditRecord_change appended
    have next := settled.install (RegistryOperation.change_of_perform performed) audit
    refine ⟨⟨record, some id⟩, state.install draft,
      mutatePackage_evaluate_ok settled done appended next.valid, ?_, same⟩
    obtain ⟨_, rfl⟩ := audit.append_inv
    exact activated
  refine ⟨⟨?_, ?_⟩, shown⟩
  · intro announced
    rw [available] at announced
    obtain ⟨digests, shows⟩ := Option.isSome_iff_exists.mp announced
    obtain ⟨response, after, succeeded, _⟩ := shown digests shows
    exact ⟨response, after, succeeded⟩
  · rintro ⟨response, after, succeeded⟩
    rcases done : exec (ExtensionRegistry.rollback extensionId) state.extensionRegistry with
      ⟨error | record, changed⟩
    · rw [rollbackExtension, mutatePackage_evaluate_error settled done] at succeeded
      cases succeeded
    · have activeRecord : state.extensionRegistry.activeRecord extensionId = some current := by
        rw [ExtensionRegistrySnapshot.activeRecord, active, Option.bind_some, stored]
      rw [available, preview]
      exact preview_of_rollback activeRecord done

section Notes

def installNotes (version : String) (digit : Char) : PackageRequest :=
  ⟨.install ⟨notesManifest version digit, false, false, false⟩, ⟨none, none, none⟩⟩

/-- The state after requests that are answered in turn, with the number of the first. -/
def evaluatedAll (number : Nat) : List PackageRequest → PackageState → PackageState
  | [], state => state
  | request :: rest, state => evaluatedAll (number + 1) rest (evaluated number request state).2

private theorem evaluatedAll_serial {start state : PackageState}
    {history : List (Finished PackageRequest ServiceError PackageResponse PackageState)}
    (serial : Mutex.Serial PackageRequest.call Serves start history state) (number : Nat)
    (requests : List PackageRequest) : ∃ later,
      Mutex.Serial PackageRequest.call Serves start later (evaluatedAll number requests state) := by
  induction requests generalizing number state history with
  | nil => exact ⟨_, serial⟩
  | cons request rest ih =>
    obtain ⟨_, ran, returned⟩ := Program.runs_evaluate (writes_serves _ _) request.call state
    exact ih (serial.call ran returned) _

/-- The service after a package has been installed, and then a newer version of it. -/
def notesUpdated : PackageState :=
  evaluatedAll 1 [installNotes "1.0.0" 'a', installNotes "1.1.0" 'b'] (.empty none)

/-- Its rollback. -/
def notesRolledBack : Except ServiceError PackageRecordResponse × PackageState :=
  (rollbackExtension ⟨none, none, none⟩ "dev.example.notes").evaluate
    (writes (.new .auditRecord (.ofNat 3)) ⟨0⟩) notesUpdated

private theorem notesUpdated_evaluated :
    notesUpdated.extensionRegistry.activeVersions["dev.example.notes"]? = some "1.1.0" ∧
    Identifier.new .auditRecord (.ofNat 3) ∉
      notesUpdated.extensionRegistry.auditRecords.map ExtensionRegistryAuditRecord.id ∧
    notesRolledBack.1.toOption.map (fun response => response.record.version) = some "1.0.0" := by
  decide +kernel

theorem rollback_preview_accurate_notes :
    notesUpdated.extensionRegistry.activeVersions["dev.example.notes"]? = some "1.1.0" ∧
    ∃ inspected digests response after,
      packageInspect notesUpdated.extensionRegistry "dev.example.notes" = .ok inspected ∧
      inspected.rollbackAvailable = true ∧ inspected.rollbackSnapshot = some digests ∧
      notesRolledBack = (.ok response, after) ∧ response.record.version = "1.0.0" ∧
      after.extensionRegistry.activeRecord "dev.example.notes" = some response.record ∧
      digests = ⟨response.record.manifestDigest, response.record.artifactDigest⟩ := by
  obtain ⟨active, fresh, version⟩ := notesUpdated_evaluated
  obtain ⟨_, reached⟩ :=
    evaluatedAll_serial .start 1 [installNotes "1.0.0" 'a', installNotes "1.1.0" 'b']
  obtain ⟨inspected, answered, shows, accurate⟩ :=
    rollback_preview_accurate none notesUpdated _ reached "dev.example.notes" "1.1.0" active
  obtain ⟨succeeds, shown⟩ := accurate _ ⟨0⟩ ⟨none, none, none⟩ fresh
  rcases done : notesRolledBack with ⟨error | response, after⟩
  · rw [done] at version
    cases version
  · have available := succeeds.mpr ⟨response, after, by rw [← done, notesRolledBack]⟩
    obtain ⟨digests, preview⟩ := shows.mp available
    obtain ⟨response', after', done', activated, same⟩ := shown digests preview
    rw [← notesRolledBack, done] at done'
    obtain ⟨⟨⟩, rfl⟩ := Prod.mk.inj done'
    rw [done] at version
    exact ⟨active, inspected, digests, response, after, answered, available, preview, rfl,
      Option.some.inj version, activated, same⟩

end Notes

end Atelia.Service
