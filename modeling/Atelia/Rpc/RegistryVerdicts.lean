import Atelia.Rpc.Daemon
import Atelia.Service.PackageAudit

/-! Whether a submission is accepted is for the registry to say. -/

namespace Atelia.Rpc

open Registry Service Outcome

/-- The registry has said nothing about the publication. -/
def Undecided (publication : Option ExtensionPublication) : Prop :=
  ∀ published, publication = some published → isVerdict published.registrySubmission = false

/-- A valid registry in which no version has been decided on. -/
structure WithoutVerdict (snapshot : ExtensionRegistrySnapshot) : Prop where
  consistent : snapshot.Consistent
  manifests : ∀ extensionId version manifest,
    snapshot.manifests.find extensionId version = some manifest →
      Undecided manifest.provenance.publication

/-- The operation writes no verdict of its own. -/
def ClientWritable : RegistryOperation → Prop
  | .install manifest _ => Undecided manifest.provenance.publication
  | .updatePublication _ publication => isVerdict publication.registrySubmission = false
  | .updateRegistrySubmission _ registrySubmission _ => isVerdict registrySubmission = false
  | _ => True

variable {extensionId version : String} {record : ExtensionInstallRecord}

section Registry

variable {snapshot : ExtensionRegistrySnapshot} {before after : ExtensionRegistry}

/-- An install record says what its manifest says. -/
theorem WithoutVerdict.records (clean : WithoutVerdict snapshot)
    (found : snapshot.records.find extensionId version = some record) :
    Undecided record.source.publication := by
  obtain ⟨manifest, stored, describes⟩ := clean.consistent.manifest_of_record found
  rw [describes.source]
  exact clean.manifests extensionId version manifest stored

theorem undecided_some {publication : ExtensionPublication}
    (undecided : isVerdict publication.registrySubmission = false) : Undecided (some publication) := by
  intro published same
  cases same
  exact undecided

/-- A submission that a change of the publication carries over was no verdict. -/
theorem carriedSubmission_undecided {publication : ExtensionPublication}
    (stored : Undecided record.source.publication)
    (undecided : isVerdict publication.registrySubmission = false) :
    isVerdict (ExtensionRegistry.carriedSubmission record publication).registrySubmission = false := by
  unfold ExtensionRegistry.carriedSubmission
  cases published : record.source.publication with
  | none => exact undecided
  | some old =>
    have kept := stored old published
    cases submission : old.registrySubmission with
    | notSubmitted => simpa [submission] using undecided
    | awaitingSubmission => simpa [submission] using undecided
    | submitted => simp [submission, isVerdict]
    | accepted =>
      rw [submission] at kept
      cases kept
    | rejected =>
      rw [submission] at kept
      cases kept

private theorem manifests_store (clean : WithoutVerdict before.snapshot)
    {written : ExtensionManifest} (undecided : Undecided written.provenance.publication) :
    ∀ other another manifest,
      (before.manifests.store extensionId version written).find other another = some manifest →
        Undecided manifest.provenance.publication := by
  intro other another manifest stored
  rcases Catalog.find_store_cases stored with ⟨_, _, rfl⟩ | ⟨_, kept⟩
  · exact undecided
  · exact clean.manifests other another manifest kept

theorem withoutVerdict_of_change {operation : RegistryOperation}
    (change : Change before operation after) (writable : ClientWritable operation)
    (clean : WithoutVerdict before.snapshot) : WithoutVerdict after.snapshot := by
  refine ⟨change.consistent clean.consistent, ?_⟩
  cases change with
  | install valid unblocked stable approved ends => exact manifests_store clean writable
  | updatePublication active foundManifest found carried valid unblocked =>
    apply manifests_store clean
    rw [← carried]
    exact undecided_some (carriedSubmission_undecided (clean.records found) writable)
  | updateRegistrySubmission active found published foundManifest submits valid unblocked =>
    apply manifests_store clean
    rw [← submits]
    exact undecided_some writable
  | rollback | disable | enable | remove | addBlocklistEntry | appendAuditRecord =>
    exact clean.manifests

theorem withoutVerdict_empty : WithoutVerdict .empty where
  consistent := consistent_empty
  manifests := by
    intro extensionId version manifest found
    simp [ExtensionRegistrySnapshot.empty] at found

end Registry

section Index

variable {registry : ExtensionRegistry}

theorem extensionStatus_undecided (clean : WithoutVerdict registry.snapshot)
    {status : ExtensionStatusSnapshot}
    (answered : registry.extensionStatus extensionId = .ok status) :
    Undecided status.record.source.publication := by
  simp only [ExtensionRegistrySnapshot.extensionStatus, bind_eq_ok, okOr_eq_ok, pure_eq_ok] at answered
  obtain ⟨manifest, _, record, active, rfl⟩ := answered
  obtain ⟨version, _, found⟩ := Option.bind_eq_some_iff.mp active
  have undecided := clean.records found
  split <;> exact undecided

/-- The status of every active package can be told. -/
theorem extensionStatus_of_active (consistent : registry.Consistent)
    (active : registry.activeVersions[extensionId]? = some version) :
    ∃ status, registry.extensionStatus extensionId = .ok status := by
  obtain ⟨record, found⟩ := consistent.activeStored extensionId version active
  obtain ⟨manifest, stored, _⟩ := consistent.manifest_of_record found
  have activeRecord : registry.activeRecord extensionId = some record :=
    Option.bind_eq_some_iff.mpr ⟨version, active, found⟩
  have activeManifest : registry.activeManifest extensionId = some manifest :=
    Option.bind_eq_some_iff.mpr ⟨version, active, stored⟩
  exact ⟨_, by
    rw [ExtensionRegistrySnapshot.extensionStatus, activeManifest, activeRecord]
    rfl⟩

theorem listExtensions_undecided (clean : WithoutVerdict registry.snapshot) (includeBlocked : Bool) :
    ∃ extensions, listExtensions registry includeBlocked = .ok extensions ∧
      ∀ extension ∈ extensions, ∀ record, extension.record = some record →
        Undecided record.source.publication := by
  have answered : ∀ extensionId ∈ registry.activeVersions.keys,
      ∃ status, registry.extensionStatus extensionId = .ok status := by
    intro extensionId member
    obtain ⟨version, active⟩ := (Table.contains_iff _ _).mp (Std.ExtTreeMap.mem_keys.mp member)
    exact extensionStatus_of_active clean.consistent active
  obtain ⟨statuses, listed, each⟩ := mapM_eq_ok answered
  have undecided : ∀ extension ∈ statuses.map ExtensionStatusResponse.ofSnapshot,
      ∀ record, extension.record = some record → Undecided record.source.publication := by
    intro extension member record same
    obtain ⟨status, among, rfl⟩ := List.mem_map.mp member
    obtain ⟨extensionId, _, told⟩ := each status among
    cases same
    exact extensionStatus_undecided clean told
  rw [listExtensions, ExtensionRegistrySnapshot.listExtensionStatuses, listed]
  cases includeBlocked with
  | true => exact ⟨_, rfl, undecided⟩
  | false =>
    refine ⟨_, rfl, ?_⟩
    intro extension member
    exact undecided extension (List.mem_of_mem_filter member)

theorem discoverable_eq_false {extension : ExtensionStatusResponse}
    (undecided : ∀ record, extension.record = some record → Undecided record.source.publication) :
    (PackageTrustIndexEntry.ofStatus extension).discoverable = false := by
  unfold PackageTrustIndexEntry.discoverable
  split
  · rfl
  split
  · rfl
  · obtain ⟨extensionId, record, block⟩ := extension
    cases record with
    | none => rfl
    | some record =>
      have kept := undecided record rfl
      change record.source.publication.any _ = false
      cases published : record.source.publication with
      | none => rfl
      | some publication =>
        have open_ := kept publication published
        cases submission : publication.registrySubmission <;>
          simp_all [isVerdict]

/-- An index for discovery finds nothing. -/
theorem trustIndex_empty (clean : WithoutVerdict registry.snapshot) (includeBlocked : Bool) :
    listPackageTrustIndex registry ⟨includeBlocked, true⟩ = .ok [] := by
  obtain ⟨extensions, listed, undecided⟩ := listExtensions_undecided clean includeBlocked
  rw [listPackageTrustIndex, listed]
  refine congrArg Except.ok (List.filter_eq_nil_iff.mpr ?_)
  intro entry member
  obtain ⟨extension, among, rfl⟩ := List.mem_map.mp member
  rw [discoverable_eq_false (undecided extension among)]
  exact Bool.false_ne_true

end Index

section Plans

/-- The plan of a package that the registry has not decided on. -/
def NotInstallable (plan : Option PackagePublicationPlan) : Prop :=
  ∀ published, plan = some published → published.productionInstallable = false

theorem packageAuthoringFlow_notInstallable {status : ExtensionStatusResponse}
    {includePrivateSteps : Bool} {flow : PackageAuthoringFlow}
    (undecided : ∀ record, status.record = some record → Undecided record.source.publication)
    (made : packageAuthoringFlowFromStatus status includePrivateSteps = .ok flow) :
    NotInstallable flow.publicationPlan := by
  simp only [packageAuthoringFlowFromStatus, bind_eq_ok, okOr_eq_ok, pure_eq_ok] at made
  obtain ⟨record, stored, rfl⟩ := made
  intro plan planned
  obtain ⟨publication, published, rfl⟩ := Option.map_eq_some_iff.mp planned
  have kept := undecided record stored publication published
  apply decide_eq_false
  intro accepted
  rw [accepted] at kept
  cases kept

theorem notInstallable_map {plan : Option PackagePublicationPlan}
    {revise : PackagePublicationPlan → PackagePublicationPlan}
    (keeps : ∀ plan, (revise plan).productionInstallable = plan.productionInstallable)
    (refused : NotInstallable plan) : NotInstallable (plan.map revise) := by
  intro revised same
  obtain ⟨old, planned, rfl⟩ := Option.map_eq_some_iff.mp same
  rw [keeps]
  exact refused old planned

end Plans

section Calls

/-- Only registries without a verdict are written. -/
def Allowed : PackageCommand → Prop
  | .setExtensionRegistrySnapshot snapshot => WithoutVerdict snapshot
  | .replaceExtensionRegistry registry => WithoutVerdict registry.snapshot
  | _ => True

def Fitting : (command : PackageCommand) → command.Answer → Prop
  | .extensionRegistry, registry => WithoutVerdict registry.snapshot
  | _, _ => True

/-- A program that writes no verdict. -/
structure Careful {Failure α : Type} (promised : α → Prop)
    (program : Program PackageCommand PackageCommand.Answer Failure α) : Prop where
  confined : program.Confined Allowed Fitting promised

section Parts

variable {Failure α β : Type} {promised : α → Prop} {promised' : β → Prop}

theorem Careful.bind {program : Program PackageCommand PackageCommand.Answer Failure α}
    {rest : α → Program PackageCommand PackageCommand.Answer Failure β}
    (careful : Careful promised program)
    (continues : ∀ result, promised result → Careful promised' (rest result)) :
    Careful promised' (program >>= rest) :=
  ⟨careful.confined.bind fun result held => (continues result held).confined⟩

theorem careful_pure {result : α} (held : promised result) :
    Careful promised (pure result : Program PackageCommand PackageCommand.Answer Failure α) :=
  ⟨held⟩

theorem Careful.map {program : Program PackageCommand PackageCommand.Answer Failure α}
    {wrap : α → β} (careful : Careful promised program)
    (carried : ∀ result, promised result → promised' (wrap result)) :
    Careful promised' (wrap <$> program) :=
  careful.bind fun result held => careful_pure (carried result held)

theorem careful_ofExcept {outcome : Except Failure α}
    (holds : ∀ result, outcome = .ok result → promised result) :
    Careful promised
      (Program.ofExcept outcome : Program PackageCommand PackageCommand.Answer Failure α) :=
  ⟨Program.confined_ofExcept holds⟩

/-- A command whose answer is returned as it is. -/
theorem careful_perform (command : PackageCommand) (allowed : Allowed command) :
    Careful (Fitting command)
      (Program.perform command .done : Program PackageCommand PackageCommand.Answer Failure _) :=
  ⟨allowed, fun _ fits => fits⟩

theorem careful_ofService {program : PackageProgram α} (careful : Careful promised program) :
    Careful promised (ofService program) :=
  ⟨careful.confined.embed⟩

theorem careful_onDraft {action : RegistryAction α} {draft : ExtensionRegistry} :
    Careful (fun result => Attempt.exec action draft = (.ok result.1, result.2))
      (onDraft action draft) := by
  unfold onDraft
  split
  · rename_i ran
    exact ⟨ran⟩
  · exact ⟨trivial⟩

theorem careful_inspecting {look : ExtensionRegistry → Except ServiceError α}
    (holds : ∀ registry, WithoutVerdict registry.snapshot → ∀ result, look registry = .ok result →
      promised result) : Careful promised (inspecting look) := by
  apply careful_ofService
  apply Careful.bind (careful_perform .extensionRegistry trivial)
  intro registry clean
  exact careful_ofExcept (holds registry clean)

end Parts

theorem snapshot_of_fromSnapshot {snapshot : ExtensionRegistrySnapshot}
    {policy : ManifestValidationPolicy} {registry : ExtensionRegistry}
    (loaded : ExtensionRegistry.fromSnapshot snapshot policy = .ok registry) :
    registry.snapshot = snapshot := by
  simp only [ExtensionRegistry.fromSnapshot, bind_eq_ok, exists_unit, pure_eq_ok] at loaded
  obtain ⟨_, rfl⟩ := loaded
  rfl

theorem mutateExtensionRegistryWithAudit_careful {α : Type} {promised : α → Prop}
    {kind : ExtensionRegistryAuditKind} {requestSource reason : String} {mutator : RegistryAction α}
    {auditContext : α → ExtensionRegistryAuditContext} {attachAuditRecordId : α → AuditRecordId → α}
    (keeps : ∀ before value after, WithoutVerdict before.toExtensionRegistrySnapshot →
      Attempt.exec mutator before = (.ok value, after) → WithoutVerdict after.snapshot ∧ promised value)
    (attached : ∀ value id, promised value → promised (attachAuditRecordId value id)) :
    Careful promised (mutateExtensionRegistryWithAudit kind requestSource reason mutator auditContext
      attachAuditRecordId) := by
  apply Careful.bind (careful_perform .extensionRegistry trivial)
  intro registry clean
  have loads : ∀ draft, (ExtensionRegistry.fromSnapshot registry.snapshot
      registry.validationPolicy).mapError (fun reason => ServiceError.store
        (.invalidRecord "extension_registry" reason)) = .ok draft → WithoutVerdict draft.snapshot := by
    intro draft loaded
    rw [snapshot_of_fromSnapshot (mapError_eq_ok.mp loaded)]
    exact clean
  apply Careful.bind (careful_ofExcept loads)
  intro draft clean
  apply Careful.bind careful_onDraft
  rintro ⟨value, changed⟩ mutated
  obtain ⟨clean, held⟩ := keeps _ _ _ clean mutated
  apply Careful.bind (careful_perform .newAuditRecordId trivial)
  intro id _
  apply Careful.bind (careful_perform .now trivial)
  intro createdAt _
  apply Careful.bind careful_onDraft
  rintro ⟨_, audited⟩ appended
  have clean := withoutVerdict_of_change (appendAuditRecord_change appended) trivial clean
  apply Careful.bind (careful_perform (.setExtensionRegistrySnapshot audited.snapshot) clean)
  intro persisted _
  apply Careful.bind (careful_ofExcept fun _ _ => trivial)
  intro _ _
  apply Careful.bind (careful_perform (.replaceExtensionRegistry audited) clean)
  intro _ _
  exact careful_pure (attached value id held)

/-- The calls of the service that answer an install record. -/
theorem mutatePackage_careful (operation : RegistryOperation) {kind : ExtensionRegistryAuditKind}
    {defaultReason : String} {attribution : Attribution}
    {mutator : RegistryAction ExtensionInstallRecord}
    (performs : operation.perform = do return some (← mutator))
    (writable : ClientWritable operation) :
    Careful (fun response => Undecided response.record.source.publication)
      (mutatePackage kind defaultReason attribution mutator) := by
  apply mutateExtensionRegistryWithAudit_careful
  · intro before response after clean ran
    obtain ⟨record, mutated, rfl⟩ := Attempt.exec_bind_pure_eq_ok.mp ran
    have done : Attempt.exec operation.perform before = (.ok (some record), after) := by
      rw [performs]
      exact Attempt.exec_bind_pure_eq_ok.mpr ⟨record, mutated, rfl⟩
    obtain ⟨change, stored⟩ := RegistryOperation.performed done
    have clean := withoutVerdict_of_change change writable clean
    obtain ⟨extensionId, version, _, found⟩ := stored record rfl
    exact ⟨clean, clean.records found⟩
  · intro response id undecided
    exact undecided

theorem applyBlocklist_careful (attribution : Attribution) (entry : BlocklistEntry) :
    Careful (fun _ => True) (Service.applyBlocklist attribution entry) := by
  apply mutateExtensionRegistryWithAudit_careful
  · intro before response after clean ran
    obtain ⟨_, mutated, rfl⟩ := Attempt.exec_bind_pure_eq_ok.mp ran
    have done : Attempt.exec (RegistryOperation.perform (.addBlocklistEntry entry)) before =
        (.ok none, after) := Attempt.exec_bind_pure_eq_ok.mpr ⟨(), mutated, rfl⟩
    exact ⟨withoutVerdict_of_change (RegistryOperation.change_of_perform done) trivial clean, trivial⟩
  · intro response id _
    trivial

theorem undecided_of_guard {manifest : ExtensionManifest} {result : Unit}
    (passed : rejectClientWritableRegistryVerdict manifest = .ok result) :
    Undecided manifest.provenance.publication := by
  intro publication published
  rw [rejectClientWritableRegistryVerdict, reject_eq_ok, published] at passed
  exact Bool.not_eq_true _ ▸ passed

theorem careful_guarded {α : Type} {promised : α → Prop} {manifest : ExtensionManifest}
    {call : RpcProgram α}
    (careful : Undecided manifest.provenance.publication → Careful promised call) :
    Careful promised
      (Program.ofExcept (rejectClientWritableRegistryVerdict manifest) >>= fun _ => call) := by
  apply Careful.bind (careful_ofExcept fun _ passed => undecided_of_guard passed)
  intro _ undecided
  exact careful undecided

theorem extensionStatus_careful (extensionId : String) :
    Careful (fun extension => ∀ record, extension.record = some record →
        Undecided record.source.publication)
      (inspecting (Service.extensionStatus · extensionId)) := by
  apply careful_inspecting
  intro registry clean extension answered record same
  obtain ⟨status, told, rfl⟩ := map_eq_ok.mp (mapError_eq_ok.mp answered)
  cases same
  exact extensionStatus_undecided clean told

theorem careful_flow {extension : ExtensionStatusResponse} {includePrivateSteps : Bool}
    (undecided : ∀ record, extension.record = some record → Undecided record.source.publication) :
    Careful (fun flow => NotInstallable flow.publicationPlan)
      (Program.ofExcept (packageAuthoringFlowFromStatus extension includePrivateSteps) :
        RpcProgram PackageAuthoringFlow) :=
  careful_ofExcept fun _ made => packageAuthoringFlow_notInstallable undecided made

theorem careful_writtenFlow {packageId : String} (undecided : Undecided record.source.publication) :
    Careful (fun flow => NotInstallable flow.publicationPlan)
      (Program.ofExcept (packageAuthoringFlowFromStatus ⟨packageId, some record, none⟩ true) :
        RpcProgram PackageAuthoringFlow) := by
  apply careful_flow
  intro written same
  cases same
  exact undecided

theorem notInstallable_none : NotInstallable none :=
  fun plan same => absurd same.symm (Option.some_ne_none plan)

/-- A reply without a plan. -/
theorem careful_plain {α : Type} {promised : α → Prop} {call : RpcProgram α} {wrap : α → PackageReply}
    (careful : Careful promised call) (plain : ∀ result, (wrap result).publicationPlan = none) :
    Careful (fun reply => NotInstallable reply.publicationPlan) (wrap <$> call) := by
  apply careful.map
  intro result _
  rw [plain]
  exact notInstallable_none

theorem remixPackage_careful (request : PackageRemixRequest) :
    Careful (fun flow => NotInstallable flow.publicationPlan) (remixPackage request) := by
  apply Careful.bind (extensionStatus_careful request.packageId)
  intro extension undecided
  apply Careful.bind (careful_flow undecided)
  intro flow refused
  exact careful_pure (notInstallable_map (fun _ => rfl) refused)

theorem preparePackagePublication_careful (request : PackagePublicationRequest) :
    Careful (fun response => NotInstallable response.flow.publicationPlan)
      (preparePackagePublication request) := by
  apply Careful.bind (careful_ofExcept fun _ _ => trivial)
  intro _ _
  apply Careful.bind (careful_ofExcept fun _ _ => trivial)
  intro attribution _
  have updates : Careful _ (updateExtensionPublication attribution request.packageId
      ⟨request.visibility,
        if packagePublicationVisibilityRequiresRegistrySubmission request.visibility then
          .awaitingSubmission else .notSubmitted⟩) :=
    mutatePackage_careful (.updatePublication _ _) rfl (by
      dsimp only [ClientWritable]
      split <;> rfl)
  apply Careful.bind (careful_ofService updates)
  intro response undecided
  apply Careful.bind (careful_writtenFlow undecided)
  intro flow refused
  exact careful_pure refused

theorem submitPackageRegistrySubmission_careful (request : PackageRegistrySubmissionRequest) :
    Careful (fun response => NotInstallable (response.flow.bind PackageAuthoringFlow.publicationPlan))
      (submitPackageRegistrySubmission request) := by
  apply Careful.bind (careful_ofExcept fun _ passed => reject_eq_ok.mp passed)
  intro _ writable
  apply Careful.bind (careful_ofExcept fun _ _ => trivial)
  intro attribution _
  have updates : Careful _ (updateExtensionRegistrySubmission attribution request.packageId
      request.state request.registryIdentity) :=
    mutatePackage_careful (.updateRegistrySubmission _ _ _) rfl (Bool.eq_false_of_not_eq_true writable)
  apply Careful.bind (careful_ofService updates)
  intro response undecided
  apply Careful.bind (careful_ofExcept fun _ _ => trivial)
  intro publication _
  apply Careful.bind (careful_writtenFlow undecided)
  intro flow refused
  exact careful_pure refused

/-- A call writes no verdict, and no plan it answers is one for production. -/
theorem PackageCall.serve_careful (call : PackageCall) :
    Careful (fun reply => NotInstallable reply.publicationPlan) call.serve := by
  cases call with
  | installExtension attribution request =>
    exact careful_plain (careful_guarded fun undecided => careful_ofService (mutatePackage_careful
      (.install request.manifest request.options) rfl undecided)) fun _ => rfl
  | updateExtension attribution request =>
    exact careful_plain (careful_guarded fun undecided => careful_ofService (mutatePackage_careful
      (.install request.manifest request.options) rfl undecided)) fun _ => rfl
  | validateExtension request =>
    exact careful_plain (careful_guarded fun _ => careful_inspecting fun _ _ _ _ => trivial)
      fun _ => rfl
  | extensionStatus extensionId =>
    exact careful_plain (extensionStatus_careful extensionId) fun _ => rfl
  | packageInspect extensionId =>
    exact careful_plain (careful_inspecting fun _ _ _ _ => trivial) fun _ => rfl
  | listExtensions includeBlocked =>
    exact careful_plain (careful_inspecting fun _ _ _ _ => trivial) fun _ => rfl
  | listPackageTrustIndex request =>
    exact careful_plain (careful_inspecting fun _ _ _ _ => trivial) fun _ => rfl
  | packageAuthoringFlow request =>
    exact Careful.map (Careful.bind (extensionStatus_careful request.packageId)
      fun extension undecided => careful_flow undecided) fun _ refused => refused
  | remixPackage request => exact (remixPackage_careful request).map fun _ refused => refused
  | preparePackagePublication request =>
    exact (preparePackagePublication_careful request).map fun _ refused => refused
  | submitPackageRegistrySubmission request =>
    exact (submitPackageRegistrySubmission_careful request).map fun _ refused => refused
  | rollbackExtension attribution extensionId =>
    exact careful_plain (careful_ofService (mutatePackage_careful (.rollback extensionId) rfl trivial))
      fun _ => rfl
  | disableExtension attribution extensionId =>
    exact careful_plain (careful_ofService (mutatePackage_careful (.disable extensionId) rfl trivial))
      fun _ => rfl
  | enableExtension attribution extensionId =>
    exact careful_plain (careful_ofService (mutatePackage_careful (.enable extensionId) rfl trivial))
      fun _ => rfl
  | removeExtension attribution extensionId =>
    exact careful_plain (careful_ofService (mutatePackage_careful (.remove extensionId) rfl trivial))
      fun _ => rfl
  | applyBlocklist attribution entry =>
    exact careful_plain (careful_ofService (applyBlocklist_careful attribution entry)) fun _ => rfl

end Calls

section Runs

/-- No verdict is stored, in memory or on disk. -/
structure DaemonState.Clean (state : DaemonState) : Prop where
  registry : WithoutVerdict state.packages.extensionRegistry.snapshot
  store : WithoutVerdict state.packages.store.inner.extensionRegistrySnapshot
  disk : ∀ inner, state.disk = some inner → WithoutVerdict inner.extensionRegistrySnapshot

variable {durableSnapshotPath : Option String} {before after : DaemonState}

theorem DaemonState.clean_empty : (DaemonState.empty durableSnapshotPath).Clean where
  registry := withoutVerdict_empty
  store := withoutVerdict_empty
  disk := fun inner same => absurd same.symm (Option.some_ne_none inner)

private theorem persists_clean {snapshot : ExtensionRegistrySnapshot}
    {answer : Store.StoreResult Unit} (clean : before.Clean) (written : WithoutVerdict snapshot)
    (persists : Persists before (.setExtensionRegistrySnapshot snapshot) answer after.disk) :
    ∀ inner, after.disk = some inner → WithoutVerdict inner.extensionRegistrySnapshot := by
  intro inner found
  have old (same : after.disk = before.disk) : WithoutVerdict inner.extensionRegistrySnapshot :=
    clean.disk inner (same ▸ found)
  have new (same : after.disk = some { before.packages.store.inner with
      extensionRegistrySnapshot := snapshot }) :
      WithoutVerdict inner.extensionRegistrySnapshot := by
    cases same.symm.trans found
    exact written
  unfold Persists at persists
  dsimp only at persists
  split at persists
  · exact old persists
  · exact new persists
  · rcases persists with same | same
    · exact old same
    · exact new same

/-- One command that is allowed. -/
theorem DaemonState.Serves.clean {command : PackageCommand} {answer : command.Answer}
    (served : before.Serves command answer after) (clean : before.Clean)
    (allowed : Allowed command) : Fitting command answer ∧ after.Clean := by
  obtain ⟨serves, persists⟩ := served
  cases command with
  | extensionRegistry =>
    obtain ⟨same, kept⟩ := serves
    refine ⟨same ▸ clean.registry, ?_, ?_, ?_⟩
    · exact kept ▸ clean.registry
    · exact kept ▸ clean.store
    · exact fun inner found => clean.disk inner (persists ▸ found)
  | newAuditRecordId =>
    refine ⟨trivial, ?_, ?_, ?_⟩
    · exact serves ▸ clean.registry
    · exact serves ▸ clean.store
    · exact fun inner found => clean.disk inner (persists ▸ found)
  | now =>
    refine ⟨trivial, ?_, ?_, ?_⟩
    · exact serves ▸ clean.registry
    · exact serves ▸ clean.store
    · exact fun inner found => clean.disk inner (persists ▸ found)
  | setExtensionRegistrySnapshot snapshot =>
    obtain ⟨persist, written, kept⟩ := serves
    refine ⟨trivial, kept ▸ clean.registry, ?_, persists_clean clean allowed persists⟩
    rcases setExtensionRegistrySnapshot_cases before.packages.store persist snapshot with
      ⟨error, failed⟩ | succeeded
    · rw [← (Prod.mk.inj (failed.symm.trans written)).2]
      exact clean.store
    · rw [← (Prod.mk.inj (succeeded.symm.trans written)).2]
      exact allowed
  | replaceExtensionRegistry registry =>
    refine ⟨trivial, ?_, ?_, ?_⟩
    · rw [show after.packages = _ from serves]
      exact allowed
    · rw [show after.packages = _ from serves]
      exact clean.store
    · exact fun inner found => clean.disk inner (persists ▸ found)

/-- A registry that loads is valid, and repairs leave manifests alone. -/
theorem Restarts.clean (restarts : Restarts before after) (clean : before.Clean) : after.Clean := by
  cases restarts with
  | volatile path => exact DaemonState.clean_empty
  | fresh path nothing => exact DaemonState.clean_empty
  | @loaded snapshotPath inner registry path found valid loads =>
    have repaired := snapshot_of_fromSnapshot loads
    have loaded : WithoutVerdict registry.snapshot := by
      rw [repaired]
      refine ⟨?_, (clean.disk inner found).manifests⟩
      obtain ⟨_, validated, _⟩ := bind_eq_ok.mp loads
      obtain ⟨_, consistent, _⟩ := bind_eq_ok.mp validated
      exact ExtensionRegistrySnapshot.validate_eq_ok.mp consistent
    refine ⟨loaded, loaded, ?_⟩
    intro stored same
    cases same
    exact loaded

/-- A call, also one that has not ended. -/
theorem clean_of_runs {call : PackageCall} {rest : RpcProgram PackageReply} (clean : before.Clean)
    (ran : Program.Runs DaemonState.Serves (call.serve, before) (rest, after)) :
    rest.Confined Allowed Fitting (fun reply => NotInstallable reply.publicationPlan) ∧
      after.Clean := by
  have keeps : ∀ before command answer after, DaemonState.Clean before → Allowed command →
      DaemonState.Serves before command answer after → Fitting command answer ∧ after.Clean :=
    fun before command answer after clean allowed served => served.clean clean allowed
  exact call.serve_careful.confined.of_runs keeps clean ran

theorem Reachable.clean (reached : Reachable durableSnapshotPath before) : before.Clean := by
  induction reached with
  | start => exact DaemonState.clean_empty
  | call reached ran returned ih => exact (clean_of_runs ih ran).2
  | restart reached ran restarts ih => exact restarts.clean (clean_of_runs ih ran).2

/-- Whatever clients have called, and however often the daemon was restarted, no
install record and no manifest is stored as accepted or rejected, at no moment of a
call, neither in memory nor on disk. An index for discovery is empty, and a plan that
a call answers is not installable in production. -/
theorem registry_verdict_not_client_writable {now : DaemonState} {call : PackageCall}
    {rest : RpcProgram PackageReply} (reached : Reachable durableSnapshotPath before)
    (ran : Program.Runs DaemonState.Serves (call.serve, before) (rest, now)) :
    (∀ snapshot, snapshot = now.packages.extensionRegistry.snapshot ∨
        snapshot = now.packages.store.inner.extensionRegistrySnapshot ∨
        now.disk.map Store.StoreInner.extensionRegistrySnapshot = some snapshot →
      (∀ extensionId version record, snapshot.records.find extensionId version = some record →
        Undecided record.source.publication) ∧
      ∀ extensionId version manifest, snapshot.manifests.find extensionId version = some manifest →
        Undecided manifest.provenance.publication) ∧
    (∀ includeBlocked,
      listPackageTrustIndex now.packages.extensionRegistry ⟨includeBlocked, true⟩ = .ok []) ∧
    ∀ reply plan, rest.outcome? = some (.ok reply) → reply.publicationPlan = some plan →
      plan.productionInstallable = false := by
  obtain ⟨confined, clean⟩ := clean_of_runs reached.clean ran
  refine ⟨?_, trustIndex_empty clean.registry, ?_⟩
  · intro snapshot stored
    have undecided : WithoutVerdict snapshot := by
      rcases stored with rfl | rfl | onDisk
      · exact clean.registry
      · exact clean.store
      · obtain ⟨inner, found, rfl⟩ := Option.map_eq_some_iff.mp onDisk
        exact clean.disk inner found
    exact ⟨fun _ _ _ found => undecided.records found, undecided.manifests⟩
  · intro reply plan returned planned
    exact confined.outcome returned plan planned

end Runs

section Notes

/-- The snapshot file when every write that reports an error has written nothing. -/
def writtenDisk (state : DaemonState) : (command : PackageCommand) → command.Answer →
    Option (Store.StoreInner ExtensionRegistrySnapshot)
  | .setExtensionRegistrySnapshot snapshot, answer =>
    match state.packages.store.durableSnapshotPath, answer with
    | some _, .ok () => some { state.packages.store.inner with extensionRegistrySnapshot := snapshot }
    | _, _ => state.disk
  | _, _ => state.disk

theorem writtenDisk_persists (state : DaemonState) (command : PackageCommand)
    (answer : command.Answer) : Persists state command answer (writtenDisk state command answer) := by
  cases command with
  | setExtensionRegistrySnapshot snapshot =>
    unfold Persists writtenDisk
    cases state.packages.store.durableSnapshotPath with
    | none => rfl
    | some path =>
      cases answer with
      | ok _ => rfl
      | error _ => exact .inl rfl
  | _ => rfl

/-- A daemon all of whose writes succeed. -/
def daemonWrites (state : DaemonState) (command : PackageCommand) : command.Answer × DaemonState :=
  let served := writes (.new .auditRecord (.ofNat 1)) ⟨0⟩ state.packages command
  (served.1, { packages := served.2, disk := writtenDisk state command served.1 })

theorem daemonWrites_serves (state : DaemonState) (command : PackageCommand) :
    state.Serves command (daemonWrites state command).1 (daemonWrites state command).2 :=
  ⟨writes_serves _ _ _ _, writtenDisk_persists _ _ _⟩

def notesInstall : PackageCall :=
  .installExtension ⟨none, none, none⟩ ⟨notesManifest "1.0.0" 'a', false, false, false⟩

def notesFlow : PackageCall := .packageAuthoringFlow ⟨"dev.example.notes", true⟩

def notesDaemon : DaemonState := (notesInstall.serve.evaluate daemonWrites (.empty none)).2

theorem registry_verdict_not_client_writable_notes :
    listPackageTrustIndex notesDaemon.packages.extensionRegistry ⟨true, true⟩ = .ok [] ∧
    ∃ reply plan, (notesFlow.serve.evaluate daemonWrites notesDaemon).1 = .ok reply ∧
      reply.publicationPlan = some plan ∧ plan.productionInstallable = false := by
  obtain ⟨ended, ran, returned⟩ :=
    Program.runs_evaluate daemonWrites_serves notesInstall.serve (.empty none)
  have reached : Reachable none notesDaemon := .call .start ran returned
  obtain ⟨rest, looked, answered⟩ :=
    Program.runs_evaluate daemonWrites_serves notesFlow.serve notesDaemon
  have planned : ((notesFlow.serve.evaluate daemonWrites notesDaemon).1.toOption.bind
      PackageReply.publicationPlan).isSome = true := by
    decide +kernel
  obtain ⟨plan, found⟩ := Option.isSome_iff_exists.mp planned
  obtain ⟨reply, replied, shown⟩ := Option.bind_eq_some_iff.mp found
  have ok : (notesFlow.serve.evaluate daemonWrites notesDaemon).1 = .ok reply := by
    cases outcome : (notesFlow.serve.evaluate daemonWrites notesDaemon).1 with
    | error failure =>
      rw [outcome] at replied
      cases replied
    | ok value =>
      rw [outcome] at replied
      cases replied
      rfl
  have idle : Program.Runs DaemonState.Serves (notesFlow.serve, notesDaemon)
      (notesFlow.serve, notesDaemon) := .refl
  obtain ⟨_, empty, _⟩ := registry_verdict_not_client_writable reached idle
  obtain ⟨_, _, refused⟩ := registry_verdict_not_client_writable reached looked
  exact ⟨empty true, reply, plan, ok, shown, refused reply plan (ok ▸ answered) shown⟩

end Notes

end Atelia.Rpc
