import Atelia.Registry.Reload
import Atelia.Service.Packages

/-! Package calls and their audit trail. -/

namespace Atelia.Service

open Registry Outcome

/-- Between calls: the store holds the snapshot of the registry in memory, and the
snapshot can be loaded again. -/
structure PackageState.Settled (state : PackageState) : Prop where
  stored : state.store.inner.extensionRegistrySnapshot = state.extensionRegistry.snapshot
  policy : state.extensionRegistry.validationPolicy = .default
  consistent : state.extensionRegistry.Consistent
  acceptable : state.extensionRegistry.Acceptable

/-- The state after a draft has been written to the store and taken over. -/
def PackageState.install (state : PackageState) (draft : ExtensionRegistry) : PackageState where
  extensionRegistry := draft
  store := { state.store with
    inner := { state.store.inner with extensionRegistrySnapshot := draft.snapshot } }

variable {draft : ExtensionRegistry}

section OneCall

variable {α : Type} {state : PackageState} {kind : ExtensionRegistryAuditKind}
  {requestSource reason : String} {mutator : RegistryAction α}
  {auditContext : α → ExtensionRegistryAuditContext} {attachAuditRecordId : α → AuditRecordId → α}

/-- What a call has done when it returns. -/
def Done (state : PackageState) (kind : ExtensionRegistryAuditKind)
    (requestSource reason : String) (mutator : RegistryAction α)
    (auditContext : α → ExtensionRegistryAuditContext)
    (attachAuditRecordId : α → AuditRecordId → α) :
    Except ServiceError α → PackageState → Prop
  | .error _, after => after = state
  | .ok response, after => ∃ value changed id createdAt draft,
    Attempt.exec mutator state.extensionRegistry = (.ok value, changed) ∧
    Attempt.exec (ExtensionRegistry.appendAuditRecord (extensionRegistryAuditRecord id createdAt kind
      requestSource reason (auditContext value) state.extensionRegistry.snapshot changed.snapshot))
      changed = (.ok (), draft) ∧
    after = state.install draft ∧ response = attachAuditRecordId value id

theorem setExtensionRegistrySnapshot_cases (store : Store.InMemoryStore ExtensionRegistrySnapshot)
    (persistDurableSnapshot :
      String → Store.StoreInner ExtensionRegistrySnapshot → Store.StoreResult Unit)
    (snapshot : ExtensionRegistrySnapshot) :
    (∃ error, store.setExtensionRegistrySnapshot persistDurableSnapshot snapshot =
      (.error error, store)) ∨
    store.setExtensionRegistrySnapshot persistDurableSnapshot snapshot =
      (.ok (), { store with inner := { store.inner with extensionRegistrySnapshot := snapshot } }) := by
  unfold Store.InMemoryStore.setExtensionRegistrySnapshot
  split
  · exact .inl ⟨_, rfl⟩
  · rcases store.mutate_cases persistDurableSnapshot fun inner =>
      (.ok (), { inner with extensionRegistrySnapshot := snapshot }) with
      ⟨error, failed⟩ | ⟨_, draft, worked, installed⟩
    · exact .inl ⟨error, failed⟩
    · cases worked
      exact .inr installed

/-- A program that nobody disturbs. -/
structure Alone {β : Type} (program : PackageProgram β)
    (post : Except ServiceError β → PackageState → Prop) (state : PackageState) : Prop where
  meets : program.Meets Serves Eq (fun _ _ => True) post state

section Parts

variable {β : Type} {post : Except ServiceError β → PackageState → Prop}

theorem read_alone {rest : ExtensionRegistry → PackageProgram β}
    (next : Alone (rest state.extensionRegistry) post state) :
    Alone (Program.perform PackageCommand.extensionRegistry .done >>= rest) post state := by
  refine ⟨?_⟩
  intro _ unmoved registry after answered
  subst unmoved
  obtain ⟨same, kept⟩ := answered
  refine ⟨trivial, ?_⟩
  rw [same, kept]
  exact next.meets

theorem newAuditRecordId_alone {rest : AuditRecordId → PackageProgram β}
    (next : ∀ id, Alone (rest id) post state) :
    Alone (Program.perform PackageCommand.newAuditRecordId .done >>= rest) post state := by
  refine ⟨?_⟩
  intro _ unmoved id after kept
  subst unmoved
  refine ⟨trivial, ?_⟩
  rw [show after = state from kept]
  exact (next id).meets

theorem now_alone {rest : LedgerTimestamp → PackageProgram β}
    (next : ∀ moment, Alone (rest moment) post state) :
    Alone (Program.perform PackageCommand.now .done >>= rest) post state := by
  refine ⟨?_⟩
  intro _ unmoved moment after kept
  subst unmoved
  refine ⟨trivial, ?_⟩
  rw [show after = state from kept]
  exact (next moment).meets

theorem ofExcept_alone {outcome : Except ServiceError α} {value : α} {rest : α → PackageProgram β}
    (fine : outcome = .ok value) (next : Alone (rest value) post state) :
    Alone (Program.ofExcept outcome >>= rest) post state := by
  rw [fine]
  exact ⟨next.meets⟩

theorem onDraft_alone {action : RegistryAction α} {rest : α × ExtensionRegistry → PackageProgram β}
    (refused : ∀ error, post (.error error) state)
    (next : ∀ value changed, Attempt.exec action draft = (.ok value, changed) →
      Alone (rest (value, changed)) post state) :
    Alone (onDraft action draft >>= rest) post state := by
  rcases ran : Attempt.exec action draft with ⟨error | value, changed⟩
  · rw [onDraft, ran]
    exact ⟨refused _⟩
  · rw [onDraft, ran]
    exact ⟨(next value changed ran).meets⟩

/-- The snapshot of a draft is written and the draft taken over, or nothing happens. -/
theorem takeOver_alone {result : β} (refused : ∀ error, post (.error error) state)
    (installed : post (.ok result) (state.install draft)) :
    Alone (do
      let persisted ← Program.perform (.setExtensionRegistrySnapshot draft.snapshot) .done
      Program.ofExcept (Except.mapError ServiceError.store persisted)
      Program.perform (.replaceExtensionRegistry draft) .done
      return result) post state := by
  refine ⟨?_⟩
  intro _ unmoved answer after answered
  subst unmoved
  refine ⟨trivial, ?_⟩
  obtain ⟨persist, written, kept⟩ := answered
  obtain ⟨registry, store⟩ := after
  obtain rfl : registry = state.extensionRegistry := kept
  rcases setExtensionRegistrySnapshot_cases state.store persist draft.snapshot with
    ⟨error, failed⟩ | succeeded
  · obtain ⟨rfl, rfl⟩ := Prod.mk.inj (failed.symm.trans written)
    exact refused _
  · obtain ⟨rfl, rfl⟩ := Prod.mk.inj (succeeded.symm.trans written)
    intro _ unmoved _ after replaced
    subst unmoved
    refine ⟨trivial, ?_⟩
    rw [show after = state.install draft from replaced]
    exact installed

end Parts

theorem mutateExtensionRegistryWithAudit_alone
    (loads : ExtensionRegistry.fromSnapshot state.extensionRegistry.snapshot
      state.extensionRegistry.validationPolicy = .ok state.extensionRegistry) :
    Alone (mutateExtensionRegistryWithAudit kind requestSource reason mutator auditContext
        attachAuditRecordId)
      (Done state kind requestSource reason mutator auditContext attachAuditRecordId) state := by
  have refused : ∀ error, Done state kind requestSource reason mutator auditContext
      attachAuditRecordId (.error error) state := fun _ => rfl
  apply read_alone
  apply ofExcept_alone (mapError_eq_ok.mpr loads)
  apply onDraft_alone refused
  intro value changed ran
  apply newAuditRecordId_alone
  intro id
  apply now_alone
  intro createdAt
  apply onDraft_alone refused
  intro _ draft appended
  apply takeOver_alone refused
  exact ⟨value, changed, id, createdAt, draft, ran, appended, rfl, rfl⟩

end OneCall

variable {change : PackageChange}

namespace PackageChange

/-- What a change does to the registry. -/
def operation : PackageChange → RegistryOperation
  | install request | update request => .install request.manifest request.options
  | rollback extensionId => .rollback extensionId
  | disable extensionId => .disable extensionId
  | enable extensionId => .enable extensionId
  | remove extensionId => .remove extensionId
  | updatePublication extensionId publication => .updatePublication extensionId publication
  | updateRegistrySubmission extensionId registrySubmission registryIdentity =>
    .updateRegistrySubmission extensionId registrySubmission registryIdentity
  | applyBlocklist entry => .addBlocklistEntry entry

/-- The package a change is about; blocks by other keys are about none. -/
def packageId : PackageChange → Option String
  | applyBlocklist ⟨.extensionId packageId, _, _⟩ => some packageId
  | applyBlocklist ⟨.version packageId _, _, _⟩ => some packageId
  | applyBlocklist _ => none
  | change => change.operation.target

/-- The version a change is about: the one that is blocked, or the active one. -/
def versionIn (registry : ExtensionRegistry) : PackageChange → Option String
  | applyBlocklist ⟨.version _ version, _, _⟩ => some version
  | change => change.packageId.bind fun packageId => registry.activeVersions[packageId]?

/-- The install record of that version. -/
def recordIn (registry : ExtensionRegistry) (change : PackageChange) :
    Option ExtensionInstallRecord := do
  registry.records.find (← change.packageId) (← change.versionIn registry)

theorem recordIn_congr {first second : ExtensionRegistry} (records : first.records = second.records)
    (versions : first.activeVersions = second.activeVersions) (change : PackageChange) :
    change.recordIn first = change.recordIn second := by
  simp only [recordIn, versionIn, records, versions]

theorem recordIn_of_target {extensionId : String}
    (about : change.operation.target = some extensionId) (registry : ExtensionRegistry) :
    change.recordIn registry = registry.activeRecord extensionId := by
  have active : change.packageId = some extensionId ∧
      change.versionIn registry = registry.activeVersions[extensionId]? := by
    cases change with
    | applyBlocklist entry => cases about
    | _ => exact ⟨about, congrArg (Option.bind · fun id => registry.activeVersions[id]?) about⟩
  rw [recordIn, active.1, active.2]
  rfl

end PackageChange

/-- A reference in an audit record describes an install record. -/
structure Describes (reference : ExtensionRegistryAuditRecordRef)
    (install : ExtensionInstallRecord) : Prop where
  packageId : reference.packageId = install.id
  version : reference.version = install.version
  manifestDigest : reference.manifestDigest = install.manifestDigest
  artifactDigest : reference.artifactDigest = install.artifactDigest
  status : reference.status = install.status

/-- The registry has changed and the change is on record. -/
structure Recorded (change : PackageChange) (before after : ExtensionRegistry)
    (response : PackageResponse) (record : ExtensionRegistryAuditRecord) : Prop where
  appended : after.auditRecords = before.auditRecords ++ [record]
  answered : response.auditRecordId = some record.id
  packageId : record.packageId = change.packageId
  previousRecord : Option.Rel Describes record.previousRecord (change.recordIn before)
  newRecord : Option.Rel Describes record.newRecord (change.recordIn after)
  provenance : record.provenance = ((change.recordIn after).or (change.recordIn before)).map
    fun install => install.source.auditProvenance

/-- What a call has done when it returns: the change it was asked for and its audit
record, or nothing. -/
def Served (change : PackageChange) (before : PackageState) :
    Except ServiceError PackageResponse → PackageState → Prop
  | .error _, after => after = before
  | .ok response, after => ∃ answer changed record,
    Attempt.exec change.operation.perform before.extensionRegistry = (.ok answer, changed) ∧
    Change changed (.appendAuditRecord record) after.extensionRegistry ∧
    after = before.install after.extensionRegistry ∧
    Recorded change before.extensionRegistry after.extensionRegistry response record

section Requests

variable {state : PackageState}

theorem PackageState.Settled.loads (settled : state.Settled) :
    ExtensionRegistry.fromSnapshot state.extensionRegistry.snapshot
      state.extensionRegistry.validationPolicy = .ok state.extensionRegistry :=
  ExtensionRegistry.fromSnapshot_snapshot settled.consistent settled.acceptable

theorem auditRecords_of_change {before after : ExtensionRegistry} {operation : RegistryOperation}
    (change : Change before operation after)
    (other : ∀ record, operation ≠ .appendAuditRecord record) :
    after.auditRecords = before.auditRecords := by
  cases change with
  | appendAuditRecord _ _ _ => exact absurd rfl (other _)
  | _ => rfl

variable {record : ExtensionRegistryAuditRecord}

theorem appendAuditRecord_change {before after : ExtensionRegistry}
    (done : Attempt.exec (ExtensionRegistry.appendAuditRecord record) before = (.ok (), after)) :
    Change before (.appendAuditRecord record) after := by
  have performed : Attempt.exec (RegistryOperation.perform (.appendAuditRecord record)) before =
      (.ok none, after) := Attempt.exec_bind_pure_eq_ok.mpr ⟨(), done, rfl⟩
  exact RegistryOperation.change_of_perform performed

theorem describes_auditRef (install? : Option ExtensionInstallRecord) :
    Option.Rel Describes (install?.map ExtensionInstallRecord.auditRef) install? := by
  cases install? with
  | none => exact .none
  | some install => exact .some ⟨rfl, rfl, rfl, rfl, rfl⟩

/-- An operation and the audit record about it, appended right after. -/
theorem served_of_done {answer : Option ExtensionInstallRecord} {changed : ExtensionRegistry}
    {response : PackageResponse}
    (done : Attempt.exec change.operation.perform state.extensionRegistry = (.ok answer, changed))
    (appended : Attempt.exec (ExtensionRegistry.appendAuditRecord record) changed = (.ok (), draft))
    (answered : response.auditRecordId = some record.id)
    (packageId : record.packageId = change.packageId)
    (previousRecord : record.previousRecord =
      (change.recordIn state.extensionRegistry).map ExtensionInstallRecord.auditRef)
    (newRecord : record.newRecord = (change.recordIn changed).map ExtensionInstallRecord.auditRef)
    (provenance : record.provenance =
      ((change.recordIn changed).or (change.recordIn state.extensionRegistry)).map
        fun install => install.source.auditProvenance) :
    Served change state (.ok response) (state.install draft) := by
  have audit := appendAuditRecord_change appended
  have same : change.recordIn draft = change.recordIn changed := by
    cases audit with
    | appendAuditRecord _ _ _ => exact change.recordIn_congr rfl rfl
  refine ⟨answer, changed, record, done, audit, rfl, ?_, answered, packageId, ?_, ?_, ?_⟩
  · have kept : changed.auditRecords = state.extensionRegistry.auditRecords := by
      apply auditRecords_of_change (RegistryOperation.change_of_perform done)
      intro other same
      cases shape : change <;> rw [shape] at same <;> cases same
    cases audit with
    | appendAuditRecord _ _ _ => exact congrArg (· ++ [record]) kept
  · rw [previousRecord]
    exact describes_auditRef _
  · change Option.Rel Describes _ (change.recordIn draft)
    rw [newRecord, same]
    exact describes_auditRef _
  · change record.provenance = ((change.recordIn draft).or _).map _
    rw [same, provenance]

/-- The calls that answer an install record. -/
theorem mutatePackage_alone (settled : state.Settled) {kind : ExtensionRegistryAuditKind}
    {defaultReason : String} {attribution : Attribution}
    {mutator : RegistryAction ExtensionInstallRecord}
    (performs : change.operation.perform = do return some (← mutator))
    (about : change.packageId = change.operation.target) :
    Alone (PackageResponse.package <$> mutatePackage kind defaultReason attribution mutator)
      (Served change state) state := by
  refine ⟨(mutateExtensionRegistryWithAudit_alone settled.loads).meets.repackaged ?_⟩
  intro outcome after finished
  cases outcome with
  | error _ => exact finished
  | ok response =>
    obtain ⟨value, changed, id, createdAt, draft, ran, appended, rfl, rfl⟩ := finished
    obtain ⟨record, mutated, rfl⟩ := Attempt.exec_bind_pure_eq_ok.mp ran
    have done : Attempt.exec change.operation.perform state.extensionRegistry =
        (.ok (some record), changed) := by
      rw [performs]
      exact Attempt.exec_bind_pure_eq_ok.mpr ⟨record, mutated, rfl⟩
    -- the record is stored under the package the operation is about
    obtain ⟨change', stored⟩ := RegistryOperation.performed done
    obtain ⟨extensionId, version, target, found⟩ := stored record rfl
    obtain ⟨manifest, _, describes⟩ :=
      (change'.consistent settled.consistent).manifest_of_record found
    have named : change.operation.target = some record.id := by
      rw [target, describes.recordId]
    refine served_of_done done appended rfl (about.trans named).symm ?_ ?_ ?_
    · rw [PackageChange.recordIn_of_target named]
      rfl
    · rw [PackageChange.recordIn_of_target named]
      rfl
    · rw [PackageChange.recordIn_of_target named, PackageChange.recordIn_of_target named,
        Option.map_or]
      rfl

theorem applyBlocklist_alone (settled : state.Settled) {entry : BlocklistEntry}
    {attribution : Attribution} :
    Alone (PackageResponse.blocklist <$> applyBlocklist attribution entry)
      (Served (.applyBlocklist entry) state) state := by
  refine ⟨(mutateExtensionRegistryWithAudit_alone settled.loads).meets.repackaged ?_⟩
  intro outcome after finished
  cases outcome with
  | error _ => exact finished
  | ok response =>
    obtain ⟨value, changed, id, createdAt, draft, ran, appended, rfl, rfl⟩ := finished
    obtain ⟨_, mutated, rfl⟩ := Attempt.exec_bind_pure_eq_ok.mp ran
    have done : Attempt.exec (PackageChange.applyBlocklist entry).operation.perform
        state.extensionRegistry = (.ok none, changed) :=
      Attempt.exec_bind_pure_eq_ok.mpr ⟨(), mutated, rfl⟩
    obtain ⟨key, blockReason, note⟩ := entry
    refine served_of_done done appended rfl ?_ ?_ ?_ ?_
    · cases key <;> rfl
    · cases key <;> rfl
    · cases key <;> rfl
    · rw [Option.map_or]
      cases key <;> rfl

theorem PackageRequest.call_alone (request : PackageRequest) (settled : state.Settled) :
    Alone request.call (Served request.change state) state := by
  obtain ⟨change, attribution⟩ := request
  cases change with
  | applyBlocklist entry => exact applyBlocklist_alone settled
  | _ => exact mutatePackage_alone settled rfl rfl

/-- A call that has run to its end. -/
theorem served_of_runs (settled : state.Settled) {request : PackageRequest}
    {ended : PackageProgram PackageResponse} {outcome : Except ServiceError PackageResponse}
    {after : PackageState} (ran : Program.Runs Serves (request.call, state) (ended, after))
    (returned : ended.outcome? = some outcome) : Served request.change state outcome after :=
  ((request.call_alone settled).meets.of_runs ran).outcome returned

/-- A draft that an operation and its audit record have made can be taken over. -/
theorem PackageState.Settled.install (settled : state.Settled) {operation : RegistryOperation}
    {changed : ExtensionRegistry} (change : Change state.extensionRegistry operation changed)
    (audit : Change changed (.appendAuditRecord record) draft) : (state.install draft).Settled := by
  have trimmed (registry : ExtensionRegistry) (policy : registry.validationPolicy = .default) :
      Text.trim registry.validationPolicy.officialRegistryIdentity =
        registry.validationPolicy.officialRegistryIdentity := by
    rw [policy]
    decide
  have policy := change.validationPolicy_eq.trans settled.policy
  have consistent := change.consistent settled.consistent
  have acceptable := change.acceptable (trimmed _ settled.policy) settled.consistent
    settled.acceptable
  exact ⟨rfl, audit.validationPolicy_eq.trans policy, audit.consistent consistent,
    audit.acceptable (trimmed _ policy) consistent acceptable⟩

theorem PackageState.Settled.valid (settled : state.Settled) :
    state.extensionRegistry.snapshot.validateWithPolicy .default = .ok () := by
  rw [← settled.policy]
  exact ExtensionRegistry.validateWithPolicy_snapshot settled.consistent settled.acceptable

/-- A call leaves the service settled. -/
theorem Served.settled {outcome : Except ServiceError PackageResponse} {before after : PackageState}
    (served : Served change before outcome after) (settled : before.Settled) : after.Settled := by
  cases outcome with
  | error _ =>
    obtain rfl : after = before := served
    exact settled
  | ok response =>
    obtain ⟨answer, changed, record, done, audit, installed, _⟩ := served
    rw [installed]
    exact settled.install (RegistryOperation.change_of_perform done) audit

end Requests

theorem PackageState.settled_empty (durableSnapshotPath : Option String) :
    (PackageState.empty durableSnapshotPath).Settled where
  stored := rfl
  policy := rfl
  consistent := consistent_empty
  acceptable := by
    intro extensionId version manifest record found
    simp [PackageState.empty, ExtensionRegistry.new, ExtensionRegistrySnapshot.empty] at found

section Interleavings

variable {Thread : Type}

/-- One call in a history: it found and left the store with the snapshot of the registry
in memory, and has done what it was asked for, or nothing. -/
structure Audited (requests : Thread → PackageRequest)
    (entry : Finished Thread ServiceError PackageResponse PackageState) : Prop where
  found :
    entry.before.store.inner.extensionRegistrySnapshot = entry.before.extensionRegistry.snapshot
  left :
    entry.after.store.inner.extensionRegistrySnapshot = entry.after.extensionRegistry.snapshot
  served : Served (requests entry.thread).change entry.before entry.outcome entry.after

theorem serial_audited {requests : Thread → PackageRequest} {start finish : PackageState}
    {history : List (Finished Thread ServiceError PackageResponse PackageState)}
    (serial : Mutex.Serial (fun thread => (requests thread).call) Serves start history finish)
    (settled : start.Settled) : finish.Settled ∧ ∀ entry ∈ history, Audited requests entry := by
  apply serial.induct settled
  intro thread before ended outcome after settled ran returned
  have served := served_of_runs settled ran returned
  exact ⟨served.settled settled, settled.stored, (served.settled settled).stored, served⟩

/-- However package calls interleave, they behave as if they had run one after the
other: every call that has returned left the store with the snapshot of the registry
in memory, has made its change and appended exactly the audit record of it, or has
failed and changed nothing; and whenever no call holds the lock, the state is the one that the
last of them left behind. -/
theorem package_calls_audited [DecidableEq Thread] (durableSnapshotPath : Option String)
    (requests : Thread → PackageRequest)
    (pool : Mutex.LockedPool Thread PackageCommand PackageCommand.Answer ServiceError PackageResponse
      PackageState)
    (run : Mutex.Run (fun thread => (requests thread).call) Serves
      (Pool.fresh ⟨none, .empty durableSnapshotPath⟩) pool) :
    ∃ history latest, Mutex.Serialised (fun thread => (requests thread).call) Serves
        (.empty durableSnapshotPath) pool history latest ∧
      latest.store.inner.extensionRegistrySnapshot = latest.extensionRegistry.snapshot ∧
      ∀ entry ∈ history, Audited requests entry := by
  obtain ⟨history, latest, _, serialised⟩ := (Mutex.Serialised.fresh _).run run
  obtain ⟨settled, audited⟩ :=
    serial_audited serialised.serial (PackageState.settled_empty durableSnapshotPath)
  exact ⟨history, latest, serialised, settled.stored, audited⟩

end Interleavings

/-- An environment in which every write succeeds. -/
def writes (id : AuditRecordId) (createdAt : LedgerTimestamp) (state : PackageState) :
    (command : PackageCommand) → command.Answer × PackageState
  | .extensionRegistry => (state.extensionRegistry, state)
  | .newAuditRecordId => (id, state)
  | .now => (createdAt, state)
  | .setExtensionRegistrySnapshot snapshot =>
    let (answer, store) := state.store.setExtensionRegistrySnapshot (fun _ _ => .ok ()) snapshot
    (answer, { state with store })
  | .replaceExtensionRegistry registry => ((), { state with extensionRegistry := registry })

theorem writes_serves (id : AuditRecordId) (createdAt : LedgerTimestamp) (state : PackageState)
    (command : PackageCommand) :
    Serves state command (writes id createdAt state command).1 (writes id createdAt state command).2 := by
  cases command with
  | extensionRegistry => exact ⟨rfl, rfl⟩
  | newAuditRecordId => rfl
  | now => rfl
  | setExtensionRegistrySnapshot snapshot => exact ⟨fun _ _ => .ok (), rfl, rfl⟩
  | replaceExtensionRegistry registry => rfl

section Notes

/-- A package is installed, its version is blocked, and a package nobody knows is rolled
back. -/
inductive NotesCall where
  | install | block | rollback
  deriving DecidableEq

def notesRequests : NotesCall → PackageRequest
  | .install => ⟨.install ⟨notesManifest "1.0.0" 'a', false, false, false⟩, ⟨none, some " cli ", none⟩⟩
  | .block => ⟨.applyBlocklist ⟨.version "dev.example.notes" "1.0.0", .malware, none⟩, ⟨none, none, none⟩⟩
  | .rollback => ⟨.rollback "dev.example.other", ⟨none, none, none⟩⟩

/-- The answer to a request, with the number of its audit record. -/
def evaluated (number : Nat) (request : PackageRequest) (state : PackageState) :
    Except ServiceError PackageResponse × PackageState :=
  request.call.evaluate (writes (.new .auditRecord (.ofNat number)) ⟨0⟩) state

private def notesInstalled := evaluated 1 (notesRequests .install) (.empty none)
private def notesBlocked := evaluated 2 (notesRequests .block) notesInstalled.2
private def notesRefused := evaluated 3 (notesRequests .rollback) notesBlocked.2

private theorem notes_evaluated : notesInstalled.1.isOk = true ∧ notesBlocked.1.isOk = true ∧
    notesRefused.1.isOk = false ∧
    (notesRefused.2.extensionRegistry.auditRecords.getLast?.map fun record =>
      (record.previousRecord.map (·.version), record.newRecord.map (·.version))) =
        some (some "1.0.0", some "1.0.0") := by
  decide +kernel

private abbrev NotesPool := Mutex.LockedPool NotesCall PackageCommand PackageCommand.Answer
  ServiceError PackageResponse PackageState

private theorem notes_called (number : Nat) (thread : NotesCall) {pool : NotesPool}
    {before : PackageState} (waiting : pool.activity thread = .waiting)
    (free : pool.state = ⟨none, before⟩) :
    ∃ later, Mutex.Run (fun thread => (notesRequests thread).call) Serves pool later ∧
      later.state = ⟨none, (evaluated number (notesRequests thread) before).2⟩ ∧
      later.outcome? thread = some (evaluated number (notesRequests thread) before).1 ∧
      ∀ other, other ≠ thread → later.activity other = pool.activity other :=
  Mutex.Run.evaluate (writes_serves _ _) waiting free

private theorem content_of_state {locked : Locked NotesCall PackageState}
    {holder : Option NotesCall} {state : PackageState} (same : locked = ⟨holder, state⟩) :
    locked.content = state := by
  rw [same]

theorem package_calls_audited_notes :
    ∃ (pool : Mutex.LockedPool NotesCall PackageCommand PackageCommand.Answer ServiceError
        PackageResponse PackageState)
      (history : List (Finished NotesCall ServiceError PackageResponse PackageState))
      (latest : PackageState),
      (pool.outcome? .install).map Except.isOk = some true ∧
      (pool.outcome? .block).map Except.isOk = some true ∧
      (pool.outcome? .rollback).map Except.isOk = some false ∧
      (latest.extensionRegistry.auditRecords.getLast?.map fun record =>
        (record.previousRecord.map (·.version), record.newRecord.map (·.version))) =
          some (some "1.0.0", some "1.0.0") ∧
      Mutex.Serialised (fun thread => (notesRequests thread).call) Serves (.empty none) pool history
        latest ∧
      latest.store.inner.extensionRegistrySnapshot = latest.extensionRegistry.snapshot ∧
      ∀ entry ∈ history, Audited notesRequests entry := by
  obtain ⟨installed, blocked, refused, mentioned⟩ := notes_evaluated
  have fresh (thread : NotesCall) :
      (Pool.fresh ⟨none, .empty none⟩ : NotesPool).activity thread = .waiting := rfl
  obtain ⟨first, run, free, answer, others⟩ := notes_called 1 .install (fresh .install) rfl
  obtain ⟨second, run', free', answer', others'⟩ :=
    notes_called 2 .block (others .block (by decide)) free
  obtain ⟨third, run'', free'', answer'', others''⟩ := notes_called 3 .rollback
    ((others' .rollback (by decide)).trans (others .rollback (by decide))) free'
  obtain ⟨history, latest, serialised, facts⟩ :=
    package_calls_audited none notesRequests third ((run.trans run').trans run'')
  have last : latest = notesRefused.2 :=
    (serialised.free (by rw [free''])).symm.trans (content_of_state free'')
  refine ⟨third, history, latest, ?_, ?_, ?_, ?_, serialised, facts⟩
  · rw [Pool.outcome?, others'' _ (by decide), others' _ (by decide), ← Pool.outcome?, answer]
    exact congrArg some installed
  · rw [Pool.outcome?, others'' _ (by decide), ← Pool.outcome?, answer']
    exact congrArg some blocked
  · rw [answer'']
    exact congrArg some refused
  · rw [last]
    exact mentioned

end Notes

end Atelia.Service
