import Atelia.Runtime.Protocol

/-! The program `runToolJobWithFinalizer` follows the protocol. -/

namespace Atelia.Runtime

open Store

variable {Call : Type} [DecidableEq Call] {session : Session Call} {repository : RepositoryRecord}
  {phase next : Phase} {world later : World Call}

section Commands

section Reached

variable (reached : session.At repository phase world)
include reached

theorem Session.At.others (moved : World.Others session.call world later) :
    session.At repository phase later where
  reachable := reached.reachable.trans moved.run
  stored := (Run.extends reached.reachable moved.run).repositories.lookup reached.stored
  path := moved.own ▸ reached.path

theorem Session.At.same (ledger : later.ledger = world.ledger)
    (own : later.own session.call = world.own session.call) :
    session.At repository phase later where
  reachable := ledger ▸ reached.reachable
  stored := ledger ▸ reached.stored
  path := own ▸ reached.path

theorem Session.At.committed {operation : StoreOperation} {response : operation.Response}
    {ledger : InMemoryInner} (answered : operation.mutation world.ledger = .ok (response, ledger))
    (taken : Next session repository phase (.committed operation) next) :
    session.At repository next (world.commit session.call operation ledger) := by
  have step := StoreOperation.step_of_mutation answered
  have grown := Run.extends reached.reachable (.single step)
  refine ⟨reached.reachable.tail step, grown.repositories.lookup reached.stored, ?_⟩
  rw [World.own_commit]
  exact .step reached.path taken

theorem Session.At.performed {effect : Effect} (taken : Next session repository phase effect next) :
    session.At repository next (world.perform session.call [effect]) := by
  refine ⟨reached.reachable, reached.stored, ?_⟩
  rw [World.own_perform]
  exact .step reached.path taken

end Reached

theorem Session.At.proceeds (reached : session.At repository phase later)
    {command : RuntimeCommand} {answer : command.Answer}
    (served : Serves session.call world command answer later) :
    session.Proceeds world later :=
  ⟨served.moves, .inr ⟨repository, phase, reached⟩⟩

theorem now_follows (reached : session.At repository phase world) :
    session.Follows now (fun _ => session.At repository phase) world := by
  intro later moved moment after served
  have arrived : session.At repository phase after := by
    obtain rfl : after = _ := served
    exact (reached.others moved).same rfl rfl
  exact ⟨arrived.proceeds served, arrived⟩

theorem newUuid_follows (reached : session.At repository phase world) :
    session.Follows newUuid (fun _ => session.At repository phase) world := by
  intro later moved uuid after served
  have arrived : session.At repository phase after := by
    obtain rfl : after = _ := served
    exact (reached.others moved).same rfl rfl
  exact ⟨arrived.proceeds served, arrived⟩

theorem newJobEvent_follows (reached : session.At repository phase world)
    (subject : EventSubject) (kind : JobEventKind) (severity : EventSeverity)
    (publicMessage : String) (refs : EventRefs) :
    session.Follows (newJobEvent subject kind severity publicMessage refs)
      (fun event world => session.At repository phase world ∧
        ∃ uuid createdAt, event = jobEvent uuid createdAt subject kind severity publicMessage refs)
      world := by
  refine (newUuid_follows reached).andThen fun uuid world reached => ?_
  refine (now_follows reached).andThen fun createdAt world reached => ?_
  exact ⟨reached, uuid, createdAt, rfl⟩

/-- A step of the protocol that the store has answered. -/
structure Committed (session : Session Call) (repository : RepositoryRecord) (next : Phase)
    (operation : StoreOperation) (response : operation.Response) (world : World Call) : Prop where
  reached : session.At repository next world
  answered : ∃ before, Reachable before ∧ operation.mutation before = .ok (response, world.ledger)

theorem store_follows (reached : session.At repository phase world) {operation : StoreOperation}
    (taken : Next session repository phase (.committed operation) next) :
    session.Follows (store operation) (Committed session repository next operation) world := by
  intro later moved answer after served
  have current := reached.others moved
  cases answer with
  | ok response =>
    obtain ⟨ledger, answered, rfl⟩ := id served
    have arrived := current.committed answered taken
    exact ⟨arrived.proceeds served, arrived, later.ledger, current.reachable, answered⟩
  | error error =>
    obtain ⟨rfl, _⟩ := id served
    exact ⟨current.proceeds served, trivial⟩

theorem ofExcept_follows {α : Type} {outcome : Except RuntimeError α}
    {holds : α → World Call → Prop} (ended : ∀ value, outcome = .ok value → holds value world) :
    session.Follows (.ofExcept outcome) holds world := by
  cases outcome with
  | ok value => exact ended value rfl
  | error error => exact trivial

theorem transitionStatus_follows (reached : session.At repository phase world)
    (job : JobRecord) (status : JobStatus) (moment : LedgerTimestamp) :
    session.Follows (transitionStatus job status moment)
      (fun moved world => session.At repository phase world ∧
        moved = job.withStatus status moment) world := by
  refine ofExcept_follows fun moved accepted => ⟨reached, ?_⟩
  cases transition : job.transitionStatus status moment with
  | ok value =>
    obtain ⟨_, _, rfl⟩ := JobRecord.transitionStatus_eq_ok.mp transition
    rw [transition] at accepted
    exact (Except.ok.inj accepted).symm
  | error error =>
    rw [transition] at accepted
    cases accepted

end Commands

section Stages

/-- The runtime's own copy of the job agrees with the phase. -/
structure Session.Holds (session : Session Call) (repository : RepositoryRecord)
    (phase : JobId → Phase) (status : JobStatus) (progress : Progress) (world : World Call) :
    Prop where
  reached : session.At repository (phase progress.job.id) world
  status : progress.job.status = status

variable {progress : Progress} {policyDecision : PolicyDecision} {invocation : ToolInvocation}

theorem submitJob_follows (reached : session.At repository .fresh world) :
    session.Follows (submitJob session.request) (session.Holds repository .submitted .queued)
      world := by
  refine (now_follows reached).andThen fun createdAt world reached => ?_
  refine (newUuid_follows reached).andThen fun uuid world reached => ?_
  refine (newJobEvent_follows reached _ _ _ _ _).andThen fun event world ⟨reached, made⟩ => ?_
  obtain ⟨eventUuid, eventTime, rfl⟩ := made
  refine (store_follows reached (.submit rfl)).andThen fun event world committed => ?_
  exact ⟨committed.reached, rfl⟩

theorem decidePolicy_follows (held : session.Holds repository .submitted .queued progress world) :
    session.Follows (decidePolicy (policyInput session.request session.tool
        (normalizedRequestedCapability session.tool.requestedCapability) repository) progress)
      (fun decided => session.Holds repository (.decided · decided.1) .queued decided.2) world := by
  refine (newUuid_follows held.reached).andThen fun uuid world reached => ?_
  refine (now_follows reached).andThen fun createdAt world reached => ?_
  refine (store_follows reached (.evaluate rfl)).andThen fun _ world evaluated => ?_
  refine (newJobEvent_follows evaluated.reached _ _ _ _ _).andThen fun event world made => ?_
  obtain ⟨reached, eventUuid, eventTime, rfl⟩ := made
  refine (store_follows reached (by exact .decide rfl held.status rfl)).andThen
    fun event world decided => ?_
  exact ⟨decided.reached, held.status⟩

/-- A status change is one step of the protocol. -/
theorem changeStatus_follows (reached : session.At repository phase world) (status : JobStatus)
    (severity : EventSeverity) (publicMessage : String) (refs : JobRecord → EventRefs)
    (taken : ∀ record event, record.id = progress.job.id → record.status = status →
      event.kind = .jobStatusChanged progress.job.status status →
      Next session repository phase (.committed (.appendJobEventAndUpdateJob record event)) next) :
    session.Follows (changeStatus progress status severity publicMessage refs)
      (fun moved world => session.At repository next world ∧ moved.job.id = progress.job.id ∧
        moved.job.status = status) world := by
  refine (now_follows reached).andThen fun moment world reached => ?_
  refine (transitionStatus_follows reached _ _ _).andThen fun job world ⟨reached, moved⟩ => ?_
  subst moved
  refine (newJobEvent_follows reached _ _ _ _ _).andThen fun event world made => ?_
  obtain ⟨reached, eventUuid, eventTime, rfl⟩ := made
  refine (store_follows reached (by exact taken _ _ rfl rfl rfl)).andThen
    fun event world committed => ?_
  exact ⟨committed.reached, rfl, rfl⟩

theorem startJob_follows (permitted : Policy.permits policyDecision.outcome)
    (held : session.Holds repository (.decided · policyDecision) .queued progress world) :
    session.Follows (startJob policyDecision progress)
      (session.Holds repository (.started · policyDecision) .running) world := by
  have started := changeStatus_follows held.reached .running .info "job running"
    (refsForPolicy · policyDecision)
    fun record event id status kind => .start permitted id status (held.status ▸ kind)
  refine started.mono fun outcome world moved => ?_
  cases outcome with
  | ok progress =>
    obtain ⟨reached, id, status⟩ := moved
    exact ⟨id ▸ reached, status⟩
  | error error => exact trivial

theorem invokeTool_follows
    (held : session.Holds repository (.started · policyDecision) .running progress world)
    (capability : String) :
    session.Follows (invokeTool session.request session.tool capability policyDecision progress)
      (fun invoked => session.Holds repository (.invoked · policyDecision invoked.1) .running
        invoked.2) world := by
  refine (newUuid_follows held.reached).andThen fun uuid world reached => ?_
  refine (now_follows reached).andThen fun createdAt world reached => ?_
  refine (store_follows reached (.record rfl rfl)).andThen fun _ world recorded => ?_
  refine (newJobEvent_follows recorded.reached _ _ _ _ _).andThen fun event world made => ?_
  obtain ⟨reached, eventUuid, eventTime, rfl⟩ := made
  refine (store_follows reached (.invoke rfl held.status rfl)).andThen fun event world invoked => ?_
  exact ⟨invoked.reached, held.status⟩

theorem execute_follows {job : JobId}
    (reached : session.At repository (.invoked job policyDecision invocation) world) :
    session.Follows (execute invocation session.request) (fun result =>
      session.At repository (.executed job policyDecision invocation result)) world := by
  intro later moved result after served
  have arrived : session.At repository (.executed job policyDecision invocation result) after := by
    obtain rfl : after = _ := served
    exact (reached.others moved).performed (.execute result)
  exact ⟨arrived.proceeds served, arrived⟩

theorem failJob_follows {result : ToolResult} {α : Type} {holds : α → World Call → Prop}
    (reached : session.At repository
      (.executed progress.job.id policyDecision invocation result) world)
    (running : progress.job.status = .running) (failure : Failure) :
    session.Follows (failJob policyDecision invocation progress failure) holds world := by
  have failed := changeStatus_follows reached .failed .error failure.1
    (fun _ => refsForInvocation progress.job policyDecision invocation)
    fun record event id status kind => .fail id status (running ▸ kind)
  exact failed.andThen fun _ _ _ => trivial

end Stages

section Spillover

variable {job : JobId} {policyDecision : PolicyDecision} {invocation : ToolInvocation}
  {result : ToolResult}

theorem Session.At.recordArtifact {α : Type}
    (reached : session.At repository (.executed job policyDecision invocation result) world)
    (written : α → List Effect) (answer : ArtifactResult α)
    (noted : ∀ value, written value = [] ∨ ∃ outputRef, written value = [.artifactWritten outputRef]) :
    session.At repository (.executed job policyDecision invocation result)
      (world.recordArtifact session.call written answer) := by
  cases answer with
  | error error => exact reached.performed (.artifact rfl)
  | ok value =>
    rcases noted value with none | ⟨outputRef, one⟩
    · refine reached.same rfl ?_
      simp [World.recordArtifact, none]
    · simp only [World.recordArtifact, one]
      exact reached.performed (.artifact rfl)

theorem rollbackArtifactWrites_follows (config : ArtifactStoreConfig) (scope : String)
    (outputRefs : List OutputRef) (reached : session.At repository phase world) :
    session.Follows (rollbackArtifactWrites config scope outputRefs)
      (fun _ => session.At repository phase) world := by
  induction outputRefs generalizing world with
  | nil => exact reached
  | cons outputRef rest ih =>
    intro later moved _ after served
    have current := reached.others moved
    obtain rfl : after = later := id served
    refine ⟨current.proceeds served, ?_⟩
    intro last moved' _ after served
    have current := current.others moved'
    obtain rfl : after = last := id served
    exact ⟨current.proceeds served, ih current⟩

section Executed

variable (reached : session.At repository (.executed job policyDecision invocation result) world)
include reached

theorem spillField_follows (config : ArtifactStoreConfig) (scope : String)
    (options : ToolResultSpilloverOptions) (label : String) (planned : List PlannedSpill)
    (index : Nat) (text : String) :
    session.Follows (spillField config scope options label planned index text)
      (fun _ => session.At repository (.executed job policyDecision invocation result)) world := by
  intro later moved answer after served
  have written := (reached.others moved).recordArtifact
    (fun outputRef => [.artifactWritten outputRef]) answer fun outputRef => .inr ⟨outputRef, rfl⟩
  obtain rfl : after = _ := id served
  refine ⟨written.proceeds served, ?_⟩
  cases answer with
  | error error =>
    exact (rollbackArtifactWrites_follows config scope _ written).andThen fun _ _ reached => reached
  | ok outputRef =>
    intro last moved answer after served
    have updated := (written.others moved).recordArtifact (fun _ => []) answer fun _ => .inl rfl
    obtain rfl : after = _ := id served
    refine ⟨updated.proceeds served, ?_⟩
    cases answer with
    | error error =>
      exact (rollbackArtifactWrites_follows config scope _ updated).andThen
        fun _ _ reached => reached
    | ok _ => exact updated

theorem planSpills_follows (config : ArtifactStoreConfig) (scope : String)
    (options : ToolResultSpilloverOptions) (toolId : String) (planned : List PlannedSpill)
    (index : Nat) (fields : List ToolResultField) :
    session.Follows (planSpills config scope options toolId planned index fields)
      (fun _ => session.At repository (.executed job policyDecision invocation result)) world := by
  induction fields generalizing planned index world with
  | nil => exact reached
  | cons field rest ih =>
    unfold planSpills
    split
    · exact ih reached planned (index + 1)
    · refine (spillField_follows reached _ _ _ _ _ _ _).andThen fun spilled world reached => ?_
      cases spilled with
      | error error => exact reached
      | ok spill => exact ih reached _ _

/-- What the output policy makes of a result names the same invocation. -/
def SameInvocation (result : ToolResult) : Except Failure (ToolResult × Bool) → Prop
  | .ok (changed, _) => changed.invocationId = result.invocationId
  | .error _ => True

theorem spillResult_follows (spillover : RuntimeArtifactSpillover) :
    session.Follows (spillResult repository spillover result)
      (fun outcome world =>
        session.At repository (.executed job policyDecision invocation result) world ∧
          SameInvocation result outcome) world := by
  have spilled : session.Follows (spillLargeToolResultFields spillover.storeConfig
      repository.id.text spillover.options result)
      (fun outcome world =>
        session.At repository (.executed job policyDecision invocation result) world ∧
          ∀ changed, outcome = .ok (some changed) → changed.invocationId = result.invocationId)
      world := by
    unfold spillLargeToolResultFields
    split
    · exact ⟨reached, by simp⟩
    · refine (planSpills_follows reached _ _ _ _ _ _ _).andThen fun planned world reached => ?_
      cases planned with
      | error error => exact ⟨reached, by simp⟩
      | ok planned =>
        dsimp only
        split
        · exact ⟨reached, by simp⟩
        · refine ⟨reached, fun changed same => ?_⟩
          cases same
          rfl
  refine spilled.andThen fun outcome world ⟨reached, same⟩ => ?_
  match outcome with
  | .ok (some changed) => exact ⟨reached, same changed rfl⟩
  | .ok none => exact ⟨reached, rfl⟩
  | .error error => exact ⟨reached, trivial⟩

end Executed

theorem truncateWithMetadata_invocationId (result : ToolResult) (maxInlineBytes : Nat) :
    (truncateWithMetadata result maxInlineBytes).1.invocationId = result.invocationId := by
  unfold truncateWithMetadata truncateOversizedToolResultFields
  dsimp only
  split
  · rfl
  · rename_i truncated report found
    split at found
    · cases found
    · cases found
      rfl

theorem applyOversizePolicy_follows
    (reached : session.At repository (.executed job policyDecision invocation result) world) :
    session.Follows (applyOversizePolicy session.request repository result)
      (fun outcome world =>
        session.At repository (.executed job policyDecision invocation result) world ∧
          SameInvocation result outcome) world := by
  unfold applyOversizePolicy
  split
  · exact spillResult_follows reached _
  · split
    · intro later moved storeConfig after served
      have current := reached.others moved
      obtain rfl : after = later := id served
      exact ⟨current.proceeds served, spillResult_follows current _⟩
    · refine ⟨reached, ?_⟩
      cases rejectOversize session.request result with
      | ok _ => exact rfl
      | error failure => exact trivial
    · exact ⟨reached, truncateWithMetadata_invocationId _ _⟩

end Spillover

section Completion

variable {progress : Progress} {policyDecision : PolicyDecision} {invocation : ToolInvocation}
  {result : ToolResult}

theorem persistEvents_append (events : List JobEvent) (resultEvent auditEvent terminalEvent
    resultEvent' auditEvent' terminalEvent' : JobEvent) :
    persistEvents (events ++ [resultEvent, auditEvent, terminalEvent]) resultEvent' auditEvent'
      terminalEvent' = events ++ [resultEvent', auditEvent', terminalEvent'] := by
  simp [persistEvents]

theorem patchReceiptEvents_append (events : List JobEvent) (resultEvent auditEvent terminalEvent
    resultEvent' auditEvent' terminalEvent' : JobEvent) :
    patchReceiptEvents (events ++ [resultEvent, auditEvent, terminalEvent]) resultEvent' auditEvent'
      terminalEvent' = events ++ [resultEvent', auditEvent', terminalEvent'] := by
  simp [patchReceiptEvents, replaceLast, List.dropLast_append_of_ne_nil]

/-- A submission with a terminal request is stored with the committed job and events. -/
theorem terminal_submission_stored {terminal : ToolResultAuditTerminalRequest}
    {before after : InMemoryInner} {stored : JobEvent × JobEvent × JobEvent}
    (ran : recordToolResultAuditTerminalWithSubmitJobIdempotency terminal before =
      .ok (stored, after))
    {key : String} {submission : SubmitJobIdempotencyRecord}
    (bound : terminal.idempotency = some (key, submission)) :
    stored.2.2.id = terminal.terminalEvent.id ∧
    ∃ final, terminalRecord terminal.record terminal.toolResult.status terminal.terminalEvent =
        .ok final ∧
      after.idempotentSubmitJobs[key]? = some (committedTerminalSubmission submission final stored) := by
  obtain ⟨final, accepted, rfl, inserted, _⟩ := recordToolResultAuditTerminal_eq_ok.mp ran
  refine ⟨rfl, final, accepted.transition, ?_⟩
  simp only [insertTerminalReceipt, bound] at inserted
  obtain ⟨_, ⟨present, rfl⟩ | ⟨_, rfl⟩⟩ := insertSubmitJobIdempotencyLocked_eq_ok.mp inserted
  · exact present
  · exact Table.lookup_insert_same _ _ _

/-- The receipt of a succeeded job is stored as it is returned, when the finalizer
submits it under a key. -/
def Session.Kept (session : Session Call) (receipt : RuntimeJobReceipt) (ledger : InMemoryInner) :
    Prop :=
  ∀ finalizer key signature, session.finalizer = some finalizer →
    (∀ draft, finalizer draft = some (key, ⟨signature, draft⟩)) →
    receipt.job.status = .succeeded → ledger.idempotentSubmitJobs[key]? = some ⟨signature, receipt⟩

/-- What a returned receipt says of the run. -/
inductive Session.Returned (session : Session Call) (repository : RepositoryRecord)
    (receipt : RuntimeJobReceipt) (world : World Call) : Prop where
  | stopped (reached : session.At repository (.stopped receipt.job.id) world)
      (status : receipt.job.status = .blocked)
  | completed {terminal : ToolResultAuditTerminalRequest}
      (reached : session.At repository (.completed receipt.job.id terminal) world)
      (status : receipt.job.status = terminalStatus terminal.toolResult.status)
      (kept : session.Kept receipt world.ledger)

theorem rerender_follows (held : session.At repository
      (.executed progress.job.id policyDecision invocation result) world)
    (running : progress.job.status = .running) (rendered : RenderedToolOutput)
    (output : ToolResult) (changed : Bool) :
    session.Follows (rerender session.json session.request policyDecision invocation progress rendered
      output changed) (fun _ => session.At repository
        (.executed progress.job.id policyDecision invocation result)) world := by
  unfold rerender
  split
  · exact held
  · exact failJob_follows held running _

/-- The job as the last commit leaves it, before it names its last event. -/
def Closing.job (closing : Closing) (progress : Progress) : JobRecord :=
  (closing.pending progress).job.withStatus (terminalStatus closing.result.status)
    closing.terminalEvent.createdAt

/-- The receipt that the last commit stores is the one that the run returns. -/
theorem Closing.stored_receipt {closing : Closing} {before after : InMemoryInner}
    {rendered : RenderedToolOutput} {stored : JobEvent × JobEvent × JobEvent} {key signature : String}
    {draft : RuntimeJobReceipt}
    (drafted : draft = closing.receipt policyDecision invocation progress rendered
      (closing.job progress))
    (ran : recordToolResultAuditTerminalWithSubmitJobIdempotency
      (closing.request progress (some (key, ⟨signature, draft⟩))) before = .ok (stored, after)) :
    after.idempotentSubmitJobs[key]? = some ⟨signature, { draft with
      events := persistEvents draft.events stored.1 stored.2.1 stored.2.2 }⟩ := by
  obtain ⟨sameId, final, transition, bound⟩ := terminal_submission_stored ran rfl
  have moved : progress.job.withStatus (terminalStatus closing.result.status)
      closing.terminalEvent.createdAt = final := terminalRecord_withStatus transition
  have patched : patchReceiptEvents draft.events stored.1 stored.2.1 stored.2.2 =
      persistEvents draft.events stored.1 stored.2.1 stored.2.2 := by
    rw [drafted]
    simp only [Closing.receipt, Closing.pending, pendingProgress, List.append_assoc,
      List.cons_append, List.nil_append, patchReceiptEvents_append, persistEvents_append]
  have job : { final with latestEventId := some stored.2.2.id } = draft.job := by
    rw [drafted, sameId, ← moved]
    rfl
  rw [bound, committedTerminalSubmission, patched, job]

/-- What the prepared records and events say. -/
structure Closing.Of (closing : Closing) (invocation : ToolInvocation) (output : ToolResult) :
    Prop where
  result : closing.result = output
  resultEvent : closing.resultEvent.kind = .toolResultRecorded output.status
  audit : closing.audit.toolInvocationId = some invocation.id
  auditEvent : closing.auditEvent.kind = .auditRecorded

theorem prepareClosing_follows (reached : session.At repository phase world) (output : ToolResult) :
    session.Follows (prepareClosing session.request policyDecision invocation progress output)
      (fun closing world => session.At repository phase world ∧ closing.Of invocation output)
      world := by
  refine (newJobEvent_follows reached _ _ _ _ _).andThen fun event world made => ?_
  obtain ⟨reached, resultUuid, resultTime, rfl⟩ := made
  refine (newUuid_follows reached).andThen fun uuid world reached => ?_
  refine (now_follows reached).andThen fun createdAt world reached => ?_
  refine (newJobEvent_follows reached _ _ _ _ _).andThen fun event world made => ?_
  obtain ⟨reached, auditUuid, auditTime, rfl⟩ := made
  refine (newJobEvent_follows reached _ _ _ _ _).andThen fun event world made => ?_
  obtain ⟨reached, terminalUuid, terminalTime, rfl⟩ := made
  exact ⟨reached, rfl, rfl, rfl, rfl⟩

section Rendered

variable
  (held : session.Holds repository (.executed · policyDecision invocation result) .running progress world)
  (rendered : RenderedToolOutput)
include held rendered

theorem commitCompleted_follows {closing : Closing} {output : ToolResult}
    (made : closing.Of invocation output) (same : output.invocationId = invocation.id) :
    session.Follows (commitCompleted session.finalizer closing progress
      (closing.receipt policyDecision invocation progress rendered (closing.job progress)))
      (session.Returned repository) world := by
  obtain ⟨rfl, resultEvent, audit, auditEvent⟩ := made
  refine (store_follows held.reached (by
    exact .complete ⟨rfl, held.status, same, audit, ⟨_, resultEvent⟩, auditEvent, _, rfl, rfl,
      rfl⟩)).andThen fun stored world committed => ?_
  refine .completed committed.reached rfl ?_
  intro finalizer key signature submits keeps succeeded
  obtain ⟨before, _, answered⟩ := committed.answered
  have bound : finalize session.finalizer (closing.receipt policyDecision invocation progress
      rendered (closing.job progress)) = some (key, ⟨signature, closing.receipt policyDecision
        invocation progress rendered (closing.job progress)⟩) := by
    rw [finalize, if_pos succeeded, submits]
    exact keeps _
  rw [bound] at answered
  exact Closing.stored_receipt rfl answered

theorem completeJob_follows {output : ToolResult} (changed : Bool)
    (same : output.invocationId = invocation.id) :
    session.Follows (completeJob session.json session.request session.finalizer policyDecision
      invocation progress rendered output changed) (session.Returned repository) world := by
  refine (prepareClosing_follows held.reached output).andThen fun closing world prepared => ?_
  obtain ⟨reached, made⟩ := prepared
  refine (rerender_follows (by exact reached) (by exact held.status) _ _ _).andThen
    fun rendered world reached => ?_
  refine (transitionStatus_follows reached _ _ _).andThen fun job world ⟨reached, moved⟩ => ?_
  obtain rfl := made.result
  subst moved
  have held : session.Holds repository (.executed · policyDecision invocation result) .running
    progress world := ⟨reached, held.status⟩
  exact commitCompleted_follows held rendered made same

end Rendered

theorem stopBeforeExecution_follows
    (held : session.Holds repository (.decided · policyDecision) .queued progress world) :
    session.Follows (stopBeforeExecution session.finalizer policyDecision progress)
      (session.Returned repository) world := by
  refine (now_follows held.reached).andThen fun moment world reached => ?_
  refine (transitionStatus_follows reached _ _ _).andThen fun job world ⟨reached, moved⟩ => ?_
  subst moved
  refine (newJobEvent_follows reached _ _ _ _ _).andThen fun event world made => ?_
  obtain ⟨reached, uuid, createdAt, rfl⟩ := made
  refine (store_follows reached (by exact .stop rfl rfl (held.status ▸ rfl))).andThen
    fun event world committed => ?_
  exact .stopped committed.reached rfl

omit [DecidableEq Call] in
theorem checkResult_invocation {rendered : RenderedToolOutput}
    (checked : checkResult session.json session.request invocation result = .ok rendered) :
    result.invocationId = invocation.id := by
  unfold checkResult at checked
  cases valid : validateRuntimeToolResult invocation result with
  | error error =>
    rw [valid] at checked
    cases checked
  | ok _ =>
    simp only [validateRuntimeToolResult, Outcome.bind_eq_ok, Outcome.exists_unit,
      Outcome.reject_eq_ok, not_not] at valid
    exact valid.1

theorem concludeJob_follows (held : session.Holds repository
      (.executed · policyDecision invocation result) .running progress world) :
    session.Follows (concludeJob session.json session.request session.finalizer repository
      policyDecision invocation progress result) (session.Returned repository) world := by
  unfold concludeJob
  cases checked : checkResult session.json session.request invocation result with
  | error failure => exact failJob_follows held.reached held.status failure
  | ok rendered =>
    refine (applyOversizePolicy_follows held.reached).andThen fun outcome world ⟨reached, same⟩ => ?_
    cases outcome with
    | error failure => exact failJob_follows reached held.status failure
    | ok changed =>
      have named := checkResult_invocation checked
      have held : session.Holds repository (.executed · policyDecision invocation result) .running
        progress world := ⟨reached, held.status⟩
      exact completeJob_follows held rendered changed.2 (same.trans named)

theorem runPermitted_follows (permitted : Policy.permits policyDecision.outcome)
    (held : session.Holds repository (.decided · policyDecision) .queued progress world)
    (capability : String) :
    session.Follows (runPermitted session.json session.request session.tool session.finalizer
      repository capability policyDecision progress) (session.Returned repository) world := by
  refine (startJob_follows permitted held).andThen fun progress world held => ?_
  refine (invokeTool_follows held capability).andThen fun invoked world held => ?_
  refine (execute_follows held.reached).andThen fun result world reached => ?_
  exact concludeJob_follows ⟨reached, held.status⟩

theorem runChecked_follows (reached : session.At repository .fresh world) :
    session.Follows (runChecked session.json session.request session.tool session.finalizer
      repository (normalizedRequestedCapability session.tool.requestedCapability))
      (session.Returned repository) world := by
  refine (submitJob_follows reached).andThen fun progress world held => ?_
  refine (decidePolicy_follows held).andThen fun decided world held => ?_
  dsimp only
  split
  · exact stopBeforeExecution_follows held
  · rename_i unstopped
    have permitted : Policy.permits decided.1.outcome := by
      unfold Policy.permits
      cases outcome : decided.1.outcome <;> simp_all
    exact runPermitted_follows permitted held _

theorem getRepository_follows (reachable : Reachable world.ledger)
    (unused : world.own session.call = []) :
    session.Follows (getRepository session.request.repositoryId)
      (fun repository => session.At repository .fresh) world := by
  intro later moved answer after served
  obtain ⟨answered, rfl⟩ := id served
  have own : after.own session.call = [] := moved.own.trans unused
  refine ⟨⟨served.moves, .inl own⟩, ?_⟩
  cases answer with
  | error error => exact trivial
  | ok repository =>
    exact ⟨reachable.trans moved.run, getRecord_eq_ok.mp answered.symm, own ▸ .start⟩

/-- Every run of a tool follows the protocol, and a returned receipt says how it
ended, whatever the other calls do. -/
theorem runToolJobWithFinalizer_follows (reachable : Reachable world.ledger)
    (unused : world.own session.call = []) :
    session.Follows (runToolJobWithFinalizer session.json session.request session.tool
      session.finalizer) (fun receipt world => ∃ repository, session.Returned repository receipt world)
      world := by
  unfold runToolJobWithFinalizer
  dsimp only
  generalize checkRequest session.request _ = checked
  cases checked with
  | error error => exact trivial
  | ok _ =>
    refine (getRepository_follows reachable unused).andThen fun repository world reached => ?_
    refine (runChecked_follows reached).mono fun outcome world returned => ?_
    cases outcome with
    | ok receipt => exact ⟨repository, returned⟩
    | error error => exact trivial

end Completion

end Atelia.Runtime
