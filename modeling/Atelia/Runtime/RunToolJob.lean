import Atelia.Runtime.Commands
import Atelia.Runtime.Policy

/-! `run_tool_job_with_finalizer` and `cancel_job` as programs. -/

namespace Atelia.Runtime

open Store Outcome

abbrev Routine (α : Type) : Type := Program RuntimeCommand RuntimeCommand.Answer RuntimeError α

section Primitives

def now : Routine LedgerTimestamp := .perform .now .done
def newUuid : Routine Uuid := .perform .newUuid .done

/-- An error of the store ends the run. -/
def ofStore {α : Type} : StoreResult α → Routine α
  | .ok value => .done value
  | .error error => .fail (.store error)

def getRepository (id : RepositoryId) : Routine RepositoryRecord :=
  .perform (.getRepository id) ofStore

def getJob (id : JobId) : Routine JobRecord :=
  .perform (.getJob id) ofStore

def store (operation : StoreOperation) : Routine operation.Response :=
  .perform (.store operation) ofStore

def appendJobEventAndUpdateJob (record : JobRecord) (event : JobEvent) : Routine JobEvent :=
  store (.appendJobEventAndUpdateJob record event)

def execute (invocation : ToolInvocation) (request : RuntimeJobRequest) : Routine ToolResult :=
  .perform (.execute invocation request) .done

def transitionStatus (job : JobRecord) (status : JobStatus) (moment : LedgerTimestamp) :
    Routine JobRecord :=
  .ofExcept ((job.transitionStatus status moment).mapError .jobStatusTransition)

def newJobEvent (subject : EventSubject) (kind : JobEventKind) (severity : EventSeverity)
    (publicMessage : String) (refs : EventRefs) : Routine JobEvent := do
  let uuid ← newUuid
  let createdAt ← now
  return jobEvent uuid createdAt subject kind severity publicMessage refs

end Primitives

section References

def refsForPolicy (job : JobRecord) (policyDecision : PolicyDecision) : EventRefs :=
  { refsForJob job with policyDecisionId := some policyDecision.id }

def refsForInvocation (job : JobRecord) (policyDecision : PolicyDecision)
    (invocation : ToolInvocation) : EventRefs :=
  { refsForPolicy job policyDecision with toolInvocationId := some invocation.id }

def refsForResult (job : JobRecord) (policyDecision : PolicyDecision)
    (invocation : ToolInvocation) (result : ToolResult) : EventRefs :=
  { refsForInvocation job policyDecision invocation with
    toolResultId := some result.id
    contentType := some "application/json" }

def refsForAudit (job : JobRecord) (policyDecision : PolicyDecision) (invocation : ToolInvocation)
    (result : ToolResult) (auditRecord : AuditRecord) : EventRefs :=
  { refsForResult job policyDecision invocation result with auditRecordId := some auditRecord.id }

def policyEventSeverity : PolicyOutcome → EventSeverity
  | .allowed | .audited => .info
  | .needsApproval => .warning
  | .blocked => .error

def toolResultEventSeverity : ToolResultStatus → EventSeverity
  | .succeeded => .info
  | .failed | .timedOut | .canceled => .error

instance : RustDebug ToolResultStatus where
  debug
    | .succeeded => "Succeeded"
    | .failed => "Failed"
    | .canceled => "Canceled"
    | .timedOut => "TimedOut"

end References

section Capabilities

def normalizedRequestedCapability (capability : String) : String :=
  let trimmed := Text.trim capability
  (Policy.canonicalizeJobRequestedCapability trimmed).getD trimmed

def validateRequestedCapabilityHints (requestedCapabilities : List String)
    (enforcedCapability : String) : Except RuntimeError Unit := do
  reject (requestedCapabilities.any Text.isBlank) (.invalidToolRequest
    "requested_capabilities must not contain empty entries")
  whenSome ((requestedCapabilities.map normalizedRequestedCapability).find? fun capability =>
      capability ≠ enforcedCapability) fun mismatched =>
    .error (.invalidToolRequest
      s!"requested_capabilities contains {debug mismatched}, but tool requires {debug enforcedCapability}")

end Capabilities

section Stages

/-- The job as the runtime believes it is stored, and the events so far. -/
structure Progress where
  job : JobRecord
  events : List JobEvent

/-- A committed event becomes the latest of the job. -/
def Progress.advance (progress : Progress) (event : JobEvent) : Progress where
  job := { progress.job with latestEventId := some event.id }
  events := progress.events ++ [event]

def submitJob (request : RuntimeJobRequest) : Routine Progress := do
  let createdAt ← now
  let uuid ← newUuid
  let job := JobRecord.new uuid request.requester request.repositoryId request.kind request.goal
    createdAt
  let initialEvent ← newJobEvent (.job job.id) .jobSubmitted .info "job submitted" (refsForJob job)
  let initialEvent : JobEvent ← store (.createJob job initialEvent)
  return Progress.advance ⟨job, []⟩ initialEvent

def policyInput (request : RuntimeJobRequest) (tool : RuntimeTool) (capability : String)
    (repository : RepositoryRecord) : Policy.PolicyInput where
  requester := request.requester
  repositoryId := request.repositoryId
  requestedCapability := capability
  resourceScope := request.resourceScope
  declaredEffect := tool.declaredEffect
  currentTrustState := repository.trustState
  approvalAvailable := request.approvalAvailable
  policyVersion := Policy.defaultPolicyVersion
  toolId := some tool.toolId

def policySummary (policyDecision : PolicyDecision) : PolicySummary where
  decisionId := some policyDecision.id
  outcome := policyDecision.outcome
  riskTier := policyDecision.riskTier
  reasonCode := policyDecision.reasonCode

def decidePolicy (input : Policy.PolicyInput) (progress : Progress) :
    Routine (PolicyDecision × Progress) := do
  let uuid ← newUuid
  let createdAt ← now
  let policyDecision := Policy.evaluate uuid createdAt input
  let _ ← store (.createPolicyDecision policyDecision)
  let job := { progress.job with policySummary := some (policySummary policyDecision) }
  let policyEvent ← newJobEvent (.policyDecision policyDecision.id)
    (.policyDecided policyDecision.outcome) (policyEventSeverity policyDecision.outcome)
    policyDecision.userReason (refsForPolicy job policyDecision)
  let policyEvent ← appendJobEventAndUpdateJob job policyEvent
  return (policyDecision, Progress.advance { progress with job } policyEvent)

/-- Move the job to another status with its event. -/
def changeStatus (progress : Progress) (status : JobStatus) (severity : EventSeverity)
    (publicMessage : String) (refs : JobRecord → EventRefs) : Routine Progress := do
  let moment ← now
  let job ← transitionStatus progress.job status moment
  let event ← newJobEvent (.job job.id) (.jobStatusChanged progress.job.status status) severity
    publicMessage (refs job)
  let event ← appendJobEventAndUpdateJob job event
  return Progress.advance { progress with job } event

abbrev Finalizer : Type := RuntimeJobReceipt → Option (String × SubmitJobIdempotencyRecord)

/-- The finalizer runs for a succeeded job only. -/
def finalize (finalizer : Option Finalizer) (receipt : RuntimeJobReceipt) :
    Option (String × SubmitJobIdempotencyRecord) :=
  if receipt.job.status = .succeeded then finalizer.bind (· receipt) else none

/-- Commit the event that ends a job before its tool ran. -/
def commitStopped (job : JobRecord) (event : JobEvent) :
    Option (String × SubmitJobIdempotencyRecord) → Routine JobEvent
  | some (idempotencyKey, idempotencyRecord) =>
    store (.appendJobEventAndUpdateJobWithSubmitJobIdempotency job event idempotencyKey
      idempotencyRecord)
  | none => appendJobEventAndUpdateJob job event

def stopBeforeExecution (finalizer : Option Finalizer) (policyDecision : PolicyDecision)
    (progress : Progress) : Routine RuntimeJobReceipt := do
  let moment ← now
  let job ← transitionStatus progress.job .blocked moment
  let statusEvent ← newJobEvent (.job job.id) (.jobStatusChanged progress.job.status .blocked)
    .warning "job stopped before tool execution" (refsForPolicy job policyDecision)
  let receipt : RuntimeJobReceipt :=
    { job := { job with latestEventId := some statusEvent.id }
      policyDecision
      toolInvocation := none
      toolResult := none
      renderedOutput := none
      auditRecord := none
      events := progress.events ++ [statusEvent] }
  let persistedEvent ← commitStopped job statusEvent (finalize finalizer receipt)
  return { receipt with events := replaceLast receipt.events persistedEvent }

def startJob (policyDecision : PolicyDecision) (progress : Progress) : Routine Progress :=
  changeStatus progress .running .info "job running" (refsForPolicy · policyDecision)

def invokeTool (request : RuntimeJobRequest) (tool : RuntimeTool) (capability : String)
    (policyDecision : PolicyDecision) (progress : Progress) :
    Routine (ToolInvocation × Progress) := do
  let uuid ← newUuid
  let createdAt ← now
  let invocation : ToolInvocation :=
    { id := .new _ uuid
      schemaVersion := runtimeSchemaVersion
      createdAt
      jobId := progress.job.id
      repositoryId := request.repositoryId
      policyDecisionId := policyDecision.id
      actor := request.requester
      toolId := tool.toolId
      requestedCapability := capability
      argsSummary := tool.argsSummary request
      resolvedPaths := tool.resolvedPaths request
      timeoutMillis := none
      redactions := [] }
  let _ ← store (.createToolInvocation invocation)
  let invocationEvent ← newJobEvent (.toolInvocation invocation.id) (.toolInvoked invocation.toolId)
    .info "tool invoked" (refsForInvocation progress.job policyDecision invocation)
  let invocationEvent ← appendJobEventAndUpdateJob progress.job invocationEvent
  return (invocation, progress.advance invocationEvent)

/-- `append_failed_job_event`, then the error that caused the failure. -/
def failJob {α : Type} (policyDecision : PolicyDecision) (invocation : ToolInvocation)
    (progress : Progress) (failure : String × RuntimeError) : Routine α := do
  let _ ← changeStatus progress .failed .error failure.1
    fun _ => refsForInvocation progress.job policyDecision invocation
  .fail failure.2

end Stages

section Results

def validateRuntimeToolResult (invocation : ToolInvocation) (result : ToolResult) :
    Except RuntimeError Unit := do
  reject (result.invocationId ≠ invocation.id) (.invalidToolResult
    s!"tool result invocation_id {result.invocationId.text} does not match active invocation {invocation.id.text}")
  reject (result.toolId ≠ invocation.toolId) (.invalidToolResult
    s!"tool result tool_id {result.toolId} does not match active invocation tool_id {invocation.toolId}")

/-- The bytes of the values and of one separator between any two. -/
def stringListByteLen (bytes : Nat) : List String → Nat
  | [] => bytes
  | value :: rest =>
    let bytes := saturatingAdd bytes (Text.byteLength value)
    stringListByteLen (if rest.isEmpty then bytes else saturatingAdd bytes 1) rest

def oversizedFieldBytes (field : ToolResultField) (maxInlineBytes : Nat) : Option Nat :=
  let bytes := match field.value with
    | .string value => some (Text.byteLength value)
    | .stringList values => some (stringListByteLen 0 values)
    | _ => none
  bytes.filter fun bytes => maxInlineBytes < bytes

def rejectOversizedToolResult (result : ToolResult) (defaults : ToolOutputDefaults) :
    Option String :=
  let oversized := result.fields.filterMap fun field =>
    (oversizedFieldBytes field defaults.maxInlineBytes).map fun size => (field.key, size)
  if oversized.isEmpty then none
  else some s!"tool output field(s) exceed max_inline_bytes={defaults.maxInlineBytes} with configured policy reject_oversize: {ToolOutput.oversizeDetails oversized}"

def truncateStringValue (value : String) (maxInlineBytes : Nat) : Option String :=
  ToolOutput.truncateStringValue value maxInlineBytes

/-- Keep values while bytes remain; the first value that does not fit whole is
cut and ends the list. -/
def truncateStringList (maxInlineBytes : Nat) (index : Nat) (keptValues : List String)
    (keptBytes : Nat) : List String → List String × Nat
  | [] => (keptValues, keptBytes)
  | value :: rest =>
    let separator := if 0 < index then 1 else 0
    let remaining := maxInlineBytes - saturatingAdd keptBytes separator
    if remaining = 0 then (keptValues, keptBytes)
    else if Text.byteLength value ≤ remaining then
      truncateStringList maxInlineBytes (index + 1) (keptValues ++ [value])
        (keptBytes + separator + Text.byteLength value) rest
    else
      let cut := String.ofList (Text.takeBytes remaining value.toList)
      if 0 < Text.byteLength cut then
        (keptValues ++ [cut], keptBytes + separator + Text.byteLength cut)
      else (keptValues, keptBytes)

structure ToolResultTruncationReport where
  fields : Nat := 0
  originalBytes : Nat := 0
  retainedBytes : Nat := 0

/-- The value an oversized field is cut to, with the bytes it keeps. -/
def truncatedValue (maxInlineBytes : Nat) : StructuredValue → Option (StructuredValue × Nat)
  | .string value => (truncateStringValue value maxInlineBytes).map fun truncated =>
      (.string truncated, Text.byteLength truncated)
  | .stringList values =>
    let (truncated, retained) := truncateStringList maxInlineBytes 0 [] 0 values
    some (.stringList truncated, retained)
  | _ => none

def truncateFields (maxInlineBytes : Nat) : ToolResultTruncationReport → List ToolResultField →
    List ToolResultField × ToolResultTruncationReport
  | report, [] => ([], report)
  | report, field :: rest =>
    match oversizedFieldBytes field maxInlineBytes, truncatedValue maxInlineBytes field.value with
    | some originalBytes, some (value, retainedBytes) =>
      let (fields, report) := truncateFields maxInlineBytes
        { fields := report.fields + 1
          originalBytes := saturatingAdd report.originalBytes originalBytes
          retainedBytes := saturatingAdd report.retainedBytes retainedBytes } rest
      ({ field with value } :: fields, report)
    | _, _ =>
      let (fields, report) := truncateFields maxInlineBytes report rest
      (field :: fields, report)

def truncateOversizedToolResultFields (result : ToolResult) (maxInlineBytes : Nat) :
    Option (ToolResult × ToolResultTruncationReport) :=
  let (fields, report) := truncateFields maxInlineBytes {} result.fields
  if report.fields = 0 then none else some ({ result with fields }, report)

/-- The result under `truncate_with_metadata`, and whether it changed. -/
def truncateWithMetadata (result : ToolResult) (maxInlineBytes : Nat) : ToolResult × Bool :=
  match truncateOversizedToolResultFields result maxInlineBytes with
  | none => (result, false)
  | some (truncated, report) =>
    ({ truncated with truncation := some (ToolOutput.mergeTruncation truncated.truncation
        { originalBytes := report.originalBytes
          retainedBytes := report.retainedBytes
          reason := "runtime truncate_with_metadata" }) }, true)

end Results

section Spillover

def spillableText (field : ToolResultField) : Option String :=
  match field.value with
  | .string value => some value
  | .stringList values => some ("\n".intercalate values)
  | _ => none

structure PlannedSpill where
  index : Nat
  bytes : Nat
  replacement : String
  outputRef : OutputRef

def rollbackArtifactWrites (config : ArtifactStoreConfig) (scope : String) :
    List OutputRef → Routine Unit
  | [] => .done ()
  | outputRef :: rest =>
    .perform (.deleteArtifactBytes config outputRef) fun _ =>
      .perform (.deleteArtifactRecord config scope outputRef) fun _ =>
        rollbackArtifactWrites config scope rest

/-- Write one field to the artifact store, or take back what was written. -/
def spillField (config : ArtifactStoreConfig) (scope : String)
    (options : ToolResultSpilloverOptions) (label : String) (planned : List PlannedSpill)
    (index : Nat) (text : String) : Routine (ArtifactResult PlannedSpill) :=
  .perform (.writeArtifactBytes config scope label options.mediaType text) fun
    | .error error => do
      rollbackArtifactWrites config scope (planned.map (·.outputRef))
      return .error error
    | .ok outputRef =>
      let replacement := s!"artifact_ref {outputRef.uri}"
      let bytes := Text.byteLength text
      .perform (.updateSpillMetadata config scope outputRef (some bytes)
          (some (Text.byteLength replacement))) fun
        | .error error => do
          rollbackArtifactWrites config scope (planned.map (·.outputRef) ++ [outputRef])
          return .error error
        | .ok _ => return .ok ⟨index, bytes, replacement, outputRef⟩

def planSpills (config : ArtifactStoreConfig) (scope : String)
    (options : ToolResultSpilloverOptions) (toolId : String) (planned : List PlannedSpill)
    (index : Nat) : List ToolResultField → Routine (ArtifactResult (List PlannedSpill))
  | [] => return .ok planned
  | field :: rest =>
    match (spillableText field).filter fun text => options.maxInlineBytes < Text.byteLength text with
    | none => planSpills config scope options toolId planned (index + 1) rest
    | some text => do
      match ← spillField config scope options s!"{toolId}.{field.key}" planned index text with
      | .error error => return .error error
      | .ok spill => planSpills config scope options toolId (planned ++ [spill]) (index + 1) rest

/-- The result with each planned field replaced by a reference to its artifact. -/
def applySpills (result : ToolResult) (planned : List PlannedSpill) : ToolResult :=
  { result with
    fields := result.fields.mapIdx fun index field =>
      match planned.find? (·.index = index) with
      | some spill => { field with value := .string spill.replacement }
      | none => field
    outputRefs := result.outputRefs ++ planned.map (·.outputRef)
    truncation := some (ToolOutput.mergeTruncation result.truncation
      { originalBytes := (planned.map (·.bytes)).sum
        retainedBytes := (planned.map fun spill => Text.byteLength spill.replacement).sum
        reason := "artifact spillover" }) }

/-- The spilled result, or nothing when no field is too large. -/
def spillLargeToolResultFields (config : ArtifactStoreConfig) (scope : String)
    (options : ToolResultSpilloverOptions) (result : ToolResult) :
    Routine (ArtifactResult (Option ToolResult)) :=
  if options.maxInlineBytes = 0 then return .ok none
  else do
    match ← planSpills config scope options result.toolId [] 0 result.fields with
    | .error error => return .error error
    | .ok planned =>
      if planned.isEmpty then return .ok none else return .ok (some (applySpills result planned))

end Spillover

section Completion

/-- A failure of the run: the text of its event and the error it returns. -/
abbrev Failure : Type := String × RuntimeError

def rejectOversize (request : RuntimeJobRequest) (result : ToolResult) : Except Failure Unit :=
  match rejectOversizedToolResult result request.toolOutputDefaults with
  | some reason => .error ("tool result exceeded output size limits", .toolOutputTooLarge reason)
  | none => .ok ()

def renderPolicy (request : RuntimeJobRequest) : ToolOutputRenderPolicy :=
  request.toolOutputDefaults.renderPolicyWithRenderOptions request.renderOptions

def renderResult (json : ToolOutput.JsonWriter) (request : RuntimeJobRequest)
    (result : ToolResult) : Except Failure RenderedToolOutput :=
  (ToolOutput.renderToolResultWithPolicy json result (renderPolicy request)).mapError fun error =>
    ("tool output rendering failed", .toolOutputRender error)

/-- The checks of a fresh tool result, up to its first rendering. -/
def checkResult (json : ToolOutput.JsonWriter) (request : RuntimeJobRequest)
    (invocation : ToolInvocation) (result : ToolResult) : Except Failure RenderedToolOutput := do
  (validateRuntimeToolResult invocation result).mapError fun error =>
    ("tool result rejected", error)
  if request.toolOutputDefaults.oversizePolicy = .rejectOversize then rejectOversize request result
  renderResult json request result

/-- Spill large fields; an unchanged result needs no second rendering. -/
def spillResult (repository : RepositoryRecord) (spillover : RuntimeArtifactSpillover)
    (result : ToolResult) : Routine (Except Failure (ToolResult × Bool)) := do
  match ← spillLargeToolResultFields spillover.storeConfig repository.id.text spillover.options
      result with
  | .ok (some spilled) => return .ok (spilled, true)
  | .ok none => return .ok (result, false)
  | .error error => return .error ("artifact spillover failed", .artifact error)

/-- What the output policy makes of the result, and whether it changed. -/
def applyOversizePolicy (request : RuntimeJobRequest) (repository : RepositoryRecord)
    (result : ToolResult) : Routine (Except Failure (ToolResult × Bool)) :=
  match request.artifactSpillover with
  | some spillover => spillResult repository spillover result
  | none =>
    match request.toolOutputDefaults.oversizePolicy with
    | .spillToArtifactRef => .perform .defaultLocal fun storeConfig =>
      spillResult repository
        { storeConfig
          options := { maxInlineBytes := request.toolOutputDefaults.maxInlineBytes } } result
    | .rejectOversize => return (rejectOversize request result).map fun _ => (result, false)
    | .truncateWithMetadata =>
      return .ok (truncateWithMetadata result request.toolOutputDefaults.maxInlineBytes)

def auditRecord (uuid : Uuid) (createdAt : LedgerTimestamp) (request : RuntimeJobRequest)
    (policyDecision : PolicyDecision) (invocation : ToolInvocation) (result : ToolResult) :
    AuditRecord where
  id := .new _ uuid
  schemaVersion := runtimeSchemaVersion
  createdAt := createdAt
  actor := request.requester
  repositoryId := request.repositoryId
  requestedCapability := invocation.requestedCapability
  policyDecisionId := policyDecision.id
  toolInvocationId := some invocation.id
  effectSummary := s!"{invocation.toolId} completed with {debug result.status}"
  outputRefs := result.outputRefs
  redactions := result.redactions

/-- The last three events of a receipt, as the store has committed them. -/
def persistEvents (events : List JobEvent) (resultEvent auditEvent terminalEvent : JobEvent) :
    List JobEvent :=
  let count := events.length
  if 3 ≤ count then
    ((events.set (count - 3) resultEvent).set (count - 2) auditEvent).set (count - 1) terminalEvent
  else events

/-- Render a changed result again; a failure here fails the job. -/
def rerender (json : ToolOutput.JsonWriter) (request : RuntimeJobRequest)
    (policyDecision : PolicyDecision) (invocation : ToolInvocation) (progress : Progress)
    (rendered : RenderedToolOutput) (result : ToolResult) (changed : Bool) :
    Routine RenderedToolOutput :=
  match if changed then renderResult json request result else .ok rendered with
  | .ok rendered => .done rendered
  | .error failure => failJob policyDecision invocation progress failure

/-- The records and events of the last commit. -/
structure Closing where
  result : ToolResult
  resultEvent : JobEvent
  audit : AuditRecord
  auditEvent : JobEvent
  terminalEvent : JobEvent

/-- The job names the audit event already, which is not committed yet. -/
def pendingProgress (progress : Progress) (resultEvent auditEvent : JobEvent) : Progress where
  job := { progress.job with latestEventId := some auditEvent.id }
  events := progress.events ++ [resultEvent, auditEvent]

def Closing.pending (closing : Closing) (progress : Progress) : Progress :=
  pendingProgress progress closing.resultEvent closing.auditEvent

def prepareClosing (request : RuntimeJobRequest) (policyDecision : PolicyDecision)
    (invocation : ToolInvocation) (progress : Progress) (result : ToolResult) : Routine Closing := do
  let resultEvent ← newJobEvent (.toolResult result.id) (.toolResultRecorded result.status)
    (toolResultEventSeverity result.status) "tool result recorded"
    (refsForResult progress.job policyDecision invocation result)
  let uuid ← newUuid
  let createdAt ← now
  let audit := auditRecord uuid createdAt request policyDecision invocation result
  let auditEvent ← newJobEvent (.auditRecord audit.id) .auditRecorded .info "audit record created"
    (refsForAudit progress.job policyDecision invocation result audit)
  let pending := pendingProgress progress resultEvent auditEvent
  let terminalEvent ← newJobEvent (.job pending.job.id)
    (.jobStatusChanged pending.job.status (terminalStatus result.status)) .info "job completed"
    (refsForAudit pending.job policyDecision invocation result audit)
  return { result, resultEvent, audit, auditEvent, terminalEvent }

/-- The receipt before its last three events are committed. -/
def Closing.receipt (closing : Closing) (policyDecision : PolicyDecision)
    (invocation : ToolInvocation) (progress : Progress) (rendered : RenderedToolOutput)
    (job : JobRecord) : RuntimeJobReceipt where
  job := { job with latestEventId := some closing.terminalEvent.id }
  policyDecision := policyDecision
  toolInvocation := some invocation
  toolResult := some closing.result
  renderedOutput := some rendered
  auditRecord := some closing.audit
  events := (closing.pending progress).events ++ [closing.terminalEvent]

def Closing.request (closing : Closing) (progress : Progress)
    (idempotency : Option (String × SubmitJobIdempotencyRecord)) :
    ToolResultAuditTerminalRequest where
  record := progress.job
  toolResult := closing.result
  toolResultEvent := closing.resultEvent
  auditRecord := closing.audit
  auditEvent := closing.auditEvent
  terminalEvent := closing.terminalEvent
  idempotency := idempotency

def commitCompleted (finalizer : Option Finalizer) (closing : Closing) (progress : Progress)
    (receipt : RuntimeJobReceipt) : Routine RuntimeJobReceipt := do
  let (resultEvent, auditEvent, terminalEvent) : JobEvent × JobEvent × JobEvent ←
    store (.recordToolResultAuditTerminal
      (closing.request progress (finalize finalizer receipt)))
  return { receipt with events := persistEvents receipt.events resultEvent auditEvent terminalEvent }

def completeJob (json : ToolOutput.JsonWriter) (request : RuntimeJobRequest)
    (finalizer : Option Finalizer) (policyDecision : PolicyDecision) (invocation : ToolInvocation)
    (progress : Progress) (rendered : RenderedToolOutput) (result : ToolResult) (changed : Bool) :
    Routine RuntimeJobReceipt := do
  let closing ← prepareClosing request policyDecision invocation progress result
  let pending := closing.pending progress
  let rendered ← rerender json request policyDecision invocation pending rendered result changed
  let job ← transitionStatus pending.job (terminalStatus result.status)
    closing.terminalEvent.createdAt
  commitCompleted finalizer closing progress
    (closing.receipt policyDecision invocation progress rendered job)

/-- From the tool's answer to the end of the run. -/
def concludeJob (json : ToolOutput.JsonWriter) (request : RuntimeJobRequest)
    (finalizer : Option Finalizer) (repository : RepositoryRecord) (policyDecision : PolicyDecision)
    (invocation : ToolInvocation) (progress : Progress) (result : ToolResult) :
    Routine RuntimeJobReceipt :=
  match checkResult json request invocation result with
  | .error failure => failJob policyDecision invocation progress failure
  | .ok rendered => do
    match ← applyOversizePolicy request repository result with
    | .error failure => failJob policyDecision invocation progress failure
    | .ok (result, changed) =>
      completeJob json request finalizer policyDecision invocation progress rendered result changed

/-- From the permitted decision to the end of the run. -/
def runPermitted (json : ToolOutput.JsonWriter) (request : RuntimeJobRequest) (tool : RuntimeTool)
    (finalizer : Option Finalizer) (repository : RepositoryRecord) (capability : String)
    (policyDecision : PolicyDecision) (progress : Progress) : Routine RuntimeJobReceipt := do
  let progress ← startJob policyDecision progress
  let (invocation, progress) ← invokeTool request tool capability policyDecision progress
  let result ← execute invocation request
  concludeJob json request finalizer repository policyDecision invocation progress result

/-- From the checked request to the end of the run. -/
def runChecked (json : ToolOutput.JsonWriter) (request : RuntimeJobRequest) (tool : RuntimeTool)
    (finalizer : Option Finalizer) (repository : RepositoryRecord) (capability : String) :
    Routine RuntimeJobReceipt := do
  let progress ← submitJob request
  let (policyDecision, progress) ←
    decidePolicy (policyInput request tool capability repository) progress
  if policyDecision.outcome = .blocked ∨ policyDecision.outcome = .needsApproval then
    stopBeforeExecution finalizer policyDecision progress
  else runPermitted json request tool finalizer repository capability policyDecision progress

/-- The checks of a request. Irreducible, so that unfolding a run does not
evaluate the capability names. -/
@[irreducible] def checkRequest (request : RuntimeJobRequest) (capability : String) :
    Except RuntimeError Unit := do
  reject (capability.toList.isEmpty) (.invalidToolRequest "requested_capability must not be empty")
  validateRequestedCapabilityHints request.requestedCapabilities capability

def runToolJobWithFinalizer (json : ToolOutput.JsonWriter) (request : RuntimeJobRequest)
    (tool : RuntimeTool) (finalizer : Option Finalizer) : Routine RuntimeJobReceipt := do
  let capability := normalizedRequestedCapability tool.requestedCapability
  .ofExcept (checkRequest request capability)
  let repository ← getRepository request.repositoryId
  runChecked json request tool finalizer repository capability

def runToolJob (json : ToolOutput.JsonWriter) (request : RuntimeJobRequest) (tool : RuntimeTool) :
    Routine RuntimeJobReceipt :=
  runToolJobWithFinalizer json request tool none

end Completion

section Cancellation

structure CancelJobReceipt where
  job : JobRecord
  events : List JobEvent
  deriving DecidableEq

/-- Cancel a job that was read as queued or running. -/
def cancelOpenJob (job : JobRecord) (reason : String) : Routine CancelJobReceipt := do
  let requested := { job with cancellationState := .requested }
  let cancelEvent ← newJobEvent (.job requested.id) .cancellationRequested .warning reason
    (refsForJob requested)
  let moment ← now
  let canceled ← transitionStatus { requested with latestEventId := some cancelEvent.id } .canceled
    moment
  let statusEvent ← newJobEvent (.job canceled.id) (.jobStatusChanged job.status .canceled) .warning
    "job cancelled" (refsForJob canceled)
  let (cancelEvent, statusEvent) : JobEvent × JobEvent ←
    store (.appendJobEventsAndUpdateJob requested cancelEvent canceled statusEvent)
  return { job := { canceled with latestEventId := some statusEvent.id }
           events := [cancelEvent, statusEvent] }

def cancelJob (id : JobId) (reason : String) : Routine CancelJobReceipt := do
  let job ← getJob id
  .ofExcept (reject (job.status ≠ .queued ∧ job.status ≠ .running) (.store (.conflict "jobs"
    s!"job {id.text} cannot be cancelled in state {debug job.status}")))
  cancelOpenJob job reason

end Cancellation

end Atelia.Runtime
