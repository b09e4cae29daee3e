import Atelia.Runtime.Histories
import Atelia.Runtime.RunToolJob
import Atelia.Ledger.Versions

/-! What a run of a tool is for, as a protocol on its own effects: which effect may follow
which, and how far the run has come. -/

namespace Atelia.Runtime

open Store

/-- A call of `run_tool_job_with_finalizer` with its arguments. -/
structure Session (Call : Type) where
  call : Call
  json : ToolOutput.JsonWriter
  request : RuntimeJobRequest
  tool : RuntimeTool
  finalizer : Option Finalizer

/-- How far a run has come. -/
inductive Phase where
  | fresh
  | submitted (job : JobId)
  | evaluated (job : JobId) (decision : PolicyDecision)
  | decided (job : JobId) (decision : PolicyDecision)
  | started (job : JobId) (decision : PolicyDecision)
  | recorded (job : JobId) (decision : PolicyDecision) (invocation : ToolInvocation)
  | invoked (job : JobId) (decision : PolicyDecision) (invocation : ToolInvocation)
  | executed (job : JobId) (decision : PolicyDecision) (invocation : ToolInvocation)
      (result : ToolResult)
  | stopped (job : JobId)
  | failed (job : JobId)
  | completed (job : JobId) (terminal : ToolResultAuditTerminalRequest)

/-- An answer of the artifact store. -/
def Effect.isArtifact : Effect → Bool
  | artifactWritten _ | artifactFailed _ => true
  | _ => false

/-- What the last commit of a run says of its tool result. -/
structure Completes (finalizer : Option Finalizer) (job : JobId) (invocation : ToolInvocation)
    (terminal : ToolResultAuditTerminalRequest) : Prop where
  id : terminal.record.id = job
  running : terminal.record.status = .running
  result : terminal.toolResult.invocationId = invocation.id
  audit : terminal.auditRecord.toolInvocationId = some invocation.id
  resultEvent : ∃ status, terminal.toolResultEvent.kind = .toolResultRecorded status
  auditEvent : terminal.auditEvent.kind = .auditRecorded
  idempotency : ∃ receipt : RuntimeJobReceipt, receipt.job.id = job ∧
    receipt.job.status = terminalStatus terminal.toolResult.status ∧
    terminal.idempotency = finalize finalizer receipt

section Protocol

variable {Call : Type} (session : Session Call) (repository : RepositoryRecord)

/-- The steps of the protocol. -/
inductive Next : Phase → Effect → Phase → Prop where
  | submit {uuid : Uuid} {createdAt : LedgerTimestamp} {event : JobEvent}
      (kind : event.kind = .jobSubmitted) :
    Next .fresh (.committed (.createJob (.new uuid session.request.requester
      session.request.repositoryId session.request.kind session.request.goal createdAt) event))
      (.submitted (.new _ uuid))
  | evaluate {job : JobId} {decision : PolicyDecision} {uuid : Uuid} {createdAt : LedgerTimestamp}
      (evaluated : decision = Policy.evaluate uuid createdAt (policyInput session.request
        session.tool (normalizedRequestedCapability session.tool.requestedCapability) repository)) :
    Next (.submitted job) (.committed (.createPolicyDecision decision)) (.evaluated job decision)
  | decide {job : JobId} {decision : PolicyDecision} {record : JobRecord} {event : JobEvent}
      (id : record.id = job) (status : record.status = .queued)
      (kind : event.kind = .policyDecided decision.outcome) :
    Next (.evaluated job decision) (.committed (.appendJobEventAndUpdateJob record event))
      (.decided job decision)
  | stop {job : JobId} {decision : PolicyDecision} {record : JobRecord} {event : JobEvent}
      (id : record.id = job) (status : record.status = .blocked)
      (kind : event.kind = .jobStatusChanged .queued .blocked) :
    Next (.decided job decision) (.committed (.appendJobEventAndUpdateJob record event))
      (.stopped job)
  | start {job : JobId} {decision : PolicyDecision} {record : JobRecord} {event : JobEvent}
      (permitted : Policy.permits decision.outcome)
      (id : record.id = job) (status : record.status = .running)
      (kind : event.kind = .jobStatusChanged .queued .running) :
    Next (.decided job decision) (.committed (.appendJobEventAndUpdateJob record event))
      (.started job decision)
  | record {job : JobId} {decision : PolicyDecision} {invocation : ToolInvocation}
      (owner : invocation.jobId = job) (decided : invocation.policyDecisionId = decision.id) :
    Next (.started job decision) (.committed (.createToolInvocation invocation))
      (.recorded job decision invocation)
  | invoke {job : JobId} {decision : PolicyDecision} {invocation : ToolInvocation}
      {record : JobRecord} {event : JobEvent} (id : record.id = job)
      (status : record.status = .running) (kind : event.kind = .toolInvoked invocation.toolId) :
    Next (.recorded job decision invocation) (.committed (.appendJobEventAndUpdateJob record event))
      (.invoked job decision invocation)
  | execute {job : JobId} {decision : PolicyDecision} {invocation : ToolInvocation}
      (result : ToolResult) :
    Next (.invoked job decision invocation) (.executed invocation session.request result)
      (.executed job decision invocation result)
  | artifact {job : JobId} {decision : PolicyDecision} {invocation : ToolInvocation}
      {result : ToolResult} {effect : Effect} (answered : effect.isArtifact = true) :
    Next (.executed job decision invocation result) effect
      (.executed job decision invocation result)
  | fail {job : JobId} {decision : PolicyDecision} {invocation : ToolInvocation}
      {result : ToolResult} {record : JobRecord} {event : JobEvent} (id : record.id = job)
      (status : record.status = .failed) (kind : event.kind = .jobStatusChanged .running .failed) :
    Next (.executed job decision invocation result)
      (.committed (.appendJobEventAndUpdateJob record event)) (.failed job)
  | complete {job : JobId} {decision : PolicyDecision} {invocation : ToolInvocation}
      {result : ToolResult} {terminal : ToolResultAuditTerminalRequest}
      (completes : Completes session.finalizer job invocation terminal) :
    Next (.executed job decision invocation result)
      (.committed (.recordToolResultAuditTerminal terminal)) (.completed job terminal)

/-- The effects that lead a run to a phase. -/
inductive Path : List Effect → Phase → Prop where
  | start : Path [] .fresh
  | step {effects : List Effect} {effect : Effect} {phase next : Phase}
      (path : Path effects phase) (taken : Next session repository phase effect next) :
    Path (effects ++ [effect]) next

end Protocol

section Contract

variable {Call : Type} [DecidableEq Call]

namespace Session

/-- The call has come to a phase of its run. -/
structure At (session : Session Call) (repository : RepositoryRecord) (phase : Phase)
    (world : World Call) : Prop where
  reachable : Reachable world.ledger
  stored : world.ledger.repositories[session.request.repositoryId]? = some repository
  path : Path session repository (world.own session.call) phase

/-- The call has done nothing yet or has come to some phase of its run. -/
def OnPath (session : Session Call) (world : World Call) : Prop :=
  world.own session.call = [] ∨ ∃ repository phase, session.At repository phase world

/-- A move of the call that stays on the path of its run. -/
def Proceeds (session : Session Call) (before after : World Call) : Prop :=
  World.Moves session.call before after ∧ session.OnPath after

/-- The program follows the protocol, and its result satisfies the postcondition. -/
abbrev Follows (session : Session Call) {α : Type} (program : Routine α)
    (holds : α → World Call → Prop) (world : World Call) : Prop :=
  program.Meets (Serves session.call) (World.Others session.call) session.Proceeds
    (Program.returning holds) world

end Session

end Contract

end Atelia.Runtime
