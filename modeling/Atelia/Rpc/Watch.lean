import Atelia.Rpc.Errors
import Atelia.Store.Watch

/-! The remote watch of events. -/

namespace Atelia.Rpc

open Outcome Store

section Events

inductive RpcEventSeverity where
  | debug | info | warning | error
  deriving DecidableEq

inductive RpcEventSubjectType where
  | unspecified | daemon | repository | job | policyDecision | lockDecision | toolInvocation
  | toolResult | auditRecord
  deriving DecidableEq

structure RpcEventSubject where
  subjectType : RpcEventSubjectType
  id : String
  deriving DecidableEq

structure RpcEventRefs where
  repositoryId : Option String
  jobId : Option String
  policyDecisionId : Option String
  lockDecisionId : Option String
  toolInvocationId : Option String
  toolResultId : Option String
  contentType : Option String
  auditRef : Option String
  deriving DecidableEq

structure RpcEvent where
  eventId : String
  sequence : Nat
  occurredAtUnixMs : Int
  subject : RpcEventSubject
  kind : String
  severity : RpcEventSeverity
  message : String
  refs : RpcEventRefs
  deriving DecidableEq

def RpcEventSeverity.ofSeverity : EventSeverity → RpcEventSeverity
  | .debug => .debug
  | .info => .info
  | .warning => .warning
  | .error => .error

def RpcEventSubjectType.ofSubjectType : EventSubjectType → RpcEventSubjectType
  | .repository => .repository
  | .job => .job
  | .policyDecision => .policyDecision
  | .lockDecision => .lockDecision
  | .toolInvocation => .toolInvocation
  | .toolResult => .toolResult
  | .auditRecord => .auditRecord

def RpcEventRefs.ofRefs (refs : EventRefs) : RpcEventRefs where
  repositoryId := refs.repositoryId.map (·.text)
  jobId := refs.jobId.map (·.text)
  policyDecisionId := refs.policyDecisionId.map (·.text)
  lockDecisionId := refs.lockDecisionId.map (·.text)
  toolInvocationId := refs.toolInvocationId.map (·.text)
  toolResultId := refs.toolResultId.map (·.text)
  contentType := refs.contentType
  auditRef := refs.auditRecordId.map (·.text)

def rpcEventKindLabel : JobEventKind → String
  | .jobSubmitted => "job_submitted"
  | .jobStatusChanged _ _ => "job_status_changed"
  | .policyDecided _ => "policy_decided"
  | .lockHeld => "lock_held"
  | .lockReleased => "lock_released"
  | .lockReclaimed => "lock_reclaimed"
  | .toolInvoked _ => "tool_invoked"
  | .toolResultRecorded _ => "tool_result_recorded"
  | .auditRecorded => "audit_recorded"
  | .cancellationRequested => "cancellation_requested"
  | .recoveryActionRecorded => "recovery_action_recorded"
  | .message => "message"

def RpcEvent.ofEvent (event : JobEvent) : RpcEvent where
  eventId := event.id.text
  sequence := event.sequenceNumber
  occurredAtUnixMs := event.createdAt.unixMillis
  subject := ⟨.ofSubjectType event.subject.subjectType, event.subject.subjectId⟩
  kind := rpcEventKindLabel event.kind
  severity := .ofSeverity event.severity
  message := event.publicMessage
  refs := .ofRefs event.refs

end Events

section Requests

inductive EventCursorRequest where
  | beginning
  | afterSequence (sequence : Nat)
  | afterEventId (id : String)
  deriving DecidableEq

structure WatchEventsRequest where
  repositoryId : String
  cursor : Option EventCursorRequest
  subjectIds : List String
  minSeverity : Option RpcEventSeverity
  limit : Option Nat
  deriving DecidableEq

def maxWatchEventsPage : Nat := 1000

def parseWatchEventsLimit : Option Nat → RpcResult Nat
  | some 0 => .error (.invalidArgument "limit must be greater than 0")
  | some limit => .ok (min limit maxWatchEventsPage)
  | none => .ok maxWatchEventsPage

variable (parser : UuidParser)

def parseRepositoryId (value : String) : RpcResult RepositoryId :=
  okOr (Identifier.tryFromString parser .repository value)
    (.invalidArgument "repository_id must be a valid repository id")

def parseEventId (value : String) : RpcResult JobEventId :=
  okOr (Identifier.tryFromString parser .jobEvent value)
    (.invalidArgument "event_id must be a valid event id")

def parseEventCursor : EventCursorRequest → RpcResult EventCursor
  | .beginning => .ok .beginning
  | .afterSequence sequence => .ok (.afterSequence sequence)
  | .afterEventId eventId => do
    let id ← parseEventId parser eventId
    return .afterEventId id

def parseEventSeverity : RpcEventSeverity → EventSeverity
  | .debug => .debug
  | .info => .info
  | .warning => .warning
  | .error => .error

def buildWatchEventQueryFromRequest (request : WatchEventsRequest) :
    RpcResult (EventQuery × EventCursorRequest) := do
  let incomingCursor := request.cursor.getD .beginning
  let repositoryId ← parseRepositoryId parser request.repositoryId
  let cursor ← parseEventCursor parser incomingCursor
  let pageSize ← parseWatchEventsLimit request.limit
  return ({ repositoryId := some repositoryId, cursor, subjectIds := request.subjectIds, jobIds := [],
            minSeverity := request.minSeverity.map parseEventSeverity, pageSize := some pageSize,
            pageToken := none }, incomingCursor)

end Requests

section Responses

/-- What the service returns beside the receiver. -/
structure LiveEventSubscription where
  events : List JobEvent
  replayMaxSequence : Option Nat
  resolvedCursorSequence : Option Nat

/-- The answer of the service to a call for which the store has returned a snapshot
and the resolved cursor. -/
def LiveEventSubscription.ofStore (events : List JobEvent) (resolvedCursorSequence : Option Nat) :
    LiveEventSubscription where
  events
  replayMaxSequence := events.getLast?.map (·.sequenceNumber)
  resolvedCursorSequence

structure WatchEventsLiveSubscription where
  replayMaxSequence : Option Nat
  resolvedCursorSequence : Option Nat
  lastSequence : Option Nat

structure WatchEventsLiveResponse where
  events : List RpcEvent
  cursor : Option EventCursorRequest
  subscription : WatchEventsLiveSubscription

def watchEventsLastSequence (events : List RpcEvent) (replayMaxSequence resolvedCursorSequence :
    Option Nat) : Option Nat :=
  (events.getLast?.map (·.sequence)).or
    (match resolvedCursorSequence, replayMaxSequence with
    | some resolved, some replayMax => some (max resolved replayMax)
    | some resolved, none => some resolved
    | none, some replayMax => some replayMax
    | none, none => none)

/-- The part of `watch_events_live` after the call of the service. -/
def watchEventsLiveResponse (incomingCursor : EventCursorRequest) (live : LiveEventSubscription) :
    WatchEventsLiveResponse :=
  let events := live.events.map RpcEvent.ofEvent
  let lastSequence :=
    watchEventsLastSequence events live.replayMaxSequence live.resolvedCursorSequence
  let lastSequence := match events.isEmpty, incomingCursor with
    | true, .afterSequence sequence =>
      some (match lastSequence with
        | none => sequence
        | some last => max last sequence)
    | _, _ => lastSequence
  let cursor := match events.getLast?, lastSequence with
    | some event, _ => .afterSequence event.sequence
    | none, some lastSequence => .afterSequence lastSequence
    | none, none => incomingCursor
  { events
    cursor := some cursor
    subscription := {
      replayMaxSequence := live.replayMaxSequence
      resolvedCursorSequence := lastSequence.or live.resolvedCursorSequence
      lastSequence } }

end Responses

section Stream

def rpcEventSeverityRank : RpcEventSeverity → Nat
  | .debug => 0
  | .info => 1
  | .warning => 2
  | .error => 3

def watchEventMatchesRequest (event : RpcEvent) (request : WatchEventsRequest) : Bool :=
  if request.repositoryId ≠ event.refs.repositoryId.getD "" then false
  else if !request.subjectIds.isEmpty && !request.subjectIds.any (· = event.subject.id) then false
  else match request.minSeverity with
    | some minSeverity => rpcEventSeverityRank minSeverity ≤ rpcEventSeverityRank event.severity
    | none => true

/-- A frame of the stream, before it is written as a line of JSON. -/
inductive WatchFrame where
  | snapshot (events : List RpcEvent) (cursor : Option EventCursorRequest)
  | event (event : RpcEvent)
  | cursorExpired (reason : String)
  deriving DecidableEq

/-- The loop of the stream over what its receiver hands over. An error of the store
other than an expired cursor breaks the body. -/
def watchEventsFrames (request : WatchEventsRequest) :
    Option Nat → List WatchJobEvent → List (StoreResult WatchFrame)
  | _, [] => []
  | replayMaxSequence, .ok event :: rest =>
    if replayMaxSequence.any (event.sequenceNumber ≤ ·) then
      watchEventsFrames request replayMaxSequence rest
    else
      let rpcEvent := RpcEvent.ofEvent event
      if !watchEventMatchesRequest rpcEvent request then
        watchEventsFrames request replayMaxSequence rest
      else .ok (.event rpcEvent) :: watchEventsFrames request (some rpcEvent.sequence) rest
  | _, .error (.cursorExpired reason) :: _ => [.ok (.cursorExpired reason)]
  | _, .error error :: _ => [.error error]

def watchEventsStreamBody (response : WatchEventsLiveResponse) (request : WatchEventsRequest)
    (received : List WatchJobEvent) : List (StoreResult WatchFrame) :=
  .ok (.snapshot response.events response.cursor) ::
    watchEventsFrames request
      (response.subscription.replayMaxSequence.or response.subscription.resolvedCursorSequence)
      received

end Stream

end Atelia.Rpc
