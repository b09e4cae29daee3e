import Atelia.Foundation.Feed
import Atelia.Store.Runs

/-! A live watch beside concurrent operations. -/

namespace Atelia.Store

open Outcome

def filteredWatchEventBuffer : Nat := 1024
def maxLiveWatchSnapshot : Nat := 1000
def liveWatchSnapshotScanBatch : Nat := 256

abbrev WatchJobEvent : Type := StoreResult JobEvent

section Cursors

def cursorExpiredLiveEventId (id : JobEventId) : StoreError :=
  .cursorExpired s!"live watch event cursor {debug id} is no longer retained; refresh status before opening a live watch"

def cursorExpiredLaggedLiveFilter (skipped : Nat) : StoreError :=
  .cursorExpired s!"watch_events live filter fell behind and missed {skipped} events"

def cursorExpiredLiveSnapshot : StoreError :=
  .cursorExpired s!"live watch snapshot exceeds {maxLiveWatchSnapshot} retained events; use replay before opening a live watch"

def eventCursorSequence (inner : InMemoryInner) : EventCursor → StoreResult Nat
  | .beginning => .ok 0
  | .afterSequence sequence => .ok sequence
  | .afterEventId id => do
    let event ← okOr inner.jobEventsById[id]? (.invalidCursor s!"unknown event id: {debug id}")
    return event.sequenceNumber

def resolveEventCursorSequence (inner : InMemoryInner) : EventCursor → StoreResult (Option Nat)
  | .beginning => .ok none
  | .afterSequence sequence => .ok (some sequence)
  | .afterEventId id => do
    let sequence ← eventCursorSequence inner (.afterEventId id)
    return some sequence

def resolveLiveEventCursorSequence (inner : InMemoryInner) :
    EventCursor → StoreResult (Option Nat)
  | .afterEventId id => do
    let event ← okOr inner.jobEventsById[id]? (cursorExpiredLiveEventId id)
    return some event.sequenceNumber
  | cursor => resolveEventCursorSequence inner cursor

def liveCutoffSequence (inner : InMemoryInner) : Option Nat → Nat
  | some resolved => max resolved inner.nextEventSequence
  | none => inner.nextEventSequence

end Cursors

section Scan

structure EventQueryCandidate where
  event : JobEvent
  repositoryId : Option RepositoryId

def eventCandidateMatchesQuery (candidate : EventQueryCandidate) (query : EventQuery) : Bool :=
  matchesEventQuery candidate.event query
    (query.repositoryId.map fun repositoryId => (repositoryId, candidate.repositoryId))

/-- The repository of an event, when the query asks for one. -/
def candidateRepository (inner : InMemoryInner) (query : EventQuery) (event : JobEvent) :
    StoreResult (Option RepositoryId) :=
  match query.repositoryId with
  | none => .ok none
  | some _ => do
    let repositoryId ← eventRepositoryId inner event
    return some repositoryId

def queryCandidate (inner : InMemoryInner) (query : EventQuery) (entry : Nat × JobEventId) :
    StoreResult EventQueryCandidate := do
  let event ← okOr inner.jobEventsById[entry.2]? (.conflict "job_events"
    s!"sequence index references missing id {debug entry.2}")
  let repositoryId ← candidateRepository inner query event
  return ⟨event, repositoryId⟩

/-- The next entries of the sequence index, read under one lock. -/
def scanBatch (inner : InMemoryInner) (startSequence liveCutoffSequence : Nat) :
    List (Nat × JobEventId) :=
  (inner.jobEventsBySequence.toList.filter fun entry =>
    startSequence ≤ entry.1 && entry.1 ≤ liveCutoffSequence).take liveWatchSnapshotScanBatch

/-- Add the matching candidates to the snapshot, which must not grow too long. -/
def collectMatches (query : EventQuery) :
    List EventQueryCandidate → List JobEvent → StoreResult (List JobEvent)
  | [], events => .ok events
  | candidate :: rest, events =>
    if eventCandidateMatchesQuery candidate query then do
      reject (maxLiveWatchSnapshot < events.length + 1) cursorExpiredLiveSnapshot
      collectMatches query rest (events ++ [candidate.event])
    else collectMatches query rest events

/-- Where the scan goes on after a batch. -/
def nextScanSequence (lastSequence : Option Nat) (liveCutoffSequence : Nat) : Option Nat :=
  match lastSequence with
  | none => none
  | some sequence =>
    if sequence < maxSequence ∧ sequence + 1 ≤ liveCutoffSequence then some (sequence + 1) else none

end Scan

section Forwarder

inductive ForwarderState where
  | receiving
  | filtering (event : JobEvent)
  | sending (event : JobEvent)
  | failing (error : StoreError)
  | stopped

/-- The task that forwards matching events to the receiver of the watch. -/
structure Forwarder where
  liveCutoffSequence : Nat
  position : Nat
  state : ForwarderState

/-- What the forwarder does with an event it has received. -/
def Forwarder.accept (forwarder : Forwarder) (event : JobEvent) : Forwarder :=
  { forwarder with
    position := forwarder.position + 1
    state := if event.sequenceNumber ≤ forwarder.liveCutoffSequence then .receiving
      else .filtering event }

def Forwarder.enter (forwarder : Forwarder) (state : ForwarderState) : Forwarder :=
  { forwarder with state }

/-- What the filter decides about an event. -/
def filterDecision (event : JobEvent) : StoreResult Bool → ForwarderState
  | .ok true => .sending event
  | .ok false => .receiving
  | .error error => .failing error

end Forwarder

section System

/-- The channel for every event, and one for each repository, as the messages
ever sent to it. -/
abbrev Broadcasters : Type := Option RepositoryId → List JobEvent

def Broadcasters.send (broadcasters : Broadcasters) (target : Option RepositoryId)
    (event : JobEvent) : Broadcasters :=
  fun other => if other = target then broadcasters other ++ [event] else broadcasters other

/-- The sends that publish the events of an operation: each goes to the channel
for every event and then to the one of its repository. -/
def publishTargets (inner : InMemoryInner) :
    List JobEvent → StoreResult (List (Option RepositoryId × JobEvent))
  | [] => .ok []
  | event :: rest => do
    let repositoryId ← eventRepositoryId inner event
    let targets ← publishTargets inner rest
    return (none, event) :: (some repositoryId, event) :: targets

/-- Where the call of a watch stands. -/
inductive WatchPhase where
  | called
  | repositoryFound
  | subscribed (position : Nat)
  | scanning (position : Nat) (resolved : Option Nat) (cutoff startSequence : Nat)
      (events : List JobEvent)
  | refused (error : StoreError)
  | returned (snapshot : List JobEvent) (resolved : Option Nat) (forwarder : Forwarder)

/-- A store with one watch on it. `unpublished` are the sends that the holder of
the store lock still has to make; the lock is free when there are none. `queue`
is the channel to the receiver of the watch, `received` what was taken from it. -/
structure LiveWatch where
  inner : InMemoryInner
  unpublished : List (Option RepositoryId × JobEvent)
  broadcasters : Broadcasters
  phase : WatchPhase
  queue : List WatchJobEvent
  received : List WatchJobEvent
  closed : Bool

/-- A store that was just opened, and a watch about to be called. -/
def LiveWatch.start (inner : InMemoryInner) : LiveWatch where
  inner
  unpublished := []
  broadcasters := fun _ => []
  phase := .called
  queue := []
  received := []
  closed := false

def LiveWatch.forwarding (watch : LiveWatch) (snapshot : List JobEvent) (resolved : Option Nat)
    (forwarder : Forwarder) : LiveWatch :=
  { watch with phase := .returned snapshot resolved forwarder }

def LiveWatch.enqueue (watch : LiveWatch) (item : WatchJobEvent) : LiveWatch :=
  { watch with queue := watch.queue ++ [item] }

/-- The call returns its snapshot and starts the forwarder. -/
def WatchPhase.finish (position : Nat) (resolved : Option Nat) (cutoff : Nat)
    (events : List JobEvent) : WatchPhase :=
  .returned events resolved ⟨cutoff, position, .receiving⟩

/-- Resolve the cursor and begin the scan. -/
def beginScan (inner : InMemoryInner) (query : EventQuery) (position : Nat) : WatchPhase :=
  match resolveLiveEventCursorSequence inner query.cursor with
  | .error error => .refused error
  | .ok resolved =>
    let afterSequence := resolved.getD 0
    let cutoff := liveCutoffSequence inner resolved
    if afterSequence < maxSequence ∧ afterSequence + 1 ≤ cutoff then
      .scanning position resolved cutoff (afterSequence + 1) []
    else .finish position resolved cutoff []

/-- Read one batch of the scan. -/
def continueScan (inner : InMemoryInner) (query : EventQuery) (position : Nat)
    (resolved : Option Nat) (cutoff startSequence : Nat) (events : List JobEvent) : WatchPhase :=
  let batch := scanBatch inner startSequence cutoff
  match batch.mapM (queryCandidate inner query) >>= (collectMatches query · events) with
  | .error error => .refused error
  | .ok events =>
    match nextScanSequence (batch.getLast?.map (·.1)) cutoff with
    | some startSequence => .scanning position resolved cutoff startSequence events
    | none => .finish position resolved cutoff events

/-- The next part of the call that runs without interruption. -/
def WatchPhase.advance (query : EventQuery) (inner : InMemoryInner) (broadcasters : Broadcasters) :
    WatchPhase → WatchPhase
  | .called =>
    match query.repositoryId with
    | none => .subscribed (broadcasters none).length
    | some repositoryId =>
      match getRepository inner repositoryId with
      | .error error => .refused error
      | .ok _ => .repositoryFound
  | .repositoryFound => .subscribed (broadcasters query.repositoryId).length
  | .subscribed position => beginScan inner query position
  | .scanning position resolved cutoff startSequence events =>
    continueScan inner query position resolved cutoff startSequence events
  | .refused error => .refused error
  | .returned snapshot resolved forwarder => .returned snapshot resolved forwarder

/-- Whether that part takes the store lock. -/
def WatchPhase.locks (query : EventQuery) : WatchPhase → Bool
  | .called => query.repositoryId.isSome
  | .repositoryFound => false
  | _ => true

variable (broadcast : Feed.Broadcast JobEvent)

/-- A step of the publisher, the call, the forwarder or the client. -/
inductive LiveWatch.Internal (query : EventQuery) : LiveWatch → LiveWatch → Prop where
  | publish {watch : LiveWatch} {target : Option RepositoryId} {event : JobEvent}
      {rest : List (Option RepositoryId × JobEvent)}
      (next : watch.unpublished = (target, event) :: rest) :
    Internal query watch
      { watch with
        unpublished := rest
        broadcasters := watch.broadcasters.send target event }
  | call {watch : LiveWatch} (running : ∀ snapshot resolved forwarder,
        watch.phase ≠ .returned snapshot resolved forwarder)
      (accepted : ∀ error, watch.phase ≠ .refused error)
      (free : watch.phase.locks query = true → watch.unpublished = []) :
    Internal query watch
      { watch with phase := watch.phase.advance query watch.inner watch.broadcasters }
  | receive {watch : LiveWatch} {snapshot : List JobEvent} {resolved : Option Nat}
      {forwarder : Forwarder} {event : JobEvent}
      (returned : watch.phase = .returned snapshot resolved forwarder)
      (waiting : forwarder.state = .receiving)
      (received : broadcast.recv (watch.broadcasters query.repositoryId) forwarder.position =
        .value event) :
    Internal query watch (watch.forwarding snapshot resolved (forwarder.accept event))
  | lag {watch : LiveWatch} {snapshot : List JobEvent} {resolved : Option Nat}
      {forwarder : Forwarder} {skipped : Nat}
      (returned : watch.phase = .returned snapshot resolved forwarder)
      (waiting : forwarder.state = .receiving)
      (lagged : broadcast.recv (watch.broadcasters query.repositoryId) forwarder.position =
        .lagged skipped) :
    Internal query watch (watch.forwarding snapshot resolved
      (forwarder.enter (.failing (cursorExpiredLaggedLiveFilter skipped))))
  | filter {watch : LiveWatch} {snapshot : List JobEvent} {resolved : Option Nat}
      {forwarder : Forwarder} {event : JobEvent}
      (returned : watch.phase = .returned snapshot resolved forwarder)
      (holding : forwarder.state = .filtering event) (free : watch.unpublished = []) :
    Internal query watch (watch.forwarding snapshot resolved
      (forwarder.enter (filterDecision event (eventMatchesQuery watch.inner event query))))
  | send {watch : LiveWatch} {snapshot : List JobEvent} {resolved : Option Nat}
      {forwarder : Forwarder} {event : JobEvent}
      (returned : watch.phase = .returned snapshot resolved forwarder)
      (holding : forwarder.state = .sending event) (listening : watch.closed = false)
      (room : watch.queue.length < filteredWatchEventBuffer) :
    Internal query watch
      ((watch.forwarding snapshot resolved (forwarder.enter .receiving)).enqueue (.ok event))
  | fail {watch : LiveWatch} {snapshot : List JobEvent} {resolved : Option Nat}
      {forwarder : Forwarder} {error : StoreError}
      (returned : watch.phase = .returned snapshot resolved forwarder)
      (holding : forwarder.state = .failing error) (listening : watch.closed = false)
      (room : watch.queue.length < filteredWatchEventBuffer) :
    Internal query watch
      ((watch.forwarding snapshot resolved (forwarder.enter .stopped)).enqueue (.error error))
  | stop {watch : LiveWatch} {snapshot : List JobEvent} {resolved : Option Nat}
      {forwarder : Forwarder}
      (returned : watch.phase = .returned snapshot resolved forwarder)
      (closed : watch.closed = true) (working : forwarder.state ≠ .stopped)
      (noticed : ∀ event, forwarder.state ≠ .filtering event) :
    Internal query watch (watch.forwarding snapshot resolved (forwarder.enter .stopped))
  | take {watch : LiveWatch} {item : WatchJobEvent} {rest : List WatchJobEvent}
      (listening : watch.closed = false) (next : watch.queue = item :: rest) :
    Internal query watch { watch with queue := rest, received := watch.received ++ [item] }

/-- A step of the system: an internal one, an operation of the store that takes
the lock, or the end of the client's interest. -/
inductive LiveWatch.Step (query : EventQuery) : LiveWatch → LiveWatch → Prop where
  | internal {watch next : LiveWatch} (step : watch.Internal broadcast query next) : Step query watch next
  | commit {watch : LiveWatch} {operation : StoreOperation} {inner : InMemoryInner}
      {events : List JobEvent} {targets : List (Option RepositoryId × JobEvent)}
      (free : watch.unpublished = [])
      (succeeded : operation.exec watch.inner = .ok (inner, events))
      (prepared : publishTargets inner events = .ok targets) :
    Step query watch { watch with inner, unpublished := targets }
  | close {watch : LiveWatch} : Step query watch { watch with closed := true }

end System

end Atelia.Store
