import Atelia.Ledger.LiveDelivery
import Atelia.Ledger.PageReading
import Atelia.Rpc.Watch

/-! The stream of a remote watch beside the query it stands for. -/

namespace Atelia.Rpc

open Outcome Store Feed

variable {parser : UuidParser} {request : WatchEventsRequest} {query : EventQuery}
  {incoming : EventCursorRequest}
  {inner : InMemoryInner} {event : JobEvent} {log : List JobEvent}

/-- The events in the frames of a stream. -/
def streamEvents (items : List (StoreResult WatchFrame)) : List RpcEvent :=
  items.flatMap fun
    | .ok (.snapshot events _) => events
    | .ok (.event event) => [event]
    | _ => []

/-- The event names the repository it belongs to. -/
def namesRepository (event : JobEvent) : Bool :=
  event.refs.repositoryId.isSome

section Matching

/-- What a query takes from its request. -/
structure Asks (parser : UuidParser) (query : EventQuery) (request : WatchEventsRequest)
    (incoming : EventCursorRequest) :
    Prop where
  repository : ∃ id : RepositoryId, query.repositoryId = some id ∧ id.text = request.repositoryId
  subjects : query.subjectIds = request.subjectIds
  jobs : query.jobIds = []
  severity : query.minSeverity = request.minSeverity.map parseEventSeverity
  size : query.pageSize ≠ some 0
  token : query.pageToken = none
  cursor : parseEventCursor parser incoming = .ok query.cursor

private theorem parseWatchEventsLimit_pos {limit : Option Nat} {size : Nat}
    (limited : parseWatchEventsLimit limit = .ok size) : size ≠ 0 := by
  rcases limit with _ | _ | limit
  · cases limited
    decide
  · cases limited
  · obtain rfl := Except.ok.inj limited
    simp [maxWatchEventsPage]

theorem Asks.of_built (built : buildWatchEventQueryFromRequest parser request = .ok (query, incoming)) :
    Asks parser query request incoming := by
  simp only [buildWatchEventQueryFromRequest, parseRepositoryId, bind_eq_ok, okOr_eq_ok, pure_eq_ok,
    Prod.mk.injEq] at built
  obtain ⟨id, parsed, cursor, parsedCursor, size, limited, rfl, rfl⟩ := built
  refine ⟨⟨id, rfl, ?_⟩, rfl, rfl, rfl, ?_, rfl, parsedCursor⟩
  · simp only [Identifier.tryFromString, Option.dite_none_right_eq_some, Option.some.injEq] at parsed
    obtain ⟨_, rfl⟩ := parsed
    rfl
  · intro empty
    exact parseWatchEventsLimit_pos limited (Option.some.inj empty)

private theorem rank_ofSeverity (severity : EventSeverity) :
    rpcEventSeverityRank (.ofSeverity severity) = severityRank severity := by
  cases severity <;> rfl

private theorem rank_parseEventSeverity (severity : RpcEventSeverity) :
    severityRank (parseEventSeverity severity) = rpcEventSeverityRank severity := by
  cases severity <;> rfl

private theorem text_ne_empty (id : RepositoryId) : id.text ≠ "" := by
  intro empty
  have led := id.led
  rw [empty] at led
  revert led
  decide

/-- What the store has compared when a query selects an event. -/
theorem Asks.selected (asks : Asks parser query request incoming)
    (selected : matchesQuery inner query event = true) :
    (∃ id : RepositoryId, id.text = request.repositoryId ∧
      eventRepositoryId inner event = .ok id) ∧
      (request.subjectIds.isEmpty = true ∨ event.subject.subjectId ∈ request.subjectIds) ∧
      ∀ severity, request.minSeverity = some severity →
        rpcEventSeverityRank severity ≤ severityRank event.severity := by
  obtain ⟨id, asked, text⟩ := asks.repository
  cases derived : eventRepositoryId inner event with
  | error _ =>
    rw [matchesQuery, eventMatchesQuery, asked, derived] at selected
    cases selected
  | ok own =>
    have chosen : matchesEventQuery event query (some (id, some own)) = true := by
      rw [matchesQuery, eventMatchesQuery, asked, derived] at selected
      exact selected
    simp only [matchesEventQuery, asks.subjects, asks.severity, Bool.and_eq_true, decide_eq_true_eq,
      Option.some.injEq, Bool.or_eq_true, List.contains_iff_mem] at chosen
    obtain ⟨⟨⟨same, subject⟩, _⟩, severity⟩ := chosen
    refine ⟨⟨id, text, same ▸ rfl⟩, subject, ?_⟩
    intro least named
    rw [named] at severity
    simpa [rank_parseEventSeverity] using severity

/-- An event that the query selects passes the stream exactly when it names its
repository. -/
theorem Asks.matches_eq (asks : Asks parser query request incoming)
    (selected : matchesQuery inner query event = true) :
    watchEventMatchesRequest (.ofEvent event) request = namesRepository event := by
  obtain ⟨⟨id, text, derived⟩, subject, severity⟩ := asks.selected selected
  unfold watchEventMatchesRequest namesRepository
  cases named : event.refs.repositoryId with
  | none =>
    have differs : request.repositoryId ≠ "" := text ▸ text_ne_empty id
    simp [RpcEvent.ofEvent, RpcEventRefs.ofRefs, named, differs]
  | some own =>
    obtain rfl : own = id := by
      rw [eventRepositoryId, named] at derived
      exact Except.ok.inj derived
    have about : (!request.subjectIds.isEmpty &&
        !request.subjectIds.any (· = event.subject.subjectId)) = false := by
      rcases subject with all | member
      · simp [all]
      · simp [member]
    simp only [RpcEvent.ofEvent, RpcEventRefs.ofRefs, named, Option.map_some, Option.getD_some, text,
      ne_eq, not_true_eq_false, if_false, about, Option.isSome_some]
    cases least : request.minSeverity with
    | none => rfl
    | some least' => simpa [rank_ofSeverity] using severity least' least

end Matching

section Frames

/-- The frames of events that come in order and after the cutoff are those that match
the request. -/
theorem streamEvents_frames (request : WatchEventsRequest) {events : List JobEvent}
    {tail : List WatchJobEvent}
    (ends : tail = [] ∨ ∃ reason, tail = [.error (.cursorExpired reason)])
    (ordered : events.Pairwise (·.sequenceNumber < ·.sequenceNumber)) {cutoff : Option Nat}
    (after : ∀ sequence ∈ cutoff, ∀ event ∈ events, sequence < event.sequenceNumber) :
    streamEvents (watchEventsFrames request cutoff (events.map .ok ++ tail)) =
      (events.filter fun event => watchEventMatchesRequest (.ofEvent event) request).map
        RpcEvent.ofEvent := by
  induction events generalizing cutoff with
  | nil =>
    rcases ends with rfl | ⟨reason, rfl⟩
    · rfl
    · rfl
  | cons event rest ih =>
    rw [List.pairwise_cons] at ordered
    have fresh : cutoff.any (event.sequenceNumber ≤ ·) = false := by
      cases named : cutoff with
      | none => rfl
      | some sequence => simpa using after sequence named event List.mem_cons_self
    rw [List.map_cons, List.cons_append, watchEventsFrames, if_neg (by simp [fresh])]
    rw [List.filter_cons]
    cases passes : watchEventMatchesRequest (.ofEvent event) request with
    | false =>
      simp only [passes, Bool.not_false, if_true, Bool.false_eq_true, if_false]
      exact ih ordered.2 fun sequence named other member =>
        after sequence named other (List.mem_cons_of_mem _ member)
    | true =>
      have next : ∀ sequence ∈ some event.sequenceNumber, ∀ other ∈ rest,
          sequence < other.sequenceNumber := by
        intro sequence named other member
        obtain rfl := Option.some.inj named
        exact ordered.1 other member
      simp only [passes, Bool.not_true, Bool.false_eq_true, if_false, if_true, List.map_cons]
      exact congrArg (RpcEvent.ofEvent event :: ·) (ih ordered.2 next)

/-- The cutoff that the stream starts from: the last event of the snapshot or else
the resolved cursor. -/
theorem cutoff_eq (snapshot : List JobEvent) {resolved : Option Nat}
    (anchored : ∀ sequence, incoming = .afterSequence sequence → resolved = some sequence) :
    let subscription :=
      (watchEventsLiveResponse incoming (.ofStore snapshot resolved)).subscription
    subscription.replayMaxSequence.or subscription.resolvedCursorSequence =
      (snapshot.getLast?.map (·.sequenceNumber)).or resolved := by
  cases ends : snapshot.getLast? with
  | some last => simp [watchEventsLiveResponse, LiveEventSubscription.ofStore, ends]
  | none =>
    obtain rfl := List.getLast?_eq_none_iff.mp ends
    cases incoming with
    | beginning | afterEventId =>
      cases resolved <;>
        simp [watchEventsLiveResponse, LiveEventSubscription.ofStore, watchEventsLastSequence]
    | afterSequence sequence =>
      obtain rfl := anchored sequence rfl
      simp [watchEventsLiveResponse, LiveEventSubscription.ofStore, watchEventsLastSequence]

end Frames

section Agreement

variable {watch : LiveWatch} {snapshot : List JobEvent} {resolved : Option Nat}
  {forwarder : Forwarder} {broadcast : Broadcast JobEvent}

/-- No event that names its repository comes after one that names none. -/
def NamedFirst (events : List JobEvent) : Prop :=
  events.Pairwise fun earlier later => namesRepository later = true → namesRepository earlier = true

/-- What the query of a watch selects in a later state, read as one page. -/
theorem Asks.replay (asks : Asks parser query request incoming) (reachable : Store.Reachable inner)
    (found : resolveLiveEventCursorSequence inner query.cursor = .ok resolved) :
    ∃ page, queryJobEvents inner { query with pageSize := none } = .ok page ∧
      page.events = inner.selectedEvents query (resolved.getD 0) := by
  have cursor : eventCursorSequence inner query.cursor = .ok (resolved.getD 0) := by
    cases named : query.cursor with
    | beginning | afterSequence =>
      rw [named] at found
      cases found
      rfl
    | afterEventId id =>
      rw [named] at found
      simp only [resolveLiveEventCursorSequence, bind_eq_ok, okOr_eq_ok, pure_eq_ok] at found
      obtain ⟨event, stored, rfl⟩ := found
      simp [eventCursorSequence, stored, okOr, Bind.bind, Except.bind, Pure.pure, Except.pure]
  obtain ⟨page, read, events, _⟩ := @queryJobEvents_page inner { query with pageSize := none }
    (resolved.getD 0) 0 none reachable cursor (by simp) rfl
  refine ⟨page, ?_, ?_⟩
  · rw [← read, asks.token]
  · rw [events, List.drop_zero]
    exact List.take_of_length_le (selectedEvents_length reachable query _)

/-- Selected events differ when they are shown to a client. -/
theorem ofEvent_injective {afterSequence : Nat} {other : JobEvent} (reachable : Store.Reachable inner)
    (member : event ∈ inner.selectedEvents query afterSequence)
    (member' : other ∈ inner.selectedEvents query afterSequence)
    (alike : RpcEvent.ofEvent event = RpcEvent.ofEvent other) : event = other := by
  obtain ⟨log, logged⟩ := reachable.logged
  have ids : event.id = other.id := Identifier.text_injective (congrArg RpcEvent.eventId alike)
  rw [InMemoryInner.selectedEvents, logged.events_eq] at member member'
  have stored := (logged.stored event).mp (List.mem_of_mem_filter member)
  have stored' := (logged.stored other).mp (List.mem_of_mem_filter member')
  rw [ids] at stored
  exact Option.some.inj (stored.symm.trans stored')

/-- The stream carries the snapshot and, of the events that the receiver has handed
over, those that name their repository. -/
theorem stream_eq (asks : Asks parser query request incoming) (reachable : Store.Reachable inner)
    (run : Relation.ReflTransGen (LiveWatch.Step broadcast query) (.start inner) watch)
    (stands : watch.phase = .returned snapshot resolved forwarder) :
    streamEvents (watchEventsStreamBody
        (watchEventsLiveResponse incoming (.ofStore snapshot resolved)) request watch.received) =
      (snapshot ++ (deliveredEvents watch.received).filter namesRepository).map
        RpcEvent.ofEvent := by
  obtain ⟨part, tail, ends, received⟩ := received_eq reachable run stands
  have found := PhaseResolved.of_run reachable run
  rw [stands] at found
  have reached := reachable.trans (run_of_watch run)
  have ordered := (selectedEvents_ordered reached query (resolved.getD 0)).sublist part.sublist
  rw [List.pairwise_append] at ordered
  have selected (event : JobEvent) (member : event ∈ deliveredEvents watch.received) :=
    mem_selectedEvents (part.subset (List.mem_append_right snapshot member))
  have anchored (sequence : Nat) (named : incoming = .afterSequence sequence) :
      resolved = some sequence := by
    have cursor := asks.cursor
    rw [named] at cursor
    obtain same := Except.ok.inj cursor
    rw [PhaseResolved, ← same] at found
    exact (Except.ok.inj found).symm
  have after : ∀ sequence ∈ (snapshot.getLast?.map (·.sequenceNumber)).or resolved,
      ∀ event ∈ deliveredEvents watch.received, sequence < event.sequenceNumber := by
    intro sequence named event member
    cases last : snapshot.getLast? with
    | none =>
      rw [last] at named
      have resolution : resolved = some sequence := named
      have later := (selected event member).1
      rwa [resolution] at later
    | some event' =>
      rw [last] at named
      obtain rfl : event'.sequenceNumber = sequence := Option.some.inj named
      exact ordered.2.2 event' (List.mem_of_getLast? last) event member
  have frames := streamEvents_frames request ends ordered.2.1 after
  rw [← received] at frames
  have passing : ((deliveredEvents watch.received).filter fun event =>
      watchEventMatchesRequest (.ofEvent event) request) =
        (deliveredEvents watch.received).filter namesRepository :=
    List.filter_congr fun event member => asks.matches_eq (selected event member).2
  rw [passing] at frames
  rw [watchEventsStreamBody, cutoff_eq snapshot anchored, List.map_append, ← frames]
  rfl

/-- The events of the stream agree with the replay exactly when the events that the
receiver hands over name their repository up to some point and none after it does. -/
theorem watch_stream_agrees_iff
    (built : buildWatchEventQueryFromRequest parser request = .ok (query, incoming))
    (reachable : Store.Reachable inner)
    (run : Relation.ReflTransGen (LiveWatch.Step broadcast query) (.start inner) watch)
    (stands : watch.phase = .returned snapshot resolved forwarder) :
    ∃ page, queryJobEvents watch.inner { query with pageSize := none } = .ok page ∧
      let events := streamEvents (watchEventsStreamBody
        (watchEventsLiveResponse incoming (.ofStore snapshot resolved)) request watch.received)
      events.Pairwise (·.sequence < ·.sequence) ∧
        (events <+: page.events.map RpcEvent.ofEvent ↔
          NamedFirst (deliveredEvents watch.received)) := by
  have asks := Asks.of_built built
  have reached := reachable.trans (run_of_watch run)
  have found := PhaseResolved.of_run reachable run
  rw [stands] at found
  obtain ⟨page, read, selected⟩ := asks.replay reached found
  obtain ⟨part, _⟩ := received_eq reachable run stands
  refine ⟨page, read, ?_⟩
  rw [stream_eq asks reachable run stands, selected]
  have kept : (snapshot ++ (deliveredEvents watch.received).filter namesRepository).Sublist
      (watch.inner.selectedEvents query (resolved.getD 0)) :=
    (List.filter_sublist.append_left snapshot).trans part.sublist
  constructor
  · rw [List.pairwise_map]
    exact (selectedEvents_ordered reached query _).sublist kept
  · have member {event : JobEvent} (listed : event ∈ deliveredEvents watch.received) :=
      part.subset (List.mem_append_right snapshot listed)
    obtain ⟨more, same⟩ := part
    rw [← same, List.append_assoc, List.map_append, List.map_append,
      List.prefix_append_right_inj]
    apply filter_prefix_iff
    intro first listed second listed' alike
    exact ofEvent_injective reached (member listed) (member listed') alike

end Agreement

section Unnamed

/-! A watch of a repository in which two events of a job are committed. -/

/-- A parser that accepts every plain text. -/
def plainParser : UuidParser := ⟨Text.isPlain, id⟩

def exampleRequest : WatchEventsRequest where
  repositoryId := exampleRepository.id.text
  cursor := none
  subjectIds := []
  minSeverity := none
  limit := none

def exampleQuery : EventQuery :=
  { repositoryId := some exampleRepository.id, pageSize := some maxWatchEventsPage }

/-- The event names its job and not its repository. -/
def unnamedEvent : JobEvent :=
  { exampleEvent 1 .message with refs := { jobId := some exampleJob.id } }

def twoMessages (first : JobEvent) : List StoreOperation :=
  [.appendJobEvent first, jobNotice 2]

private def streamAndReplay (watch : LiveWatch) : List Nat × List Nat × Bool :=
  match watch.phase, queryJobEvents watch.inner { exampleQuery with pageSize := none } with
  | .returned snapshot resolved _, .ok page =>
    ((streamEvents (watchEventsStreamBody (watchEventsLiveResponse .beginning
        (.ofStore snapshot resolved)) exampleRequest watch.received)).map (·.sequence),
      page.events.map (·.sequenceNumber), (deliveredEvents watch.received).all namesRepository)
  | _, _ => ([], [], false)

private def streamsMessages (inner : InMemoryInner) : Bool :=
  ((LiveWatch.start inner).scheduled (.retaining 1024) exampleQuery 8 (twoMessages unnamedEvent)).map
      streamAndReplay = some ([1, 3], [1, 2, 3], false) &&
    ((LiveWatch.start inner).scheduled (.retaining 1024) exampleQuery 8
      (twoMessages (exampleEvent 1 .message))).map
      streamAndReplay = some ([1, 2, 3], [1, 2, 3], true)

private theorem streamsMessages_reached : reaches exampleSubmission streamsMessages = true := by
  decide +kernel

private theorem exampleRequest_built :
    buildWatchEventQueryFromRequest plainParser exampleRequest = .ok (exampleQuery, .beginning) := by
  have named : Identifier.tryFromString plainParser .repository exampleRepository.id.text =
      some exampleRepository.id := by
    rw [Identifier.tryFromString, dif_pos (by decide)]
  rw [buildWatchEventQueryFromRequest, parseRepositoryId, exampleRequest, named]
  rfl

/-- A state of the run of a watch in which the call has returned, with the sequence
numbers of the stream and of the replay. -/
private theorem of_scheduled {inner : InMemoryInner} {operations : List StoreOperation}
    {stream : Nat} {rest replay : List Nat} {named : Bool}
    (ran : ((LiveWatch.start inner).scheduled (.retaining 1024) exampleQuery 8 operations).map
      streamAndReplay =
      some (stream :: rest, replay, named)) :
    ∃ watch snapshot resolved forwarder page,
      Relation.ReflTransGen (LiveWatch.Step (.retaining 1024) exampleQuery) (.start inner) watch ∧
      watch.phase = .returned snapshot resolved forwarder ∧
      queryJobEvents watch.inner { exampleQuery with pageSize := none } = .ok page ∧
      (streamEvents (watchEventsStreamBody (watchEventsLiveResponse .beginning
        (.ofStore snapshot resolved)) exampleRequest watch.received)).map (·.sequence) =
          stream :: rest ∧
      page.events.map (·.sequenceNumber) = replay ∧
      (deliveredEvents watch.received).all namesRepository = named := by
  rw [Option.map_eq_some_iff] at ran
  obtain ⟨watch, ran, numbers⟩ := ran
  unfold streamAndReplay at numbers
  split at numbers
  · rename_i stands read
    obtain ⟨streamed, others⟩ := Prod.mk.inj numbers
    exact ⟨watch, _, _, _, _, LiveWatch.scheduled_run ran, stands, read, streamed,
      Prod.mk.inj others⟩
  · cases (Prod.mk.inj numbers).1

/-- The stream goes on after an event that the replay selects and that it has not
carried. -/
theorem unnamed_event_skipped :
    ∃ inner watch snapshot resolved forwarder page, Store.Reachable inner ∧
      buildWatchEventQueryFromRequest plainParser exampleRequest = .ok (exampleQuery, .beginning) ∧
      Relation.ReflTransGen (LiveWatch.Step (.retaining 1024) exampleQuery) (.start inner) watch ∧
      watch.phase = .returned snapshot resolved forwarder ∧
      queryJobEvents watch.inner { exampleQuery with pageSize := none } = .ok page ∧
      ¬streamEvents (watchEventsStreamBody (watchEventsLiveResponse .beginning
        (.ofStore snapshot resolved)) exampleRequest watch.received) <+:
          page.events.map RpcEvent.ofEvent := by
  obtain ⟨inner, reachable, streams⟩ := Store.Reachable.of_reaches streamsMessages_reached
  simp only [streamsMessages, Bool.and_eq_true, decide_eq_true_eq] at streams
  obtain ⟨watch, snapshot, resolved, forwarder, page, run, stands, read, streamed, replayed, _⟩ :=
    of_scheduled streams.1
  refine ⟨inner, watch, snapshot, resolved, forwarder, page, reachable, exampleRequest_built, run,
    stands, read, ?_⟩
  intro part
  have numbers := part.map RpcEvent.sequence
  rw [streamed, List.map_map] at numbers
  change [1, 3] <+: page.events.map (·.sequenceNumber) at numbers
  rw [replayed] at numbers
  revert numbers
  decide

theorem named_events_streamed :
    ∃ inner watch snapshot resolved forwarder page,
      Relation.ReflTransGen (LiveWatch.Step (.retaining 1024) exampleQuery) (.start inner) watch ∧
      watch.phase = .returned snapshot resolved forwarder ∧
      queryJobEvents watch.inner { exampleQuery with pageSize := none } = .ok page ∧
      streamEvents (watchEventsStreamBody (watchEventsLiveResponse .beginning
        (.ofStore snapshot resolved)) exampleRequest watch.received) <+:
          page.events.map RpcEvent.ofEvent := by
  obtain ⟨inner, reachable, streams⟩ := Store.Reachable.of_reaches streamsMessages_reached
  simp only [streamsMessages, Bool.and_eq_true, decide_eq_true_eq] at streams
  obtain ⟨watch, snapshot, resolved, forwarder, page, run, stands, read, _, _, named⟩ :=
    of_scheduled streams.2
  obtain ⟨_, read', _, agrees⟩ :=
    watch_stream_agrees_iff exampleRequest_built reachable run stands
  cases read.symm.trans read'
  refine ⟨inner, watch, snapshot, resolved, forwarder, page, run, stands, read, agrees.mpr ?_⟩
  rw [List.all_eq_true] at named
  exact List.pairwise_of_forall_mem_list fun earlier member _ _ _ => named earlier member

end Unnamed

end Atelia.Rpc
