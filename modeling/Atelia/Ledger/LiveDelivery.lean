import Atelia.Ledger.JobLifecycle
import Atelia.Ledger.LiveWatch

/-! What a live watch delivers in every run of the system, and that it can always be
drained. -/

namespace Atelia.Store

open Outcome Feed

variable {inner : InMemoryInner} {log : List JobEvent} {query : EventQuery} {opened : Nat}
  {watch next : LiveWatch} {snapshot : List JobEvent} {resolved : Option Nat}
  {forwarder : Forwarder} {broadcast : Broadcast JobEvent}

section Runs

theorem Watched.take (watched : Watched opened query watch log) {item : WatchJobEvent}
    {rest : List WatchJobEvent} (front : watch.queue = item :: rest) :
    Watched opened query { watch with queue := rest, received := watch.received ++ [item] }
      log := by
  have ok := watched.phase
  rw [front, List.append_cons] at ok
  exact ⟨⟨watched.carried.consistent, watched.carried.since, watched.carried.sent⟩, ok⟩

theorem Forwarded.close {accept : JobEvent → Bool} {closed : Bool} {items : List WatchJobEvent}
    {passed : List JobEvent} {state : ForwarderState}
    (forwarded : Forwarded accept log closed items passed state) :
    Forwarded accept log true items passed state := by
  cases state with
  | stopped => exact forwarded.imp (fun early => ⟨rfl, early.2⟩) id
  | receiving => exact forwarded
  | filtering => exact forwarded
  | sending => exact forwarded
  | failing => exact forwarded

theorem Watched.close (watched : Watched opened query watch log) :
    Watched opened query { watch with closed := true } log := by
  refine ⟨⟨watched.carried.consistent, watched.carried.since, watched.carried.sent⟩, ?_⟩
  have ok := watched.phase
  cases stands : watch.phase with
  | returned snapshot resolved forwarder =>
    rw [stands] at ok
    exact { ok with forwarded := ok.forwarded.close }
  | called | repositoryFound | subscribed | scanning | refused =>
    rw [stands] at ok
    exact ok

theorem Watched.internal (watched : Watched opened query watch log)
    (step : watch.Internal broadcast query next) : Watched opened query next log := by
  cases step with
  | publish head => exact watched.publish head
  | call => exact watched.call
  | receive stands waiting received => exact watched.receive stands waiting received
  | lag stands waiting lagged => exact watched.lag stands waiting lagged
  | filter stands holding => exact watched.filter stands holding
  | send stands holding => exact watched.send stands holding
  | fail stands holding => exact watched.fail stands holding
  | stop stands closed working noticed => exact watched.stop stands closed working noticed
  | take _ front => exact watched.take front

theorem Watched.step (watched : Watched opened query watch log) (step : watch.Step broadcast query next) :
    ∃ log, Watched opened query next log := by
  cases step with
  | internal step => exact ⟨log, watched.internal step⟩
  | commit free succeeded prepared => exact ⟨_, watched.commit free succeeded prepared⟩
  | close => exact ⟨log, watched.close⟩

/-- The invariant holds in every state of every run. -/
theorem Watched.of_run (reachable : Reachable inner)
    (run : Relation.ReflTransGen (LiveWatch.Step broadcast query) (.start inner) watch) :
    ∃ opened log, Watched opened query watch log := by
  obtain ⟨start, initial⟩ := Watched.start reachable query
  induction run with
  | refl => exact ⟨_, start, initial⟩
  | tail _ step ih =>
    obtain ⟨opened, log, watched⟩ := ih
    obtain ⟨later, watchedLater⟩ := watched.step step
    exact ⟨opened, later, watchedLater⟩

/-- The ledger beside a watch only moves by operations of the store. -/
theorem run_of_watch
    (run : Relation.ReflTransGen (LiveWatch.Step broadcast query) (.start inner) watch) :
    Run inner watch.inner := by
  induction run with
  | refl => exact .refl
  | tail _ step ih =>
    cases step with
    | internal step =>
      cases step
      all_goals exact ih
    | commit _ succeeded => exact ih.tail ⟨_, _, succeeded⟩
    | close => exact ih

end Runs

section Delivery

/-- The snapshot and the live events of the channel, sent and unsent, are the
selected events of the ledger. -/
theorem Watched.selectedEvents_eq (watched : Watched opened query watch log)
    (stands : watch.phase = .returned snapshot resolved forwarder) :
    watch.inner.selectedEvents query (resolved.getD 0) = snapshot ++
      (watch.broadcasters query.repositoryId ++ sendsTo watch.unpublished query.repositoryId).filter
        (live watch.inner query forwarder.liveCutoffSequence) := by
  have returned := watched.returned stands
  have consistent := watched.carried.consistent
  have cutoffOk := returned.cutoffOk
  rw [InMemoryInner.selectedEvents, consistent.logged.events_eq,
    filter_split consistent.logged.ordered _ forwarder.liveCutoffSequence,
    watched.carried.sent, returned.collected]
  congr 1
  · rw [window, List.filter_filter]
    apply List.filter_congr
    intro event _
    rw [Bool.and_comm, Bool.and_comm (matchesQuery _ _ _), ← Bool.and_assoc]
    congr 1
    exact Bool.and_comm _ _
  · have unopened : ∀ event ∈ log.take opened,
        live watch.inner query forwarder.liveCutoffSequence event = false := by
      intro event member
      have early := consistent.logged.sequenceNumber_le_of_take member
      have before := cutoffOk.since
      simp only [live, Bool.and_eq_false_iff, decide_eq_false_iff_not]
      omega
    calc log.filter (fun event => decide (resolved.getD 0 < event.sequenceNumber) &&
            matchesQuery watch.inner query event &&
            decide (forwarder.liveCutoffSequence < event.sequenceNumber))
        = log.filter (live watch.inner query forwarder.liveCutoffSequence) := by
          apply List.filter_congr
          intro event _
          have after := cutoffOk.after
          rw [live, Bool.eq_iff_iff]
          simp only [Bool.and_eq_true, decide_eq_true_eq]
          constructor
          · exact fun chosen => ⟨chosen.2, chosen.1.2⟩
          · exact fun chosen => ⟨⟨Nat.lt_of_le_of_lt after chosen.1, chosen.2⟩, chosen.1⟩
      _ = (log.drop opened).filter (live watch.inner query forwarder.liveCutoffSequence) :=
          (filter_drop unopened).symm
      _ = _ := by
          rw [List.filter_filter]
          apply List.filter_congr
          intro event _
          rw [Bool.eq_iff_iff, Bool.and_eq_true]
          constructor
          · intro alive
            rw [live, Bool.and_eq_true] at alive
            exact ⟨Bool.and_eq_true _ _ ▸ alive, onChannel_of_matches alive.2⟩
          · exact fun chosen => chosen.1

/-- What was put on the queue is a part of the live events that were passed; an
error only ends it. -/
theorem Forwarded.items {accept : JobEvent → Bool} {closed : Bool} {items : List WatchJobEvent}
    {passed : List JobEvent} {state : ForwarderState}
    (forwarded : Forwarded accept log closed items passed state) :
    (∃ sent, sent <+: passed ∧ items = sent.map .ok) ∨
      (state = .stopped ∧ ∃ skipped, 0 < skipped ∧
        items = passed.map .ok ++ [.error (cursorExpiredLaggedLiveFilter skipped)]) := by
  cases state with
  | receiving => exact .inl ⟨passed, List.prefix_refl _, forwarded⟩
  | filtering event =>
    obtain ⟨_, earlier, sent, split⟩ := forwarded
    exact .inl ⟨earlier, ⟨_, split.symm⟩, sent⟩
  | sending event =>
    obtain ⟨earlier, sent, split⟩ := forwarded
    exact .inl ⟨earlier, ⟨_, split.symm⟩, sent⟩
  | failing error => exact .inl ⟨passed, List.prefix_refl _, forwarded.1⟩
  | stopped =>
    rcases forwarded with ⟨_, early⟩ | lagged
    · exact .inl early
    · exact .inr ⟨rfl, lagged⟩

private theorem received_of_items {received queue : List WatchJobEvent} {sent : List JobEvent}
    (items : received ++ queue = sent.map .ok) :
    ∃ events, events <+: sent ∧ received = events.map .ok := by
  obtain ⟨events, rest, rfl, taken, _⟩ := List.map_eq_append_iff.mp items.symm
  exact ⟨events, List.prefix_append _ _, taken.symm⟩

private theorem received_of_failed {received queue : List WatchJobEvent} {sent : List JobEvent}
    {error : StoreError} (items : received ++ queue = sent.map .ok ++ [.error error]) :
    (∃ events, events <+: sent ∧ received = events.map .ok) ∨
      (queue = [] ∧ received = sent.map .ok ++ [.error error]) := by
  rcases List.eq_nil_or_concat queue with rfl | ⟨front, last, rfl⟩
  · exact .inr ⟨rfl, by simpa using items⟩
  · rw [List.concat_eq_append, ← List.append_assoc] at items
    exact .inl (received_of_items (List.append_inj' items rfl).1)

/-- Nothing is left to publish, to forward or to take. -/
structure LiveWatch.Drained (watch : LiveWatch) (broadcast : Broadcast JobEvent)
    (query : EventQuery) (forwarder : Forwarder) : Prop where
  published : watch.unpublished = []
  taken : watch.queue = []
  listening : watch.closed = false
  idle : forwarder.state = .stopped ∨ forwarder.state = .receiving ∧
    broadcast.recv (watch.broadcasters query.repositoryId) forwarder.position = .empty

theorem Watched.delivered (watched : Watched opened query watch log)
    (stands : watch.phase = .returned snapshot resolved forwarder) :
    ∃ events, snapshot ++ events <+: watch.inner.selectedEvents query (resolved.getD 0) ∧
      (watch.received = events.map .ok ∨ forwarder.state = .stopped ∧ watch.queue = [] ∧
        ∃ skipped, 0 < skipped ∧
          watch.received = events.map .ok ++ [.error (cursorExpiredLaggedLiveFilter skipped)]) := by
  have returned := watched.returned stands
  rw [watched.selectedEvents_eq stands]
  have passed : ((watch.broadcasters query.repositoryId).take forwarder.position).filter
        (live watch.inner query forwarder.liveCutoffSequence) <+:
      (watch.broadcasters query.repositoryId ++
        sendsTo watch.unpublished query.repositoryId).filter
          (live watch.inner query forwarder.liveCutoffSequence) :=
    ((List.take_prefix _ _).trans (List.prefix_append _ _)).filter _
  have within {events : List JobEvent} (sent : events <+:
      ((watch.broadcasters query.repositoryId).take forwarder.position).filter
        (live watch.inner query forwarder.liveCutoffSequence)) :
      snapshot ++ events <+: snapshot ++ (watch.broadcasters query.repositoryId ++
        sendsTo watch.unpublished query.repositoryId).filter
          (live watch.inner query forwarder.liveCutoffSequence) :=
    (List.prefix_append_right_inj snapshot).mpr (sent.trans passed)
  rcases returned.forwarded.items with ⟨sent, part, items⟩ | ⟨stopped, skipped, positive, items⟩
  · obtain ⟨events, taken, received⟩ := received_of_items items
    exact ⟨events, within (taken.trans part), .inl received⟩
  · rcases received_of_failed items with ⟨events, taken, received⟩ | ⟨empty, received⟩
    · exact ⟨events, within taken, .inl received⟩
    · exact ⟨_, within (List.prefix_refl _), .inr ⟨stopped, empty, skipped, positive, received⟩⟩

/-- The events that the receiver of a watch has handed over. -/
def deliveredEvents (received : List WatchJobEvent) : List JobEvent :=
  received.filterMap Except.toOption

/-- The receiver hands over events, and at its end perhaps that the cursor has
expired. -/
theorem received_eq (reachable : Reachable inner)
    (run : Relation.ReflTransGen (LiveWatch.Step broadcast query) (.start inner) watch)
    (stands : watch.phase = .returned snapshot resolved forwarder) :
    snapshot ++ deliveredEvents watch.received <+:
        watch.inner.selectedEvents query (resolved.getD 0) ∧
      ∃ tail, (tail = [] ∨ ∃ reason, tail = [.error (.cursorExpired reason)]) ∧
        watch.received = (deliveredEvents watch.received).map .ok ++ tail := by
  obtain ⟨_, _, watched⟩ := Watched.of_run reachable run
  obtain ⟨events, part, received⟩ := watched.delivered stands
  have delivered (tail : List WatchJobEvent)
      (ends : tail = [] ∨ ∃ reason, tail = [.error (.cursorExpired reason)]) :
      deliveredEvents (events.map .ok ++ tail) = events := by
    rw [deliveredEvents, List.filterMap_append, List.filterMap_map]
    rcases ends with rfl | ⟨reason, rfl⟩ <;> simp [Function.comp_def, Except.toOption]
  rcases received with all | ⟨_, _, skipped, _, lagged⟩
  · have same := delivered [] (.inl rfl)
    rw [List.append_nil, ← all] at same
    rw [same]
    exact ⟨part, [], .inl rfl, by rw [all, List.append_nil]⟩
  · have ends : ∃ reason, [(.error (cursorExpiredLaggedLiveFilter skipped) : WatchJobEvent)] =
        [.error (.cursorExpired reason)] := ⟨_, rfl⟩
    have same := delivered _ (.inr ends)
    rw [← lagged] at same
    rw [same]
    exact ⟨part, _, .inr ends, lagged⟩

/-- A drained watch has delivered everything, unless it has lagged. -/
theorem Watched.drained (watched : Watched opened query watch log)
    (stands : watch.phase = .returned snapshot resolved forwarder)
    (drained : watch.Drained broadcast query forwarder) (events : List JobEvent)
    (received : watch.received = events.map .ok) :
    snapshot ++ events = watch.inner.selectedEvents query (resolved.getD 0) := by
  have sent := (watched.returned stands).forwarded
  rw [drained.taken, List.append_nil, received] at sent
  rcases drained.idle with stopped | ⟨waiting, empty⟩
  · rw [stopped] at sent
    rcases sent with ⟨closed, _⟩ | ⟨skipped, _, lagged⟩
    · rw [drained.listening] at closed
      exact absurd closed Bool.false_ne_true
    · have last : (.error (cursorExpiredLaggedLiveFilter skipped) : WatchJobEvent) ∈
          events.map .ok := by
        rw [lagged]
        exact List.mem_append_right _ (List.mem_singleton_self _)
      simp at last
  · rw [waiting] at sent
    have same := List.map_injective_iff.mpr (fun _ _ => Except.ok.inj) sent
    rw [watched.selectedEvents_eq stands, same, drained.published,
      List.take_of_length_le (broadcast.passed empty)]
    simp [sendsTo]

end Delivery

section Progress

/-- How many steps are left, at most, when nothing is committed any more. -/
def LiveWatch.weight (watch : LiveWatch) (query : EventQuery) (forwarder : Forwarder) : Nat :=
  let unread := (watch.broadcasters query.repositoryId).length - forwarder.position
  5 * watch.unpublished.length + watch.queue.length +
    match forwarder.state with
    | .receiving => 4 * unread
    | .filtering _ => 4 * unread + 3
    | .sending _ => 4 * unread + 2
    | .failing _ => 2
    | .stopped => 0

private theorem length_send_le (broadcasters : Broadcasters) (target channel : Option RepositoryId)
    (event : JobEvent) :
    (broadcasters.send target event channel).length ≤ (broadcasters channel).length + 1 := by
  unfold Broadcasters.send
  split <;> simp

private theorem weight_publish {target : Option RepositoryId} {event : JobEvent}
    {rest : List (Option RepositoryId × JobEvent)}
    (head : watch.unpublished = (target, event) :: rest) :
    LiveWatch.weight { watch with
      unpublished := rest, broadcasters := watch.broadcasters.send target event } query forwarder <
      watch.weight query forwarder := by
  have longer := length_send_le watch.broadcasters target query.repositoryId event
  unfold LiveWatch.weight
  rw [head, List.length_cons]
  cases forwarder.state <;> dsimp only <;> omega

/-- What an internal step toward a drained watch keeps. -/
structure Drains (broadcast : Broadcast JobEvent) (query : EventQuery) (watch next : LiveWatch)
    (snapshot : List JobEvent) (resolved : Option Nat) (forwarder later : Forwarder) : Prop where
  step : watch.Internal broadcast query next
  stands : next.phase = .returned snapshot resolved later
  lighter : next.weight query later < watch.weight query forwarder
  inner : next.inner = watch.inner
  listening : next.closed = watch.closed

section Draining

variable (stands : watch.phase = .returned snapshot resolved forwarder)
  (listening : watch.closed = false)
include stands listening

/-- The forwarder goes on unless it has stopped or waits for a message. -/
private theorem forwarder_drains (pending : watch.unpublished = []) (queued : watch.queue = []) :
    watch.Drained broadcast query forwarder ∨
      ∃ next later, Drains broadcast query watch next snapshot resolved forwarder later := by
  have room : watch.queue.length < filteredWatchEventBuffer := by
    rw [queued]
    decide
  cases state : forwarder.state with
  | stopped => exact .inl ⟨pending, queued, listening, .inl state⟩
  | failing error =>
    refine .inr ⟨_, _, .fail stands state listening room, rfl, ?_, rfl, rfl⟩
    simp only [LiveWatch.weight, LiveWatch.forwarding, LiveWatch.enqueue, Forwarder.enter,
      state, List.length_append, List.length_singleton]
    omega
  | sending event =>
    refine .inr ⟨_, _, .send stands state listening room, rfl, ?_, rfl, rfl⟩
    simp only [LiveWatch.weight, LiveWatch.forwarding, LiveWatch.enqueue, Forwarder.enter,
      state, List.length_append, List.length_singleton]
    omega
  | filtering event =>
    refine .inr ⟨_, _, .filter stands state pending, rfl, ?_, rfl, rfl⟩
    simp only [LiveWatch.weight, LiveWatch.forwarding, Forwarder.enter, state]
    rcases eventMatchesQuery watch.inner event query with _ | (_ | _) <;>
      simp only [filterDecision] <;> omega
  | receiving =>
    cases received : broadcast.recv (watch.broadcasters query.repositoryId)
        forwarder.position with
    | empty => exact .inl ⟨pending, queued, listening, .inr ⟨state, received⟩⟩
    | lagged skipped =>
      refine .inr ⟨_, _, .lag stands state received, rfl, ?_, rfl, rfl⟩
      have behind := (broadcast.behind received).2
      simp only [LiveWatch.weight, LiveWatch.forwarding, Forwarder.enter, state]
      omega
    | value event =>
      refine .inr ⟨_, _, .receive stands state received, rfl, ?_, rfl, rfl⟩
      have unread := Broadcast.lt_of_recv received
      simp only [LiveWatch.weight, LiveWatch.forwarding, Forwarder.accept, state]
      by_cases covered : event.sequenceNumber ≤ forwarder.liveCutoffSequence
      · rw [if_pos covered]
        dsimp only
        omega
      · rw [if_neg covered]
        dsimp only
        omega

/-- Unless it is drained, a watch can go on. -/
theorem drains_of_not_drained :
    watch.Drained broadcast query forwarder ∨
      ∃ next later, Drains broadcast query watch next snapshot resolved forwarder later := by
  cases pending : watch.unpublished with
  | cons target rest =>
    exact .inr ⟨_, forwarder, .publish pending, stands, weight_publish pending, rfl, rfl⟩
  | nil =>
    cases queued : watch.queue with
    | nil => exact forwarder_drains stands listening pending queued
    | cons item rest =>
      refine .inr ⟨_, forwarder, .take listening queued, stands, ?_, rfl, rfl⟩
      simp only [LiveWatch.weight, queued, List.length_cons]
      omega

/-- Without further commits, a watch can be drained. -/
theorem can_drain :
    ∃ drained later, Relation.ReflTransGen (LiveWatch.Internal broadcast query) watch drained ∧
      drained.inner = watch.inner ∧ drained.phase = .returned snapshot resolved later ∧
      drained.Drained broadcast query later := by
  induction bound : watch.weight query forwarder using Nat.strongRecOn generalizing watch forwarder with
  | ind weight ih =>
    rcases drains_of_not_drained stands listening with drained | ⟨next, later, drains⟩
    · exact ⟨watch, forwarder, .refl, rfl, stands, drained⟩
    · obtain ⟨last, final, run, same, finished, drained⟩ :=
        ih _ (bound ▸ drains.lighter) drains.stands (drains.listening.trans listening) rfl
      exact ⟨last, final, .head drains.step run, same.trans drains.inner, finished, drained⟩

end Draining

end Progress

/-- A live watch delivers every event exactly once and in order. In every run,
the snapshot followed by what was received is a part, from the start, of the
events that the query selects after its cursor; an error ends it, and only when
the watch has lagged. Whenever nothing is left to deliver everything has been
delivered or the watch has lagged, and without further commits that point can
be reached. -/
theorem live_watch_delivers (reachable : Reachable inner)
    (run : Relation.ReflTransGen (LiveWatch.Step broadcast query) (.start inner) watch)
    (stands : watch.phase = .returned snapshot resolved forwarder) :
    (∃ events, snapshot ++ events <+: watch.inner.selectedEvents query (resolved.getD 0) ∧
      (watch.received = events.map .ok ∨ forwarder.state = .stopped ∧ watch.queue = [] ∧
        ∃ skipped, 0 < skipped ∧
          watch.received = events.map .ok ++ [.error (cursorExpiredLaggedLiveFilter skipped)]) ∧
      (watch.Drained broadcast query forwarder → watch.received = events.map .ok →
        snapshot ++ events = watch.inner.selectedEvents query (resolved.getD 0))) ∧
      (watch.closed = false → ∃ drained later,
        Relation.ReflTransGen (LiveWatch.Internal broadcast query) watch drained ∧
          drained.inner = watch.inner ∧ drained.phase = .returned snapshot resolved later ∧
          drained.Drained broadcast query later) := by
  obtain ⟨opened, log, watched⟩ := Watched.of_run reachable run
  obtain ⟨events, part, received⟩ := watched.delivered stands
  refine ⟨⟨events, part, received, ?_⟩, can_drain stands⟩
  intro drained complete
  exact watched.drained stands drained events complete

section Cursor

/-- The cursor of the query stands for the sequence number that the call has
resolved. -/
def PhaseResolved (inner : InMemoryInner) (query : EventQuery) : WatchPhase → Prop
  | .scanning _ resolved _ _ _ | .returned _ resolved _ =>
    resolveLiveEventCursorSequence inner query.cursor = .ok resolved
  | _ => True

private theorem PhaseResolved.advance {phase : WatchPhase} {broadcasters : Broadcasters}
    (known : PhaseResolved inner query phase) :
    PhaseResolved inner query (phase.advance query inner broadcasters) := by
  cases phase with
  | called =>
    rw [WatchPhase.advance]
    repeat' split
    all_goals trivial
  | repositoryFound => trivial
  | subscribed position =>
    rw [WatchPhase.advance, beginScan]
    cases found : resolveLiveEventCursorSequence inner query.cursor with
    | error _ => trivial
    | ok resolved =>
      simp only
      split <;> exact found
  | scanning position resolved cutoff startSequence events =>
    rw [WatchPhase.advance, continueScan]
    split
    · trivial
    · split
      · exact known
      · exact known
  | refused error => trivial
  | returned snapshot resolved forwarder => exact known

private theorem PhaseResolved.commit {after : InMemoryInner} {phase : WatchPhase}
    (grown : Extends inner after) (known : PhaseResolved inner query phase) :
    PhaseResolved after query phase := by
  have kept (resolved : Option Nat)
      (found : resolveLiveEventCursorSequence inner query.cursor = .ok resolved) :
      resolveLiveEventCursorSequence after query.cursor = .ok resolved := by
    cases named : query.cursor with
    | beginning | afterSequence =>
      rw [named] at found
      exact found
    | afterEventId id =>
      rw [named] at found
      simp only [resolveLiveEventCursorSequence, bind_eq_ok, okOr_eq_ok, pure_eq_ok] at found ⊢
      obtain ⟨event, stored, same⟩ := found
      exact ⟨event, grown.jobEvents.lookup stored, same⟩
  cases phase with
  | scanning | returned => exact kept _ known
  | called | repositoryFound | subscribed | refused => trivial

/-- In every state of every run, the resolved cursor is that of the query. -/
theorem PhaseResolved.of_run (reachable : Reachable inner)
    (run : Relation.ReflTransGen (LiveWatch.Step broadcast query) (.start inner) watch) :
    PhaseResolved watch.inner query watch.phase := by
  induction run with
  | refl => trivial
  | tail earlier step known =>
    have keyed := Reachable.keyed (reachable.trans (run_of_watch earlier))
    cases step with
    | internal step =>
      cases step with
      | publish | take => exact known
      | call => exact known.advance
      | receive stands | lag stands | filter stands | send stands | fail stands | stop stands =>
        rw [stands] at known
        exact known
    | commit _ succeeded =>
      have commits := StoreOperation.exec_commits keyed (StoreOperation.admitted_any _) succeeded
      exact known.commit (commits.extends keyed)
    | close => exact known

end Cursor

section Schedule

/-! A schedule that can be computed: the publisher goes first, then the call, the client and
the forwarder. -/

theorem advance_run (free : watch.unpublished = []) :
    Relation.ReflTransGen (LiveWatch.Step broadcast query) watch
      { watch with phase := watch.phase.advance query watch.inner watch.broadcasters } := by
  cases stands : watch.phase with
  | returned snapshot resolved forwarder =>
    have same : { watch with phase := .returned snapshot resolved forwarder } = watch := by
      rw [← stands]
    exact same ▸ .refl
  | refused error =>
    have same : { watch with phase := .refused error } = watch := by
      rw [← stands]
    exact same ▸ .refl
  | called | repositoryFound | subscribed | scanning =>
    rw [← stands]
    exact .single (.internal (.call (by simp [stands]) (by simp [stands]) fun _ => free))

def LiveWatch.proceed (broadcast : Broadcast JobEvent) (query : EventQuery) (watch : LiveWatch) :
    LiveWatch :=
  match watch.unpublished, watch.phase with
  | (target, event) :: rest, _ =>
    { watch with unpublished := rest, broadcasters := watch.broadcasters.send target event }
  | [], .returned snapshot resolved forwarder =>
    match watch.closed, watch.queue, forwarder.state with
    | false, item :: rest, _ => { watch with queue := rest, received := watch.received ++ [item] }
    | false, [], .receiving =>
      match broadcast.recv (watch.broadcasters query.repositoryId) forwarder.position with
      | .value event => watch.forwarding snapshot resolved (forwarder.accept event)
      | _ => watch
    | false, [], .filtering event => watch.forwarding snapshot resolved
        (forwarder.enter (filterDecision event (eventMatchesQuery watch.inner event query)))
    | false, [], .sending event =>
      (watch.forwarding snapshot resolved (forwarder.enter .receiving)).enqueue (.ok event)
    | _, _, _ => watch
  | [], phase => { watch with phase := phase.advance query watch.inner watch.broadcasters }

theorem LiveWatch.proceed_run (watch : LiveWatch) :
    Relation.ReflTransGen (LiveWatch.Step broadcast query) watch (watch.proceed broadcast query) := by
  unfold LiveWatch.proceed
  split
  · rename_i pending
    exact .single (.internal (.publish pending))
  · rename_i free stands
    split
    · rename_i listening queued
      exact .single (.internal (.take listening queued))
    · rename_i listening queued waiting
      split
      · rename_i received
        exact .single (.internal (.receive stands waiting received))
      · exact .refl
    · rename_i listening queued holding
      exact .single (.internal (.filter stands holding free))
    · rename_i listening queued holding
      have room : watch.queue.length < filteredWatchEventBuffer := by
        rw [queued]
        decide
      exact .single (.internal (.send stands holding listening room))
    · exact .refl
  · rename_i free _
    exact advance_run free

/-- An operation that is committed when the store lock is free. -/
def LiveWatch.commit (watch : LiveWatch) (operation : StoreOperation) : Option LiveWatch :=
  match watch.unpublished, operation.exec watch.inner with
  | [], .ok (inner, events) =>
    match publishTargets inner events with
    | .ok targets => some { watch with inner, unpublished := targets }
    | .error _ => none
  | _, _ => none

theorem LiveWatch.commit_step {operation : StoreOperation} {next : LiveWatch}
    (committed : watch.commit operation = some next) : LiveWatch.Step broadcast query watch next := by
  unfold LiveWatch.commit at committed
  split at committed
  · rename_i free succeeded
    split at committed
    · rename_i prepared
      obtain rfl := Option.some.inj committed
      exact .commit free succeeded prepared
    · cases committed
  · cases committed

/-- A watch that is called, and then proceeds after every operation. -/
def LiveWatch.scheduled (broadcast : Broadcast JobEvent) (query : EventQuery) (turns : Nat) :
    List StoreOperation → LiveWatch → Option LiveWatch
  | [], watch => some ((LiveWatch.proceed broadcast query)^[turns] watch)
  | operation :: rest, watch =>
    (((LiveWatch.proceed broadcast query)^[turns] watch).commit operation).bind
      (scheduled broadcast query turns rest)

theorem LiveWatch.iterate_run (turns : Nat) (watch : LiveWatch) :
    Relation.ReflTransGen (LiveWatch.Step broadcast query) watch
      ((LiveWatch.proceed broadcast query)^[turns] watch) := by
  induction turns generalizing watch with
  | zero => exact .refl
  | succ turns ih => exact watch.proceed_run.trans (ih (watch.proceed broadcast query))

theorem LiveWatch.scheduled_run {turns : Nat} {operations : List StoreOperation} {next : LiveWatch}
    (ran : LiveWatch.scheduled broadcast query turns operations watch = some next) :
    Relation.ReflTransGen (LiveWatch.Step broadcast query) watch next := by
  induction operations generalizing watch with
  | nil =>
    obtain rfl := Option.some.inj ran
    exact watch.iterate_run turns
  | cons operation rest ih =>
    rw [LiveWatch.scheduled, Option.bind_eq_some_iff] at ran
    obtain ⟨middle, committed, ran⟩ := ran
    exact ((watch.iterate_run turns).tail (commit_step committed)).trans (ih ran)

end Schedule

section Submitted

/-! A watch of a ledger in which a job is completed. -/

/-- Whether nothing is left to deliver and the watch has not lagged. -/
def LiveWatch.isDrained (broadcast : Broadcast JobEvent) (query : EventQuery) (watch : LiveWatch)
    (forwarder : Forwarder) : Bool :=
  watch.unpublished.isEmpty && watch.queue.isEmpty && !watch.closed &&
    match forwarder.state,
      broadcast.recv (watch.broadcasters query.repositoryId) forwarder.position with
    | .receiving, .empty => true
    | _, _ => false

theorem LiveWatch.drained_of_isDrained
    (drained : watch.isDrained broadcast query forwarder = true) :
    watch.Drained broadcast query forwarder := by
  unfold LiveWatch.isDrained at drained
  simp only [Bool.and_eq_true, List.isEmpty_iff, Bool.not_eq_true'] at drained
  obtain ⟨⟨⟨published, taken⟩, listening⟩, idle⟩ := drained
  refine ⟨published, taken, listening, .inr ?_⟩
  split at idle
  · rename_i waiting empty
    exact ⟨waiting, empty⟩
  · cases idle

/-- The snapshot, the cursor and the forwarder of a call that has returned. -/
def WatchPhase.returned? : WatchPhase → Option (List JobEvent × Option Nat × Forwarder)
  | .returned snapshot resolved forwarder => some (snapshot, resolved, forwarder)
  | _ => none

theorem WatchPhase.of_returned? {phase : WatchPhase}
    (stands : phase.returned? = some (snapshot, resolved, forwarder)) :
    phase = .returned snapshot resolved forwarder := by
  cases phase <;> cases stands
  rfl

private def watchesCompletion (inner : InMemoryInner) : Bool :=
  ((LiveWatch.start inner).scheduled (.retaining 1024) {} 16
      [runAndComplete, jobNotice 3]).any fun watch =>
    watch.phase.returned?.any fun (snapshot, _, forwarder) =>
      watch.isDrained (.retaining 1024) {} forwarder &&
        snapshot.map (·.sequenceNumber) = [1] &&
        (deliveredEvents watch.received).map (·.sequenceNumber) = [2, 3, 4] &&
        watch.received = (deliveredEvents watch.received).map .ok

private theorem watchesCompletion_reached :
    reaches exampleSubmission watchesCompletion = true := by
  decide +kernel

/-- The watch returns the event of the submission and then delivers what is committed. -/
theorem completion_watched :
    ∃ inner watch snapshot resolved forwarder, Reachable inner ∧
      Relation.ReflTransGen (LiveWatch.Step (.retaining 1024) {}) (.start inner) watch ∧
      watch.phase = .returned snapshot resolved forwarder ∧
      snapshot.map (·.sequenceNumber) = [1] ∧
      (deliveredEvents watch.received).map (·.sequenceNumber) = [2, 3, 4] ∧
      snapshot ++ deliveredEvents watch.received =
        watch.inner.selectedEvents {} (resolved.getD 0) := by
  obtain ⟨inner, reachable, watches⟩ := Reachable.of_reaches watchesCompletion_reached
  simp only [watchesCompletion, Option.any_eq_true, Prod.exists, Bool.and_eq_true,
    decide_eq_true_eq] at watches
  obtain ⟨watch, ran, snapshot, resolved, forwarder, returned, ⟨⟨drained, early⟩, late⟩, fine⟩ :=
    watches
  have run := LiveWatch.scheduled_run ran
  have stands := WatchPhase.of_returned? returned
  obtain ⟨⟨events, _, received, complete⟩, _⟩ := live_watch_delivers reachable run stands
  have all : watch.received = events.map .ok := by
    rcases received with all | ⟨_, _, skipped, _, lagged⟩
    · exact all
    · have failed : (.error (cursorExpiredLaggedLiveFilter skipped) : WatchJobEvent) ∈
          watch.received := lagged ▸ List.mem_append_right _ (List.mem_singleton_self _)
      rw [fine] at failed
      simp at failed
  have same : deliveredEvents watch.received = events := by
    rw [all, deliveredEvents, List.filterMap_map]
    exact List.filterMap_some
  refine ⟨inner, watch, snapshot, resolved, forwarder, reachable, run, stands, early, late, ?_⟩
  rw [same]
  exact complete (LiveWatch.drained_of_isDrained drained) all

end Submitted

end Atelia.Store
