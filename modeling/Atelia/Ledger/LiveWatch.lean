import Atelia.Ledger.Selection

/-! A live watch delivers every event once and in order. -/

namespace Atelia.Store

open Outcome Feed

variable {inner before after : InMemoryInner} {log : List JobEvent} {event : JobEvent}
  {admits : JobRecord → Prop} {query : EventQuery} {broadcast : Broadcast JobEvent}

section Invariant

/-- The channels carry the events committed since the store was opened. -/
structure Carried (opened : Nat) (watch : LiveWatch) (log : List JobEvent) : Prop where
  consistent : Consistent watch.inner log
  since : opened ≤ log.length
  sent : ∀ channel, watch.broadcasters channel ++ sendsTo watch.unpublished channel =
    (log.drop opened).filter (onChannel watch.inner channel)

/-- The cutoff separates what the snapshot covers from what is still to come. -/
structure CutoffOk (opened : Nat) (log : List JobEvent) (resolved : Option Nat) (cutoff : Nat) :
    Prop where
  after : resolved.getD 0 ≤ cutoff
  since : opened ≤ cutoff
  fixed : cutoff ≤ log.length ∨ cutoff = resolved.getD 0

/-- An event after the cutoff that the query selects. -/
def live (inner : InMemoryInner) (query : EventQuery) (cutoff : Nat) (event : JobEvent) : Bool :=
  decide (cutoff < event.sequenceNumber) && matchesQuery inner query event

/-- What has been put on the queue of the watch, compared with the live events
among those the forwarder has passed. -/
def Forwarded (accept : JobEvent → Bool) (log : List JobEvent) (closed : Bool)
    (items : List WatchJobEvent) (passed : List JobEvent) : ForwarderState → Prop
  | .receiving => items = passed.map .ok
  | .filtering event => event ∈ log ∧
      ∃ earlier, items = earlier.map .ok ∧ passed = earlier ++ [event].filter accept
  | .sending event => ∃ earlier, items = earlier.map .ok ∧ passed = earlier ++ [event]
  | .failing error => items = passed.map .ok ∧
      ∃ skipped, 0 < skipped ∧ error = cursorExpiredLaggedLiveFilter skipped
  | .stopped => (closed = true ∧ ∃ earlier, earlier <+: passed ∧ items = earlier.map .ok) ∨
      ∃ skipped, 0 < skipped ∧
        items = passed.map .ok ++ [.error (cursorExpiredLaggedLiveFilter skipped)]

/-- A scan in progress: the subscription precedes the cutoff, and everything up
to the next batch has been collected. -/
structure Scanning (opened : Nat) (query : EventQuery) (inner : InMemoryInner)
    (log channel : List JobEvent) (position : Nat) (resolved : Option Nat)
    (cutoff reached : Nat) (events : List JobEvent) : Prop where
  cutoffOk : CutoffOk opened log resolved cutoff
  subscribed : position ≤ channel.length
  early : ∀ event ∈ channel.take position, event.sequenceNumber ≤ cutoff
  lower : resolved.getD 0 ≤ reached
  upper : reached ≤ cutoff
  collected : Collected inner query log (resolved.getD 0) reached events

/-- A returned watch: the snapshot is complete up to the cutoff, and the queue
continues it. -/
structure Returned (opened : Nat) (query : EventQuery) (inner : InMemoryInner)
    (log channel : List JobEvent) (items : List WatchJobEvent) (closed : Bool)
    (snapshot : List JobEvent) (resolved : Option Nat) (forwarder : Forwarder) : Prop where
  cutoffOk : CutoffOk opened log resolved forwarder.liveCutoffSequence
  position : forwarder.position ≤ channel.length
  collected : Collected inner query log (resolved.getD 0) forwarder.liveCutoffSequence snapshot
  forwarded : Forwarded (matchesQuery inner query) log closed items
    ((channel.take forwarder.position).filter (live inner query forwarder.liveCutoffSequence))
    forwarder.state

/-- What holds of the call in each of its phases. -/
def PhaseOk (opened : Nat) (query : EventQuery) (inner : InMemoryInner)
    (log channel : List JobEvent) (items : List WatchJobEvent) (closed : Bool) :
    WatchPhase → Prop
  | .called => items = []
  | .repositoryFound => items = []
  | .refused _ => items = []
  | .subscribed position => items = [] ∧ position ≤ channel.length
  | .scanning position resolved cutoff startSequence events => items = [] ∧
      cutoff ≤ maxSequence ∧ ∃ reached, startSequence = reached + 1 ∧
        Scanning opened query inner log channel position resolved cutoff reached events
  | .returned snapshot resolved forwarder =>
      Returned opened query inner log channel items closed snapshot resolved forwarder

/-- The invariant of a store with a watch. -/
structure Watched (opened : Nat) (query : EventQuery) (watch : LiveWatch) (log : List JobEvent) :
    Prop where
  carried : Carried opened watch log
  phase : PhaseOk opened query watch.inner log (watch.broadcasters query.repositoryId)
    (watch.received ++ watch.queue) watch.closed watch.phase

variable {opened : Nat} {watch : LiveWatch} {channel : List JobEvent}
  {items : List WatchJobEvent} {closed : Bool}

theorem Watched.start (reachable : Reachable inner) (query : EventQuery) :
    ∃ log, Watched log.length query (.start inner) log := by
  obtain ⟨log, consistent⟩ := reachable.consistent
  refine ⟨log, ⟨consistent, Nat.le_refl _, ?_⟩, rfl⟩
  intro channel
  rw [List.drop_length]
  rfl

/-- Every event on a channel is an event of the ledger. -/
theorem Carried.mem_log (carried : Carried opened watch log) {channel : Option RepositoryId}
    (member : event ∈ watch.broadcasters channel) : event ∈ log := by
  have listed : event ∈ (log.drop opened).filter (onChannel watch.inner channel) := by
    rw [← carried.sent channel]
    exact List.mem_append_left _ member
  exact List.mem_of_mem_drop (List.mem_of_mem_filter listed)

end Invariant

variable {resolved : Option Nat} {cutoff : Nat}

section Commit

variable {opened : Nat} {watch : LiveWatch} {channel events : List JobEvent}
  {items : List WatchJobEvent} {closed : Bool}

/-- A commit appends its events to the outstanding sends of their channels. -/
theorem Carried.commit (carried : Carried opened watch log) (free : watch.unpublished = [])
    (commits : Commits admits watch.inner events after)
    {targets : List (Option RepositoryId × JobEvent)}
    (prepared : publishTargets after events = .ok targets) :
    Carried opened { watch with inner := after, unpublished := targets } (log ++ events) where
  consistent := commits.consistent carried.consistent
  since := Nat.le_trans carried.since (by simp)
  sent := by
    intro channel
    have grown := commits.extends carried.consistent.keyed
    have keyed := commits.keyed carried.consistent.keyed
    have earlier := carried.sent channel
    rw [free, sendsTo, List.filter_nil, List.map_nil, List.append_nil] at earlier
    have same : (log.drop opened).filter (onChannel after channel) =
        (log.drop opened).filter (onChannel watch.inner channel) := by
      apply List.filter_congr
      intro event member
      exact carried.consistent.onChannel_persists (List.mem_of_mem_drop member) grown keyed channel
    rw [List.drop_append_of_le_length carried.since, List.filter_append, same, ← earlier,
      ← sendsTo_publishTargets prepared channel]

/-- Events committed later do not fall into the window of the snapshot. -/
theorem CutoffOk.window_later (cutoffOk : CutoffOk opened log resolved cutoff)
    (late : ∀ event ∈ events, log.length < event.sequenceNumber) {reached : Nat}
    (upper : reached ≤ cutoff) :
    window JobEvent.sequenceNumber (resolved.getD 0) reached (log ++ events) =
      window JobEvent.sequenceNumber (resolved.getD 0) reached log := by
  have nothing : window JobEvent.sequenceNumber (resolved.getD 0) reached events = [] := by
    apply List.eq_nil_iff_forall_not_mem.mpr
    intro event member
    obtain ⟨committed, low, high⟩ := mem_window.mp member
    have beyond := late event committed
    rcases cutoffOk.fixed with inside | passed <;> omega
  rw [window_concat, nothing, List.append_nil]

theorem CutoffOk.commit (cutoffOk : CutoffOk opened log resolved cutoff) (events : List JobEvent) :
    CutoffOk opened (log ++ events) resolved cutoff where
  after := cutoffOk.after
  since := cutoffOk.since
  fixed := cutoffOk.fixed.imp (fun inside => Nat.le_trans inside (by simp)) id

theorem Collected.commit {reached : Nat} {collected : List JobEvent}
    (complete : Collected before query log (resolved.getD 0) reached collected)
    (cutoffOk : CutoffOk opened log resolved cutoff) (upper : reached ≤ cutoff)
    (late : ∀ event ∈ events, log.length < event.sequenceNumber)
    (same : ∀ event ∈ log, matchesQuery after query event = matchesQuery before query event) :
    Collected after query (log ++ events) (resolved.getD 0) reached collected := by
  unfold Collected at complete ⊢
  rw [complete, cutoffOk.window_later late upper]
  apply List.filter_congr
  intro event member
  exact (same event (List.mem_of_mem_filter member)).symm

theorem Forwarded.commit {accept later : JobEvent → Bool} {passed : List JobEvent}
    {state : ForwarderState} (forwarded : Forwarded accept log closed items passed state)
    (same : ∀ event ∈ log, later event = accept event) (events : List JobEvent) :
    Forwarded later (log ++ events) closed items passed state := by
  cases state with
  | filtering event =>
    obtain ⟨member, earlier, sent, split⟩ := forwarded
    refine ⟨List.mem_append_left _ member, earlier, sent, ?_⟩
    rw [split, List.filter_singleton, List.filter_singleton, same event member]
  | receiving => exact forwarded
  | sending => exact forwarded
  | failing => exact forwarded
  | stopped => exact forwarded

/-- A commit leaves the call of the watch where it stands. -/
theorem PhaseOk.commit {phase : WatchPhase}
    (ok : PhaseOk opened query before log channel items closed phase)
    (listed : ∀ event ∈ channel, event ∈ log)
    (late : ∀ event ∈ events, log.length < event.sequenceNumber)
    (same : ∀ event ∈ log, matchesQuery after query event = matchesQuery before query event) :
    PhaseOk opened query after (log ++ events) channel items closed phase := by
  cases phase with
  | called => exact ok
  | repositoryFound => exact ok
  | refused => exact ok
  | subscribed => exact ok
  | scanning position resolved cutoff startSequence collected =>
    obtain ⟨unsent, bounded, reached, started, scanning⟩ := ok
    refine ⟨unsent, bounded, reached, started, ?_⟩
    exact { scanning with
      cutoffOk := scanning.cutoffOk.commit events
      collected := scanning.collected.commit scanning.cutoffOk scanning.upper late same }
  | returned snapshot resolved forwarder =>
    have returned : Returned opened query before log channel items closed snapshot resolved
      forwarder := ok
    have unchanged : (channel.take forwarder.position).filter
        (live after query forwarder.liveCutoffSequence) =
        (channel.take forwarder.position).filter
          (live before query forwarder.liveCutoffSequence) := by
      apply List.filter_congr
      intro event member
      rw [live, live, same event (listed event (List.mem_of_mem_take member))]
    refine ⟨returned.cutoffOk.commit events, returned.position,
      returned.collected.commit returned.cutoffOk (Nat.le_refl _) late same, ?_⟩
    rw [unchanged]
    exact returned.forwarded.commit same events

theorem Watched.commit (watched : Watched opened query watch log) (free : watch.unpublished = [])
    {operation : StoreOperation}
    (succeeded : operation.exec watch.inner = .ok (after, events))
    {targets : List (Option RepositoryId × JobEvent)}
    (prepared : publishTargets after events = .ok targets) :
    Watched opened query { watch with inner := after, unpublished := targets }
      (log ++ events) := by
  have consistent := watched.carried.consistent
  have commits := StoreOperation.exec_commits consistent.keyed operation.admitted_any succeeded
  have resulting := commits.consistent consistent
  refine ⟨watched.carried.commit free commits prepared, watched.phase.commit ?_ ?_ ?_⟩
  · exact fun event member => watched.carried.mem_log member
  · exact fun event member => resulting.logged.length_lt member
  · exact fun event member => consistent.matchesQuery_persists member
      (commits.extends consistent.keyed) resulting.keyed

end Commit

section Steps

variable {opened : Nat} {watch next : LiveWatch} {channel : List JobEvent}
  {items : List WatchJobEvent} {closed : Bool}

/-- More messages on its channel leave the call where it stands. -/
theorem PhaseOk.publish {phase : WatchPhase}
    (ok : PhaseOk opened query inner log channel items closed phase) (more : List JobEvent) :
    PhaseOk opened query inner log (channel ++ more) items closed phase := by
  have longer : channel.length ≤ (channel ++ more).length := by simp
  cases phase with
  | called => exact ok
  | repositoryFound => exact ok
  | refused => exact ok
  | subscribed => exact ⟨ok.1, Nat.le_trans ok.2 longer⟩
  | scanning =>
    obtain ⟨unsent, bounded, reached, started, scanning⟩ := ok
    refine ⟨unsent, bounded, reached, started, { scanning with subscribed := ?_, early := ?_ }⟩
    · exact Nat.le_trans scanning.subscribed longer
    · rw [List.take_append_of_le_length scanning.subscribed]
      exact scanning.early
  | returned snapshot resolved forwarder =>
    have returned : Returned opened query inner log channel items closed snapshot resolved
      forwarder := ok
    refine { returned with position := ?_, forwarded := ?_ }
    · exact Nat.le_trans returned.position longer
    · rw [List.take_append_of_le_length returned.position]
      exact returned.forwarded

private theorem send_eq (broadcasters : Broadcasters) (target channel : Option RepositoryId)
    (event : JobEvent) : ∃ more, broadcasters.send target event channel =
      broadcasters channel ++ more := by
  unfold Broadcasters.send
  split
  · exact ⟨[event], rfl⟩
  · exact ⟨[], (List.append_nil _).symm⟩

theorem Watched.publish (watched : Watched opened query watch log)
    {target : Option RepositoryId} {event : JobEvent}
    {rest : List (Option RepositoryId × JobEvent)}
    (next : watch.unpublished = (target, event) :: rest) :
    Watched opened query { watch with
      unpublished := rest, broadcasters := watch.broadcasters.send target event } log := by
  refine ⟨⟨watched.carried.consistent, watched.carried.since, ?_⟩, ?_⟩
  · intro channel
    rw [sendsTo_send, ← next]
    exact watched.carried.sent channel
  · obtain ⟨more, longer⟩ := send_eq watch.broadcasters target query.repositoryId event
    have grown := watched.phase.publish more
    rw [← longer] at grown
    exact grown

variable {position : Nat}

/-- The end of the scan starts the forwarder at the subscription. -/
private theorem Scanning.finish {events : List JobEvent}
    (scanning : Scanning opened query inner log channel position resolved cutoff cutoff events)
    (closed : Bool) :
    PhaseOk opened query inner log channel [] closed (.finish position resolved cutoff events) := by
  have nothing : (channel.take position).filter (live inner query cutoff) = [] := by
    rw [List.filter_eq_nil_iff]
    intro event member chosen
    have early := scanning.early event member
    simp only [live, Bool.and_eq_true, decide_eq_true_eq] at chosen
    omega
  refine ⟨scanning.cutoffOk, scanning.subscribed, scanning.collected, ?_⟩
  rw [nothing]
  rfl

/-- Resolving the cursor fixes the cutoff at the end of the ledger, and the
subscription was made before. -/
private theorem PhaseOk.beginScan (consistent : Consistent inner log) (since : opened ≤ log.length)
    (listed : ∀ event ∈ channel, event ∈ log) (subscribed : position ≤ channel.length)
    (closed : Bool) :
    PhaseOk opened query inner log channel [] closed (Store.beginScan inner query position) := by
  unfold Store.beginScan
  split
  · exact rfl
  · rename_i resolved _
    have count := consistent.logged.count
    have bounded := consistent.logged.bounded
    have reaches : log.length ≤ liveCutoffSequence inner resolved := by
      unfold liveCutoffSequence
      cases resolved <;> simp [count]
    have early : ∀ event ∈ channel.take position,
        event.sequenceNumber ≤ liveCutoffSequence inner resolved := by
      intro event member
      have bound := consistent.logged.sequenceNumber_le (listed event (List.mem_of_mem_take member))
      omega
    have cutoffOk : CutoffOk opened log resolved (liveCutoffSequence inner resolved) := by
      refine ⟨?_, Nat.le_trans since reaches, ?_⟩
      · unfold liveCutoffSequence
        cases resolved <;> simp
      · unfold liveCutoffSequence
        cases resolved with
        | none => exact .inl (Nat.le_of_eq count)
        | some sequence =>
          show max sequence inner.nextEventSequence ≤ log.length ∨
            max sequence inner.nextEventSequence = sequence
          omega
    have nothing (reached : Nat) (none_between : ∀ event ∈ log,
        ¬(resolved.getD 0 < event.sequenceNumber ∧ event.sequenceNumber ≤ reached)) :
        Collected inner query log (resolved.getD 0) reached [] := by
      have empty : window JobEvent.sequenceNumber (resolved.getD 0) reached log = [] := by
        apply List.eq_nil_iff_forall_not_mem.mpr
        intro event member
        obtain ⟨committed, between⟩ := mem_window.mp member
        exact none_between event committed between
      rw [Collected, empty]
      rfl
    dsimp only
    split
    · rename_i room
      refine ⟨rfl, ?_, resolved.getD 0, rfl, cutoffOk, subscribed, early, Nat.le_refl _,
        cutoffOk.after, nothing _ fun event _ between => by omega⟩
      rcases cutoffOk.fixed with inside | passed <;> omega
    · rename_i full
      refine Scanning.finish ⟨cutoffOk, subscribed, early, cutoffOk.after, Nat.le_refl _,
        nothing _ ?_⟩ closed
      intro event member between
      have bound := (consistent.logged.sequenceNumber_le member).2
      omega

/-- One batch of the scan. -/
private theorem PhaseOk.continueScan (consistent : Consistent inner log) {reached : Nat}
    {events : List JobEvent} (bounded : cutoff ≤ maxSequence)
    (scanning : Scanning opened query inner log channel position resolved cutoff reached events)
    (closed : Bool) :
    PhaseOk opened query inner log channel [] closed
      (Store.continueScan inner query position resolved cutoff (reached + 1) events) := by
  unfold Store.continueScan
  dsimp only
  split
  · exact rfl
  · rename_i result read
    rcases scanning.collected.batch consistent scanning.lower scanning.upper read with
      ⟨nothing, complete⟩ | ⟨last, ends, above, below, complete⟩
    · rw [nothing]
      exact Scanning.finish { scanning with
        lower := scanning.cutoffOk.after, upper := Nat.le_refl _, collected := complete } closed
    · rw [ends, nextScanSequence]
      have lower : resolved.getD 0 ≤ last := Nat.le_trans scanning.lower (Nat.le_of_lt above)
      by_cases more : last < maxSequence ∧ last + 1 ≤ cutoff
      · rw [if_pos more]
        exact ⟨rfl, bounded, last, rfl,
          { scanning with lower := lower, upper := below, collected := complete }⟩
      · rw [if_neg more]
        have reachedEnd : last = cutoff := by omega
        subst reachedEnd
        exact Scanning.finish { scanning with
          lower := lower, upper := below, collected := complete } closed

theorem Watched.call (watched : Watched opened query watch log) :
    Watched opened query
      { watch with phase := watch.phase.advance query watch.inner watch.broadcasters } log := by
  refine ⟨⟨watched.carried.consistent, watched.carried.since, watched.carried.sent⟩, ?_⟩
  have ok := watched.phase
  have listed : ∀ event ∈ watch.broadcasters query.repositoryId, event ∈ log :=
    fun event member => watched.carried.mem_log member
  cases stands : watch.phase with
  | called =>
    rw [stands] at ok
    simp only [WatchPhase.advance]
    split
    · rename_i unnamed
      exact ⟨ok, by rw [unnamed]⟩
    · split
      · exact ok
      · exact ok
  | repositoryFound =>
    rw [stands] at ok
    exact ⟨ok, Nat.le_refl _⟩
  | subscribed position =>
    rw [stands] at ok
    obtain ⟨unsent, subscribed⟩ := ok
    have scan : PhaseOk opened query watch.inner log (watch.broadcasters query.repositoryId) []
        watch.closed (beginScan watch.inner query position) :=
      .beginScan watched.carried.consistent watched.carried.since listed subscribed watch.closed
    rw [← unsent] at scan
    exact scan
  | scanning position resolved cutoff startSequence events =>
    rw [stands] at ok
    obtain ⟨unsent, bounded, reached, rfl, scanning⟩ := ok
    have scan := PhaseOk.continueScan watched.carried.consistent bounded scanning watch.closed
    rw [← unsent] at scan
    exact scan
  | refused error =>
    rw [stands] at ok
    exact ok
  | returned snapshot resolved forwarder =>
    rw [stands] at ok
    exact ok

section Forwarding

variable {snapshot : List JobEvent} {resolved : Option Nat} {forwarder : Forwarder}

section Returned

variable (watched : Watched opened query watch log)
  (stands : watch.phase = .returned snapshot resolved forwarder)
include watched stands

theorem Watched.returned :
    Returned opened query watch.inner log (watch.broadcasters query.repositoryId)
      (watch.received ++ watch.queue) watch.closed snapshot resolved forwarder := by
  have ok := watched.phase
  rw [stands] at ok
  exact ok

/-- Only the state of the forwarder changes. -/
private theorem Watched.enter {state : ForwarderState}
    (forwarded : Forwarded (matchesQuery watch.inner query) log watch.closed
      (watch.received ++ watch.queue)
      (((watch.broadcasters query.repositoryId).take forwarder.position).filter
        (live watch.inner query forwarder.liveCutoffSequence)) state) :
    Watched opened query (watch.forwarding snapshot resolved (forwarder.enter state)) log :=
  ⟨⟨watched.carried.consistent, watched.carried.since, watched.carried.sent⟩,
    { watched.returned stands with forwarded := forwarded }⟩

theorem Watched.receive (waiting : forwarder.state = .receiving)
    (received : broadcast.recv (watch.broadcasters query.repositoryId)
      forwarder.position = .value event) :
    Watched opened query (watch.forwarding snapshot resolved (forwarder.accept event)) log := by
  have returned := watched.returned stands
  have sent := returned.forwarded
  rw [waiting] at sent
  have member : event ∈ watch.broadcasters query.repositoryId :=
    List.mem_of_getElem? (broadcast.next received)
  have passes : Forwarded (matchesQuery watch.inner query) log watch.closed
      (watch.received ++ watch.queue)
      (((watch.broadcasters query.repositoryId).take (forwarder.position + 1)).filter
        (live watch.inner query forwarder.liveCutoffSequence))
      (if event.sequenceNumber ≤ forwarder.liveCutoffSequence then .receiving
        else .filtering event) := by
    rw [Broadcast.take_of_recv received, List.filter_append, List.filter_singleton]
    by_cases covered : event.sequenceNumber ≤ forwarder.liveCutoffSequence
    · have dead : live watch.inner query forwarder.liveCutoffSequence event = false := by
        simp [live, covered]
      rw [if_pos covered, dead]
      simpa [Forwarded] using sent
    · have alive : live watch.inner query forwarder.liveCutoffSequence event =
          matchesQuery watch.inner query event := by
        simp [live, Nat.lt_of_not_le covered]
      rw [if_neg covered, alive, ← List.filter_singleton]
      exact ⟨watched.carried.mem_log member, _, sent, rfl⟩
  exact ⟨⟨watched.carried.consistent, watched.carried.since, watched.carried.sent⟩,
    { returned with position := Broadcast.lt_of_recv received, forwarded := passes }⟩

theorem Watched.lag (waiting : forwarder.state = .receiving) {skipped : Nat}
    (lagged : broadcast.recv (watch.broadcasters query.repositoryId)
      forwarder.position = .lagged skipped) :
    Watched opened query (watch.forwarding snapshot resolved
      (forwarder.enter (.failing (cursorExpiredLaggedLiveFilter skipped)))) log := by
  have sent := (watched.returned stands).forwarded
  rw [waiting] at sent
  exact watched.enter stands ⟨sent, skipped, (broadcast.behind lagged).1, rfl⟩

theorem Watched.filter (holding : forwarder.state = .filtering event) :
    Watched opened query (watch.forwarding snapshot resolved
      (forwarder.enter (filterDecision event (eventMatchesQuery watch.inner event query)))) log := by
  have sent := (watched.returned stands).forwarded
  rw [holding] at sent
  obtain ⟨member, earlier, sent, split⟩ := sent
  rw [watched.carried.consistent.eventMatchesQuery member]
  apply watched.enter stands
  rw [List.filter_singleton] at split
  cases chosen : matchesQuery watch.inner query event with
  | true =>
    rw [chosen] at split
    exact ⟨earlier, sent, split⟩
  | false =>
    simp only [chosen, cond_false, List.append_nil] at split
    rw [split]
    exact sent

theorem Watched.send (holding : forwarder.state = .sending event) :
    Watched opened query
      ((watch.forwarding snapshot resolved (forwarder.enter .receiving)).enqueue (.ok event))
      log := by
  have returned := watched.returned stands
  have sent := returned.forwarded
  rw [holding] at sent
  obtain ⟨earlier, sent, split⟩ := sent
  have more : watch.received ++ (watch.queue ++ [.ok event]) =
      (((watch.broadcasters query.repositoryId).take forwarder.position).filter
        (live watch.inner query forwarder.liveCutoffSequence)).map .ok := by
    rw [← List.append_assoc, sent, split, List.map_append]
    rfl
  exact ⟨⟨watched.carried.consistent, watched.carried.since, watched.carried.sent⟩,
    { returned with forwarded := more }⟩

theorem Watched.fail {error : StoreError} (holding : forwarder.state = .failing error) :
    Watched opened query
      ((watch.forwarding snapshot resolved (forwarder.enter .stopped)).enqueue (.error error))
      log := by
  have returned := watched.returned stands
  have sent := returned.forwarded
  rw [holding] at sent
  obtain ⟨sent, skipped, positive, rfl⟩ := sent
  have last : watch.received ++
      (watch.queue ++ [.error (cursorExpiredLaggedLiveFilter skipped)]) =
      (((watch.broadcasters query.repositoryId).take forwarder.position).filter
        (live watch.inner query forwarder.liveCutoffSequence)).map .ok ++
        [.error (cursorExpiredLaggedLiveFilter skipped)] := by
    rw [← List.append_assoc, sent]
  exact ⟨⟨watched.carried.consistent, watched.carried.since, watched.carried.sent⟩,
    { returned with forwarded := .inr ⟨skipped, positive, last⟩ }⟩

theorem Watched.stop (closed : watch.closed = true) (working : forwarder.state ≠ .stopped)
    (noticed : ∀ event, forwarder.state ≠ .filtering event) :
    Watched opened query (watch.forwarding snapshot resolved (forwarder.enter .stopped)) log := by
  have sent := (watched.returned stands).forwarded
  apply watched.enter stands
  refine .inl ⟨closed, ?_⟩
  cases state : forwarder.state with
  | receiving =>
    rw [state] at sent
    exact ⟨_, List.prefix_refl _, sent⟩
  | filtering event => exact absurd state (noticed event)
  | sending event =>
    rw [state] at sent
    obtain ⟨earlier, sent, split⟩ := sent
    exact ⟨earlier, ⟨[event], split.symm⟩, sent⟩
  | failing error =>
    rw [state] at sent
    exact ⟨_, List.prefix_refl _, sent.1⟩
  | stopped => exact absurd state working

end Returned

end Forwarding

end Steps

end Atelia.Store
