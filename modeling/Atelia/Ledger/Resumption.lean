import Atelia.Ledger.LiveDelivery
import Atelia.Ledger.PageReading

/-! A client that watches again, after the last event it was shown. -/

namespace Atelia.Store

open Outcome Feed

/-- The query with its cursor at an event. -/
def EventQuery.resumed (query : EventQuery) (last : JobEvent) : EventQuery :=
  { query with cursor := .afterEventId last.id }

/-- Nothing is left to deliver, and the watch has not lagged. -/
def LiveWatch.Settled (broadcast : Broadcast JobEvent) (query : EventQuery) (watch : LiveWatch)
    (forwarder : Forwarder) : Prop :=
  watch.Drained broadcast query forwarder ∧ watch.received = (deliveredEvents watch.received).map .ok

/-- The events shown to a client that follows a query, with what it means for the last
watch to be settled. When a watch ends or is given up, the client opens another after the
last event it was shown; the ledger may grow in between. -/
inductive Followed (broadcast : Broadcast JobEvent) (query : EventQuery) (resolved : Option Nat) :
    List JobEvent → InMemoryInner → Prop → Prop
  | first {inner : InMemoryInner} {watch : LiveWatch} {snapshot : List JobEvent}
      {forwarder : Forwarder} (reachable : Reachable inner)
      (run : Relation.ReflTransGen (LiveWatch.Step broadcast query) (.start inner) watch)
      (stands : watch.phase = .returned snapshot resolved forwarder) :
      Followed broadcast query resolved (snapshot ++ deliveredEvents watch.received) watch.inner
        (watch.Settled broadcast query forwarder)
  | again {inner later : InMemoryInner} {watch : LiveWatch} {shown snapshot : List JobEvent}
      {next : Option Nat} {forwarder : Forwarder} {last : JobEvent} {settled : Prop}
      (earlier : Followed broadcast query resolved shown inner settled)
      (ends : shown.getLast? = some last) (between : Run inner later)
      (run : Relation.ReflTransGen (LiveWatch.Step broadcast (query.resumed last)) (.start later) watch)
      (stands : watch.phase = .returned snapshot next forwarder) :
      Followed broadcast query resolved (shown ++ (snapshot ++ deliveredEvents watch.received)) watch.inner
        (watch.Settled broadcast (query.resumed last) forwarder)

variable {query : EventQuery} {resolved next : Option Nat} {inner later : InMemoryInner}
  {watch : LiveWatch} {shown snapshot : List JobEvent} {forwarder : Forwarder} {last : JobEvent}
  {afterSequence : Nat} {broadcast : Broadcast JobEvent}

theorem watch_delivers (reachable : Reachable inner)
    (run : Relation.ReflTransGen (LiveWatch.Step broadcast query) (.start inner) watch)
    (stands : watch.phase = .returned snapshot resolved forwarder) :
    snapshot ++ deliveredEvents watch.received <+:
        watch.inner.selectedEvents query (resolved.getD 0) ∧
      (watch.Settled broadcast query forwarder → snapshot ++ deliveredEvents watch.received =
        watch.inner.selectedEvents query (resolved.getD 0)) := by
  obtain ⟨_, _, watched⟩ := Watched.of_run reachable run
  exact ⟨(received_eq reachable run stands).1,
    fun settled => watched.drained stands settled.1 _ settled.2⟩

/-- After a part from their start, the selected events are those after its last one. -/
theorem selectedEvents_split (reachable : Reachable inner)
    (part : shown <+: inner.selectedEvents query afterSequence)
    (ends : shown.getLast? = some last) :
    inner.selectedEvents query afterSequence =
      shown ++ inner.selectedEvents query last.sequenceNumber := by
  obtain ⟨log, logged⟩ := reachable.logged
  have lead := List.prefix_iff_eq_take.mp part
  have upTo := Feed.filter_le_last (selectedEvents_ordered reachable query afterSequence)
    (lead ▸ ends)
  have above := (mem_selectedEvents (part.subset (List.mem_of_getLast? ends))).1
  rw [← lead, InMemoryInner.selectedEvents, logged.events_eq, List.filter_filter] at upTo
  rw [InMemoryInner.selectedEvents, InMemoryInner.selectedEvents, logged.events_eq,
    Feed.filter_split logged.ordered _ last.sequenceNumber, ← upTo]
  congr 1
  · exact List.filter_congr fun _ _ => Bool.and_comm _ _
  · exact List.filter_congr fun _ _ => by grind

/-- A watch after the last event shown selects what is left of the query. -/
theorem selectedEvents_resumed (reachable : Reachable inner)
    (part : shown <+: inner.selectedEvents query afterSequence)
    (ends : shown.getLast? = some last) (between : Run inner later)
    (run : Relation.ReflTransGen (LiveWatch.Step broadcast (query.resumed last)) (.start later) watch)
    (stands : watch.phase = .returned snapshot next forwarder) :
    watch.inner.selectedEvents query afterSequence =
      shown ++ watch.inner.selectedEvents (query.resumed last) (next.getD 0) := by
  have grown := between.trans (run_of_watch run)
  have reached : Reachable watch.inner := reachable.trans grown
  have kept := part.trans ( Run.selectedEvents_prefix reachable grown query afterSequence)
  -- the cursor of the new watch stands for the number of the last event shown
  have cursor := PhaseResolved.of_run (reachable.trans between) run
  obtain ⟨log, logged⟩ := reached.logged
  have member := List.mem_of_mem_filter (kept.subset (List.mem_of_getLast? ends))
  rw [logged.events_eq, logged.stored] at member
  rw [stands] at cursor
  simp only [PhaseResolved, EventQuery.resumed, resolveLiveEventCursorSequence, member, okOr, bind_eq_ok,
    pure_eq_ok, Except.ok.injEq, exists_eq_left'] at cursor
  obtain rfl := cursor
  exact selectedEvents_split reached kept ends

/-- A client that follows a query through any number of watches is shown every event once
and in order, whatever is committed meanwhile, and has been shown all of them when its last
watch is settled. -/
theorem followed_query_delivers {settled : Prop}
    (followed : Followed broadcast query resolved shown inner settled) :
    Reachable inner ∧ shown <+: inner.selectedEvents query (resolved.getD 0) ∧
      (settled → shown = inner.selectedEvents query (resolved.getD 0)) := by
  induction followed with
  | first reachable run stands =>
    exact ⟨reachable.trans (run_of_watch run), watch_delivers reachable run stands⟩
  | again earlier ends between run stands ih =>
    obtain ⟨reachable, part, _⟩ := ih
    obtain ⟨lead, whole⟩ := watch_delivers (reachable.trans between) run stands
    refine ⟨(reachable.trans between).trans (run_of_watch run), ?_⟩
    rw [selectedEvents_resumed reachable part ends between run stands,
      List.prefix_append_right_inj]
    exact ⟨lead, fun settled => congrArg _ (whole settled)⟩

section Twice

/-! A client that is shown two events, and after a third one watches again. -/

private def followsTwice (inner : InMemoryInner) : Bool :=
  ((LiveWatch.start inner).scheduled (.retaining 1024) {} 8 [jobNotice 1]).any fun first =>
    first.phase.returned?.any fun (early, resolved, _) =>
      let shown := early ++ deliveredEvents first.received
      shown.getLast?.any fun last =>
        ((jobNotice 2).exec first.inner).toOption.any fun (later, _) =>
          ((LiveWatch.start later).scheduled (.retaining 1024) (EventQuery.resumed {} last) 8
              [jobNotice 3]).any fun second =>
            second.phase.returned?.any fun (snapshot, _, forwarder) =>
              second.isDrained (.retaining 1024) (EventQuery.resumed {} last) forwarder &&
                second.received = (deliveredEvents second.received).map .ok &&
                resolved = none && shown.map (·.sequenceNumber) = [1, 2] &&
                snapshot.map (·.sequenceNumber) = [3] &&
                (deliveredEvents second.received).map (·.sequenceNumber) = [4]

private theorem followsTwice_reached : reaches exampleSubmission followsTwice = true := by
  decide +kernel

theorem submission_followed : ∃ inner shown settled,
    Followed (.retaining 1024) {} none shown inner settled ∧ settled ∧
      shown.map (·.sequenceNumber) = [1, 2, 3, 4] ∧ shown = inner.selectedEvents {} 0 := by
  obtain ⟨inner, reachable, follows⟩ := Reachable.of_reaches followsTwice_reached
  simp only [followsTwice, Option.any_eq_true, Prod.exists, Bool.and_eq_true,
    decide_eq_true_eq] at follows
  obtain ⟨first, ran, early, resolved, forwarder, returned, last, ends, later, published, grown,
    second, ran', snapshot, next, forwarder', returned', rest⟩ := follows
  obtain ⟨⟨⟨⟨⟨drained, fine⟩, rfl⟩, shown⟩, stored⟩, live⟩ := rest
  have committed : (jobNotice 2).exec first.inner = .ok (later, published) := by
    cases answer : (jobNotice 2).exec first.inner with
    | error _ => rw [answer] at grown; cases grown
    | ok _ => rw [answer] at grown; exact congrArg _ (Option.some.inj grown)
  have followed := (Followed.first reachable (LiveWatch.scheduled_run ran)
    (WatchPhase.of_returned? returned)).again ends (.single ⟨_, _, committed⟩)
    (LiveWatch.scheduled_run ran') (WatchPhase.of_returned? returned')
  have settled : second.Settled (.retaining 1024) _ forwarder' :=
    ⟨LiveWatch.drained_of_isDrained drained, fine⟩
  refine ⟨_, _, _, followed, settled, ?_, (followed_query_delivers followed).2.2 settled⟩
  rw [List.map_append, shown, List.map_append, stored, live]
  rfl

end Twice

end Atelia.Store
