import Atelia.Ledger.EventRepository
import Atelia.Ledger.JobLifecycle

/-! Reading the event ledger page by page. -/

namespace Atelia.Store

open Outcome

variable {inner before after first final : InMemoryInner} {query : EventQuery}
  {afterSequence start : Nat} {token : Option String}

section Tokens

/-- The offset that a token is written from is read from it again. -/
theorem parseUsize_toString {number : Nat} (fits : number ≤ maxUsize) :
    parseUsize (toString number) = some number := by
  have digits : (toString number).toList = Nat.toDigits 10 number := by
    rw [Nat.toString_eq_repr, Nat.toList_repr]
  have decimal : ∀ digit ∈ Nat.toDigits 10 number, digit.isDigit = true := fun _ member =>
    Nat.isDigit_of_mem_toDigits (by decide) (by decide) member
  have value : (Nat.toDigits 10 number).foldl
      (fun value digit => 10 * value + (digit.toNat - '0'.toNat)) 0 = number :=
    Nat.ofDigitChars_toDigits (by decide) (by decide)
  unfold parseUsize
  rw [digits]
  split
  · rename_i rest signed
    have plus := decimal '+' (by rw [signed]; exact List.mem_cons_self)
    exact absurd plus (by decide)
  · simp only [value]
    rw [if_neg, if_pos fits]
    simp only [Bool.or_eq_true, List.isEmpty_iff, Nat.toDigits_ne_nil, Bool.not_eq_true', false_or,
      Bool.not_eq_false, List.all_eq_true]
    exact decimal

theorem pageStart_toString {number : Nat} (fits : number ≤ maxUsize) (collection : String) :
    pageStart (some (toString number)) collection = .ok number := by
  have written : (toString number).toList.isEmpty = false := by
    rw [Nat.toString_eq_repr, Nat.toList_repr, List.isEmpty_eq_false_iff]
    exact Nat.toDigits_ne_nil
  rw [pageStart, written, parseUsize_toString fits]
  rfl

end Tokens

section Growth

/-- A cursor that has been resolved stands for the same sequence number later. -/
theorem eventCursorSequence_persists (grown : Extends before after) {cursor : EventCursor}
    (resolved : eventCursorSequence before cursor = .ok afterSequence) :
    eventCursorSequence after cursor = .ok afterSequence := by
  cases cursor with
  | beginning => exact resolved
  | afterSequence sequence => exact resolved
  | afterEventId id =>
    simp only [eventCursorSequence, bind_eq_ok, okOr_eq_ok, pure_eq_ok] at resolved ⊢
    obtain ⟨event, found, same⟩ := resolved
    exact ⟨event, grown.jobEvents.lookup found, same⟩

/-- The selected events only grow at their end. -/
theorem Run.selectedEvents_prefix (reachable : Reachable before) (run : Run before after)
    (query : EventQuery) (afterSequence : Nat) :
    before.selectedEvents query afterSequence <+: after.selectedEvents query afterSequence := by
  obtain ⟨log, consistent⟩ := reachable.consistent
  obtain ⟨appended, same⟩ := Run.events_append reachable run
  have kept : log.filter (fun event => decide (afterSequence < event.sequenceNumber) &&
      matchesQuery after query event) = before.selectedEvents query afterSequence := by
    rw [InMemoryInner.selectedEvents, consistent.logged.events_eq]
    apply List.filter_congr
    intro event member
    rw [consistent.matchesQuery_persists member (Run.extends reachable run)
      (Reachable.keyed (reachable.trans run))]
  rw [consistent.logged.events_eq] at same
  rw [InMemoryInner.selectedEvents.eq_def after, same, List.filter_append, kept]
  exact List.prefix_append _ _

/-- There are no more selected events than an offset can count. -/
theorem selectedEvents_length (reachable : Reachable inner) (query : EventQuery)
    (afterSequence : Nat) : (inner.selectedEvents query afterSequence).length ≤ maxUsize := by
  obtain ⟨log, logged⟩ := reachable.logged
  rw [InMemoryInner.selectedEvents, logged.events_eq]
  exact Nat.le_trans (List.length_filter_le _ _) logged.bounded

end Growth

section Reading

/-- Pages asked for one after the other, each in the ledger of its moment and from the
token of the page before, until a page has none. -/
def followPages (query : EventQuery) :
    Option String → List InMemoryInner → StoreResult (List EventPage)
  | _, [] => .ok []
  | token, inner :: moments => do
    let page ← queryJobEvents inner { query with pageToken := token }
    match page.nextPageToken with
    | none => return [page]
    | some next =>
      let pages ← followPages query (some next) moments
      return page :: pages

def EventQuery.size (query : EventQuery) : Nat :=
  query.pageSize.getD maxUsize

/-- One page, from the position that its token names. -/
theorem queryJobEvents_page (reachable : Reachable inner)
    (resolved : eventCursorSequence inner query.cursor = .ok afterSequence)
    (positive : query.pageSize ≠ some 0) (started : pageStart token "job_events" = .ok start) :
    ∃ page, queryJobEvents inner { query with pageToken := token } = .ok page ∧
      page.events = ((inner.selectedEvents query afterSequence).drop start).take query.size ∧
      page.nextPageToken =
        if query.size < ((inner.selectedEvents query afterSequence).drop start).length then
          some (toString (start + query.size))
        else none := by
  obtain ⟨log, consistent⟩ := reachable.consistent
  have room : query.size ≠ 0 := by
    unfold EventQuery.size
    cases chosen : query.pageSize with
    | none => decide
    | some size =>
      intro empty
      exact positive (chosen.trans (congrArg some empty))
  have cursor : ∃ sequence, resolveEventCursorSequence inner query.cursor = .ok sequence := by
    cases named : query.cursor with
    | beginning => exact ⟨_, rfl⟩
    | afterSequence sequence => exact ⟨_, rfl⟩
    | afterEventId id =>
      rw [named] at resolved
      refine ⟨some afterSequence, ?_⟩
      rw [resolveEventCursorSequence, resolved]
      rfl
  obtain ⟨sequence, cursor⟩ := cursor
  have collected := collectPaginatedFilteredJobEvents_eq consistent { query with pageToken := token }
    resolved start room
  refine ⟨⟨_, _, sequence⟩, ?_, rfl, rfl⟩
  simp only [queryJobEvents, bind_eq_ok]
  exact ⟨start, started, sequence, cursor, _, collected, rfl⟩

/-- What pages amount to that were read after some events had been taken. -/
structure PagesExact (query : EventQuery) (afterSequence : Nat) (taken : List JobEvent)
    (moments : List InMemoryInner) (pages : List EventPage) (final : InMemoryInner) : Prop where
  inOrder : taken ++ pages.flatMap (·.events) <+: final.selectedEvents query afterSequence
  complete : ∀ index page, pages[index]? = some page → page.nextPageToken = none →
    ∃ moment, moments[index]? = some moment ∧
      taken ++ (pages.take (index + 1)).flatMap (·.events) =
        moment.selectedEvents query afterSequence

variable {moments : List InMemoryInner} {taken : List JobEvent} {page : EventPage}
  {pages : List EventPage}

private theorem PagesExact.last
    (whole : taken ++ page.events = inner.selectedEvents query afterSequence)
    (kept : inner.selectedEvents query afterSequence <+: final.selectedEvents query afterSequence) :
    PagesExact query afterSequence taken (inner :: moments) [page] final where
  inOrder := by simpa [whole] using kept
  complete := by
    intro index other listed _
    cases index with
    | zero => exact ⟨inner, rfl, by simpa using whole⟩
    | succ index => cases listed

private theorem PagesExact.next {next : String} (more : page.nextPageToken = some next)
    (later : PagesExact query afterSequence (taken ++ page.events) moments pages final) :
    PagesExact query afterSequence taken (inner :: moments) (page :: pages) final where
  inOrder := by
    rw [List.flatMap_cons, ← List.append_assoc]
    exact later.inOrder
  complete := by
    intro index other listed ends
    cases index with
    | zero =>
      cases listed
      rw [more] at ends
      cases ends
    | succ index =>
      obtain ⟨moment, found, whole⟩ := later.complete index other listed ends
      refine ⟨moment, found, ?_⟩
      rw [List.take_succ_cons, List.flatMap_cons, ← List.append_assoc]
      exact whole

/-- Pages that are read from a position on, by induction on the moments: the events
taken so far are the first selected events of every later moment. -/
theorem followPages_exact (reachable : Reachable before)
    (ordered : (before :: (moments ++ [final])).Pairwise Run)
    (resolved : eventCursorSequence before query.cursor = .ok afterSequence)
    (positive : query.pageSize ≠ some 0)
    (short : start ≤ (before.selectedEvents query afterSequence).length)
    (started : pageStart token "job_events" = .ok start) :
    ∃ pages, followPages query token moments = .ok pages ∧
      PagesExact query afterSequence ((before.selectedEvents query afterSequence).take start) moments
        pages final := by
  induction moments generalizing before start token with
  | nil =>
    have kept := Run.selectedEvents_prefix reachable
      ((List.pairwise_cons.mp ordered).1 final (by simp)) query afterSequence
    refine ⟨[], rfl, ?_, by simp⟩
    simpa using (List.take_prefix _ _).trans kept
  | cons inner moments ih =>
    obtain ⟨runs, ordered⟩ := List.pairwise_cons.mp ordered
    have run : Run before inner := runs inner (by simp)
    have reached : Reachable inner := reachable.trans run
    have resolvedNow := eventCursorSequence_persists (Run.extends reachable run) resolved
    have grown := Run.selectedEvents_prefix reachable run query afterSequence
    have taken : (before.selectedEvents query afterSequence).take start =
        (inner.selectedEvents query afterSequence).take start := by
      obtain ⟨appended, same⟩ := grown
      rw [← same, List.take_append_of_le_length short]
    obtain ⟨page, read, events, more⟩ := queryJobEvents_page reached resolvedNow positive started
    have kept : inner.selectedEvents query afterSequence <+:
        final.selectedEvents query afterSequence :=
      Run.selectedEvents_prefix reached ((List.pairwise_cons.mp ordered).1 final (by simp)) query
        afterSequence
    rw [taken]
    by_cases further : query.size < ((inner.selectedEvents query afterSequence).drop start).length
    · rw [if_pos further] at more
      rw [List.length_drop] at further
      have within : start + query.size ≤ (inner.selectedEvents query afterSequence).length := by
        omega
      have fits := Nat.le_trans within (selectedEvents_length reached query afterSequence)
      obtain ⟨pages, followed, later⟩ := ih reached ordered resolvedNow within
        (pageStart_toString fits "job_events")
      rw [List.take_add, ← events] at later
      refine ⟨page :: pages, ?_, later.next more⟩
      simp only [followPages, bind_eq_ok]
      refine ⟨page, read, ?_⟩
      rw [more]
      exact bind_eq_ok.mpr ⟨pages, followed, rfl⟩
    · rw [if_neg further] at more
      rw [List.take_of_length_le (Nat.not_lt.mp further)] at events
      have whole : (inner.selectedEvents query afterSequence).take start ++ page.events =
          inner.selectedEvents query afterSequence := by
        rw [events, List.take_append_drop]
      refine ⟨[page], ?_, .last whole kept⟩
      simp only [followPages, bind_eq_ok]
      refine ⟨page, read, ?_⟩
      rw [more]
      rfl

/-- The pages that a reader follows, whatever operations are committed between its
requests, are consecutive pieces of the selected events from the first on, and are
all of them at the moment of a page that has no token. A cursor that names no event
is refused at once. -/
theorem event_pages_exact {later : List InMemoryInner} (reachable : Reachable first)
    (ordered : (first :: (later ++ [final])).IsChain Run) (positive : query.pageSize ≠ some 0) :
    match eventCursorSequence first query.cursor with
    | .error error => followPages query none (first :: later) = .error error
    | .ok afterSequence => ∃ pages, followPages query none (first :: later) = .ok pages ∧
        pages.flatMap (·.events) <+: final.selectedEvents query afterSequence ∧
        (pages.flatMap (·.events)).Pairwise (·.sequenceNumber < ·.sequenceNumber) ∧
        ∀ index page, pages[index]? = some page → page.nextPageToken = none →
          ∃ moment, (first :: later)[index]? = some moment ∧
            (pages.take (index + 1)).flatMap (·.events) =
              moment.selectedEvents query afterSequence := by
  cases resolved : eventCursorSequence first query.cursor with
  | error error =>
    cases named : query.cursor with
    | beginning => rw [named] at resolved; cases resolved
    | afterSequence sequence => rw [named] at resolved; cases resolved
    | afterEventId id =>
      rw [named] at resolved
      simp only [followPages, queryJobEvents, pageStart, named, resolveEventCursorSequence, resolved]
      rfl
  | ok afterSequence =>
    have chain : (first :: (first :: later ++ [final])).IsChain Run :=
      .cons_cons .refl ordered
    obtain ⟨pages, followed, pieces⟩ := followPages_exact reachable chain.pairwise resolved positive
      (Nat.zero_le _) (rfl : pageStart none "job_events" = .ok 0)
    have inOrder := pieces.inOrder
    rw [List.take_zero, List.nil_append] at inOrder
    have reached : Reachable final :=
      reachable.trans ((List.pairwise_cons.mp ordered.pairwise).1 final (by simp))
    obtain ⟨log, consistent⟩ := reached.consistent
    refine ⟨pages, followed, inOrder, ?_, ?_⟩
    · apply List.Pairwise.sublist inOrder.sublist
      rw [InMemoryInner.selectedEvents, consistent.logged.events_eq]
      exact consistent.logged.ordered.filter _
    · intro index page listed ends
      simpa using pieces.complete index page listed ends

end Reading

section Appending

/-- A job with two notices and between them one of its repository. -/
def interleavedNotices : List StoreOperation :=
  exampleSubmission ++ [jobNotice 1, repositoryNotice 2, jobNotice 3]

/-- The events of the job after its submission, one a page. -/
def noticesQuery : EventQuery where
  jobIds := [exampleJob.id]
  cursor := .afterEventId (exampleEvent 0 .jobSubmitted).id
  pageSize := some 1

private def readsNotices (first : InMemoryInner) : Bool :=
  match runOperations first [jobNotice 4] with
  | .error _ => false
  | .ok second =>
    eventCursorSequence first noticesQuery.cursor = .ok 1 &&
    match followPages noticesQuery none [first, second, second] with
    | .error _ => false
    | .ok pages => pages.map (fun page => (page.events.map (·.sequenceNumber), page.nextPageToken)) =
        [([2], some "1"), ([4], some "2"), ([5], none)]

private theorem readsNotices_reached : reaches interleavedNotices readsNotices = true := by
  decide +kernel

/-- A notice that is appended when the first page has been read is on the last one. -/
theorem appended_between_pages : ∃ first second pages, Reachable first ∧
    runOperations first [jobNotice 4] = .ok second ∧
    followPages noticesQuery none [first, second, second] = .ok pages ∧
    pages.map (·.events.map (·.sequenceNumber)) = [[2], [4], [5]] ∧
    pages.flatMap (·.events) = second.selectedEvents noticesQuery 1 := by
  obtain ⟨first, reachable, reads⟩ := Reachable.of_reaches readsNotices_reached
  unfold readsNotices at reads
  cases ran : runOperations first [jobNotice 4] with
  | error _ =>
    rw [ran] at reads
    cases reads
  | ok second =>
    have ordered : (first :: ([second, second] ++ [second])).IsChain Run :=
      .cons_cons (.of_operations ran) (.cons_cons .refl (.cons_cons .refl (.singleton second)))
    have exact := @event_pages_exact first second noticesQuery [second, second] reachable ordered
      (by decide)
    simp only [ran, Bool.and_eq_true, decide_eq_true_eq] at reads
    obtain ⟨resolved, reads⟩ := reads
    rw [resolved] at exact
    obtain ⟨pages, followed, _, _, complete⟩ := exact
    simp only [followed, decide_eq_true_eq] at reads
    have numbers := congrArg (List.map Prod.fst) reads
    rw [List.map_map] at numbers
    simp only [List.map_eq_cons_iff, List.map_eq_nil_iff, Prod.mk.injEq] at reads
    obtain ⟨_, _, rfl, _, _, _, rfl, _, page, _, rfl, ⟨_, ends⟩, rfl⟩ := reads
    obtain ⟨moment, same, whole⟩ := complete 2 page rfl ends
    obtain rfl := Option.some.inj same
    exact ⟨first, second, _, reachable, ran, followed, numbers, whole⟩

end Appending

end Atelia.Store
