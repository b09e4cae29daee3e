import Atelia.Store.Watch

/-! Reading the event ledger: pages of the events that a query selects, and the latest event
of a repository. -/

namespace Atelia.Store

open Outcome

/-- The largest number a `usize` holds. -/
def maxUsize : Nat := 2 ^ 64 - 1

/-- Read an offset as `str::parse::<usize>` does: decimal digits after at most one
plus sign. -/
def parseUsize (text : String) : Option Nat :=
  let digits := match text.toList with
    | '+' :: rest => rest
    | characters => characters
  if digits.isEmpty || !digits.all Char.isDigit then none
  else
    let value := digits.foldl (fun value digit => 10 * value + (digit.toNat - '0'.toNat)) 0
    if value ≤ maxUsize then some value else none

def pageStart (pageToken : Option String) (collection : String) : StoreResult Nat :=
  match pageToken with
  | none => .ok 0
  | some token =>
    if token.toList.isEmpty then .ok 0
    else okOr (parseUsize token)
      (.invalidCursor s!"{collection} page token is not a numeric offset")

def missingEventOfIndex (id : JobEventId) : StoreError :=
  .conflict "job_events" s!"sequence index references missing id {debug id}"

/-- Walk over entries of the sequence index. Matching events are skipped up to the
start of the page, then retained; the walk ends early when the page is full and
another event matches. -/
def collectPage (inner : InMemoryInner) (query : EventQuery) (start pageSize : Nat) :
    List (Nat × JobEventId) → Nat → List JobEvent → StoreResult (List JobEvent × Bool)
  | [], _, retained => .ok (retained, false)
  | (_, id) :: rest, skipped, retained => do
    let event ← okOr inner.jobEventsById[id]? (missingEventOfIndex id)
    let selected ← eventMatchesQuery inner event query
    if !selected then collectPage inner query start pageSize rest skipped retained
    else if skipped < start then collectPage inner query start pageSize rest (skipped + 1) retained
    else if retained.length = pageSize then return (retained, true)
    else collectPage inner query start pageSize rest skipped (retained ++ [event])

def collectPaginatedFilteredJobEvents (inner : InMemoryInner) (query : EventQuery)
    (start pageSize : Nat) : StoreResult (List JobEvent × Option String) := do
  let afterSequence ← eventCursorSequence inner query.cursor
  if pageSize = 0 then return ([], none)
  else
    -- a cursor at the last sequence number has no successor
    let entries := if afterSequence + 1 ≤ maxSequence then
        inner.jobEventsBySequence.toList.filter fun entry => afterSequence + 1 ≤ entry.1
      else []
    let (retained, hasNext) ← collectPage inner query start pageSize entries 0 []
    return (retained, if hasNext then some (toString (start + retained.length)) else none)

structure EventPage where
  events : List JobEvent
  nextPageToken : Option String
  resolvedCursorSequence : Option Nat
  deriving DecidableEq

def queryJobEvents (inner : InMemoryInner) (query : EventQuery) : StoreResult EventPage := do
  let start ← pageStart query.pageToken "job_events"
  let pageSize := query.pageSize.getD maxUsize
  let resolvedCursorSequence ← resolveEventCursorSequence inner query.cursor
  let (events, nextPageToken) ← collectPaginatedFilteredJobEvents inner query start pageSize
  return { events, nextPageToken, resolvedCursorSequence }

/-- The first event of a repository among entries of the sequence index. -/
def findRepositoryEvent (inner : InMemoryInner) (repositoryId : RepositoryId) :
    List (Nat × JobEventId) → StoreResult (Option JobEvent)
  | [] => .ok none
  | (_, id) :: rest => do
    let event ← okOr inner.jobEventsById[id]? (.conflict "job_events"
      s!"sequence index references missing event {debug id}")
    let eventRepository ← eventRepositoryId inner event
    if eventRepository = repositoryId then return some event
    else findRepositoryEvent inner repositoryId rest

def latestJobEventForRepository (inner : InMemoryInner) (repositoryId : RepositoryId) :
    StoreResult (Option JobEvent) :=
  findRepositoryEvent inner repositoryId inner.jobEventsBySequence.toList.reverse

end Atelia.Store
