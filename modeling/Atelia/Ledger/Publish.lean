import Atelia.Ledger.Invariant

/-! Publishing never fails. -/

namespace Atelia.Store

open Outcome

variable {inner before after : InMemoryInner} {event : JobEvent}
  {admits : JobRecord → Prop}

private theorem toolInvocation_repository {record : ToolInvocation}
    (checked : validateToolInvocationRefs inner record = .ok ()) :
    inner.repositories.contains record.repositoryId = true := by
  simp only [validateToolInvocationRefs, bind_eq_ok, exists_unit, ensureRefExists_eq_ok] at checked
  obtain ⟨_, _, stored, _⟩ := checked
  exact stored

/-- The repository of the subject of an event is stored. -/
theorem Sound.subject_stored (sound : Sound inner) {repositoryId : RepositoryId}
    (found : subjectRepositoryId inner event {} = .ok repositoryId) :
    inner.repositories.contains repositoryId = true := by
  unfold subjectRepositoryId at found
  cases kind : event.subject.subjectType with
  | repository =>
    simp only [kind, okOr_eq_ok] at found
    obtain ⟨⟨id, record⟩, listed, rfl⟩ := List.mem_map.mp (List.mem_of_find?_eq_some found)
    exact (Table.contains_iff _ _).mpr
      ⟨record, Std.ExtTreeMap.mem_toList_iff_getElem?_eq_some.mp listed⟩
  | job =>
    simp only [kind, bind_eq_ok, okOr_eq_ok, pure_eq_ok, Option.filter_none,
      Option.or_none] at found
    obtain ⟨job, scan, rfl⟩ := found
    exact (sound.jobs.mem_records (List.mem_of_find?_eq_some scan)).repository
  | policyDecision =>
    simp only [kind, bind_eq_ok, okOr_eq_ok, pure_eq_ok] at found
    obtain ⟨decision, scan, rfl⟩ := found
    exact sound.repositories.named.mem_records (List.mem_of_find?_eq_some scan)
  | lockDecision =>
    simp only [kind, bind_eq_ok, okOr_eq_ok, pure_eq_ok] at found
    obtain ⟨lock, scan, rfl⟩ := found
    exact (sound.locks.each.mem_records (List.mem_of_find?_eq_some scan)).repository
  | toolInvocation =>
    simp only [kind, bind_eq_ok, okOr_eq_ok, pure_eq_ok] at found
    obtain ⟨invocation, scan, rfl⟩ := found
    exact toolInvocation_repository
      (sound.tools.invocations.mem_records (List.mem_of_find?_eq_some scan))
  | toolResult =>
    simp only [kind, bind_eq_ok, okOr_eq_ok, pure_eq_ok] at found
    obtain ⟨_, _, invocation, stored, rfl⟩ := found
    exact toolInvocation_repository (sound.tools.invocations _ _ stored)
  | auditRecord =>
    simp only [kind, bind_eq_ok, okOr_eq_ok, pure_eq_ok, Option.filter_none,
      Option.or_none] at found
    obtain ⟨record, scan, rfl⟩ := found
    have checked := sound.tools.audits.mem_records (List.mem_of_find?_eq_some scan)
    simp only [validateAuditRecordRefs, validateAuditRecordRefsWithPendingToolResult, bind_eq_ok,
      exists_unit, ensureRefExists_eq_ok] at checked
    exact checked.1

/-- The repository of an accepted event is stored. -/
theorem Sound.eventRepository_stored (sound : Sound inner)
    (links : validateEventLinks inner event {} = .ok ()) :
    ∃ repositoryId record, eventRepositoryId inner event = .ok repositoryId ∧
      inner.repositories[repositoryId]? = some record := by
  obtain ⟨repositoryId, subject, derived⟩ := eventRepositoryId_of_links links
  obtain ⟨record, found⟩ := (Table.contains_iff _ _).mp (sound.subject_stored subject)
  exact ⟨repositoryId, record, derived, found⟩

/-- A ledger in a consistent state, with the list of its events. -/
structure Consistent (inner : InMemoryInner) (log : List JobEvent) : Prop where
  keyed : Keyed inner
  sound : Sound inner
  logged : Logged inner log

theorem Commits.consistent {log events : List JobEvent} (commits : Commits admits before events after)
    (consistent : Consistent before log) : Consistent after (log ++ events) where
  keyed := commits.keyed consistent.keyed
  sound := commits.preserve Sound Commit.sound consistent.keyed consistent.sound
  logged := commits.logged consistent.logged

theorem Reachable.consistent (reachable : Reachable inner) : ∃ log, Consistent inner log := by
  obtain ⟨log, logged⟩ := reachable.logged
  exact ⟨log, reachable.keyed, reachable.sound, logged⟩

end Atelia.Store
