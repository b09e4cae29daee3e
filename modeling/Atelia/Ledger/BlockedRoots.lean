import Atelia.Ledger.Invariant

/-! Blocked repository roots. -/

namespace Atelia.Store

open Outcome

variable {inner before after : InMemoryInner} {first second : RepositoryRecord}

/-- Two roots are one path, or one is an ancestor of the other. -/
def rootsMeet (first second : String) : Bool :=
  Path.startsWith (Path.components first) (Path.components second) ||
    Path.startsWith (Path.components second) (Path.components first)

/-- The repository is blocked, or a decision blocks it at its root. -/
def Guarded (inner : InMemoryInner) (repository : RepositoryRecord) : Prop :=
  repository.trustState = .blocked ∨ ∃ decision ∈ inner.policyDecisions.records,
    isRootScopedRepositoryBlock decision = true ∧ decision.repositoryId = repository.id

/-- The root of a guarded repository meets the root of no other repository. -/
def Isolated (inner : InMemoryInner) : Prop :=
  ∀ first ∈ inner.repositories.records, ∀ second ∈ inner.repositories.records,
    first.id ≠ second.id → Guarded inner first → rootsMeet first.rootPath second.rootPath = false

/-- The root of a guarded repository is not the path of another root. -/
def SpelledOnce (inner : InMemoryInner) : Prop :=
  ∀ first ∈ inner.repositories.records, ∀ second ∈ inner.repositories.records,
    first.id ≠ second.id → Guarded inner first →
      Path.components first.rootPath ≠ Path.components second.rootPath

theorem rootsMeet_eq_false {first second : String} : rootsMeet first second = false ↔
    Path.components first ≠ Path.components second ∧
      repositoryRootsStrictlyOverlap first second = false := by
  unfold rootsMeet repositoryRootsStrictlyOverlap Path.strictlyOverlap
  by_cases same : Path.components first = Path.components second
  · have itself : Path.startsWith (Path.components second) (Path.components second) = true :=
      Path.startsWith_iff.mpr (List.prefix_refl _)
    simp [same, itself]
  · simp [same]

/-- The checks of the store keep a guarded root apart from the roots above and below. -/
theorem RepositoriesSound.guarded_apart (sound : RepositoriesSound inner) (keyed : Keyed inner)
    (member : first ∈ inner.repositories.records) (member' : second ∈ inner.repositories.records)
    (different : first.id ≠ second.id) (guarded : Guarded inner first) :
    repositoryRootsStrictlyOverlap first.rootPath second.rootPath = false := by
  rcases guarded with blocked | ⟨decision, listed, rootScoped, named⟩
  · by_contra overlap
    rw [Bool.not_eq_false] at overlap
    exact (sound.unblocked first member second member' overlap).1 blocked
  · obtain ⟨repository, found, apart⟩ := sound.blocks.mem_records listed rootScoped
    obtain ⟨id, stored⟩ := Table.mem_records.mp member
    obtain rfl := keyed.repositories id first stored
    rw [named, stored, Option.some.injEq] at found
    subst found
    exact apart second member' different.symm

theorem isolated_iff (sound : RepositoriesSound inner) (keyed : Keyed inner) :
    Isolated inner ↔ SpelledOnce inner := by
  constructor
  · intro isolated first member second member' different guarded
    exact (rootsMeet_eq_false.mp (isolated first member second member' different guarded)).1
  · intro spelled first member second member' different guarded
    exact rootsMeet_eq_false.mpr ⟨spelled first member second member' different guarded,
      sound.guarded_apart keyed member member' different guarded⟩

section Steps

/-- The operations that set up repositories and block them. -/
def StoreOperation.SetsUpRoots : StoreOperation → Prop
  | .createRepository _ | .createPolicyDecision _ => True
  | _ => False

/-- The operation spells no root anew that it, or the ledger, guards. -/
def StoreOperation.SpellsApart (inner : InMemoryInner) : StoreOperation → Prop
  | .createRepository record => ∀ existing ∈ inner.repositories.records,
      Path.components existing.rootPath = Path.components record.rootPath →
        record.trustState ≠ .blocked ∧ ¬Guarded inner existing
  | .createPolicyDecision decision => isRootScopedRepositoryBlock decision = true →
      ∀ first ∈ inner.repositories.records, ∀ second ∈ inner.repositories.records,
        first.id = decision.repositoryId → first.id ≠ second.id →
          Path.components first.rootPath ≠ Path.components second.rootPath
  | _ => True

theorem spelledOnce_withRepository (keyed : Keyed before) (sound : RepositoriesSound before)
    {record : RepositoryRecord} (fresh : before.repositories[record.id]? = none) :
    SpelledOnce (before.withRepository record) ↔
      SpelledOnce before ∧ (StoreOperation.createRepository record).SpellsApart before := by
  have other : ∀ existing ∈ before.repositories.records, existing.id ≠ record.id := by
    intro existing member same
    obtain ⟨id, stored⟩ := Table.mem_records.mp member
    rw [← keyed.repositories id existing stored, same, fresh] at stored
    cases stored
  -- no decision is about the new repository yet
  have guardedNew : Guarded (before.withRepository record) record → record.trustState = .blocked := by
    rintro (blocked | ⟨decision, listed, _, named⟩)
    · exact blocked
    · obtain ⟨_, stored⟩ := (Table.contains_iff _ _).mp (sound.named.mem_records listed)
      rw [named, fresh] at stored
      cases stored
  have members : ∀ existing, existing ∈ (before.withRepository record).repositories.records ↔
      existing = record ∨ existing ∈ before.repositories.records := fun existing =>
    Table.mem_records_insert fresh
  constructor
  · intro spelled
    refine ⟨?_, ?_⟩
    · intro first member second member' different guarded
      exact spelled first ((members first).mpr (.inr member)) second
        ((members second).mpr (.inr member')) different guarded
    · intro existing member same
      have listed := (members existing).mpr (.inr member)
      have listedNew := (members record).mpr (.inl rfl)
      constructor
      · intro blocked
        exact spelled record listedNew existing listed (other existing member).symm (.inl blocked)
          same.symm
      · intro guarded
        exact spelled existing listed record listedNew (other existing member) guarded same
  · rintro ⟨spelled, apart⟩ first member second member' different guarded
    rcases (members first).mp member with rfl | old <;>
      rcases (members second).mp member' with rfl | old'
    · exact absurd rfl different
    · intro same
      exact (apart second old' same.symm).1 (guardedNew guarded)
    · intro same
      exact (apart first old same).2 guarded
    · exact spelled first old second old' different guarded

theorem spelledOnce_withPolicyDecision {decision : PolicyDecision}
    (fresh : before.policyDecisions[decision.id]? = none) :
    SpelledOnce (before.withPolicyDecision decision) ↔
      SpelledOnce before ∧ (StoreOperation.createPolicyDecision decision).SpellsApart before := by
  have guards : ∀ repository, Guarded (before.withPolicyDecision decision) repository ↔
      Guarded before repository ∨
        (isRootScopedRepositoryBlock decision = true ∧ decision.repositoryId = repository.id) := by
    intro repository
    have members : ∀ other, other ∈ (before.withPolicyDecision decision).policyDecisions.records ↔
        other = decision ∨ other ∈ before.policyDecisions.records := fun other =>
      Table.mem_records_insert fresh
    simp only [Guarded, members, or_and_right, exists_or, exists_eq_left]
    exact (or_assoc.trans (or_congr_right or_comm)).symm
  constructor
  · intro spelled
    refine ⟨?_, ?_⟩
    · intro first member second member' different guarded
      exact spelled first member second member' different ((guards first).mpr (.inl guarded))
    · intro rootScoped first member second member' named different
      exact spelled first member second member' different
        ((guards first).mpr (.inr ⟨rootScoped, named.symm⟩))
  · rintro ⟨spelled, apart⟩ first member second member' different guarded
    rcases (guards first).mp guarded with guarded | ⟨rootScoped, named⟩
    · exact spelled first member second member' different guarded
    · exact apart rootScoped first member second member' named.symm different

/-- An operation keeps guarded roots spelled once exactly when it spells apart. -/
theorem StoreOperation.exec_spelledOnce {operation : StoreOperation} {events : List JobEvent}
    (setsUp : operation.SetsUpRoots) (keyed : Keyed before) (sound : RepositoriesSound before)
    (succeeded : operation.exec before = .ok (after, events)) :
    SpelledOnce after ↔ SpelledOnce before ∧ operation.SpellsApart before := by
  obtain ⟨_, ran, rfl⟩ := StoreOperation.exec_eq_ok.mp succeeded
  cases operation <;> try exact setsUp.elim
  case createRepository record =>
    obtain ⟨accepted, rfl⟩ := createRepository_eq_ok.mp ran
    exact spelledOnce_withRepository keyed sound accepted.fresh
  case createPolicyDecision decision =>
    obtain ⟨_, _, fresh, rfl⟩ := createPolicyDecision_eq_ok.mp ran
    exact spelledOnce_withPolicyDecision fresh

end Steps

/-- Every operation of a run spells apart in the state it runs in. -/
abbrev SpellApart : InMemoryInner → List StoreOperation → Prop :=
  AlongRun fun inner operation => operation.SpellsApart inner

/-- The roots of guarded repositories are isolated after a run exactly when each of
its operations spells apart. -/
theorem blocked_roots_isolated_iff {operations : List StoreOperation}
    (setUp : ∀ operation ∈ operations, operation.SetsUpRoots)
    (ran : runOperations .empty operations = .ok inner) :
    Isolated inner ↔ SpellApart .empty operations := by
  have reachable : Reachable inner := Run.of_operations ran
  have start : SpelledOnce .empty := by
    intro first member
    simp [InMemoryInner.empty, Table.records] at member
  rw [isolated_iff reachable.sound.repositories reachable.keyed,
    runOperations_iff (fun operation member {_ _ _} reachable => operation.exec_spelledOnce
      (setUp operation member) reachable.keyed reachable.sound.repositories) .refl ran]
  exact and_iff_right start

section Spelling

def blockedRoot : RepositoryRecord :=
  .new (.ofNat 0) "ledger" "/srv/ledger" .blocked ⟨0⟩

def slashedRoot : RepositoryRecord :=
  .new (.ofNat 1) "ledger" "/srv/ledger/" .trusted ⟨0⟩

def siblingRoot : RepositoryRecord :=
  .new (.ofNat 1) "sibling" "/srv/sibling" .trusted ⟨0⟩

private def holdsBoth (other : RepositoryRecord) (inner : InMemoryInner) : Bool :=
  inner.repositories[blockedRoot.id]? = some blockedRoot &&
    inner.repositories[other.id]? = some other

private theorem holdsBoth_reached :
    (reaches [.createRepository blockedRoot, .createRepository slashedRoot]
        (holdsBoth slashedRoot) &&
      reaches [.createRepository blockedRoot, .createRepository siblingRoot]
        (holdsBoth siblingRoot)) = true := by
  decide +kernel

/-- A blocked root is stored a second time when a slash is written at its end. -/
theorem slashed_root_not_isolated :
    ∃ inner, runOperations .empty
        [.createRepository blockedRoot, .createRepository slashedRoot] = .ok inner ∧
      ¬Isolated inner := by
  obtain ⟨inner, ran, holds⟩ := ran_of_reaches (Bool.and_eq_true _ _ ▸ holdsBoth_reached).1
  simp only [holdsBoth, Bool.and_eq_true, decide_eq_true_eq] at holds
  refine ⟨inner, ran, ?_⟩
  intro isolated
  have apart := isolated blockedRoot (Table.mem_records.mpr ⟨_, holds.1⟩) slashedRoot
    (Table.mem_records.mpr ⟨_, holds.2⟩) (by decide) (.inl rfl)
  revert apart
  decide

/-- A root beside a blocked one is spelled apart from it. -/
theorem sibling_root_isolated :
    ∃ inner, runOperations .empty
        [.createRepository blockedRoot, .createRepository siblingRoot] = .ok inner ∧
      Isolated inner := by
  obtain ⟨inner, ran, _⟩ := ran_of_reaches (Bool.and_eq_true _ _ ▸ holdsBoth_reached).2
  have setUp : ∀ operation ∈ [StoreOperation.createRepository blockedRoot,
      .createRepository siblingRoot], operation.SetsUpRoots := by
    simp [StoreOperation.SetsUpRoots]
  refine ⟨inner, ran, (blocked_roots_isolated_iff setUp ran).mpr ⟨?_, ?_⟩⟩
  · intro existing member
    simp [InMemoryInner.empty, Table.records] at member
  · intro next events succeeded
    refine ⟨?_, fun _ _ _ => trivial⟩
    obtain ⟨_, created, rfl⟩ := StoreOperation.exec_eq_ok.mp succeeded
    obtain ⟨accepted, rfl⟩ := createRepository_eq_ok.mp created
    intro existing member same
    rcases (Table.mem_records_insert accepted.fresh).mp member with rfl | old
    · exact absurd same (by decide)
    · simp [InMemoryInner.empty, Table.records] at old

end Spelling

end Atelia.Store
