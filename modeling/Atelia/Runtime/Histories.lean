import Atelia.Runtime.Commands

/-! Histories. -/

namespace Atelia.Runtime

open Store

section Replays

/-- The operations among the effects lead the ledger from one state to another. -/
def Replays (before : InMemoryInner) : List Effect → InMemoryInner → Prop
  | [], after => after = before
  | .committed operation :: rest, after => ∃ response middle,
    operation.mutation before = .ok (response, middle) ∧ Replays middle rest after
  | _ :: rest, after => Replays before rest after

variable {before middle after : InMemoryInner} {effects later : List Effect}

theorem Replays.append (first : Replays before effects middle)
    (second : Replays middle later after) : Replays before (effects ++ later) after := by
  induction effects generalizing before with
  | nil =>
    obtain rfl : middle = before := first
    exact second
  | cons effect rest ih =>
    cases effect with
    | committed operation =>
      obtain ⟨response, next, answered, first⟩ := first
      exact ⟨response, next, answered, ih first⟩
    | executed invocation request result => exact ih first
    | artifactWritten outputRef => exact ih first
    | artifactFailed error => exact ih first

theorem Replays.split (replays : Replays before (effects ++ later) after) :
    ∃ middle, Replays before effects middle ∧ Replays middle later after := by
  induction effects generalizing before with
  | nil => exact ⟨before, rfl, replays⟩
  | cons effect rest ih =>
    cases effect with
    | committed operation =>
      obtain ⟨response, next, answered, replays⟩ := replays
      obtain ⟨middle, first, second⟩ := ih replays
      exact ⟨middle, ⟨response, next, answered, first⟩, second⟩
    | executed invocation request result => exact ih replays
    | artifactWritten outputRef => exact ih replays
    | artifactFailed error => exact ih replays

theorem Replays.run (replays : Replays before effects after) : Run before after := by
  induction effects generalizing before with
  | nil =>
    obtain rfl : after = before := replays
    exact .refl
  | cons effect rest ih =>
    cases effect with
    | committed operation =>
      obtain ⟨response, next, answered, replays⟩ := replays
      exact .head (StoreOperation.step_of_mutation answered) (ih replays)
    | executed invocation request result => exact ih replays
    | artifactWritten outputRef => exact ih replays
    | artifactFailed error => exact ih replays

end Replays

section Evolution

variable {Call : Type} {call : Call} {before middle after : World Call}

/-- Entries are added to the history, and the ledger moves by their operations. -/
def World.Adds (before : World Call) (entries : List (Call × Effect)) (after : World Call) : Prop :=
  after.history = before.history ++ entries ∧
    Replays before.ledger (entries.map Prod.snd) after.ledger

theorem World.Adds.nil (before : World Call) : before.Adds [] before :=
  ⟨(List.append_nil _).symm, rfl⟩

theorem World.Adds.append {entries later : List (Call × Effect)} (first : before.Adds entries middle)
    (second : middle.Adds later after) : before.Adds (entries ++ later) after := by
  refine ⟨?_, ?_⟩
  · rw [second.1, first.1, List.append_assoc]
  · rw [List.map_append]
    exact first.2.append second.2

theorem World.Adds.own [DecidableEq Call] {entries : List (Call × Effect)}
    (adds : before.Adds entries after) (call : Call) :
    after.own call = before.own call ++
      entries.filterMap fun entry => if entry.1 = call then some entry.2 else none := by
  simp only [World.own, adds.1, List.filterMap_append]

/-- What a call does to the world: its effects are its own, identifiers that were
drawn stay drawn, and only the call itself is told something. -/
def World.Moves (call : Call) (before after : World Call) : Prop :=
  (∃ effects : List Effect, before.Adds (effects.map (call, ·)) after) ∧
    before.issued <:+ after.issued ∧
    ∃ told : List Reading, after.readings = before.readings ++ told.map (call, ·)

/-- What the other calls do to the world. -/
def World.Others (call : Call) (before after : World Call) : Prop :=
  (∃ entries, before.Adds entries after ∧ ∀ entry ∈ entries, entry.1 ≠ call) ∧
    before.issued <:+ after.issued ∧
    ∃ told, after.readings = before.readings ++ told ∧ ∀ entry ∈ told, entry.1 ≠ call

instance World.others_refl : Std.Refl (World.Others call) where
  refl world := ⟨⟨[], .nil world, by simp⟩, List.suffix_refl _, [], by simp⟩

instance World.others_trans : IsTrans (World Call) (World.Others call) where
  trans _ _ _ first second := by
    obtain ⟨⟨entries, adds, foreign⟩, issued, told, informed, apart⟩ := first
    obtain ⟨⟨later, adds', foreign'⟩, issued', told', informed', apart'⟩ := second
    refine ⟨⟨entries ++ later, adds.append adds', List.forall_mem_append.mpr ⟨foreign, foreign'⟩⟩,
      issued.trans issued', told ++ told', ?_, List.forall_mem_append.mpr ⟨apart, apart'⟩⟩
    rw [informed', informed, List.append_assoc]

theorem World.Moves.others {other : Call} (moves : World.Moves call before after)
    (different : call ≠ other) : World.Others other before after := by
  obtain ⟨⟨effects, adds⟩, issued, told, informed⟩ := moves
  have foreign {α : Type} (items : List α) : ∀ entry ∈ items.map (call, ·), entry.1 ≠ other := by
    intro entry member
    obtain ⟨_, _, rfl⟩ := List.mem_map.mp member
    exact different
  exact ⟨⟨_, adds, foreign effects⟩, issued, _, informed, foreign told⟩

theorem World.Others.run (others : World.Others call before after) :
    Run before.ledger after.ledger := by
  obtain ⟨⟨entries, adds, _⟩, _⟩ := others
  exact adds.2.run

theorem World.Others.own [DecidableEq Call] (others : World.Others call before after) :
    after.own call = before.own call := by
  obtain ⟨⟨entries, adds, foreign⟩, _⟩ := others
  rw [adds.own call, List.append_right_eq_self]
  exact List.filterMap_eq_nil_iff.mpr fun entry member => if_neg (foreign entry member)

theorem World.Others.told [DecidableEq Call] (others : World.Others call before after) :
    after.told call = before.told call := by
  obtain ⟨_, _, told, informed, foreign⟩ := others
  rw [World.told, informed, List.filterMap_append, ← World.told, List.append_right_eq_self]
  exact List.filterMap_eq_nil_iff.mpr fun entry member => if_neg (foreign entry member)

private theorem World.adds_perform (world : World Call) (call : Call) {effects : List Effect}
    (silent : Replays world.ledger effects world.ledger) :
    world.Adds (effects.map (call, ·)) (world.perform call effects) := by
  refine ⟨rfl, ?_⟩
  simpa [World.perform, Function.comp_def] using silent

private theorem World.moves_perform (world : World Call) (call : Call) {effects : List Effect}
    (silent : Replays world.ledger effects world.ledger) :
    World.Moves call world (world.perform call effects) :=
  ⟨⟨effects, world.adds_perform call silent⟩, List.suffix_refl _, [], (List.append_nil _).symm⟩

private theorem World.moves_quiet {before after : World Call} (same : after.history = before.history)
    (kept : after.ledger = before.ledger) (issued : before.issued <:+ after.issued)
    (told : after.readings = before.readings) : World.Moves call before after :=
  ⟨⟨[], same.trans (List.append_nil _).symm, kept⟩, issued, [], told.trans (List.append_nil _).symm⟩

private theorem World.moves_inform (world : World Call) (call : Call) (told : List Reading) :
    World.Moves call world (world.inform call told) :=
  ⟨⟨[], (List.append_nil _).symm, rfl⟩, List.suffix_refl _, told, rfl⟩

theorem Serves.moves {command : RuntimeCommand} {answer : command.Answer}
    (served : Serves call before command answer after) : World.Moves call before after := by
  cases command with
  | store operation =>
    cases answer with
    | ok response =>
      obtain ⟨ledger, answered, rfl⟩ := served
      exact ⟨⟨[.committed operation], rfl, response, ledger, answered, rfl⟩, List.suffix_refl _, [],
        (List.append_nil _).symm⟩
    | error error =>
      obtain ⟨rfl, _⟩ := served
      exact World.moves_quiet rfl rfl (List.suffix_refl _) rfl
  | now =>
    obtain rfl : after = _ := served
    exact World.moves_inform _ _ _
  | newUuid =>
    obtain rfl : after = _ := served
    exact World.moves_quiet rfl rfl (List.suffix_cons _ _) rfl
  | getRepository id =>
    obtain ⟨_, rfl⟩ := served
    exact World.moves_quiet rfl rfl (List.suffix_refl _) rfl
  | getJob id =>
    obtain ⟨_, rfl⟩ := served
    exact World.moves_inform _ _ _
  | execute invocation request =>
    obtain rfl : after = _ := served
    exact World.moves_perform _ _ rfl
  | writeArtifactBytes config scope label mediaType bytes =>
    obtain rfl : after = _ := served
    cases answer with
    | ok outputRef => exact World.moves_perform _ _ rfl
    | error error => exact World.moves_perform _ _ rfl
  | updateSpillMetadata config scope outputRef originalBytes retainedBytes =>
    obtain rfl : after = _ := served
    cases answer with
    | ok _ => exact World.moves_perform _ _ rfl
    | error error => exact World.moves_perform _ _ rfl
  | defaultLocal =>
    obtain rfl : after = _ := served
    exact World.moves_quiet rfl rfl (List.suffix_refl _) rfl
  | deleteArtifactBytes config outputRef =>
    obtain rfl : after = _ := served
    exact World.moves_quiet rfl rfl (List.suffix_refl _) rfl
  | deleteArtifactRecord config scope outputRef =>
    obtain rfl : after = _ := served
    exact World.moves_quiet rfl rfl (List.suffix_refl _) rfl

@[simp] theorem World.own_perform [DecidableEq Call] (world : World Call) (call : Call)
    (effects : List Effect) : (world.perform call effects).own call = world.own call ++ effects := by
  simp [World.own, World.perform, List.filterMap_append, List.filterMap_map]

@[simp] theorem World.told_inform [DecidableEq Call] (world : World Call) (call : Call)
    (told : List Reading) : (world.inform call told).told call = world.told call ++ told := by
  simp [World.told, World.inform, List.filterMap_append, List.filterMap_map]

@[simp] theorem World.own_commit [DecidableEq Call] (world : World Call) (call : Call)
    (operation : StoreOperation) (ledger : InMemoryInner) :
    (world.commit call operation ledger).own call = world.own call ++ [.committed operation] :=
  world.own_perform call _

end Evolution

end Atelia.Runtime
