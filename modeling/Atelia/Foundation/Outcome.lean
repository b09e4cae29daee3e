import Mathlib.Data.List.Forall2

/-! Checks that stop at the first failure. -/

namespace Atelia.Outcome

variable {ε α β κ : Type}

/-- Fail with `error` unless the condition holds. -/
def ensure (condition : Prop) [Decidable condition] (error : ε) : Except ε Unit :=
  if condition then .ok () else .error error

/-- Fail with `error` when the condition holds. -/
def reject (condition : Prop) [Decidable condition] (error : ε) : Except ε Unit :=
  if condition then .error error else .ok ()

/-- Take the value of a lookup, or fail with `error`. -/
def okOr (value : Option α) (error : ε) : Except ε α :=
  match value with
  | some found => .ok found
  | none => .error error

/-- Run a check on the value of an option, if there is one. -/
def whenSome (value : Option α) (check : α → Except ε Unit) : Except ε Unit :=
  match value with
  | some found => check found
  | none => .ok ()

/-- Run a check on every element, in order. -/
def checkAll (check : α → Except ε Unit) : List α → Except ε Unit
  | [] => .ok ()
  | item :: rest => do
    check item
    checkAll check rest

/-- Run a check on every element, in order, and fail with `duplicate` on the
first element whose key has been seen before. -/
def checkDistinct [DecidableEq κ] (check : α → Except ε Unit) (key : α → κ)
    (duplicate : α → ε) : List α → List κ → Except ε Unit
  | [], _ => .ok ()
  | item :: rest, seen => do
    check item
    reject (key item ∈ seen) (duplicate item)
    checkDistinct check key duplicate rest (key item :: seen)

/-- Run two checks on every element, in order. Between them the element whose key
has been seen before is refused. -/
def checkUnseen [DecidableEq κ] (early late : α → Except ε Unit) (key : α → κ)
    (duplicate : α → ε) : List α → List κ → Except ε Unit
  | [], _ => .ok ()
  | item :: rest, seen => do
    early item
    reject (key item ∈ seen) (duplicate item)
    late item
    checkUnseen early late key duplicate rest (key item :: seen)

/-- The first question answered with `true` decides; a failing question stops. -/
def anyTrue : List (Except ε Bool) → Except ε Bool
  | [] => .ok false
  | question :: rest => do
    let answer ← question
    if answer then .ok true else anyTrue rest

variable {first : Except ε α}

@[simp] theorem bind_eq_ok {next : α → Except ε β} {result : β} :
    (first >>= next) = .ok result ↔ ∃ value, first = .ok value ∧ next value = .ok result := by
  cases first with
  | error failure => simp [bind, Except.bind]
  | ok value => simp [bind, Except.bind]

/-- A step without a result contributes only its success. -/
@[simp] theorem exists_unit {property : Unit → Prop} :
    (∃ value, property value) ↔ property () := by
  constructor
  · rintro ⟨_, holds⟩
    exact holds
  · intro holds
    exact ⟨(), holds⟩

theorem isOk_iff {result : Except ε α} : result.isOk = true ↔ ∃ value, result = .ok value := by
  cases result <;> simp [Except.isOk, Except.toBool]

@[simp] theorem map_eq_ok {transform : α → β} {result : β} :
    (transform <$> first) = .ok result ↔ ∃ value, first = .ok value ∧ transform value = result := by
  cases first with
  | error failure => simp [Functor.map, Except.map]
  | ok value => simp [Functor.map, Except.map]

@[simp] theorem mapError_eq_ok {ε' : Type} {transform : ε → ε'} {result : α} :
    first.mapError transform = .ok result ↔ first = .ok result := by
  cases first <;> simp [Except.mapError]

@[simp] theorem pure_eq_ok {value result : α} :
    (pure value : Except ε α) = .ok result ↔ value = result := by
  simp [pure, Except.pure]

variable {result : Unit} {error : ε}

@[simp] theorem ensure_eq_ok {condition : Prop} [Decidable condition] :
    ensure condition error = .ok result ↔ condition := by
  unfold ensure
  split <;> simp_all

@[simp] theorem reject_eq_ok {condition : Prop} [Decidable condition] :
    reject condition error = .ok result ↔ ¬ condition := by
  unfold reject
  split <;> simp_all

variable {value : Option α}

@[simp] theorem okOr_eq_ok {result : α} : okOr value error = .ok result ↔ value = some result := by
  cases value <;> simp [okOr]

variable {check : α → Except ε Unit}

@[simp] theorem whenSome_eq_ok :
    whenSome value check = .ok result ↔ ∀ found, value = some found → check found = .ok () := by
  cases value <;> simp [whenSome]

variable {items : List α}

@[simp] theorem checkAll_eq_ok :
    checkAll check items = .ok result ↔ ∀ item ∈ items, check item = .ok () := by
  induction items with
  | nil => simp [checkAll]
  | cons item rest ih => simp [checkAll, ih]

section Within

/-- Whatever the first answers, the second answers too. -/
def Within (first second : Except ε α) : Prop :=
  ∀ result, first = .ok result → second = .ok result

theorem Within.refl (outcome : Except ε α) : Within outcome outcome := fun _ same => same

theorem Within.bind {second : Except ε α} {next later : α → Except ε β}
    (leads : Within first second) (each : ∀ value, Within (next value) (later value)) :
    Within (first >>= next) (second >>= later) := by
  intro result answered
  obtain ⟨value, found, onward⟩ := bind_eq_ok.mp answered
  exact bind_eq_ok.mpr ⟨value, leads value found, each value result onward⟩

theorem within_okOr {other : Option α} (found : ∀ result, value = some result → other = some result) :
    Within (okOr value error) (okOr other error) := by
  intro result answered
  exact okOr_eq_ok.mpr (found result (okOr_eq_ok.mp answered))

theorem within_whenSome {later : α → Except ε Unit}
    (each : ∀ found, Within (check found) (later found)) :
    Within (whenSome value check) (whenSome value later) := by
  cases value with
  | none => exact .refl _
  | some found => exact each found

end Within

/-- A loop that collects answers succeeds when every element has one. -/
theorem mapM_eq_ok {answer : α → Except ε κ}
    (answered : ∀ item ∈ items, ∃ value, answer item = .ok value) :
    ∃ values, items.mapM answer = .ok values ∧
      ∀ value ∈ values, ∃ item ∈ items, answer item = .ok value := by
  induction items with
  | nil => exact ⟨[], rfl, fun value member => absurd member List.not_mem_nil⟩
  | cons item rest ih =>
    obtain ⟨value, first⟩ := answered item List.mem_cons_self
    obtain ⟨values, others, each⟩ := ih fun other member =>
      answered other (List.mem_cons_of_mem item member)
    refine ⟨value :: values, ?_, ?_⟩
    · rw [List.mapM_cons, first, others]
      rfl
    · intro found member
      rcases List.mem_cons.mp member with rfl | later
      · exact ⟨item, List.mem_cons_self, first⟩
      · obtain ⟨other, among, told⟩ := each found later
        exact ⟨other, List.mem_cons_of_mem item among, told⟩

section Loops

variable {σ τ : Type} {step : σ → α → Except ε σ}

/-- A view of the state that every accepted step moves in its own way. -/
theorem foldlM_moves {view : σ → τ} {move : τ → α → τ}
    (each : ∀ before item after, step before item = .ok after →
      view after = move (view before) item) {state result : σ}
    (completed : items.foldlM step state = .ok result) :
    view result = items.foldl move (view state) := by
  induction items generalizing state with
  | nil => exact congrArg view (pure_eq_ok.mp completed).symm
  | cons item rest ih =>
    rw [List.foldlM_cons] at completed
    obtain ⟨next, stepped, onward⟩ := bind_eq_ok.mp completed
    rw [List.foldl_cons, ← each state item next stepped]
    exact ih onward

end Loops

/-- The loop accepts exactly when every element passes its checks and no key
occurs twice, neither among the elements nor among the keys seen before. -/
theorem checkUnseen_eq_ok [DecidableEq κ] {early late : α → Except ε Unit} {key : α → κ}
    {duplicate : α → ε} {seen : List κ} :
    checkUnseen early late key duplicate items seen = .ok result ↔
      (∀ item ∈ items, early item = .ok () ∧ late item = .ok ()) ∧ (items.map key).Nodup ∧
        ∀ item ∈ items, key item ∉ seen := by
  induction items generalizing seen with
  | nil => simp [checkUnseen]
  | cons item rest ih =>
    simp only [checkUnseen, bind_eq_ok, exists_unit, reject_eq_ok, ih, List.map_cons, List.nodup_cons,
      List.mem_cons, List.mem_map, forall_eq_or_imp, not_or]
    constructor
    · rintro ⟨first, unseen, second, restChecked, distinct, restUnseen⟩
      refine ⟨⟨⟨first, second⟩, restChecked⟩, ⟨?_, distinct⟩, unseen,
        fun other member => (restUnseen other member).2⟩
      rintro ⟨other, member, same⟩
      exact (restUnseen other member).1 same
    · rintro ⟨⟨⟨first, second⟩, restChecked⟩, ⟨fresh, distinct⟩, unseen, restUnseen⟩
      refine ⟨first, unseen, second, restChecked, distinct,
        fun other member => ⟨?_, restUnseen other member⟩⟩
      intro same
      exact fresh ⟨other, member, same⟩

private theorem checkDistinct_eq_checkUnseen [DecidableEq κ] (check : α → Except ε Unit)
    (key : α → κ) (duplicate : α → ε) (items : List α) (seen : List κ) :
    checkDistinct check key duplicate items seen =
      checkUnseen check (fun _ => .ok ()) key duplicate items seen := by
  induction items generalizing seen with
  | nil => rfl
  | cons item rest ih =>
    rw [checkDistinct, checkUnseen, ih]
    rfl

theorem checkDistinct_eq_ok [DecidableEq κ] {key : α → κ} {duplicate : α → ε} {seen : List κ} :
    checkDistinct check key duplicate items seen = .ok result ↔
      (∀ item ∈ items, check item = .ok ()) ∧ (items.map key).Nodup ∧
        ∀ item ∈ items, key item ∉ seen := by
  simp [checkDistinct_eq_checkUnseen, checkUnseen_eq_ok]

variable {questions : List (Except ε Bool)}

/-- Answers that stay the same leave the decision the same. -/
theorem anyTrue_mono {later : List (Except ε Bool)} (same : List.Forall₂ Within questions later)
    {answer : Bool} (decided : anyTrue questions = .ok answer) : anyTrue later = .ok answer := by
  induction same with
  | nil => exact decided
  | cons head _ ih =>
    rw [anyTrue, bind_eq_ok] at decided ⊢
    obtain ⟨first, asked, decided⟩ := decided
    refine ⟨first, head first asked, ?_⟩
    cases first with
    | true => exact decided
    | false => exact ih decided

/-- A positive answer comes from one of the questions. -/
theorem exists_of_anyTrue (decided : anyTrue questions = .ok true) :
    ∃ question ∈ questions, question = .ok true := by
  induction questions with
  | nil => simp [anyTrue] at decided
  | cons question rest ih =>
    rw [anyTrue, bind_eq_ok] at decided
    obtain ⟨first, asked, decided⟩ := decided
    cases first with
    | true => exact ⟨question, List.mem_cons_self, asked⟩
    | false =>
      obtain ⟨other, member, holds⟩ := ih decided
      exact ⟨other, List.mem_cons_of_mem _ member, holds⟩

/-- Questions that all have an answer decide. -/
theorem anyTrue_total (answered : ∀ question ∈ questions, ∃ answer, question = .ok answer) :
    ∃ answer, anyTrue questions = .ok answer := by
  induction questions with
  | nil => exact ⟨false, rfl⟩
  | cons question rest ih =>
    obtain ⟨first, asked⟩ := answered question List.mem_cons_self
    obtain ⟨answer, decided⟩ := ih fun other member => answered other (List.mem_cons_of_mem _ member)
    cases first with
    | true => exact ⟨true, by rw [anyTrue, asked]; rfl⟩
    | false => exact ⟨answer, by rw [anyTrue, asked]; exact decided⟩

end Atelia.Outcome
