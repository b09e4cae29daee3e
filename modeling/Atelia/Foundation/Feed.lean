import Mathlib.Data.List.Basic

/-! Message streams. -/

namespace Atelia.Feed

variable {α : Type}

section Broadcast

/-- What a receiver gets from a channel. -/
inductive Received (α : Type) where
  | value (message : α)
  | lagged (skipped : Nat)
  | empty

/-- How a broadcast channel answers a receiver. The history holds every message ever
sent, and the receiver has passed the first `position` of them. Messages come in the
order in which they were sent, and a receiver that has fallen behind is told so before
any is skipped. -/
structure Broadcast (α : Type) where
  recv (history : List α) (position : Nat) : Received α
  next {history : List α} {position : Nat} {message : α}
    (received : recv history position = .value message) : history[position]? = some message
  passed {history : List α} {position : Nat} (waiting : recv history position = .empty) :
    history.length ≤ position
  behind {history : List α} {position skipped : Nat}
    (lagged : recv history position = .lagged skipped) : 0 < skipped ∧ position < history.length

namespace Broadcast

variable {broadcast : Broadcast α} {position : Nat} {history : List α} {message : α}

/-- A received message extends what the receiver has passed. -/
theorem take_of_recv (received : broadcast.recv history position = .value message) :
    history.take (position + 1) = history.take position ++ [message] := by
  rw [List.take_add_one, broadcast.next received]
  rfl

theorem lt_of_recv (received : broadcast.recv history position = .value message) :
    position < history.length := by
  obtain ⟨inside, _⟩ := List.getElem?_eq_some_iff.mp (broadcast.next received)
  exact inside

/-- The channel that retains its last messages. -/
def retaining (capacity : Nat) : Broadcast α where
  recv history position :=
    if position + capacity < history.length then
      .lagged (history.length - capacity - position)
    else
      history[position]?.elim .empty .value
  next {history position _} received := by
    split at received
    · cases received
    · cases found : history[position]? with
      | none =>
        rw [found] at received
        cases received
      | some message =>
        rw [found] at received
        cases received
        rfl
  passed {history position} waiting := by
    split at waiting
    · cases waiting
    · cases found : history[position]? with
      | none => exact List.getElem?_eq_none_iff.mp found
      | some message =>
        rw [found] at waiting
        cases waiting
  behind {history position _} lagged := by
    split at lagged
    · cases lagged
      omega
    · cases found : history[position]? <;> rw [found] at lagged <;> cases lagged

end Broadcast

end Broadcast

section Window

variable {number : α → Nat} {messages : List α}

/-- A selection is the part up to a number followed by the part after it. -/
theorem filter_split (ordered : messages.Pairwise fun first second => number first < number second)
    (select : α → Bool) (cutoff : Nat) :
    messages.filter select =
      messages.filter (fun message => select message && decide (number message ≤ cutoff)) ++
        messages.filter (fun message => select message && decide (cutoff < number message)) := by
  induction messages with
  | nil => rfl
  | cons head rest ih =>
    obtain ⟨above, ordered⟩ := List.pairwise_cons.mp ordered
    by_cases early : number head ≤ cutoff
    · have here : ¬cutoff < number head := by omega
      rw [List.filter_cons, List.filter_cons, List.filter_cons, ih ordered]
      cases chosen : select head <;> simp [early, here]
    · have late : cutoff < number head := by omega
      have none_early : rest.filter
          (fun message => select message && decide (number message ≤ cutoff)) = [] := by
        rw [List.filter_eq_nil_iff]
        intro message member chosen
        have larger := above message member
        simp only [Bool.and_eq_true, decide_eq_true_eq] at chosen
        omega
      rw [List.filter_cons, List.filter_cons, List.filter_cons, ih ordered, none_early]
      cases chosen : select head <;> simp [early, late]

/-- A selection that skips the first messages can be made without them. -/
theorem filter_drop {select : α → Bool} {count : Nat}
    (skipped : ∀ message ∈ messages.take count, select message = false) :
    (messages.drop count).filter select = messages.filter select := by
  have nothing : (messages.take count).filter select = [] := by
    rw [List.filter_eq_nil_iff]
    intro message member
    simp [skipped message member]
  calc (messages.drop count).filter select
      = (messages.take count).filter select ++ (messages.drop count).filter select := by
        rw [nothing, List.nil_append]
    _ = messages.filter select := by rw [← List.filter_append, List.take_append_drop]

/-- The first messages are those up to the number of the last of them. -/
theorem filter_le_last {count : Nat} {last : α}
    (ordered : messages.Pairwise fun first second => number first < number second)
    (ends : (messages.take count).getLast? = some last) :
    messages.filter (fun message => decide (number message ≤ number last)) =
      messages.take count := by
  obtain ⟨front, split⟩ := List.getLast?_eq_some_iff.mp ends
  have whole : messages = messages.take count ++ messages.drop count :=
    (List.take_append_drop count messages).symm
  have across : ∀ message ∈ messages.drop count, number last < number message := by
    rw [whole, List.pairwise_append] at ordered
    exact fun message member => ordered.2.2 last (split ▸ List.mem_append_right _ (by simp)) message member
  have within : ∀ message ∈ messages.take count, number message ≤ number last := by
    have part : (front ++ [last]).Pairwise fun first second => number first < number second :=
      split ▸ ordered.sublist (List.take_sublist count messages)
    intro message member
    rw [split, List.mem_append, List.mem_singleton] at member
    rcases member with early | rfl
    · exact Nat.le_of_lt ((List.pairwise_append.mp part).2.2 message early last (by simp))
    · exact Nat.le_refl _
  have kept : (messages.take count).filter (fun message => decide (number message ≤ number last)) =
      messages.take count :=
    List.filter_eq_self.mpr fun message member => decide_eq_true (within message member)
  have dropped : (messages.drop count).filter
      (fun message => decide (number message ≤ number last)) = [] := by
    rw [List.filter_eq_nil_iff]
    intro message member chosen
    have := across message member
    simp only [decide_eq_true_eq] at chosen
    omega
  conv_lhs => rw [whole, List.filter_append, kept, dropped, List.append_nil]

/-- The messages with a number in a window. -/
def window (number : α → Nat) (low high : Nat) (messages : List α) : List α :=
  messages.filter fun message => decide (low < number message) && decide (number message ≤ high)

theorem window_concat (low high : Nat) (first second : List α) :
    window number low high (first ++ second) =
      window number low high first ++ window number low high second := by
  unfold window
  rw [List.filter_append]

theorem mem_window {low high : Nat} {message : α} :
    message ∈ window number low high messages ↔
      message ∈ messages ∧ low < number message ∧ number message ≤ high := by
  simp [window]

/-- Neighbouring windows make one window. -/
theorem window_append (ordered : messages.Pairwise fun first second => number first < number second)
    {low middle high : Nat} (lower : low ≤ middle) (upper : middle ≤ high) :
    window number low high messages =
      window number low middle messages ++ window number middle high messages := by
  unfold window
  rw [filter_split ordered _ middle]
  congr 1
  · apply List.filter_congr
    intro message _
    rw [Bool.eq_iff_iff]
    simp only [Bool.and_eq_true, decide_eq_true_eq]
    omega
  · apply List.filter_congr
    intro message _
    rw [Bool.eq_iff_iff]
    simp only [Bool.and_eq_true, decide_eq_true_eq]
    omega

/-- The first messages of a window are the window up to the last of them. -/
theorem window_take (ordered : messages.Pairwise fun first second => number first < number second)
    {low high count : Nat} {last : α}
    (ends : ((window number low high messages).take count).getLast? = some last) :
    (window number low high messages).take count = window number low (number last) messages := by
  have inside := List.mem_of_mem_take (List.mem_of_getLast? ends)
  rw [mem_window] at inside
  have orderedWindow : (window number low high messages).Pairwise
      fun first second => number first < number second :=
    ordered.sublist List.filter_sublist
  rw [← filter_le_last orderedWindow ends, window, List.filter_filter]
  apply List.filter_congr
  intro message _
  rw [Bool.eq_iff_iff]
  simp only [Bool.and_eq_true, decide_eq_true_eq]
  omega

end Window

section Dropping

variable {β : Type} {pass : α → Bool} {shown : α → β}

/-- What a filter lets through of a stream is a piece from its start exactly when
nothing passes after something that was dropped. -/
theorem filter_prefix_iff {messages more : List α}
    (distinct : ∀ first ∈ messages, ∀ second ∈ messages, shown first = shown second →
      first = second) :
    (messages.filter pass).map shown <+: (messages ++ more).map shown ↔
      messages.Pairwise fun first second => pass second = true → pass first = true := by
  induction messages with
  | nil => simp
  | cons message rest ih =>
    have later := ih fun first member second member' =>
      distinct first (List.mem_cons_of_mem _ member) second (List.mem_cons_of_mem _ member')
    rw [List.pairwise_cons]
    cases passes : pass message with
    | true =>
      rw [List.filter_cons_of_pos passes, List.cons_append, List.map_cons, List.map_cons,
        List.cons_prefix_cons, later]
      simp
    | false =>
      rw [List.filter_cons_of_neg (by simp [passes])]
      constructor
      · intro part
        -- the first message that passes would have to be the one that was dropped
        have nothing : rest.filter pass = [] := by
          cases kept : rest.filter pass with
          | nil => rfl
          | cons other others =>
            have member : other ∈ rest.filter pass := kept ▸ List.mem_cons_self
            rw [List.mem_filter] at member
            rw [kept, List.cons_append, List.map_cons, List.map_cons, List.cons_prefix_cons] at part
            have same := distinct other (List.mem_cons_of_mem _ member.1) message
              List.mem_cons_self part.1
            rw [← same, member.2] at passes
            cases passes
        have dropped := List.filter_eq_nil_iff.mp nothing
        refine ⟨fun other member passed => absurd passed (dropped other member), later.mp ?_⟩
        simp [nothing]
      · rintro ⟨first, _⟩
        have nothing : rest.filter pass = [] := by
          rw [List.filter_eq_nil_iff]
          intro other member passed
          exact Bool.false_ne_true (first other member passed)
        simp [nothing]

end Dropping

end Atelia.Feed
