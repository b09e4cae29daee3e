import Atelia.Foundation.Utf8

/-! Occurrences of a pattern in a list, and in the UTF-8 bytes of a text. -/

namespace Atelia.Occurrence

section Lists

variable {α : Type} {pattern content before : List α}

/-- The pattern stands in the content after `before`. -/
def Occurs (pattern content before : List α) : Prop :=
  ∃ after, before ++ pattern ++ after = content

theorem not_occurs_nil (some : pattern ≠ []) : ¬ Occurs pattern [] before := by
  simp [Occurs, some]

theorem occurs_cons {item : α} {rest : List α} :
    Occurs pattern (item :: rest) before ↔ (before = [] ∧ pattern <+: item :: rest) ∨
      ∃ earlier, before = item :: earlier ∧ Occurs pattern rest earlier := by
  cases before with
  | nil => simp [Occurs, List.IsPrefix]
  | cons first earlier => simp [Occurs, and_assoc]

variable [DecidableEq α]

/-- The positions at which a pattern occurs; occurrences may overlap. -/
def count (pattern : List α) : List α → Nat
  | [] => 0
  | item :: rest => (if pattern <+: item :: rest then 1 else 0) + count pattern rest

/-- The content with the first occurrence of a pattern replaced. -/
def replaceFirst (pattern replacement : List α) : List α → List α
  | [] => []
  | item :: rest =>
    if pattern <+: item :: rest then replacement ++ (item :: rest).drop pattern.length
    else item :: replaceFirst pattern replacement rest

theorem count_eq_zero (some : pattern ≠ []) :
    count pattern content = 0 ↔ ∀ before, ¬ Occurs pattern content before := by
  induction content with
  | nil => simp [count, not_occurs_nil some]
  | cons item rest ih =>
    simp only [count, Nat.add_eq_zero_iff, ite_eq_right_iff, one_ne_zero, ih, occurs_cons]
    constructor
    · rintro ⟨elsewhere, none⟩ _ (⟨rfl, here⟩ | ⟨earlier, rfl, occurs⟩)
      · exact elsewhere here
      · exact none earlier occurs
    · intro none
      exact ⟨fun here => none [] (.inl ⟨rfl, here⟩),
        fun earlier occurs => none _ (.inr ⟨earlier, rfl, occurs⟩)⟩

theorem count_of_short (short : content.length < pattern.length) : count pattern content = 0 := by
  rw [count_eq_zero (List.ne_nil_of_length_pos (Nat.zero_lt_of_lt short))]
  rintro before ⟨after, rfl⟩
  simp at short
  omega

theorem count_eq_one (some : pattern ≠ []) :
    count pattern content = 1 ↔ ∃! before, Occurs pattern content before := by
  induction content with
  | nil => simp [count, ExistsUnique, not_occurs_nil some]
  | cons item rest ih =>
    by_cases here : pattern <+: item :: rest
    · rw [count, if_pos here, Nat.add_eq_left, count_eq_zero some]
      constructor
      · intro none
        refine ⟨[], occurs_cons.mpr (.inl ⟨rfl, here⟩), fun other occurs => ?_⟩
        rcases occurs_cons.mp occurs with ⟨same, _⟩ | ⟨earlier, _, occurs⟩
        · exact same
        · exact absurd occurs (none earlier)
      · intro unique earlier occurs
        cases unique.unique (occurs_cons.mpr (.inl ⟨rfl, here⟩))
          (occurs_cons.mpr (.inr ⟨earlier, rfl, occurs⟩))
    · have later {before : List α} : Occurs pattern (item :: rest) before ↔
          ∃ earlier, before = item :: earlier ∧ Occurs pattern rest earlier := by
        simp [occurs_cons, here]
      rw [count, if_neg here, Nat.zero_add, ih]
      constructor
      · rintro ⟨earlier, occurs, unique⟩
        refine ⟨item :: earlier, later.mpr ⟨earlier, rfl, occurs⟩, fun other found => ?_⟩
        obtain ⟨other, rfl, inside⟩ := later.mp found
        rw [unique other inside]
      · rintro ⟨whole, occurs, unique⟩
        obtain ⟨earlier, rfl, inside⟩ := later.mp occurs
        exact ⟨earlier, inside, fun other found =>
          (List.cons.inj (unique _ (later.mpr ⟨other, rfl, found⟩))).2⟩

/-- The first occurrence is replaced where it is the only one. -/
theorem replaceFirst_eq {after replacement : List α} (some : pattern ≠ [])
    (unique : ∀ other, Occurs pattern (before ++ pattern ++ after) other → other = before) :
    replaceFirst pattern replacement (before ++ pattern ++ after) =
      before ++ replacement ++ after := by
  induction before with
  | nil =>
    obtain ⟨item, rest, rfl⟩ := List.exists_cons_of_ne_nil some
    simp [replaceFirst]
  | cons item earlier ih =>
    have later : ¬ pattern <+: item :: (earlier ++ pattern ++ after) := by
      intro here
      cases unique [] (occurs_cons.mpr (.inl ⟨rfl, here⟩))
    rw [List.cons_append, List.cons_append, replaceFirst, if_neg later, ih]
    · rfl
    · intro other occurs
      exact (List.cons.inj (unique _ (occurs_cons.mpr (.inr ⟨other, rfl, occurs⟩)))).2

/-- Nothing occurs where the pattern cannot begin. -/
theorem count_append {first : α} {lead rest : List α} (absent : first ∉ lead) :
    count (first :: pattern) (lead ++ rest) = count (first :: pattern) rest := by
  induction lead with
  | nil => rfl
  | cons item lead ih =>
    obtain ⟨different, later⟩ := not_or.mp (mt List.mem_cons.mpr absent)
    simp [count, different, ih later]

end Lists

section Encoded

open Utf8

variable {pattern content : List Char}

theorem encode_isPrefix : encode pattern <+: encode content ↔ pattern <+: content := by
  constructor
  · rintro ⟨rest, same⟩
    obtain ⟨left, _, decoded⟩ := decodeWith_encode pattern rest (Nat.le_refl _)
    have whole := decode_encode content
    rw [← same, decode, decoded] at whole
    exact ⟨_, congrArg Decoding.text whole⟩
  · rintro ⟨rest, rfl⟩
    exact ⟨encode rest, (encode_append pattern rest).symm⟩

/-- Only the first byte of a character can begin another one. -/
theorem encodeChar_first {character : Char} :
    ∃ first tails, String.utf8EncodeChar character = first :: tails ∧
      first.IsUTF8FirstByte ∧ ∀ byte ∈ tails, ¬ byte.IsUTF8FirstByte := by
  have bytes := @UInt8.isUTF8FirstByte_getElem_utf8EncodeChar character
  obtain ⟨first, tails, encoded, _⟩ := decodeFirst_encode character []
  simp only [encoded] at bytes
  refine ⟨first, tails, encoded, (@bytes 0 (by simp)).mpr rfl, fun byte member begins => ?_⟩
  obtain ⟨index, less, rfl⟩ := List.getElem_of_mem member
  cases (@bytes (index + 1) (by simpa using less)).mp begins

/-- The bytes of a pattern occur in those of a text where the pattern does. -/
theorem count_encode (some : pattern ≠ []) :
    count (encode pattern) (encode content) = count pattern content := by
  obtain ⟨character, pattern, rfl⟩ := List.exists_cons_of_ne_nil some
  obtain ⟨first, tails, encoded, begins, _⟩ := @encodeChar_first character
  induction content with
  | nil => rfl
  | cons item rest ih =>
    obtain ⟨byte, others, spelled, _, inside⟩ := @encodeChar_first item
    have absent : first ∉ others := fun member => inside first member begins
    have here := @encode_isPrefix (character :: pattern) (item :: rest)
    rw [encode_cons item, spelled, List.cons_append] at here ⊢
    rw [count, count, ← ih]
    simp only [here]
    rw [encode_cons character, encoded, List.cons_append, count_append absent]

end Encoded

end Atelia.Occurrence
