import Atelia.Foundation.Text
import Mathlib.Algebra.BigOperators.Group.List.Basic

/-! Leads of texts. -/

namespace Atelia.Excerpt

open Text

section Characters

variable {characters lead : List Char} {room : Nat}

/-- The bytes of the UTF-8 encoding. -/
def bytes (characters : List Char) : Nat :=
  (characters.map Char.utf8Size).sum

@[simp]
theorem bytes_nil : bytes [] = 0 := rfl

@[simp]
theorem bytes_cons (character : Char) (characters : List Char) :
    bytes (character :: characters) = character.utf8Size + bytes characters := rfl

@[simp]
theorem bytes_append (first second : List Char) :
    bytes (first ++ second) = bytes first + bytes second := by
  rw [bytes, List.map_append, List.sum_append, bytes, bytes]

theorem bytes_eq_zero : bytes characters = 0 ↔ characters = [] := by
  cases characters with
  | nil => simp
  | cons first rest =>
    have := first.utf8Size_pos
    simp
    omega

theorem bytes_le_of_isPrefix (begins : lead <+: characters) : bytes lead ≤ bytes characters := by
  obtain ⟨rest, rfl⟩ := begins
  rw [bytes_append]
  exact Nat.le_add_right _ _

theorem takeBytes_isPrefix (room : Nat) (characters : List Char) :
    takeBytes room characters <+: characters := by
  induction characters generalizing room with
  | nil => exact List.prefix_rfl
  | cons first rest ih =>
    rw [takeBytes]
    split
    · exact List.prefix_cons_inj first |>.mpr (ih _)
    · exact List.nil_prefix

theorem bytes_takeBytes_le (room : Nat) (characters : List Char) :
    bytes (takeBytes room characters) ≤ room := by
  induction characters generalizing room with
  | nil => exact Nat.zero_le _
  | cons first rest ih =>
    rw [takeBytes]
    split
    · have := ih (room - first.utf8Size)
      rw [bytes_cons]
      omega
    · exact Nat.zero_le _

/-- No lead that fits is longer. -/
theorem prefix_takeBytes (begins : lead <+: characters) (fits : bytes lead ≤ room) :
    lead <+: takeBytes room characters := by
  induction lead generalizing characters room with
  | nil => exact List.nil_prefix
  | cons first rest ih =>
    obtain ⟨remaining, rfl⟩ := begins
    rw [bytes_cons] at fits
    rw [List.cons_append, takeBytes, if_pos (by omega)]
    exact List.prefix_cons_inj first |>.mpr (ih (List.prefix_append _ _) (by omega))

theorem takeBytes_of_le (fits : bytes characters ≤ room) : takeBytes room characters = characters :=
  (takeBytes_isPrefix room characters).eq_of_length_le (prefix_takeBytes List.prefix_rfl fits).length_le

theorem takeBytes_append {first second : List Char} (fits : bytes first ≤ room) :
    takeBytes room (first ++ second) = first ++ takeBytes (room - bytes first) second := by
  induction first generalizing room with
  | nil => simp
  | cons character first ih =>
    rw [bytes_cons] at fits
    rw [List.cons_append, takeBytes, if_pos (by omega), ih (by omega), List.cons_append, bytes_cons,
      Nat.sub_sub]

/-- The longest lead at a character boundary within a number of bytes. -/
structure Longest (room : Nat) (text lead : String) : Prop where
  begins : lead.toList <+: text.toList
  fits : byteLength lead ≤ room
  longest : ∀ other : String, other.toList <+: text.toList → byteLength other ≤ room →
    other.toList <+: lead.toList

theorem longest_takeBytes (room : Nat) (text : String) :
    Longest room text (String.ofList (takeBytes room text.toList)) where
  begins := by
    rw [String.toList_ofList]
    exact takeBytes_isPrefix room text.toList
  fits := by
    rw [byteLength, String.toList_ofList]
    exact bytes_takeBytes_le room text.toList
  longest other begins fits := by
    rw [String.toList_ofList]
    exact prefix_takeBytes begins fits

theorem longest_self {text : String} (fits : byteLength text ≤ room) : Longest room text text where
  begins := List.prefix_rfl
  fits := fits
  longest _ begins _ := begins

/-- An offset in bytes that is the end of a lead of whole characters. -/
def isCharBoundary (offset : Nat) : List Char → Bool
  | [] => offset == 0
  | character :: rest =>
    offset == 0 || (character.utf8Size ≤ offset && isCharBoundary (offset - character.utf8Size) rest)

/-- Count down to a boundary. -/
def boundaryBelow (characters : List Char) : Nat → Nat
  | 0 => 0
  | offset + 1 =>
    if isCharBoundary (offset + 1) characters then offset + 1 else boundaryBelow characters offset

theorem isCharBoundary_iff (offset : Nat) (characters : List Char) :
    isCharBoundary offset characters = true ↔ bytes (takeBytes offset characters) = offset := by
  induction characters generalizing offset with
  | nil =>
    rw [isCharBoundary, beq_iff_eq]
    exact eq_comm
  | cons first rest ih =>
    have := first.utf8Size_pos
    rw [isCharBoundary, takeBytes]
    split
    · rename_i fits
      simp only [fits, decide_true, Bool.true_and, Bool.or_eq_true, beq_iff_eq, ih, bytes_cons]
      omega
    · rename_i long
      simp only [long, decide_false, Bool.false_and, Bool.or_false, beq_iff_eq, bytes_nil]
      omega

/-- Cutting at the boundary below an offset keeps the characters that fit. -/
theorem boundaryBelow_eq (characters : List Char) (offset : Nat) :
    boundaryBelow characters offset = bytes (takeBytes offset characters) := by
  induction offset with
  | zero => exact (Nat.le_zero.mp (bytes_takeBytes_le 0 characters)).symm
  | succ offset ih =>
    have short := bytes_takeBytes_le (offset + 1) characters
    rw [boundaryBelow]
    by_cases boundary : isCharBoundary (offset + 1) characters
    · rw [if_pos boundary, (isCharBoundary_iff _ _).mp boundary]
    · rw [isCharBoundary_iff] at boundary
      have lead : takeBytes (offset + 1) characters = takeBytes offset characters :=
        (prefix_takeBytes (takeBytes_isPrefix _ _) (by omega)).eq_of_length_le
          (prefix_takeBytes (takeBytes_isPrefix _ _)
            ((bytes_takeBytes_le _ _).trans (Nat.le_succ _))).length_le
      rw [if_neg (by rwa [isCharBoundary_iff]), ih, lead]

theorem takeBytes_boundaryBelow (characters : List Char) (offset : Nat) :
    takeBytes (boundaryBelow characters offset) characters = takeBytes offset characters := by
  have lead := takeBytes_isPrefix offset characters
  rw [boundaryBelow_eq]
  refine List.IsPrefix.eq_of_length_le (prefix_takeBytes (takeBytes_isPrefix _ _) ?_) ?_
  · exact (bytes_takeBytes_le _ _).trans (bytes_takeBytes_le _ _)
  · exact (prefix_takeBytes lead (Nat.le_refl _)).length_le

end Characters

section Lists

variable {values kept whole : List String} {value : String}

/-- The bytes of the values and of one separator between any two. -/
def joinedLength (values : List String) : Nat :=
  byteLength ("\n".intercalate values)

/-- The separator before another value. -/
def separator (kept : List String) : Nat :=
  if kept.isEmpty then 0 else 1

@[simp]
theorem joinedLength_nil : joinedLength [] = 0 := rfl

theorem byteLength_append (first second : String) :
    byteLength (first ++ second) = byteLength first + byteLength second := by
  change bytes (first ++ second).toList = _
  rw [String.toList_append, bytes_append]
  rfl

theorem joinedLength_concat (kept : List String) (value : String) :
    joinedLength (kept ++ [value]) = joinedLength kept + separator kept + byteLength value := by
  cases kept with
  | nil => simp [joinedLength, separator, byteLength]
  | cons first rest =>
    rw [joinedLength, String.intercalate_append_of_ne_nil (by simp) (by simp),
      String.intercalate_singleton, byteLength_append, byteLength_append]
    rfl

theorem joinedLength_eq (values : List String) :
    joinedLength values = (values.map byteLength).sum + (values.length - 1) := by
  induction values using List.reverseRecOn with
  | nil => rfl
  | append_singleton values value ih =>
    rw [joinedLength_concat, ih]
    cases values <;> simp [separator]
    omega

/-- The first values of a list, unchanged except that the last one may be cut at a
character boundary. -/
def KeepsLead (values kept : List String) : Prop :=
  kept = [] ∨ ∃ whole last cut, whole ++ [last] <+: values ∧ cut.toList <+: last.toList ∧
    kept = whole ++ [cut]

theorem keepsLead_of_isPrefix (begins : kept <+: values) : KeepsLead values kept := by
  rcases List.eq_nil_or_concat' kept with rfl | ⟨whole, last, rfl⟩
  · exact .inl rfl
  · exact .inr ⟨whole, last, last, begins, List.prefix_rfl, rfl⟩

/-- What is kept at the position of a value is a lead of it, and all of it unless it is the
last. -/
theorem KeepsLead.next {next : String} {rest more : List String}
    (lead : KeepsLead (kept ++ value :: rest) (kept ++ next :: more)) :
    next.toList <+: value.toList ∧ (more ≠ [] → next = value) := by
  rcases lead with empty | ⟨whole, last, cut, begins, short, same⟩
  · simp at empty
  rcases List.eq_nil_or_concat' more with rfl | ⟨middle, final, rfl⟩
  · obtain ⟨rfl, ends⟩ := List.append_inj' same rfl
    obtain rfl : next = cut := by simpa using ends
    rw [List.prefix_append_right_inj, List.prefix_cons_iff] at begins
    obtain ⟨remaining, here, _⟩ := begins.resolve_left (by simp)
    obtain ⟨rfl, _⟩ := List.cons.inj here
    exact ⟨short, fun absent => absurd rfl absent⟩
  · rw [← List.cons_append, ← List.append_assoc] at same
    obtain ⟨rfl, _⟩ := List.append_inj' same rfl
    rw [List.append_assoc, List.prefix_append_right_inj, List.cons_append,
      List.cons_prefix_cons] at begins
    exact ⟨begins.1 ▸ List.prefix_rfl, fun _ => begins.1⟩

end Lists

end Atelia.Excerpt
