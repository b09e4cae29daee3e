import Atelia.Tools.ReadWindow

/-! What a window is filled with, told by its lines. -/

namespace Atelia.Tools

open Excerpt Text

variable (request : WindowRequest)

section Lines

/-- The lines of an input with their line breaks. -/
def chunks : List UInt8 → List (List UInt8)
  | [] => []
  | byte :: rest =>
    if byte = 10 then [byte] :: chunks rest
    else match chunks rest with
      | [] => [[byte]]
      | first :: others => (byte :: first) :: others

/-- The text of a line as the window shows it. `more` says that bytes follow the scanned
ones, so that a line without a line break is cut. -/
def renderLine (more : Bool) (number : Nat) (chunk : List UInt8) : Except ReadError (List Char) :=
  (decodeLine (stripLineBreak chunk).1 (more && chunk.getLast? ≠ some 10)).map
    (request.render number)

def renderLines (more : Bool) : Nat → List (List UInt8) → List (Except ReadError (List Char))
  | _, [] => []
  | number, chunk :: rest =>
    renderLine request more number chunk :: renderLines more (number + 1) rest

/-- The lines of the window among those the scan reaches. -/
def windowLines (file : List UInt8) : List (Except ReadError (List Char)) :=
  (renderLines request (request.maxScanBytes < file.length) 1
    (chunks (file.take request.maxScanBytes))).drop (request.firstLine - 1)

end Lines

section Filling

/-- A line goes after the content so far; content that is still empty gets no separator. -/
def paste (content line : List Char) : List Char :=
  if content = [] then line else content ++ '\n' :: line

def pasted (lines : List (List Char)) : List Char :=
  lines.foldl paste []

/-- The content with the separator before a further line. -/
def opening (lines : List (List Char)) : List Char :=
  if pasted lines = [] then [] else pasted lines ++ ['\n']

@[simp]
theorem pasted_nil : pasted [] = [] := rfl

theorem pasted_concat (lines : List (List Char)) (line : List Char) :
    pasted (lines ++ [line]) = opening lines ++ line := by
  rw [pasted, List.foldl_append, opening]
  change paste (pasted lines) line = _
  rw [paste]
  split <;> simp

/-- Another line is read after these. -/
def Checked (done : List (List Char)) : Prop :=
  done = [] ∨ (done.length < request.maxLines ∧ (pasted done).length < request.maxChars ∧
    exceeds request.maxBytes (bytes (pasted done) + 1) = false)

/-- Something of another line may be appended to these. -/
def Admits (done : List (List Char)) : Prop :=
  (opening done).length < request.maxChars ∧
    exceeds request.maxBytes (bytes (opening done)) = false

instance (done : List (List Char)) : Decidable (Checked request done) :=
  inferInstanceAs (Decidable (_ ∨ _))

instance (done : List (List Char)) : Decidable (Admits request done) :=
  inferInstanceAs (Decidable (_ ∧ _))

inductive FillEnding where
  | complete
  | full
  | cutByChars (line : List Char)
  | cutByBytes (line : List Char)

/-- The lines a window holds whole, and how it ends. -/
structure Filled where
  whole : List (List Char)
  ending : FillEnding

def fill (done : List (List Char)) : List (Except ReadError (List Char)) → Except ReadError Filled
  | [] => .ok ⟨done, .complete⟩
  | line :: rest =>
    if Checked request done then
      match line with
      | .error error => .error error
      | .ok line =>
        if Admits request done then
          if request.maxChars < (opening done ++ line).length then .ok ⟨done, .cutByChars line⟩
          else if exceeds request.maxBytes (bytes (opening done ++ line)) then
            .ok ⟨done, .cutByBytes line⟩
          else fill (done ++ [line]) rest
        else .ok ⟨done, .full⟩
    else .ok ⟨done, .full⟩

namespace Filled

def content : Filled → List Char
  | ⟨whole, .complete⟩ | ⟨whole, .full⟩ => pasted whole
  | ⟨whole, .cutByChars line⟩ => (opening whole ++ line).take request.maxChars
  | ⟨whole, .cutByBytes line⟩ => takeBytes (request.maxBytes.getD 0) (opening whole ++ line)

/-- A line that is cut counts, unless none of its bytes fit. -/
def lineCount : Filled → Nat
  | ⟨whole, .complete⟩ | ⟨whole, .full⟩ => whole.length
  | ⟨whole, .cutByChars _⟩ => whole.length + 1
  | ⟨whole, .cutByBytes line⟩ =>
    if takeBytes (request.maxBytes.getD 0) (opening whole ++ line) = opening whole then whole.length
    else whole.length + 1

end Filled

end Filling

section Reader

variable {request} {limit : Nat} {input : List UInt8}

theorem readUntil_eq_nil : readUntil limit input = [] ↔ limit = 0 ∨ input = [] := by
  cases input with
  | nil => simp [readUntil]
  | cons byte rest =>
    rw [readUntil]
    split_ifs <;> simp_all

theorem readUntil_length_le (limit : Nat) (input : List UInt8) :
    (readUntil limit input).length ≤ limit ∧ (readUntil limit input).length ≤ input.length := by
  induction input generalizing limit with
  | nil => simp [readUntil]
  | cons byte rest ih =>
    have := ih (limit - 1)
    rw [readUntil]
    split_ifs <;> simp <;> omega

/-- A line that does not end with a line break was ended by the limit or the input. -/
theorem readUntil_unbroken (unbroken : (readUntil limit input).getLast? ≠ some 10) :
    readUntil limit input = input.take limit := by
  induction input generalizing limit with
  | nil => simp [readUntil]
  | cons byte rest ih =>
    rw [readUntil] at unbroken ⊢
    split_ifs at unbroken ⊢ with none newline
    · simp [none]
    · simp [newline] at unbroken
    · obtain ⟨fewer, rfl⟩ := Nat.exists_eq_succ_of_ne_zero none
      rw [Nat.succ_sub_one] at unbroken ⊢
      rw [Nat.succ_eq_add_one, List.take_succ_cons, ih]
      intro broken
      refine unbroken ?_
      rw [List.getLast?_cons, broken]
      rfl

/-- Reading a line takes the first of the lines ahead. -/
theorem chunks_take (space : limit ≠ 0) (some : input ≠ []) :
    chunks (input.take limit) = readUntil limit input ::
      chunks ((input.drop (readUntil limit input).length).take
        (limit - (readUntil limit input).length)) := by
  induction input generalizing limit with
  | nil => exact absurd rfl some
  | cons byte rest ih =>
    obtain ⟨fewer, rfl⟩ := Nat.exists_eq_succ_of_ne_zero space
    rw [Nat.succ_eq_add_one, List.take_succ_cons, chunks, readUntil, if_neg (Nat.succ_ne_zero _)]
    split_ifs with newline
    · simp
    · rw [Nat.add_sub_cancel, List.length_cons, List.drop_succ_cons, Nat.add_sub_add_right]
      by_cases last : fewer = 0 ∨ rest = []
      · have nothing : rest.take fewer = [] := by
          rcases last with rfl | rfl <;> simp
        rw [nothing, readUntil_eq_nil.mpr last]
        simp [chunks, nothing]
      · rw [not_or] at last
        rw [ih last.1 last.2]

/-- The lines that the scan has still ahead. -/
def upcoming (request : WindowRequest) (reading : Reading) : List (Except ReadError (List Char)) :=
  renderLines request (request.maxScanBytes - reading.scannedBytes < reading.remaining.length)
    (reading.currentLine + 1)
    (chunks (reading.remaining.take (request.maxScanBytes - reading.scannedBytes)))

/-- The next line that the reader hands out. -/
def nextLine (request : WindowRequest) (reading : Reading) : List UInt8 :=
  readUntil (request.maxScanBytes - reading.scannedBytes) reading.remaining

variable {reading : Reading}

theorem upcoming_eq_nil (ended : request.maxScanBytes ≤ reading.scannedBytes ∨
    reading.remaining = []) : upcoming request reading = [] := by
  rcases ended with ended | ended
  · rw [upcoming, Nat.sub_eq_zero_of_le ended, List.take_zero]
    rfl
  · rw [upcoming, ended, List.take_nil]
    rfl

theorem advance_truncatedByScan (untruncated : reading.truncatedByScan = false) :
    (advance request reading (nextLine request reading)).truncatedByScan =
      (decide (request.maxScanBytes - reading.scannedBytes < reading.remaining.length) &&
        decide ((nextLine request reading).getLast? ≠ some 10)) := by
  have length (unbroken : (nextLine request reading).getLast? ≠ some 10) :
      (nextLine request reading).length =
        min (request.maxScanBytes - reading.scannedBytes) reading.remaining.length :=
    (congrArg List.length (readUntil_unbroken unbroken)).trans List.length_take
  generalize nextLine request reading = line at length
  simp only [advance]
  by_cases unbroken : line.getLast? ≠ some 10
  · rw [length unbroken, decide_eq_true unbroken, Bool.and_true]
    by_cases more : request.maxScanBytes - reading.scannedBytes < reading.remaining.length
    · rw [if_pos ⟨unbroken, by omega⟩, Nat.min_eq_left (by omega), decide_eq_true more]
      simp [more]
    · rw [Nat.min_eq_right (by omega), decide_eq_false more, List.drop_length, untruncated]
      simp
  · simp [unbroken, untruncated]

theorem upcoming_advance (space : reading.scannedBytes < request.maxScanBytes)
    (some : reading.remaining ≠ []) (untruncated : reading.truncatedByScan = false) :
    upcoming request reading =
      (decodeLine (stripLineBreak (nextLine request reading)).1
          (advance request reading (nextLine request reading)).truncatedByScan).map
        (request.render (reading.currentLine + 1)) ::
      upcoming request (advance request reading (nextLine request reading)) := by
  have lengths := readUntil_length_le (request.maxScanBytes - reading.scannedBytes) reading.remaining
  rw [upcoming, chunks_take (by omega) some, renderLines, advance_truncatedByScan untruncated]
  congr 1
  have same : (request.maxScanBytes - reading.scannedBytes < reading.remaining.length) ↔
      request.maxScanBytes - (advance request reading (nextLine request reading)).scannedBytes <
        (advance request reading (nextLine request reading)).remaining.length := by
    simp only [advance, nextLine, List.length_drop]
    omega
  rw [upcoming, ← decide_eq_decide.mpr same, Nat.sub_sub]
  rfl

end Reader

end Atelia.Tools
