import Atelia.Tools.WindowFill

/-! `read_text_window` computes the filling of its window. -/

namespace Atelia.Tools

open Excerpt Text

variable {request : WindowRequest} {total : Nat} {done : List (List Char)} {reading final : Reading}
  {filled : Filled}

section Standing

/-- What the locals say about the lines held whole. -/
structure Standing (request : WindowRequest) (total : Nat) (done : List (List Char))
    (reading : Reading) : Prop where
  content : reading.content = pasted done
  usedChars : reading.usedChars = (pasted done).length
  usedBytes : reading.usedBytes = bytes (pasted done)
  lineCount : reading.lineCount = done.length
  endLine : done ≠ [] → reading.endLine + 1 = request.firstLine + done.length
  scanned : reading.scannedBytes ≤ request.maxScanBytes
  total : reading.scannedBytes + reading.remaining.length = total

/-- A reading before a turn. -/
structure Represents (request : WindowRequest) (total : Nat) (done : List (List Char))
    (reading : Reading) : Prop extends Standing request total done reading where
  byLines : reading.truncatedByLines = false
  byChars : reading.truncatedByChars = false
  byBytes : reading.truncatedByBytes = false
  byScan : reading.truncatedByScan = false
  before : done = [] → reading.currentLine < request.firstLine
  inside : done ≠ [] → reading.currentLine + 1 = request.firstLine + done.length
  retained : reading.retainedSourceBytes + reading.previousRetainedNewlineBytes ≤
    reading.scannedBytes

/-- A reading at the end of the loop. -/
structure Describes (request : WindowRequest) (total : Nat) (filled : Filled) (final : Reading) :
    Prop where
  content : final.content = filled.content request
  lineCount : final.lineCount = filled.lineCount request
  endLine : 0 < final.lineCount → final.endLine + 1 = request.firstLine + final.lineCount
  untruncated : final.truncatedByLines = false → final.truncatedByChars = false →
    final.truncatedByBytes = false → final.truncatedByScan = false →
      filled.ending = .complete ∧ total ≤ request.maxScanBytes
  retained : final.retainedSourceBytes ≤ total

/-- The lines of the window that are still ahead. -/
def ahead (request : WindowRequest) (reading : Reading) : List (Except ReadError (List Char)) :=
  (upcoming request reading).drop (request.firstLine - 1 - reading.currentLine)

/-- The flags do not say what is held. -/
theorem Standing.flagged (standing : Standing request total done reading)
    (byLines byChars byBytes byScan : Bool) :
    Standing request total done { reading with
      truncatedByLines := byLines
      truncatedByChars := byChars
      truncatedByBytes := byBytes
      truncatedByScan := byScan } :=
  ⟨standing.content, standing.usedChars, standing.usedBytes, standing.lineCount, standing.endLine,
    standing.scanned, standing.total⟩

/-- The filling ends with the lines held whole. -/
theorem Standing.describes (standing : Standing request total done final) {ending : FillEnding}
    (plain : ending = .complete ∨ ending = .full)
    (untruncated : final.truncatedByLines = false → final.truncatedByChars = false →
      final.truncatedByBytes = false → final.truncatedByScan = false →
        ending = .complete ∧ final.remaining = [])
    (retained : final.retainedSourceBytes ≤ final.scannedBytes) :
    Describes request total ⟨done, ending⟩ final where
  content := by rcases plain with rfl | rfl <;> exact standing.content
  lineCount := by rcases plain with rfl | rfl <;> exact standing.lineCount
  endLine some := by
    rw [standing.lineCount] at some ⊢
    exact standing.endLine (List.ne_nil_of_length_pos some)
  untruncated lines chars bytes scan := by
    obtain ⟨complete, nothing⟩ := untruncated lines chars bytes scan
    have scanned := standing.scanned
    have total := standing.total
    rw [nothing, List.length_nil] at total
    exact ⟨complete, by omega⟩
  retained := by
    have := standing.total
    omega

theorem limitReached_eq_none (represents : Represents request total done reading) :
    limitReached request reading = none ↔ Checked request done := by
  rw [limitReached, Checked]
  by_cases empty : done = []
  · simp [empty, represents.before empty]
  · have inside := represents.inside empty
    have some := List.length_pos_of_ne_nil empty
    rw [if_neg (by omega), represents.lineCount, represents.usedChars, represents.usedBytes]
    have exceeds_iff : exceeds request.maxBytes (bytes (pasted done) + 1) =
        request.maxBytes.any fun limit => limit ≤ bytes (pasted done) := by
      rw [exceeds]
      congr 1
      funext limit
      exact decide_eq_decide.mpr Nat.lt_succ_iff
    rw [exceeds_iff]
    split_ifs <;> simp_all

end Standing

section Append

variable {line : List Char} {newlineBytes : Nat} {rest : List (Except ReadError (List Char))}

/-- A reading with a line of the window taken from the reader. -/
structure Taken (request : WindowRequest) (total : Nat) (done : List (List Char))
    (line : List Char) (newlineBytes : Nat) (reading : Reading) : Prop
    extends Standing request total done reading where
  byLines : reading.truncatedByLines = false
  byChars : reading.truncatedByChars = false
  byBytes : reading.truncatedByBytes = false
  number : reading.currentLine = request.firstLine + done.length
  retained : reading.retainedSourceBytes + reading.previousRetainedNewlineBytes +
    (bytes line + newlineBytes) ≤ reading.scannedBytes

/-- The separator leaves the counts of the opening and changes nothing else. -/
theorem pushSeparator_eq (standing : Standing request total done reading) :
    ∃ retained ≤ reading.retainedSourceBytes + reading.previousRetainedNewlineBytes,
      pushSeparator reading =
        { reading with
          content := opening done
          usedChars := (opening done).length
          usedBytes := bytes (opening done)
          retainedSourceBytes := retained } := by
  rw [pushSeparator, opening]
  by_cases empty : pasted done = []
  · refine ⟨reading.retainedSourceBytes, by omega, ?_⟩
    rw [if_pos (by rw [standing.content, empty]; rfl), if_pos empty]
    have same := standing.content
    have chars := standing.usedChars
    have used := standing.usedBytes
    rw [empty] at same chars used
    cases reading
    simp_all
  · refine ⟨_, Nat.le_refl _, ?_⟩
    rw [if_neg (by rwa [standing.content, List.isEmpty_iff]), if_neg empty, standing.content,
      standing.usedChars, standing.usedBytes, List.length_append, bytes_append]
    rfl

theorem separatorChars_eq (standing : Standing request total done reading) :
    reading.usedChars + (if reading.content.isEmpty then 0 else 1) = (opening done).length ∧
      reading.usedBytes + (if reading.content.isEmpty then 0 else 1) = bytes (opening done) := by
  rw [standing.content, standing.usedChars, standing.usedBytes, opening]
  by_cases empty : pasted done = []
  · simp [empty]
  · rw [if_neg (by rwa [List.isEmpty_iff]), if_neg empty, List.length_append, bytes_append]
    exact ⟨rfl, rfl⟩

theorem truncateUtf8ToByteBoundary_eq (input : List Char) (byteLimit : Nat) :
    truncateUtf8ToByteBoundary input byteLimit = takeBytes byteLimit input := by
  rw [truncateUtf8ToByteBoundary]
  split
  · rename_i fits
    exact (takeBytes_of_le fits).symm
  · exact takeBytes_boundaryBelow input byteLimit

theorem retainedForChars_le (line : List Char) (number : Nat) (includeLineNumbers : Bool)
    (count : Nat) :
    retainedSourceBytesForRenderedChars line number includeLineNumbers count ≤ bytes line :=
  bytes_le_of_isPrefix (List.take_prefix _ _)

theorem retainedForBytes_le (line : List Char) (number : Nat) (includeLineNumbers : Bool)
    (count : Nat) :
    retainedSourceBytesForRenderedBytes line number includeLineNumbers count ≤ bytes line := by
  rw [retainedSourceBytesForRenderedBytes]
  split
  · exact Nat.zero_le _
  · exact Nat.min_le_right _ _

/-- The reading with the separator pushed, as `pushSeparator_eq` gives it. -/
def opened (done : List (List Char)) (retained : Nat) (reading : Reading) : Reading :=
  { reading with
    content := opening done
    usedChars := (opening done).length
    usedBytes := bytes (opening done)
    retainedSourceBytes := retained }

section Taken

variable (taken : Taken request total done line newlineBytes reading)
include taken

theorem describes_cutByChars {retained : Nat}
    (few : retained ≤ reading.retainedSourceBytes + reading.previousRetainedNewlineBytes)
    (admits : Admits request done) :
    Describes request total ⟨done, .cutByChars (request.render reading.currentLine line)⟩
      (cutByChars request (opened done retained reading) line) where
  content := by
    simp only [Filled.content, cutByChars, opened, List.take_append]
    rw [List.take_of_length_le (Nat.le_of_lt admits.1)]
  lineCount := congrArg (· + 1) taken.lineCount
  endLine _ := by
    have number := taken.number
    have count := taken.lineCount
    simp only [cutByChars, opened]
    omega
  untruncated _ byChars := by cases byChars
  retained := by
    have total := taken.total
    have bound := taken.retained
    have cut := retainedForChars_le line reading.currentLine request.includeLineNumbers
      (request.maxChars - (opening done).length)
    simp only [cutByChars, opened]
    omega

theorem describes_cutByBytes {retained limit : Nat}
    (few : retained ≤ reading.retainedSourceBytes + reading.previousRetainedNewlineBytes)
    (limited : request.maxBytes = some limit) (admits : Admits request done) :
    Describes request total ⟨done, .cutByBytes (request.render reading.currentLine line)⟩
      (cutByBytes request (opened done retained reading) line limit) := by
  have fits : bytes (opening done) ≤ limit := by
    have := admits.2
    rw [limited] at this
    simpa [exceeds] using this
  have content : takeBytes limit (opening done ++ request.render reading.currentLine line) =
      opening done ++ takeBytes (limit - bytes (opening done))
        (request.render reading.currentLine line) := takeBytes_append fits
  have number := taken.number
  have count := taken.lineCount
  have total := taken.total
  have bound := taken.retained
  simp only [cutByBytes, opened, truncateUtf8ToByteBoundary_eq]
  obtain ⟨cut, defined⟩ : ∃ cut, takeBytes (limit - bytes (opening done))
      (request.render reading.currentLine line) = cut := ⟨_, rfl⟩
  rw [defined] at content ⊢
  by_cases empty : cut = []
  · subst empty
    rw [if_neg (by simp)]
    exact {
      content := by simp [Filled.content, limited, content]
      lineCount := by simpa [Filled.lineCount, limited, content] using count
      endLine := fun some => by
        simp only [count] at some ⊢
        exact taken.endLine (List.ne_nil_of_length_pos some)
      untruncated := fun _ _ byBytes => by cases byBytes
      retained := by simp only; omega }
  · rw [if_pos (Nat.pos_of_ne_zero (by rwa [Ne, bytes_eq_zero]))]
    have kept := retainedForBytes_le line reading.currentLine request.includeLineNumbers (bytes cut)
    exact {
      content := by simp [Filled.content, limited, content]
      lineCount := by simpa [Filled.lineCount, limited, content, empty] using count
      endLine := fun _ => by simp only; omega
      untruncated := fun _ _ byBytes => by cases byBytes
      retained := by simp only; omega }

/-- A line that fits is held whole. -/
theorem standing_pushLine (retained : Nat) :
    Standing request total (done ++ [request.render reading.currentLine line])
      (pushLine request (opened done retained reading) line newlineBytes) where
  content := (pasted_concat done _).symm
  usedChars := by
    rw [pasted_concat, List.length_append]
    rfl
  usedBytes := by
    rw [pasted_concat, bytes_append]
    rfl
  lineCount := by
    rw [List.length_append]
    exact congrArg (· + 1) taken.lineCount
  endLine _ := by
    rw [List.length_append, ← Nat.add_assoc, ← taken.number]
    rfl
  scanned := taken.scanned
  total := taken.total

/-- One line of the filling. -/
theorem appendLine_cases (checked : Checked request done)
    (ended : reading.truncatedByScan = true → rest = []) :
    (∃ final filled, appendLine request reading line newlineBytes = .stop final ∧
        fill request done (.ok (request.render reading.currentLine line) :: rest) = .ok filled ∧
        Describes request total filled final) ∨
      ∃ next, appendLine request reading line newlineBytes = .next next ∧
        fill request done (.ok (request.render reading.currentLine line) :: rest) =
          fill request (done ++ [request.render reading.currentLine line]) rest ∧
        Represents request total (done ++ [request.render reading.currentLine line]) next ∧
        next.remaining = reading.remaining ∧ next.scannedBytes = reading.scannedBytes ∧
        next.currentLine = reading.currentLine := by
  obtain ⟨chars, used⟩ := separatorChars_eq taken.toStanding
  obtain ⟨retained, few, pushed⟩ := pushSeparator_eq taken.toStanding
  obtain ⟨rendered, shown⟩ : ∃ rendered, request.render reading.currentLine line = rendered :=
    ⟨_, rfl⟩
  have openedEq : pushSeparator reading = opened done retained reading := pushed
  have number : (opened done retained reading).currentLine = reading.currentLine := rfl
  rw [fill, if_pos checked, appendLine]
  simp only [chars, used, openedEq, number]
  by_cases admits : Admits request done
  · rw [if_neg (Nat.not_le.mpr admits.1), if_neg (Bool.eq_false_iff.mp admits.2), if_pos admits]
    have longer : request.maxChars - (opened done retained reading).usedChars <
        (request.render reading.currentLine line).length ↔
        request.maxChars < (opening done ++ request.render reading.currentLine line).length := by
      have := admits.1
      simp only [opened, List.length_append]
      omega
    by_cases long : request.maxChars <
        (opening done ++ request.render reading.currentLine line).length
    · rw [if_pos (longer.mpr long), if_pos long]
      exact .inl ⟨_, _, rfl, rfl, describes_cutByChars taken few admits⟩
    rw [if_neg (mt longer.mp long), if_neg long]
    by_cases exceeding : exceeds request.maxBytes
        (bytes (opening done ++ request.render reading.currentLine line)) = true
    · obtain ⟨limit, limited, less⟩ := (Option.any_eq_true _ _).mp exceeding
      rw [if_pos exceeding]
      have chosen : (request.maxBytes.filter fun limit => limit <
          (opened done retained reading).usedBytes +
            bytes (request.render reading.currentLine line)) = some limit := by
        rw [limited, Option.filter_some, if_pos]
        rw [bytes_append] at less
        exact less
      rw [chosen]
      exact .inl ⟨_, _, rfl, rfl, describes_cutByBytes taken few limited admits⟩
    · rw [if_neg exceeding]
      have chosen : (request.maxBytes.filter fun limit => limit <
          (opened done retained reading).usedBytes +
            bytes (request.render reading.currentLine line)) = none := by
        rw [bytes_append] at exceeding
        rw [Option.filter_eq_none_iff]
        intro limit limited less
        exact exceeding ((Option.any_eq_true _ _).mpr ⟨limit, limited, less⟩)
      rw [chosen]
      have standing := standing_pushLine taken retained
      have bound := taken.retained
      simp only
      by_cases cut : reading.truncatedByScan = true
      · rw [ended cut]
        refine .inl ⟨pushLine request (opened done retained reading) line newlineBytes, _,
          if_pos cut, rfl, standing.describes (.inl rfl) (fun _ _ _ byScan => ?_) ?_⟩
        · exact absurd (cut.symm.trans byScan) (by decide)
        · simp only [pushLine, opened]
          omega
      · refine .inr ⟨pushLine request (opened done retained reading) line newlineBytes,
          if_neg cut, trivial, ⟨standing, taken.byLines, taken.byChars, taken.byBytes,
            Bool.eq_false_iff.mpr cut, fun absent => absurd absent (by simp), fun _ => ?_, ?_⟩,
          rfl, rfl, rfl⟩
        · rw [List.length_append, ← Nat.add_assoc, ← taken.number]
          rfl
        · simp only [pushLine, opened]
          omega
  · rw [if_neg admits]
    have bound := taken.retained
    by_cases full : request.maxChars ≤ (opening done).length
    · rw [if_pos full]
      refine .inl ⟨_, _, rfl, rfl, (taken.toStanding.flagged _ true _ _).describes (.inr rfl)
        (fun _ byChars => ?_) (by simp only; omega)⟩
      cases byChars
    · have exceeding : exceeds request.maxBytes (bytes (opening done)) = true := by
        by_contra within
        exact admits ⟨Nat.not_le.mp full, Bool.eq_false_iff.mpr within⟩
      rw [if_neg full, if_pos exceeding]
      refine .inl ⟨_, _, rfl, rfl, (taken.toStanding.flagged _ _ true _).describes (.inr rfl)
        (fun _ _ byBytes => ?_) (by simp only; omega)⟩
      cases byBytes

end Taken

end Append

section Turns

theorem stripLineBreak_length (lineBytes : List UInt8) :
    (stripLineBreak lineBytes).1.length + (stripLineBreak lineBytes).2 = lineBytes.length := by
  have shorter {input : List UInt8} {byte : UInt8} (ends : input.getLast? = some byte) :
      input.dropLast.length + 1 = input.length := by
    have some : input ≠ [] := by
      rintro rfl
      cases ends
    rw [List.length_dropLast]
    have := List.length_pos_of_ne_nil some
    omega
  rw [stripLineBreak]
  split_ifs with newline carriage
  · have := shorter newline
    have := shorter carriage
    simp only
    omega
  · exact shorter newline
  · rfl

theorem bytes_decodeLine {lineBytes : List UInt8} {cut : Bool} {line : List Char}
    (decoded : decodeLine lineBytes cut = .ok line) : bytes line ≤ lineBytes.length := by
  rw [decodeLine] at decoded
  split at decoded
  · cases decoded
  simp only at decoded
  split at decoded
  · cases decoded
    exact Utf8.bytes_decode lineBytes
  · cases decoded
  · split_ifs at decoded
    cases decoded
    exact (Utf8.bytes_decode _).trans (List.length_take_le' _ _)

/-- A limit that is reached raises its flag unless nothing remains. -/
theorem limitReached_eq_some {stopped : Reading} (reached : limitReached request reading = some stopped) :
    ∃ byLines byChars byBytes, stopped = { reading with
        truncatedByLines := byLines
        truncatedByChars := byChars
        truncatedByBytes := byBytes } ∧
      (byLines = false → byChars = false → byBytes = false → reading.remaining = []) := by
  rw [limitReached] at reached
  split_ifs at reached <;> cases reached <;> refine ⟨_, _, _, rfl, ?_⟩ <;> simp <;> tauto

theorem fill_of_unchecked (unchecked : ¬ Checked request done)
    (lines : List (Except ReadError (List Char))) :
    fill request done lines = .ok ⟨done, if lines = [] then .complete else .full⟩ := by
  cases lines with
  | nil => rfl
  | cons line rest => simp [fill, unchecked]

theorem stopped_describes (represents : Represents request total done reading)
    {stopped : Reading} (reached : limitReached request reading = some stopped) :
    ∃ filled, fill request done (ahead request reading) = .ok filled ∧
      Describes request total filled stopped := by
  have unchecked : ¬ Checked request done := by
    rw [← limitReached_eq_none represents, reached]
    simp
  obtain ⟨byLines, byChars, byBytes, rfl, nothing⟩ := limitReached_eq_some reached
  refine ⟨_, fill_of_unchecked unchecked _, (represents.toStanding.flagged _ _ _ _).describes ?_
    (fun lines chars bytes _ => ?_) ?_⟩
  · by_cases none : ahead request reading = []
    · exact .inl (if_pos none)
    · exact .inr (if_neg none)
  · have empty := nothing lines chars bytes
    have none : ahead request reading = [] := by
      rw [ahead, upcoming_eq_nil (.inr empty), List.drop_nil]
    exact ⟨if_pos none, empty⟩
  · have := represents.retained
    simp only
    omega

/-- Nothing is ahead, and the loop stops as it stands. -/
theorem exhausted_describes (represents : Represents request total done reading) {byScan : Bool}
    (ended : request.maxScanBytes ≤ reading.scannedBytes ∨ reading.remaining = [])
    (flagged : byScan = false → reading.remaining = []) :
    fill request done (ahead request reading) = .ok ⟨done, .complete⟩ ∧
      Describes request total ⟨done, .complete⟩ { reading with truncatedByScan := byScan } := by
  have none : ahead request reading = [] := by rw [ahead, upcoming_eq_nil ended, List.drop_nil]
  have bound := represents.retained
  refine ⟨by rw [none]; rfl, (represents.toStanding.flagged _ _ _ _).describes (.inl rfl)
    (fun _ _ _ scanned => ⟨rfl, flagged scanned⟩) (by simp only; omega)⟩

theorem advance_over (untruncated : reading.truncatedByScan = false)
    (cut : (advance request reading (nextLine request reading)).truncatedByScan = true) :
    upcoming request (advance request reading (nextLine request reading)) = [] := by
  rw [advance_truncatedByScan untruncated, Bool.and_eq_true, decide_eq_true_eq,
    decide_eq_true_eq] at cut
  have whole : nextLine request reading = _ := readUntil_unbroken cut.2
  refine upcoming_eq_nil (.inl ?_)
  simp only [advance]
  rw [whole, List.length_take]
  omega

theorem standing_advance (standing : Standing request total done reading) :
    Standing request total done (advance request reading (nextLine request reading)) where
  content := standing.content
  usedChars := standing.usedChars
  usedBytes := standing.usedBytes
  lineCount := standing.lineCount
  endLine := standing.endLine
  scanned := by
    have length := (readUntil_length_le (request.maxScanBytes - reading.scannedBytes)
      reading.remaining).1
    have scanned := standing.scanned
    change reading.scannedBytes + (nextLine request reading).length ≤ _
    unfold nextLine
    omega
  total := by
    have length := (readUntil_length_le (request.maxScanBytes - reading.scannedBytes)
      reading.remaining).2
    have total := standing.total
    change reading.scannedBytes + (nextLine request reading).length +
      (reading.remaining.drop (nextLine request reading).length).length = _
    rw [List.length_drop]
    unfold nextLine
    omega

theorem upcoming_congr {other : Reading} (remaining : other.remaining = reading.remaining)
    (scanned : other.scannedBytes = reading.scannedBytes)
    (current : other.currentLine = reading.currentLine) :
    upcoming request other = upcoming request reading := by
  rw [upcoming, upcoming, remaining, scanned, current]

section Scanned

variable (space : reading.scannedBytes < request.maxScanBytes) (some : reading.remaining ≠ [])
  (untruncated : reading.truncatedByScan = false)
include space some untruncated

/-- A line before the window is passed ended. -/
theorem ahead_skipped (before : reading.currentLine + 1 < request.firstLine) :
    ahead request reading = ahead request (advance request reading (nextLine request reading)) := by
  obtain ⟨count, steps⟩ : ∃ count, request.firstLine - 1 - reading.currentLine = count + 1 :=
    ⟨request.firstLine - 1 - (reading.currentLine + 1), by omega⟩
  rw [ahead, upcoming_advance space some untruncated, steps, List.drop_succ_cons, ahead]
  congr 1
  change count = request.firstLine - 1 - (reading.currentLine + 1)
  omega

/-- The next line of the window. -/
theorem ahead_taken (inside : ¬ reading.currentLine + 1 < request.firstLine) :
    ahead request reading =
      (decodeLine (stripLineBreak (nextLine request reading)).1
          (advance request reading (nextLine request reading)).truncatedByScan).map
        (request.render (reading.currentLine + 1)) ::
      upcoming request (advance request reading (nextLine request reading)) := by
  rw [ahead, upcoming_advance space some untruncated]
  have none : request.firstLine - 1 - reading.currentLine = 0 := by omega
  rw [none, List.drop_zero]

end Scanned

theorem taken_advance (represents : Represents request total done reading) {line : List Char}
    {cut : Bool} (inside : ¬ reading.currentLine + 1 < request.firstLine)
    (decoded : decodeLine (stripLineBreak (nextLine request reading)).1 cut = .ok line) :
    Taken request total done line (stripLineBreak (nextLine request reading)).2
      (advance request reading (nextLine request reading)) where
  toStanding := standing_advance represents.toStanding
  byLines := represents.byLines
  byChars := represents.byChars
  byBytes := represents.byBytes
  number := by
    change reading.currentLine + 1 = _
    by_cases empty : done = []
    · have := represents.before empty
      rw [empty, List.length_nil]
      omega
    · exact represents.inside empty
  retained := by
    have bound := represents.retained
    have decodedBytes := bytes_decodeLine decoded
    have length := stripLineBreak_length (nextLine request reading)
    change reading.retainedSourceBytes + reading.previousRetainedNewlineBytes + _ ≤
      reading.scannedBytes + (nextLine request reading).length
    omega

/-- One turn of the loop is one line of the filling, or a line before the window. -/
theorem turn_cases (represents : Represents request total done reading) :
    (∃ error, turn request reading = .error error ∧
        fill request done (ahead request reading) = .error error) ∨
      (∃ final filled, turn request reading = .ok (.stop final) ∧
        fill request done (ahead request reading) = .ok filled ∧
        Describes request total filled final) ∨
      ∃ next whole, turn request reading = .ok (.next next) ∧
        fill request done (ahead request reading) = fill request whole (ahead request next) ∧
        Represents request total whole next ∧ next.remaining.length < reading.remaining.length := by
  rw [turn]
  cases reached : limitReached request reading with
  | some stopped =>
    obtain ⟨filled, same, describes⟩ := stopped_describes represents reached
    exact .inr (.inl ⟨stopped, filled, rfl, same, describes⟩)
  | none =>
    have checked := (limitReached_eq_none represents).mp reached
    have next : readUntil (request.maxScanBytes - reading.scannedBytes) reading.remaining =
      nextLine request reading := rfl
    simp only [next]
    by_cases scanned : request.maxScanBytes ≤ reading.scannedBytes
    · have flagged : (!reading.remaining.isEmpty) = false → reading.remaining = [] := by simp
      obtain ⟨same, describes⟩ := exhausted_describes represents (.inl scanned) flagged
      rw [if_pos scanned]
      exact .inr (.inl ⟨_, _, rfl, same, describes⟩)
    rw [if_neg scanned]
    have space := Nat.not_le.mp scanned
    by_cases nothing : reading.remaining = []
    · obtain ⟨same, describes⟩ := exhausted_describes represents (.inr nothing)
        (fun _ : reading.truncatedByScan = false => nothing)
      have empty : nextLine request reading = [] := readUntil_eq_nil.mpr (.inr nothing)
      rw [empty, if_pos List.isEmpty_nil]
      exact .inr (.inl ⟨reading, _, rfl, same, describes⟩)
    have taken : nextLine request reading ≠ [] := by
      rw [nextLine, Ne, readUntil_eq_nil]
      rintro (ended | ended)
      · omega
      · exact nothing ended
    have shorter : (advance request reading (nextLine request reading)).remaining.length <
        reading.remaining.length := by
      have := List.length_pos_of_ne_nil taken
      have := List.length_pos_of_ne_nil nothing
      simp only [advance, List.length_drop]
      omega
    rw [if_neg (by rwa [List.isEmpty_iff])]
    have number : (advance request reading (nextLine request reading)).currentLine =
      reading.currentLine + 1 := rfl
    have ended : (advance request reading (nextLine request reading)).truncatedByScan = true →
        upcoming request (advance request reading (nextLine request reading)) = [] :=
      advance_over represents.byScan
    rw [number]
    by_cases before : reading.currentLine + 1 < request.firstLine
    · rw [if_pos before, ahead_skipped space nothing represents.byScan before]
      have standing : Standing request total done
          (advance request reading (nextLine request reading)) :=
        standing_advance represents.toStanding
      have retained : reading.retainedSourceBytes + reading.previousRetainedNewlineBytes ≤
          reading.scannedBytes + (nextLine request reading).length :=
        represents.retained.trans (Nat.le_add_right _ _)
      by_cases cut : (advance request reading (nextLine request reading)).truncatedByScan = true
      · rw [if_pos cut, ahead, ended cut, List.drop_nil]
        refine .inr (.inl ⟨_, _, rfl, rfl, standing.describes (.inl rfl) (fun _ _ _ byScan => ?_) ?_⟩)
        · exact absurd (cut.symm.trans byScan) (by decide)
        · exact (Nat.le_add_right _ _).trans retained
      · rw [if_neg cut]
        refine .inr (.inr ⟨_, done, rfl, rfl, ⟨standing, represents.byLines, represents.byChars,
          represents.byBytes, Bool.eq_false_iff.mpr cut, fun _ => before, fun some => ?_, retained⟩,
          shorter⟩)
        have := represents.inside some
        omega
    · rw [if_neg before, ahead_taken space nothing represents.byScan before]
      cases decoded : decodeLine (stripLineBreak (nextLine request reading)).1
          (advance request reading (nextLine request reading)).truncatedByScan with
      | error error =>
        exact .inl ⟨error, rfl, by simp [fill, checked, Except.map]⟩
      | ok line =>
        have step := appendLine_cases (taken_advance represents before decoded) checked ended
        rcases step with ⟨final, filled, stopped, same, describes⟩ | ⟨next, went, same, stands, rest⟩
        · exact .inr (.inl ⟨final, filled, congrArg Except.ok stopped, same, describes⟩)
        · refine .inr (.inr ⟨next, _, congrArg Except.ok went, same.trans ?_, stands, ?_⟩)
          · have same : upcoming request next = upcoming request _ :=
              upcoming_congr rest.1 rest.2.1 rest.2.2
            have none : request.firstLine - 1 - next.currentLine = 0 := by
              rw [rest.2.2, number]
              omega
            rw [ahead, none, List.drop_zero, same]
          · rw [rest.1]
            exact shorter

/-- The loop computes the filling and does not run out of turns. -/
theorem turns_fill {fuel : Nat} (represents : Represents request total done reading)
    (enough : reading.remaining.length < fuel) :
    (∃ error, turns request fuel reading = .error error ∧
        fill request done (ahead request reading) = .error error) ∨
      ∃ final filled, turns request fuel reading = .ok final ∧
        fill request done (ahead request reading) = .ok filled ∧
        Describes request total filled final := by
  induction fuel generalizing reading done with
  | zero => cases enough
  | succ fuel ih =>
    rw [turns]
    rcases turn_cases represents with ⟨error, failed, same⟩ | ⟨final, filled, stopped, same, describes⟩ |
      ⟨next, whole, went, same, stands, shorter⟩
    · rw [failed]
      exact .inl ⟨error, rfl, same⟩
    · rw [stopped]
      exact .inr ⟨final, filled, rfl, same, describes⟩
    · rw [went, same]
      exact ih stands (by omega)

theorem represents_start (request : WindowRequest) (file : List UInt8) :
    Represents request file.length [] { remaining := file } where
  content := rfl
  usedChars := rfl
  usedBytes := rfl
  lineCount := rfl
  endLine none := absurd rfl none
  scanned := Nat.zero_le _
  total := Nat.zero_add _
  byLines := rfl
  byChars := rfl
  byBytes := rfl
  byScan := rfl
  before _ := Nat.lt_of_lt_of_le Nat.zero_lt_one (Nat.le_max_right _ _)
  inside none := absurd rfl none
  retained := Nat.le_refl _

/-- What a window returned by `read_text_window` says, by what fills it. -/
structure Shows (request : WindowRequest) (file : List UInt8) (filled : Filled)
    (window : ReadWindow) : Prop where
  content : window.content.toList = filled.content request
  lineCount : window.lineCount = filled.lineCount request
  endLine : 0 < window.lineCount → window.endLine + 1 = request.firstLine + window.lineCount
  untruncated : window.truncatedByLines = false → window.truncatedByChars = false →
    window.truncatedByBytes = false → window.truncatedByScan = false →
      filled.ending = .complete ∧ file.length ≤ request.maxScanBytes
  retained : window.retainedSourceBytes ≤ file.length

/-- `read_text_window` fails exactly when the filling meets a line that is not text, and
returns the window that the filling describes otherwise. -/
theorem readTextWindow_fill (request : WindowRequest) (file : List UInt8) :
    (∃ error, readTextWindow request file = .error error ∧
        fill request [] (windowLines request file) = .error error) ∨
      ∃ window filled, readTextWindow request file = .ok window ∧
        fill request [] (windowLines request file) = .ok filled ∧
        Shows request file filled window := by
  have lines : ahead request { remaining := file } = windowLines request file := rfl
  have run := turns_fill (represents_start request file) (Nat.lt_succ_self _)
  rw [lines] at run
  rcases run with ⟨error, failed, same⟩ | ⟨final, filled, returned, same, describes⟩
  · exact .inl ⟨error, by rw [readTextWindow, failed]; rfl, same⟩
  · refine .inr ⟨_, filled, by rw [readTextWindow, returned]; rfl, same, ?_⟩
    exact {
      content := by rw [String.toList_ofList]; exact describes.content
      lineCount := describes.lineCount
      endLine := describes.endLine
      untruncated := describes.untruncated
      retained := describes.retained }

end Turns

end Atelia.Tools
