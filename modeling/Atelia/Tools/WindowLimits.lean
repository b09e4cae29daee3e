import Atelia.Tools.WindowRefinement

/-! The limits of a window. -/

namespace Atelia.Tools

open Excerpt Text

variable {request : WindowRequest} {done whole more : List (List Char)} {line : List Char}
  {lines rest : List (Except ReadError (List Char))} {filled : Filled}

section Growth

theorem pasted_prefix_opening (done : List (List Char)) : pasted done <+: opening done := by
  rw [opening]
  split
  · rename_i empty
    rw [empty]
  · exact List.prefix_append _ _

/-- Content only grows. -/
theorem pasted_prefix (done more : List (List Char)) : pasted done <+: pasted (done ++ more) := by
  induction more using List.reverseRecOn with
  | nil => simp
  | append_singleton more line ih =>
    rw [← List.append_assoc, pasted_concat]
    exact ih.trans ((pasted_prefix_opening _).trans (List.prefix_append _ _))

theorem opening_prefix (done : List (List Char)) (line : List Char) (more : List (List Char)) :
    opening done ++ line <+: pasted (done ++ line :: more) := by
  rw [← pasted_concat]
  have longer := pasted_prefix (done ++ [line]) more
  rwa [List.append_assoc, List.singleton_append] at longer

theorem exceeds_some {limit count : Nat} : exceeds (some limit) count = false ↔ count ≤ limit := by
  rw [exceeds, Option.any_some, decide_eq_false_iff_not, Nat.not_lt]

theorem exceeds_mono {limit : Option Nat} {less count : Nat} (fewer : less ≤ count)
    (within : exceeds limit count = false) : exceeds limit less = false := by
  cases limit with
  | none => rfl
  | some limit =>
    rw [exceeds_some] at within ⊢
    omega

/-- The line after these is reached and fits whole. -/
def Passed (request : WindowRequest) (done : List (List Char)) (line : List Char) : Prop :=
  Checked request done ∧ Admits request done ∧
    ¬ request.maxChars < (opening done ++ line).length ∧
    exceeds request.maxBytes (bytes (opening done ++ line)) = false

/-- The lines before one that is reached were reached themselves and fit whole. -/
theorem checked_before (checked : Checked request (done ++ line :: more)) :
    Passed request done line := by
  obtain ⟨fewer, chars, within⟩ := checked.resolve_left (by simp)
  have longer := opening_prefix done line more
  have opened : opening done <+: pasted (done ++ line :: more) :=
    (List.prefix_append _ _).trans longer
  have held := pasted_prefix done (line :: more)
  have length := longer.length_le
  have openedLength := opened.length_le
  rw [List.length_append, List.length_cons] at fewer
  refine ⟨.inr ⟨by omega, held.length_le.trans_lt chars, ?_⟩, ⟨openedLength.trans_lt chars, ?_⟩,
    by omega, ?_⟩
  · exact exceeds_mono (Nat.succ_le_succ (bytes_le_of_isPrefix held)) within
  · exact exceeds_mono ((bytes_le_of_isPrefix opened).trans (Nat.le_succ _)) within
  · exact exceeds_mono ((bytes_le_of_isPrefix longer).trans (Nat.le_succ _)) within

end Growth

section Fillings

/-- Lines that are passed on the way to one that is reached are held whole. -/
theorem fill_whole (checked : Checked request (done ++ more))
    (rest : List (Except ReadError (List Char))) :
    fill request done (more.map .ok ++ rest) = fill request (done ++ more) rest := by
  induction more generalizing done with
  | nil => simp
  | cons line more ih =>
    obtain ⟨here, admits, short, within⟩ := checked_before checked
    rw [List.map_cons, List.cons_append, fill, if_pos here, if_pos admits, if_neg short,
      if_neg (Bool.eq_false_iff.mp within), ih (by rwa [List.append_assoc, List.singleton_append]),
      List.append_assoc, List.singleton_append]

/-- How a filling ends on the lines that follow those it holds. -/
def Ended (request : WindowRequest) (whole : List (List Char))
    (rest : List (Except ReadError (List Char))) : FillEnding → Prop
  | .complete => rest = []
  | .full => ¬ Checked request whole ∨ ¬ Admits request whole
  | .cutByChars line => (∃ later, rest = .ok line :: later) ∧ Checked request whole ∧
      Admits request whole ∧ request.maxChars < (opening whole ++ line).length
  | .cutByBytes line => (∃ later, rest = .ok line :: later) ∧ Checked request whole ∧
      Admits request whole ∧ ¬ request.maxChars < (opening whole ++ line).length ∧
      exceeds request.maxBytes (bytes (opening whole ++ line)) = true

/-- Lines held whole respect the limits; the first one is not checked against the number of
lines. -/
structure Held (request : WindowRequest) (whole : List (List Char)) : Prop where
  chars : (pasted whole).length ≤ request.maxChars
  bytes : exceeds request.maxBytes (bytes (pasted whole)) = false
  lines : whole.length ≤ max request.maxLines 1
  passed : ∀ first line others, whole = first ++ line :: others → Passed request first line

theorem held_nil (request : WindowRequest) : Held request [] where
  chars := Nat.zero_le _
  bytes := by cases request.maxBytes <;> simp [exceeds]
  lines := Nat.zero_le _
  passed _ _ _ same := absurd same (by simp)

theorem Held.concat (held : Held request done) (fits : Passed request done line) :
    Held request (done ++ [line]) := by
  have ⟨checked, _, short, within⟩ := fits
  refine ⟨?_, by rwa [pasted_concat], ?_, ?_⟩
  · rw [pasted_concat]
    exact Nat.not_lt.mp short
  · rw [List.length_append, List.length_singleton]
    rcases checked with rfl | ⟨fewer, _⟩
    · exact Nat.le_max_right _ _
    · exact (Nat.succ_le_of_lt fewer).trans (Nat.le_max_left _ _)
  · intro first other others same
    rcases List.eq_nil_or_concat' others with rfl | ⟨others, last, rfl⟩
    · obtain ⟨rfl, last⟩ := List.append_inj' same rfl
      cases last
      exact fits
    · rw [← List.cons_append, ← List.append_assoc] at same
      exact held.passed first other others (List.append_inj' same rfl).1

theorem fill_cases (held : Held request done) (filling : fill request done lines = .ok filled) :
    ∃ more rest, filled.whole = done ++ more ∧ lines = more.map .ok ++ rest ∧
      Held request filled.whole ∧ Ended request filled.whole rest filled.ending := by
  induction lines generalizing done with
  | nil =>
    cases filling
    exact ⟨[], [], by simp, rfl, held, rfl⟩
  | cons line lines ih =>
    by_cases checked : Checked request done
    · cases line with
      | error error => simp [fill, checked] at filling
      | ok line =>
        rw [fill, if_pos checked] at filling
        by_cases admits : Admits request done
        · rw [if_pos admits] at filling
          split_ifs at filling with long exceeding
          · cases filling
            exact ⟨[], _, by simp, rfl, held, ⟨lines, rfl⟩, checked, admits, long⟩
          · cases filling
            exact ⟨[], _, by simp, rfl, held, ⟨lines, rfl⟩, checked, admits, long, exceeding⟩
          · have heldLine := held.concat
              ⟨checked, admits, long, Bool.eq_false_of_not_eq_true exceeding⟩
            obtain ⟨more, rest, same, rfl, held, ended⟩ := ih heldLine filling
            exact ⟨line :: more, rest, by rw [same]; simp, rfl, held, ended⟩
        · rw [if_neg admits] at filling
          cases filling
          exact ⟨[], _, by simp, rfl, held, .inr admits⟩
    · rw [fill_of_unchecked checked, if_neg (List.cons_ne_nil _ _)] at filling
      cases filling
      exact ⟨[], _, by simp, rfl, held, .inl checked⟩

end Fillings

section Limits

/-- Something of a line is kept after lines held whole. -/
def Kept (request : WindowRequest) (whole : List (List Char)) (line : List Char) : Prop :=
  request.maxChars < (opening whole ++ line).length ∨
    exceeds request.maxBytes (bytes (opening whole ++ line)) = false ∨
    takeBytes (request.maxBytes.getD 0) (opening whole ++ line) ≠ opening whole

/-- The window respects every limit, and shows nothing beyond the bytes that may be
scanned. -/
structure WithinLimits (request : WindowRequest) (file : List UInt8) (window : ReadWindow) :
    Prop where
  chars : window.content.toList.length ≤ request.maxChars
  bytes : ∀ limit, request.maxBytes = some limit → byteLength window.content ≤ limit
  lines : window.lineCount ≤ request.maxLines
  scanned : ∀ other otherWindow,
    other.take request.maxScanBytes = file.take request.maxScanBytes →
    readTextWindow request other = .ok otherWindow →
      otherWindow.content = window.content ∧ otherWindow.lineCount = window.lineCount

/-- If no line may be shown, nothing of the first line is kept. -/
def NoFirstLine (request : WindowRequest) (file : List UInt8) : Prop :=
  request.maxLines = 0 → ∀ line rest, windowLines request file = .ok line :: rest →
    Admits request [] → ¬ Kept request [] line

/-- A line that exceeds the character limit fits the byte limit when it is cut to the
character limit. -/
def CharCutFits (request : WindowRequest) (file : List UInt8) : Prop :=
  ∀ whole line rest, windowLines request file = whole.map .ok ++ .ok line :: rest →
    Checked request whole → Admits request whole →
    request.maxChars < (opening whole ++ line).length →
      exceeds request.maxBytes (bytes ((opening whole ++ line).take request.maxChars)) = false

theorem content_chars (filling : fill request [] lines = .ok filled) :
    (filled.content request).length ≤ request.maxChars := by
  obtain ⟨more, rest, _, _, held, ended⟩ := fill_cases (held_nil request) filling
  obtain ⟨whole, ending⟩ := filled
  cases ending with
  | complete | full => exact held.chars
  | cutByChars line => exact List.length_take_le _ _
  | cutByBytes line =>
    have short := (takeBytes_isPrefix (request.maxBytes.getD 0) (opening whole ++ line)).length_le
    exact short.trans (Nat.not_lt.mp ended.2.2.2.1)

theorem fill_cutByChars (same : lines = whole.map .ok ++ .ok line :: rest)
    (checked : Checked request whole) (admits : Admits request whole)
    (long : request.maxChars < (opening whole ++ line).length) :
    fill request [] lines = .ok ⟨whole, .cutByChars line⟩ := by
  rw [same, @fill_whole request [] whole checked, List.nil_append, fill, if_pos checked, if_pos admits,
    if_pos long]

/-- Only a line that is cut to the character limit can exceed the byte limit. -/
theorem content_bytes_iff {file : List UInt8}
    (filling : fill request [] (windowLines request file) = .ok filled) :
    exceeds request.maxBytes (bytes (filled.content request)) = false ↔ CharCutFits request file := by
  constructor
  · intro within whole line rest same checked admits long
    rw [fill_cutByChars same checked admits long] at filling
    cases filling
    exact within
  · intro fits
    obtain ⟨more, rest, same, lines, held, ended⟩ := fill_cases (held_nil request) filling
    obtain ⟨whole, ending⟩ := filled
    obtain rfl : whole = more := same
    cases ending with
    | complete | full => exact held.bytes
    | cutByChars line =>
      obtain ⟨⟨later, rfl⟩, checked, admits, long⟩ := ended
      exact fits whole line later lines checked admits long
    | cutByBytes line =>
      cases limited : request.maxBytes with
      | none => rfl
      | some limit =>
        rw [exceeds_some, Filled.content, limited]
        exact bytes_takeBytes_le limit (opening whole ++ line)

/-- At most one line more than allowed is counted, and only where none is allowed. -/
theorem lineCount_le (filling : fill request [] lines = .ok filled) :
    filled.lineCount request ≤ max request.maxLines 1 := by
  obtain ⟨more, rest, _, _, held, ended⟩ := fill_cases (held_nil request) filling
  obtain ⟨whole, ending⟩ := filled
  have another (checked : Checked request whole) : whole.length + 1 ≤ max request.maxLines 1 := by
    rcases checked with rfl | ⟨fewer, _⟩
    · exact Nat.le_max_right _ _
    · exact (Nat.succ_le_of_lt fewer).trans (Nat.le_max_left _ _)
  cases ending with
  | complete | full => exact held.lines
  | cutByChars line => exact another ended.2.1
  | cutByBytes line =>
    have := another ended.2.1
    rw [Filled.lineCount]
    split <;> omega

/-- Where no line is allowed, one is counted exactly when something of the first is kept. -/
theorem lineCount_eq_zero_iff (none : request.maxLines = 0)
    (filling : fill request [] lines = .ok filled) :
    filled.lineCount request = 0 ↔ ∀ line rest, lines = .ok line :: rest → Admits request [] →
      ¬ Kept request [] line := by
  cases lines with
  | nil =>
    cases filling
    simp [Filled.lineCount]
  | cons first rest =>
    have checked : Checked request [] := .inl rfl
    cases first with
    | error error => simp [fill, checked] at filling
    | ok line =>
      rw [fill, if_pos checked] at filling
      have second : ¬ Checked request [line] := by
        rintro (absent | ⟨fewer, _⟩)
        · cases absent
        · simp [none] at fewer
      constructor
      · intro zero line' rest' same admits kept
        cases same
        rw [if_pos admits] at filling
        split_ifs at filling with long exceeding
        · cases filling
          cases zero
        · cases filling
          rcases kept with long' | within | some
          · exact long long'
          · exact absurd (exceeding.symm.trans within) (by decide)
          · rw [Filled.lineCount, if_neg some] at zero
            cases zero
        · rw [List.nil_append, fill_of_unchecked second] at filling
          cases filling
          split_ifs at zero <;> cases zero
      · intro unkept
        by_cases admits : Admits request []
        · have refused := unkept line rest rfl admits
          simp only [Kept, not_or, Bool.not_eq_false, not_not] at refused
          rw [if_pos admits, if_neg refused.1, if_pos refused.2.1] at filling
          cases filling
          rw [Filled.lineCount, if_pos refused.2.2]
          rfl
        · rw [if_neg admits] at filling
          cases filling
          rfl

theorem lineCount_le_iff {file : List UInt8}
    (filling : fill request [] (windowLines request file) = .ok filled) :
    filled.lineCount request ≤ request.maxLines ↔ NoFirstLine request file := by
  have bound := lineCount_le filling
  by_cases none : request.maxLines = 0
  · have zero := lineCount_eq_zero_iff none filling
    rw [none, Nat.le_zero, zero, NoFirstLine]
    exact ⟨fun unkept _ => unkept, fun unkept => unkept none⟩
  · have some := Nat.pos_of_ne_zero none
    rw [Nat.max_eq_left some] at bound
    exact ⟨fun _ absent => absurd absent none, fun _ => bound⟩

end Limits

section Scan

/-- Lines that both windows could decode are the same. -/
def Agrees (first second : Except ReadError (List Char)) : Prop :=
  ∀ line line', first = .ok line → second = .ok line' → line = line'

theorem decodeLine_agrees (lineBytes : List UInt8) (cut cut' : Bool) :
    Agrees (decodeLine lineBytes cut) (decodeLine lineBytes cut') := by
  intro line line' one two
  rw [decodeLine] at one two
  split at one
  · cases one
  · rename_i text
    rw [if_neg text] at two
    simp only at one two
    split at one <;> rename_i ending <;> rw [ending] at two <;> simp only at two
    · cases one
      cases two
      rfl
    · cases one
    · split_ifs at one two
      all_goals
        cases one
        cases two
        rfl

theorem renderLines_agree (request : WindowRequest) (more more' : Bool) (number : Nat)
    (chunks : List (List UInt8)) :
    List.Forall₂ Agrees (renderLines request more number chunks)
      (renderLines request more' number chunks) := by
  induction chunks generalizing number with
  | nil => exact .nil
  | cons chunk chunks ih =>
    refine .cons ?_ (ih (number + 1))
    intro line line' one two
    have agree := decodeLine_agrees (stripLineBreak chunk).1 (more && chunk.getLast? ≠ some 10)
      (more' && chunk.getLast? ≠ some 10)
    rw [renderLine] at one two
    cases decoded : decodeLine (stripLineBreak chunk).1 (more && chunk.getLast? ≠ some 10) with
    | error error =>
      rw [decoded] at one
      cases one
    | ok text =>
      cases decoded' : decodeLine (stripLineBreak chunk).1 (more' && chunk.getLast? ≠ some 10) with
      | error error =>
        rw [decoded'] at two
        cases two
      | ok text' =>
        rw [decoded] at one
        rw [decoded'] at two
        cases one
        cases two
        rw [agree text text' decoded decoded']

theorem fill_agrees {lines' : List (Except ReadError (List Char))} {filled' : Filled}
    (agree : List.Forall₂ Agrees lines lines') (one : fill request done lines = .ok filled)
    (two : fill request done lines' = .ok filled') : filled = filled' := by
  induction agree generalizing done with
  | nil => exact Except.ok.inj (one.symm.trans two)
  | @cons first second _ _ same _ ih =>
    by_cases checked : Checked request done
    · cases first with
      | error error => simp [fill, checked] at one
      | ok line =>
        cases second with
        | error error => simp [fill, checked] at two
        | ok line' =>
          obtain rfl := same line line' rfl rfl
          rw [fill, if_pos checked] at one two
          split_ifs at one two
          · exact Except.ok.inj (one.symm.trans two)
          · exact Except.ok.inj (one.symm.trans two)
          · exact ih one two
          · exact Except.ok.inj (one.symm.trans two)
    · rw [fill_of_unchecked checked, if_neg (List.cons_ne_nil _ _)] at one two
      exact Except.ok.inj (one.symm.trans two)

/-- What is shown depends on the scanned bytes only. -/
theorem readTextWindow_scanned {file other : List UInt8} {window otherWindow : ReadWindow}
    (same : other.take request.maxScanBytes = file.take request.maxScanBytes)
    (returned : readTextWindow request file = .ok window)
    (otherReturned : readTextWindow request other = .ok otherWindow) :
    otherWindow.content = window.content ∧ otherWindow.lineCount = window.lineCount := by
  rcases readTextWindow_fill request file with ⟨error, failed, _⟩ | ⟨shown, filled, one, filling, shows⟩
  · rw [failed] at returned
    cases returned
  rcases readTextWindow_fill request other with ⟨error, failed, _⟩ |
    ⟨shown', filled', two, filling', shows'⟩
  · rw [failed] at otherReturned
    cases otherReturned
  cases one.symm.trans returned
  cases two.symm.trans otherReturned
  have agree : List.Forall₂ Agrees (windowLines request other) (windowLines request file) := by
    rw [windowLines, windowLines, same]
    exact List.forall₂_drop _ (renderLines_agree request _ _ 1 _)
  obtain rfl := fill_agrees agree filling' filling
  refine ⟨String.toList_inj.mp ?_, ?_⟩
  · rw [shows.content, shows'.content]
  · rw [shows.lineCount, shows'.lineCount]

end Scan

/-- The window respects every limit exactly when nothing is shown where no line may be, and
the cut at the character limit stays within the byte limit. -/
theorem window_within_limits_iff (request : WindowRequest) (file : List UInt8) (window : ReadWindow)
    (returned : readTextWindow request file = .ok window) :
    WithinLimits request file window ↔
      NoFirstLine request file ∧ CharCutFits request file := by
  rcases readTextWindow_fill request file with ⟨error, failed, _⟩ | ⟨shown, filled, same, filling, shows⟩
  · rw [failed] at returned
    cases returned
  rw [returned] at same
  cases same
  have count := lineCount_le_iff filling
  have bytesIff := content_bytes_iff filling
  rw [← shows.lineCount] at count
  rw [← shows.content] at bytesIff
  rw [← count, ← bytesIff]
  constructor
  · intro within
    refine ⟨within.lines, ?_⟩
    cases limited : request.maxBytes with
    | none => rfl
    | some limit => exact exceeds_some.mpr (within.bytes limit limited)
  · rintro ⟨lines, within⟩
    refine ⟨?_, ?_, lines, fun other otherWindow same => readTextWindow_scanned same returned⟩
    · rw [shows.content]
      exact content_chars filling
    · intro limit limited
      rw [limited] at within
      exact exceeds_some.mp within

/-- Two lines of three, the second cut at six characters that take the seven bytes. -/
theorem two_lines_within_limits :
    WithinLimits { maxLines := 2, maxChars := 6, maxBytes := some 7 }
      (Utf8.encode "ab\ncdéf\ngh\n".toList) ⟨"ab\ncdé", 2, 2, 7, false, true, false, false⟩ := by
  refine (window_within_limits_iff _ _ _ (by decide +kernel)).mpr
    ⟨fun none => absurd none (by decide), ?_⟩
  have lines : windowLines { maxLines := 2, maxChars := 6, maxBytes := some 7 }
      (Utf8.encode "ab\ncdéf\ngh\n".toList) =
        ["ab".toList, "cdéf".toList, "gh".toList].map .ok := by decide +kernel
  intro whole line rest same _ _ _
  rw [lines] at same
  obtain ⟨first, later, split, held, others⟩ := List.map_eq_append_iff.mp same
  obtain ⟨next, more, rfl, named, _⟩ := List.map_eq_cons_iff.mp others
  obtain rfl := Except.ok.inj named
  obtain rfl := List.map_injective_iff.mpr (fun _ _ => Except.ok.inj) held
  have shown := (split ▸ opening_prefix first next more).take 6
  exact exceeds_some.mpr ((bytes_le_of_isPrefix shown).trans (by decide))

/-- A line of four bytes, of which three characters and two bytes may be shown, is shown with
three bytes; and a line is shown where none may be. -/
theorem limits_exceeded :
    (∃ window, readTextWindow { maxLines := 1, maxChars := 3, maxBytes := some 2 }
        (Utf8.encode "abcd".toList) = .ok window ∧ window.content = "abc" ∧
        ¬ WithinLimits { maxLines := 1, maxChars := 3, maxBytes := some 2 }
          (Utf8.encode "abcd".toList) window) ∧
      ∃ window, readTextWindow { maxLines := 0, maxChars := 80 } (Utf8.encode "abcd".toList) =
        .ok window ∧ window.lineCount = 1 ∧
        ¬ WithinLimits { maxLines := 0, maxChars := 80 } (Utf8.encode "abcd".toList) window := by
  constructor
  · refine ⟨⟨"abc", 1, 1, 3, false, true, false, false⟩, by decide +kernel, rfl, fun within => ?_⟩
    exact absurd (within.bytes 2 rfl) (by decide)
  · refine ⟨⟨"abcd", 1, 1, 4, false, false, false, false⟩, by decide +kernel, rfl, fun within => ?_⟩
    exact absurd within.lines (by decide)

end Atelia.Tools
