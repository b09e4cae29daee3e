import Atelia.Tools.WindowText

/-! The line diff of two texts. -/

namespace Atelia.Tools

section Rendering

/-- `str::lines`. -/
def lines (text : String) : List (List Char) :=
  (textChunks text.toList).map stripBreak

/-- One turn of the loop. -/
def pushDiff (leftLines rightLines : List (List Char)) (output : List Char) (index : Nat) :
    List Char :=
  match leftLines[index]?, rightLines[index]? with
  | some leftLine, some rightLine =>
    if leftLine = rightLine then output ++ [' '] ++ leftLine ++ ['\n']
    else output ++ ['-'] ++ leftLine ++ ['\n'] ++ ['+'] ++ rightLine ++ ['\n']
  | some leftLine, none => output ++ ['-'] ++ leftLine ++ ['\n']
  | none, some rightLine => output ++ ['+'] ++ rightLine ++ ['\n']
  | none, none => output

def diffHeader (leftPath rightPath : String) : List Char :=
  s!"--- {leftPath}\n+++ {rightPath}\n".toList

def renderLineDiff (leftPath rightPath left right : String) : List Char :=
  if left = right then []
  else
    let leftLines := lines left
    let rightLines := lines right
    (List.range (max leftLines.length rightLines.length)).foldl (pushDiff leftLines rightLines)
      (diffHeader leftPath rightPath)

end Rendering

section Reading

/-- The lines of an output in which every line ends with a line feed. -/
def outputLines (output : List Char) : List (List Char) :=
  (output.splitOn '\n').dropLast

/-- The lines that start with a blank or with the marker, without it. -/
def markedWith (marker : Char) (shown : List (List Char)) : List (List Char) :=
  shown.filterMap fun
    | [] => none
    | mark :: line => if mark = ' ' ∨ mark = marker then some line else none

/-- A line that shows a change. -/
def isChange (line : List Char) : Bool :=
  line.head? = some '-' || line.head? = some '+'

/-- The two lines of the header, for paths without a line feed. -/
def headerLines (leftPath rightPath : String) : List (List Char) :=
  [("--- " ++ leftPath).toList, ("+++ " ++ rightPath).toList]

/-- The output is empty for equal texts only. For others it shows a change after its
header, and both texts can be read from it line by line. -/
structure ShowsEveryChange (leftPath rightPath left right : String) : Prop where
  empty : renderLineDiff leftPath rightPath left right = [] ↔ left = right
  body : left ≠ right → ∃ body,
    renderLineDiff leftPath rightPath left right = diffHeader leftPath rightPath ++ body ∧
    (∃ line ∈ outputLines body, isChange line = true) ∧
    markedWith '-' (outputLines body) = lines left ∧
    markedWith '+' (outputLines body) = lines right ∧
    ('\n' ∉ leftPath.toList → '\n' ∉ rightPath.toList →
      outputLines (renderLineDiff leftPath rightPath left right) =
        headerLines leftPath rightPath ++ outputLines body)

end Reading

section Lines

variable {leftLines rightLines : List (List Char)}

/-- The marked lines, by recursion on both texts. -/
def diffLines : List (List Char) → List (List Char) → List (List Char)
  | leftLine :: leftRest, rightLine :: rightRest =>
    if leftLine = rightLine then (' ' :: leftLine) :: diffLines leftRest rightRest
    else ('-' :: leftLine) :: ('+' :: rightLine) :: diffLines leftRest rightRest
  | leftLine :: leftRest, [] => ('-' :: leftLine) :: diffLines leftRest []
  | [], rightLine :: rightRest => ('+' :: rightLine) :: diffLines [] rightRest
  | [], [] => []

/-- Lines written one after the other. -/
def written (shown : List (List Char)) : List Char :=
  shown.flatMap (· ++ ['\n'])

theorem pushDiff_succ (leftLines rightLines : List (List Char)) (output : List Char) (index : Nat) :
    pushDiff leftLines rightLines output (index + 1) =
      pushDiff leftLines.tail rightLines.tail output index := by
  simp only [pushDiff, List.getElem?_tail]

theorem foldl_pushDiff_succ (count : Nat) (output : List Char) :
    (List.range (count + 1)).foldl (pushDiff leftLines rightLines) output =
      (List.range count).foldl (pushDiff leftLines.tail rightLines.tail)
        (pushDiff leftLines rightLines output 0) := by
  rw [List.range_succ_eq_map, List.foldl_cons, List.foldl_map]
  simp only [Nat.succ_eq_add_one, pushDiff_succ]

/-- The turns of the loop write the marked lines. -/
theorem foldl_pushDiff (leftLines rightLines : List (List Char)) (output : List Char) :
    (List.range (max leftLines.length rightLines.length)).foldl
      (pushDiff leftLines rightLines) output =
        output ++ written (diffLines leftLines rightLines) := by
  induction leftLines, rightLines using diffLines.induct generalizing output with
  | case1 leftRest rightLine rightRest ih =>
    rw [List.length_cons, List.length_cons, Nat.add_max_add_right, foldl_pushDiff_succ,
      List.tail_cons, List.tail_cons, ih]
    simp [pushDiff, diffLines, written]
  | case2 leftLine leftRest rightLine rightRest different ih =>
    rw [List.length_cons, List.length_cons, Nat.add_max_add_right, foldl_pushDiff_succ,
      List.tail_cons, List.tail_cons, ih]
    simp [pushDiff, diffLines, different, written]
  | case3 leftLine leftRest ih =>
    rw [List.length_cons, List.length_nil, Nat.max_zero, foldl_pushDiff_succ, List.tail_cons,
      List.tail_nil, ← Nat.max_zero leftRest.length, ← List.length_nil, ih]
    simp [pushDiff, diffLines, written]
  | case4 rightLine rightRest ih =>
    rw [List.length_cons, List.length_nil, Nat.zero_max, foldl_pushDiff_succ, List.tail_cons,
      List.tail_nil, ← Nat.zero_max rightRest.length, ← List.length_nil, ih]
    simp [pushDiff, diffLines, written]
  | case5 => simp [diffLines, written]

/-- Marked lines have no line feed of their own. -/
theorem newline_not_mem_diffLines (left : ∀ line ∈ leftLines, '\n' ∉ line)
    (right : ∀ line ∈ rightLines, '\n' ∉ line) :
    ∀ line ∈ diffLines leftLines rightLines, '\n' ∉ line := by
  induction leftLines, rightLines using diffLines.induct with
  | case1 leftRest rightLine rightRest ih => simp_all [diffLines]
  | case2 leftLine leftRest rightLine rightRest different ih => simp_all [diffLines]
  | case3 leftLine leftRest ih => simp_all [diffLines]
  | case4 rightLine rightRest ih => simp_all [diffLines]
  | case5 => simp [diffLines]

theorem outputLines_written {shown : List (List Char)} (unbroken : ∀ line ∈ shown, '\n' ∉ line) :
    outputLines (written shown) = shown := by
  induction shown with
  | nil => rfl
  | cons line rest ih =>
    have here := unbroken line List.mem_cons_self
    have onward := ih fun other among => unbroken other (List.mem_cons_of_mem line among)
    have first : (written (line :: rest)).splitOn '\n' = line :: (written rest).splitOn '\n' := by
      rw [written, List.flatMap_cons, List.append_assoc]
      exact List.splitOn_append_cons_self_of_not_mem here _
    rw [outputLines, first, List.dropLast_cons_of_ne_nil (List.splitOn_ne_nil _ _)]
    exact congrArg _ onward

theorem markedWith_left (leftLines rightLines : List (List Char)) :
    markedWith '-' (diffLines leftLines rightLines) = leftLines := by
  induction leftLines, rightLines using diffLines.induct with
  | case2 leftLine leftRest rightLine rightRest different ih =>
    simpa [diffLines, different, markedWith] using ih
  | _ => simp_all [diffLines, markedWith]

theorem markedWith_right (leftLines rightLines : List (List Char)) :
    markedWith '+' (diffLines leftLines rightLines) = rightLines := by
  induction leftLines, rightLines using diffLines.induct with
  | case2 leftLine leftRest rightLine rightRest different ih =>
    simpa [diffLines, different, markedWith] using ih
  | _ => simp_all [diffLines, markedWith]

/-- No line shows a change exactly where the texts have the same lines. -/
theorem isChange_diffLines (leftLines rightLines : List (List Char)) :
    (∃ line ∈ diffLines leftLines rightLines, isChange line = true) ↔
      leftLines ≠ rightLines := by
  induction leftLines, rightLines using diffLines.induct with
  | case1 leftRest rightLine rightRest ih => simpa [diffLines, isChange] using ih
  | case2 leftLine leftRest rightLine rightRest different ih =>
    simp [diffLines, isChange, different]
  | case3 leftLine leftRest ih => simp [diffLines, isChange]
  | case4 rightLine rightRest ih => simp [diffLines, isChange]
  | case5 => simp [diffLines]

end Lines

section Changes

variable {leftPath rightPath left right : String}

theorem newline_not_mem_lines (text : String) : ∀ line ∈ lines text, '\n' ∉ line := by
  intro line member
  obtain ⟨chunk, present, rfl⟩ := List.mem_map.mp member
  exact newline_not_mem_stripBreak (newline_not_mem_dropLast present)

theorem renderLineDiff_of_ne (different : left ≠ right) :
    renderLineDiff leftPath rightPath left right =
      diffHeader leftPath rightPath ++ written (diffLines (lines left) (lines right)) := by
  rw [renderLineDiff, if_neg different]
  exact foldl_pushDiff ..

theorem outputLines_diff (left right : String) :
    outputLines (written (diffLines (lines left) (lines right))) =
      diffLines (lines left) (lines right) :=
  outputLines_written
    (newline_not_mem_diffLines (newline_not_mem_lines left) (newline_not_mem_lines right))

/-- The header stands on two lines of its own when the paths have no line feed. -/
theorem outputLines_renderLineDiff (different : left ≠ right) (leftPlain : '\n' ∉ leftPath.toList)
    (rightPlain : '\n' ∉ rightPath.toList) :
    outputLines (renderLineDiff leftPath rightPath left right) =
      headerLines leftPath rightPath ++ diffLines (lines left) (lines right) := by
  have header : diffHeader leftPath rightPath = written (headerLines leftPath rightPath) := by
    simp [diffHeader, headerLines, written, toString]
  rw [renderLineDiff_of_ne different, header, written, written, ← List.flatMap_append]
  refine outputLines_written (List.forall_mem_append.mpr ⟨?_,
    newline_not_mem_diffLines (newline_not_mem_lines left) (newline_not_mem_lines right)⟩)
  simp [headerLines, leftPlain, rightPlain]

theorem renderLineDiff_eq_nil : renderLineDiff leftPath rightPath left right = [] ↔ left = right := by
  by_cases same : left = right
  · simp [renderLineDiff, same]
  · have some : diffHeader leftPath rightPath ≠ [] := by simp +decide [diffHeader]
    rw [renderLineDiff_of_ne same]
    simp [same, some]

/-- The diff shows every change of two texts unless they differ in line breaks only. -/
theorem diff_shows_every_change_iff (leftPath rightPath left right : String) :
    ShowsEveryChange leftPath rightPath left right ↔ left = right ∨ lines left ≠ lines right := by
  constructor
  · intro shows
    by_cases same : left = right
    · exact .inl same
    · obtain ⟨body, rendered, changed, -⟩ := shows.body same
      rw [renderLineDiff_of_ne same] at rendered
      rw [← List.append_cancel_left rendered, outputLines_diff, isChange_diffLines] at changed
      exact .inr changed
  · intro visible
    refine ⟨renderLineDiff_eq_nil, fun different => ?_⟩
    have changed := visible.resolve_left different
    refine ⟨_, renderLineDiff_of_ne different, ?_⟩
    rw [outputLines_diff]
    exact ⟨(isChange_diffLines _ _).mpr changed, markedWith_left _ _, markedWith_right _ _,
      outputLines_renderLineDiff different⟩

/-- A missing line feed at the end of a file is not shown. -/
theorem final_line_break_not_shown : ¬ ShowsEveryChange "left.txt" "right.txt" "value" "value\n" := by
  intro shows
  obtain ⟨body, rendered, changed, -⟩ := shows.body (by decide)
  have shown : body = " value\n".toList := by
    refine (List.append_cancel_left (Eq.trans ?_ rendered)).symm
    decide
  subst shown
  revert changed
  decide

end Changes

end Atelia.Tools
