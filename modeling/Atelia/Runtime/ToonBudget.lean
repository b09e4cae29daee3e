import Atelia.Runtime.ToonBody

/-! The line budget of TOON rendering. -/

namespace Atelia.ToolOutput

variable {rendered : ToolResult} {policy : ToolOutputRenderPolicy} {part : ToonSection}

section Marks

/-- The characters that tell the lines of a body apart. -/
def mark (line : String) : List Char :=
  line.toList.take 3

/-- A section is empty, or a line that begins with its label and indented rows. -/
structure Shaped (part : ToonSection) (header : String) (rows : List String) : Prop where
  lines : part.lines = header :: rows
  some : rows ≠ []
  marked : mark header = mark part.label
  indented : ∀ row ∈ rows, row.toList.head? = .some ' '

theorem mem_toonSections (member : part ∈ toonSections rendered) :
    part = ⟨"fields", rendered.fields.length, buildFieldsSection rendered.fields⟩ ∨
    part = ⟨"evidence_refs", rendered.evidenceRefs.length,
      buildArtifactRefsSection "evidence_refs" rendered.evidenceRefs⟩ ∨
    part = ⟨"output_refs", rendered.outputRefs.length,
      buildOutputRefsSection rendered.outputRefs⟩ ∨
    (∃ truncation, rendered.truncation = some truncation ∧
      part = ⟨"truncation", 1, buildTruncationSection truncation⟩) ∨
    part = ⟨"redactions", rendered.redactions.length,
      buildRedactionsSection rendered.redactions⟩ := by
  simp only [toonSections, List.mem_append, List.mem_cons, List.not_mem_nil, or_false,
    List.mem_map, Option.mem_toList] at member
  rcases member with ((member | member | member) | ⟨truncation, present, rfl⟩) | member
  · exact .inl member
  · exact .inr (.inl member)
  · exact .inr (.inr (.inl member))
  · exact .inr (.inr (.inr (.inl ⟨truncation, present, rfl⟩)))
  · exact .inr (.inr (.inr (.inr member)))

theorem refs_shaped {label : String} {count : Nat} (long : 3 ≤ label.toList.length)
    {rows : List (String × String × String × Option String × Option String)}
    (some : buildRefsSection label rows ≠ []) :
    ∃ header lines, Shaped ⟨label, count, buildRefsSection label rows⟩ header lines := by
  simp only [buildRefsSection] at some ⊢
  split at some
  · exact absurd rfl some
  · rename_i present
    refine ⟨_, _, by rw [if_neg present], by simpa using present, ?_, ?_⟩
    · simp [mark, toString_text, List.take_append_of_le_length long]
    · rintro line member
      obtain ⟨row, _, rfl⟩ := List.mem_map.mp member
      simp [toString_text]

theorem sections_shaped (rendered : ToolResult) :
    ∀ part ∈ toonSections rendered, part.lines ≠ [] → ∃ header rows, Shaped part header rows := by
  intro part member some
  rcases mem_toonSections member with rfl | rfl | rfl | ⟨truncation, _, rfl⟩ | rfl
  · simp only [buildFieldsSection] at some ⊢
    split at some
    · exact absurd rfl some
    · rename_i fields
      refine ⟨_, _, by rw [if_neg fields], by simpa using fields, ?_, ?_⟩
      · simp [mark, toString_text]
      · simp [toString_text]
  · exact refs_shaped (by decide) some
  · exact refs_shaped (by decide) some
  · refine ⟨_, _, rfl, List.cons_ne_nil _ _, rfl, ?_⟩
    simp [toString_text]
  · simp only [buildRedactionsSection] at some ⊢
    split at some
    · exact absurd rfl some
    · rename_i redactions
      refine ⟨_, _, by rw [if_neg redactions], by simpa using redactions, ?_, ?_⟩
      · simp [mark, toString_text]
      · simp [toString_text]

theorem sections_nodup (rendered : ToolResult) :
    ((toonSections rendered).map fun part => mark part.label).Nodup := by
  cases truncated : rendered.truncation with
  | none =>
    have labels : (toonSections rendered).map (fun part => mark part.label) =
        [mark "fields", mark "evidence_refs", mark "output_refs", mark "redactions"] := by
      rw [toonSections, truncated]
      rfl
    rw [labels]
    decide
  | some truncation =>
    have labels : (toonSections rendered).map (fun part => mark part.label) =
        [mark "fields", mark "evidence_refs", mark "output_refs", mark "truncation",
          mark "redactions"] := by
      rw [toonSections, truncated]
      rfl
    rw [labels]
    decide

theorem label_marks (member : part ∈ toonSections rendered) :
    mark part.label ∈
      ["fie".toList, "evi".toList, "out".toList, "tru".toList, "red".toList] := by
  rcases mem_toonSections member with rfl | rfl | rfl | ⟨truncation, _, rfl⟩ | rfl <;>
    dsimp only <;> decide

theorem prelude_marked (rendered : ToolResult) :
    ∀ part ∈ toonSections rendered, ∀ line ∈ toonPrelude rendered none,
      mark line ≠ mark part.label := by
  have leads : ∀ line ∈ toonPrelude rendered none, mark line ∈
      ["sta".toList, "sch".toList, "for".toList, "too".toList, "res".toList, "inv".toList] := by
    intro line member
    simp only [toonPrelude, List.append_nil, List.mem_append, List.mem_cons, List.not_mem_nil,
      or_false, List.mem_map] at member
    rcases member with ((rfl | rfl | rfl) | rfl | rfl | rfl) | ⟨schemaRef, _, rfl⟩ <;>
      simp [mark, toString_text]
  have apart : ∀ label ∈ ["fie".toList, "evi".toList, "out".toList, "tru".toList, "red".toList],
      label ∉ ["sta".toList, "sch".toList, "for".toList, "too".toList, "res".toList,
        "inv".toList] := by decide
  intro part member line present same
  exact apart _ (label_marks member) (same ▸ leads line present)

theorem notice_marked (reason : String) (remaining : Nat) :
    ∀ line ∈ buildRenderingTruncationNotice reason remaining, mark line = "ren".toList := by
  intro line member
  rw [buildRenderingTruncationNotice] at member
  split at member
  · rw [List.mem_singleton.mp member]
    simp [mark, toString_text]
  · simp only [List.mem_cons, List.not_mem_nil, or_false] at member
    rcases member with rfl | rfl <;> simp [mark, toString_text]

/-- A row does not look like the beginning of a section. -/
theorem row_unmarked {row : String} (member : part ∈ toonSections rendered)
    (indented : row.toList.head? = some ' ') : mark row ≠ mark part.label := by
  have letters : ∀ label ∈ ["fie".toList, "evi".toList, "out".toList, "tru".toList, "red".toList],
      label.head? ≠ some ' ' := by decide
  intro same
  apply letters _ (label_marks member)
  rw [← same, mark, List.head?_take, if_neg (by decide), indented]

/-- A line whose mark is that of a section stands in that section only. -/
theorem section_of_mark {part' : ToonSection} {line : String}
    (member : part ∈ toonSections rendered) (member' : part' ∈ toonSections rendered)
    (present : line ∈ part'.lines) (marked : mark line = mark part.label) : part' = part := by
  obtain ⟨header, rows, shaped⟩ := sections_shaped rendered part' member'
    (List.ne_nil_of_mem present)
  rw [shaped.lines] at present
  rcases List.mem_cons.mp present with rfl | row
  · exact List.inj_on_of_nodup_map (sections_nodup rendered) member' member
      (shaped.marked.symm.trans marked)
  · exact absurd marked (row_unmarked member (shaped.indented line row))

end Marks

section Sections

variable {limit bodyLines : Nat} {part : ToonSection} {emitted rest sections : List ToonSection}

/-- All that the sections contribute to a body. -/
def linesOf (sections : List ToonSection) : List String :=
  sections.flatMap (·.lines)

@[simp]
theorem linesOf_nil : linesOf [] = [] := rfl

theorem linesOf_cons (part : ToonSection) (sections : List ToonSection) :
    linesOf (part :: sections) = part.lines ++ linesOf sections := rfl

theorem linesOf_append (first second : List ToonSection) :
    linesOf (first ++ second) = linesOf first ++ linesOf second :=
  List.flatMap_append

theorem appendSections_split (some : part.lines ≠ [])
    (fits : bodyLines + (linesOf emitted).length ≤ limit)
    (long : limit < bodyLines + (linesOf emitted).length + part.lines.length) :
    appendSections (.some limit) bodyLines (emitted ++ part :: rest) =
      (linesOf emitted,
        .some (renderingTruncationReason (part :: rest) (.some limit) part.label none)) := by
  induction emitted generalizing bodyLines with
  | nil =>
    rw [linesOf_nil, List.length_nil, Nat.add_zero] at long
    rw [List.nil_append, appendSections, if_neg (by simpa using some), if_pos (by simpa using long)]
    rfl
  | cons first emitted ih =>
    rw [linesOf_cons, List.length_append] at fits long
    rw [List.cons_append, appendSections]
    by_cases empty : first.lines.isEmpty = true
    · rw [List.isEmpty_iff.mp empty, List.length_nil, Nat.zero_add] at fits long
      rw [if_pos empty, ih fits long, linesOf_cons, List.isEmpty_iff.mp empty,
        List.nil_append]
    · have short : ¬ limit < bodyLines + first.lines.length := by omega
      rw [if_neg empty, if_neg (by simpa using short),
        ih (by rw [Nat.add_assoc]; exact fits) (by rw [Nat.add_assoc bodyLines]; exact long),
        linesOf_cons]

/-- Either everything fits, or the sections before the first that does not are emitted. -/
theorem appendSections_cases (fits : bodyLines ≤ limit) (sections : List ToonSection) :
    appendSections (some limit) bodyLines sections = (linesOf sections, none) ∨
      ∃ emitted part rest, sections = emitted ++ part :: rest ∧ part.lines ≠ [] ∧
        bodyLines + (linesOf emitted).length ≤ limit ∧
        limit < bodyLines + (linesOf emitted).length + part.lines.length := by
  induction sections generalizing bodyLines with
  | nil => exact .inl rfl
  | cons first sections ih =>
    rw [appendSections]
    by_cases empty : first.lines.isEmpty = true
    · have none := List.isEmpty_iff.mp empty
      rcases ih fits with all | ⟨emitted, part, rest, rfl, some, short, long⟩
      · refine .inl ?_
        rw [if_pos empty, all, linesOf_cons, none, List.nil_append]
      · refine .inr ⟨first :: emitted, part, rest, rfl, some, ?_⟩
        rw [linesOf_cons, none, List.nil_append]
        exact ⟨short, long⟩
    · by_cases long : limit < bodyLines + first.lines.length
      · exact .inr ⟨[], first, sections, rfl, by simpa using empty, by simpa using fits,
          by simpa using long⟩
      · rcases ih (Nat.not_lt.mp long) with all | ⟨emitted, part, rest, rfl, some, short, beyond⟩
        · refine .inl ?_
          rw [if_neg empty, if_neg (by simpa using long), all, linesOf_cons]
        · refine .inr ⟨first :: emitted, part, rest, rfl, some, ?_⟩
          rw [linesOf_cons, List.length_append, ← Nat.add_assoc]
          exact ⟨short, beyond⟩

end Sections

variable {emitted : List ToonSection}

section Rows

inductive RowKind where
  | fields | evidenceRefs | outputRefs | truncation | redactions

namespace RowKind

def label : RowKind → String
  | fields => "fields"
  | evidenceRefs => "evidence_refs"
  | outputRefs => "output_refs"
  | truncation => "truncation"
  | redactions => "redactions"

/-- The items of a kind in a result. -/
def total (rendered : ToolResult) : RowKind → Nat
  | fields => rendered.fields.length
  | evidenceRefs => rendered.evidenceRefs.length
  | outputRefs => rendered.outputRefs.length
  | truncation => rendered.truncation.toList.length
  | redactions => rendered.redactions.length

/-- The rows of one item. -/
def width : RowKind → Nat
  | truncation => 4
  | _ => 1

end RowKind

/-- The rows of a kind that stand in emitted sections. -/
def shownRows (emitted : List ToonSection) (kind : RowKind) : Nat :=
  ((emitted.filter (·.label = kind.label)).map (·.lines.tail.length)).sum

/-- The header of a section has the number of the rows that follow it. Only the truncation
has no number. -/
def Announced (part : ToonSection) : Prop :=
  ∀ header rows, part.lines = header :: rows → header = "truncation" ∨
    ∃ columns : String, header = s!"{part.label}[{rows.length}]\x7b{columns}\x7d"

/-- How many items of each kind were left out. -/
def omittedText (omitted : RowKind → Nat) : String :=
  s!"fields={omitted .fields}, evidence_refs={omitted .evidenceRefs}, output_refs={omitted .outputRefs}, truncation={omitted .truncation}, redactions={omitted .redactions}"

theorem sections_announced (member : part ∈ toonSections rendered) : Announced part := by
  intro header rows lines
  rcases mem_toonSections member with rfl | rfl | rfl | ⟨truncation, _, rfl⟩ | rfl <;>
    simp only [buildFieldsSection, buildArtifactRefsSection, buildOutputRefsSection,
      buildRefsSection, buildTruncationSection, buildRedactionsSection] at lines <;>
    (try split at lines) <;> cases lines
  · exact .inr ⟨"key,value", String.toList_inj.mp (by simp [toString_text])⟩
  · exact .inr ⟨"id,uri,media_type,label,digest", String.toList_inj.mp (by simp [toString_text])⟩
  · exact .inr ⟨"id,uri,media_type,label,digest", String.toList_inj.mp (by simp [toString_text])⟩
  · exact .inl rfl
  · exact .inr ⟨"field_path,reason,redacted_at_ms", String.toList_inj.mp (by simp [toString_text])⟩

theorem rows_of_count (member : part ∈ toonSections rendered) {kind : RowKind}
    (named : part.label = kind.label) : part.lines.tail.length = kind.width * part.count := by
  rcases mem_toonSections member with rfl | rfl | rfl | ⟨truncation, _, rfl⟩ | rfl <;>
    cases kind <;> simp only [RowKind.label, String.reduceEq] at named
  · rw [buildFieldsSection]
    split <;> simp_all [RowKind.width]
  · rw [buildArtifactRefsSection, buildRefsSection]
    split <;> simp_all [RowKind.width]
  · rw [buildOutputRefsSection, buildRefsSection]
    split <;> simp_all [RowKind.width]
  · rfl
  · rw [buildRedactionsSection]
    split <;> simp_all [RowKind.width]

theorem shownRows_eq (kept : emitted.Sublist (toonSections rendered)) (kind : RowKind) :
    shownRows emitted kind = kind.width * sectionCount emitted kind.label := by
  rw [shownRows, sectionCount, ← List.sum_map_mul_left]
  refine congrArg _ (List.map_congr_left fun part member => ?_)
  obtain ⟨member, named⟩ := List.mem_filter.mp member
  exact rows_of_count (kept.subset member) (of_decide_eq_true named)

theorem sectionCount_total (rendered : ToolResult) (kind : RowKind) :
    sectionCount (toonSections rendered) kind.label = kind.total rendered := by
  cases kind <;> cases truncated : rendered.truncation <;>
    simp [sectionCount, toonSections, RowKind.label, RowKind.total, truncated]

end Rows

section Accounts

variable {limit : Nat}

/-- The notice at the end of a body says of every kind how many items were left out; without
one, none was. -/
def Reports (rendered : ToolResult) (emitted : List ToonSection) (notice : List String) : Prop :=
  ∃ omitted : RowKind → Nat, (∀ kind, shownRows emitted kind + kind.width * omitted kind =
      kind.width * kind.total rendered) ∧
    ((notice = [] ∧ ∀ kind, omitted kind = 0) ∨
      ∃ lead remaining, notice = buildRenderingTruncationNotice
        (lead ++ "; omitted " ++ omittedText omitted) remaining)

/-- A body is lines of the prelude, whole sections whose headers announce their rows, and a
notice that reports the others. -/
def Honest (rendered : ToolResult) (lines : List String) : Prop :=
  ∃ lead emitted notice, lead <+: toonPrelude rendered none ∧
    emitted.Sublist (toonSections rendered) ∧ lines = lead ++ linesOf emitted ++ notice ∧
    (∀ part ∈ emitted, Announced part) ∧ Reports rendered emitted notice

/-- Some sections use up the budget exactly, and a further one has lines. -/
def ExactlyFull (rendered : ToolResult) (policy : ToolOutputRenderPolicy) : Prop :=
  ∃ limit emitted part rest, policy.maxInlineLines = some limit ∧
    toonSections rendered = emitted ++ part :: rest ∧ part.lines ≠ [] ∧ linesOf emitted ≠ [] ∧
    (toonPrelude rendered none).length + (linesOf emitted).length = limit

theorem sectionCount_append (first second : List ToonSection) (label : String) :
    sectionCount (first ++ second) label = sectionCount first label + sectionCount second label := by
  simp [sectionCount]

/-- The body when the sections after some are left out. -/
theorem toonBodyLines_split {rest : List ToonSection} (limited : policy.maxInlineLines = some limit)
    (sections : toonSections rendered = emitted ++ part :: rest) (some : part.lines ≠ [])
    (fits : (toonPrelude rendered none).length + (linesOf emitted).length ≤ limit)
    (long : limit < (toonPrelude rendered none).length + (linesOf emitted).length +
      part.lines.length) :
    toonBodyLines rendered policy none =
      let lines := toonPrelude rendered none ++ linesOf emitted
      let notice := buildRenderingTruncationNotice (renderingTruncationReason (part :: rest)
        (.some limit) part.label none) (limit - lines.length)
      lines.take (limit - notice.length) ++ notice := by
  have prelude_ : preludeExceeds rendered policy none = false := by
    rw [preludeExceeds, limited, Option.any_some, decide_eq_false_iff_not]
    omega
  rw [toonBodyLines, toonLines_of_fits prelude_, limited, sections,
    appendSections_split some fits long]
  rfl

theorem toonBodyLines_exceeds (exceeding : preludeExceeds rendered policy none = true) :
    toonBodyLines rendered policy none =
      let limit := policy.maxInlineLines.getD maxUnsigned
      let notice := buildRenderingTruncationNotice (renderingTruncationReason
        (toonSections rendered) policy.maxInlineLines "tool output prelude"
        (policy.maxInlineLines.map fun limit => (toonPrelude rendered none).length - limit))
        (limit - (toonPrelude rendered none).length)
      (toonPrelude rendered none).take (limit - notice.length) ++ linesOf [] ++ notice := by
  rw [toonBodyLines, toonLines_of_exceeds exceeding, linesOf_nil]
  simp only [List.append_nil]

theorem honest_of_kept {rest : List ToonSection} {reported : Option Nat} {before : String}
    {lines lead : List String} {remaining : Nat} {preludeLinesOmitted : Option Nat}
    (sections : toonSections rendered = emitted ++ rest)
    (prefixed : lead <+: toonPrelude rendered none)
    (kept : lines = lead ++ linesOf emitted ++ buildRenderingTruncationNotice
      (renderingTruncationReason rest reported before preludeLinesOmitted) remaining) :
    Honest rendered lines := by
  have shown : emitted.Sublist (toonSections rendered) := by
    rw [sections]
    exact List.sublist_append_left _ _
  refine ⟨lead, emitted, _, prefixed, shown, kept,
    fun part member => sections_announced (shown.subset member),
    fun kind => sectionCount rest kind.label, fun kind => ?_, .inr ⟨_, remaining, rfl⟩⟩
  rw [shownRows_eq shown, ← Nat.mul_add, ← sectionCount_total, sections, sectionCount_append]

theorem honest_of_all {lines : List String}
    (all : lines = toonPrelude rendered none ++ linesOf (toonSections rendered)) :
    Honest rendered lines := by
  refine ⟨_, toonSections rendered, [], List.prefix_rfl, .refl _, ?_,
    fun _ => sections_announced, fun _ => 0, fun kind => ?_, .inl ⟨rfl, fun _ => rfl⟩⟩
  · rw [all, List.append_nil]
  · rw [shownRows_eq (.refl _), sectionCount_total, Nat.mul_zero, Nat.add_zero]

/-- Unless the budget is used up exactly, nothing that was emitted makes room for the notice. -/
theorem honest_of_not_full (open' : ¬ ExactlyFull rendered policy) :
    Honest rendered (toonBodyLines rendered policy none) := by
  cases exceeding : preludeExceeds rendered policy none with
  | true =>
    exact honest_of_kept (List.nil_append _).symm (List.take_prefix _ _)
      (toonBodyLines_exceeds exceeding)
  | false =>
    cases limited : policy.maxInlineLines with
    | none =>
      refine honest_of_all ?_
      rw [toonBodyLines, toonLines_of_fits exceeding, limited, appendSections_all]
      rfl
    | some limit =>
      rw [preludeExceeds, limited, Option.any_some, decide_eq_false_iff_not, Nat.not_lt] at exceeding
      rcases appendSections_cases exceeding (toonSections rendered) with all |
        ⟨emitted, part, rest, sections, some, fits, long⟩
      · have fitted : preludeExceeds rendered policy none = false := by
          rwa [preludeExceeds, limited, Option.any_some, decide_eq_false_iff_not, Nat.not_lt]
        refine honest_of_all ?_
        rw [toonBodyLines, toonLines_of_fits fitted, limited, all]
      · have split := toonBodyLines_split limited sections some fits long
        simp only at split
        have notice := notice_length (renderingTruncationReason (part :: rest) (.some limit)
          part.label none) (limit - (toonPrelude rendered none ++ linesOf emitted).length)
        rw [List.length_append] at notice split
        by_cases full : (toonPrelude rendered none).length + (linesOf emitted).length = limit
        · -- No row was emitted: the notice replaces the last line of the prelude.
          have none : linesOf emitted = [] := by
            by_contra rows
            exact open' ⟨limit, emitted, part, rest, limited, sections, some, rows, full⟩
          have moved (count : Nat) : (toonPrelude rendered .none ++ linesOf emitted).take count =
              (toonPrelude rendered .none).take count ++ linesOf emitted := by
            rw [none, List.append_nil, List.append_nil]
          rw [moved] at split
          exact honest_of_kept sections (List.take_prefix _ _) split
        · rw [List.take_of_length_le] at split
          · exact honest_of_kept sections List.prefix_rfl split
          · rw [List.length_append, notice]
            split <;> omega

theorem linesOf_last {sections : List ToonSection} (some : linesOf sections ≠ []) :
    ∃ before last after, sections = before ++ last :: after ∧ last.lines ≠ [] ∧
      linesOf sections = linesOf before ++ last.lines := by
  induction sections using List.reverseRecOn with
  | nil => exact absurd rfl some
  | append_singleton sections part ih =>
    rw [linesOf_append, linesOf_cons, linesOf_nil, List.append_nil] at some ⊢
    by_cases empty : part.lines = []
    · rw [empty, List.append_nil] at some ⊢
      obtain ⟨before, last, after, rfl, present, lines⟩ := ih some
      exact ⟨before, last, after ++ [part], by simp, present, lines⟩
    · exact ⟨sections, part, [], rfl, empty, rfl⟩

/-- If the budget is used up exactly, the last emitted section loses its last row. -/
theorem not_honest_of_full (full : ExactlyFull rendered policy) :
    ¬ Honest rendered (toonBodyLines rendered policy none) := by
  obtain ⟨limit, emitted, part, rest, limited, sections, some, present, full⟩ := full
  obtain ⟨before, last, after, rfl, nonempty, lines⟩ := linesOf_last present
  have member : last ∈ toonSections rendered := by simp [sections]
  obtain ⟨header, rows, shaped⟩ := sections_shaped rendered last member nonempty
  obtain ⟨body, row, rfl⟩ := (List.eq_nil_or_concat' rows).resolve_left shaped.some
  have cut : ∃ notice, mark notice = "ren".toList ∧ toonBodyLines rendered policy none =
      (toonPrelude rendered none ++ linesOf before) ++ header :: (body ++ [notice]) := by
    have whole : toonPrelude rendered none ++ linesOf (before ++ last :: after) =
        ((toonPrelude rendered none ++ linesOf before) ++ header :: body) ++ [row] := by
      rw [lines, shaped.lines]
      simp
    have more := List.length_pos_iff.mpr some
    have split := toonBodyLines_split limited sections some full.le (by omega)
    simp only [whole] at split
    have size := congrArg List.length whole
    rw [List.length_append, full, List.length_append, List.length_singleton] at size
    have single := notice_length (renderingTruncationReason (part :: rest) (.some limit)
      part.label none) (limit - (((toonPrelude rendered none ++ linesOf before) ++
        header :: body) ++ [row]).length)
    rw [if_pos (by simp only [List.length_append, List.length_singleton] at size ⊢; omega)] at single
    obtain ⟨notice, only⟩ := List.length_eq_one_iff.mp single
    refine ⟨notice, notice_marked _ _ notice (by rw [only]; exact List.mem_singleton_self _), ?_⟩
    rw [split, only, List.length_singleton, size, Nat.add_sub_cancel, List.take_left]
    simp
  obtain ⟨notice, marked, cut⟩ := cut
  rw [cut]
  rintro ⟨lead, shown, said, prefixed, kept, same, _, omitted, _, reports⟩
  have other : mark header ≠ "ren".toList := by
    intro renders
    have label := label_marks member
    rw [← shaped.marked, renders] at label
    exact absurd label (by decide)
  have notLead : header ∉ toonPrelude rendered none := fun found =>
    prelude_marked rendered last member header found shaped.marked
  have notSaid : header ∉ said := by
    intro found
    rcases reports with ⟨rfl, _⟩ | ⟨_, _, rfl⟩
    · cases found
    · exact other (notice_marked _ _ header found)
  -- The header can only stand at the head of its own section, which is then shown whole.
  have found : header ∈ linesOf shown := by
    have found : header ∈ lead ++ linesOf shown ++ said := by
      rw [← same]
      simp
    rcases List.mem_append.mp found with found | found
    · exact (List.mem_append.mp found).resolve_left fun found => notLead (prefixed.subset found)
    · exact absurd found notSaid
  obtain ⟨part', member', within⟩ := List.mem_flatMap.mp found
  obtain rfl := section_of_mark member (kept.subset member') within shaped.marked
  obtain ⟨earlier, later, rfl⟩ := List.append_of_mem member'
  have notBefore : header ∉ toonPrelude rendered none ++ linesOf before := by
    rw [List.mem_append, not_or]
    refine ⟨notLead, fun found => ?_⟩
    obtain ⟨part', early, within⟩ := List.mem_flatMap.mp found
    have twice := section_of_mark member (by simp [sections, early]) within shaped.marked
    subst twice
    have nodup := (sections_nodup rendered).of_map
    rw [sections, List.append_assoc, List.nodup_append] at nodup
    exact nodup.2.2 _ early _ List.mem_cons_self rfl
  have notAfter : header ∉ body ++ [notice] := by
    rw [List.mem_append, List.mem_singleton, not_or]
    refine ⟨fun found => ?_, fun found => other (found ▸ marked)⟩
    exact row_unmarked member (shaped.indented header (List.mem_append_left _ found)) shaped.marked
  have split : (toonPrelude rendered none ++ linesOf before) ++ header :: (body ++ [notice]) =
      (lead ++ linesOf earlier) ++ header :: (body ++ row :: (linesOf later ++ said)) := by
    rw [same, linesOf_append, linesOf_cons, shaped.lines]
    simp
  obtain ⟨_, _, tails⟩ := (List.append_cons_inj_of_notMem notBefore notAfter).mp split
  obtain ⟨rfl, _⟩ := List.cons.inj (List.append_cancel_left tails)
  have indent := shaped.indented notice (by simp)
  have letter := congrArg List.head? marked
  rw [mark, List.head?_take, if_neg (by decide), indent] at letter
  exact absurd letter (by decide)

end Accounts

/-- The line budget is accounted for exactly when emitted sections do not use it up with a
further section left out. -/
theorem line_budget_honest_iff (json : JsonWriter) (result rendered : ToolResult)
    (policy : ToolOutputRenderPolicy) (reason : Option String)
    (kept : renderableResult result policy = .ok (rendered, reason))
    (toon : policy.renderOptions.format = .toon) :
    ∃ output lines, renderToolResultWithPolicy json result policy = .ok output ∧
      output.body.toList.splitOn '\n' = lines.map String.toList ∧
      (Honest rendered lines ↔ ¬ ExactlyFull rendered policy) := by
  obtain ⟨output, returned, lines⟩ := toonBody_lines json kept toon
  exact ⟨output, _, returned, lines,
    fun honest full => not_honest_of_full full honest, honest_of_not_full⟩

/-- A result with a section after its fields. -/
def redactedResult : ToolResult :=
  { searchResult ["a"] with redactions := [⟨"matches", "secret", ⟨0⟩⟩] }

/-- A policy whose only limit is the number of lines. -/
def linePolicy (maxInlineLines : Nat) : ToolOutputRenderPolicy :=
  { ToolOutputRenderPolicy.fromRenderOptions {} with maxInlineLines := some maxInlineLines }

/-- With one line to spare, the fields are shown whole before the notice. -/
theorem fields_shown_whole :
    ∃ output lines, renderToolResultWithPolicy ⟨fun _ => "", fun _ => ""⟩ redactedResult
        (linePolicy 9) = .ok output ∧
      output.body.toList.splitOn '\n' = lines.map String.toList ∧ Honest redactedResult lines := by
  obtain ⟨output, lines, returned, split, honest⟩ := line_budget_honest_iff
    ⟨fun _ => "", fun _ => ""⟩ redactedResult redactedResult (linePolicy 9) none rfl rfl
  refine ⟨output, lines, returned, split, honest.mpr ?_⟩
  rintro ⟨limit, emitted, part, rest, limited, sections, _, _, full⟩
  cases limited
  have sizes : ∀ count < 4, (toonPrelude redactedResult none).length +
      (linesOf ((toonSections redactedResult).take count)).length ≠ 9 := by decide +kernel
  have few : emitted.length < 4 := by
    have count : (toonSections redactedResult).length = 4 := rfl
    rw [sections, List.length_append, List.length_cons] at count
    omega
  apply sizes emitted.length few
  rwa [sections, List.take_left]

/-- With none to spare, the notice takes the place of the only row of the fields. -/
theorem last_row_replaced :
    ∃ output lines, renderToolResultWithPolicy ⟨fun _ => "", fun _ => ""⟩ redactedResult
        (linePolicy 8) = .ok output ∧
      output.body.toList.splitOn '\n' = lines.map String.toList ∧
      lines.drop 6 = ["fields[1]\x7bkey,value\x7d", "rendering_truncated true; rendering_truncation_reason \"toon rendering truncated to max_inline_lines=8 before redactions; omitted fields=0, evidence_refs=0, output_refs=0, truncation=0, redactions=1\""] ∧
      ¬ Honest redactedResult lines := by
  obtain ⟨output, returned, lines⟩ := toonBody_lines ⟨fun _ => "", fun _ => ""⟩
    (rfl : renderableResult redactedResult (linePolicy 8) = .ok (redactedResult, none)) rfl
  refine ⟨output, _, returned, lines, by decide +kernel, not_honest_of_full ?_⟩
  exact ⟨8, (toonSections redactedResult).take 3, ⟨"redactions", 1,
    buildRedactionsSection redactedResult.redactions⟩, [], rfl, rfl, by decide +kernel,
    by decide +kernel, by decide +kernel⟩

end Atelia.ToolOutput
