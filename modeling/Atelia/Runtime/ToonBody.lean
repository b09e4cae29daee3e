import Atelia.Runtime.RenderBudget
import Atelia.Runtime.ToonLines

/-! The body of a TOON rendering: what it determines, and how many lines it has. -/

namespace Atelia.ToolOutput

variable {result rendered : ToolResult} {policy : ToolOutputRenderPolicy}

section Body

/-- The lines that a rendering joins. -/
def toonBodyLines (rendered : ToolResult) (policy : ToolOutputRenderPolicy)
    (fallbackReason : Option String) : List String :=
  match toonLines rendered policy fallbackReason with
  | (lines, none) => lines
  | (lines, some reason) =>
    let limit := policy.maxInlineLines.getD maxUnsigned
    let notice := buildRenderingTruncationNotice reason (limit - lines.length)
    lines.take (limit - notice.length) ++ notice

theorem renderToon_eq {budgetReason : Option String}
    (kept : renderableResult result policy = .ok (rendered, budgetReason))
    (fallbackReason : Option String) :
    ∃ reason, renderToon result policy fallbackReason = .ok
      ("\n".intercalate (toonBodyLines rendered policy fallbackReason), reason, rendered.truncation) := by
  rcases fitted : toonLines rendered policy fallbackReason with ⟨lines, truncation⟩
  refine ⟨combineFallbackReasons (combineFallbackReasons budgetReason
    (renderPolicyFallbackReason result rendered)) truncation, ?_⟩
  simp only [renderToon, kept, bind, Except.bind, fitted, toonBodyLines]
  cases truncation with
  | none => cases combineFallbackReasons budgetReason _ <;> rfl
  | some reason => rfl

theorem appendSections_sublist (limit : Option Nat) (bodyLines : Nat) (sections : List ToonSection) :
    ∀ line ∈ (appendSections limit bodyLines sections).1, ∃ part ∈ sections, line ∈ part.lines := by
  induction sections generalizing bodyLines with
  | nil => simp [appendSections]
  | cons part rest ih =>
    intro line member
    rw [appendSections] at member
    split_ifs at member
    · obtain ⟨part', present, within⟩ := ih _ line member
      exact ⟨part', List.mem_cons_of_mem _ present, within⟩
    · cases member
    · rcases List.mem_append.mp member with member | member
      · exact ⟨part, List.mem_cons_self, member⟩
      · obtain ⟨part', present, within⟩ := ih _ line member
        exact ⟨part', List.mem_cons_of_mem _ present, within⟩

/-- Too many lines before the sections; the sections are left out. -/
def preludeExceeds (rendered : ToolResult) (policy : ToolOutputRenderPolicy)
    (fallbackReason : Option String) : Bool :=
  policy.maxInlineLines.any fun limit => limit < (toonPrelude rendered fallbackReason).length

theorem toonLines_of_exceeds {fallbackReason : Option String}
    (exceeding : preludeExceeds rendered policy fallbackReason = true) :
    toonLines rendered policy fallbackReason = (toonPrelude rendered fallbackReason,
      some (renderingTruncationReason (toonSections rendered) policy.maxInlineLines
        "tool output prelude" (policy.maxInlineLines.map fun limit =>
          (toonPrelude rendered fallbackReason).length - limit))) :=
  if_pos exceeding

theorem toonLines_of_fits {fallbackReason : Option String}
    (fits : preludeExceeds rendered policy fallbackReason = false) :
    toonLines rendered policy fallbackReason =
      (toonPrelude rendered fallbackReason ++ (appendSections policy.maxInlineLines
          (toonPrelude rendered fallbackReason).length (toonSections rendered)).1,
        (appendSections policy.maxInlineLines (toonPrelude rendered fallbackReason).length
          (toonSections rendered)).2) :=
  if_neg (Bool.eq_false_iff.mp fits)

theorem unbroken_toonLines (rendered : ToolResult) (policy : ToolOutputRenderPolicy)
    (fallbackReason : Option String) :
    ∀ line ∈ (toonLines rendered policy fallbackReason).1, Unbroken line := by
  intro line member
  cases exceeding : preludeExceeds rendered policy fallbackReason with
  | true =>
    rw [toonLines_of_exceeds exceeding] at member
    exact unbroken_prelude rendered fallbackReason line member
  | false =>
    rw [toonLines_of_fits exceeding] at member
    rcases List.mem_append.mp member with member | member
    · exact unbroken_prelude rendered fallbackReason line member
    · obtain ⟨part, present, within⟩ := appendSections_sublist _ _ _ line member
      exact unbroken_sections rendered part present line within

/-- No text of a result adds a line to the body. -/
theorem unbroken_toonBodyLines (rendered : ToolResult) (policy : ToolOutputRenderPolicy)
    (fallbackReason : Option String) :
    ∀ line ∈ toonBodyLines rendered policy fallbackReason, Unbroken line := by
  have fits := unbroken_toonLines rendered policy fallbackReason
  intro line member
  rcases fitted : toonLines rendered policy fallbackReason with ⟨lines, truncation⟩
  rw [fitted] at fits
  rw [toonBodyLines, fitted] at member
  cases truncation with
  | none => exact fits line member
  | some reason =>
    rcases List.mem_append.mp member with member | member
    · exact fits line (List.mem_of_mem_take member)
    · exact unbroken_notice _ _ line member

theorem splitOn_intercalate {lines : List String} (some : lines ≠ [])
    (unbroken : ∀ line ∈ lines, Unbroken line) :
    ("\n".intercalate lines).toList.splitOn '\n' = lines.map String.toList := by
  rw [String.toList_intercalate]
  refine List.splitOn_intercalate '\n' (fun text member => ?_) (by simpa using some)
  obtain ⟨line, present, rfl⟩ := List.mem_map.mp member
  exact unbroken line present

theorem appendSections_length {limit bodyLines : Nat} (fits : bodyLines ≤ limit)
    (sections : List ToonSection) :
    bodyLines + (appendSections (some limit) bodyLines sections).1.length ≤ limit := by
  induction sections generalizing bodyLines with
  | nil => simpa [appendSections] using fits
  | cons part rest ih =>
    rw [appendSections]
    split_ifs with empty long
    · exact ih fits
    · simpa using fits
    · have short : bodyLines + part.lines.length ≤ limit := by simpa using long
      have rest := ih short
      rw [List.length_append]
      omega

theorem notice_length (reason : String) (remaining : Nat) :
    (buildRenderingTruncationNotice reason remaining).length = if remaining ≤ 1 then 1 else 2 := by
  rw [buildRenderingTruncationNotice]
  split <;> rfl

theorem toonBodyLines_length {limit : Nat} (limited : policy.maxInlineLines = some limit)
    (rendered : ToolResult) (fallbackReason : Option String) :
    (toonBodyLines rendered policy fallbackReason).length ≤ max 1 limit := by
  rcases fitted : toonLines rendered policy fallbackReason with ⟨lines, truncation⟩
  rw [toonBodyLines, fitted]
  cases truncation with
  | none =>
    cases exceeding : preludeExceeds rendered policy fallbackReason with
    | true =>
      rw [toonLines_of_exceeds exceeding] at fitted
      cases fitted
    | false =>
      rw [toonLines_of_fits exceeding, limited] at fitted
      rw [preludeExceeds, limited, Option.any_some, decide_eq_false_iff_not, Nat.not_lt] at exceeding
      have body := appendSections_length exceeding (toonSections rendered)
      rw [← (Prod.mk.inj fitted).1, List.length_append]
      omega
  | some reason =>
    have notice := notice_length reason (limit - lines.length)
    simp only [limited, Option.getD_some, List.length_append, List.length_take]
    split at notice <;> omega

theorem toonBodyLines_ne_nil (rendered : ToolResult) (policy : ToolOutputRenderPolicy)
    (fallbackReason : Option String) : toonBodyLines rendered policy fallbackReason ≠ [] := by
  rcases fitted : toonLines rendered policy fallbackReason with ⟨lines, truncation⟩
  rw [toonBodyLines, fitted]
  cases truncation with
  | none =>
    cases exceeding : preludeExceeds rendered policy fallbackReason with
    | true =>
      rw [toonLines_of_exceeds exceeding] at fitted
      cases fitted
    | false =>
      rw [toonLines_of_fits exceeding] at fitted
      rw [← (Prod.mk.inj fitted).1]
      simp [toonPrelude]
  | some reason =>
    have notice := notice_length reason
      (policy.maxInlineLines.getD maxUnsigned - lines.length)
    simp only [ne_eq, List.append_eq_nil_iff, not_and]
    rintro _ empty
    rw [empty] at notice
    split at notice <;> cases notice

end Body

section Whole

/-- The policies that render everything. -/
structure RendersAll (policy : ToolOutputRenderPolicy) : Prop where
  format : policy.renderOptions.format = .toon
  lines : policy.maxInlineLines = none
  bytes : policy.maxInlineBytes = none
  fields : policy.maxFields = none
  evidenceRefs : policy.includeEvidenceRefs = true
  outputRefs : policy.includeOutputRefs = true
  redactions : policy.includeRedactions = true
  policyFields : policy.renderOptions.includePolicy = true
  diagnostics : policy.renderOptions.includeDiagnostics = true
  cost : policy.renderOptions.includeCost = true

theorem renderableResult_all (all : RendersAll policy) (result : ToolResult) :
    renderableResult result policy = .ok (result, none) := by
  have every (key : String) : shouldRenderField key policy.renderOptions = true := by
    unfold shouldRenderField
    generalize optionalFieldChannel key = channel
    rcases channel with _ | _ | _ | _
    · rfl
    · exact all.policyFields
    · exact all.diagnostics
    · exact all.cost
  simp [renderableResult, all.bytes, keptResult, keptFields, all.fields, every, all.evidenceRefs,
    all.outputRefs, all.redactions]

theorem appendSections_all (bodyLines : Nat) (sections : List ToonSection) :
    appendSections none bodyLines sections = (sections.flatMap (·.lines), none) := by
  induction sections generalizing bodyLines with
  | nil => rfl
  | cons part rest ih =>
    rw [appendSections]
    split_ifs with empty long
    · rw [ih, List.flatMap_cons, List.isEmpty_iff.mp empty, List.nil_append]
    · cases long
    · rw [ih, List.flatMap_cons]

theorem toonBodyLines_all (all : RendersAll policy) (result : ToolResult) :
    toonBodyLines result policy none =
      toonPrelude result none ++ (toonSections result).flatMap (·.lines) := by
  rw [toonBodyLines, toonLines, all.lines]
  simp [appendSections_all]

/-- The lines that every body begins with. -/
def fixedLines (result : ToolResult) : List String :=
  [s!"status {statusName result.status}", s!"schema_version {schemaVersion result}",
    s!"format {formatName .toon}", s!"tool_id {renderToonValue result.toolId}",
    s!"result_id {result.id.text}", s!"invocation_id {result.invocationId.text}"]

theorem toList_body (result : ToolResult) :
    (toonPrelude result none ++ (toonSections result).flatMap (·.lines)).map String.toList =
      (fixedLines result).map String.toList ++ shownLines (shown result) := by
  have schema : (result.schemaRef.toList.map fun schemaRef =>
      s!"schema_ref {renderToonValue schemaRef}").map String.toList =
        schemaRefLines result.schemaRef := by
    rw [List.map_map]
    exact List.map_congr_left fun _ _ => String.toList_append
  have truncation : ((result.truncation.toList.map fun truncation =>
      (⟨"truncation", 1, buildTruncationSection truncation⟩ : ToonSection)).flatMap
        (·.lines)).map String.toList = truncationLines result.truncation := by
    cases result.truncation with
    | none => rfl
    | some truncation => simp [truncationLines]
  simp only [toonPrelude, toonSections, List.flatMap_append, List.flatMap_cons, List.flatMap_nil,
    List.map_append, List.append_nil, List.append_assoc, schema, truncation,
    toList_buildFieldsSection, toList_buildArtifactRefsSection, toList_buildOutputRefsSection,
    toList_buildRedactionsSection, shownLines, shown]
  rfl

theorem fixedLines_injective {first second : ToolResult}
    (same : (fixedLines first).map String.toList = (fixedLines second).map String.toList) :
    first.status = second.status ∧ first.schemaVersion = second.schemaVersion ∧
      first.toolId = second.toolId ∧ first.id = second.id ∧
      first.invocationId = second.invocationId := by
  have statuses (status status' : ToolResultStatus) (same : statusName status = statusName status') :
      status = status' := by
    cases status <;> cases status' <;> first | rfl | exact absurd same (by decide)
  simp only [fixedLines, List.map_cons, List.map_nil, List.cons.injEq, String.toList_inj,
    toString_text, String.append_right_inj, schemaVersion] at same
  obtain ⟨status, version, _, tool, id, invocation, _⟩ := same
  refine ⟨statuses _ _ status, ?_, ?_, Identifier.text_injective id,
    Identifier.text_injective invocation⟩
  · apply toDigits_injective
    rw [← toList_nat, ← toList_nat, version]
  · exact text_readable.injective (congrArg String.toList tool)

/-- Results with the same body are the same, up to the time of their creation. -/
theorem result_of_body {first second : ToolResult}
    (same : (fixedLines first).map String.toList ++ shownLines (shown first) =
      (fixedLines second).map String.toList ++ shownLines (shown second)) :
    first = { second with createdAt := first.createdAt } := by
  obtain ⟨fixed, rest⟩ := List.append_inj same rfl
  obtain ⟨status, version, tool, id, invocation⟩ := fixedLines_injective fixed
  have values := shownLines_injective rest
  cases first
  cases second
  simp only [shown, Prod.mk.injEq] at values
  simp_all

end Whole

section Text

theorem newline_not_mem_withoutLineBreaks (characters : List Char) :
    '\n' ∉ withoutLineBreaks characters := by
  fun_induction withoutLineBreaks characters with
  | case1 rest ih => simpa using ih
  | case2 rest _ ih => simpa using ih
  | case3 rest ih => simpa using ih
  | case4 character rest _ _ newline ih =>
    rw [List.mem_cons, not_or]
    exact ⟨fun same => newline same.symm, ih⟩
  | case5 => exact List.not_mem_nil

theorem unbroken_normalized (value : String) : Unbroken (normalizeTextOutputValue value) := by
  rw [Unbroken, normalizeTextOutputValue, String.toList_ofList]
  exact newline_not_mem_withoutLineBreaks _

theorem unbroken_intercalate {separator : String} {parts : List String}
    (single : Unbroken separator) (each : ∀ part ∈ parts, Unbroken part) :
    Unbroken (separator.intercalate parts) := by
  rw [Unbroken, String.toList_intercalate]
  refine not_mem_intercalate single fun text member => ?_
  obtain ⟨part, present, rfl⟩ := List.mem_map.mp member
  exact each part present

theorem unbroken_redactionText (redaction : RedactionMarker) : Unbroken (redactionText redaction) := by
  simp +decide [redactionText, unbroken_append, toString_text, unbroken_normalized, unbroken_int,
    -Int.toString_eq_repr]

theorem unbroken_renderText {rendering : Rendering}
    (returned : renderText result policy = .ok rendering) : Unbroken rendering.1 := by
  cases kept : renderableResult result policy with
  | error error => simp [renderText, kept, bind, Except.bind] at returned
  | ok pair =>
    simp only [renderText, kept, bind, Except.bind] at returned
    cases returned
    have status : Unbroken (statusName pair.1.status) := by cases pair.1.status <;> decide
    have summary : Unbroken (((summaryField pair.1).map normalizeTextOutputValue).getD
        "no summary") := by
      cases summaryField pair.1 with
      | none => decide
      | some value => exact unbroken_normalized value
    have counted (count : Nat) (what : String) (single : Unbroken what) :
        ∀ part ∈ (if count = 0 then [] else [s!"{count} {what}"]), Unbroken part := by
      intro part member
      split at member
      · cases member
      · rw [List.mem_singleton.mp member]
        simp +decide [unbroken_append, toString_text, unbroken_nat, single, -Nat.toString_eq_repr]
    refine unbroken_intercalate (by decide) fun part member => ?_
    simp only [List.mem_append] at member
    rcases member with ((((member | member) | member) | member) | member) | member
    · rw [List.mem_singleton.mp member]
      simp +decide [unbroken_append, toString_text, unbroken_normalized, status, summary]
    · exact counted _ _ (by decide) part member
    · exact counted _ _ (by decide) part member
    · exact counted _ _ (by decide) part member
    · obtain ⟨truncation, _, rfl⟩ := List.mem_map.mp member
      simp +decide [unbroken_append, toString_text, unbroken_normalized, unbroken_nat,
        -Nat.toString_eq_repr]
    · split at member
      · cases member
      · have markers : Unbroken (", ".intercalate (pair.1.redactions.map redactionText)) := by
          refine unbroken_intercalate (by decide) fun text found => ?_
          obtain ⟨redaction, _, rfl⟩ := List.mem_map.mp found
          exact unbroken_redactionText redaction
        rw [List.mem_singleton.mp member]
        simp +decide [unbroken_append, toString_text, unbroken_nat, markers, -Nat.toString_eq_repr]

end Text

section Formats

variable {json : JsonWriter} {output : RenderedToolOutput}

theorem toonBody_lines (json : JsonWriter) {budgetReason : Option String}
    (kept : renderableResult result policy = .ok (rendered, budgetReason))
    (toon : policy.renderOptions.format = .toon) :
    ∃ output, renderToolResultWithPolicy json result policy = .ok output ∧
      output.body.toList.splitOn '\n' = (toonBodyLines rendered policy none).map String.toList := by
  obtain ⟨reason, returned⟩ := renderToon_eq kept none
  have lines := splitOn_intercalate (toonBodyLines_ne_nil rendered policy none)
    (unbroken_toonBodyLines rendered policy none)
  generalize "\n".intercalate (toonBodyLines rendered policy none) = body at returned lines
  refine ⟨⟨.toon, schemaVersion result, body, reason, rendered.truncation⟩, ?_, lines⟩
  · simp only [renderToolResultWithPolicy, toon, returned, bind, Except.bind]
    rfl

theorem toon_renderable (returned : renderToolResultWithPolicy json result policy = .ok output)
    (toon : policy.renderOptions.format = .toon) :
    ∃ rendered reason, renderableResult result policy = .ok (rendered, reason) ∧
      output.body.toList.splitOn '\n' = (toonBodyLines rendered policy none).map String.toList := by
  cases kept : renderableResult result policy with
  | error error =>
    simp [renderToolResultWithPolicy, toon, renderToon, kept, bind, Except.bind] at returned
  | ok pair =>
    obtain ⟨output', same, lines⟩ := toonBody_lines json kept toon
    cases returned.symm.trans same
    exact ⟨pair.1, pair.2, rfl, lines⟩

theorem text_single (returned : renderToolResultWithPolicy json result policy = .ok output)
    (text : policy.renderOptions.format = .text) : Unbroken output.body := by
  cases rendering : renderText result policy with
  | error error =>
    simp [renderToolResultWithPolicy, text, rendering, bind, Except.bind] at returned
  | ok value =>
    have single := unbroken_renderText rendering
    simp only [renderToolResultWithPolicy, text, rendering, bind, Except.bind] at returned
    cases returned
    exact single

end Formats

/-- Everything rendered, results with the same TOON body are the same up to the time of their
creation. Under any policy a TOON body has the lines that the renderer joins, at most as many
as allowed but at least one, and a text body is a single line. -/
theorem toon_injective_without_injection (json : JsonWriter) :
    (∀ policy policy', RendersAll policy → RendersAll policy' → ∀ first second, ∃ output output',
      renderToolResultWithPolicy json first policy = .ok output ∧
      renderToolResultWithPolicy json second policy' = .ok output' ∧
      (output.body = output'.body → first = { second with createdAt := first.createdAt })) ∧
    (∀ result policy output, renderToolResultWithPolicy json result policy = .ok output →
      policy.renderOptions.format = .toon →
        (∃ rendered reason, renderableResult result policy = .ok (rendered, reason) ∧
          output.body.toList.splitOn '\n' =
            (toonBodyLines rendered policy none).map String.toList) ∧
        ∀ limit, policy.maxInlineLines = some limit →
          (output.body.toList.splitOn '\n').length ≤ max 1 limit) ∧
    ∀ result policy output, renderToolResultWithPolicy json result policy = .ok output →
      policy.renderOptions.format = .text →
        output.body.toList.splitOn '\n' = [output.body.toList] := by
  refine ⟨?_, ?_, ?_⟩
  · intro policy policy' all all' first second
    obtain ⟨output, returned, lines⟩ :=
      toonBody_lines json (renderableResult_all all first) all.format
    obtain ⟨output', returned', lines'⟩ :=
      toonBody_lines json (renderableResult_all all' second) all'.format
    refine ⟨output, output', returned, returned', fun same => result_of_body ?_⟩
    rw [← toList_body, ← toList_body, ← toonBodyLines_all all, ← toonBodyLines_all all', ← lines,
      ← lines', same]
  · intro result policy output returned toon
    obtain ⟨rendered, reason, kept, lines⟩ := toon_renderable returned toon
    refine ⟨⟨rendered, reason, kept, lines⟩, fun limit limited => ?_⟩
    rw [lines, List.length_map]
    exact toonBodyLines_length limited rendered none
  · intro result policy output returned text
    have split := splitOn_intercalate (List.cons_ne_nil output.body [])
      fun line member => (List.mem_singleton.mp member) ▸ text_single returned text
    simpa using split

/-- The policy that renders everything as TOON. -/
def wholePolicy : ToolOutputRenderPolicy :=
  .fromRenderOptions { includePolicy := true, includeDiagnostics := true, includeCost := true }

/-- Two matches and one match with a comma in it have different bodies. -/
theorem search_bodies_differ :
    ∃ output output',
      renderToolResultWithPolicy ⟨fun _ => "", fun _ => ""⟩ (searchResult ["a", "b"]) wholePolicy =
        .ok output ∧
      renderToolResultWithPolicy ⟨fun _ => "", fun _ => ""⟩ (searchResult ["a,b"]) wholePolicy =
        .ok output' ∧ output.body ≠ output'.body := by
  have all : RendersAll wholePolicy := ⟨rfl, rfl, rfl, rfl, rfl, rfl, rfl, rfl, rfl, rfl⟩
  obtain ⟨output, output', returned, returned', injective⟩ :=
    (toon_injective_without_injection ⟨fun _ => "", fun _ => ""⟩).1 wholePolicy wholePolicy all all
      (searchResult ["a", "b"]) (searchResult ["a,b"])
  refine ⟨output, output', returned, returned', fun same => ?_⟩
  have fields := congrArg ToolResult.fields (injective same)
  exact absurd fields (by decide)

end Atelia.ToolOutput
