import Atelia.Foundation.Excerpt
import Atelia.Runtime.ToolOutput
import Mathlib.Data.List.Zip

/-! What the renderers' byte budget leaves of the lists of a tool result. -/

namespace Atelia.ToolOutput

open Excerpt Text

variable {values : List String}

section Loop

variable {maxInlineBytes : Nat} {kept : List String}

/-- The bytes left for the next value, its separator counted. -/
def room (maxInlineBytes : Nat) (kept : List String) : Nat :=
  maxInlineBytes - (joinedLength kept + separator kept)

/-- The loop over values whose taken part is accounted for. -/
def truncated (maxInlineBytes : Nat) (kept values : List String) : List String × Nat :=
  truncateStringList maxInlineBytes kept (joinedLength kept) values

theorem truncateStringValue_getD (value : String) (bytes : Nat) :
    (truncateStringValue value bytes).getD value = String.ofList (takeBytes bytes value.toList) := by
  rw [truncateStringValue]
  split
  · rename_i fits
    have whole : takeBytes bytes value.toList = value.toList := takeBytes_of_le fits
    rw [whole, String.ofList_toList]
    rfl
  · rfl

variable {value : String}

theorem joinedLength_concat_le (space : room maxInlineBytes kept ≠ 0)
    (short : byteLength value ≤ room maxInlineBytes kept) :
    joinedLength (kept ++ [value]) ≤ maxInlineBytes := by
  rw [joinedLength_concat]
  unfold room at space short
  omega

section Bounded

variable (bounded : maxInlineBytes ≤ maxUnsigned)
include bounded

/-- One turn of the loop: stop, skip a value of which nothing fits, or take what fits. -/
theorem truncated_cons (value : String) (rest : List String) :
    truncated maxInlineBytes kept (value :: rest) =
      if room maxInlineBytes kept = 0 then (kept, joinedLength kept)
      else if takeBytes (room maxInlineBytes kept) value.toList = [] then
        truncated maxInlineBytes kept rest
      else truncated maxInlineBytes
        (kept ++ [String.ofList (takeBytes (room maxInlineBytes kept) value.toList)]) rest := by
  have separated : (if kept.isEmpty then 0 else 1) = separator kept := rfl
  have left : maxInlineBytes - saturatingAdd (joinedLength kept) (separator kept) =
      room maxInlineBytes kept := by
    unfold saturatingAdd room
    omega
  rw [truncated, truncateStringList]
  simp only [separated, left, truncateStringValue_getD]
  simp only [String.toList_ofList, List.isEmpty_iff]
  split_ifs with full empty
  · rfl
  · rfl
  · obtain ⟨cut, defined⟩ : ∃ cut, String.ofList (takeBytes (room maxInlineBytes kept) value.toList)
        = cut := ⟨_, rfl⟩
    have grown := joinedLength_concat kept cut
    have short : byteLength cut ≤ room maxInlineBytes kept :=
      defined ▸ (longest_takeBytes (room maxInlineBytes kept) value).fits
    have counted : saturatingAdd (joinedLength kept) (separator kept + byteLength cut) =
        joinedLength (kept ++ [cut]) := by
      unfold saturatingAdd
      unfold room at short full
      omega
    rw [defined, counted]
    rfl

/-- What the loop keeps fits, is counted with its separators, and extends what was kept. -/
theorem truncated_spec (fits : joinedLength kept ≤ maxInlineBytes) (values : List String) :
    kept <+: (truncated maxInlineBytes kept values).1 ∧
      joinedLength (truncated maxInlineBytes kept values).1 ≤ maxInlineBytes ∧
      (truncated maxInlineBytes kept values).2 =
        joinedLength (truncated maxInlineBytes kept values).1 := by
  induction values generalizing kept with
  | nil => exact ⟨List.prefix_rfl, fits, rfl⟩
  | cons value rest ih =>
    rw [truncated_cons bounded]
    split_ifs with full empty
    · exact ⟨List.prefix_rfl, fits, rfl⟩
    · exact ih fits
    · have short := (longest_takeBytes (room maxInlineBytes kept) value).fits
      obtain ⟨longer, rest⟩ := ih (joinedLength_concat_le full short)
      exact ⟨(List.prefix_append _ _).trans longer, rest⟩

theorem truncated_of_nothing_fits
    (nothing : ∀ value ∈ values, takeBytes (room maxInlineBytes kept) value.toList = []) :
    (truncated maxInlineBytes kept values).1 = kept := by
  induction values with
  | nil => rfl
  | cons value rest ih =>
    rw [truncated_cons bounded, if_pos (nothing value List.mem_cons_self)]
    split
    · rfl
    · exact ih fun other member => nothing other (List.mem_cons_of_mem _ member)

/-- A value of which something fits is taken, or one before it is. -/
theorem truncated_of_something_fits (member : value ∈ values)
    (something : takeBytes (room maxInlineBytes kept) value.toList ≠ []) :
    ∃ next more, (truncated maxInlineBytes kept values).1 = kept ++ next :: more ∧
      next.toList ≠ [] ∧ byteLength next ≤ room maxInlineBytes kept := by
  induction values with
  | nil => cases member
  | cons first rest ih =>
    have space : room maxInlineBytes kept ≠ 0 := by
      intro none
      have short := bytes_takeBytes_le (room maxInlineBytes kept) value.toList
      rw [none] at short something
      exact something (bytes_eq_zero.mp (Nat.le_zero.mp short))
    rw [truncated_cons bounded, if_neg space]
    split_ifs with empty
    · rcases List.mem_cons.mp member with rfl | later
      · exact absurd empty something
      · exact ih later
    · have short := (longest_takeBytes (room maxInlineBytes kept) first).fits
      obtain ⟨⟨more, longer⟩, _⟩ :=
        truncated_spec bounded (joinedLength_concat_le space short) rest
      refine ⟨_, more, ?_, by rwa [String.toList_ofList], short⟩
      rw [← longer, List.append_assoc, List.singleton_append]

end Bounded

/-- Once a value is not kept whole, because it is empty or too long, nothing of a later one
fits into the bytes that remain. -/
def contiguous (room : Nat) : List String → Bool
  | [] => true
  | value :: rest =>
    if room = 0 then true
    else if value.toList ≠ [] ∧ byteLength value ≤ room then
      contiguous (room - (byteLength value + 1)) rest
    else
      let cut := takeBytes room value.toList
      let left := if cut = [] then room else room - (bytes cut + 1)
      rest.all fun later => (takeBytes left later.toList).isEmpty

theorem room_concat (kept : List String) (value : String) :
    room maxInlineBytes (kept ++ [value]) = room maxInlineBytes kept - (byteLength value + 1) := by
  rw [room, joinedLength_concat, room]
  have : separator (kept ++ [value]) = 1 := by simp [separator]
  omega

/-- After a value of which nothing fits, anything kept would stand in its place. -/
theorem keepsLead_after_skip (bounded : maxInlineBytes ≤ maxUnsigned)
    (empty : takeBytes (room maxInlineBytes kept) value.toList = []) (rest : List String) :
    KeepsLead (kept ++ value :: rest) (truncated maxInlineBytes kept rest).1 ↔
      ∀ later ∈ rest, takeBytes (room maxInlineBytes kept) later.toList = [] := by
  constructor
  · intro lead later member
    by_contra something
    obtain ⟨next, more, outcome, present, short⟩ :=
      truncated_of_something_fits bounded member something
    rw [outcome] at lead
    have fitting := prefix_takeBytes lead.next.1 short
    rw [empty, List.prefix_nil] at fitting
    exact present fitting
  · intro nothing
    rw [truncated_of_nothing_fits bounded nothing]
    exact keepsLead_of_isPrefix (List.prefix_append _ _)

/-- After a value that was cut, anything kept would make the cut value one before the last. -/
theorem keepsLead_after_cut (bounded : maxInlineBytes ≤ maxUnsigned) {cut : String}
    (begins : cut.toList <+: value.toList) (shorter : cut ≠ value) (rest : List String) :
    KeepsLead (kept ++ value :: rest) (truncated maxInlineBytes (kept ++ [cut]) rest).1 ↔
      ∀ later ∈ rest, takeBytes (room maxInlineBytes (kept ++ [cut])) later.toList = [] := by
  constructor
  · intro lead later member
    by_contra something
    obtain ⟨next, more, outcome, _⟩ := truncated_of_something_fits bounded member something
    rw [outcome, List.append_assoc, List.singleton_append] at lead
    exact shorter (lead.next.2 (by simp))
  · intro nothing
    rw [truncated_of_nothing_fits bounded nothing]
    exact .inr ⟨kept, value, cut, ⟨rest, by simp⟩, begins, rfl⟩

/-- With whole values kept so far, the loop ends with a lead of the list exactly when it
leaves no gap. -/
theorem keepsLead_truncated_iff (bounded : maxInlineBytes ≤ maxUnsigned) (values : List String) :
    KeepsLead (kept ++ values) (truncated maxInlineBytes kept values).1 ↔
      contiguous (room maxInlineBytes kept) values = true := by
  induction values generalizing kept with
  | nil => exact ⟨fun _ => rfl, fun _ => keepsLead_of_isPrefix (List.prefix_append _ _)⟩
  | cons value rest ih =>
    rw [truncated_cons bounded, contiguous]
    by_cases full : room maxInlineBytes kept = 0
    · rw [if_pos full, if_pos full]
      exact ⟨fun _ => rfl, fun _ => keepsLead_of_isPrefix (List.prefix_append _ _)⟩
    rw [if_neg full, if_neg full]
    by_cases whole : value.toList ≠ [] ∧ byteLength value ≤ room maxInlineBytes kept
    · rw [if_pos whole, takeBytes_of_le whole.2, if_neg whole.1, String.ofList_toList,
        ← room_concat, ← ih, List.append_assoc, List.singleton_append]
    rw [if_neg whole]
    simp only [List.all_eq_true, List.isEmpty_iff]
    by_cases empty : takeBytes (room maxInlineBytes kept) value.toList = []
    · rw [if_pos empty, if_pos empty]
      exact keepsLead_after_skip bounded empty rest
    · have cut := longest_takeBytes (room maxInlineBytes kept) value
      have shorter : String.ofList (takeBytes (room maxInlineBytes kept) value.toList) ≠ value := by
        intro same
        refine whole ⟨fun absent => empty ?_, same ▸ cut.fits⟩
        rw [absent, takeBytes]
      rw [if_neg empty, if_neg empty, keepsLead_after_cut bounded cut.begins shorter, room_concat,
        byteLength, String.toList_ofList]
      rfl

end Loop

section Fields

variable {maxInlineBytes : Nat} {field : ToolResultField}

/-- The bytes of a text, or of a list with its separators. -/
def valueBytes (value : StructuredValue) : Nat :=
  (fieldBytes value).getD 0

theorem valueBytes_list (values : List String) :
    valueBytes (.stringList values) = joinedLength values :=
  (joinedLength_eq values).symm

def fieldsBytes (fields : List ToolResultField) : Nat :=
  (fields.map fun field => valueBytes field.value).sum

/-- The lengths of the chosen fields among those of a result, or of what became of them. -/
def chosenBytes (chosen : ToolResultField → Bool) (before after : List ToolResultField) : Nat :=
  fieldsBytes (((before.zip after).filter fun pair => chosen pair.1).map Prod.snd)

theorem chosenBytes_cons (chosen : ToolResultField → Bool) (first second : ToolResultField)
    (before after : List ToolResultField) :
    chosenBytes chosen (first :: before) (second :: after) =
      (if chosen first then valueBytes second.value else 0) + chosenBytes chosen before after := by
  rw [chosenBytes, List.zip_cons_cons, List.filter_cons]
  split <;> simp [fieldsBytes, chosenBytes]

def isOversized (maxInlineBytes : Nat) (field : ToolResultField) : Bool :=
  (oversizedFieldBytes field maxInlineBytes).isSome

theorem isOversized_iff : isOversized maxInlineBytes field = true ↔
    maxInlineBytes < valueBytes field.value := by
  rw [isOversized, oversizedFieldBytes, valueBytes]
  cases fieldBytes field.value <;> simp [Option.filter_some]

theorem isOversized_list (shape : field.value = .stringList values) :
    isOversized maxInlineBytes field = true ↔ maxInlineBytes < joinedLength values := by
  rw [isOversized_iff, shape, valueBytes_list]

/-- What the budget makes of one field. -/
def shortenedField (maxInlineBytes : Nat) (field : ToolResultField) : ToolResultField :=
  if isOversized maxInlineBytes field then (truncateField maxInlineBytes field).1 else field

theorem truncateField_retained (bounded : maxInlineBytes ≤ maxUnsigned)
    (oversized : isOversized maxInlineBytes field = true) :
    (truncateField maxInlineBytes field).2 =
      valueBytes (truncateField maxInlineBytes field).1.value := by
  cases shape : field.value with
  | string text =>
    have long : maxInlineBytes < byteLength text := by
      rw [isOversized_iff, shape] at oversized
      exact oversized
    simp only [truncateField, shape, truncateStringValue, if_neg (Nat.not_le.mpr long)]
    rfl
  | stringList values =>
    have counted := (@truncated_spec maxInlineBytes [] bounded (Nat.zero_le _) values).2.2
    simp only [truncateField, shape, valueBytes_list]
    exact counted
  | null | bool _ | integer _ => simp [isOversized, oversizedFieldBytes, fieldBytes, shape] at oversized

theorem truncateFields_fields (maxInlineBytes : Nat) (report : BudgetReport)
    (fields : List ToolResultField) :
    (truncateFields maxInlineBytes report fields).1 = fields.map (shortenedField maxInlineBytes) := by
  induction fields generalizing report with
  | nil => rfl
  | cons field rest ih =>
    rw [truncateFields, List.map_cons, shortenedField, isOversized]
    cases oversizedFieldBytes field maxInlineBytes <;> simp [ih]

theorem truncateFields_retained (bounded : maxInlineBytes ≤ maxUnsigned) {report : BudgetReport}
    (small : report.retainedBytes ≤ maxUnsigned) (fields : List ToolResultField) :
    (truncateFields maxInlineBytes report fields).2.retainedBytes =
      saturatingAdd report.retainedBytes (chosenBytes (isOversized maxInlineBytes) fields
        (fields.map (shortenedField maxInlineBytes))) := by
  induction fields generalizing report with
  | nil => exact (Nat.min_eq_left small).symm
  | cons field rest ih =>
    rw [truncateFields, List.map_cons, chosenBytes_cons, shortenedField]
    cases measured : oversizedFieldBytes field maxInlineBytes with
    | none =>
      have fits : isOversized maxInlineBytes field = false := by rw [isOversized, measured]; rfl
      simp only [ih small, fits]
      simp
    | some bytes =>
      have long : isOversized maxInlineBytes field = true := by rw [isOversized, measured]; rfl
      have counted := truncateField_retained bounded long
      simp only [long, if_true, ← counted]
      rw [ih (Nat.min_le_right _ _)]
      simp only [saturatingAdd]
      omega

end Fields

section Results

variable {maxInlineBytes : Nat} {result : ToolResult}

/-- The report of a result in which something was cut. -/
def budgetReport (maxInlineBytes : Nat) (result : ToolResult) : BudgetReport :=
  (truncateFields maxInlineBytes {} result.fields).2

/-- The result after the byte budget, under a policy that cuts. -/
def budgetedResult (maxInlineBytes : Nat) (result : ToolResult) : ToolResult :=
  { result with
    fields := result.fields.map (shortenedField maxInlineBytes)
    truncation :=
      if result.fields.any (isOversized maxInlineBytes) then
        some (mergeTruncation result.truncation
          { originalBytes := (budgetReport maxInlineBytes result).originalBytes
            retainedBytes := (budgetReport maxInlineBytes result).retainedBytes
            reason := s!"rendering truncated oversized tool output to max_inline_bytes={maxInlineBytes}" })
      else result.truncation }

theorem oversizedFields_isEmpty (maxInlineBytes : Nat) (fields : List ToolResultField) :
    (oversizedFields maxInlineBytes fields).isEmpty = !fields.any (isOversized maxInlineBytes) := by
  induction fields with
  | nil => rfl
  | cons field rest ih =>
    rw [oversizedFields, List.filterMap_cons, List.any_cons, isOversized]
    cases oversizedFieldBytes field maxInlineBytes with
    | none => simpa [oversizedFields] using ih
    | some bytes => rfl

theorem applyRenderByteBudget_eq {oversizePolicy : OversizeOutputPolicy}
    (cuts : oversizePolicy ≠ .rejectOversize) (result : ToolResult) :
    ∃ reason, applyRenderByteBudget result maxInlineBytes oversizePolicy =
      .ok (budgetedResult maxInlineBytes result, reason) := by
  unfold applyRenderByteBudget
  simp only [oversizedFields_isEmpty, budgetedResult]
  cases some : result.fields.any (isOversized maxInlineBytes) with
  | false =>
    have unchanged : ∀ field ∈ result.fields, shortenedField maxInlineBytes field = id field := by
      intro field member
      have fits := List.any_eq_false.mp some field member
      rw [shortenedField, if_neg fits]
      rfl
    rw [List.map_congr_left unchanged, List.map_id]
    exact ⟨none, rfl⟩
  | true =>
    cases oversizePolicy with
    | rejectOversize => exact absurd rfl cuts
    | truncateWithMetadata | spillToArtifactRef =>
      simp only [truncateFields_fields]
      exact ⟨_, rfl⟩

/-- Each list that the budget shortens keeps a lead within the budget, and the report counts
the bytes of what the shortened fields keep. -/
structure ListsKeepLead (maxInlineBytes : Nat) (before after : ToolResult) : Prop where
  lead : ∀ pair ∈ before.fields.zip after.fields, ∀ values, pair.1.value = .stringList values →
    maxInlineBytes < joinedLength values →
      ∃ kept, pair.2.value = .stringList kept ∧ KeepsLead values kept ∧
        joinedLength kept ≤ maxInlineBytes
  retained : before.fields.any (isOversized maxInlineBytes) →
    ∃ truncation, after.truncation = some truncation ∧
      truncation.retainedBytes =
        saturatingAdd ((before.truncation.map (·.retainedBytes)).getD 0)
          (chosenBytes (isOversized maxInlineBytes) before.fields after.fields)

theorem budgetedResult_retained (bounded : maxInlineBytes ≤ maxUnsigned)
    (some : result.fields.any (isOversized maxInlineBytes) = true) :
    ∃ truncation, (budgetedResult maxInlineBytes result).truncation = .some truncation ∧
      truncation.retainedBytes =
        saturatingAdd ((result.truncation.map (·.retainedBytes)).getD 0)
          (chosenBytes (isOversized maxInlineBytes) result.fields
            (budgetedResult maxInlineBytes result).fields) := by
  have report : (budgetReport maxInlineBytes result).retainedBytes = _ :=
    @truncateFields_retained maxInlineBytes bounded {} (Nat.zero_le _) result.fields
  refine ⟨_, if_pos some, ?_⟩
  cases result.truncation with
  | none =>
    simp only [mergeTruncation, report]
    rfl
  | some existing =>
    simp only [mergeTruncation, report, budgetedResult, Option.map_some, Option.getD_some,
      saturatingAdd]
    omega

theorem shortenedField_list {field : ToolResultField} (shape : field.value = .stringList values)
    (long : maxInlineBytes < joinedLength values) :
    (shortenedField maxInlineBytes field).value =
      .stringList (truncated maxInlineBytes [] values).1 := by
  rw [shortenedField, if_pos ((isOversized_list shape).mpr long), truncateField]
  simp only [shape]
  rfl

/-- The lists of a rendered result keep a lead exactly when none of the oversized ones has a
value that fits after one that is not kept whole. -/
theorem listsKeepLead_budgetedResult_iff (bounded : maxInlineBytes ≤ maxUnsigned) :
    ListsKeepLead maxInlineBytes result (budgetedResult maxInlineBytes result) ↔
      ∀ field ∈ result.fields, ∀ values, field.value = .stringList values →
        maxInlineBytes < joinedLength values → contiguous maxInlineBytes values = true := by
  have pairs : result.fields.zip (budgetedResult maxInlineBytes result).fields =
      result.fields.map fun field => (field, shortenedField maxInlineBytes field) :=
    List.map_prod_left_eq_zip.symm
  have exact (values : List String) :
      KeepsLead values (truncated maxInlineBytes [] values).1 ↔
        contiguous maxInlineBytes values = true :=
    @keepsLead_truncated_iff maxInlineBytes [] bounded values
  constructor
  · intro lists field member values shape long
    have paired := List.mem_map_of_mem (f := fun field =>
      (field, shortenedField maxInlineBytes field)) member
    obtain ⟨kept, left, lead, _⟩ := lists.lead _ (pairs ▸ paired) values shape long
    rw [shortenedField_list shape long] at left
    cases left
    exact (exact values).mp lead
  · intro condition
    refine ⟨?_, budgetedResult_retained bounded⟩
    intro pair member values shape long
    rw [pairs] at member
    obtain ⟨field, present, rfl⟩ := List.mem_map.mp member
    have spec := @truncated_spec maxInlineBytes [] bounded (Nat.zero_le _) values
    exact ⟨_, shortenedField_list shape long,
      (exact values).mpr (condition field present values shape long), spec.2.1⟩

/-- Rendering under a policy that cuts oversized fields. -/
theorem rendered_lists_keep_lead_iff (result : ToolResult) (policy : ToolOutputRenderPolicy)
    (limited : policy.maxInlineBytes = some maxInlineBytes) (bounded : maxInlineBytes ≤ maxUnsigned)
    (cuts : policy.oversizePolicy ≠ .rejectOversize) :
    ∃ rendered reason, renderableResult result policy = .ok (rendered, reason) ∧
      (ListsKeepLead maxInlineBytes (keptResult result policy) rendered ↔
        ∀ field ∈ (keptResult result policy).fields, ∀ values, field.value = .stringList values →
          maxInlineBytes < joinedLength values → contiguous maxInlineBytes values = true) := by
  obtain ⟨reason, applied⟩ := applyRenderByteBudget_eq cuts (keptResult result policy)
  refine ⟨_, reason, ?_, listsKeepLead_budgetedResult_iff bounded⟩
  rw [renderableResult, limited]
  exact applied

/-- A result of the search tool with one list field. -/
def searchResult (values : List String) : ToolResult where
  id := .new _ (.ofNat 1)
  schemaVersion := 1
  createdAt := ⟨0⟩
  invocationId := .new _ (.ofNat 2)
  toolId := "fs.search"
  status := .succeeded
  schemaRef := none
  fields := [⟨"matches", .stringList values⟩]
  evidenceRefs := []
  outputRefs := []
  truncation := none
  redactions := []

/-- A policy whose only limit is the byte budget. -/
def bytePolicy (maxInlineBytes : Nat) : ToolOutputRenderPolicy :=
  { ToolOutputRenderPolicy.fromRenderOptions {} with maxInlineBytes := some maxInlineBytes }

/-- Whole values are kept, and the last one is cut at a boundary. -/
theorem search_matches_keep_lead :
    ∃ rendered reason, renderableResult (searchResult ["ab", "cd€€"]) (bytePolicy 9) =
        .ok (rendered, reason) ∧
      ListsKeepLead 9 (keptResult (searchResult ["ab", "cd€€"]) (bytePolicy 9)) rendered := by
  obtain ⟨rendered, reason, returned, exact⟩ := rendered_lists_keep_lead_iff
    (searchResult ["ab", "cd€€"]) (bytePolicy 9) rfl (by decide) (by decide)
  refine ⟨rendered, reason, returned, exact.mpr ?_⟩
  intro field member values shape long
  have only : (keptResult (searchResult ["ab", "cd€€"]) (bytePolicy 9)).fields =
      [⟨"matches", .stringList ["ab", "cd€€"]⟩] := by decide +kernel
  rw [only, List.mem_singleton] at member
  subst member
  cases shape
  decide +kernel

/-- An empty match leaves its place to the match after it. -/
theorem search_matches_lose_lead :
    (∃ rendered reason, renderableResult (searchResult ["", "abcdef"]) (bytePolicy 3) =
        .ok (rendered, reason) ∧ rendered.fields = [⟨"matches", .stringList ["abc"]⟩]) ∧
      ¬ KeepsLead ["", "abcdef"] ["abc"] := by
  refine ⟨⟨_, _, rfl, by decide +kernel⟩, fun lead => ?_⟩
  have place := (@KeepsLead.next [] _ _ _ _ lead).1
  exact absurd place (by decide)

end Results

end Atelia.ToolOutput
