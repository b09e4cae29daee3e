import Atelia.Runtime.RenderBudget
import Atelia.Runtime.RunToolJob

/-! What the runtime's truncation leaves of a tool result. -/

namespace Atelia.Runtime

open Excerpt
open ToolOutput (valueBytes valueBytes_list fieldsBytes chosenBytes chosenBytes_cons searchResult)

variable {maxInlineBytes : Nat} {field : ToolResultField}

section Sizes

theorem saturatingAdd_of_le {first second : Nat} (fits : first + second ≤ maxUnsigned) :
    saturatingAdd first second = first + second :=
  Nat.min_eq_left fits

theorem stringListByteLen_eq {bytes : Nat} (small : bytes ≤ maxUnsigned) (values : List String) :
    stringListByteLen bytes values = min (bytes + joinedLength values) maxUnsigned := by
  induction values generalizing bytes with
  | nil => simp [stringListByteLen, small]
  | cons value rest ih =>
    have more : (if rest.isEmpty then saturatingAdd bytes (Text.byteLength value)
        else saturatingAdd (saturatingAdd bytes (Text.byteLength value)) 1) ≤ maxUnsigned := by
      split <;> exact Nat.min_le_right _ _
    rw [stringListByteLen, ih more, joinedLength_eq, joinedLength_eq]
    cases rest with
    | nil => simp [saturatingAdd]
    | cons next rest => simp [saturatingAdd]; omega

theorem oversizedFieldBytes_string {text : String} (shape : field.value = .string text) :
    oversizedFieldBytes field maxInlineBytes =
      if maxInlineBytes < Text.byteLength text then some (Text.byteLength text) else none := by
  simp [oversizedFieldBytes, shape, Option.filter_some]

theorem oversizedFieldBytes_list {values : List String} (shape : field.value = .stringList values) :
    oversizedFieldBytes field maxInlineBytes =
      if maxInlineBytes < min (joinedLength values) maxUnsigned then
        some (min (joinedLength values) maxUnsigned) else none := by
  simp [oversizedFieldBytes, shape, Option.filter_some, stringListByteLen_eq (Nat.zero_le _)]

/-- A field within the budget is left alone. -/
theorem oversizedFieldBytes_of_le (fits : valueBytes field.value ≤ maxInlineBytes) :
    oversizedFieldBytes field maxInlineBytes = none := by
  cases shape : field.value with
  | string text =>
    rw [shape] at fits
    have short : ¬ maxInlineBytes < Text.byteLength text := Nat.not_lt.mpr fits
    rw [oversizedFieldBytes_string shape, if_neg short]
  | stringList values =>
    rw [shape, valueBytes_list] at fits
    rw [oversizedFieldBytes_list shape, if_neg]
    omega
  | null | bool _ | integer _ => simp [oversizedFieldBytes, shape]

end Sizes

section Lists

/-- The values taken so far are whole, their bytes are counted with their separators, and
they fit; the loop adds values while this holds and stops with at most one cut. -/
theorem truncateStringList_keepsLead (small : maxInlineBytes ≤ maxUnsigned)
    {kept : List String} (fits : joinedLength kept ≤ maxInlineBytes) (values : List String) :
    KeepsLead (kept ++ values)
        (truncateStringList maxInlineBytes kept.length kept (joinedLength kept) values).1 ∧
      joinedLength (truncateStringList maxInlineBytes kept.length kept (joinedLength kept) values).1 ≤
        maxInlineBytes ∧
      (truncateStringList maxInlineBytes kept.length kept (joinedLength kept) values).2 =
        joinedLength
          (truncateStringList maxInlineBytes kept.length kept (joinedLength kept) values).1 := by
  induction values generalizing kept with
  | nil => exact ⟨keepsLead_of_isPrefix (List.prefix_append _ _), fits, rfl⟩
  | cons value rest ih =>
    have separated : (if 0 < kept.length then 1 else 0) = separator kept := by
      cases kept <;> simp [separator]
    obtain ⟨room, defined⟩ : ∃ room, maxInlineBytes - saturatingAdd (joinedLength kept)
        (separator kept) = room := ⟨_, rfl⟩
    have remaining : room = 0 ∨ joinedLength kept + separator kept + room = maxInlineBytes := by
      unfold saturatingAdd at defined
      omega
    simp only [truncateStringList, separated, defined]
    split_ifs with full whole cut
    · exact ⟨keepsLead_of_isPrefix (List.prefix_append _ _), fits, rfl⟩
    · have grown := joinedLength_concat kept value
      have step := @ih (kept ++ [value]) (by omega)
      rw [grown, List.length_append, List.length_singleton, List.append_assoc,
        List.singleton_append] at step
      exact step
    · have grown := joinedLength_concat kept (String.ofList (Text.takeBytes room value.toList))
      have shortened := longest_takeBytes room value
      have short := shortened.fits
      refine ⟨.inr ⟨kept, value, _, ⟨rest, by simp⟩, shortened.begins, rfl⟩, ?_, grown.symm⟩
      rw [grown]
      omega
    · exact ⟨keepsLead_of_isPrefix (List.prefix_append _ _), fits, rfl⟩

end Lists

section Fields

/-- What truncation makes of one field. -/
def truncatedField (maxInlineBytes : Nat) (field : ToolResultField) : ToolResultField :=
  match oversizedFieldBytes field maxInlineBytes, truncatedValue maxInlineBytes field.value with
  | some _, some (value, _) => { field with value }
  | _, _ => field

/-- A field and what truncation leaves of it. -/
structure Truncated (maxInlineBytes : Nat) (before after : ToolResultField) : Prop where
  key : after.key = before.key
  text : ∀ text, before.value = .string text →
    ∃ lead, after.value = .string lead ∧ Longest maxInlineBytes text lead
  list : ∀ values, before.value = .stringList values →
    ∃ kept, after.value = .stringList kept ∧ KeepsLead values kept
  unchanged : oversizedFieldBytes before maxInlineBytes = none → after = before

theorem truncatedField_of_fits (fits : oversizedFieldBytes field maxInlineBytes = none) :
    truncatedField maxInlineBytes field = field := by
  simp [truncatedField, fits]

variable {originalBytes : Nat}

theorem truncatedField_of_oversized {retainedBytes : Nat} {value : StructuredValue}
    (oversized : oversizedFieldBytes field maxInlineBytes = some originalBytes)
    (cut : truncatedValue maxInlineBytes field.value = some (value, retainedBytes)) :
    truncatedField maxInlineBytes field = { field with value } := by
  simp [truncatedField, oversized, cut]

/-- What is said of an oversized field and its report. -/
structure Shortened (maxInlineBytes originalBytes : Nat) (before after : ToolResultField) : Prop where
  cut : truncatedValue maxInlineBytes before.value = some (after.value, valueBytes after.value)
  fits : valueBytes after.value ≤ maxInlineBytes
  shorter : maxInlineBytes < originalBytes
  counted : valueBytes before.value ≤ maxUnsigned → originalBytes = valueBytes before.value
  truncated : Truncated maxInlineBytes before after

theorem shortened_text {text : String} (shape : field.value = .string text)
    (oversized : oversizedFieldBytes field maxInlineBytes = some originalBytes) :
    Shortened maxInlineBytes originalBytes field (truncatedField maxInlineBytes field) := by
  have measured := oversized
  rw [oversizedFieldBytes_string shape] at measured
  obtain ⟨long, ⟨⟩⟩ := Option.ite_none_right_eq_some.mp measured
  have cut : truncatedValue maxInlineBytes field.value =
      some (.string (String.ofList (Text.takeBytes maxInlineBytes text.toList)),
        Text.byteLength (String.ofList (Text.takeBytes maxInlineBytes text.toList))) := by
    rw [shape, truncatedValue, truncateStringValue, ToolOutput.truncateStringValue,
      if_neg (Nat.not_le.mpr long), Option.map_some]
  rw [truncatedField_of_oversized oversized cut]
  have longest := longest_takeBytes maxInlineBytes text
  exact {
    cut := cut
    fits := longest.fits
    shorter := long
    counted := fun _ => by rw [shape]; rfl
    truncated := {
      key := rfl
      text := fun other same => ⟨_, rfl, by
        obtain rfl := StructuredValue.string.inj (shape.symm.trans same)
        exact longest⟩
      list := fun values same => by rw [shape] at same; cases same
      unchanged := fun fits => by rw [oversized] at fits; cases fits } }

theorem shortened_list {values : List String} (shape : field.value = .stringList values)
    (oversized : oversizedFieldBytes field maxInlineBytes = some originalBytes) :
    Shortened maxInlineBytes originalBytes field (truncatedField maxInlineBytes field) := by
  have measured := oversized
  rw [oversizedFieldBytes_list shape] at measured
  obtain ⟨long, ⟨⟩⟩ := Option.ite_none_right_eq_some.mp measured
  have small : maxInlineBytes ≤ maxUnsigned := by omega
  obtain ⟨lead, fits, counted⟩ :=
    @truncateStringList_keepsLead maxInlineBytes small [] (Nat.zero_le _) values
  have cut : truncatedValue maxInlineBytes field.value =
      some (.stringList (truncateStringList maxInlineBytes 0 [] 0 values).1,
        (truncateStringList maxInlineBytes 0 [] 0 values).2) := by
    rw [shape, truncatedValue]
  rw [truncatedField_of_oversized oversized cut]
  exact {
    cut := by rw [cut, valueBytes_list]; exact congrArg (fun bytes => some (_, bytes)) counted
    fits := (valueBytes_list _).trans_le fits
    shorter := long
    counted := fun bounded => by
      rw [shape, valueBytes_list] at bounded ⊢
      exact Nat.min_eq_left bounded
    truncated := {
      key := rfl
      text := fun text same => by rw [shape] at same; cases same
      list := fun other same => ⟨_, rfl, by
        obtain rfl := StructuredValue.stringList.inj (shape.symm.trans same)
        exact lead⟩
      unchanged := fun fits => by rw [oversized] at fits; cases fits } }

/-- An oversized field is cut to the budget, and what it keeps is counted. -/
theorem shortened_of_oversized
    (oversized : oversizedFieldBytes field maxInlineBytes = some originalBytes) :
    Shortened maxInlineBytes originalBytes field (truncatedField maxInlineBytes field) := by
  cases shape : field.value with
  | string text => exact shortened_text shape oversized
  | stringList values => exact shortened_list shape oversized
  | null | bool _ | integer _ => simp [oversizedFieldBytes, shape] at oversized

theorem truncated_truncatedField (maxInlineBytes : Nat) (field : ToolResultField) :
    Truncated maxInlineBytes field (truncatedField maxInlineBytes field) := by
  cases measured : oversizedFieldBytes field maxInlineBytes with
  | some originalBytes => exact (shortened_of_oversized measured).truncated
  | none =>
    rw [truncatedField_of_fits measured]
    refine ⟨rfl, fun text shape => ⟨text, shape, ?_⟩, fun values shape =>
      ⟨values, shape, keepsLead_of_isPrefix List.prefix_rfl⟩, fun _ => rfl⟩
    rw [oversizedFieldBytes_string shape] at measured
    simp only [ite_eq_right_iff, reduceCtorEq, imp_false, Nat.not_lt] at measured
    exact longest_self measured

/-- After truncation no field is oversized. -/
theorem oversizedFieldBytes_truncatedField (maxInlineBytes : Nat) (field : ToolResultField) :
    oversizedFieldBytes (truncatedField maxInlineBytes field) maxInlineBytes = none := by
  cases measured : oversizedFieldBytes field maxInlineBytes with
  | some originalBytes => exact oversizedFieldBytes_of_le (shortened_of_oversized measured).fits
  | none => rw [truncatedField_of_fits measured, measured]

end Fields

section Results

variable {result : ToolResult} {fields : List ToolResultField}

def isOversized (maxInlineBytes : Nat) (field : ToolResultField) : Bool :=
  (oversizedFieldBytes field maxInlineBytes).isSome

theorem truncateFields_fields (maxInlineBytes : Nat) (report : ToolResultTruncationReport)
    (fields : List ToolResultField) :
    (truncateFields maxInlineBytes report fields).1 = fields.map (truncatedField maxInlineBytes) := by
  induction fields generalizing report with
  | nil => rfl
  | cons field rest ih =>
    rw [truncateFields, List.map_cons]
    cases measured : oversizedFieldBytes field maxInlineBytes with
    | none => simp only [ih, truncatedField_of_fits measured]
    | some originalBytes =>
      have cut := (shortened_of_oversized measured).cut
      simp only [cut, ih]
      rw [← truncatedField_of_oversized measured cut]

/-- The report counts the fields and adds up their bytes before and after; nothing saturates
while the values fit in memory. -/
theorem truncateFields_report {report : ToolResultTruncationReport} {fields : List ToolResultField}
    (lessRetained : report.retainedBytes ≤ report.originalBytes)
    (inMemory : report.originalBytes + fieldsBytes fields ≤ maxUnsigned) :
    (truncateFields maxInlineBytes report fields).2 =
      { fields := report.fields + fields.countP (isOversized maxInlineBytes)
        originalBytes := report.originalBytes + chosenBytes (isOversized maxInlineBytes) fields fields
        retainedBytes := report.retainedBytes + chosenBytes (isOversized maxInlineBytes) fields
          (fields.map (truncatedField maxInlineBytes)) } := by
  induction fields generalizing report with
  | nil => rfl
  | cons field rest ih =>
    have total : fieldsBytes (field :: rest) = valueBytes field.value + fieldsBytes rest := rfl
    rw [truncateFields, List.map_cons, chosenBytes_cons, chosenBytes_cons, List.countP_cons]
    cases measured : oversizedFieldBytes field maxInlineBytes with
    | none =>
      have fits : isOversized maxInlineBytes field = false := by rw [isOversized, measured]; rfl
      rw [fits]
      simp only [ih lessRetained (by omega)]
      simp
    | some originalBytes =>
      have shortened := shortened_of_oversized measured
      have counted := shortened.counted (by omega)
      have fits := shortened.fits
      have shorter := shortened.shorter
      have long : isOversized maxInlineBytes field = true := by rw [isOversized, measured]; rfl
      rw [long, shortened.cut]
      simp only [if_true]
      rw [saturatingAdd_of_le (by omega), saturatingAdd_of_le (by omega),
        ih (by simp only; omega) (by simp only; omega)]
      simp only [ToolResultTruncationReport.mk.injEq]
      omega

/-- Each shortened field has become smaller, so their sum has. -/
theorem chosenBytes_truncated (inMemory : fieldsBytes fields ≤ maxUnsigned) :
    chosenBytes (isOversized maxInlineBytes) fields (fields.map (truncatedField maxInlineBytes)) +
        fields.countP (isOversized maxInlineBytes) ≤
      chosenBytes (isOversized maxInlineBytes) fields fields := by
  induction fields with
  | nil => exact Nat.le_refl _
  | cons field rest ih =>
    have total : fieldsBytes (field :: rest) = valueBytes field.value + fieldsBytes rest := rfl
    have others := ih (by omega)
    rw [List.map_cons, chosenBytes_cons, chosenBytes_cons, List.countP_cons]
    cases measured : oversizedFieldBytes field maxInlineBytes with
    | none =>
      have fits : isOversized maxInlineBytes field = false := by rw [isOversized, measured]; rfl
      simpa [fits] using others
    | some originalBytes =>
      have long : isOversized maxInlineBytes field = true := by rw [isOversized, measured]; rfl
      have shortened := shortened_of_oversized measured
      have counted := shortened.counted (by omega)
      have fits := shortened.fits
      have shorter := shortened.shorter
      simp only [long, if_true]
      omega

theorem truncateFields_of_fits {report : ToolResultTruncationReport}
    (fits : ∀ field ∈ fields, oversizedFieldBytes field maxInlineBytes = none) :
    truncateFields maxInlineBytes report fields = (fields, report) := by
  induction fields with
  | nil => rfl
  | cons field rest ih =>
    have here := fits field List.mem_cons_self
    have there := ih fun other member => fits other (List.mem_cons_of_mem _ member)
    simp only [truncateFields, here, there]

/-- The result as the function leaves it. -/
def truncatedResult (maxInlineBytes : Nat) (result : ToolResult) : ToolResult :=
  ((truncateOversizedToolResultFields result maxInlineBytes).map Prod.fst).getD result

theorem truncateOversizedToolResultFields_eq (inMemory : fieldsBytes result.fields ≤ maxUnsigned) :
    truncateOversizedToolResultFields result maxInlineBytes =
      if result.fields.countP (isOversized maxInlineBytes) = 0 then none
      else some ({ result with fields := result.fields.map (truncatedField maxInlineBytes) },
        { fields := result.fields.countP (isOversized maxInlineBytes)
          originalBytes := chosenBytes (isOversized maxInlineBytes) result.fields result.fields
          retainedBytes := chosenBytes (isOversized maxInlineBytes) result.fields
            (result.fields.map (truncatedField maxInlineBytes)) }) := by
  have report : (truncateFields maxInlineBytes {} result.fields).2 = _ :=
    truncateFields_report (Nat.le_refl 0) (by simpa using inMemory)
  simp only [truncateOversizedToolResultFields, report, truncateFields_fields, Nat.zero_add]

theorem truncatedResult_eq (inMemory : fieldsBytes result.fields ≤ maxUnsigned) :
    truncatedResult maxInlineBytes result =
      { result with fields := result.fields.map (truncatedField maxInlineBytes) } := by
  rw [truncatedResult, truncateOversizedToolResultFields_eq inMemory]
  split
  · rename_i none
    have unchanged : ∀ field ∈ result.fields, truncatedField maxInlineBytes field = id field := by
      intro field member
      have fits := List.countP_eq_zero.mp none field member
      rw [isOversized, Bool.not_eq_true, Option.isSome_eq_false_iff, Option.isNone_iff_eq_none]
        at fits
      exact truncatedField_of_fits fits
    rw [List.map_congr_left unchanged, List.map_id]
    rfl
  · rfl

/-- Truncation is exact, touches oversized fields only, reports what it left, and is done
after one pass. The lengths of the values in memory add up to a machine number. -/
theorem truncation_exact_and_stable (result : ToolResult) (maxInlineBytes : Nat)
    (inMemory : fieldsBytes result.fields ≤ maxUnsigned) :
    (∀ field ∈ (truncatedResult maxInlineBytes result).fields,
        oversizedFieldBytes field maxInlineBytes = none) ∧
      List.Forall₂ (Truncated maxInlineBytes) result.fields
        (truncatedResult maxInlineBytes result).fields ∧
      truncatedResult maxInlineBytes result =
        { result with fields := (truncatedResult maxInlineBytes result).fields } ∧
      (∀ truncated report, truncateOversizedToolResultFields result maxInlineBytes =
          some (truncated, report) →
        report.retainedBytes = chosenBytes (isOversized maxInlineBytes) result.fields truncated.fields ∧
          report.retainedBytes < report.originalBytes) ∧
      truncateOversizedToolResultFields (truncatedResult maxInlineBytes result) maxInlineBytes =
        none := by
  rw [truncatedResult_eq inMemory]
  have settled : ∀ field ∈ result.fields.map (truncatedField maxInlineBytes),
      oversizedFieldBytes field maxInlineBytes = none := by
    intro field member
    obtain ⟨before, _, rfl⟩ := List.mem_map.mp member
    exact oversizedFieldBytes_truncatedField maxInlineBytes before
  refine ⟨settled, ?_, rfl, ?_, ?_⟩
  · rw [List.forall₂_map_right_iff, List.forall₂_same]
    exact fun field _ => truncated_truncatedField maxInlineBytes field
  · intro truncated report returned
    rw [truncateOversizedToolResultFields_eq inMemory] at returned
    obtain ⟨some, same⟩ := Option.ite_none_left_eq_some.mp returned
    cases same
    have smaller : _ + result.fields.countP (isOversized maxInlineBytes) ≤ _ :=
      chosenBytes_truncated inMemory
    exact ⟨rfl, by simp only; omega⟩
  · simp [truncateOversizedToolResultFields, truncateFields_of_fits settled]

/-- Two values and a lead of the third are kept; the euro sign does not fit. -/
theorem search_matches_truncated :
    (truncatedResult 7 (searchResult ["ab", "", "cd€"])).fields =
        [⟨"matches", .stringList ["ab", "", "cd"]⟩] ∧
      truncateOversizedToolResultFields (truncatedResult 7
        (searchResult ["ab", "", "cd€"])) 7 = none :=
  ⟨by decide +kernel, (truncation_exact_and_stable
    (searchResult ["ab", "", "cd€"]) 7 (by decide)).2.2.2.2⟩

end Results

end Atelia.Runtime
