import Atelia.Runtime.Settings

/-! Rendering of tool results: which fields a policy keeps, the byte budget, and the three
formats. -/

namespace Atelia.ToolOutput

/-- The JSON texts of a tool result, which an external serializer produces. -/
structure JsonWriter where
  pretty : ToolResult → String
  compact : ToolResult → String

inductive ToolOutputRenderError where
  | unsupportedFormat (format : OutputFormat)
  | jsonSerialize (reason : String)
  | oversizeOutput (reason : String)
  deriving DecidableEq

section Fields

inductive OptionalFieldChannel where
  | policy | diagnostics | cost
  deriving DecidableEq

def optionalFieldChannel (key : String) : Option OptionalFieldChannel :=
  let normalized := Text.replaceAny ['-', '.', ' '] '_' (Text.toAsciiLowercase (Text.trim key))
  if normalized = "policy" || Text.startsWith normalized "policy_" ||
      normalized ∈ ["needs_approval", "blocked_reason"] then some .policy
  else if normalized = "diagnostic" || normalized = "diagnostics" ||
      Text.startsWith normalized "diagnostic_" || Text.startsWith normalized "diagnostics_" ||
      normalized ∈ ["retry_hint", "parser_failure"] then some .diagnostics
  else if normalized = "cost" || Text.startsWith normalized "cost_" ||
      Text.endsWith normalized "_tokens" || normalized ∈ ["duration_ms", "elapsed_ms"] then
    some .cost
  else none

def shouldRenderField (key : String) (options : RenderOptions) : Bool :=
  match optionalFieldChannel key with
  | some .policy => options.includePolicy
  | some .diagnostics => options.includeDiagnostics
  | some .cost => options.includeCost
  | none => true

/-- The stable sort that moves the summary fields to the front. -/
def prioritizeRenderableFields (fields : List ToolResultField) : List ToolResultField :=
  fields.filter (·.key = "summary") ++ fields.filter (·.key ≠ "summary")

/-- The fields a policy keeps. The choice looks at the keys only. -/
def keptFields (policy : ToolOutputRenderPolicy) (fields : List ToolResultField) :
    List ToolResultField :=
  let shown := fields.filter fun field => shouldRenderField field.key policy.renderOptions
  match policy.maxFields with
  | some maxFields => (prioritizeRenderableFields shown).take maxFields
  | none => shown

end Fields

section Budget

def fieldBytes : StructuredValue → Option Nat
  | .string value => some (Text.byteLength value)
  | .stringList values => some ((values.map Text.byteLength).sum + (values.length - 1))
  | _ => none

def oversizedFieldBytes (field : ToolResultField) (maxInlineBytes : Nat) : Option Nat :=
  (fieldBytes field.value).filter fun bytes => maxInlineBytes < bytes

def truncateStringValue (value : String) (maxInlineBytes : Nat) : Option String :=
  if Text.byteLength value ≤ maxInlineBytes then none
  else some (String.ofList (Text.takeBytes maxInlineBytes value.toList))

/-- Keep values while bytes remain; a value of which nothing fits is skipped. -/
def truncateStringList (maxInlineBytes : Nat) (keptValues : List String) (keptBytes : Nat) :
    List String → List String × Nat
  | [] => (keptValues, keptBytes)
  | value :: rest =>
    let separator := if keptValues.isEmpty then 0 else 1
    let remaining := maxInlineBytes - saturatingAdd keptBytes separator
    if remaining = 0 then (keptValues, keptBytes)
    else
      let truncated := (truncateStringValue value remaining).getD value
      if truncated.toList.isEmpty then truncateStringList maxInlineBytes keptValues keptBytes rest
      else truncateStringList maxInlineBytes (keptValues ++ [truncated])
        (saturatingAdd keptBytes (separator + Text.byteLength truncated)) rest

/-- An oversized field cut down to the budget, with the bytes it keeps. -/
def truncateField (maxInlineBytes : Nat) (field : ToolResultField) : ToolResultField × Nat :=
  match field.value with
  | .string value =>
    match truncateStringValue value maxInlineBytes with
    | some truncated => ({ field with value := .string truncated }, Text.byteLength truncated)
    | none => (field, 0)
  | .stringList values =>
    let (truncated, retained) := truncateStringList maxInlineBytes [] 0 values
    ({ field with value := .stringList truncated }, retained)
  | _ => (field, 0)

structure BudgetReport where
  omittedFields : Nat := 0
  originalBytes : Nat := 0
  retainedBytes : Nat := 0

/-- Cut every oversized field. -/
def truncateFields (maxInlineBytes : Nat) : BudgetReport → List ToolResultField →
    List ToolResultField × BudgetReport
  | report, [] => ([], report)
  | report, field :: rest =>
    match oversizedFieldBytes field maxInlineBytes with
    | none =>
      let (fields, report) := truncateFields maxInlineBytes report rest
      (field :: fields, report)
    | some bytes =>
      let (truncated, retained) := truncateField maxInlineBytes field
      let (fields, report) := truncateFields maxInlineBytes
        { omittedFields := report.omittedFields + 1
          originalBytes := saturatingAdd report.originalBytes bytes
          retainedBytes := saturatingAdd report.retainedBytes retained } rest
      (truncated :: fields, report)

def mergeTruncation (existing : Option TruncationMetadata) (added : TruncationMetadata) :
    TruncationMetadata :=
  match existing with
  | some existing =>
    { originalBytes := saturatingAdd existing.originalBytes added.originalBytes
      retainedBytes := saturatingAdd existing.retainedBytes added.retainedBytes
      reason := s!"{existing.reason}; {added.reason}" }
  | none => added

def oversizeDetails (oversized : List (String × Nat)) : String :=
  ", ".intercalate (oversized.map fun (key, size) => s!"{key} ({size} bytes)")

def oversizedFields (maxInlineBytes : Nat) (fields : List ToolResultField) :
    List (String × Nat) :=
  fields.filterMap fun field =>
    (oversizedFieldBytes field maxInlineBytes).map fun bytes => (field.key, bytes)

def applyRenderByteBudget (result : ToolResult) (maxInlineBytes : Nat)
    (oversizePolicy : OversizeOutputPolicy) :
    Except ToolOutputRenderError (ToolResult × Option String) :=
  let oversized := oversizedFields maxInlineBytes result.fields
  if oversized.isEmpty then .ok (result, none)
  else match oversizePolicy with
    | .rejectOversize => .error (.oversizeOutput
        s!"tool output field(s) exceed max_inline_bytes={maxInlineBytes} with configured policy reject_oversize: {oversizeDetails oversized}")
    | .truncateWithMetadata | .spillToArtifactRef =>
      let (fields, report) := truncateFields maxInlineBytes {} result.fields
      let truncation := mergeTruncation result.truncation
        { originalBytes := report.originalBytes
          retainedBytes := report.retainedBytes
          reason := s!"rendering truncated oversized tool output to max_inline_bytes={maxInlineBytes}" }
      .ok ({ result with fields, truncation := some truncation },
        some s!"rendering truncated oversized output to max_inline_bytes={maxInlineBytes}; omitted fields={report.omittedFields}, details={oversizeDetails oversized}")

def combineFallbackReasons : Option String → Option String → Option String
  | none, none => none
  | some reason, none | none, some reason => some reason
  | some policyReason, some truncationReason => some s!"{policyReason}; {truncationReason}"

/-- The result with only what the policy lets the renderers see. -/
def keptResult (result : ToolResult) (policy : ToolOutputRenderPolicy) : ToolResult :=
  { result with
    fields := keptFields policy result.fields
    evidenceRefs := if policy.includeEvidenceRefs then result.evidenceRefs else []
    outputRefs := if policy.includeOutputRefs then result.outputRefs else []
    redactions := if policy.includeRedactions then result.redactions else [] }

def renderableResult (result : ToolResult) (policy : ToolOutputRenderPolicy) :
    Except ToolOutputRenderError (ToolResult × Option String) :=
  match policy.maxInlineBytes with
  | none => .ok (keptResult result policy, none)
  | some maxInlineBytes =>
    applyRenderByteBudget (keptResult result policy) maxInlineBytes policy.oversizePolicy

def renderPolicyFallbackReason (original rendered : ToolResult) : Option String :=
  let omittedFields := original.fields.length - rendered.fields.length
  let omittedEvidenceRefs := original.evidenceRefs.length - rendered.evidenceRefs.length
  let omittedOutputRefs := original.outputRefs.length - rendered.outputRefs.length
  let omittedRedactions := original.redactions.length - rendered.redactions.length
  if 0 < omittedFields ∨ 0 < omittedEvidenceRefs ∨ 0 < omittedOutputRefs ∨
      0 < omittedRedactions then
    some s!"render policy compacted output; omitted fields={omittedFields}, evidence_refs={omittedEvidenceRefs}, output_refs={omittedOutputRefs}, redactions={omittedRedactions}"
  else none

end Budget

section Values

def statusName : ToolResultStatus → String
  | .succeeded => "succeeded"
  | .failed => "failed"
  | .canceled => "canceled"
  | .timedOut => "timeout"

def formatName : OutputFormat → String
  | .toon => "toon"
  | .json => "json"
  | .text => "text"

def schemaVersion (result : ToolResult) : String :=
  s!"tool_result.v{result.schemaVersion}"

def isDigit (character : Char) : Bool :=
  '0' ≤ character && character ≤ '9'

def digitsValue (digits : List Char) : Nat :=
  digits.foldl (fun value digit => 10 * value + (digit.toNat - '0'.toNat)) 0

/-- Decimal digits with an optional sign, within the range of an `i64`. -/
def parsesAsInteger (text : String) : Bool :=
  match text.toList with
  | '-' :: digits => !digits.isEmpty && digits.all isDigit && digitsValue digits ≤ 2 ^ 63
  | '+' :: digits => !digits.isEmpty && digits.all isDigit && digitsValue digits < 2 ^ 63
  | digits => !digits.isEmpty && digits.all isDigit && digitsValue digits < 2 ^ 63

def unsigned : List Char → List Char
  | '-' :: rest | '+' :: rest => rest
  | characters => characters

/-- An optional exponent: nothing, or `e` and a signed decimal number. -/
def isExponent : List Char → Bool
  | [] => true
  | mark :: rest =>
    mark.toLower = 'e' && !(unsigned rest).isEmpty && (unsigned rest).all isDigit

/-- Digits with at most one decimal point, at least one digit, and an exponent. -/
def isDecimal (characters : List Char) : Bool :=
  let whole := characters.takeWhile isDigit
  match characters.dropWhile isDigit with
  | '.' :: rest =>
    !(whole ++ rest.takeWhile isDigit).isEmpty && isExponent (rest.dropWhile isDigit)
  | rest => !whole.isEmpty && isExponent rest

/-- The texts that parse as an `f64`. -/
def parsesAsFloat (text : String) : Bool :=
  let magnitude := unsigned text.toList
  String.ofList (magnitude.map Char.toLower) ∈ ["inf", "infinity", "nan"] || isDecimal magnitude

def isToonLiteral (value : String) : Bool :=
  value ∈ ["null", "true", "false"] || parsesAsInteger value || parsesAsFloat value

def needsQuotes (character : Char) : Bool :=
  Text.isControl character || Text.isWhitespace character ||
    character ∈ [',', '[', ']', '\x7b', '\x7d', '"', '\'', '#', ':', '\\']

def quotedCharacter : Char → List Char
  | '\\' => ['\\', '\\']
  | '"' => ['\\', '"']
  | '\n' => ['\\', 'n']
  | '\r' => ['\\', 'r']
  | '\t' => ['\\', 't']
  | character =>
    if Text.isControl character then
      '\\' :: 'u' :: '\x7b' ::
        ((if character.toNat = 0 then ['0'] else Text.hexDigits character.toNat) ++ ['\x7d'])
    else [character]

def quoteString (value : String) : String :=
  String.ofList ('"' :: (value.toList.flatMap quotedCharacter ++ ['"']))

def renderToonValue (value : String) : String :=
  if value.toList.isEmpty || isToonLiteral value || value.toList.any needsQuotes then
    quoteString value
  else value

def renderOptionalString (value : Option String) : String :=
  (value.map renderToonValue).getD "null"

def renderStructuredValue : StructuredValue → String
  | .null => "null"
  | .bool value => if value then "true" else "false"
  | .integer value => toString value
  | .string value => renderToonValue value
  | .stringList values => "[" ++ ",".intercalate (values.map renderToonValue) ++ "]"

def withoutLineBreaks : List Char → List Char
  | '\r' :: '\n' :: rest => ' ' :: withoutLineBreaks rest
  | '\r' :: rest => ' ' :: withoutLineBreaks rest
  | '\n' :: rest => ' ' :: withoutLineBreaks rest
  | character :: rest => character :: withoutLineBreaks rest
  | [] => []

def normalizeTextOutputValue (value : String) : String :=
  String.ofList (withoutLineBreaks value.toList)

end Values

section Toon

structure ToonSection where
  label : String
  count : Nat
  lines : List String

def buildFieldsSection (fields : List ToolResultField) : List String :=
  if fields.isEmpty then []
  else s!"fields[{fields.length}]\x7bkey,value\x7d" :: fields.map fun field =>
    s!"  {renderToonValue field.key},{renderStructuredValue field.value}"

/-- The rows of artifact and output references, which have the same columns. -/
def buildRefsSection (label : String) (rows : List (String × String × String × Option String ×
    Option String)) : List String :=
  if rows.isEmpty then []
  else s!"{label}[{rows.length}]\x7bid,uri,media_type,label,digest\x7d" ::
    rows.map fun (id, uri, mediaType, label, digest) =>
      s!"  {id},{renderToonValue uri},{renderToonValue mediaType},{renderOptionalString label},{renderOptionalString digest}"

def buildArtifactRefsSection (label : String) (refs : List ArtifactRef) : List String :=
  buildRefsSection label (refs.map fun ref =>
    (ref.id.text, ref.uri, ref.mediaType, ref.label, ref.digest))

def buildOutputRefsSection (refs : List OutputRef) : List String :=
  buildRefsSection "output_refs" (refs.map fun ref =>
    (ref.id.text, ref.uri, ref.mediaType, ref.label, ref.digest))

def buildTruncationSection (truncation : TruncationMetadata) : List String :=
  ["truncation", "  truncated true", s!"  original_bytes {truncation.originalBytes}",
    s!"  retained_bytes {truncation.retainedBytes}",
    s!"  reason {renderToonValue truncation.reason}"]

def buildRedactionsSection (redactions : List RedactionMarker) : List String :=
  if redactions.isEmpty then []
  else s!"redactions[{redactions.length}]\x7bfield_path,reason,redacted_at_ms\x7d" ::
    redactions.map fun redaction =>
      s!"  {renderToonValue redaction.fieldPath},{renderToonValue redaction.reason},{redaction.redactedAt.unixMillis}"

def toonSections (result : ToolResult) : List ToonSection :=
  [⟨"fields", result.fields.length, buildFieldsSection result.fields⟩,
    ⟨"evidence_refs", result.evidenceRefs.length,
      buildArtifactRefsSection "evidence_refs" result.evidenceRefs⟩,
    ⟨"output_refs", result.outputRefs.length, buildOutputRefsSection result.outputRefs⟩] ++
  (result.truncation.toList.map fun truncation =>
    ⟨"truncation", 1, buildTruncationSection truncation⟩) ++
  [⟨"redactions", result.redactions.length, buildRedactionsSection result.redactions⟩]

def sectionCount (sections : List ToonSection) (label : String) : Nat :=
  ((sections.filter (·.label = label)).map (·.count)).sum

def formatOmittedSectionCounts (sections : List ToonSection) : String :=
  let fields := sectionCount sections "fields"
  let evidenceRefs := sectionCount sections "evidence_refs"
  let outputRefs := sectionCount sections "output_refs"
  let truncation := sectionCount sections "truncation"
  let redactions := sectionCount sections "redactions"
  s!"fields={fields}, evidence_refs={evidenceRefs}, output_refs={outputRefs}, truncation={truncation}, redactions={redactions}"

def renderingTruncationReason (omittedSections : List ToonSection) (maxInlineLines : Option Nat)
    (omittedSection : String) (preludeLinesOmitted : Option Nat) : String :=
  let limit := (maxInlineLines.map toString).getD "unbounded"
  let prelude_ := (preludeLinesOmitted.map fun value => s!"; prelude_lines_omitted={value}").getD ""
  s!"toon rendering truncated to max_inline_lines={limit} before {omittedSection}{prelude_}; omitted {formatOmittedSectionCounts omittedSections}"

def buildRenderingTruncationNotice (reason : String) (remainingLines : Nat) : List String :=
  if remainingLines ≤ 1 then
    [s!"rendering_truncated true; rendering_truncation_reason {renderToonValue reason}"]
  else ["rendering_truncated true", s!"rendering_truncation_reason {renderToonValue reason}"]

/-- Append the sections while they fit, or say why the rest is left out. -/
def appendSections (maxInlineLines : Option Nat) (bodyLines : Nat) :
    List ToonSection → List String × Option String
  | [] => ([], none)
  | part :: rest =>
    if part.lines.isEmpty then appendSections maxInlineLines bodyLines rest
    else if maxInlineLines.any fun limit => limit < bodyLines + part.lines.length then
      ([], some (renderingTruncationReason (part :: rest) maxInlineLines part.label none))
    else
      let (lines, reason) := appendSections maxInlineLines (bodyLines + part.lines.length) rest
      (part.lines ++ lines, reason)

def toonPrelude (rendered : ToolResult) (fallbackReason : Option String) : List String :=
  [s!"status {statusName rendered.status}", s!"schema_version {schemaVersion rendered}",
    s!"format {formatName .toon}"] ++
  (match fallbackReason with
    | some reason => [s!"requested_format {renderToonValue (formatName .json)}",
        s!"format_fallback_reason {renderToonValue reason}"]
    | none => []) ++
  [s!"tool_id {renderToonValue rendered.toolId}", s!"result_id {rendered.id.text}",
    s!"invocation_id {rendered.invocationId.text}"] ++
  (rendered.schemaRef.toList.map fun schemaRef => s!"schema_ref {renderToonValue schemaRef}")

/-- The lines that fit and the reason for leaving out the others. -/
def toonLines (rendered : ToolResult) (policy : ToolOutputRenderPolicy)
    (fallbackReason : Option String) : List String × Option String :=
  let lines := toonPrelude rendered fallbackReason
  let sections := toonSections rendered
  if policy.maxInlineLines.any fun limit => limit < lines.length then
    (lines, some (renderingTruncationReason sections policy.maxInlineLines "tool output prelude"
      (policy.maxInlineLines.map fun limit => lines.length - limit)))
  else
    let (body, reason) := appendSections policy.maxInlineLines lines.length sections
    (lines ++ body, reason)

/-- A body, the reason for any loss against the result, and its truncation. -/
abbrev Rendering : Type := String × Option String × Option TruncationMetadata

def renderToon (result : ToolResult) (policy : ToolOutputRenderPolicy)
    (fallbackReason : Option String) : Except ToolOutputRenderError Rendering := do
  let (rendered, budgetReason) ← renderableResult result policy
  let policyReason := combineFallbackReasons budgetReason
    (renderPolicyFallbackReason result rendered)
  let (lines, truncationReason) := toonLines rendered policy fallbackReason
  match truncationReason with
  | none => return ("\n".intercalate lines, policyReason, rendered.truncation)
  | some reason =>
    let limit := policy.maxInlineLines.getD maxUnsigned
    let notice := buildRenderingTruncationNotice reason (limit - lines.length)
    return ("\n".intercalate (lines.take (limit - notice.length) ++ notice),
      combineFallbackReasons policyReason (some reason), rendered.truncation)

end Toon

section Formats

def summaryField (result : ToolResult) : Option String :=
  result.fields.findSome? fun field =>
    match field.value with
    | .string value => if field.key = "summary" then some value else none
    | _ => none

def redactionText (redaction : RedactionMarker) : String :=
  s!"{normalizeTextOutputValue redaction.fieldPath} ({normalizeTextOutputValue redaction.reason}, redacted_at_ms {redaction.redactedAt.unixMillis})"

def renderText (result : ToolResult) (policy : ToolOutputRenderPolicy) :
    Except ToolOutputRenderError Rendering := do
  let (rendered, budgetReason) ← renderableResult result policy
  let policyReason := combineFallbackReasons budgetReason
    (renderPolicyFallbackReason result rendered)
  let summary := ((summaryField rendered).map normalizeTextOutputValue).getD "no summary"
  let counted (count : Nat) (what : String) : List String :=
    if count = 0 then [] else [s!"{count} {what}"]
  let truncation := rendered.truncation.toList.map fun truncation =>
    s!"truncated {truncation.retainedBytes}/{truncation.originalBytes} bytes: {normalizeTextOutputValue truncation.reason}"
  let redactions := if rendered.redactions.isEmpty then [] else
    let markers := ", ".intercalate (rendered.redactions.map redactionText)
    [s!"{rendered.redactions.length} redaction(s): {markers}"]
  let parts :=
    [s!"{normalizeTextOutputValue rendered.toolId} {statusName rendered.status}: {summary}"] ++
    counted rendered.fields.length "field(s)" ++
    counted rendered.evidenceRefs.length "evidence ref(s)" ++
    counted rendered.outputRefs.length "output ref(s)" ++ truncation ++ redactions
  return ("; ".intercalate parts, policyReason, rendered.truncation)

/-- Drop fields, then references and redactions, until the line limit is used up. -/
def truncateJsonRendering (json : JsonWriter) (result : ToolResult) (maxInlineLines : Nat) :
    ToolResult × Option String :=
  if Text.lineCount (json.compact result) ≤ maxInlineLines then (result, none)
  else
    let fields := result.fields.take maxInlineLines
    let forRefs := maxInlineLines - fields.length
    let evidenceRefs := result.evidenceRefs.take forRefs
    let forOutputs := forRefs - evidenceRefs.length
    let outputRefs := result.outputRefs.take forOutputs
    let redactions := result.redactions.take (forOutputs - outputRefs.length)
    let kept := { result with fields, evidenceRefs, outputRefs, redactions }
    let omittedFields := result.fields.length - fields.length
    let omittedEvidenceRefs := result.evidenceRefs.length - evidenceRefs.length
    let omittedOutputRefs := result.outputRefs.length - outputRefs.length
    let omittedRedactions := result.redactions.length - redactions.length
    if omittedFields = 0 ∧ omittedEvidenceRefs = 0 ∧ omittedOutputRefs = 0 ∧
        omittedRedactions = 0 then (kept, none)
    else if Text.lineCount (json.compact kept) ≤ maxInlineLines then (kept, none)
    else (kept, some
      s!"json rendering truncated to max_inline_lines={maxInlineLines}; omitted fields={omittedFields}, evidence_refs={omittedEvidenceRefs}, output_refs={omittedOutputRefs}, redactions={omittedRedactions}")

def renderJson (json : JsonWriter) (result : ToolResult) (policy : ToolOutputRenderPolicy) :
    Except ToolOutputRenderError Rendering := do
  let (rendered, budgetReason) ← renderableResult result policy
  let policyReason := combineFallbackReasons budgetReason
    (renderPolicyFallbackReason result rendered)
  let fits (body : String) : Bool :=
    policy.maxInlineLines.all fun limit => Text.lineCount body ≤ limit
  let compactReason := policy.maxInlineLines.map fun limit =>
    s!"json rendering switched from pretty to compact to fit max_inline_lines={limit}"
  if fits (json.pretty rendered) then
    return (json.pretty rendered, policyReason, rendered.truncation)
  else if fits (json.compact rendered) then
    return (json.compact rendered, combineFallbackReasons policyReason compactReason,
      rendered.truncation)
  else
    let (kept, reason) := match policy.maxInlineLines with
      | some limit => truncateJsonRendering json rendered limit
      | none => (rendered, none)
    return (json.compact kept,
      combineFallbackReasons (combineFallbackReasons policyReason compactReason) reason,
      rendered.truncation)

def renderToolResultWithPolicy (json : JsonWriter) (result : ToolResult)
    (policy : ToolOutputRenderPolicy) : Except ToolOutputRenderError RenderedToolOutput := do
  let format := policy.renderOptions.format
  let (body, fallbackReason, truncation) ← match format with
    | .toon => renderToon result policy none
    | .text => renderText result policy
    | .json => renderJson json result policy
  return { format, schemaVersion := schemaVersion result, body, fallbackReason, truncation }

end Formats

end Atelia.ToolOutput
