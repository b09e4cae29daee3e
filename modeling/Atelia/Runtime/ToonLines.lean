import Atelia.Runtime.ToonText

/-! The lines of a TOON body. -/

namespace Atelia.ToolOutput

section Rows

theorem isPlain_separates {kind : IdKind} (identifier : Identifier kind) :
    ∀ character ∈ identifier.text.toList, ¬ character = ',' := by
  rintro character member rfl
  exact absurd (List.all_eq_true.mp identifier.plain _ member) (by decide)

theorem identifier_readable {kind : IdKind} :
    Readable (fun character => character = ',') fun identifier : Identifier kind =>
      identifier.text.toList :=
  .of_run isPlain_separates fun _ _ same =>
    Identifier.text_injective (String.toList_inj.mp same)

theorem text_readable : Readable EndsToken fun value : String => (renderToonValue value).toList := by
  have readable := token_readable.comp toonToken_injective
  simpa only [toList_renderToonValue] using readable

theorem optional_readable :
    Readable EndsToken fun value : Option String => (renderOptionalString value).toList := by
  have readable := token_readable.comp optionalToken_injective
  simpa only [toList_renderOptionalString] using readable

theorem value_readable : Readable (fun _ => False) fun value : StructuredValue =>
    (renderStructuredValue value).toList :=
  .of_injective fun _ _ => renderStructuredValue_injective

theorem millis_readable : Readable (fun _ => False) fun value : LedgerTimestamp =>
    (toString value.unixMillis).toList := by
  refine .of_injective fun first second same => ?_
  cases first
  cases second
  exact congrArg _ (int_injective same)

/-- Two texts, one before the other with a comma between them. -/
abbrev besides (first second : List Char) : List Char :=
  first ++ ',' :: second

/-- A row is indented by two spaces. -/
abbrev indented (row : List Char) : List Char :=
  "  ".toList ++ row

def fieldRow (field : ToolResultField) : List Char :=
  indented (besides (renderToonValue field.key).toList (renderStructuredValue field.value).toList)

def refRow {kind : IdKind} (id : Identifier kind) (uri mediaType : String)
    (label digest : Option String) : List Char :=
  indented (besides id.text.toList (besides (renderToonValue uri).toList
    (besides (renderToonValue mediaType).toList
      (besides (renderOptionalString label).toList (renderOptionalString digest).toList))))

def evidenceRow (ref : ArtifactRef) : List Char :=
  refRow ref.id ref.uri ref.mediaType ref.label ref.digest

def outputRow (ref : OutputRef) : List Char :=
  refRow ref.id ref.uri ref.mediaType ref.label ref.digest

def redactionRow (redaction : RedactionMarker) : List Char :=
  indented (besides (renderToonValue redaction.fieldPath).toList
    (besides (renderToonValue redaction.reason).toList
      (toString redaction.redactedAt.unixMillis).toList))

theorem fieldRow_injective : Function.Injective fieldRow := by
  have injective := ((text_readable.separated value_readable (.inl rfl)).of_lead
    "  ".toList).injective
  rintro ⟨key, value⟩ ⟨key', value'⟩ same
  cases @injective (key, value) (key', value') same
  rfl

theorem refRow_injective {kind : IdKind} {id id' : Identifier kind} {uri uri' mediaType mediaType' : String}
    {label label' digest digest' : Option String}
    (same : refRow id uri mediaType label digest = refRow id' uri' mediaType' label' digest') :
    (id, uri, mediaType, label, digest) = (id', uri', mediaType', label', digest') := by
  have last : Readable (fun _ => False) fun value : Option String =>
      (renderOptionalString value).toList := .of_injective optional_readable.injective
  have refs := text_readable.separated (text_readable.separated
    (optional_readable.separated last (.inl rfl)) (.inl rfl)) (.inl rfl)
  have injective := (((@identifier_readable kind).separated refs rfl).of_lead "  ".toList).injective
  exact @injective (id, uri, mediaType, label, digest) (id', uri', mediaType', label', digest')
    same

theorem evidenceRow_injective : Function.Injective evidenceRow := by
  rintro ⟨id, uri, mediaType, label, digest⟩ ⟨id', uri', mediaType', label', digest'⟩ same
  cases refRow_injective same
  rfl

theorem outputRow_injective : Function.Injective outputRow := by
  rintro ⟨id, uri, mediaType, label, digest⟩ ⟨id', uri', mediaType', label', digest'⟩ same
  cases refRow_injective same
  rfl

theorem redactionRow_injective : Function.Injective redactionRow := by
  have injective := ((text_readable.separated (text_readable.separated millis_readable (.inl rfl))
    (.inl rfl)).of_lead "  ".toList).injective
  rintro ⟨path, reason, instant⟩ ⟨path', reason', instant'⟩ same
  cases @injective (path, reason, instant) (path', reason', instant') same
  rfl

end Rows

section Sections

/-- The lines of a body that make up one section, by their first characters. -/
abbrev Section (α : Type) (tag : Char) (write : α → List (List Char)) : Prop :=
  Block List.head? (some ' ') (some tag) write

/-- A header that says how many rows follow, and the rows; nothing without rows. -/
def table {α : Type} (header : Nat → List Char) (row : α → List Char) (items : List α) :
    List (List Char) :=
  if items.isEmpty then [] else header items.length :: items.map row

theorem table_section {α : Type} {header : Nat → List Char} {row : α → List Char} {tag : Char}
    (opens : ∀ count, (header count).head? = some tag) (injective : Function.Injective row)
    (indent : ∀ item, (row item).head? = some ' ') : Section (List α) tag (table header row) where
  injective first second same := by
    rw [table, table] at same
    cases first <;> cases second
    · rfl
    · cases same
    · cases same
    · exact (List.map_injective_iff.mpr injective) (List.cons.inj same).2
  begins items line first := by
    cases items with
    | nil => cases first
    | cons item items =>
      cases first
      exact opens _
  inside items line member := by
    rw [table] at member
    split at member
    · cases member
    · rcases List.mem_cons.mp member with rfl | member
      · exact .inl (opens _)
      · obtain ⟨item, _, rfl⟩ := List.mem_map.mp member
        exact .inr (indent item)

def schemaRefLines (schemaRef : Option String) : List (List Char) :=
  schemaRef.toList.map fun schemaRef => "schema_ref ".toList ++ (renderToonValue schemaRef).toList

def fieldsLines : List ToolResultField → List (List Char) :=
  table (fun count => s!"fields[{count}]\x7bkey,value\x7d".toList) fieldRow

def refsHeader (label : String) (count : Nat) : List Char :=
  s!"{label}[{count}]\x7bid,uri,media_type,label,digest\x7d".toList

def evidenceLines : List ArtifactRef → List (List Char) :=
  table (refsHeader "evidence_refs") evidenceRow

def outputLines : List OutputRef → List (List Char) :=
  table (refsHeader "output_refs") outputRow

def truncationLines (truncation : Option TruncationMetadata) : List (List Char) :=
  truncation.toList.flatMap fun truncation => (buildTruncationSection truncation).map String.toList

def redactionsLines : List RedactionMarker → List (List Char) :=
  table (fun count => s!"redactions[{count}]\x7bfield_path,reason,redacted_at_ms\x7d".toList)
    redactionRow

theorem toList_buildFieldsSection (fields : List ToolResultField) :
    (buildFieldsSection fields).map String.toList = fieldsLines fields := by
  rw [buildFieldsSection, fieldsLines, table]
  split
  · rfl
  · rw [List.map_cons, List.map_map]
    refine congrArg _ (List.map_congr_left fun field _ => ?_)
    change ("  " ++ renderToonValue field.key ++ "," ++ renderStructuredValue field.value).toList = _
    simp [fieldRow, indented, besides]

/-- The rows of references, as their columns are written. -/
theorem toList_buildRefsSection {α : Type} {kind : IdKind} (label : String)
    (columns : α → Identifier kind × String × String × Option String × Option String)
    (refs : List α) :
    (buildRefsSection label (refs.map fun ref =>
        ((columns ref).1.text, (columns ref).2))).map String.toList =
      table (refsHeader label) (fun ref => refRow (columns ref).1 (columns ref).2.1
        (columns ref).2.2.1 (columns ref).2.2.2.1 (columns ref).2.2.2.2) refs := by
  cases refs with
  | nil => rfl
  | cons ref refs =>
    rw [buildRefsSection, table, if_neg (by simp), if_neg (by simp), List.map_cons, List.map_map,
      List.map_map, List.length_map]
    refine congrArg _ (List.map_congr_left fun ref _ => ?_)
    change ("  " ++ (columns ref).1.text ++ "," ++ renderToonValue (columns ref).2.1 ++ "," ++
      renderToonValue (columns ref).2.2.1 ++ "," ++ renderOptionalString (columns ref).2.2.2.1 ++ "," ++
      renderOptionalString (columns ref).2.2.2.2).toList = _
    simp [refRow, indented, besides]

theorem toList_buildArtifactRefsSection (refs : List ArtifactRef) :
    (buildArtifactRefsSection "evidence_refs" refs).map String.toList = evidenceLines refs :=
  toList_buildRefsSection "evidence_refs"
    (fun ref : ArtifactRef => (ref.id, ref.uri, ref.mediaType, ref.label, ref.digest)) refs

theorem toList_buildOutputRefsSection (refs : List OutputRef) :
    (buildOutputRefsSection refs).map String.toList = outputLines refs :=
  toList_buildRefsSection "output_refs"
    (fun ref : OutputRef => (ref.id, ref.uri, ref.mediaType, ref.label, ref.digest)) refs

theorem toList_buildRedactionsSection (redactions : List RedactionMarker) :
    (buildRedactionsSection redactions).map String.toList = redactionsLines redactions := by
  rw [buildRedactionsSection, redactionsLines, table]
  split
  · rfl
  · rw [List.map_cons, List.map_map]
    refine congrArg _ (List.map_congr_left fun redaction _ => ?_)
    change ("  " ++ renderToonValue redaction.fieldPath ++ "," ++ renderToonValue redaction.reason ++
      "," ++ toString redaction.redactedAt.unixMillis).toList = _
    simp [redactionRow, indented, besides, -Int.toString_eq_repr]

theorem schemaRef_section : Section (Option String) 's' schemaRefLines where
  injective first second same := by
    cases first <;> cases second
    · rfl
    · cases same
    · cases same
    · have line := List.append_cancel_left (List.singleton_inj.mp same)
      rw [text_readable.injective line]
  begins schemaRef line first := by
    cases schemaRef with
    | none => cases first
    | some schemaRef =>
      cases first
      rfl
  inside schemaRef line member := by
    cases schemaRef with
    | none => cases member
    | some schemaRef =>
      rw [List.mem_singleton.mp member]
      exact .inl rfl

theorem head?_append {first rest : String} {character : Char}
    (opens : first.toList.head? = some character) :
    (first ++ rest).toList.head? = some character := by
  rw [String.toList_append, List.head?_append, opens]
  rfl

theorem fields_section : Section (List ToolResultField) 'f' fieldsLines :=
  table_section (fun _ => head?_append (head?_append rfl)) fieldRow_injective fun _ => rfl

theorem evidence_section : Section (List ArtifactRef) 'e' evidenceLines :=
  table_section (fun _ => head?_append (head?_append (head?_append rfl)))
    evidenceRow_injective fun _ => rfl

theorem output_section : Section (List OutputRef) 'o' outputLines :=
  table_section (fun _ => head?_append (head?_append (head?_append rfl)))
    outputRow_injective fun _ => rfl

theorem redactions_section : Section (List RedactionMarker) 'r' redactionsLines :=
  table_section (fun _ => head?_append (head?_append rfl)) redactionRow_injective fun _ => rfl

theorem truncation_section : Section (Option TruncationMetadata) 't' truncationLines where
  injective first second same := by
    cases first with
    | none =>
      cases second with
      | none => rfl
      | some truncation => cases same
    | some truncation =>
      cases second with
      | none => cases same
      | some truncation' =>
        simp [truncationLines, buildTruncationSection] at same
        obtain ⟨original, retained, reason⟩ := same
        cases truncation
        cases truncation'
        cases toDigits_injective original
        cases toDigits_injective retained
        cases text_readable.injective reason
        rfl
  begins truncation line first := by
    cases truncation with
    | none => cases first
    | some truncation =>
      cases first
      rfl
  inside truncation line member := by
    cases truncation with
    | none => cases member
    | some truncation =>
      simp [truncationLines, buildTruncationSection] at member
      rcases member with rfl | rfl | rfl | rfl | rfl
      · exact .inl rfl
      all_goals exact .inr rfl

/-- What the lines after the fixed ones show. -/
abbrev Shown : Type :=
  Option String × List ToolResultField × List ArtifactRef × List OutputRef ×
    Option TruncationMetadata × List RedactionMarker

def shown (result : ToolResult) : Shown :=
  (result.schemaRef, result.fields, result.evidenceRefs, result.outputRefs, result.truncation,
    result.redactions)

def shownLines (values : Shown) : List (List Char) :=
  schemaRefLines values.1 ++ (fieldsLines values.2.1 ++ (evidenceLines values.2.2.1 ++
    (outputLines values.2.2.2.1 ++ (truncationLines values.2.2.2.2.1 ++
      redactionsLines values.2.2.2.2.2))))

theorem shownLines_injective : Function.Injective shownLines := by
  have last := redactions_section.single (by decide)
  have truncation := truncation_section.append last (by decide) (by decide)
  have outputs := output_section.append truncation (by decide) (by decide)
  have evidence := evidence_section.append outputs (by decide) (by decide)
  have fields := fields_section.append evidence (by decide) (by decide)
  exact (schemaRef_section.append fields (by decide) (by decide)).readable.injective

end Sections

section Unbroken

def Unbroken (text : String) : Prop :=
  '\n' ∉ text.toList

instance (text : String) : Decidable (Unbroken text) :=
  inferInstanceAs (Decidable (¬ _))

theorem not_mem_intercalate {character : Char} {separator : List Char} {texts : List (List Char)}
    (absent : character ∉ separator) (each : ∀ text ∈ texts, character ∉ text) :
    character ∉ separator.intercalate texts := by
  induction texts with
  | nil => simp
  | cons text texts ih =>
    have rest := ih fun text member => each text (List.mem_cons_of_mem _ member)
    have first := each text List.mem_cons_self
    cases texts with
    | nil => rwa [List.intercalate_singleton]
    | cons next texts =>
      rw [List.intercalate_cons_cons, List.mem_append, List.mem_append, not_or, not_or]
      exact ⟨⟨first, absent⟩, rest⟩

theorem unbroken_append {first second : String} :
    Unbroken (first ++ second) ↔ Unbroken first ∧ Unbroken second := by
  rw [Unbroken, String.toList_append, List.mem_append, not_or]
  exact Iff.rfl

theorem unbroken_value (value : String) : Unbroken (renderToonValue value) := by
  rw [Unbroken, toList_renderToonValue]
  exact newline_not_mem_token _

theorem unbroken_optional (value : Option String) : Unbroken (renderOptionalString value) := by
  rw [Unbroken, toList_renderOptionalString]
  exact newline_not_mem_token _

theorem unbroken_structured (value : StructuredValue) : Unbroken (renderStructuredValue value) := by
  rw [Unbroken, toList_renderStructuredValue]
  cases valueTokens value with
  | inl token => exact newline_not_mem_token token
  | inr tokens =>
    have items : '\n' ∉ [','].intercalate (tokens.map Token.write) := by
      refine not_mem_intercalate (by decide) fun text member => ?_
      obtain ⟨token, _, rfl⟩ := List.mem_map.mp member
      exact newline_not_mem_token token
    simp [writeTokens, items]

theorem unbroken_nat (number : Nat) : Unbroken (toString number) := by
  rw [Unbroken, toList_nat]
  intro member
  exact absurd (isDigit_toDigits number _ member) (by decide)

theorem unbroken_int (value : Int) : Unbroken (toString value) :=
  newline_not_mem_token (.bare (intText value))

theorem unbroken_identifier {kind : IdKind} (identifier : Identifier kind) :
    Unbroken identifier.text := by
  intro member
  exact absurd (List.all_eq_true.mp identifier.plain _ member) (by decide)

theorem toString_text (text : String) : toString text = text := rfl

theorem unbroken_prelude (result : ToolResult) (fallbackReason : Option String) :
    ∀ line ∈ toonPrelude result fallbackReason, Unbroken line := by
  have status : Unbroken (statusName result.status) := by cases result.status <;> decide
  have schema : ∀ line ∈ result.schemaRef.toList.map
      (fun schemaRef => s!"schema_ref {renderToonValue schemaRef}"), Unbroken line := by
    intro line member
    obtain ⟨schemaRef, _, rfl⟩ := List.mem_map.mp member
    simp +decide [unbroken_append, toString_text, unbroken_value]
  intro line member
  simp only [toonPrelude, List.mem_append] at member
  rcases member with ((member | member) | member) | member
  · simp only [List.mem_cons, List.not_mem_nil, or_false] at member
    rcases member with rfl | rfl | rfl
    · exact unbroken_append.mpr ⟨by decide, status⟩
    · exact unbroken_append.mpr ⟨by decide, unbroken_append.mpr ⟨by decide, unbroken_nat _⟩⟩
    · decide
  · cases fallbackReason with
    | none => cases member
    | some reason =>
      simp only [List.mem_cons, List.not_mem_nil, or_false] at member
      rcases member with rfl | rfl <;>
        simp +decide [unbroken_append, toString_text, unbroken_value]
  · simp only [List.mem_cons, List.not_mem_nil, or_false] at member
    rcases member with rfl | rfl | rfl
    · exact unbroken_append.mpr ⟨by decide, unbroken_value _⟩
    · exact unbroken_append.mpr ⟨by decide, unbroken_identifier _⟩
    · exact unbroken_append.mpr ⟨by decide, unbroken_identifier _⟩
  · exact schema line member

theorem unbroken_sections (result : ToolResult) :
    ∀ part ∈ toonSections result, ∀ line ∈ part.lines, Unbroken line := by
  have refs (label : String) (single : Unbroken label) (rows : List (String × String × String ×
      Option String × Option String)) (ids : ∀ row ∈ rows, Unbroken row.1) :
      ∀ line ∈ buildRefsSection label rows, Unbroken line := by
    intro line member
    rw [buildRefsSection] at member
    split at member
    · cases member
    · rcases List.mem_cons.mp member with rfl | member
      · simp +decide [unbroken_append, toString_text, single, unbroken_nat,
          -Nat.toString_eq_repr]
      · obtain ⟨row, present, rfl⟩ := List.mem_map.mp member
        simp +decide [unbroken_append, toString_text, ids row present, unbroken_value,
          unbroken_optional]
  intro part member line present
  simp only [toonSections, List.mem_append, List.mem_cons, List.not_mem_nil, or_false,
    List.mem_map] at member
  rcases member with ((rfl | rfl | rfl) | ⟨truncation, _, rfl⟩) | rfl
  · simp only [buildFieldsSection] at present
    split at present
    · cases present
    · rcases List.mem_cons.mp present with rfl | present
      · simp +decide [unbroken_append, toString_text, unbroken_nat, -Nat.toString_eq_repr]
      · obtain ⟨field, _, rfl⟩ := List.mem_map.mp present
        simp +decide [unbroken_append, toString_text, unbroken_value, unbroken_structured]
  · refine refs _ (by decide) _ (fun row found => ?_) line present
    obtain ⟨ref, _, rfl⟩ := List.mem_map.mp found
    exact unbroken_identifier _
  · refine refs _ (by decide) _ (fun row found => ?_) line present
    obtain ⟨ref, _, rfl⟩ := List.mem_map.mp found
    exact unbroken_identifier _
  · simp only [buildTruncationSection, List.mem_cons, List.not_mem_nil, or_false] at present
    rcases present with rfl | rfl | rfl | rfl | rfl
    · decide
    · decide
    · exact unbroken_append.mpr ⟨by decide, unbroken_nat _⟩
    · exact unbroken_append.mpr ⟨by decide, unbroken_nat _⟩
    · exact unbroken_append.mpr ⟨by decide, unbroken_value _⟩
  · simp only [buildRedactionsSection] at present
    split at present
    · cases present
    · rcases List.mem_cons.mp present with rfl | present
      · simp +decide [unbroken_append, toString_text, unbroken_nat, -Nat.toString_eq_repr]
      · obtain ⟨redaction, _, rfl⟩ := List.mem_map.mp present
        simp +decide [unbroken_append, toString_text, unbroken_value, unbroken_int,
          -Int.toString_eq_repr]

theorem unbroken_notice (reason : String) (remaining : Nat) :
    ∀ line ∈ buildRenderingTruncationNotice reason remaining, Unbroken line := by
  have said (lead : String) (single : Unbroken lead) : Unbroken (lead ++ renderToonValue reason) :=
    unbroken_append.mpr ⟨single, unbroken_value reason⟩
  intro line member
  rw [buildRenderingTruncationNotice] at member
  split at member
  · rw [List.mem_singleton.mp member]
    exact said _ (by decide)
  · simp only [List.mem_cons, List.not_mem_nil, or_false] at member
    rcases member with rfl | rfl
    · decide
    · exact said _ (by decide)

end Unbroken

end Atelia.ToolOutput
