import Mathlib.Order.Basic
import Mathlib.Order.Lattice
import Mathlib.Algebra.Order.Ring.Int
import Atelia.Foundation.Table
import Atelia.Foundation.Text

/-! Opaque identifiers and timestamps of the Secretary ledger. -/

namespace Atelia

/-- Debug rendering of a value, as the ledger's error texts use it. -/
class RustDebug (α : Type) where
  debug : α → String

export RustDebug (debug)

instance : RustDebug String := ⟨Text.quote⟩

instance : RustDebug Nat := ⟨toString⟩

instance {α : Type} [RustDebug α] : RustDebug (Option α) where
  debug
    | none => "None"
    | some value => s!"Some({debug value})"

/-- The UUID parser, which the repository takes from elsewhere. Of the texts that it accepts
only this is used, that they are plain. -/
structure UuidParser where
  parseStr (text : String) : Bool
  plain {text : String} (parsed : parseStr text = true) : Text.isPlain text = true

/-- A generated UUID in its written form. -/
structure Uuid where
  text : String
  plain : Text.isPlain text = true
  deriving DecidableEq

namespace Uuid

private def hexCharacters (value : Nat) : List Char :=
  (List.range 32).map fun place => Text.hexDigit (value / 16 ^ place % 16)

private theorem hexCharacters_plain (value : Nat) :
    Text.isPlain (String.ofList (hexCharacters value)) = true := by
  have plain : ∀ digit < 16, (Text.hexDigit digit ≠ ',' && Text.hexDigit digit ≠ '\n') = true := by
    decide
  rw [Text.isPlain, String.toList_ofList, hexCharacters, List.all_map, List.all_eq_true]
  exact fun place _ => plain _ (Nat.mod_lt _ (by decide))

/-- The UUID whose 32 digits, least significant first, are those of a number. -/
def ofNat (value : Nat) : Uuid :=
  ⟨String.ofList (hexCharacters value), hexCharacters_plain value⟩

end Uuid

/-- The record types that have opaque identifiers. -/
inductive IdKind where
  | repository | job | jobEvent | policyDecision | lockDecision | toolInvocation
  | toolResult | auditRecord | schemaMigration | outputRef | artifactRef
  deriving DecidableEq

namespace IdKind

/-- The fixed text every identifier of the kind starts with. -/
def lead : IdKind → String
  | repository => "repo_"
  | job => "job_"
  | jobEvent => "evt_"
  | policyDecision => "pol_"
  | lockDecision => "lock_"
  | toolInvocation => "tool_"
  | toolResult => "res_"
  | auditRecord => "aud_"
  | schemaMigration => "mig_"
  | outputRef => "out_"
  | artifactRef => "art_"

def typeName : IdKind → String
  | repository => "RepositoryId"
  | job => "JobId"
  | jobEvent => "JobEventId"
  | policyDecision => "PolicyDecisionId"
  | lockDecision => "LockDecisionId"
  | toolInvocation => "ToolInvocationId"
  | toolResult => "ToolResultId"
  | auditRecord => "AuditRecordId"
  | schemaMigration => "SchemaMigrationId"
  | outputRef => "OutputRefId"
  | artifactRef => "ArtifactRefId"

theorem lead_plain (kind : IdKind) : Text.isPlain kind.lead = true := by
  cases kind <;> decide

end IdKind

namespace UuidParser

variable (parser : UuidParser) {kind : IdKind} {text : String}

/-- The check of `try_from_string`: the lead text followed by a UUID. -/
def accepts (kind : IdKind) (text : String) : Bool :=
  match Text.stripLead text kind.lead with
  | some part => !part.toList.isEmpty && parser.parseStr part
  | none => false

theorem accepts_inv (accepted : parser.accepts kind text = true) :
    ∃ part, text = kind.lead ++ part ∧ parser.parseStr part = true := by
  unfold accepts at accepted
  split at accepted
  · rename_i part found
    rw [Bool.and_eq_true] at accepted
    exact ⟨part, Text.eq_append_of_stripLead found, accepted.2⟩
  · cases accepted

theorem startsWith_of_accepts (accepted : parser.accepts kind text = true) :
    Text.startsWith text kind.lead = true := by
  obtain ⟨part, rfl, _⟩ := parser.accepts_inv accepted
  exact Text.startsWith_append _ _

theorem plain_of_accepts (accepted : parser.accepts kind text = true) :
    Text.isPlain text = true := by
  obtain ⟨part, rfl, parsed⟩ := parser.accepts_inv accepted
  exact Text.isPlain_append.mpr ⟨kind.lead_plain, parser.plain parsed⟩

end UuidParser

/-- An opaque identifier. Its text is private in the source: it is the lead text of
the kind followed by a UUID, whichever way the identifier was made. -/
structure Identifier (kind : IdKind) where
  text : String
  led : Text.startsWith text kind.lead = true
  plain : Text.isPlain text = true
  deriving DecidableEq

abbrev RepositoryId := Identifier .repository
abbrev JobId := Identifier .job
abbrev JobEventId := Identifier .jobEvent
abbrev PolicyDecisionId := Identifier .policyDecision
abbrev LockDecisionId := Identifier .lockDecision
abbrev ToolInvocationId := Identifier .toolInvocation
abbrev ToolResultId := Identifier .toolResult
abbrev AuditRecordId := Identifier .auditRecord
abbrev SchemaMigrationId := Identifier .schemaMigration
abbrev OutputRefId := Identifier .outputRef
abbrev ArtifactRefId := Identifier .artifactRef

namespace Identifier

variable {kind : IdKind}

theorem text_injective {first second : Identifier kind} (same : first.text = second.text) :
    first = second := by
  cases first
  cases second
  simp_all

/-- `new`: the lead text of the kind and a generated UUID. -/
def new (kind : IdKind) (uuid : Uuid) : Identifier kind :=
  ⟨kind.lead ++ uuid.text, Text.startsWith_append _ _,
    Text.isPlain_append.mpr ⟨kind.lead_plain, uuid.plain⟩⟩

theorem new_injective {first second : Uuid} (same : new kind first = new kind second) :
    first = second := by
  have texts : kind.lead ++ first.text = kind.lead ++ second.text :=
    congrArg Identifier.text same
  have equal : first.text = second.text := by
    simpa [← String.toList_inj] using texts
  cases first
  cases second
  simp_all

def tryFromString (parser : UuidParser) (kind : IdKind) (text : String) :
    Option (Identifier kind) :=
  if accepted : parser.accepts kind text = true then
    some ⟨text, parser.startsWith_of_accepts accepted, parser.plain_of_accepts accepted⟩
  else none

instance : RustDebug (Identifier kind) :=
  ⟨fun identifier => s!"{kind.typeName}({debug identifier.text})"⟩

instance : Ord (Identifier kind) :=
  ⟨fun first second => compare first.text second.text⟩

private theorem compare_eq (first second : Identifier kind) :
    compare first second = compare first.text second.text := rfl

instance : Std.TransOrd (Identifier kind) where
  eq_swap {first second} := by
    rw [compare_eq, compare_eq]
    exact Std.OrientedCmp.eq_swap
  isLE_trans {first second third} := by
    rw [compare_eq, compare_eq, compare_eq]
    exact Std.TransCmp.isLE_trans

instance : Std.LawfulEqOrd (Identifier kind) where
  compare_self {identifier} := by
    rw [compare_eq]
    exact Std.ReflCmp.compare_self
  eq_of_compare {first second} same := by
    rw [compare_eq] at same
    exact text_injective (Std.LawfulEqCmp.eq_of_compare same)

end Identifier

/-- A wall-clock instant in milliseconds since the Unix epoch. -/
structure LedgerTimestamp where
  unixMillis : Int
  deriving DecidableEq

namespace LedgerTimestamp

instance : LinearOrder LedgerTimestamp :=
  LinearOrder.lift' unixMillis fun first second same => by
    cases first
    cases second
    simp_all

instance : RustDebug LedgerTimestamp :=
  ⟨fun at_ => s!"LedgerTimestamp \x7b unix_millis: {at_.unixMillis} \x7d"⟩

theorem le_iff {first second : LedgerTimestamp} :
    first ≤ second ↔ first.unixMillis ≤ second.unixMillis := Iff.rfl

end LedgerTimestamp

end Atelia
