import Mathlib.Data.Nat.Digits.Defs
import Mathlib.Data.Nat.Digits.Lemmas
import Mathlib.Data.List.Basic
import Mathlib.Data.List.DropRight
import Mathlib.Tactic.IntervalCases

/-! Text operations of a systems language on Lean strings: trimming by the Unicode
`White_Space` property and quoted debug output. -/

namespace Atelia.Text

/-- Characters with the Unicode `White_Space` property. -/
def isWhitespace (character : Char) : Bool :=
  let code := character.toNat
  (9 ≤ code && code ≤ 13) || code == 0x20 || code == 0x85 || code == 0xA0 || code == 0x1680 ||
    (0x2000 ≤ code && code ≤ 0x200A) || code == 0x2028 || code == 0x2029 || code == 0x202F ||
    code == 0x205F || code == 0x3000

/-- Remove leading and trailing white space. -/
def trim (text : String) : String :=
  String.ofList ((text.toList.dropWhile isWhitespace).reverse.dropWhile isWhitespace).reverse

/-- Nothing remains after trimming. -/
def isBlank (text : String) : Bool :=
  (trim text).toList.isEmpty

def startsWith (text lead : String) : Bool :=
  lead.toList.isPrefixOf text.toList

/-- Lower the ASCII letters; other characters stay. -/
def toAsciiLowercase (text : String) : String :=
  String.ofList (text.toList.map Char.toLower)

/-- Write one character in place of each of the given ones. -/
def replaceAny (characters : List Char) (replacement : Char) (text : String) : String :=
  String.ofList (text.toList.map fun character =>
    if character ∈ characters then replacement else character)

def endsWith (text tail : String) : Bool :=
  tail.toList.isSuffixOf text.toList

/-- What follows the given lead. -/
def stripLead (text lead : String) : Option String :=
  if startsWith text lead then some (String.ofList (text.toList.drop lead.toList.length)) else none

/-- What stands before the given tail. -/
def stripTail (text tail : String) : Option String :=
  if endsWith text tail then
    some (String.ofList (text.toList.take (text.toList.length - tail.toList.length)))
  else none

/-- The parts between the separating characters; separators side by side enclose
an empty part. -/
def split (separates : Char → Bool) (text : String) : List String :=
  (text.toList.splitOnP separates).map String.ofList

def hasWhitespace (text : String) : Bool :=
  text.toList.any isWhitespace

/-- The trimmed text, unless nothing remains. -/
def trimOptional (value : Option String) : Option String :=
  (value.map trim).filter fun trimmed => !trimmed.toList.isEmpty

def isHexDigit (character : Char) : Bool :=
  ('0' ≤ character && character ≤ '9') || ('a' ≤ character && character ≤ 'f') ||
    ('A' ≤ character && character ≤ 'F')

/-- Nothing in the text separates fields or lines. -/
def isPlain (text : String) : Bool :=
  text.toList.all fun character => character ≠ ',' && character ≠ '\n'

/-- The length of the UTF-8 encoding. -/
def byteLength (text : String) : Nat :=
  (text.toList.map Char.utf8Size).sum

/-- The longest lead of whole characters that fits in the given bytes. -/
def takeBytes (bytes : Nat) : List Char → List Char
  | [] => []
  | character :: rest =>
    if character.utf8Size ≤ bytes then character :: takeBytes (bytes - character.utf8Size) rest
    else []

/-- The number of lines; a final line break does not begin another line. -/
def lineCount (text : String) : Nat :=
  let breaks := text.toList.count '\n'
  if text.toList.isEmpty || text.toList.getLast? == some '\n' then breaks else breaks + 1

/-- Characters of the Unicode category of controls. -/
def isControl (character : Char) : Bool :=
  character.toNat < 0x20 || (0x7F ≤ character.toNat && character.toNat < 0xA0)

private theorem dropWhile_trimmed (drop : Char → Bool) (characters : List Char) :
    ((characters.dropWhile drop).rdropWhile drop).dropWhile drop =
      (characters.dropWhile drop).rdropWhile drop := by
  have lead := List.rdropWhile_prefix drop (characters.dropWhile drop)
  cases shape : (characters.dropWhile drop).rdropWhile drop with
  | nil => rfl
  | cons first rest =>
    obtain ⟨remaining, whole⟩ := shape ▸ lead
    have kept := List.head?_dropWhile_not drop characters
    rw [← whole, List.cons_append, List.head?_cons] at kept
    exact List.dropWhile_cons_of_neg (Bool.not_eq_true _ ▸ kept)

/-- Remove the given characters from both ends. -/
def trimMatches (drop : Char → Bool) (text : String) : String :=
  String.ofList ((text.toList.dropWhile drop).rdropWhile drop)

/-- What has been trimmed has nothing left to trim. -/
theorem trimMatches_trimMatches (drop : Char → Bool) (text : String) :
    trimMatches drop (trimMatches drop text) = trimMatches drop text := by
  have settled : ((text.toList.dropWhile drop).rdropWhile drop).rdropWhile drop =
      (text.toList.dropWhile drop).rdropWhile drop := List.rdropWhile_idempotent _ _
  rw [trimMatches, trimMatches, String.toList_ofList]
  exact congrArg String.ofList (Eq.trans (congrArg _ (dropWhile_trimmed _ _)) settled)

theorem trim_trim (text : String) : trim (trim text) = trim text :=
  trimMatches_trimMatches isWhitespace text

theorem isBlank_trim (text : String) : isBlank (trim text) = isBlank text := by
  rw [isBlank, isBlank, trim_trim]

theorem trimOptional_some {text : String} (present : isBlank text = false) :
    trimOptional (some text) = some (trim text) := by
  rw [trimOptional, Option.map_some, Option.filter_some]
  rw [isBlank] at present
  simp [present]

theorem isBlank_of_trimOptional {value : Option String} {text : String}
    (found : trimOptional value = some text) : isBlank text = false := by
  obtain ⟨trimmed, remaining⟩ := Option.filter_eq_some_iff.mp found
  obtain ⟨original, _, rfl⟩ := Option.map_eq_some_iff.mp trimmed
  rw [isBlank_trim]
  simpa [isBlank] using remaining

/-- A text with something to see is not blank. -/
theorem isBlank_eq_false {text : String} {character : Char} (member : character ∈ text.toList)
    (visible : isWhitespace character = false) : isBlank text = false := by
  have survives : character ∈ text.toList.dropWhile isWhitespace := by
    have split := List.takeWhile_append_dropWhile (p := isWhitespace) (l := text.toList)
    rw [← split] at member
    rcases List.mem_append.mp member with dropped | kept
    · rw [List.mem_takeWhile_imp dropped] at visible
      cases visible
    · exact kept
  change (String.ofList ((text.toList.dropWhile isWhitespace).rdropWhile _)).toList.isEmpty = false
  rw [String.toList_ofList, ← Bool.not_eq_true, List.isEmpty_iff, List.rdropWhile_eq_nil_iff]
  intro blank
  rw [blank character survives] at visible
  cases visible

theorem trim_of_trimOptional {value : Option String} {text : String}
    (found : trimOptional value = some text) : trim text = text := by
  obtain ⟨trimmed, _⟩ := Option.filter_eq_some_iff.mp found
  obtain ⟨original, _, rfl⟩ := Option.map_eq_some_iff.mp trimmed
  exact trim_trim original

/-- The lead of a trimmed text is not blank. -/
theorem isBlank_take {text : String} (trimmed : trim text = text) (present : isBlank text = false)
    (count : Nat) : isBlank (String.ofList (text.toList.take (count + 1))) = false := by
  have characters : text.toList =
      (text.toList.dropWhile isWhitespace).rdropWhile isWhitespace := by
    have same := congrArg String.toList trimmed
    change (String.ofList ((text.toList.dropWhile isWhitespace).rdropWhile _)).toList = _ at same
    rw [String.toList_ofList] at same
    exact same.symm
  have settled := dropWhile_trimmed isWhitespace text.toList
  rw [← characters] at settled
  have kept := List.head?_dropWhile_not isWhitespace text.toList
  rw [settled] at kept
  cases shape : text.toList with
  | nil =>
    rw [isBlank, trimmed, shape] at present
    cases present
  | cons first rest =>
    rw [shape] at kept
    refine isBlank_eq_false (?_ : first ∈ _) kept
    rw [String.toList_ofList]
    exact List.mem_cons_self

theorem isPlain_append {first second : String} :
    isPlain (first ++ second) = true ↔ isPlain first = true ∧ isPlain second = true := by
  rw [isPlain, String.toList_append, List.all_append, Bool.and_eq_true]
  rfl

theorem startsWith_append (lead rest : String) : startsWith (lead ++ rest) lead = true := by
  rw [startsWith, String.toList_append, List.isPrefixOf_iff_prefix]
  exact List.prefix_append _ _

theorem eq_append_of_stripLead {text lead rest : String} (found : stripLead text lead = some rest) :
    text = lead ++ rest := by
  unfold stripLead at found
  split at found
  · rename_i starts
    obtain rfl := Option.some.inj found
    obtain ⟨tail, whole⟩ := List.isPrefixOf_iff_prefix.mp starts
    rw [← String.toList_inj, String.toList_append, String.toList_ofList, ← whole, List.drop_left]
  · cases found

section Quoting

def hexDigit (digit : Nat) : Char :=
  ("0123456789abcdef".toList[digit]?).getD '0'

def hexDigits (code : Nat) : List Char :=
  (Nat.digits 16 code).reverse.map hexDigit

/-- The characters that are quoted by a backslash and one letter. -/
private def shortEscape : Char → Option Char
  | '\x00' => some '0'
  | '\t' => some 't'
  | '\r' => some 'r'
  | '\n' => some 'n'
  | '"' => some '"'
  | '\\' => some '\\'
  | _ => none

/-- One quoted character. `hidden` selects the characters that are written by
their code point. -/
def escapeWith (hidden : Char → Bool) (character : Char) : List Char :=
  match shortEscape character with
  | some letter => ['\\', letter]
  | none =>
    if hidden character then '\\' :: 'u' :: '\x7b' :: (hexDigits character.toNat ++ ['\x7d'])
    else [character]

/-- Code points beyond ASCII that no version of Unicode prints: controls, spaces,
format characters, the common combining marks, private use and noncharacters. -/
def unprinted : List (Nat × Nat) :=
  [(0x80, 0xA0), (0xAD, 0xAD), (0x300, 0x36F), (0x483, 0x489), (0x600, 0x605), (0x61C, 0x61C),
    (0x1680, 0x1680), (0x180B, 0x180F), (0x1AB0, 0x1AFF), (0x1DC0, 0x1DFF), (0x2000, 0x200F),
    (0x2028, 0x202F), (0x205F, 0x206F), (0x20D0, 0x20FF), (0x3000, 0x3000), (0x302A, 0x302F),
    (0x3099, 0x309A), (0xE000, 0xF8FF), (0xFDD0, 0xFDEF), (0xFE00, 0xFE0F), (0xFE20, 0xFE2F),
    (0xFEFF, 0xFEFF), (0xFFF0, 0xFFFB), (0xFFFE, 0xFFFF), (0x40000, 0x10FFFF)]

/-- The characters that Rust's `Debug` writes by their code point. The marks of single
scripts and the unassigned code points depend on the toolchain's tables and are not
listed; quoting is injective whatever the tables contain. -/
def isHidden (character : Char) : Bool :=
  let code := character.toNat
  code < 0x20 || code == 0x7F ||
    (0x80 ≤ code && unprinted.any fun (low, high) => low ≤ code && code ≤ high)

/-- Quoted form of a text. -/
def quote (text : String) : String :=
  String.ofList ('"' :: (text.toList.flatMap (escapeWith isHidden) ++ ['"']))

private theorem shortEscape_injective {first second letter : Char}
    (one : shortEscape first = some letter) (two : shortEscape second = some letter) :
    first = second := by
  unfold shortEscape at one two
  split at one <;> split at two <;> simp_all <;> (subst_vars; simp_all)

private theorem shortEscape_ne_u {character letter : Char}
    (short : shortEscape character = some letter) : letter ≠ 'u' := by
  unfold shortEscape at short
  split at short <;> simp_all <;> (subst_vars; decide)

def hexValue (digit : Char) : Nat :=
  "0123456789abcdef".toList.idxOf digit

theorem hexDigits_injective {first second : Nat}
    (same : hexDigits first = hexDigits second) : first = second := by
  have read (code : Nat) : (hexDigits code).map hexValue = (Nat.digits 16 code).reverse := by
    have value : ∀ digit < 16, hexValue (hexDigit digit) = digit := by decide
    have back : ∀ digit ∈ (Nat.digits 16 code).reverse, (hexValue ∘ hexDigit) digit = id digit :=
      fun digit member => value digit (Nat.digits_lt_base (by decide) (List.mem_reverse.mp member))
    rw [hexDigits, List.map_map, List.map_congr_left back, List.map_id]
  rw [← Nat.digits_inj_iff (b := 16), ← List.reverse_inj, ← read, ← read, same]

theorem close_not_mem_hexDigits (code : Nat) : '\x7d' ∉ hexDigits code := by
  have open_digit : ∀ digit < 16, hexDigit digit ≠ '\x7d' := by decide
  intro member
  obtain ⟨digit, present, same⟩ := List.mem_map.mp member
  exact open_digit digit (Nat.digits_lt_base (by decide) (List.mem_reverse.mp present)) same

private theorem append_cons_inj_left {α : Type} {stop : α} {first second restFirst restSecond : List α}
    (absent : stop ∉ first) (absent' : stop ∉ second)
    (same : first ++ stop :: restFirst = second ++ stop :: restSecond) : first = second := by
  induction first generalizing second with
  | nil =>
    cases second with
    | nil => rfl
    | cons head tail => simp_all
  | cons head tail ih =>
    cases second with
    | nil => simp_all
    | cons head' tail' =>
      simp only [List.cons_append, List.cons.injEq, List.mem_cons, not_or] at same absent absent'
      rw [same.1, ih absent.2 absent'.2 same.2]

/-- The quoted form of the first character can be read off a quoted text. -/
private theorem escapeWith_head {hidden : Char → Bool} {first second : Char}
    {restFirst restSecond : List Char}
    (same : escapeWith hidden first ++ restFirst = escapeWith hidden second ++ restSecond) :
    first = second := by
  have plain {character : Char} (none : shortEscape character = none) : character ≠ '\\' := by
    rintro rfl
    simp [shortEscape] at none
  unfold escapeWith at same
  cases one : shortEscape first with
  | some letter =>
    cases two : shortEscape second with
    | some letter' =>
      simp only [one, two, List.cons_append, List.cons.injEq] at same
      exact shortEscape_injective one (same.2.1 ▸ two)
    | none =>
      simp only [one, two] at same
      split at same
      · simp only [List.cons_append, List.cons.injEq] at same
        exact absurd same.2.1 (shortEscape_ne_u one)
      · simp only [List.cons_append, List.cons.injEq] at same
        exact absurd same.1.symm (plain two)
  | none =>
    cases two : shortEscape second with
    | some letter =>
      simp only [one, two] at same
      split at same
      · simp only [List.cons_append, List.cons.injEq] at same
        exact absurd same.2.1.symm (shortEscape_ne_u two)
      · simp only [List.cons_append, List.cons.injEq] at same
        exact absurd same.1 (plain one)
    | none =>
      simp only [one, two] at same
      split at same <;> split at same <;>
        simp only [List.cons_append, List.cons.injEq, List.append_assoc, List.nil_append] at same
      · have digits := append_cons_inj_left (close_not_mem_hexDigits _) (close_not_mem_hexDigits _)
          same.2.2.2
        exact Char.toNat_inj.mp (hexDigits_injective digits)
      · exact absurd same.1.symm (plain two)
      · exact absurd same.1 (plain one)
      · exact same.1

private theorem escapeWith_ne_nil (hidden : Char → Bool) (character : Char) :
    escapeWith hidden character ≠ [] := by
  unfold escapeWith
  split
  · simp
  · split <;> simp

private theorem flatMap_escapeWith_injective {hidden : Char → Bool} {first second : List Char}
    (same : first.flatMap (escapeWith hidden) = second.flatMap (escapeWith hidden)) :
    first = second := by
  induction first generalizing second with
  | nil =>
    cases second with
    | nil => rfl
    | cons head tail => simp [escapeWith_ne_nil] at same
  | cons head tail ih =>
    cases second with
    | nil => simp [escapeWith_ne_nil] at same
    | cons head' tail' =>
      simp only [List.flatMap_cons] at same
      have heads := escapeWith_head same
      subst heads
      rw [ih (List.append_cancel_left same)]

theorem quote_injective {first second : String} (same : quote first = quote second) :
    first = second := by
  have characters := String.ofList_injective same
  simp only [List.cons.injEq, true_and, List.append_cancel_right_eq] at characters
  exact String.toList_inj.mp (flatMap_escapeWith_injective characters)

end Quoting

end Atelia.Text
