import Atelia.Foundation.Readable
import Atelia.Runtime.ToolOutput

/-! The texts of TOON values. -/

namespace Atelia.ToolOutput

section Quoting

/-- The characters that are quoted by a backslash and a letter. -/
def quotedLetters : List (Char × Char) :=
  [('\\', '\\'), ('"', '"'), ('\n', 'n'), ('\r', 'r'), ('\t', 't')]

def codeText (character : Char) : List Char :=
  if character.toNat = 0 then ['0'] else Text.hexDigits character.toNat

theorem quotedCharacter_cases (character : Char) :
    (∃ letter, (character, letter) ∈ quotedLetters ∧
        quotedCharacter character = ['\\', letter]) ∨
      quotedCharacter character = '\\' :: 'u' :: '\x7b' :: (codeText character ++ ['\x7d']) ∨
      (character ≠ '\\' ∧ character ≠ '"' ∧ character ≠ '\n' ∧
        quotedCharacter character = [character]) := by
  unfold quotedCharacter
  split
  · exact .inl ⟨'\\', by decide, rfl⟩
  · exact .inl ⟨'"', by decide, rfl⟩
  · exact .inl ⟨'n', by decide, rfl⟩
  · exact .inl ⟨'r', by decide, rfl⟩
  · exact .inl ⟨'t', by decide, rfl⟩
  · rename_i backslash quote newline _ _
    split
    · exact .inr (.inl rfl)
    · exact .inr (.inr ⟨backslash, quote, newline, rfl⟩)

theorem quotedLetters_injective {first second letter : Char}
    (one : (first, letter) ∈ quotedLetters) (two : (second, letter) ∈ quotedLetters) :
    first = second := by
  have all : ∀ pair ∈ quotedLetters, ∀ pair' ∈ quotedLetters, pair.2 = pair'.2 →
      pair.1 = pair'.1 := by decide
  exact all _ one _ two rfl

theorem quotedLetters_ne_u {character letter : Char} (member : (character, letter) ∈ quotedLetters) :
    letter ≠ 'u' := by
  have all : ∀ pair ∈ quotedLetters, pair.2 ≠ 'u' := by decide
  exact all _ member

theorem codeText_injective {first second : Char} (same : codeText first = codeText second) :
    first = second := by
  have zero (code : Nat) (some : code ≠ 0) : Text.hexDigits code ≠ ['0'] := by
    intro single
    obtain ⟨digit, digits, value⟩ := List.map_eq_singleton_iff.mp single
    have only : ∀ digit < 16, Text.hexDigit digit = '0' → digit = 0 := by decide
    have digits : Nat.digits 16 code = [digit] := by
      rw [← List.reverse_reverse (Nat.digits 16 code), digits, List.reverse_singleton]
    have small : digit < 16 := Nat.digits_lt_base (by decide) (digits ▸ List.mem_singleton_self digit)
    have back := Nat.ofDigits_digits 16 code
    rw [digits, only digit small value] at back
    exact some back.symm
  rw [codeText, codeText] at same
  split_ifs at same with one two two
  · exact Char.toNat_inj.mp (one.trans two.symm)
  · exact absurd same.symm (zero _ two)
  · exact absurd same (zero _ one)
  · exact Char.toNat_inj.mp (Text.hexDigits_injective same)

theorem close_not_mem_codeText (character : Char) : '\x7d' ∉ codeText character := by
  rw [codeText]
  split
  · decide
  · exact Text.close_not_mem_hexDigits _

theorem quotedCharacter_readable : Readable (fun _ => True) quotedCharacter := by
  intro first second rest rest' _ _ same
  rcases quotedCharacter_cases first with ⟨letter, one, text⟩ | text | ⟨bare, _, _, text⟩ <;>
    rcases quotedCharacter_cases second with ⟨letter', two, text'⟩ | text' | ⟨bare', _, _, text'⟩ <;>
    rw [text, text'] at same <;> simp only [List.cons_append, List.cons.injEq, List.nil_append] at same
  · obtain ⟨_, rfl, rests⟩ := same
    exact ⟨quotedLetters_injective one two, rests⟩
  · exact absurd same.2.1 (quotedLetters_ne_u one)
  · exact absurd same.1.symm bare'
  · exact absurd same.2.1.symm (quotedLetters_ne_u two)
  · have closes (rest : List Char) : Stopped (fun symbol => symbol = '\x7d') ('\x7d' :: rest) :=
      @stopped_cons _ (fun symbol => symbol = '\x7d') _ rfl rest
    have open' (character : Char) : ∀ symbol ∈ codeText character, symbol ≠ '\x7d' := by
      rintro symbol member rfl
      exact close_not_mem_codeText character member
    simp only [List.append_assoc] at same
    obtain ⟨codes, rests⟩ := Readable.run_inj (open' first) (open' second) (closes rest)
      (closes rest') same.2.2.2
    exact ⟨codeText_injective codes, (List.cons.inj rests).2⟩
  · exact absurd same.1.symm bare'
  · exact absurd same.1 bare
  · exact absurd same.1 bare
  · exact same

/-- The text between the quotes, with the closing one. -/
def quotedTail (text : List Char) : List Char :=
  text.flatMap quotedCharacter ++ ['"']

theorem quotedTail_readable : Readable (fun _ => True) quotedTail := by
  refine quotedCharacter_readable.closed fun character rest rest' same => ?_
  rcases quotedCharacter_cases character with ⟨_, _, text⟩ | text | ⟨_, quote, _, text⟩ <;>
    rw [text] at same
  · exact absurd (List.cons.inj same).1 (by decide)
  · exact absurd (List.cons.inj same).1 (by decide)
  · exact quote (List.cons.inj same).1

theorem newline_not_mem_quotedCharacter (character : Char) : '\n' ∉ quotedCharacter character := by
  have letters : ∀ pair ∈ quotedLetters, '\n' ∉ ['\\', pair.2] := by decide
  rcases quotedCharacter_cases character with ⟨letter, member, text⟩ | text | ⟨_, _, newline, text⟩ <;>
    rw [text]
  · exact letters _ member
  · have code : '\n' ∉ codeText character := by
      rw [codeText]
      split
      · decide
      · intro member
        obtain ⟨digit, present, same⟩ := List.mem_map.mp member
        have other : ∀ digit < 16, Text.hexDigit digit ≠ '\n' := by decide
        have small := Nat.digits_lt_base (by decide) (List.mem_reverse.mp present)
        exact other digit small same
    simp [code]
  · simpa using newline.symm

end Quoting

section Tokens

/-- A text that may stand without quotes. -/
structure BareText where
  text : List Char
  some : text ≠ []
  plain : ∀ character ∈ text, needsQuotes character = false

inductive Token where
  | bare (text : BareText)
  | quoted (text : List Char)

def Token.write : Token → List Char
  | .bare written => written.text
  | .quoted text => '"' :: quotedTail text

/-- What may follow a token. -/
def EndsToken (character : Char) : Prop :=
  character = ',' ∨ character = ']'

theorem EndsToken.needsQuotes {character : Char} (ends : EndsToken character) :
    needsQuotes character = true := by
  rcases ends with rfl | rfl <;> decide

theorem token_readable : Readable EndsToken Token.write := by
  have bareFirst (bare : BareText) (text rest rest' : List Char) :
      bare.text ++ rest ≠ '"' :: quotedTail text ++ rest' := by
    intro same
    cases written : bare.text with
    | nil => exact bare.some written
    | cons character others =>
      have plain := bare.plain character (written ▸ List.mem_cons_self)
      rw [written] at same
      rw [(List.cons.inj same).1] at plain
      exact absurd plain (by decide)
  intro first second rest rest' stopped stopped' same
  cases first with
  | bare bare =>
    cases second with
    | bare bare' =>
      have run (bare : BareText) : ∀ character ∈ bare.text, ¬ EndsToken character := by
        intro character member ends
        exact absurd (ends.needsQuotes.symm.trans (bare.plain character member)) (by decide)
      obtain ⟨texts, rests⟩ := Readable.run_inj (run bare) (run bare') stopped stopped' same
      cases bare
      cases bare'
      cases texts
      exact ⟨rfl, rests⟩
    | quoted text => exact absurd same (bareFirst bare text rest rest')
  | quoted text =>
    cases second with
    | bare bare => exact absurd same.symm (bareFirst bare text rest' rest)
    | quoted text' =>
      obtain ⟨rfl, rests⟩ := quotedTail_readable (fun _ _ => trivial) (fun _ _ => trivial)
        (List.cons.inj same).2
      exact ⟨rfl, rests⟩

/-- A token begins with a quote or with a character that needs none. -/
theorem token_begins (token : Token) : ∃ first tail, token.write = first :: tail ∧
    (first = '"' ∨ needsQuotes first = false) := by
  cases token with
  | bare bare =>
    cases written : bare.text with
    | nil => exact absurd written bare.some
    | cons first tail =>
      exact ⟨first, tail, written, .inr (bare.plain first (written ▸ List.mem_cons_self))⟩
  | quoted text => exact ⟨'"', quotedTail text, rfl, .inl rfl⟩

theorem token_ne_bracket {token : Token} {bracket : Char} {rest rest' : List Char}
    (one : bracket = '[' ∨ bracket = ']') : token.write ++ rest ≠ bracket :: rest' := by
  obtain ⟨first, tail, written, begins⟩ := token_begins token
  rw [written]
  intro same
  rw [(List.cons.inj same).1] at begins
  rcases one with rfl | rfl <;> exact absurd begins (by decide)

theorem newline_not_mem_token (token : Token) : '\n' ∉ token.write := by
  cases token with
  | bare bare =>
    intro member
    exact absurd (bare.plain _ member) (by decide)
  | quoted text =>
    simp [Token.write, quotedTail, newline_not_mem_quotedCharacter]

end Tokens

section Values

def needsToken (value : String) : Bool :=
  value.toList.isEmpty || isToonLiteral value || value.toList.any needsQuotes

/-- The token that stands for a text. -/
def toonToken (value : String) : Token :=
  if quotes : needsToken value = true then .quoted value.toList
  else .bare {
    text := value.toList
    some := by
      intro empty
      simp [needsToken, empty] at quotes
    plain := by
      simp only [needsToken, Bool.or_eq_true, not_or, List.any_eq_true, not_exists, not_and,
        Bool.not_eq_true] at quotes
      exact quotes.2 }

theorem toList_renderToonValue (value : String) :
    (renderToonValue value).toList = (toonToken value).write := by
  have rendered : renderToonValue value =
      if needsToken value = true then quoteString value else value := rfl
  rw [rendered, toonToken]
  by_cases quotes : needsToken value = true
  · rw [dif_pos quotes, if_pos quotes]
    exact String.toList_ofList
  · rw [dif_neg quotes, if_neg quotes]
    rfl

/-- A text that stands without quotes is not a literal. -/
theorem toonToken_bare {value : String} {bare : BareText} (written : toonToken value = .bare bare) :
    bare.text = value.toList ∧ isToonLiteral value = false := by
  rw [toonToken] at written
  split at written
  · cases written
  · rename_i quotes
    cases written
    simp only [needsToken, Bool.or_eq_true, not_or, Bool.not_eq_true] at quotes
    exact ⟨rfl, quotes.1.2⟩

theorem toonToken_injective : Function.Injective toonToken := by
  have text (value : String) : (∃ bare, toonToken value = .bare bare ∧ bare.text = value.toList) ∨
      toonToken value = .quoted value.toList := by
    rw [toonToken]
    split
    · exact .inr rfl
    · exact .inl ⟨_, rfl, rfl⟩
  intro first second same
  apply String.toList_inj.mp
  rcases text first with ⟨bare, one, written⟩ | one <;>
    rcases text second with ⟨bare', two, written'⟩ | two <;> rw [one, two] at same
  · cases same
    exact written.symm.trans written'
  · cases same
  · cases same
  · exact Token.quoted.inj same

theorem toonToken_ne_literal {value : String} {bare : BareText}
    (literal : isToonLiteral (String.ofList bare.text) = true) : toonToken value ≠ .bare bare := by
  intro written
  obtain ⟨text, other⟩ := toonToken_bare written
  rw [text, String.ofList_toList, other] at literal
  cases literal

def nullText : BareText where
  text := "null".toList
  some := by decide
  plain := by simp; decide

def boolText (value : Bool) : BareText where
  text := (if value then "true" else "false").toList
  some := by cases value <;> decide
  plain := by cases value <;> simp <;> decide

/-- The token of an optional text. -/
def optionalToken : Option String → Token
  | none => .bare nullText
  | some value => toonToken value

theorem toList_renderOptionalString (value : Option String) :
    (renderOptionalString value).toList = (optionalToken value).write := by
  cases value with
  | none => rfl
  | some value => exact toList_renderToonValue value

theorem optionalToken_injective : Function.Injective optionalToken := by
  have literal : isToonLiteral (String.ofList nullText.text) = true := by decide
  intro first second same
  cases first with
  | none =>
    cases second with
    | none => rfl
    | some value => exact absurd same.symm (toonToken_ne_literal literal)
  | some value =>
    cases second with
    | none => exact absurd same (toonToken_ne_literal literal)
    | some value' => rw [toonToken_injective same]

theorem digit_plain {character : Char} (digit : isDigit character = true) :
    needsQuotes character = false ∧ character ≠ '-' ∧ character ≠ '+' := by
  have codes : ∀ code < 58, 48 ≤ code → needsQuotes (Char.ofNat code) = false ∧
      Char.ofNat code ≠ '-' ∧ Char.ofNat code ≠ '+' := by decide
  have range : 48 ≤ character.toNat ∧ character.toNat ≤ 57 := by
    simpa [isDigit, Char.le_def, UInt32.le_iff_toNat_le] using digit
  have plain := codes character.toNat (Nat.lt_succ_of_le range.2) range.1
  rwa [Char.ofNat_toNat] at plain

theorem isDigit_toDigits (number : Nat) :
    ∀ character ∈ Nat.toDigits 10 number, isDigit character = true :=
  fun _ member => Nat.isDigit_of_mem_toDigits (by decide) (by decide) member

theorem toDigits_injective {first second : Nat}
    (same : Nat.toDigits 10 first = Nat.toDigits 10 second) : first = second := by
  rw [← @Nat.ofDigitChars_ten_toDigits first, same, Nat.ofDigitChars_ten_toDigits]

theorem toList_nat (number : Nat) : (toString number).toList = Nat.toDigits 10 number :=
  String.toList_ofList

/-- An integer is written with digits, behind a sign if it is negative. -/
theorem toList_int (value : Int) :
    (∃ number : Nat, value = number ∧ (toString value).toList = Nat.toDigits 10 number) ∨
      ∃ number : Nat, value = Int.negSucc number ∧
        (toString value).toList = '-' :: Nat.toDigits 10 (number + 1) := by
  cases value with
  | ofNat number => exact .inl ⟨number, rfl, toList_nat number⟩
  | negSucc number =>
    refine .inr ⟨number, rfl, ?_⟩
    change ("-" ++ toString (number + 1)).toList = _
    rw [String.toList_append, toList_nat]
    rfl

theorem int_injective {first second : Int} (same : (toString first).toList = (toString second).toList) :
    first = second := by
  have signed (number : Nat) (rest : List Char) : Nat.toDigits 10 number ≠ '-' :: rest := by
    intro sign
    exact absurd (isDigit_toDigits number '-' (sign ▸ List.mem_cons_self)) (by decide)
  rcases toList_int first with ⟨number, rfl, text⟩ | ⟨number, rfl, text⟩ <;>
    rcases toList_int second with ⟨number', rfl, text'⟩ | ⟨number', rfl, text'⟩ <;>
    rw [text, text'] at same
  · rw [toDigits_injective same]
  · exact absurd same (signed _ _)
  · exact absurd same.symm (signed _ _)
  · rw [Nat.succ.inj (toDigits_injective (List.cons.inj same).2)]

def intText (value : Int) : BareText where
  text := (toString value).toList
  some := by
    rcases toList_int value with ⟨number, _, text⟩ | ⟨number, _, text⟩ <;> rw [text]
    · exact Nat.toDigits_ne_nil
    · exact List.cons_ne_nil _ _
  plain := by
    have digits (number : Nat) (character : Char) (member : character ∈ Nat.toDigits 10 number) :
        needsQuotes character = false := (digit_plain (isDigit_toDigits number character member)).1
    rcases toList_int value with ⟨number, _, text⟩ | ⟨number, _, text⟩ <;> rw [text]
    · exact digits number
    · intro character member
      rcases List.mem_cons.mp member with rfl | member
      · decide
      · exact digits _ character member

/-- Every integer would need quotes as a text. -/
theorem isToonLiteral_int (value : Int) : isToonLiteral (toString value) = true := by
  have decimal (number : Nat) : isDecimal (Nat.toDigits 10 number) = true := by
    have digits := isDigit_toDigits number
    have whole : (Nat.toDigits 10 number).takeWhile isDigit = Nat.toDigits 10 number :=
      List.takeWhile_eq_self_iff.mpr digits
    have rest : (Nat.toDigits 10 number).dropWhile isDigit = [] :=
      List.dropWhile_eq_nil_iff.mpr digits
    simp [isDecimal, whole, rest, isExponent, Nat.toDigits_ne_nil]
  have unsignedDigits (number : Nat) :
      unsigned (Nat.toDigits 10 number) = Nat.toDigits 10 number := by
    cases digits : Nat.toDigits 10 number with
    | nil => rfl
    | cons first others =>
      have plain := digit_plain (isDigit_toDigits number first (digits ▸ List.mem_cons_self))
      simp [unsigned, plain.2.1, plain.2.2]
  have float : parsesAsFloat (toString value) = true := by
    rw [parsesAsFloat]
    rcases toList_int value with ⟨number, _, text⟩ | ⟨number, _, text⟩ <;> rw [text]
    · rw [unsignedDigits, decimal, Bool.or_true]
    · change (_ || isDecimal (Nat.toDigits 10 (number + 1))) = true
      rw [decimal, Bool.or_true]
  rw [isToonLiteral, float, Bool.or_true]

/-- The tokens of a field's value: one, or a list in brackets. -/
def valueTokens : StructuredValue → Token ⊕ List Token
  | .null => .inl (.bare nullText)
  | .bool value => .inl (.bare (boolText value))
  | .integer value => .inl (.bare (intText value))
  | .string value => .inl (toonToken value)
  | .stringList values => .inr (values.map toonToken)

def writeTokens : Token ⊕ List Token → List Char
  | .inl token => token.write
  | .inr tokens => '[' :: ([','].intercalate (tokens.map Token.write) ++ [']'])

theorem toList_renderStructuredValue (value : StructuredValue) :
    (renderStructuredValue value).toList = writeTokens (valueTokens value) := by
  cases value with
  | null => rfl
  | bool value => rfl
  | integer value => rfl
  | string value => exact toList_renderToonValue value
  | stringList values =>
    have each : (values.map renderToonValue).map String.toList =
        (values.map toonToken).map Token.write := by
      rw [List.map_map, List.map_map]
      exact List.map_congr_left fun value _ => toList_renderToonValue value
    rw [renderStructuredValue, String.toList_append, String.toList_append, String.toList_intercalate,
      each]
    rfl

theorem writeTokens_injective : Function.Injective writeTokens := by
  have list := (Readable.enclosed (by decide) token_readable fun token rest rest' =>
    token_ne_bracket (.inr rfl)).injective
  intro first second same
  cases first with
  | inl token =>
    cases second with
    | inl token' => rw [token_readable.injective same]
    | inr tokens =>
      change token.write = _ at same
      rw [← List.append_nil token.write] at same
      exact absurd same (token_ne_bracket (.inl rfl))
  | inr tokens =>
    cases second with
    | inl token =>
      change _ = token.write at same
      rw [← List.append_nil token.write] at same
      exact absurd same.symm (token_ne_bracket (.inl rfl))
    | inr tokens' => rw [list (List.cons.inj same).2]

def Token.text : Token → List Char
  | .bare written => written.text
  | .quoted text => text

theorem toonToken_text (value : String) : String.ofList (toonToken value).text = value := by
  rw [toonToken]
  split <;> exact String.ofList_toList

def readInt : List Char → Int
  | '-' :: digits => -Nat.ofDigitChars 10 digits 0
  | digits => Nat.ofDigitChars 10 digits 0

theorem readInt_int (value : Int) : readInt (toString value).toList = value := by
  rcases toList_int value with ⟨number, same, text⟩ | ⟨number, same, text⟩ <;> rw [text, same]
  · cases digits : Nat.toDigits 10 number with
    | nil => exact absurd digits Nat.toDigits_ne_nil
    | cons first others =>
      have plain := digit_plain (isDigit_toDigits number first (digits ▸ List.mem_cons_self))
      have read : readInt (first :: others) = Nat.ofDigitChars 10 (first :: others) 0 := by
        rw [readInt]
        simp [plain.2.1]
      rw [read, ← digits, Nat.ofDigitChars_ten_toDigits]
  · change -((Nat.ofDigitChars 10 (Nat.toDigits 10 (number + 1)) 0 : Nat) : Int) = _
    rw [Nat.ofDigitChars_ten_toDigits]
    rfl

theorem any_isDigit_int (value : Int) : (intText value).text.any isDigit = true := by
  have digits (number : Nat) : (Nat.toDigits 10 number).any isDigit = true := by
    obtain ⟨first, member⟩ := List.exists_mem_of_ne_nil _ (@Nat.toDigits_ne_nil number 10)
    exact List.any_eq_true.mpr ⟨first, member, isDigit_toDigits number first member⟩
  change (toString value).toList.any isDigit = true
  rcases toList_int value with ⟨number, _, text⟩ | ⟨number, _, text⟩ <;> rw [text]
  · exact digits number
  · rw [List.any_cons, digits, Bool.or_true]

/-- The value whose tokens these are. Among the texts without quotes, the literals are not
strings. -/
def readTokens : Token ⊕ List Token → StructuredValue
  | .inl (.quoted text) => .string (String.ofList text)
  | .inl (.bare written) =>
    if written.text = "null".toList then .null
    else if written.text = "true".toList then .bool true
    else if written.text = "false".toList then .bool false
    else if isToonLiteral (String.ofList written.text) then .integer (readInt written.text)
    else .string (String.ofList written.text)
  | .inr tokens => .stringList (tokens.map fun token => String.ofList token.text)

theorem readTokens_valueTokens (value : StructuredValue) : readTokens (valueTokens value) = value := by
  cases value with
  | null => rfl
  | bool value => cases value <;> rfl
  | integer value =>
    have word (text : List Char) (letters : text.any isDigit = false) :
        (intText value).text ≠ text := by
      rintro rfl
      rw [any_isDigit_int] at letters
      cases letters
    rw [valueTokens, readTokens, if_neg (word "null".toList (by decide)),
      if_neg (word "true".toList (by decide)), if_neg (word "false".toList (by decide))]
    change (if isToonLiteral (String.ofList (toString value).toList) then
      StructuredValue.integer (readInt (toString value).toList) else _) = _
    rw [String.ofList_toList, if_pos (isToonLiteral_int value), readInt_int]
  | string value =>
    rw [valueTokens]
    cases token : toonToken value with
    | quoted text =>
      have same := toonToken_text value
      rw [token] at same
      exact congrArg _ same
    | bare written =>
      obtain ⟨text, other⟩ := toonToken_bare token
      have literal {word : String} (literal : isToonLiteral word = true) :
          value.toList ≠ word.toList := by
        intro same
        rw [String.toList_inj.mp same, literal] at other
        cases other
      rw [readTokens, text, if_neg (literal (by decide)), if_neg (literal (by decide)),
        if_neg (literal (by decide)), String.ofList_toList, other]
      rfl
  | stringList values =>
    rw [valueTokens, readTokens, List.map_map]
    have each : values.map ((fun token => String.ofList token.text) ∘ toonToken) = values := by
      conv_rhs => rw [← List.map_id values]
      exact List.map_congr_left fun value _ => toonToken_text value
    rw [each]

theorem valueTokens_injective : Function.Injective valueTokens :=
  Function.LeftInverse.injective readTokens_valueTokens

theorem renderStructuredValue_injective {first second : StructuredValue}
    (same : (renderStructuredValue first).toList = (renderStructuredValue second).toList) :
    first = second := by
  rw [toList_renderStructuredValue, toList_renderStructuredValue] at same
  exact valueTokens_injective (writeTokens_injective same)

end Values

end Atelia.ToolOutput
