import Atelia.Foundation.Excerpt

/-! UTF-8 as a validating decoder reads it. -/

namespace Atelia.Utf8

open Excerpt

/-- The bytes of a text. -/
def encode (text : List Char) : List UInt8 :=
  text.flatMap String.utf8EncodeChar

/-- What the first character of an input is. -/
inductive Decoded where
  | character (character : Char) (rest : List UInt8)
  | invalid
  | incomplete

/-- What a leading byte announces: the number of bytes to come, the range of the next one,
and the bits so far. -/
structure Lead where
  owed : Nat
  low : Nat := 0x80
  high : Nat := 0xBF
  value : Nat

def lead (byte : UInt8) : Option Lead :=
  let code := byte.toNat
  if code < 0x80 then some { owed := 0, value := code }
  else if 0xC2 ≤ code ∧ code ≤ 0xDF then some { owed := 1, value := code - 0xC0 }
  else if code = 0xE0 then some { owed := 2, low := 0xA0, value := 0 }
  else if code = 0xED then some { owed := 2, high := 0x9F, value := 0xD }
  else if 0xE1 ≤ code ∧ code ≤ 0xEF then some { owed := 2, value := code - 0xE0 }
  else if code = 0xF0 then some { owed := 3, low := 0x90, value := 0 }
  else if 0xF1 ≤ code ∧ code ≤ 0xF3 then some { owed := 3, value := code - 0xF0 }
  else if code = 0xF4 then some { owed := 3, high := 0x8F, value := 4 }
  else none

/-- The bytes after a leading one: the next lies in the given range, the others are
continuation bytes. -/
def decodeTails (low high value : Nat) : Nat → List UInt8 → Decoded
  | 0, rest => .character (Char.ofNat value) rest
  | _ + 1, [] => .incomplete
  | owed + 1, byte :: rest =>
    if low ≤ byte.toNat ∧ byte.toNat ≤ high then
      decodeTails 0x80 0xBF (value * 64 + (byte.toNat - 0x80)) owed rest
    else .invalid

def decodeFirst (byte : UInt8) (rest : List UInt8) : Decoded :=
  match lead byte with
  | some lead => decodeTails lead.low lead.high lead.value lead.owed rest
  | none => .invalid

inductive Ending where
  | finished | invalid | incomplete
  deriving DecidableEq

/-- The valid lead of an input, and why decoding stopped. -/
structure Decoding where
  text : List Char
  ending : Ending
  deriving DecidableEq

/-- One character for each unit of fuel; the input's length is enough. -/
def decodeWith : Nat → List UInt8 → Decoding
  | 0, _ | _, [] => ⟨[], .finished⟩
  | fuel + 1, byte :: rest =>
    match decodeFirst byte rest with
    | .character character rest =>
      let decoding := decodeWith fuel rest
      { decoding with text := character :: decoding.text }
    | .invalid => ⟨[], .invalid⟩
    | .incomplete => ⟨[], .incomplete⟩

def decode (input : List UInt8) : Decoding :=
  decodeWith input.length input

/-- How many of the bytes owed can follow a leading one. -/
def acceptedTails (low high : Nat) : Nat → List UInt8 → Nat
  | owed + 1, byte :: rest =>
    if low ≤ byte.toNat ∧ byte.toNat ≤ high then acceptedTails 0x80 0xBF owed rest + 1 else 0
  | _, _ => 0

/-- The length of the sequence at which decoding stops. -/
def stoppedLength : List UInt8 → Nat
  | [] => 0
  | byte :: rest =>
    match lead byte with
    | some lead => acceptedTails lead.low lead.high lead.owed rest + 1
    | none => 1

/-- Why an input is no text, in the words of `Utf8Error`. -/
def errorText (input : List UInt8) : String :=
  let decoding := decode input
  let index := (encode decoding.text).length
  match decoding.ending with
  | .incomplete => s!"incomplete utf-8 byte sequence from index {index}"
  | _ => s!"invalid utf-8 sequence of {stoppedLength (input.drop index)} bytes from index {index}"

variable {code : Nat}

theorem lead_two (low : 0xC2 ≤ code) (high : code ≤ 0xDF) :
    lead (UInt8.ofNat code) = some { owed := 1, value := code - 0xC0 } := by
  interval_cases code <;> rfl

theorem lead_three (low : 0xE0 ≤ code) (high : code ≤ 0xEF) :
    lead (UInt8.ofNat code) = some {
      owed := 2
      low := if code = 0xE0 then 0xA0 else 0x80
      high := if code = 0xED then 0x9F else 0xBF
      value := code - 0xE0 } := by
  interval_cases code <;> rfl

theorem lead_four (low : 0xF0 ≤ code) (high : code ≤ 0xF4) :
    lead (UInt8.ofNat code) = some {
      owed := 3
      low := if code = 0xF0 then 0x90 else 0x80
      high := if code = 0xF4 then 0x8F else 0xBF
      value := code - 0xF0 } := by
  interval_cases code <;> rfl

theorem toNat_ofNat (small : code < 256) : (UInt8.ofNat code).toNat = code := by
  rw [UInt8.toNat_ofNat', Nat.mod_eq_of_lt small]

variable {rest : List UInt8} {low high value owed : Nat}

theorem decodeTails_cons (small : code < 256) (above : low ≤ code) (below : code ≤ high) :
    decodeTails low high value (owed + 1) (UInt8.ofNat code :: rest) =
      decodeTails 0x80 0xBF (value * 64 + (code - 0x80)) owed rest := by
  rw [decodeTails, toNat_ofNat small, if_pos ⟨above, below⟩]

theorem decodeFirst_encode (character : Char) (rest : List UInt8) :
    ∃ byte tails, String.utf8EncodeChar character = byte :: tails ∧
      decodeFirst byte (tails ++ rest) = .character character rest := by
  have valid := character.valid
  rw [UInt32.isValidChar, Nat.isValidChar] at valid
  have back : Char.ofNat character.val.toNat = character := Char.ofNat_toNat character
  unfold String.utf8EncodeChar
  simp only
  obtain ⟨code, defined⟩ : ∃ code, character.val.toNat = code := ⟨_, rfl⟩
  rw [defined] at valid back ⊢
  split_ifs with one two three <;> refine ⟨_, _, rfl, ?_⟩
  · simp only [decodeFirst, lead]
    rw [toNat_ofNat (by omega), if_pos (by omega)]
    simp [decodeTails, back]
  · rw [decodeFirst, lead_two (by omega) (by omega)]
    simp only [List.cons_append, List.nil_append]
    rw [decodeTails_cons (by omega) (by omega) (by omega), decodeTails]
    have whole : (code / 64 % 32 + 192 - 192) * 64 + (code % 64 + 128 - 128) = code := by omega
    rw [whole, back]
  · rw [decodeFirst, lead_three (by omega) (by omega)]
    simp only [List.cons_append, List.nil_append]
    rw [decodeTails_cons (by omega) (by split_ifs <;> omega) (by split_ifs <;> omega),
      decodeTails_cons (by omega) (by omega) (by omega), decodeTails]
    have whole : ((code / 4096 % 16 + 224 - 224) * 64 + (code / 64 % 64 + 128 - 128)) * 64 +
        (code % 64 + 128 - 128) = code := by omega
    rw [whole, back]
  · rw [decodeFirst, lead_four (by omega) (by omega)]
    simp only [List.cons_append, List.nil_append]
    rw [decodeTails_cons (by omega) (by split_ifs <;> omega) (by split_ifs <;> omega),
      decodeTails_cons (by omega) (by omega) (by omega),
      decodeTails_cons (by omega) (by omega) (by omega), decodeTails]
    have whole : (((code / 262144 % 8 + 240 - 240) * 64 + (code / 4096 % 64 + 128 - 128)) * 64 +
        (code / 64 % 64 + 128 - 128)) * 64 + (code % 64 + 128 - 128) = code := by omega
    rw [whole, back]

variable {character : Char} {input : List UInt8}

theorem decodeTails_length
    (read : decodeTails low high value owed input = .character character rest) :
    input.length = owed + rest.length := by
  induction owed generalizing low high value input with
  | zero =>
    rw [decodeTails] at read
    cases read
    omega
  | succ owed ih =>
    cases input with
    | nil => cases read
    | cons byte tails =>
      rw [decodeTails] at read
      split at read
      · have := ih read
        rw [List.length_cons]
        omega
      · cases read

/-- A character of which the last bytes are missing is incomplete, not invalid. -/
theorem decodeTails_cut {missing : List UInt8}
    (read : decodeTails low high value owed (input ++ missing) = .character character rest)
    (short : input.length < owed) : decodeTails low high value owed input = .incomplete := by
  induction owed generalizing low high value input with
  | zero => cases short
  | succ owed ih =>
    cases input with
    | nil => rfl
    | cons byte tails =>
      rw [List.cons_append, decodeTails] at read
      rw [decodeTails]
      split at read
      · rename_i range
        rw [if_pos range]
        exact ih read (by simpa using short)
      · cases read

theorem decodeFirst_cut {byte : UInt8} {tails missing : List UInt8}
    (encoded : String.utf8EncodeChar character = byte :: (tails ++ missing)) (cut : missing ≠ []) :
    decodeFirst byte tails = .incomplete := by
  obtain ⟨byte', tails', encoded', read⟩ := decodeFirst_encode character []
  rw [encoded] at encoded'
  obtain ⟨rfl, rfl⟩ := List.cons.inj encoded'
  rw [List.append_nil] at read
  unfold decodeFirst at read ⊢
  cases announced : lead byte with
  | none =>
    rw [announced] at read
    cases read
  | some lead =>
    rw [announced] at read
    have whole := decodeTails_length read
    have some := List.length_pos_of_ne_nil cut
    rw [List.length_append, List.length_nil] at whole
    exact decodeTails_cut read (by omega)

theorem encode_cons (character : Char) (text : List Char) :
    encode (character :: text) = String.utf8EncodeChar character ++ encode text :=
  List.flatMap_cons

theorem encode_append (first second : List Char) :
    encode (first ++ second) = encode first ++ encode second :=
  List.flatMap_append

/-- A byte of the ASCII range stands for its character and nothing else. -/
theorem ascii_mem_encodeChar {byte : UInt8} (small : byte.toNat < 0x80)
    (member : byte ∈ String.utf8EncodeChar character) : character.toNat = byte.toNat := by
  have continues {code : Nat} (high : 0x80 ≤ code) (top : code < 256)
      (same : byte = UInt8.ofNat code) : False := by
    rw [same, toNat_ofNat top] at small
    omega
  unfold String.utf8EncodeChar at member
  simp only at member
  split_ifs at member with one
  · rw [List.mem_singleton] at member
    rw [member, toNat_ofNat (by omega)]
    rfl
  all_goals
    simp only [List.mem_cons, List.not_mem_nil, or_false] at member
    exfalso
  · rcases member with same | same <;> exact continues (by omega) (by omega) same
  · rcases member with same | same | same <;> exact continues (by omega) (by omega) same
  · rcases member with same | same | same | same <;> exact continues (by omega) (by omega) same

theorem length_encode (text : List Char) : (encode text).length = bytes text := by
  induction text with
  | nil => rfl
  | cons character text ih =>
    rw [encode_cons, List.length_append, String.length_utf8EncodeChar, ih, bytes_cons]

/-- The characters of an encoded text come first, whatever follows them. -/
theorem decodeWith_encode (text : List Char) (rest : List UInt8) {fuel : Nat}
    (enough : (encode text ++ rest).length ≤ fuel) :
    ∃ left, rest.length ≤ left ∧ decodeWith fuel (encode text ++ rest) =
      { decodeWith left rest with text := text ++ (decodeWith left rest).text } := by
  induction text generalizing fuel with
  | nil => exact ⟨fuel, by simpa [encode] using enough, rfl⟩
  | cons character text ih =>
    obtain ⟨byte, tails, encoded, read⟩ := decodeFirst_encode character (encode text ++ rest)
    rw [encode_cons, encoded] at enough ⊢
    rw [List.append_assoc, List.cons_append] at enough ⊢
    cases fuel with
    | zero => simp at enough
    | succ fuel =>
      have fewer : (encode text ++ rest).length ≤ fuel := by
        simp only [List.length_cons, List.length_append] at enough ⊢
        omega
      obtain ⟨left, some, decoded⟩ := ih fewer
      refine ⟨left, some, ?_⟩
      simp only [decodeWith, read, decoded, List.cons_append]

theorem decode_encode (text : List Char) : decode (encode text) = ⟨text, .finished⟩ := by
  obtain ⟨left, _, decoded⟩ := decodeWith_encode text [] (Nat.le_of_eq (by rw [List.append_nil]))
  rw [List.append_nil] at decoded
  have nothing : decodeWith left [] = ⟨[], .finished⟩ := by cases left <;> rfl
  rw [decode, decoded, nothing, List.append_nil]

/-- An input that ends inside a character is incomplete after the characters before it. -/
theorem decode_encode_cut {text : List Char} {cut missing : List UInt8}
    (encoded : String.utf8EncodeChar character = cut ++ missing) (started : cut ≠ [])
    (unfinished : missing ≠ []) : decode (encode text ++ cut) = ⟨text, .incomplete⟩ := by
  obtain ⟨left, some, decoded⟩ := decodeWith_encode text cut (Nat.le_refl _)
  cases cut with
  | nil => exact absurd rfl started
  | cons byte tails =>
    cases left with
    | zero => simp at some
    | succ left =>
      have stopped := decodeFirst_cut encoded unfinished
      have incomplete : decodeWith (left + 1) (byte :: tails) = ⟨[], .incomplete⟩ := by
        rw [decodeWith, stopped]
      rw [decode, decoded, incomplete, List.append_nil]

theorem toNat_ofNat_le (code : Nat) : (Char.ofNat code).toNat ≤ code := by
  by_cases valid : code.isValidChar
  · rw [Char.ofNat, dif_pos valid]
    exact Nat.le_refl code
  · rw [Char.ofNat, dif_neg valid]
    exact Nat.zero_le code

theorem utf8Size_le :
    (character.toNat < 0x80 → character.utf8Size ≤ 1) ∧
      (character.toNat < 0x800 → character.utf8Size ≤ 2) ∧
      (character.toNat < 0x10000 → character.utf8Size ≤ 3) := by
  have two := @Char.utf8Size_eq_two_iff character
  have three := @Char.utf8Size_eq_three_iff character
  have four := @Char.utf8Size_eq_four_iff character
  have value : character.toNat = character.val.toNat := rfl
  rw [UInt32.lt_iff_toNat_lt, UInt32.le_iff_toNat_le] at two three
  rw [UInt32.lt_iff_toNat_lt] at four
  rw [value]
  have size := Char.utf8Size_eq character
  simp only [UInt32.reduceToNat] at two three four
  omega

theorem decodeTails_size {bound : Nat} (small : value < bound) (top : high ≤ 0xBF)
    (read : decodeTails low high value owed input = .character character rest) :
    ∃ code < bound * 64 ^ owed, character = Char.ofNat code := by
  induction owed generalizing low high value bound input with
  | zero =>
    rw [decodeTails] at read
    cases read
    exact ⟨value, by simpa using small, rfl⟩
  | succ owed ih =>
    cases input with
    | nil => cases read
    | cons byte tails =>
      rw [decodeTails] at read
      split at read
      · rename_i range
        obtain ⟨code, less, same⟩ := @ih _ _ _ _ (bound * 64) (by omega) (by decide) read
        exact ⟨code, by rwa [pow_succ', ← mul_assoc], same⟩
      · cases read

/-- A leading byte announces at most three bytes and few enough bits for them. -/
theorem lead_bound {byte : UInt8} {announced : Lead} (found : lead byte = some announced) :
    announced.high ≤ 0xBF ∧
      ((announced.owed = 0 ∧ announced.value < 0x80) ∨ (announced.owed = 1 ∧ announced.value < 0x20) ∨
        (announced.owed = 2 ∧ announced.value < 0x10) ∨ announced.owed = 3) := by
  unfold lead at found
  simp only at found
  split_ifs at found <;> cases found <;> simp <;> omega

/-- A character is no longer than the bytes it was read from. -/
theorem decodeFirst_size {byte : UInt8} (read : decodeFirst byte input = .character character rest) :
    character.utf8Size + rest.length ≤ input.length + 1 := by
  rw [decodeFirst] at read
  cases found : lead byte with
  | none =>
    rw [found] at read
    cases read
  | some announced =>
    rw [found] at read
    have consumed := decodeTails_length read
    obtain ⟨top, owed⟩ := lead_bound found
    have size {bound : Nat} (small : announced.value < bound) :
        character.toNat < bound * 64 ^ announced.owed := by
      obtain ⟨code, less, rfl⟩ := decodeTails_size small top read
      exact (toNat_ofNat_le code).trans_lt less
    rcases owed with ⟨owed, small⟩ | ⟨owed, small⟩ | ⟨owed, small⟩ | owed
    · have := utf8Size_le.1 (by simpa [owed] using size small)
      omega
    · have := utf8Size_le.2.1 (by simpa [owed] using size small)
      omega
    · have := utf8Size_le.2.2 (by simpa [owed] using size small)
      omega
    · have := Char.utf8Size_le_four character
      omega

theorem bytes_decodeWith (fuel : Nat) (input : List UInt8) :
    bytes (decodeWith fuel input).text ≤ input.length := by
  induction fuel generalizing input with
  | zero => exact Nat.zero_le _
  | succ fuel ih =>
    cases input with
    | nil => exact Nat.zero_le _
    | cons byte tails =>
      rw [decodeWith]
      split
      · rename_i character rest read
        have size := decodeFirst_size read
        have later := ih rest
        rw [bytes_cons, List.length_cons]
        omega
      · exact Nat.zero_le _
      · exact Nat.zero_le _

/-- The decoded text is no longer than the input. -/
theorem bytes_decode (input : List UInt8) : bytes (decode input).text ≤ input.length :=
  bytes_decodeWith _ input

end Atelia.Utf8
