import Atelia.Tools.WindowLimits

/-! The lines of a text file and the lines that a bounded scan of it reaches. -/

namespace Atelia.Tools

open Excerpt Text

variable {request : WindowRequest} {text : List Char}

section Source

/-- The lines of a text with their line breaks. -/
def textChunks : List Char → List (List Char)
  | [] => []
  | character :: rest =>
    if character = '\n' then ['\n'] :: textChunks rest
    else match textChunks rest with
      | [] => [[character]]
      | first :: others => (character :: first) :: others

/-- A line without its line feed, or its carriage return and line feed. -/
def stripBreak (line : List Char) : List Char :=
  if line.getLast? = some '\n' then
    if line.dropLast.getLast? = some '\r' then line.dropLast.dropLast else line.dropLast
  else line

def renderText (request : WindowRequest) : Nat → List (List Char) → List (List Char)
  | _, [] => []
  | number, line :: rest => request.render number (stripBreak line) ::
      renderText request (number + 1) rest

/-- The source lines from the first one of the window on, as the window shows them. -/
def sourceLines (request : WindowRequest) (text : List Char) : List (List Char) :=
  (renderText request 1 (textChunks text)).drop (request.firstLine - 1)

end Source

section Scan

/-- The characters that a scan of some bytes reaches, by lines. A character of which only
the first bytes are reached is left out, but it opens its line. -/
def scanChunks (room : Nat) : List Char → List (List Char)
  | [] => []
  | character :: rest =>
    if room = 0 then []
    else if room < character.utf8Size then [[]]
    else if character = '\n' then ['\n'] :: scanChunks (room - 1) rest
    else match scanChunks (room - character.utf8Size) rest with
      | [] => [[character]]
      | first :: others => (character :: first) :: others

/-- Bytes of a line that hold the given characters, and perhaps the first bytes of one more,
which bytes beyond the scan complete. -/
structure Encodes (more : Bool) (chunk : List UInt8) (line : List Char) : Prop where
  spelled : ∃ cut, chunk = Utf8.encode line ++ cut ∧ (cut = [] ∨
    (more = true ∧ '\n' ∉ line ∧ cut ≠ [] ∧ ∃ character missing,
      String.utf8EncodeChar character = cut ++ missing ∧ missing ≠ []))

variable {character : Char}

theorem newline_not_mem_encodeChar (different : character ≠ '\n') :
    10 ∉ String.utf8EncodeChar character := by
  intro member
  have code := Utf8.ascii_mem_encodeChar (by decide) member
  exact different (Char.toNat_inj.mp code)

theorem chunks_unbroken {input : List UInt8} (some : input ≠ []) (unbroken : 10 ∉ input) :
    chunks input = [input] := by
  induction input with
  | nil => exact absurd rfl some
  | cons byte rest ih =>
    rw [List.mem_cons, not_or] at unbroken
    rw [chunks, if_neg (Ne.symm unbroken.1)]
    cases rest with
    | nil => rfl
    | cons next rest => rw [ih (List.cons_ne_nil _ _) unbroken.2]

theorem chunks_append {lead input : List UInt8} (some : lead ≠ []) (unbroken : 10 ∉ lead) :
    chunks (lead ++ input) = match chunks input with
      | [] => [lead]
      | first :: others => (lead ++ first) :: others := by
  induction lead with
  | nil => exact absurd rfl some
  | cons byte lead ih =>
    rw [List.mem_cons, not_or] at unbroken
    rw [List.cons_append, chunks, if_neg (Ne.symm unbroken.1)]
    cases lead with
    | nil => rfl
    | cons next lead =>
      rw [ih (List.cons_ne_nil _ _) unbroken.2]
      cases chunks input <;> rfl

variable {line : List Char}

theorem Encodes.cons {more : Bool} {chunk : List UInt8} (different : character ≠ '\n')
    (encodes : Encodes more chunk line) :
    Encodes more (String.utf8EncodeChar character ++ chunk) (character :: line) := by
  obtain ⟨cut, rfl, ending⟩ := encodes.spelled
  refine ⟨cut, by rw [Utf8.encode_cons, List.append_assoc], ending.imp_right ?_⟩
  rintro ⟨more, unbroken, open'⟩
  exact ⟨more, by simp [different.symm, unbroken], open'⟩

theorem encodes_whole (more : Bool) (line : List Char) : Encodes more (Utf8.encode line) line :=
  ⟨[], (List.append_nil _).symm, .inl rfl⟩

/-- The bytes that a scan reaches spell the characters that it reaches, line by line. -/
theorem encodes_chunks (room : Nat) (text : List Char) :
    List.Forall₂ (Encodes (room < (Utf8.encode text).length))
      (chunks ((Utf8.encode text).take room)) (scanChunks room text) := by
  induction text generalizing room with
  | nil =>
    rw [scanChunks]
    simp [Utf8.encode, chunks]
  | cons character rest ih =>
    have size := String.length_utf8EncodeChar character
    have positive := character.utf8Size_pos
    rw [Utf8.encode_cons, scanChunks]
    by_cases none : room = 0
    · rw [if_pos none, none, List.take_zero, chunks]
      exact .nil
    by_cases inside : room < character.utf8Size
    · -- The scan ends inside this character, which is not the one-byte line feed.
      have different : character ≠ '\n' := by
        rintro rfl
        exact absurd inside (by simp [Char.utf8Size]; omega)
      have reached : (String.utf8EncodeChar character).take room ≠ [] := by
        rw [← List.length_pos_iff, List.length_take]
        omega
      have missing : (String.utf8EncodeChar character).drop room ≠ [] := by
        rw [← List.length_pos_iff, List.length_drop]
        omega
      rw [if_neg none, if_pos inside, List.take_append_of_le_length (by omega),
        chunks_unbroken reached
          fun member => newline_not_mem_encodeChar different (List.mem_of_mem_take member)]
      refine .cons ⟨_, rfl, .inr ⟨?_, List.not_mem_nil, reached, character, _,
        (List.take_append_drop ..).symm, missing⟩⟩ .nil
      rw [List.length_append, decide_eq_true_eq]
      omega
    have later := ih (room - character.utf8Size)
    have more : decide (room - character.utf8Size < (Utf8.encode rest).length) =
        decide (room < (String.utf8EncodeChar character ++ Utf8.encode rest).length) := by
      rw [List.length_append, size]
      exact decide_eq_decide.mpr (by omega)
    rw [more] at later
    rw [if_neg none, if_neg inside, List.take_append, size,
      List.take_of_length_le (by omega)]
    by_cases newline : character = '\n'
    · subst newline
      rw [if_pos rfl]
      exact .cons (encodes_whole _ ['\n']) later
    rw [if_neg newline, chunks_append (String.utf8EncodeChar_ne_nil)
      (newline_not_mem_encodeChar newline)]
    generalize chunks _ = reached, scanChunks _ rest = lines at later ⊢
    cases later with
    | nil =>
      refine .cons ?_ .nil
      have whole := encodes_whole (decide (room < (String.utf8EncodeChar character ++
        Utf8.encode rest).length)) [character]
      rwa [Utf8.encode_cons, show Utf8.encode [] = [] from rfl, List.append_nil] at whole
    | cons first others => exact .cons (first.cons newline) others

variable {byte : UInt8}

/-- An ASCII byte in the text's bytes is its character in the text. -/
theorem mem_of_ascii_mem_encode (small : byte.toNat < 0x80) (same : character.toNat = byte.toNat)
    (member : byte ∈ Utf8.encode line) : character ∈ line := by
  obtain ⟨written, present, member⟩ := List.mem_flatMap.mp member
  have code := Utf8.ascii_mem_encodeChar small member
  rwa [Char.toNat_inj.mp (code.trans same.symm)] at present

/-- No proper lead of a character's bytes has an ASCII byte. -/
theorem ascii_not_mem_lead {cut missing : List UInt8} (small : byte.toNat < 0x80)
    (encoded : String.utf8EncodeChar character = cut ++ missing) (some : missing ≠ []) : byte ∉ cut := by
  intro member
  have code := Utf8.ascii_mem_encodeChar small (encoded ▸ List.mem_append_left missing member)
  have one : character.utf8Size = 1 := by
    rw [Char.utf8Size_eq_one_iff, UInt32.le_iff_toNat_le]
    exact Nat.le_of_lt_succ (lt_of_eq_of_lt code small)
  have lengths := congrArg List.length encoded
  rw [String.length_utf8EncodeChar, one, List.length_append] at lengths
  have := List.length_pos_iff.mpr some
  have := List.length_pos_iff.mpr (List.ne_nil_of_mem member)
  omega

theorem getLast?_encode (small : byte.toNat < 0x80)
    (encoded : String.utf8EncodeChar character = [byte]) (line : List Char) :
    (Utf8.encode line).getLast? = some byte ↔ line.getLast? = some character := by
  have same := Utf8.ascii_mem_encodeChar small (encoded ▸ List.mem_singleton_self byte)
  rcases List.eq_nil_or_concat' line with rfl | ⟨line, last, rfl⟩
  · simp [Utf8.encode]
  have single : Utf8.encode [last] = String.utf8EncodeChar last := by
    rw [Utf8.encode_cons, show Utf8.encode [] = [] from rfl, List.append_nil]
  rw [Utf8.encode_append, single, List.getLast?_append_of_ne_nil _ String.utf8EncodeChar_ne_nil,
    List.getLast?_concat, Option.some.injEq]
  constructor
  · intro ends
    have code := Utf8.ascii_mem_encodeChar small (List.mem_of_getLast? ends)
    exact Char.toNat_inj.mp (code.trans same.symm)
  · rintro rfl
    rw [encoded]
    rfl

theorem encode_dropLast (encoded : String.utf8EncodeChar character = [byte])
    (ends : line.getLast? = some character) :
    Utf8.encode line.dropLast = (Utf8.encode line).dropLast := by
  obtain ⟨lead, rfl⟩ := List.getLast?_eq_some_iff.mp ends
  rw [List.dropLast_concat, Utf8.encode_append, Utf8.encode_cons, encoded]
  exact List.dropLast_concat.symm

theorem stripLineBreak_encode (line : List Char) :
    (stripLineBreak (Utf8.encode line)).1 = Utf8.encode (stripBreak line) := by
  have newline : String.utf8EncodeChar '\n' = [10] := by decide
  have carriage : String.utf8EncodeChar '\r' = [13] := by decide
  rw [stripLineBreak, stripBreak]
  by_cases ends : line.getLast? = some '\n'
  · rw [if_pos ((getLast?_encode (by decide) newline line).mpr ends), if_pos ends,
      ← encode_dropLast newline ends]
    have before := getLast?_encode (by decide) carriage line.dropLast
    by_cases returns : line.dropLast.getLast? = some '\r'
    · rw [if_pos (before.mpr returns), if_pos returns, encode_dropLast carriage returns]
    · rw [if_neg (mt before.mp returns), if_neg returns]
  · rw [if_neg (mt (getLast?_encode (by decide) newline line).mp ends), if_neg ends]

theorem mem_stripBreak (member : character ∈ stripBreak line) : character ∈ line := by
  rw [stripBreak] at member
  split_ifs at member
  · exact List.mem_of_mem_dropLast (List.mem_of_mem_dropLast member)
  · exact List.mem_of_mem_dropLast member
  · exact member

theorem decodeLine_encode (truncated : Bool) (clean : '\x00' ∉ line) :
    decodeLine (Utf8.encode line) truncated = .ok line := by
  have whole : 0 ∉ Utf8.encode line :=
    fun member => clean (mem_of_ascii_mem_encode (by decide) (by decide) member)
  rw [decodeLine, if_neg whole, Utf8.decode_encode]

/-- A scanned line shows as its characters do. -/
theorem renderLine_encodes {more : Bool} {chunk : List UInt8} (number : Nat)
    (encodes : Encodes more chunk line) (clean : '\x00' ∉ line) :
    renderLine request more number chunk = .ok (request.render number (stripBreak line)) := by
  rw [renderLine]
  obtain ⟨cut, rfl, rfl | ⟨rfl, unbroken, some, character, missing, encoded, rest⟩⟩ :=
    encodes.spelled
  · rw [List.append_nil, stripLineBreak_encode,
      decodeLine_encode _ fun member => clean (mem_stripBreak member)]
    rfl
  · -- The scan ended inside a character: the line has no line break, and its bytes are dropped.
    have last : (Utf8.encode line ++ cut).getLast? ≠ .some 10 := by
      rw [List.getLast?_append_of_ne_nil _ some]
      exact fun ends => ascii_not_mem_lead (by decide) encoded rest (List.mem_of_getLast? ends)
    have whole : 0 ∉ Utf8.encode line ++ cut := by
      rw [List.mem_append, not_or]
      exact ⟨fun member => clean (mem_of_ascii_mem_encode (by decide) (by decide) member),
        ascii_not_mem_lead (by decide) encoded rest⟩
    have kept : stripBreak line = line :=
      if_neg fun ends => unbroken (List.mem_of_getLast? ends)
    rw [stripLineBreak, if_neg last, kept, decide_eq_true last, decodeLine, if_neg whole,
      Utf8.decode_encode_cut encoded some rest]
    simp [← Utf8.length_encode, Utf8.decode_encode, Except.map]

theorem mem_scanChunks {room : Nat} (present : line ∈ scanChunks room text)
    (member : character ∈ line) : character ∈ text := by
  induction text generalizing room line with
  | nil => simp [scanChunks] at present
  | cons first rest ih =>
    rw [scanChunks] at present
    split_ifs at present with none inside newline
    · cases present
    · rw [List.mem_singleton] at present
      simp [present] at member
    · rcases List.mem_cons.mp present with rfl | present
      · rw [newline]
        exact List.mem_cons.mpr (.inl (List.mem_singleton.mp member))
      · exact List.mem_cons_of_mem _ (ih present member)
    · cases later : scanChunks (room - first.utf8Size) rest with
      | nil =>
        rw [later, List.mem_singleton] at present
        subst present
        exact List.mem_cons.mpr (.inl (List.mem_singleton.mp member))
      | cons line' others =>
        rw [later] at present
        rcases List.mem_cons.mp present with rfl | present
        · rcases List.mem_cons.mp member with rfl | member
          · exact List.mem_cons_self
          · exact List.mem_cons_of_mem _ (ih (later ▸ List.mem_cons_self) member)
        · exact List.mem_cons_of_mem _ (ih (later ▸ List.mem_cons_of_mem _ present) member)

theorem renderLines_encodes {more : Bool} {reached : List (List UInt8)}
    {lines : List (List Char)} (number : Nat) (encodes : List.Forall₂ (Encodes more) reached lines)
    (clean : ∀ line ∈ lines, '\x00' ∉ line) :
    renderLines request more number reached = (renderText request number lines).map .ok := by
  induction encodes generalizing number with
  | nil => rfl
  | cons first others ih =>
    rw [renderLines, renderText, List.map_cons,
      renderLine_encodes number first (clean _ List.mem_cons_self),
      ih _ fun line member => clean line (List.mem_cons_of_mem _ member)]

/-- The lines of the window among those the scan reaches, for a file of a text. -/
def scannedLines (request : WindowRequest) (text : List Char) : List (List Char) :=
  (renderText request 1 (scanChunks request.maxScanBytes text)).drop (request.firstLine - 1)

theorem windowLines_encode (request : WindowRequest) (clean : '\x00' ∉ text) :
    windowLines request (Utf8.encode text) = (scannedLines request text).map .ok := by
  rw [windowLines, renderLines_encodes 1 (encodes_chunks _ _)
    fun line present member => clean (mem_scanChunks present member), ← List.map_drop]
  rfl

end Scan

section Lead

/-- A scan reaches whole lines and a lead of one more. -/
theorem scanChunks_lead (room : Nat) (text : List Char) :
    scanChunks room text <+: textChunks text ∨ ∃ whole reached chunk,
      scanChunks room text = whole ++ [reached] ∧ whole ++ [chunk] <+: textChunks text ∧
        reached <+: chunk ∧ '\n' ∉ reached := by
  induction text generalizing room with
  | nil => exact .inl List.nil_prefix
  | cons character rest ih =>
    rw [scanChunks, textChunks]
    by_cases none : room = 0
    · rw [if_pos none]
      exact .inl List.nil_prefix
    by_cases inside : room < character.utf8Size
    · rw [if_neg none, if_pos inside]
      refine .inr ⟨[], [], ?_⟩
      split
      · exact ⟨['\n'], rfl, by simp, List.nil_prefix, List.not_mem_nil⟩
      · cases textChunks rest with
        | nil => exact ⟨[character], rfl, List.prefix_rfl, List.nil_prefix, List.not_mem_nil⟩
        | cons first others =>
          exact ⟨character :: first, rfl, by simp, List.nil_prefix, List.not_mem_nil⟩
    rw [if_neg none, if_neg inside]
    by_cases newline : character = '\n'
    · rw [if_pos newline, if_pos newline]
      rcases ih (room - 1) with lead | ⟨whole, reached, chunk, same, lead, ends⟩
      · exact .inl (List.cons_prefix_cons.mpr ⟨rfl, lead⟩)
      · refine .inr ⟨['\n'] :: whole, reached, chunk, by rw [same]; rfl, ?_, ends⟩
        exact List.cons_prefix_cons.mpr ⟨rfl, lead⟩
    · -- The character opens the first line of both.
      rw [if_neg newline, if_neg newline]
      have later := ih (room - character.utf8Size)
      generalize scanChunks _ rest = scanned, textChunks rest = source at later ⊢
      have opened : '\n' ∉ [character] := fun member => newline (List.mem_singleton.mp member).symm
      rcases later with lead | ⟨whole, reached, chunk, rfl, lead, within, unbroken⟩
      · cases scanned with
        | nil =>
          cases source with
          | nil => exact .inl List.prefix_rfl
          | cons first others =>
            exact .inr ⟨[], [character], character :: first, rfl, by simp, by simp, opened⟩
        | cons first others =>
          obtain ⟨tail, rfl⟩ := lead
          exact .inl ⟨tail, rfl⟩
      · obtain ⟨tail, rfl⟩ := lead
        cases whole with
        | nil =>
          refine .inr ⟨[], character :: reached, character :: chunk, rfl, ⟨tail, rfl⟩,
            List.cons_prefix_cons.mpr ⟨rfl, within⟩, ?_⟩
          exact List.not_mem_cons_of_ne_of_not_mem (Ne.symm newline) unbroken
        | cons first others =>
          exact .inr ⟨(character :: first) :: others, reached, chunk, rfl, ⟨tail, rfl⟩, within,
            unbroken⟩

theorem scanChunks_all {room : Nat} (reaches : bytes text ≤ room) :
    scanChunks room text = textChunks text := by
  induction text generalizing room with
  | nil => rfl
  | cons character rest ih =>
    have positive := character.utf8Size_pos
    have size : bytes (character :: rest) = character.utf8Size + bytes rest := bytes_cons ..
    rw [scanChunks, textChunks, if_neg (by omega), if_neg (by omega)]
    by_cases newline : character = '\n'
    · have one : character.utf8Size = 1 := newline ▸ rfl
      rw [if_pos newline, if_pos newline, ih (by omega)]
    · rw [if_neg newline, if_neg newline, ih (by omega)]

/-- A line break stands only at the end of a line. -/
theorem newline_not_mem_dropLast {chunk : List Char} (present : chunk ∈ textChunks text) :
    '\n' ∉ chunk.dropLast := by
  induction text generalizing chunk with
  | nil => cases present
  | cons character rest ih =>
    rw [textChunks] at present
    split_ifs at present with newline
    · rcases List.mem_cons.mp present with rfl | present
      · exact List.not_mem_nil
      · exact ih present
    · cases later : textChunks rest with
      | nil =>
        rw [later, List.mem_singleton] at present
        subst present
        exact List.not_mem_nil
      | cons first others =>
        rw [later] at ih present
        rcases List.mem_cons.mp present with rfl | present
        · have before := ih List.mem_cons_self
          cases first with
          | nil => exact List.not_mem_nil
          | cons next first =>
            rw [List.dropLast_cons_cons]
            exact List.not_mem_cons_of_ne_of_not_mem (Ne.symm newline) before
        · exact ih (List.mem_cons_of_mem _ present)

theorem newline_not_mem_stripBreak {chunk : List Char} (before : '\n' ∉ chunk.dropLast) :
    '\n' ∉ stripBreak chunk := by
  intro member
  rw [stripBreak] at member
  split_ifs at member with ends returns
  · exact before (List.mem_of_mem_dropLast member)
  · exact before member
  · rcases List.eq_nil_or_concat' chunk with rfl | ⟨lead, last, rfl⟩
    · cases member
    rw [List.dropLast_concat] at before
    rw [List.getLast?_concat] at ends
    rcases List.mem_append.mp member with member | member
    · exact before member
    · exact ends (congrArg _ (List.mem_singleton.mp member).symm)

/-- A line that the scan cuts is a lead of the line without its line break, unless only the
line feed is missing. -/
theorem prefix_stripBreak {reached chunk : List Char} (lead : reached <+: chunk)
    (unbroken : '\n' ∉ reached) :
    reached <+: stripBreak chunk ∨ reached = stripBreak chunk ++ ['\r'] := by
  rw [stripBreak]
  split_ifs with ends returns
  · obtain ⟨body, rfl⟩ := List.getLast?_eq_some_iff.mp ends
    rw [List.dropLast_concat] at returns ⊢
    obtain ⟨line, rfl⟩ := List.getLast?_eq_some_iff.mp returns
    rw [List.dropLast_concat]
    rcases List.prefix_concat_iff.mp lead with rfl | lead
    · simp at unbroken
    · exact (List.prefix_concat_iff.mp lead).symm
  · obtain ⟨body, rfl⟩ := List.getLast?_eq_some_iff.mp ends
    rw [List.dropLast_concat]
    rcases List.prefix_concat_iff.mp lead with rfl | lead
    · simp at unbroken
    · exact .inl lead
  · exact .inl lead

theorem renderText_append (number : Nat) (first second : List (List Char)) :
    renderText request number (first ++ second) =
      renderText request number first ++ renderText request (number + first.length) second := by
  induction first generalizing number with
  | nil => rfl
  | cons line first ih =>
    rw [List.cons_append, renderText, renderText, ih, List.length_cons, Nat.add_right_comm]
    rfl

theorem length_renderText (request : WindowRequest) (number : Nat)
    (lines : List (List Char)) :
    (renderText request number lines).length = lines.length := by
  induction lines generalizing number with
  | nil => rfl
  | cons line lines ih => rw [renderText, List.length_cons, List.length_cons, ih]

theorem render_append (number : Nat) (line more : List Char) :
    request.render number (line ++ more) = request.render number line ++ more := by
  rw [WindowRequest.render, WindowRequest.render]
  split
  · exact (List.append_assoc ..).symm
  · rfl

/-- The window shows whole source lines and perhaps a lead of one more; where the scan ended
before a line feed, a carriage return may stand at its end. -/
theorem scannedLines_lead (request : WindowRequest) (text : List Char) :
    scannedLines request text <+: sourceLines request text ∨ ∃ whole reached line,
      scannedLines request text = whole ++ [reached] ∧
        whole ++ [line] <+: sourceLines request text ∧
        (reached <+: line ∨ reached = line ++ ['\r']) := by
  rw [scannedLines, sourceLines]
  rcases scanChunks_lead request.maxScanBytes text with ⟨rest, whole⟩ |
    ⟨whole, reached, chunk, same, ⟨rest, source⟩, lead, unbroken⟩
  · rw [← whole, renderText_append]
    exact .inl ((List.prefix_append ..).drop _)
  · have kept : stripBreak reached = reached :=
      if_neg fun ends => unbroken (List.mem_of_getLast? ends)
    rw [same, ← source, renderText_append, renderText_append, renderText_append, renderText,
      renderText, renderText, renderText, kept]
    have lengths := length_renderText request 1 whole
    by_cases later : request.firstLine - 1 ≤ whole.length
    · rw [List.append_assoc, List.drop_append_of_le_length (by omega),
        List.drop_append_of_le_length (by omega), ← List.append_assoc]
      refine .inr ⟨_, _, _, rfl, List.prefix_append .., ?_⟩
      rcases prefix_stripBreak lead unbroken with ⟨tail, whole⟩ | carriage
      · rw [← whole, render_append]
        exact .inl (List.prefix_append ..)
      · rw [← render_append, ← carriage]
        exact .inr rfl
    · rw [List.drop_eq_nil_of_le (by simp; omega)]
      exact .inl List.nil_prefix

theorem scannedLines_all (reaches : bytes text ≤ request.maxScanBytes) :
    scannedLines request text = sourceLines request text := by
  rw [scannedLines, sourceLines, scanChunks_all reaches]

end Lead

end Atelia.Tools
