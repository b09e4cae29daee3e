import Atelia.Tools.WindowText

/-! The lines of a window against the lines of the file. -/

namespace Atelia.Tools

open Excerpt Text

variable {request : WindowRequest} {text : List Char} {lines : List (List Char)}
  {filled : Filled}

section Pasting

theorem intercalate_append_cons (separator first second : List Char) (lines : List (List Char)) :
    separator.intercalate ((first ++ second) :: lines) =
      first ++ separator.intercalate (second :: lines) := by
  cases lines with
  | nil => simp
  | cons line lines => simp [List.intercalate_cons_cons]

theorem foldl_paste {content : List Char} (some : content ≠ []) (lines : List (List Char)) :
    lines.foldl paste content = ['\n'].intercalate (content :: lines) := by
  induction lines generalizing content with
  | nil => simp
  | cons line lines ih =>
    rw [List.foldl_cons, paste, if_neg some, ih (by simp), intercalate_append_cons,
      List.intercalate_cons_cons, List.append_assoc]
    exact congrArg (content ++ ·) (intercalate_append_cons _ ['\n'] line lines)

/-- Content is the lines with separators between them, unless the first of several lines is
empty. -/
theorem splitOn_pasted (some : lines ≠ []) (unbroken : ∀ line ∈ lines, '\n' ∉ line)
    (blank : ∀ line rest, lines ≠ [] :: line :: rest) :
    (pasted lines).splitOn '\n' = lines := by
  have separated : pasted lines = ['\n'].intercalate lines := by
    cases lines with
    | nil => exact absurd rfl some
    | cons first lines =>
      cases first with
      | nil =>
        cases lines with
        | nil => rfl
        | cons line rest => exact absurd rfl (blank line rest)
      | cons character first => exact foldl_paste (List.cons_ne_nil character first) lines
  rw [separated]
  exact List.splitOn_intercalate '\n' unbroken some

theorem head?_opening (lines : List (List Char)) (line : List Char) :
    (opening lines ++ line).head? =
      if pasted lines = [] then line.head? else (pasted lines).head? := by
  rw [opening]
  split
  · rfl
  · rename_i some
    rw [List.append_assoc, List.head?_append_of_ne_nil _ some]

/-- No content begins with a line break. -/
theorem head?_pasted (unbroken : ∀ line ∈ lines, '\n' ∉ line) :
    (pasted lines).head? ≠ some '\n' := by
  induction lines using List.reverseRecOn with
  | nil => simp
  | append_singleton lines line ih =>
    rw [pasted_concat, head?_opening]
    split
    · exact fun begins => unbroken line (by simp) (List.mem_of_mem_head? begins)
    · exact ih fun line member => unbroken line (List.mem_append_left _ member)

end Pasting

section Shown

/-- The lines that a window shows, the last perhaps cut. -/
def Filled.shown (request : WindowRequest) : Filled → List (List Char)
  | ⟨whole, .complete⟩ | ⟨whole, .full⟩ => whole
  | ⟨whole, .cutByChars line⟩ => whole ++ [line.take (request.maxChars - (opening whole).length)]
  | ⟨whole, .cutByBytes line⟩ =>
    if takeBytes (request.maxBytes.getD 0) (opening whole ++ line) = opening whole then whole
    else whole ++ [takeBytes (request.maxBytes.getD 0 - bytes (opening whole)) line]

theorem length_shown (request : WindowRequest) (filled : Filled) :
    (filled.shown request).length = filled.lineCount request := by
  obtain ⟨whole, ending⟩ := filled
  cases ending with
  | complete | full => rfl
  | cutByChars line => exact List.length_append
  | cutByBytes line =>
    rw [Filled.shown, Filled.lineCount]
    split
    · rfl
    · exact List.length_append

variable {whole : List (List Char)} {rest : List (Except ReadError (List Char))}

theorem takeBytes_opening {line : List Char} (admits : Admits request whole)
    (exceeding : exceeds request.maxBytes (bytes (opening whole ++ line)) = true) :
    bytes (opening whole) ≤ request.maxBytes.getD 0 ∧
      request.maxBytes.getD 0 < bytes (opening whole ++ line) := by
  have opened := admits.2
  cases limited : request.maxBytes with
  | none =>
    rw [limited] at exceeding
    cases exceeding
  | some limit =>
    rw [limited] at exceeding opened
    exact ⟨exceeds_some.mp opened, by simpa [exceeds] using exceeding⟩

/-- Content is the lines shown, unless the separator before a line of which nothing fits
stands at its end. -/
theorem content_shown (ended : Ended request filled.whole rest filled.ending) :
    filled.content request = pasted (filled.shown request) ∨
      (filled.shown request = filled.whole ∧ filled.content request = opening filled.whole ∧
        ∃ line later, rest = .ok line :: later ∧ Checked request filled.whole ∧
          Admits request filled.whole ∧ ¬ Kept request filled.whole line) := by
  obtain ⟨whole, ending⟩ := filled
  cases ending with
  | complete | full => exact .inl rfl
  | cutByChars line =>
    obtain ⟨_, _, admits, _⟩ := ended
    rw [Filled.shown, pasted_concat, Filled.content, List.take_append,
      List.take_of_length_le admits.1.le]
    exact .inl rfl
  | cutByBytes line =>
    obtain ⟨⟨later, rfl⟩, checked, admits, short, exceeding⟩ := ended
    obtain ⟨opened, _⟩ := takeBytes_opening admits exceeding
    rw [Filled.shown, Filled.content]
    split
    · rename_i nothing
      refine .inr ⟨rfl, nothing, line, later, rfl, checked, admits, ?_⟩
      rintro (long | within | kept)
      · exact short long
      · exact absurd (exceeding.symm.trans within) (by decide)
      · exact kept nothing
    · rw [pasted_concat, takeBytes_append opened]
      exact .inl rfl

/-- The last line shown, perhaps cut, after the lines before it. -/
structure LastShown (request : WindowRequest) (lines whole : List (List Char))
    (cut line : List Char) : Prop where
  lead : whole ++ [line] <+: lines
  part : cut <+: line
  checked : Checked request whole
  admits : Admits request whole
  kept : Kept request whole line
  fits : cut = line → Passed request whole line

theorem lastShown_of_held {last : List Char} (held : Held request (whole ++ [last]))
    (lead : whole ++ [last] <+: lines) : LastShown request lines whole last last :=
  have passed := held.passed whole last [] rfl
  ⟨lead, List.prefix_rfl, passed.1, passed.2.1, .inr (.inl passed.2.2.2), fun _ => passed⟩

/-- The lines shown are lines of the window, the last perhaps cut. -/
theorem shown_lead (held : Held request filled.whole)
    (ended : Ended request filled.whole rest filled.ending)
    (same : lines.map .ok = filled.whole.map .ok ++ rest) :
    filled.shown request = [] ∨ ∃ whole cut line, filled.shown request = whole ++ [cut] ∧
      LastShown request lines whole cut line := by
  obtain ⟨whole, ending⟩ := filled
  obtain ⟨done, later, rfl, sameDone, sameRest⟩ := List.map_eq_append_iff.mp same
  obtain rfl : done = whole := List.map_injective_iff.mpr (fun _ _ => Except.ok.inj) sameDone
  change Held request done at held
  change Ended request done rest ending at ended
  have uncut : done = [] ∨ ∃ whole cut line, done = whole ++ [cut] ∧
      LastShown request (done ++ later) whole cut line := by
    rcases List.eq_nil_or_concat' done with empty | ⟨whole, last, rfl⟩
    · exact .inl empty
    · exact .inr ⟨whole, last, last, rfl, lastShown_of_held held (List.prefix_append ..)⟩
  have next {line : List Char} (follows : ∃ rest', rest = .ok line :: rest') :
      done ++ [line] <+: done ++ later := by
    obtain ⟨rest', rfl⟩ := follows
    obtain ⟨first, others, rfl, first', _⟩ := List.map_eq_cons_iff.mp sameRest
    cases first'
    exact (List.prefix_append_right_inj _).mpr (by simp)
  cases ending with
  | complete | full => exact uncut
  | cutByChars line =>
    obtain ⟨follows, checked, admits, long⟩ := ended
    refine .inr ⟨done, _, line, rfl, next follows, List.take_prefix .., checked, admits, .inl long,
      fun uncut => ?_⟩
    have room := List.take_eq_self_iff _ |>.mp uncut
    have opened := admits.1
    rw [List.length_append] at long
    omega
  | cutByBytes line =>
    obtain ⟨follows, checked, admits, _, exceeding⟩ := ended
    rw [Filled.shown]
    split
    · exact uncut
    · rename_i kept
      refine .inr ⟨done, _, line, rfl, next follows, takeBytes_isPrefix .., checked, admits,
        .inr (.inr kept), fun uncut => ?_⟩
      have ⟨opened, beyond⟩ := takeBytes_opening admits exceeding
      have room := bytes_takeBytes_le (request.maxBytes.getD 0 - bytes (opening done)) line
      rw [uncut] at room
      rw [bytes_append] at beyond
      omega

end Shown

section Faithful

theorem newline_not_mem_lineMark (line : Nat) : '\n' ∉ lineMark line := by
  intro member
  have digit : '\n' ∈ Nat.toDigits 10 line := by
    simpa [lineMark, toString, Nat.repr] using member
  exact absurd (Nat.isDigit_of_mem_toDigits (by decide) (by decide) digit) (by decide)

theorem renderText_unbroken (number : Nat) (unbroken : ∀ line ∈ lines, '\n' ∉ line.dropLast) :
    ∀ line ∈ renderText request number lines, '\n' ∉ line := by
  induction lines generalizing number with
  | nil => simp [renderText]
  | cons first lines ih =>
    intro line member
    rw [renderText] at member
    rcases List.mem_cons.mp member with rfl | member
    · have stripped := newline_not_mem_stripBreak (unbroken first List.mem_cons_self)
      rw [WindowRequest.render]
      split
      · rw [List.mem_append, not_or]
        exact ⟨newline_not_mem_lineMark number, stripped⟩
      · exact stripped
    · exact ih _ (fun line member => unbroken line (List.mem_cons_of_mem _ member)) line member

theorem sourceLines_unbroken {line : List Char} (member : line ∈ sourceLines request text) :
    '\n' ∉ line :=
  renderText_unbroken 1 (fun _ present => newline_not_mem_dropLast present) line
    (List.mem_of_mem_drop member)

theorem scannedLines_unbroken {line : List Char} (member : line ∈ scannedLines request text) :
    '\n' ∉ line := by
  rcases scannedLines_lead request text with lead | ⟨whole, reached, source, same, lead, reaches⟩
  · exact sourceLines_unbroken (lead.subset member)
  · have last : '\n' ∉ source := sourceLines_unbroken (lead.subset (by simp))
    rw [same, List.mem_append, List.mem_singleton] at member
    rcases member with member | rfl
    · exact sourceLines_unbroken (lead.subset (List.mem_append_left _ member))
    · rcases reaches with reaches | rfl
      · exact fun present => last (reaches.subset present)
      · simpa using last

/-- The window shows source lines from the first one on, without their line breaks, and only
the last may be cut. -/
structure Faithful (request : WindowRequest) (text : List Char) (window : ReadWindow) : Prop where
  lines : ∃ whole cut line rest, window.content.toList.splitOn '\n' = whole ++ [cut] ∧
    window.lineCount = whole.length + 1 ∧
    sourceLines request text = whole ++ line :: rest ∧ cut <+: line
  endLine : window.endLine + 1 = request.startLine + window.lineCount
  retained : window.retainedSourceBytes ≤ (Utf8.encode text).length
  untruncated : window.truncatedByLines = false → window.truncatedByChars = false →
    window.truncatedByBytes = false → window.truncatedByScan = false →
      window.content.toList.splitOn '\n' = sourceLines request text

/-- An empty first line, after which something of another one is kept. -/
def BlankLead (request : WindowRequest) (text : List Char) : Prop :=
  ∃ line rest, scannedLines request text = [] :: line :: rest ∧ Checked request [[]] ∧
    Admits request [[]] ∧ Kept request [[]] line

/-- A line of which nothing fits after a separator. -/
def EmptyCut (request : WindowRequest) (text : List Char) : Prop :=
  ∃ whole line rest, scannedLines request text = whole ++ line :: rest ∧ Checked request whole ∧
    Admits request whole ∧ opening whole ≠ [] ∧ ¬ Kept request whole line

/-- The scan ends between a carriage return and its line feed, and that line fits whole. -/
def StrayCarriage (request : WindowRequest) (text : List Char) : Prop :=
  ∃ whole line rest, scannedLines request text = whole ++ [line ++ ['\r']] ∧
    sourceLines request text = whole ++ line :: rest ∧ Passed request whole (line ++ ['\r'])

variable {whole : List (List Char)} {line : List Char} {rest : List (List Char)}

theorem fill_text (request : WindowRequest) (done lines : List (List Char)) :
    ∃ filled, fill request done (lines.map .ok) = .ok filled := by
  induction lines generalizing done with
  | nil => exact ⟨_, rfl⟩
  | cons line lines ih =>
    rw [List.map_cons, fill]
    split_ifs
    · exact ⟨_, rfl⟩
    · exact ⟨_, rfl⟩
    · exact ih _
    · exact ⟨_, rfl⟩
    · exact ⟨_, rfl⟩

theorem length_le_lineCount {done lines : List (List Char)}
    (filling : fill request done (lines.map .ok) = .ok filled) :
    done.length ≤ filled.lineCount request := by
  induction lines generalizing done with
  | nil =>
    cases filling
    exact Nat.le_refl _
  | cons line lines ih =>
    rw [List.map_cons, fill] at filling
    split_ifs at filling
    · cases filling
      exact Nat.le_succ _
    · cases filling
      rw [Filled.lineCount]
      split
      · exact Nat.le_refl _
      · exact Nat.le_succ _
    · have longer := ih filling
      rw [List.length_append] at longer
      omega
    · cases filling
      exact Nat.le_refl _
    · cases filling
      exact Nat.le_refl _

/-- What a filling of the scanned lines holds and shows. -/
structure Fills (request : WindowRequest) (text : List Char) (filled : Filled) : Prop where
  filling : fill request [] ((scannedLines request text).map .ok) = .ok filled
  shown : filled.shown request = [] ∨ ∃ whole cut line, filled.shown request = whole ++ [cut] ∧
    LastShown request (scannedLines request text) whole cut line
  content : filled.content request = pasted (filled.shown request) ∨
    (filled.shown request = filled.whole ∧ filled.content request = opening filled.whole ∧
      ∃ line later, scannedLines request text = filled.whole ++ line :: later ∧
        Checked request filled.whole ∧ Admits request filled.whole ∧
        ¬ Kept request filled.whole line)
  complete : filled.ending = .complete → filled.shown request = scannedLines request text

theorem fills (filling : fill request [] ((scannedLines request text).map .ok) = .ok filled) :
    Fills request text filled := by
  obtain ⟨more, rest, whole, same, held, ended⟩ := fill_cases (held_nil request) filling
  rw [List.nil_append] at whole
  rw [← whole] at same
  obtain ⟨done, later, split, sameDone, sameRest⟩ := List.map_eq_append_iff.mp same
  obtain rfl : done = filled.whole :=
    List.map_injective_iff.mpr (fun _ _ => Except.ok.inj) sameDone
  refine ⟨filling, shown_lead held ended same, ?_, ?_⟩
  · refine (content_shown ended).imp_right ?_
    rintro ⟨shown, content, line, rest', rfl, refused⟩
    obtain ⟨first, others, rfl, first', _⟩ := List.map_eq_cons_iff.mp sameRest
    cases first'
    exact ⟨shown, content, line, others, split, refused⟩
  · intro complete
    rw [complete] at ended
    rw [show rest = [] from ended, List.map_eq_nil_iff] at sameRest
    rw [split, sameRest, List.append_nil]
    obtain ⟨whole, ending⟩ := filled
    cases complete
    rfl

/-- A line of which something is kept after an empty first one makes a blank lead. -/
theorem blankLead_of_checked (member : scannedLines request text = [] :: line :: rest)
    (checked : Checked request ([[]] ++ line :: whole)) : BlankLead request text :=
  have passed := checked_before checked
  ⟨line, rest, member, passed.1, passed.2.1, .inr (.inl passed.2.2.2)⟩

namespace Fills

section Filled

variable (fills : Fills request text filled)
include fills

theorem shown_unbroken :
    ∀ line ∈ filled.shown request, '\n' ∉ line := by
  intro line member
  rcases fills.shown with empty | ⟨whole, cut, source, same, last⟩
  · rw [empty] at member
    cases member
  · rw [same, List.mem_append, List.mem_singleton] at member
    rcases member with member | rfl
    · exact scannedLines_unbroken (last.lead.subset (List.mem_append_left _ member))
    · have unbroken := scannedLines_unbroken (last.lead.subset (by simp : source ∈ _))
      exact fun present => unbroken (last.part.subset present)

theorem head?_content :
    (filled.content request).head? ≠ some '\n' := by
  have shown := head?_pasted fills.shown_unbroken
  rcases fills.content with same | ⟨whole, content, _⟩
  · rwa [same]
  · rw [content, ← List.append_nil (opening filled.whole), head?_opening, ← whole]
    split
    · simp
    · exact shown

theorem not_blank (unblank : ¬ BlankLead request text) :
    ∀ line rest, filled.shown request ≠ [] :: line :: rest := by
  intro next rest blank
  rcases fills.shown with empty | ⟨whole, cut, line, same, last⟩
  · rw [empty] at blank
    cases blank
  obtain ⟨later, lines⟩ := last.lead
  rw [blank] at same
  rcases whole with _ | ⟨first, _ | ⟨second, others⟩⟩
  · simp at same
  · cases same
    exact unblank ⟨line, later, lines.symm, last.checked, last.admits, last.kept⟩
  · cases same
    exact unblank (blankLead_of_checked lines.symm last.checked)

theorem content_eq (uncut : ¬ EmptyCut request text) :
    filled.content request = pasted (filled.shown request) := by
  rcases fills.content with same | ⟨whole, content, line, later, split, checked, admits, refused⟩
  · exact same
  · have closed : opening filled.whole = [] := by
      by_contra opened
      exact uncut ⟨filled.whole, line, later, split, checked, admits, opened, refused⟩
    have held := pasted_prefix_opening filled.whole
    rw [closed, List.prefix_nil] at held
    rw [content, whole, closed, held]

theorem splitOn_content (some : filled.shown request ≠ []) (unblank : ¬ BlankLead request text)
    (uncut : ¬ EmptyCut request text) :
    (filled.content request).splitOn '\n' = filled.shown request := by
  rw [fills.content_eq uncut]
  exact splitOn_pasted some fills.shown_unbroken (fills.not_blank unblank)

/-- Without a stray carriage return the last line shown is a lead of its source line. -/
theorem source_lead (some : filled.shown request ≠ []) (uncarried : ¬ StrayCarriage request text) :
    ∃ whole cut line rest, filled.shown request = whole ++ [cut] ∧
      sourceLines request text = whole ++ line :: rest ∧ cut <+: line := by
  obtain ⟨whole, cut, line, same, last⟩ := fills.shown.resolve_left some
  refine ⟨whole, cut, ?_⟩
  rcases scannedLines_lead request text with lead | ⟨done, reached, source, scanned, lead, reaches⟩
  · obtain ⟨rest, source⟩ := last.lead.trans lead
    exact ⟨line, rest, same, by rw [← source]; simp, last.part⟩
  have shown := last.lead
  rw [scanned] at shown
  obtain ⟨rest, sources⟩ := lead
  rcases List.prefix_concat_iff.mp shown with whole' | within
  · -- The last line shown is the one in which the scan ended.
    obtain ⟨rfl, reached'⟩ := List.append_inj' whole' rfl
    cases reached'
    refine ⟨source, rest, same, by rw [← sources]; simp, ?_⟩
    rcases reaches with reaches | rfl
    · exact last.part.trans reaches
    · refine (List.prefix_concat_iff.mp last.part).resolve_left fun uncut => uncarried ?_
      exact ⟨whole, source, rest, scanned, by rw [← sources]; simp, last.fits uncut⟩
  · obtain ⟨others, rfl⟩ := within
    exact ⟨line, others ++ source :: rest, same, by rw [← sources]; simp, last.part⟩

/-- A line of which something is kept is counted. -/
theorem lineCount_of_kept (split : scannedLines request text = whole ++ line :: rest)
    (checked : Checked request whole) (admits : Admits request whole)
    (kept : Kept request whole line) :
    whole.length + 1 ≤ filled.lineCount request := by
  have filling := fills.filling
  rw [split, List.map_append, List.map_cons, @fill_whole request [] whole checked, List.nil_append,
    fill, if_pos checked, if_pos admits] at filling
  split_ifs at filling with long exceeding
  · cases filling
    exact Nat.le_refl _
  · cases filling
    have some := (kept.resolve_left long).resolve_left (Bool.eq_false_iff.mp · exceeding)
    rw [Filled.lineCount, if_neg some]
  · have longer := length_le_lineCount filling
    rwa [List.length_append, List.length_singleton] at longer

end Filled

end Fills

variable {window : ReadWindow}

section Shown

variable (fills : Fills request text filled)
  (shows : Shows request (Utf8.encode text) filled window)
  (faithful : 0 < window.lineCount → Faithful request text window)
include fills shows faithful

/-- A faithful window does not lose the separator after an empty first line. -/
theorem not_blankLead :
    ¬ BlankLead request text := by
  rintro ⟨line, rest, scanned, checked, admits, kept⟩
  have two := fills.lineCount_of_kept (show _ = [[]] ++ line :: rest from scanned) checked admits
    kept
  rw [← shows.lineCount, List.length_singleton] at two
  obtain ⟨whole, cut, source, later, split, count, sources, _⟩ := (faithful (by omega)).lines
  have first : ∃ others, sourceLines request text = [] :: others := by
    rcases scannedLines_lead request text with ⟨tail, lead⟩ |
      ⟨done, reached, line', same, ⟨tail, lead⟩, _⟩
    · exact ⟨_, by rw [← lead, scanned]; rfl⟩
    · rw [scanned] at same
      cases done with
      | nil => simp at same
      | cons blank done =>
        obtain ⟨rfl, _⟩ := List.cons.inj same
        exact ⟨_, lead.symm⟩
  obtain ⟨others, first⟩ := first
  rcases whole with _ | ⟨blank, whole⟩
  · rw [count] at two
    exact absurd two (by decide)
  rw [first] at sources
  cases sources
  -- The second line of the content begins after a line break at its start.
  have begins : ['\n'].intercalate (window.content.toList.splitOn '\n') = window.content.toList :=
    List.intercalate_splitOn '\n'
  rw [split, List.cons_append, List.intercalate_cons_of_ne_nil (by simp), shows.content] at begins
  apply fills.head?_content
  rw [← begins]
  rfl

theorem not_emptyCut :
    ¬ EmptyCut request text := by
  have unblank := not_blankLead fills shows faithful
  rintro ⟨whole, line, rest, scanned, checked, admits, opened, refused⟩
  simp only [Kept, not_or, Bool.not_eq_false, not_not] at refused
  obtain ⟨short, exceeding, nothing⟩ := refused
  have filling := fills.filling
  rw [scanned, List.map_append, List.map_cons, @fill_whole request [] whole checked,
    List.nil_append, fill, if_pos checked, if_pos admits, if_neg short, if_pos exceeding] at filling
  cases filling
  have count := shows.lineCount
  rw [Filled.lineCount, if_pos nothing] at count
  have content := shows.content
  rw [Filled.content, nothing, ← List.append_nil (opening whole), ← pasted_concat] at content
  have unbroken : ∀ line ∈ whole ++ [[]], '\n' ∉ line := by
    intro line member
    rw [List.mem_append, List.mem_singleton] at member
    rcases member with member | rfl
    · exact scannedLines_unbroken (scanned ▸ List.mem_append_left _ member)
    · exact List.not_mem_nil
  have unblanked : ∀ line rest, whole ++ [[]] ≠ [] :: line :: rest := by
    rintro next rest' blank
    rcases whole with _ | ⟨first, _ | ⟨second, others⟩⟩
    · simp at blank
    · cases blank
      exact opened rfl
    · cases blank
      exact unblank (blankLead_of_checked scanned checked)
  have split := splitOn_pasted (by simp) unbroken unblanked
  have some : 0 < window.lineCount := by
    rw [count, List.length_pos_iff]
    rintro rfl
    exact opened rfl
  obtain ⟨whole', cut, source, later, split', count', _⟩ := (faithful some).lines
  rw [content, split] at split'
  have lengths := congrArg List.length split'
  simp only [List.length_append, List.length_singleton] at lengths
  omega

theorem not_strayCarriage :
    ¬ StrayCarriage request text := by
  have unblank := not_blankLead fills shows faithful
  have uncut := not_emptyCut fills shows faithful
  rintro ⟨whole, line, rest, scanned, sources, checked, admits, short, within⟩
  have filling := fills.filling
  rw [scanned, List.map_append, List.map_singleton, @fill_whole request [] whole checked,
    List.nil_append, fill, if_pos checked, if_pos admits, if_neg short,
    if_neg (Bool.eq_false_iff.mp within), fill] at filling
  cases filling
  have split := fills.splitOn_content (by simp [Filled.shown]) unblank uncut
  have some : 0 < window.lineCount := by
    rw [shows.lineCount, Filled.lineCount]
    simp
  obtain ⟨whole', cut, source, later, split', _, sources', lead⟩ := (faithful some).lines
  rw [← shows.content, split', Filled.shown] at split
  obtain ⟨rfl, cut'⟩ := List.append_inj' split rfl
  cases cut'
  rw [sources] at sources'
  cases List.append_cancel_left sources'
  have longer := lead.length_le
  simp at longer

end Shown

/-- A window of a text file. -/
theorem faithful_of_fills (fills : Fills request text filled)
    (shows : Shows request (Utf8.encode text) filled window) (start : 1 ≤ request.startLine)
    (unblank : ¬ BlankLead request text) (uncut : ¬ EmptyCut request text)
    (uncarried : ¬ StrayCarriage request text) (counts : 0 < window.lineCount) :
    Faithful request text window := by
  have count := length_shown request filled
  have some : filled.shown request ≠ [] := by
    rw [← List.length_pos_iff, count, ← shows.lineCount]
    exact counts
  have split := fills.splitOn_content some unblank uncut
  rw [← shows.content] at split
  refine ⟨?_, ?_, shows.retained, ?_⟩
  · obtain ⟨whole, cut, line, rest, same, sources, lead⟩ := fills.source_lead some uncarried
    refine ⟨whole, cut, line, rest, split.trans same, ?_, sources, lead⟩
    rw [shows.lineCount, ← count, same, List.length_append, List.length_singleton]
  · have ends := shows.endLine counts
    rwa [WindowRequest.firstLine, Nat.max_eq_left start] at ends
  · intro lines chars bytes scan
    obtain ⟨complete, reaches⟩ := shows.untruncated lines chars bytes scan
    rw [Utf8.length_encode] at reaches
    rw [split, fills.complete complete, scannedLines_all reaches]

end Faithful

/-- A window on a text file without NUL is returned. It is faithful exactly when nothing is
kept after an empty first line, something of the next line fits after every separator, and
the scan does not leave a carriage return of a line break at the end of a line that fits. -/
theorem window_faithful_iff (request : WindowRequest) (text : List Char) (clean : '\x00' ∉ text)
    (start : 1 ≤ request.startLine) :
    ∃ window, readTextWindow request (Utf8.encode text) = .ok window ∧
      ((0 < window.lineCount → Faithful request text window) ↔
        ¬ BlankLead request text ∧ ¬ EmptyCut request text ∧ ¬ StrayCarriage request text) := by
  have lines := windowLines_encode request clean
  obtain ⟨filled, filling⟩ := fill_text request [] (scannedLines request text)
  have fills := fills filling
  rcases readTextWindow_fill request (Utf8.encode text) with ⟨error, _, failed⟩ |
    ⟨window, filled', returned, filling', shows⟩
  · rw [lines, filling] at failed
    cases failed
  rw [lines, filling] at filling'
  cases filling'
  refine ⟨window, returned, fun faithful => ?_, ?_⟩
  · exact ⟨not_blankLead fills shows faithful, not_emptyCut fills shows faithful,
      not_strayCarriage fills shows faithful⟩
  · rintro ⟨unblank, uncut, uncarried⟩ counts
    exact faithful_of_fills fills shows start unblank uncut uncarried counts

/-- Two numbered lines of three. -/
theorem two_lines_faithful :
    ∃ window, readTextWindow { maxLines := 2, maxChars := 80, includeLineNumbers := true }
        (Utf8.encode "ab\r\ncd\nef\n".toList) = .ok window ∧
      window.content = "1: ab\n2: cd" ∧
      Faithful { maxLines := 2, maxChars := 80, includeLineNumbers := true }
        "ab\r\ncd\nef\n".toList window := by
  obtain ⟨window, returned, faithful⟩ := window_faithful_iff
    { maxLines := 2, maxChars := 80, includeLineNumbers := true } "ab\r\ncd\nef\n".toList
    (by decide) (by decide)
  have computed : readTextWindow { maxLines := 2, maxChars := 80, includeLineNumbers := true }
      (Utf8.encode "ab\r\ncd\nef\n".toList) =
        .ok ⟨"1: ab\n2: cd", 2, 2, 6, true, false, false, false⟩ := by decide +kernel
  have scanned : scannedLines { maxLines := 2, maxChars := 80, includeLineNumbers := true }
      "ab\r\ncd\nef\n".toList = ["1: ab".toList, "2: cd".toList, "3: ef".toList] := by
    decide +kernel
  cases returned.symm.trans computed
  refine ⟨_, returned, rfl, faithful.mpr ⟨?_, ?_, ?_⟩ (by decide)⟩
  · rintro ⟨line, rest, same, _⟩
    rw [scanned] at same
    exact absurd (List.cons.inj same).1 (by decide)
  · rintro ⟨whole, line, rest, _, _, _, _, refused⟩
    exact refused (.inr (.inl rfl))
  · rintro ⟨whole, line, rest, same, _⟩
    rw [scanned] at same
    have last := congrArg List.getLast? same
    rw [List.getLast?_concat] at last
    have ends := congrArg List.getLast? (Option.some.inj last)
    rw [List.getLast?_concat] at ends
    exact absurd ends (by decide)

/-- An empty first line loses its separator; a separator is left at the end where the byte
limit allows nothing after it; and a scan that ends before a line feed shows the carriage
return. -/
theorem windows_unfaithful :
    (∃ window, readTextWindow { maxLines := 9, maxChars := 80 }
        (Utf8.encode "\nabcd".toList) = .ok window ∧ window.content = "abcd" ∧
        window.lineCount = 2 ∧
        ¬ Faithful { maxLines := 9, maxChars := 80 } "\nabcd".toList window) ∧
      (∃ window, readTextWindow { maxLines := 9, maxChars := 80, maxBytes := some 3 }
        (Utf8.encode "ab\ncd".toList) = .ok window ∧ window.content = "ab\n" ∧
        window.lineCount = 1 ∧
        ¬ Faithful { maxLines := 9, maxChars := 80, maxBytes := some 3 } "ab\ncd".toList window) ∧
      ∃ window, readTextWindow { maxLines := 9, maxChars := 80, maxScanBytes := 4 }
        (Utf8.encode "abc\r\nx".toList) = .ok window ∧ window.content = "abc\r" ∧
        window.lineCount = 1 ∧
        ¬ Faithful { maxLines := 9, maxChars := 80, maxScanBytes := 4 } "abc\r\nx".toList
          window := by
  refine ⟨⟨⟨"abcd", 2, 2, 4, false, false, false, false⟩, by decide +kernel, rfl, rfl, ?_⟩,
    ⟨⟨"ab\n", 1, 1, 3, false, false, true, false⟩, by decide +kernel, rfl, rfl, ?_⟩,
    ⟨⟨"abc\r", 1, 1, 4, false, false, false, true⟩, by decide +kernel, rfl, rfl, ?_⟩⟩
  · intro faithful
    obtain ⟨whole, cut, line, rest, split, count, _⟩ := faithful.lines
    have lengths := congrArg List.length split
    rw [List.length_append, List.length_singleton, ← count] at lengths
    exact absurd lengths (by decide)
  · intro faithful
    obtain ⟨whole, cut, line, rest, split, count, _⟩ := faithful.lines
    have lengths := congrArg List.length split
    rw [List.length_append, List.length_singleton, ← count] at lengths
    exact absurd lengths (by decide)
  · intro faithful
    obtain ⟨whole, cut, line, rest, split, count, sources, lead⟩ := faithful.lines
    obtain rfl := List.length_eq_zero_iff.mp (Nat.succ.inj count).symm
    have computed : sourceLines { maxLines := 9, maxChars := 80, maxScanBytes := 4 }
        "abc\r\nx".toList = ["abc".toList, "x".toList] := by decide +kernel
    rw [computed] at sources
    cases sources
    have whole : "abc\r".toList = cut := List.singleton_inj.mp split
    rw [← whole] at lead
    exact absurd lead.length_le (by decide)

end Atelia.Tools
