import Atelia.Foundation.Utf8

/-! `read_text_window`: the loop that reads a window of lines from a file. -/

namespace Atelia.Tools

open Excerpt Text

/-- The arguments of `read_text_window` other than the file. -/
structure WindowRequest where
  startLine : Nat := 1
  maxLines : Nat
  maxChars : Nat
  maxBytes : Option Nat := none
  maxScanBytes : Nat := 1024 * 1024
  includeLineNumbers : Bool := false
  deriving DecidableEq

structure ReadWindow where
  content : String
  endLine : Nat
  lineCount : Nat
  retainedSourceBytes : Nat
  truncatedByLines : Bool
  truncatedByChars : Bool
  truncatedByBytes : Bool
  truncatedByScan : Bool
  deriving DecidableEq

inductive ReadError where
  | containsNul
  | invalidUtf8
  deriving DecidableEq

/-- The mutable locals of the loop, with the bytes the reader has not handed out. -/
structure Reading where
  remaining : List UInt8
  content : List Char := []
  endLine : Nat := 0
  lineCount : Nat := 0
  usedChars : Nat := 0
  usedBytes : Nat := 0
  retainedSourceBytes : Nat := 0
  scannedBytes : Nat := 0
  previousRetainedNewlineBytes : Nat := 0
  truncatedByLines : Bool := false
  truncatedByChars : Bool := false
  truncatedByBytes : Bool := false
  truncatedByScan : Bool := false
  currentLine : Nat := 0

inductive Turn where
  | stop (reading : Reading)
  | next (reading : Reading)

section Helpers

def lineMark (line : Nat) : List Char :=
  s!"{line}: ".toList

def retainedSourceBytesForRenderedChars (line : List Char) (currentLine : Nat)
    (includeLineNumbers : Bool) (renderedCharCount : Nat) : Nat :=
  let sourceCharCount := if includeLineNumbers then
      renderedCharCount - (lineMark currentLine).length
    else renderedCharCount
  bytes (line.take sourceCharCount)

def truncateUtf8ToByteBoundary (input : List Char) (byteLimit : Nat) : List Char :=
  if bytes input ≤ byteLimit then input
  else takeBytes (boundaryBelow input byteLimit) input

def retainedSourceBytesForRenderedBytes (line : List Char) (currentLine : Nat)
    (includeLineNumbers : Bool) (renderedByteCount : Nat) : Nat :=
  if renderedByteCount = 0 then 0
  else
    let markBytes := if includeLineNumbers then bytes (lineMark currentLine) else 0
    min (renderedByteCount - markBytes) (bytes line)

/-- `read_until` a line break, of at most `limit` bytes. -/
def readUntil (limit : Nat) : List UInt8 → List UInt8
  | [] => []
  | byte :: rest =>
    if limit = 0 then []
    else if byte = 10 then [byte]
    else byte :: readUntil (limit - 1) rest

/-- A line without its line feed or carriage return and line feed, and how many bytes
these are. -/
def stripLineBreak (lineBytes : List UInt8) : List UInt8 × Nat :=
  if lineBytes.getLast? = some 10 then
    if lineBytes.dropLast.getLast? = some 13 then (lineBytes.dropLast.dropLast, 2)
    else (lineBytes.dropLast, 1)
  else (lineBytes, 0)

/-- The text of a line. Where the scan ended inside a character, its first bytes are
dropped. -/
def decodeLine (lineBytes : List UInt8) (truncatedByScan : Bool) : Except ReadError (List Char) :=
  if 0 ∈ lineBytes then .error .containsNul
  else
    let decoding := Utf8.decode lineBytes
    match decoding.ending with
    | .finished => .ok decoding.text
    | .invalid => .error .invalidUtf8
    | .incomplete =>
      if truncatedByScan then
        let whole := Utf8.decode (lineBytes.take (bytes decoding.text))
        if whole.ending = .finished then .ok whole.text else .error .invalidUtf8
      else .error .invalidUtf8

end Helpers

section Loop

variable (request : WindowRequest)

/-- Lines are counted from one. -/
def WindowRequest.firstLine : Nat := max request.startLine 1

def WindowRequest.render (currentLine : Nat) (line : List Char) : List Char :=
  if request.includeLineNumbers then lineMark currentLine ++ line else line

def exceeds (limit : Option Nat) (count : Nat) : Bool :=
  limit.any fun limit => limit < count

/-- The limits that are checked before a line is read, once the window has begun. -/
def limitReached (reading : Reading) : Option Reading :=
  if reading.currentLine < request.firstLine then none
  else if request.maxLines ≤ reading.lineCount then
    some { reading with truncatedByLines := !reading.remaining.isEmpty }
  else if request.maxChars ≤ reading.usedChars then
    some { reading with truncatedByChars := !reading.remaining.isEmpty }
  else if request.maxBytes.any fun limit => limit ≤ reading.usedBytes then
    some { reading with truncatedByBytes := !reading.remaining.isEmpty }
  else none

/-- The reader after a line has been taken from it. -/
def advance (reading : Reading) (lineBytes : List UInt8) : Reading :=
  let remaining := reading.remaining.drop lineBytes.length
  let scannedBytes := reading.scannedBytes + lineBytes.length
  { reading with
    remaining
    scannedBytes
    currentLine := reading.currentLine + 1
    truncatedByScan :=
      if lineBytes.getLast? ≠ some 10 ∧ request.maxScanBytes ≤ scannedBytes then !remaining.isEmpty
      else reading.truncatedByScan }

/-- The separator before another line. -/
def pushSeparator (reading : Reading) : Reading :=
  if reading.content.isEmpty then reading
  else
    { reading with
      content := reading.content ++ ['\n']
      usedChars := reading.usedChars + 1
      usedBytes := reading.usedBytes + 1
      retainedSourceBytes := reading.retainedSourceBytes + reading.previousRetainedNewlineBytes }

/-- A line with more characters than remain. Its bytes are not looked at. -/
def cutByChars (reading : Reading) (line : List Char) : Reading :=
  let rendered := request.render reading.currentLine line
  let remainingChars := request.maxChars - reading.usedChars
  { reading with
    content := reading.content ++ rendered.take remainingChars
    retainedSourceBytes := reading.retainedSourceBytes +
      retainedSourceBytesForRenderedChars line reading.currentLine request.includeLineNumbers
        remainingChars
    lineCount := reading.lineCount + 1
    endLine := reading.currentLine
    truncatedByChars := true }

/-- A line with more bytes than remain. It counts if any of it fits. -/
def cutByBytes (reading : Reading) (line : List Char) (limit : Nat) : Reading :=
  let rendered := truncateUtf8ToByteBoundary (request.render reading.currentLine line)
    (limit - reading.usedBytes)
  let renderedBytes := bytes rendered
  if 0 < renderedBytes then
    { reading with
      content := reading.content ++ rendered
      retainedSourceBytes := reading.retainedSourceBytes +
        retainedSourceBytesForRenderedBytes line reading.currentLine request.includeLineNumbers
          renderedBytes
      lineCount := reading.lineCount + 1
      endLine := reading.currentLine
      truncatedByBytes := true }
  else { reading with truncatedByBytes := true }

def pushLine (reading : Reading) (line : List Char) (newlineBytes : Nat) : Reading :=
  let rendered := request.render reading.currentLine line
  { reading with
    content := reading.content ++ rendered
    usedChars := reading.usedChars + rendered.length
    usedBytes := reading.usedBytes + bytes rendered
    retainedSourceBytes := reading.retainedSourceBytes + bytes line
    lineCount := reading.lineCount + 1
    endLine := reading.currentLine
    previousRetainedNewlineBytes := newlineBytes }

/-- Append what fits of a line. -/
def appendLine (reading : Reading) (line : List Char) (newlineBytes : Nat) : Turn :=
  let separatorChars := if reading.content.isEmpty then 0 else 1
  if request.maxChars ≤ reading.usedChars + separatorChars then
    .stop { reading with truncatedByChars := true }
  else if exceeds request.maxBytes (reading.usedBytes + separatorChars) then
    .stop { reading with truncatedByBytes := true }
  else
    let reading := pushSeparator reading
    let rendered := request.render reading.currentLine line
    if request.maxChars - reading.usedChars < rendered.length then
      .stop (cutByChars request reading line)
    else match request.maxBytes.filter fun limit => limit < reading.usedBytes + bytes rendered with
      | some limit => .stop (cutByBytes request reading line limit)
      | none =>
        let reading := pushLine request reading line newlineBytes
        if reading.truncatedByScan then .stop reading else .next reading

def turn (reading : Reading) : Except ReadError Turn :=
  match limitReached request reading with
  | some reading => .ok (.stop reading)
  | none =>
    if request.maxScanBytes ≤ reading.scannedBytes then
      .ok (.stop { reading with truncatedByScan := !reading.remaining.isEmpty })
    else
      let lineBytes := readUntil (request.maxScanBytes - reading.scannedBytes) reading.remaining
      if lineBytes.isEmpty then .ok (.stop reading)
      else
        let reading := advance request reading lineBytes
        let (lineBytes, newlineBytes) := stripLineBreak lineBytes
        if reading.currentLine < request.firstLine then
          .ok (if reading.truncatedByScan then .stop reading else .next reading)
        else
          (decodeLine lineBytes reading.truncatedByScan).map fun line =>
            appendLine request reading line newlineBytes

/-- The loop; each turn that does not stop it takes a byte from the reader. -/
def turns : Nat → Reading → Except ReadError Reading
  | 0, reading => .ok reading
  | fuel + 1, reading =>
    match turn request reading with
    | .error error => .error error
    | .ok (.stop reading) => .ok reading
    | .ok (.next reading) => turns fuel reading

def readTextWindow (file : List UInt8) : Except ReadError ReadWindow :=
  (turns request (file.length + 1) { remaining := file }).map fun reading =>
    { content := String.ofList reading.content
      endLine := reading.endLine
      lineCount := reading.lineCount
      retainedSourceBytes := reading.retainedSourceBytes
      truncatedByLines := reading.truncatedByLines
      truncatedByChars := reading.truncatedByChars
      truncatedByBytes := reading.truncatedByBytes
      truncatedByScan := reading.truncatedByScan }

end Loop

end Atelia.Tools
