import Atelia.Domain.Records
import Atelia.Foundation.Attempt
import Atelia.Foundation.Occurrence

/-! `fs.patch` replaces the only occurrence of a text in a file. -/

namespace Atelia.Tools

open Attempt Excerpt Occurrence

inductive IoErrorKind where
  | notFound | alreadyExists | invalidData | fileTooLarge | other
  deriving DecidableEq

structure IoError where
  kind : IoErrorKind
  text : String

/-- The calls of a patch, each of which the operating system may refuse. -/
inductive FileCall where
  | symlinkMetadata | lock | openRead | metadata | read | createNew | write | flush
  | setPermissions | syncFile | rename | unlink | syncParent

structure Node where
  isFile : Bool
  content : List UInt8
  permissions : Nat

/-- The directory of the target, the counter for temporary names and the mask of the
permissions of new files. -/
structure Disk where
  entries : String → Option Node
  counter : Nat
  umask : Nat

def Disk.put (disk : Disk) (name : String) (node : Option Node) : Disk :=
  { disk with entries := Function.update disk.entries name node }

/-- An empty file opened with mode `0o666`, of which the mask takes its bits. -/
def Disk.created (disk : Disk) : Node :=
  ⟨true, [], 0o666 ^^^ (0o666 &&& disk.umask)⟩

section Calls

variable (refuses : FileCall → Option IoError)

def call (requested : FileCall) : Attempt Disk IoError Unit :=
  check (match refuses requested with
    | some error => .error error
    | none => .ok ())

/-- An entry of the directory, for a call that needs it. -/
def entryFor (requested : FileCall) (name : String) : Attempt Disk IoError Node := do
  call refuses requested
  let disk ← get
  check (match disk.entries name with
    | some node => .ok node
    | none => .error ⟨.notFound, "No such file or directory (os error 2)"⟩)

/-- A call that changes an entry. -/
def update (requested : FileCall) (name : String) (change : Node → Node) :
    Attempt Disk IoError Unit := do
  let node ← entryFor refuses requested name
  modify (·.put name (some (change node)))

def temporaryWriteFileName (fileName : String) (attempt : Nat) : String :=
  s!"atelia-write-tmp-{fileName}-{attempt}"

/-- `open` with `create_new`. -/
def createNew (name : String) : Attempt Disk IoError Unit := do
  call refuses .createNew
  let disk ← get
  check (if (disk.entries name).isSome then .error ⟨.alreadyExists, "File exists (os error 17)"⟩
    else .ok ())
  modify fun disk => disk.put name (some disk.created)

/-- The loop over the attempts, `remaining` of which are left. -/
def createTemporaryFile (fileName : String) : Nat → Attempt Disk IoError String
  | 0 => check (.error ⟨.alreadyExists, "failed to create temporary write file"⟩)
  | remaining + 1 => do
    let disk ← get
    let name := temporaryWriteFileName fileName (disk.counter + (127 - remaining))
    modify fun disk => { disk with counter := disk.counter + 1 }
    rescue (do createNew refuses name; return name) fun error =>
      if error.kind = .alreadyExists then createTemporaryFile fileName remaining
      else check (.error error)

def createTemporaryFileInParentDir (fileName : String) : Attempt Disk IoError String :=
  createTemporaryFile refuses fileName 128

def renameInParentDir (source destination : String) (createNew : Bool) :
    Attempt Disk IoError Unit := do
  let node ← entryFor refuses .rename source
  let disk ← get
  check (if createNew && (disk.entries destination).isSome then
    .error ⟨.alreadyExists, "File exists (os error 17)"⟩ else .ok ())
  modify fun disk => (disk.put destination (some node)).put source none

def existingPermissions (fileName : String) (createNew : Bool) :
    Attempt Disk IoError (Option Nat) :=
  if createNew then pure none
  else do
    let existing ← entryFor refuses .openRead fileName
    call refuses .metadata
    return some existing.permissions

/-- Fill the temporary file and put it in place of the other. -/
def fillAndRename (temporary fileName : String) (bytes : List UInt8) (permissions : Option Nat)
    (createNew failAfterWrite : Bool) : Attempt Disk IoError Unit := do
  update refuses .write temporary fun node => { node with content := bytes }
  call refuses .flush
  match permissions with
  | some permissions =>
    update refuses .setPermissions temporary fun node => { node with permissions }
  | none => pure ()
  call refuses .syncFile
  check (if failAfterWrite then .error ⟨.other, "simulated write failure"⟩ else .ok ())
  renameInParentDir refuses temporary fileName createNew

def writeFileBytesAtomicallyInnerLocked (fileName : String) (bytes : List UInt8)
    (createNew failAfterWrite : Bool) : Attempt Disk IoError Unit := do
  let permissions ← existingPermissions refuses fileName createNew
  let temporary ← createTemporaryFileInParentDir refuses fileName
  rescue (fillAndRename refuses temporary fileName bytes permissions createNew failAfterWrite)
    fun error => do
      rescue (do call refuses .unlink; modify (·.put temporary none)) fun _ : IoError => pure ()
      check (.error error)
  call refuses .syncParent

def readEntireTextFileFromOpenFile (file : Node) (maxBytes : Nat) :
    Attempt Disk IoError (List Char) := do
  call refuses .read
  check (if maxBytes < file.content.length then
      .error ⟨.fileTooLarge, "file exceeds configured byte limit"⟩
    else if (Utf8.decode file.content).ending = .finished then .ok (Utf8.decode file.content).text
    else .error ⟨.invalidData, s!"invalid UTF-8 content: {Utf8.errorText file.content}"⟩)

end Calls

section Execute

/-- The loop of `count_overlapping_matches`, at the bytes from the index on. -/
def countFrom (needle : List UInt8) : List UInt8 → Nat
  | [] => 0
  | byte :: rest =>
    if needle.length ≤ (byte :: rest).length then
      (if (byte :: rest).take needle.length = needle then 1 else 0) + countFrom needle rest
    else 0

def countOverlappingMatches (haystack needle : List Char) : Nat :=
  if needle = [] then 0
  else if (Utf8.encode haystack).length < (Utf8.encode needle).length then 0
  else countFrom (Utf8.encode needle) (Utf8.encode haystack)

structure FsPatchTool where
  findText : String
  replacementText : String
  maxBytes : Nat

/-- A target inside the repository, in the directory of the disk. -/
structure MutationTarget where
  fileName : String
  displayPath : String

abbrev Fields : Type := List ToolResultField

def failedFields (summary error : String) : Fields :=
  [⟨"summary", .string summary⟩, ⟨"error", .string error⟩]

/-- A call whose refusal fails the patch. -/
def orFail {α : Type} (target : MutationTarget) (summary : String) (action : Attempt Disk IoError α) :
    Attempt Disk Fields α :=
  rescue action fun error =>
    check (.error (failedFields summary s!"{target.displayPath}: {error.text}"))

def failIf (condition : Prop) [Decidable condition] (summary error : String) :
    Attempt Disk Fields Unit :=
  check (if condition then .error (failedFields summary error) else .ok ())

/-- The fields of a failed patch, or of one that succeeds. What `resolve_mutation_target`
answers is given. -/
def FsPatchTool.execute (refuses : FileCall → Option IoError) (tool : FsPatchTool)
    (resolved : Except String MutationTarget) : Attempt Disk Fields Fields := do
  failIf (tool.findText = "") "patch failed: empty match text"
    "exact-match replacement requires a non-empty find string"
  let target ← check (resolved.mapError (failedFields "patch failed: path rejected"))
  let metadata ← orFail target "patch failed: cannot read target metadata"
    (entryFor refuses .symlinkMetadata target.fileName)
  failIf (metadata.isFile = false) "patch failed: target is not a file" target.displayPath
  orFail target "patch failed: cannot write UTF-8 text" (call refuses .lock)
  let file ← orFail target "patch failed: cannot read UTF-8 text"
    (entryFor refuses .openRead target.fileName)
  orFail target "patch failed: cannot read UTF-8 text" (call refuses .metadata)
  failIf (tool.maxBytes < file.content.length) "patch failed: file exceeds configured byte limit"
    s!"{target.displayPath} is {file.content.length} bytes; limit is {tool.maxBytes} bytes"
  let content ← rescue (readEntireTextFileFromOpenFile refuses file tool.maxBytes) fun error =>
    check (.error (if error.kind = .fileTooLarge then
        failedFields "patch failed: file exceeds configured byte limit"
          s!"{target.displayPath} is larger than {tool.maxBytes} bytes"
      else failedFields "patch failed: cannot read UTF-8 text"
        s!"{target.displayPath}: {error.text}"))
  let matchCount := countOverlappingMatches content tool.findText.toList
  failIf (matchCount = 0) "patch failed: exact text not found"
    s!"needle {debug tool.findText} was not found in {target.displayPath}"
  failIf (1 < matchCount) "patch failed: exact text matched multiple times"
    s!"needle {debug tool.findText} matched {matchCount} times in {target.displayPath}"
  -- `replacen` with a count of one
  let updated := replaceFirst tool.findText.toList tool.replacementText.toList content
  failIf (tool.maxBytes < bytes updated) "patch failed: result exceeds configured byte limit"
    s!"patched content is {bytes updated} bytes; limit is {tool.maxBytes} bytes"
  orFail target "patch failed: cannot write UTF-8 text"
    (writeFileBytesAtomicallyInnerLocked refuses target.fileName (Utf8.encode updated) false false)
  return [
    ⟨"summary", .string (if updated = content then
      s!"patched {target.displayPath} with no net content change"
      else s!"patched {target.displayPath} with one exact replacement")⟩,
    ⟨"path", .string target.displayPath⟩, ⟨"matches", .integer matchCount⟩,
    ⟨"before_bytes", .integer (bytes content)⟩, ⟨"after_bytes", .integer (bytes updated)⟩,
    ⟨"changed", .bool (updated ≠ content)⟩]

end Execute

section Counting

variable {needle haystack : List Char}

theorem countFrom_eq {needle haystack : List UInt8} :
    countFrom needle haystack = count needle haystack := by
  induction haystack with
  | nil => rfl
  | cons byte rest ih =>
    have starts : (byte :: rest).take needle.length = needle ↔ needle <+: byte :: rest := by
      rw [List.prefix_iff_eq_take, eq_comm]
    rw [countFrom]
    by_cases fits : needle.length ≤ (byte :: rest).length
    · rw [if_pos fits, ih, count]
      simp only [starts]
    · rw [if_neg fits, count_of_short (Nat.not_le.mp fits)]

theorem countOverlappingMatches_eq (some : needle ≠ []) :
    countOverlappingMatches haystack needle = count needle haystack := by
  rw [countOverlappingMatches, if_neg some, countFrom_eq, ← count_encode some]
  split_ifs with short
  · exact (count_of_short short).symm
  · rfl

end Counting

section Writing

variable {refuses : FileCall → Option IoError} {disk after : Disk} {node : Node} {name : String}
  (allowed : ∀ requested, refuses requested = none)
include allowed

theorem exec_call (requested : FileCall) : exec (call refuses requested) disk = (.ok (), disk) := by
  simp [call, allowed]

theorem exec_entryFor (requested : FileCall) (stored : disk.entries name = some node) :
    exec (entryFor refuses requested name) disk = (.ok node, disk) := by
  simp [entryFor, exec_bind_of_ok (exec_call allowed _), stored]

theorem exec_update (requested : FileCall) {change : Node → Node}
    (stored : disk.entries name = some node) :
    exec (update refuses requested name change) disk =
      (.ok (), disk.put name (some (change node))) := by
  rw [update, exec_bind_of_ok (exec_entryFor allowed _ stored)]
  rfl

theorem exec_createNew : exec (createNew refuses name) disk =
    if (disk.entries name).isSome then
      (.error ⟨.alreadyExists, "File exists (os error 17)"⟩, disk)
    else (.ok (), disk.put name (some disk.created)) := by
  rw [createNew, exec_bind_of_ok (exec_call allowed _), exec_get_bind]
  split_ifs
  · rw [exec_check_error_bind]
  · rw [exec_check_ok_bind, exec_modify]

/-- A temporary file that is created is new. -/
theorem createTemporaryFile_ok {fileName : String} {remaining : Nat}
    (created : exec (createTemporaryFile refuses fileName remaining) disk = (.ok name, after)) :
    disk.entries name = none ∧
      after.entries = Function.update disk.entries name (some disk.created) := by
  induction remaining generalizing disk with
  | zero => cases created
  | succ remaining ih =>
    rw [createTemporaryFile, exec_get_bind, exec_modify_bind, exec_rescue, exec_bind,
      exec_createNew allowed] at created
    split_ifs at created with taken
    · exact @ih { disk with counter := disk.counter + 1 } created
    · cases created
      exact ⟨Option.not_isSome_iff_eq_none.mp taken, rfl⟩

/-- A file that exists is replaced, and nothing else in its directory. -/
theorem exec_writeFileBytesAtomicallyInnerLocked {bytes : List UInt8}
    (stored : disk.entries name = some node) (regular : node.isFile = true) {temporary : String}
    (created : exec (createTemporaryFileInParentDir refuses name) disk = (.ok temporary, after)) :
    exec (writeFileBytesAtomicallyInnerLocked refuses name bytes false false) disk =
      (.ok (), { after with
        entries := Function.update disk.entries name (some { node with content := bytes }) }) := by
  obtain ⟨fresh, same⟩ := createTemporaryFile_ok allowed created
  have different : name ≠ temporary := by
    rintro rfl
    cases stored.symm.trans fresh
  have permissions : exec (existingPermissions refuses name false) disk =
      (.ok (some node.permissions), disk) := by
    rw [existingPermissions, if_neg (by decide), exec_bind_of_ok (exec_entryFor allowed _ stored),
      exec_bind_of_ok (exec_call allowed _)]
    rfl
  rw [writeFileBytesAtomicallyInnerLocked, exec_bind_of_ok permissions, exec_bind_of_ok created]
  have filled : exec (fillAndRename refuses temporary name bytes (some node.permissions) false false)
      after = (.ok (), { after with
        entries := Function.update disk.entries name (some { node with content := bytes }) }) := by
    rw [fillAndRename, exec_bind_of_ok (exec_update allowed _ (by rw [same, Function.update_self])),
      exec_bind_of_ok (exec_call allowed _)]
    simp only
    rw [exec_bind_of_ok (exec_update allowed _ (Function.update_self _ _ _)),
      exec_bind_of_ok (exec_call allowed _)]
    rw [if_neg (by decide), exec_check_ok_bind, renameInParentDir,
      exec_bind_of_ok (exec_entryFor allowed _ (Function.update_self _ _ _)), exec_get_bind,
      Bool.false_and, if_neg (by decide), exec_check_ok_bind, exec_modify]
    simp only [Disk.put, same, regular, Function.update_idem, Prod.mk.injEq, Disk.mk.injEq, and_true,
      true_and]
    funext other
    by_cases moved : other = temporary
    · rw [moved, Function.update_self, Function.update_of_ne different.symm, fresh]
    · simp [Function.update_apply, moved, Disk.created]
  rw [exec_bind_of_ok (by rw [exec_rescue, filled]), exec_call allowed]

end Writing

section Replacing

variable {refuses : FileCall → Option IoError} {tool : FsPatchTool} {target : MutationTarget}
  {disk : Disk} {content : List Char} {permissions : Nat}

theorem exec_failIf_bind {condition : Prop} [Decidable condition] {summary error : String}
    {next : Unit → Attempt Disk Fields Fields} :
    exec (failIf condition summary error >>= next) disk =
      if condition then (.error (failedFields summary error), disk) else exec (next ()) disk := by
  rw [failIf]
  split_ifs
  · rw [exec_check_error_bind]
  · rw [exec_check_ok_bind]

theorem exec_orFail_bind {α : Type} {summary : String} {action : Attempt Disk IoError α}
    {next : α → Attempt Disk Fields Fields} {value : α} {after : Disk}
    (ran : exec action disk = (.ok value, after)) :
    exec (orFail target summary action >>= next) disk = exec (next value) after := by
  rw [orFail, exec_bind, exec_rescue, ran]

/-- `fs.patch` succeeds exactly when its text occurs at one position, and replaces it there;
otherwise it changes nothing. -/
theorem patch_replaces_only_occurrence (allowed : ∀ requested, refuses requested = none)
    (creates : ∃ temporary after,
      exec (createTemporaryFileInParentDir refuses target.fileName) disk = (.ok temporary, after))
    (stored : disk.entries target.fileName = some ⟨true, Utf8.encode content, permissions⟩)
    (find : tool.findText ≠ "") (small : bytes content ≤ tool.maxBytes)
    (fits : ∀ before after, before ++ tool.findText.toList ++ after = content →
      bytes (before ++ tool.replacementText.toList ++ after) ≤ tool.maxBytes) :
    let (answer, left) := exec (tool.execute refuses (.ok target)) disk
    ((∃ fields, answer = .ok fields) ↔
        ∃! before, Occurs tool.findText.toList content before) ∧
      (∀ before after, before ++ tool.findText.toList ++ after = content →
        (∃! before, Occurs tool.findText.toList content before) →
        left.entries = Function.update disk.entries target.fileName (some ⟨true,
          Utf8.encode (before ++ tool.replacementText.toList ++ after), permissions⟩)) ∧
      ((¬ ∃! before, Occurs tool.findText.toList content before) → left = disk) := by
  have some : tool.findText.toList ≠ [] := by simpa using find
  have read : exec (readEntireTextFileFromOpenFile refuses
      ⟨true, Utf8.encode content, permissions⟩ tool.maxBytes) disk = (.ok content, disk) := by
    rw [readEntireTextFileFromOpenFile, exec_bind_of_ok (exec_call allowed _), exec_check,
      if_neg (by rw [Utf8.length_encode]; omega), Utf8.decode_encode, if_pos rfl]
  rw [FsPatchTool.execute, exec_failIf_bind, if_neg find, Except.mapError, exec_check_ok_bind,
    exec_orFail_bind (exec_entryFor allowed _ stored), exec_failIf_bind, if_neg (by simp),
    exec_orFail_bind (exec_call allowed _), exec_orFail_bind (exec_entryFor allowed _ stored),
    exec_orFail_bind (exec_call allowed _), exec_failIf_bind,
    if_neg (by rw [Utf8.length_encode]; omega), exec_bind_of_ok (by rw [exec_rescue, read])]
  simp only [exec_failIf_bind, countOverlappingMatches_eq some]
  by_cases unique : ∃! before, Occurs tool.findText.toList content before
  · obtain ⟨before, ⟨after, same⟩, only⟩ := unique
    have replaced : replaceFirst tool.findText.toList tool.replacementText.toList content =
        before ++ tool.replacementText.toList ++ after := by
      subst same
      exact replaceFirst_eq some only
    obtain ⟨temporary, created, creates⟩ := creates
    have one := (count_eq_one some).mpr ⟨before, ⟨after, same⟩, only⟩
    rw [one, if_neg (by decide), if_neg (by decide), replaced,
      if_neg (Nat.not_lt.mpr (fits before after same)),
      exec_orFail_bind (exec_writeFileBytesAtomicallyInnerLocked allowed stored rfl creates)]
    refine ⟨⟨fun _ => ⟨before, ⟨after, same⟩, only⟩, fun _ => ⟨_, rfl⟩⟩, ?_,
      fun several => absurd ⟨before, ⟨after, same⟩, only⟩ several⟩
    intro other rest split _
    obtain rfl := only other ⟨rest, split⟩
    rw [List.append_cancel_left (split.trans same.symm)]
    rfl
  · have several := mt (count_eq_one some).mp unique
    rcases Nat.lt_or_gt_of_ne several with none | many
    · rw [if_pos (Nat.lt_one_iff.mp none)]
      simp [unique]
    · rw [if_neg (by omega), if_pos many]
      simp [unique]

/-- A directory with a file that reads `abc`. -/
def lettersDisk : Disk :=
  ⟨fun name => if name = "a.txt" then some ⟨true, [97, 98, 99], 0o644⟩ else none, 0, 0o022⟩

theorem only_occurrence_replaced :
    ∃ fields left,
      exec ((⟨"b", "xy", 8⟩ : FsPatchTool).execute (fun _ => none) (.ok ⟨"a.txt", "a.txt"⟩))
        lettersDisk = (.ok fields, left) ∧
      left.entries "a.txt" = some ⟨true, [97, 120, 121, 99], 0o644⟩ := by
  have unique : ∃! before, Occurs ['b'] ['a', 'b', 'c'] before :=
    (count_eq_one (by decide)).mp (by decide)
  have patched := @patch_replaces_only_occurrence (fun _ => none) ⟨"b", "xy", 8⟩ ⟨"a.txt", "a.txt"⟩
    lettersDisk ['a', 'b', 'c'] 0o644 (fun _ => rfl) ⟨_, _, rfl⟩ rfl (by decide) (by decide)
    (fun before after same => by
      have length := congrArg bytes same
      simp only [bytes_append] at length ⊢
      have : bytes "xy".toList = 2 := by decide
      have : bytes ['a', 'b', 'c'] = 3 := by decide
      omega)
  obtain ⟨fields, succeeds⟩ := patched.1.mpr unique
  exact ⟨fields, _, Prod.ext succeeds rfl, congrFun (patched.2.1 ['a'] ['c'] rfl unique) "a.txt"⟩

end Replacing

end Atelia.Tools
