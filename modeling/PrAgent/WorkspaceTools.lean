import PrAgent.CommentablePatch
import PrAgent.EvidenceLedger
import PrAgent.ToolOutputBudget
set_option autoImplicit false

namespace PrAgent

section Reader

inductive ChangedFileStatus
  | added | modified | deleted | renamed | copied | other
  deriving DecidableEq, Repr

structure LocalPrChangedFile where
  path : Text
  status : ChangedFileStatus
  oldPath : Option Text
  deriving DecidableEq

-- The lines of the right side of a hunk, each with its number.
def rightEntries : Nat → List DiffLine → List (Nat × Text)
  | _, [] => []
  | n, line :: rest => if line.right then (n, line.content) :: rightEntries (n + 1) rest else rightEntries n rest

def lineAt (value : Text) (n : Nat) : Option Text := if n = 0 then none else (value.splitOn '\n')[n - 1]?

-- What a pinned checkout gives to the tools. `files` is the checkout and `headText` what git has at the head. `assertDiff` is whether
-- the path policy lets a path through, `allows` its other test.
structure PinnedRepositoryReader where
  sortedCheckoutPaths : List Text
  changedFiles : List LocalPrChangedFile
  patchByPath : Text → Option FilePatch
  patchOmittedByCapPaths : List Text
  changeSetTruncated : Bool
  files : Text → WorkspaceFile
  headText : Text → Text
  assertDiff : Text → Bool
  allows : Text → Bool
  coverage : JsonTree
  suggestSimilarPaths : Text → List Text
  -- `String.prototype.normalize("NFC")`, which neither makes nor takes a backslash
  nfc : Text → Text
  nfc_backslash : ∀ name, '\\' ∈ nfc name ↔ '\\' ∈ name
  undottedPaths : ∀ path ∈ sortedCheckoutPaths, (text "./").isPrefixOf path = false
  undottedChanges : ∀ file ∈ changedFiles, (text "./").isPrefixOf file.path = false
  patched : ∀ path patch, patchByPath path = some patch → ∀ hunk ∈ patch.hunks, ∀ entry ∈ rightEntries hunk.newStart hunk.lines,
    lineAt (headText path) entry.1 = some entry.2

variable (reader : PinnedRepositoryReader)

-- `new Map(changedFiles.map((file) => [file.path, file]))`: the last file of a path stays.
def changedFileByPath (path : Text) : Option LocalPrChangedFile := reader.changedFiles.reverse.find? fun file => file.path = path

def isPathInCheckout (path : Text) : Bool := reader.sortedCheckoutPaths.contains (forwardSlashes path)

def readerReadFile (path : Text) (opts : BudgetedReadOptions) (window : FileReadWindowParams) : Option BudgetedRead :=
  if reader.assertDiff path then some (readBudgetedWorkspaceTextFile (reader.files path) opts window) else none

end Reader

section Diffs

inductive DiffAvailability
  | available | unchanged | unavailable
  deriving DecidableEq, Repr

def DiffAvailability.text : DiffAvailability → Text
  | .available => PrAgent.text "available"
  | .unchanged => PrAgent.text "unchanged"
  | .unavailable => PrAgent.text "unavailable"

inductive DiffReason
  | workspaceDiffByteCap | absentFromCompleteChangeSet | upstreamPatchMissing | upstreamPatchEmpty | changeSetTruncated | patchByteCap
  | renamePreviousPath
  deriving DecidableEq, Repr

def DiffReason.text : DiffReason → Text
  | .workspaceDiffByteCap => PrAgent.text "workspace_diff_byte_cap"
  | .absentFromCompleteChangeSet => PrAgent.text "absent_from_complete_change_set"
  | .upstreamPatchMissing => PrAgent.text "upstream_patch_missing"
  | .upstreamPatchEmpty => PrAgent.text "upstream_patch_empty"
  | .changeSetTruncated => PrAgent.text "change_set_truncated"
  | .patchByteCap => PrAgent.text "patch_byte_cap"
  | .renamePreviousPath => PrAgent.text "rename_previous_path"

structure WorkspacePathDiff where
  availability : DiffAvailability
  reason : Option DiffReason
  diff : Text
  currentPath : Option Text := none

def patchByteCapDiff : Text := text "[patch omitted: exceeds configured PR patch byte cap]"

def localWorkspaceMaxDiffBytes : Nat := 5000000

-- `value.slice(0, units)`; half of a character is written as the replacement character.
def sliceUnits : Nat → Text → Text
  | _, [] => []
  | 0, _ => []
  | units + 1, c :: rest => if utf16Units c ≤ units + 1 then c :: sliceUnits (units + 1 - utf16Units c) rest else [Char.ofNat 0xFFFD]

variable (reader : PinnedRepositoryReader)

def classifyPinnedPrDiff (path : Text) : WorkspacePathDiff :=
  let normalized := forwardSlashes path
  if (changedFileByPath reader normalized).isSome then
    if reader.patchOmittedByCapPaths.contains normalized then ⟨.unavailable, some .patchByteCap, patchByteCapDiff, none⟩
    else
      match reader.patchByPath normalized with
      | none => ⟨.unavailable, some .upstreamPatchMissing, [], none⟩
      | some patch =>
        if patch.text = [] then ⟨.unavailable, some .upstreamPatchEmpty, [], none⟩
        else if localWorkspaceMaxDiffBytes < unitLength patch.text then
          ⟨.available, some .workspaceDiffByteCap, sliceUnits localWorkspaceMaxDiffBytes patch.text ++ text "\n...[diff truncated]", none⟩
        else ⟨.available, none, patch.text, none⟩
  else
    match reader.changedFiles.find? fun file => file.status = .renamed && file.oldPath = some normalized with
    | some renamed => ⟨.unavailable, some .renamePreviousPath, [], some renamed.path⟩
    | none =>
      if reader.changeSetTruncated then ⟨.unavailable, some .changeSetTruncated, [], none⟩
      else ⟨.unchanged, some .absentFromCompleteChangeSet, [], none⟩

end Diffs

section Names

def basenameOf (path : Text) : Text := (path.reverse.takeWhile fun c => c ≠ '/').reverse

def dirOf (path : Text) : Text := path.take (path.length - (basenameOf path).length)

-- The paths of the checkout in the directory of a path.
def sameDirEntries (path : Text) (checkoutPaths : List Text) : List Text :=
  checkoutPaths.filter fun entry =>
    (dirOf path).isPrefixOf entry && entry.drop (dirOf path).length ≠ [] && !(entry.drop (dirOf path).length).contains '/'

variable (reader : PinnedRepositoryReader)

def canonicalizeFilename (name : Text) : Text :=
  (reader.nfc name).map fun c =>
    if c.toNat = 0x202f ∨ c.toNat = 0x00a0 then ' ' else if c.toNat = 0x2019 ∨ c.toNat = 0x2018 then '\'' else c

def findUnicodeEquivalentPath (path : Text) : Option Text :=
  if basenameOf path = [] then none
  else
    match (sameDirEntries path reader.sortedCheckoutPaths).filter fun entry =>
        entry ≠ path && canonicalizeFilename reader (basenameOf entry) = canonicalizeFilename reader (basenameOf path) with
    | [found] => some found
    | _ => none

end Names

section Results

def naturalTree (n : Nat) : JsonTree := .number (Nat.toDigits 10 n)

def FileReadOutput.fields (output : FileReadOutput) : List (Text × JsonTree) :=
  [(text "content", .string output.content), (text "size", naturalTree output.size), (text "startLine", naturalTree output.startLine),
    (text "endLine", naturalTree output.endLine), (text "truncated", .bool output.truncated),
    (text "returnedBytes", naturalTree output.returnedBytes)] ++
    (output.truncationReason.toList.map fun reason => (text "truncationReason", .string reason)) ++
    (if output.clampedLines = [] then [] else [(text "clampedLines", .array (output.clampedLines.map naturalTree))]) ++
    (output.resumeStartLine.toList.map fun line => (text "resumeStartLine", naturalTree line)) ++
    output.note.toList.map fun note => (text "note", .string note)

def localWorkspaceReadSpillTailBytes : Nat := 8000

def spillNote (size : Nat) (spillPath : Text) : Text :=
  text "Output (" ++ (decimal size ++ (text " bytes) exceeded the spill threshold; full text spilled to " ++ (spillPath ++
    text (". Spilled content is not read evidence — re-read the source path via readWorkspaceFile with explicit startLine/maxLines " ++
      "before citing any line in a finding."))))

-- A call, with what the tool draws or reads elsewhere: the file it spills to and the review threads of the path.
structure ReadCall where
  path : Text
  window : FileReadWindowParams
  options : BudgetedReadOptions
  spillPath : Text
  reviewThreads : Option JsonTree

structure DiffCall where
  path : Text
  diffResponseBytes : Nat
  reviewThreads : Option JsonTree

def withReviewThreads (reviewThreads : Option JsonTree) (fields : List (Text × JsonTree)) : List (Text × JsonTree) :=
  fields ++ reviewThreads.toList.map fun threads => (text "reviewThreads", threads)

variable (reader : PinnedRepositoryReader)

def readResponse (call : ReadCall) (readPath : Text) (note : Option Text) : BudgetedRead → List (Text × JsonTree)
  | .refused _ reason =>
    [(text "path", .string readPath), (text "refused", .bool true), (text "reason", .string reason), (text "coverage", reader.coverage)] ++
      note.toList.map fun note => (text "note", .string note)
  | .spilled content =>
    [(text "path", .string readPath), (text "spilled", .bool true), (text "spillPath", .string call.spillPath),
      (text "size", naturalTree (textBytes content)),
      (text "tail", .string (takeBytes localWorkspaceReadSpillTailBytes content.reverse).reverse), (text "truncated", .bool true)] ++
      (combinedNote [note, some (spillNote (textBytes content) call.spillPath)]).toList.map fun note => (text "note", .string note)
  | .read output => (text "path", .string readPath) :: ({ output with note := combinedNote [note, output.note] } : FileReadOutput).fields

-- What was read of the file at a path, where it was read.
def BudgetedRead.output? : BudgetedRead → Option FileReadOutput
  | .read output => some output
  | _ => none

-- The fields that a read returns, and what the tool has read of which file; `none` where it throws.
def respondWithRead (call : ReadCall) (readPath : Text) (note : Option Text) (result : BudgetedRead) :
    List (Text × JsonTree) × Option (Text × FileReadOutput) :=
  (withReviewThreads call.reviewThreads (readResponse reader call readPath note result), result.output?.map fun output => (readPath, output))

def repairNote (path resolved : Text) : Text :=
  text "requested '" ++ (path ++ (text "' not found byte-for-byte; resolved to unicode-equivalent '" ++ (resolved ++ text "'")))

def respondToMissing (call : ReadCall) (path : Text) : Option (List (Text × JsonTree) × Option (Text × FileReadOutput)) :=
  match (findUnicodeEquivalentPath reader path).filter reader.allows with
  | some resolved =>
    (readerReadFile reader resolved call.options call.window).map (respondWithRead reader call resolved (some (repairNote path resolved)))
  | none =>
    let similarPaths := reader.suggestSimilarPaths path
    some (withReviewThreads call.reviewThreads
      ([(text "path", .string path), (text "refused", .bool true), (text "reason", .string (text "Path is missing from the checkout.")),
        (text "coverage", reader.coverage)] ++
        if similarPaths = [] then [] else [(text "similarPaths", .array (similarPaths.map .string))]), none)

def readWorkspaceFile (call : ReadCall) : Option (List (Text × JsonTree) × Option (Text × FileReadOutput)) :=
  let normalized := normalizeEvidencePath call.path
  if reader.assertDiff normalized then
    if (changedFileByPath reader normalized).any fun file => file.status = .deleted then
      some (withReviewThreads call.reviewThreads
        [(text "path", .string normalized), (text "deleted", .bool true), (text "content", .null)], none)
    else if isPathInCheckout reader normalized then
      match readerReadFile reader normalized call.options call.window with
      | some (.refused .missing _) => respondToMissing reader call normalized
      | result => result.map (respondWithRead reader call normalized none)
    else respondToMissing reader call normalized
  else none

def WorkspacePathDiff.fields (evidence : WorkspacePathDiff) (diff : Text) : List (Text × JsonTree) :=
  [(text "diff", .string diff), (text "availability", .string evidence.availability.text),
    (text "reason", evidence.reason.elim .null fun reason => .string reason.text)] ++
    evidence.currentPath.toList.map fun currentPath => (text "currentPath", .string currentPath)

-- What the tool returns, and the path with the text of the diff.
def getWorkspaceDiff (call : DiffCall) : Option (List (Text × JsonTree) × (Text × Text)) :=
  let normalized := normalizeEvidencePath call.path
  if reader.assertDiff normalized then
    let evidence := classifyPinnedPrDiff reader normalized
    let capped := capTextOutput evidence.diff call.diffResponseBytes responseByteBudgetTruncationReason
    some (withReviewThreads call.reviewThreads
      ((text "path", .string normalized) :: (evidence.fields capped.content ++
        [(text "truncated", .bool capped.truncated), (text "returnedBytes", naturalTree capped.returnedBytes)] ++
        capped.truncationReason.toList.map fun reason => (text "truncationReason", .string reason))), (normalized, capped.content))
  else none

end Results
end PrAgent
