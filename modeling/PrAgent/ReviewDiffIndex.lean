import PrAgent.SafeIntegers
import PrAgent.Table
set_option autoImplicit false

namespace PrAgent

abbrev LineRange := Nat × Nat

section Ranges

-- `ranges` and `range` of the scan, where the open range is pushed once a line does not continue it.
structure RangeScan where
  ranges : List LineRange := []
  range : Option LineRange := none

def RangeScan.addCommentableLine (scan : RangeScan) (line : Nat) : RangeScan :=
  match scan.range with
  | none => { scan with range := some (line, line) }
  | some (start, stop) =>
    if line = nearestDouble (stop + 1) then { scan with range := some (start, line) }
    else { ranges := scan.ranges ++ [(start, stop)], range := some (line, line) }

def RangeScan.finishRanges (scan : RangeScan) : List LineRange := scan.ranges ++ scan.range.toList

end Ranges

section Header

def literal? : List Char → List Char → Option (List Char)
  | [], text => some text
  | _ :: _, [] => none
  | c :: rest, d :: text => if c = d then literal? rest text else none

-- `\d+`, with the digits as a number.
def digits? (text : List Char) : Option (Nat × List Char) :=
  if text.takeWhile Char.isDigit = [] then none
  else some (decimalDigits (text.takeWhile Char.isDigit), text.dropWhile Char.isDigit)

-- `(?:,\d+)?`: a comma without digits is left to what follows.
def count? (text : List Char) : Option Nat × List Char :=
  match (literal? [','] text).bind digits? with
  | none => (none, text)
  | some (count, rest) => (some count, rest)

-- `/^@@ -\d+(?:,\d+)? \+(\d+)(?:,(\d+))? @@/`: what follows a run of digits is no digit, so nothing is tried twice.
def matchHunkHeader (line : List Char) : Option (Nat × Option Nat) := do
  let text ← literal? "@@ -".toList line
  let (_, text) ← digits? text
  let text ← literal? " +".toList (count? text).2
  let (start, text) ← digits? text
  let (count, text) := count? text
  let _ ← literal? " @@".toList text
  pure (start, count)

end Header

section Patch

structure PatchScan extends RangeScan where
  rightLine : Nat := 0
  seenHunk : Bool := false
  -- only compared with zero: what the source counts below it stays zero here
  rightLinesRemaining : Nat := 0

def PatchScan.commentable (scan : PatchScan) : PatchScan :=
  { scan with
    toRangeScan := scan.addCommentableLine scan.rightLine
    rightLine := nearestDouble (scan.rightLine + 1)
    rightLinesRemaining := nearestDouble (scan.rightLinesRemaining - 1) }

def PatchScan.openHunk (scan : PatchScan) (start : Nat) (count : Option Nat) : PatchScan :=
  { scan with
    rightLine := nearestDouble start
    rightLinesRemaining := nearestDouble (count.getD 1)
    seenHunk := true }

-- The loop over the lines, with its early returns.
def scanPatch (scan : PatchScan) : List (List Char) → List LineRange
  | [] => scan.finishRanges
  | rawLine :: rest =>
    if ['@', '@'].isPrefixOf rawLine then
      match matchHunkHeader rawLine with
      | none => scan.finishRanges
      | some (start, count) => scanPatch (scan.openHunk start count) rest
    else if !scan.seenHunk then scanPatch scan rest
    else if ['+'].isPrefixOf rawLine && !(['+', '+', '+'].isPrefixOf rawLine) then scanPatch scan.commentable rest
    else if [' '].isPrefixOf rawLine then scanPatch scan.commentable rest
    else if rawLine = [] then scanPatch (if 0 < scan.rightLinesRemaining then scan.commentable else scan) rest
    else if ['-'].isPrefixOf rawLine && !(['-', '-', '-'].isPrefixOf rawLine) then scanPatch scan rest
    else if ['\\'].isPrefixOf rawLine then scanPatch scan rest
    else scan.finishRanges

def parseCommentableRightLineRanges (patch : List Char) : List LineRange :=
  if patch = [] then []
  else scanPatch {} ((if ['\n'].isSuffixOf patch then patch.dropLast else patch).splitOn '\n')

end Patch

section Index

structure CachedPrFileDiff where
  patchOmitted : Bool
  commentableRightLineRanges : List LineRange
  additions : Nat
  deletions : Nat

structure CachedPrDiffIndex where
  truncated : Bool := false
  files : Table String CachedPrFileDiff := .empty
  listPullRequestFilesIngested : Bool := false

structure ListedPrFile where
  filename : String
  patch : Option (List Char) := none
  patchOmitted : Option Bool := none
  additions : Option Nat := none
  deletions : Option Nat := none

structure ListPullRequestFilesToolResult where
  truncated : Option Bool := none
  files : Option (List ListedPrFile) := none

def ListedPrFile.omitted (file : ListedPrFile) : Bool :=
  file.patchOmitted = some true || file.patch.isNone || file.patch = some []

def ListedPrFile.cached (file : ListedPrFile) : CachedPrFileDiff where
  patchOmitted := file.omitted
  commentableRightLineRanges := if file.omitted then [] else (file.patch.map parseCommentableRightLineRanges).getD []
  additions := file.additions.getD 0
  deletions := file.deletions.getD 0

def ingestFile (files : Table String CachedPrFileDiff) (file : ListedPrFile) : Table String CachedPrFileDiff :=
  if (files.get? file.filename).isSome then files else files.set file.filename file.cached

def ingestListPullRequestFilesResult (index : CachedPrDiffIndex) (result : ListPullRequestFilesToolResult) :
    CachedPrDiffIndex where
  listPullRequestFilesIngested := true
  truncated := result.truncated.getD false || index.truncated
  files := (result.files.getD []).foldl ingestFile index.files

-- One turn of the loop over the ranges.
def closerAnchor (lo hi : Int) (anchor : Option Int) (range : LineRange) : Option Int :=
  if range.2 < lo ∨ hi < range.1 then anchor
  else
    let candidate := max lo range.1
    match anchor with
    | none => some candidate
    | some best => some (if candidate < best then candidate else best)

def resolveInlineAnchorLine (index : Option CachedPrDiffIndex) (file : String) (startLine endLine : Int) : Option Int :=
  match index.bind fun index => index.files.get? file with
  | none => none
  | some entry =>
    if entry.patchOmitted || entry.commentableRightLineRanges = [] then none
    else entry.commentableRightLineRanges.foldl (closerAnchor (min startLine endLine) (max startLine endLine)) none

end Index
end PrAgent
