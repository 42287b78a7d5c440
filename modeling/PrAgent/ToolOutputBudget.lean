import PrAgent.LineEnds
import PrAgent.Marshal
set_option autoImplicit false

namespace PrAgent

section Cap

structure CappedTextOutput where
  content : Text
  truncated : Bool
  returnedBytes : Nat
  truncationReason : Option Text

-- `(byte & 0xc0) === 0x80`.
def isTrailByte (byte : UInt8) : Bool := byte &&& 0xc0 = 0x80

-- The loop that moves the end of a cut to the start of a character.
def cutEnd (bytes : List UInt8) : Nat → Nat
  | 0 => 0
  | n + 1 => if bytes[n + 1]?.any isTrailByte then cutEnd bytes n else n + 1

def capTextOutput (value : Text) (maxBytes : Nat) (truncationReason : Text) : CappedTextOutput :=
  if textBytes value ≤ maxBytes then ⟨value, false, textBytes value, none⟩
  else
    let buf := writeUtf8 value
    let content := readUtf8 (buf.take (cutEnd buf maxBytes))
    ⟨content, true, textBytes content, some truncationReason⟩

def shouldSpillToFile (bytes threshold : Nat) : Bool := threshold < bytes

end Cap

section Read

def localWorkspaceReadMaxLineCharacters : Nat := 2000

def localWorkspaceReadSpillThresholdBytes : Nat := 256000

structure FileReadWindowParams where
  startLine : Option Nat
  maxLines : Option Nat

-- A list that is left out is empty.
structure FileReadOutput where
  content : Text
  size : Nat
  startLine : Nat
  endLine : Nat
  truncated : Bool
  returnedBytes : Nat
  truncationReason : Option Text
  resumeStartLine : Option Nat
  clampedLines : List Nat
  note : Option Text

def decimal (n : Nat) : Text := Nat.toDigits 10 n

def isLongLine (line : Text) : Bool := localWorkspaceReadMaxLineCharacters < unitLength line

def clampMarker (number : Nat) (line : Text) : Text :=
  text "[line " ++ (decimal number ++ (text " clamped: " ++ (decimal (unitLength line) ++ text " characters elided]")))

-- The lines with the markers, and the numbers of the long lines; `none` where there are none.
def clampLongLines (lines : List Text) : Option (List Text × List Nat) :=
  if lines.any isLongLine then
    some (lines.mapIdx fun index line => if isLongLine line then clampMarker (index + 1) line else line,
      (lines.zipIdx 1).filterMap fun entry => if isLongLine entry.1 then some entry.2 else none)
  else none

def splitLines (value : Text) : List Text :=
  if value = [] then [[]]
  else
    let lines := value.splitOn '\n'
    if 1 < lines.length ∧ lines.getLast? = some [] then lines.dropLast else lines

def endsWithLineFeed (value : Text) : Bool := value.getLast? = some '\n'

-- The loop over `indexOf` counts the line feeds.
def endLineForText (value : Text) : Nat :=
  if value = [] then 0 else max 1 (1 + value.count '\n' - if endsWithLineFeed value then 1 else 0)

def responseByteBudgetTruncationReason : Text := text "response byte budget exceeded"

def lineWindowTruncationReason : Text := text "line window limit exceeded"

def byteBudgetNote (endLine total : Nat) : Text :=
  text "Truncated by the response byte budget at line " ++ (decimal endLine ++ (text " of " ++ (decimal total ++
    (text ". Resume with startLine " ++ (decimal endLine ++ text " (the last shown line may be cut off).")))))

def lineWindowNote (endLine total : Nat) : Text :=
  text "Line window ended at line " ++ (decimal endLine ++ (text " of " ++ (decimal total ++
    (text ". Resume with startLine " ++ (decimal (endLine + 1) ++ text ".")))))

def beyondEndNote (startLine total : Nat) : Text :=
  text "startLine " ++ (decimal startLine ++ (text " is beyond the end of the file (" ++ (decimal total ++
    (text " lines total). Retry with startLine <= " ++ (decimal total ++ text ".")))))

def readWholeText (value : Text) (maxResponseBytes : Nat) : FileReadOutput :=
  let lines := splitLines value
  let clamped := clampLongLines lines
  let body := clamped.elim value fun clamped => ['\n'].intercalate clamped.1 ++ if endsWithLineFeed value then ['\n'] else []
  let capped := capTextOutput body maxResponseBytes responseByteBudgetTruncationReason
  let endLine := endLineForText capped.content
  { content := capped.content
    size := textBytes value
    startLine := 1
    endLine := endLine
    truncated := capped.truncated
    returnedBytes := capped.returnedBytes
    truncationReason := capped.truncationReason
    resumeStartLine := if capped.truncated then some endLine else none
    clampedLines := (clamped.elim [] Prod.snd).filter fun line => line ≤ endLine
    note := if capped.truncated then some (byteBudgetNote endLine lines.length) else none }

def readTextWindow (value : Text) (maxResponseBytes : Nat) (window : FileReadWindowParams) : FileReadOutput :=
  let lines := splitLines value
  let clamped := clampLongLines lines
  if window.startLine.any fun startLine => lines.length < startLine then
    { content := []
      size := textBytes value
      startLine := 0
      endLine := 0
      truncated := false
      returnedBytes := 0
      truncationReason := none
      resumeStartLine := none
      clampedLines := []
      note := window.startLine.map fun startLine => beyondEndNote startLine lines.length }
  else
    let budgetedLines := clamped.elim lines Prod.fst
    let startIdx := min budgetedLines.length (window.startLine.getD 1 - 1)
    let endIdxExclusive := window.maxLines.elim budgetedLines.length fun maxLines => min budgetedLines.length (startIdx + maxLines)
    let selected := (budgetedLines.take endIdxExclusive).drop startIdx
    let startLine := startIdx + 1
    let lineWindowTruncated := endIdxExclusive < lines.length
    let capped := capTextOutput (['\n'].intercalate selected) maxResponseBytes responseByteBudgetTruncationReason
    let endLine := if capped.truncated ∧ selected ≠ [] then startLine + endLineForText capped.content - 1 else startIdx + selected.length
    { content := capped.content
      size := textBytes value
      startLine := startLine
      endLine := endLine
      truncated := capped.truncated || lineWindowTruncated
      returnedBytes := capped.returnedBytes
      truncationReason := capped.truncationReason.or (if lineWindowTruncated then some lineWindowTruncationReason else none)
      resumeStartLine := if capped.truncated then some endLine else if lineWindowTruncated then some (endLine + 1) else none
      clampedLines := (clamped.elim [] Prod.snd).filter fun line => startLine ≤ line && line ≤ endLine
      note :=
        if capped.truncated then some (byteBudgetNote endLine lines.length)
        else if lineWindowTruncated then some (lineWindowNote endLine lines.length) else none }

def readTextWithOutputBudget (value : Text) (maxResponseBytes : Nat) (window : FileReadWindowParams) : FileReadOutput :=
  if textBytes value = 0 then ⟨[], 0, 0, 0, false, 0, none, none, [], none⟩
  else if window.startLine.isNone && window.maxLines.isNone then readWholeText value maxResponseBytes
  else readTextWindow value maxResponseBytes window

end Read

section Files

inductive WorkspaceFile where
  | missing
  | special (kind : Text)
  | regular (bytes : List UInt8)

inductive RefusalKind where
  | missing
  | special
  | tooLarge
  | binary

inductive BudgetedRead where
  | refused (refusalKind : RefusalKind) (reason : Text)
  | spilled (content : Text)
  | read (output : FileReadOutput)

structure BudgetedReadOptions where
  maxFileBytes : Nat
  maxResponseBytes : Nat
  spills : Bool

def binarySampleBytes : Nat := 8192

-- The characters that start within a number of code units.
def takeUnits : Nat → Text → Text
  | _, [] => []
  | 0, _ => []
  | room + 1, c :: rest => c :: takeUnits (room + 1 - utf16Units c) rest

def tooLargeReason (maxFileBytes : Nat) : Text := text "File exceeds " ++ (decimal maxFileBytes ++ text " byte read limit.")

def specialReason (kind : Text) : Text := text "Path is " ++ (kind ++ text ", not a regular file; no read was attempted.")

def combinedNote (notes : List (Option Text)) : Option Text :=
  let shown := (notes.filterMap id).filter fun note => note ≠ []
  if shown = [] then none else some ([' '].intercalate shown)

def readBudgetedWorkspaceTextFile (file : WorkspaceFile) (opts : BudgetedReadOptions) (window : FileReadWindowParams) : BudgetedRead :=
  match file with
  | .missing => .refused .missing (text "Path is missing from the checkout.")
  | .special kind => .refused .special (specialReason kind)
  | .regular bytes =>
    if opts.maxFileBytes < bytes.length then .refused .tooLarge (tooLargeReason opts.maxFileBytes)
    else
      let content := normalizeTextFileEncoding (readUtf8 bytes)
      let emptyNote := if bytes.length = 0 then some (text "File is empty (0 bytes).") else none
      if (takeUnits binarySampleBytes content).contains (Char.ofNat 0) then .refused .binary (text "Binary file cannot be read as text.")
      else
        let readOutput := readTextWithOutputBudget content opts.maxResponseBytes window
        let budgeted := { readOutput with note := combinedNote [emptyNote, readOutput.note] }
        if budgeted.truncated = true ∧ budgeted.truncationReason = some responseByteBudgetTruncationReason ∧ opts.spills = true ∧
            shouldSpillToFile budgeted.size localWorkspaceReadSpillThresholdBytes = true then .spilled content
        else .read budgeted

-- The reads that follow one another with the same `maxLines`, and the result that was no read; `none` where the fuel does not reach the end.
def followReads (read : FileReadWindowParams → BudgetedRead) : Nat → FileReadWindowParams → Option (List FileReadOutput × Option BudgetedRead)
  | 0, _ => none
  | fuel + 1, window =>
    match read window with
    | .read output =>
      match output.resumeStartLine with
      | none => some ([output], none)
      | some next => (followReads read fuel { window with startLine := some next }).map fun later => (output :: later.1, later.2)
    | other => some ([], some other)

end Files
end PrAgent
