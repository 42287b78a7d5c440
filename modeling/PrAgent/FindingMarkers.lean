import PrAgent.FindingInventory
import PrAgent.MarkerText
import PrAgent.PatternGlobal
set_option autoImplicit false

namespace PrAgent.CommentMarkers

section Fields

-- `/^[fl]_[0-9A-HJKMNP-TV-Z]{26}$/`.
def isIdChar (c : Char) : Bool := c.isDigit || (c.isUpper && !(text "ILOU").contains c)

def isFindingId (value : Text) : Bool :=
  (text "f_" <+: value || text "l_" <+: value) && (value.drop 2).length = 26 && (value.drop 2).all isIdChar

structure FindingId where
  value : Text
  wellFormed : isFindingId value = true
  deriving DecidableEq

def findingId? (raw : Text) : Option FindingId :=
  if wellFormed : isFindingId raw = true then some ⟨raw, wellFormed⟩ else none

def sourceText (source : FindingSource) : Text := source.text.toList

-- `isFindingSource`, with the source it recognises.
def findingSource? (raw : Text) : Option FindingSource := findingSources.find? fun source => sourceText source = raw

def severityText (severity : FindingSeverity) : Text := severity.text.toList

def findingSeverity? (raw : Text) : Option FindingSeverity :=
  ([.p0, .p1, .p2, .p3] : List FindingSeverity).find? fun severity => severityText severity = raw

structure FindingMarker where
  id : FindingId
  lens : FindingSource
  severity : FindingSeverity
  reopens : Option FindingId := none
  deriving DecidableEq

structure FindingRowMarker extends FindingMarker where
  path : Text
  line : Option Nat
  title : Text
  deriving DecidableEq

inductive FindingReceipt
  | duplicate (id canonical : FindingId)
  | fixed (id : FindingId)
  | dismissed (id : FindingId)
  deriving DecidableEq

structure OwnedComment where
  body : Text
  authorLogin : Option String
  deriving DecidableEq, Repr

end Fields

section Expressions

variable {β : Type}

-- Each label with the capture `(\S+)` behind it.
def fieldsAt (close : List Text → Text → Option β) : List Text → List Text → Text → Option β
  | [], values => close values
  | label :: labels, values =>
    (Pattern.literal label).skip (solids.keep fun value => fieldsAt close labels (values ++ [value]))

-- `(?: label(\S+))? -->`.
def optionalAt (label : Text) (done : Option Text → Text → Option β) (s : Text) : Option β :=
  ((Pattern.literal label).skip (solids.keep fun value => (Pattern.literal (text " -->")).skip (done (some value))) s).or
    ((Pattern.literal (text " -->")).skip (done none) s)

structure RawFields where
  values : List Text
  reference : Option Text
  deriving DecidableEq, Repr

def rowLabels : List Text :=
  [text "<!-- pr-agent:finding-row v=", text " id=", text " lens=", text " sev=", text " path=", text " line=", text " title="]

def reopensLabel : Text := text " reopens="

-- A match of `FINDING_ROW_RE` that starts right here.
def findingRowAt : Text → Option (RawFields × Text) :=
  fieldsAt (fun values => optionalAt reopensLabel fun reference after => some ({ values, reference }, after)) rowLabels []

-- The lines that `^` and `$` see with the flag `m`: nothing in these expressions reads the end of a line.
def bodyLines (body : Text) : List Text := body.splitOnP isLineTerminator

def atLineEnd (found : β) (after : Text) : Option β := if after = [] then some found else none

def markerLabels : List Text := [text "<!-- pr-agent:finding v=", text " id=", text " lens=", text " sev="]

-- `FINDING_MARKER_RE` on a line.
def findingMarkerAt : Text → Option RawFields :=
  fieldsAt (fun values => optionalAt reopensLabel fun reference => atLineEnd { values, reference }) markerLabels []

inductive ReceiptKind
  | duplicate | fixed | dismissed
  deriving DecidableEq, Repr

def ReceiptKind.text : ReceiptKind → Text
  | .duplicate => PrAgent.text "duplicate"
  | .fixed => PrAgent.text "fixed"
  | .dismissed => PrAgent.text "dismissed"

def canonicalLabel : Text := text " canonical="

-- What follows the kind of a receipt.
def receiptTailAt (kind : ReceiptKind) (version : List Text) : Text → Option (ReceiptKind × RawFields) :=
  (Pattern.literal kind.text).skip <| fieldsAt
    (fun values => optionalAt canonicalLabel fun reference => atLineEnd (kind, { values, reference })) [text " id="] version

-- `RECEIPT_RE` on a line.
def receiptAt : Text → Option (ReceiptKind × RawFields) :=
  fieldsAt (fun version => (Pattern.literal (text " kind=")).skip fun s =>
    ([.duplicate, .fixed, .dismissed] : List ReceiptKind).findSome? fun kind => receiptTailAt kind version s)
    [text "<!-- pr-agent:receipt v="] []

end Expressions

section Parse

def markerVersion : Text := text "1"

def parseMarkerFields (version rawId rawLens rawSeverity : Text) (rawReopens : Option Text) : Option FindingMarker :=
  if version ≠ markerVersion then none
  else
    match findingId? rawId, findingSource? rawLens, findingSeverity? rawSeverity with
    | some id, some lens, some severity =>
      match rawReopens with
      | none => some { id, lens, severity }
      | some raw => (findingId? raw).map fun reopens => { id, lens, severity, reopens := some reopens }
    | _, _, _ => none

def parseOwnedFindingMarker (comment : OwnedComment) (isRoot : Bool) (botLogin : String) : Option FindingMarker :=
  if !isRoot || !isBotAuthor comment.authorLogin botLogin then none
  else
    match (bodyLines comment.body).filterMap findingMarkerAt with
    | [{ values := [version, id, lens, severity], reference }] => parseMarkerFields version id lens severity reference
    | _ => none

-- `some none` is the dash of a row without a line. `Number` rounds to a double.
def parseRowLine (value : Text) : Option (Option Nat) :=
  if value = ['-'] then some none
  else if value.all Char.isDigit && value ≠ [] && value.head? ≠ some '0' then some (some (nearestDouble (decimalDigits value)))
  else none

def parseFindingRow (found : RawFields) : Option FindingRowMarker :=
  match found.values with
  | [version, rawId, rawLens, rawSeverity, rawPath, rawLine, rawTitle] =>
    match parseMarkerFields version rawId rawLens rawSeverity found.reference, decodeURIComponent rawPath,
      decodeURIComponent rawTitle, parseRowLine rawLine with
    | some marker, some path, some title, some line => if path = [] then none else some { marker with path, line, title }
    | _, _, _, _ => none
  | _ => none

-- `parseOwnedFindingRows` of a comment of the bot.
def findingRows (body : Text) : List FindingRowMarker := (matchAll findingRowAt body).filterMap parseFindingRow

def parseOwnedFindingRows (comment : OwnedComment) (botLogin : String) : List FindingRowMarker :=
  if !isBotAuthor comment.authorLogin botLogin then [] else findingRows comment.body

def parseReceipt : ReceiptKind × RawFields → Option FindingReceipt
  | (kind, { values := [version, rawId], reference }) =>
    if version ≠ markerVersion then none
    else
      match findingId? rawId, kind, reference with
      | some id, .duplicate, some raw => (findingId? raw).map fun canonical => .duplicate id canonical
      | some id, .fixed, none => some (.fixed id)
      | some id, .dismissed, none => some (.dismissed id)
      | _, _, _ => none
  | _ => none

def parseOwnedReceipts (comments : List OwnedComment) (botLogin : String) : List FindingReceipt :=
  comments.flatMap fun comment =>
    if !isBotAuthor comment.authorLogin botLogin then []
    else ((bodyLines comment.body).filterMap receiptAt).filterMap parseReceipt

end Parse

section Render

def renderReopens (reopens : Option FindingId) : Text := reopens.elim [] fun id => text " reopens=" ++ id.value

def renderFindingMarker (marker : FindingMarker) : Text :=
  text "<!-- pr-agent:finding v=" ++ (markerVersion ++ (text " id=" ++ (marker.id.value ++ (text " lens=" ++
    (sourceText marker.lens ++ (text " sev=" ++ (severityText marker.severity ++ (renderReopens marker.reopens ++
      text " -->"))))))))

def lineText (line : Option Nat) : Text := line.elim ['-'] (Nat.toDigits 10)

def renderFindingRowMarker (row : FindingRowMarker) : Text :=
  text "<!-- pr-agent:finding-row v=" ++ (markerVersion ++ (text " id=" ++ (row.id.value ++ (text " lens=" ++
    (sourceText row.lens ++ (text " sev=" ++ (severityText row.severity ++ (text " path=" ++
      (encodeURIComponent row.path ++ (text " line=" ++ (lineText row.line ++ (text " title=" ++
        (encodeURIComponent row.title ++ (renderReopens row.reopens ++ text " -->"))))))))))))))

def renderReceipt : FindingReceipt → Text
  | .duplicate id canonical =>
    text "<!-- pr-agent:receipt v=1 kind=duplicate id=" ++ id.value ++ text " canonical=" ++ canonical.value ++ text " -->"
  | .fixed id => text "<!-- pr-agent:receipt v=1 kind=fixed id=" ++ id.value ++ text " -->"
  | .dismissed id => text "<!-- pr-agent:receipt v=1 kind=dismissed id=" ++ id.value ++ text " -->"

end Render
end PrAgent.CommentMarkers
