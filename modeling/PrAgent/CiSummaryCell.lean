import PrAgent.BacktrackPattern
import PrAgent.CiSummary
import PrAgent.SafeIntegers
set_option autoImplicit false

namespace PrAgent

abbrev Text := List Char

def text (literal : String) : Text := literal.toList

section Classes

-- `\s`: white space and line terminators.
def isSpace (c : Char) : Bool :=
  [9, 10, 11, 12, 13, 32, 160, 5760, 8232, 8233, 8239, 8287, 12288, 65279].contains c.toNat ||
    (8192 ≤ c.toNat && c.toNat ≤ 8202)

-- `\w`.
def isWord (c : Char) : Bool := c.isAlphanum || c = '_'

def isLineTerminator (c : Char) : Bool := [10, 13, 8232, 8233].contains c.toNat

def spaces : Pattern Char := .many (.one isSpace)

def trim (value : Text) : Text := ((value.dropWhile isSpace).reverse.dropWhile isSpace).reverse

end Classes

section Markers

inductive CiMarker
  | summary | action
  deriving DecidableEq, Repr

def CiMarker.name : CiMarker → Text
  | .summary => text "pr-agent:ci-summary"
  | .action => text "pr-agent:ci-action"

def openMarker (marker : CiMarker) : Pattern Char :=
  .seq (.literal (text "<!--")) (.seq spaces (.literal marker.name))

-- `\s+\w+=[^\s]+`.
def attributePattern : Pattern Char :=
  .seq (.some1 (.one isSpace)) (.seq (.some1 (.one isWord)) (.seq (.literal (text "=")) (.some1 (.one fun c => !isSpace c))))

def closeTag : Pattern Char := .seq spaces (.literal (text "-->"))

def endMarker (marker : CiMarker) : Pattern Char :=
  .seq (.literal (text "<!--")) (.seq spaces (.seq (.literal ('/' :: marker.name)) closeTag))

structure MarkerMatch where
  attributes : Text
  after : Text
  deriving DecidableEq, Repr

-- The first match of `CI_SUMMARY_CELL_RE` or of `CI_ACTION_MARKER_RE` that starts right here.
def markerAt (marker : CiMarker) (body : Text) : Option MarkerMatch :=
  ((openMarker marker).results body).findSome? fun afterName =>
    ((Pattern.many attributePattern).results afterName).findSome? fun afterAttributes =>
      (closeTag.results afterAttributes).findSome? fun content =>
        ((endMarker marker).untilFirst content).map fun after =>
          { attributes := afterName.take (afterName.length - afterAttributes.length), after }

structure BodyMatch where
  before : Text
  matched : Text
  attributes : Text
  after : Text
  deriving DecidableEq, Repr

def exec (marker : CiMarker) (body : Text) : Option BodyMatch :=
  (leftmost (markerAt marker) body).map fun (before, found) =>
    { before
      matched := (body.drop before.length).take (body.length - before.length - found.after.length)
      attributes := found.attributes
      after := found.after }

-- The text that a replacement template stands for. There is one capture.
def getSubstitution (found : BodyMatch) : Text → Text
  | '$' :: '0' :: '1' :: rest => found.attributes ++ getSubstitution found rest
  | '$' :: d :: rest =>
    if d = '$' then '$' :: getSubstitution found rest
    else if d = '&' then found.matched ++ getSubstitution found rest
    else if d.toNat = 96 then found.before ++ getSubstitution found rest
    else if d.toNat = 39 then found.after ++ getSubstitution found rest
    else if d = '1' then found.attributes ++ getSubstitution found rest
    else '$' :: getSubstitution found (d :: rest)
  | c :: rest => c :: getSubstitution found rest
  | [] => []

def replaceMarker (marker : CiMarker) (body template : Text) : Text :=
  match exec marker body with
  | none => body
  | some found => found.before ++ getSubstitution found template ++ found.after

end Markers

section Attributes

-- `raw.trim().split(/\s+/)`; parts without characters are no attributes.
def words (raw : Text) : List Text := (raw.splitOnP isSpace).filter fun part => part ≠ []

def attrsFromMatch (raw : Text) : List (Text × Text) :=
  (words raw).filterMap fun part =>
    let eq := part.idxOf '='
    if 0 < eq && eq < part.length then some (part.take eq, part.drop (eq + 1)) else none

-- A later attribute of one name overwrites an earlier one.
def attrOf (attrs : List (Text × Text)) (name : Text) : Option Text :=
  (attrs.reverse.find? fun attr => attr.1 = name).map Prod.snd

def ciProjectionFormat : Int := 1

def parseFormatAttr (attrs : List (Text × Text)) : Int :=
  match attrOf attrs (text "fmt") with
  | none => 0
  | some raw =>
    match safeNumber raw with
    | none => 0
    | some parsed => if 0 ≤ parsed then parsed else 0

structure CiSummaryMarker where
  head : Option Text
  version : Int
  format : Int
  deriving DecidableEq, Repr

def parseCiSummaryMarker (body : Text) : Option CiSummaryMarker :=
  (exec .summary body).map fun found =>
    let attrs := attrsFromMatch found.attributes
    { head := attrOf attrs (text "head")
      version := ((attrOf attrs (text "v")).bind safeNumber).getD 0
      format := parseFormatAttr attrs }

def renderCiActionPhrase (phrase : Text) : Text :=
  text "<!-- pr-agent:ci-action fmt=" ++ integerText ciProjectionFormat ++ text " -->" ++ phrase ++
    text "<!-- /pr-agent:ci-action -->"

end Attributes

section Legacy

def knownReviewActionCiPhrases : List Text :=
  [text "No CI checks ran on this head", text "CI has not started", text "CI is unavailable", text "CI is pending",
    text "CI is passing", text "CI is failing"]

def atLineEnd : Text → Bool
  | [] => true
  | c :: _ => isLineTerminator c

-- `>\s*\[!NOTE\]\s*$` right here: what follows it.
def noteLineAt (body : Text) : Option Text :=
  ((Pattern.seq (.literal (text ">")) (.seq spaces (.seq (.literal (text "[!NOTE]")) spaces))).results body).find? atLineEnd

-- Only at the start of a line.
def noteLineFrom : Bool → Nat → Text → Option (Nat × Text)
  | _, _, [] => none
  | lineStart, start, c :: rest =>
    match if lineStart then noteLineAt (c :: rest) else none with
    | some content => some (start, content)
    | none => noteLineFrom (isLineTerminator c) (start + 1) rest

-- The lines of a text with their positions.
def linesFrom (start : Nat) (lines : List Text) : List (Nat × Text) :=
  match lines with
  | [] => []
  | line :: rest => (start, line) :: linesFrom (start + line.length + 1) rest

def quotedLines (rest : Text) : List (Nat × Text) :=
  (linesFrom 0 (rest.splitOnP isLineTerminator)).filter fun line => line.2.head? = some '>'

-- How far the quote goes on: a gap ends it, unless there is a `>` in the gap.
def quoteEnd (rest : Text) : List (Nat × Text) → Nat → Nat
  | [], stop => stop
  | (index, line) :: more, stop =>
    if stop + 1 < index && !((rest.drop stop).take (index - stop)).contains '>' then stop
    else quoteEnd rest more (index + line.length)

structure BodySpan where
  before : Text
  inside : Text
  after : Text
  deriving DecidableEq, Repr

def firstNoteAlertBody (body : Text) : Option BodySpan :=
  (noteLineFrom true 0 body).bind fun (start, rest) =>
    if quotedLines rest = [] then none
    else
      let stop := body.length - rest.length + quoteEnd rest (quotedLines rest) 0
      some
        { before := body.take start
          inside := (body.drop start).take (stop - start)
          after := (body.drop start).drop (stop - start) }

-- `segment.indexOf(phrase)` with the texts around it.
def splitAtPhrase (segment phrase : Text) : Option (Text × Text) :=
  leftmost (fun rest => if phrase <+: rest then some (rest.drop phrase.length) else none) segment

def legacyActionCiPhraseSpan (body : Text) : Option BodySpan :=
  (firstNoteAlertBody body).bind fun note =>
    knownReviewActionCiPhrases.findSome? fun phrase =>
      (splitAtPhrase note.inside phrase).map fun (before, after) =>
        { before := note.before ++ before, inside := phrase, after := after ++ note.after }

def replaceActionPhrase (body phrase : Text) : Text :=
  if (exec .action body).isSome then replaceMarker .action body (renderCiActionPhrase phrase)
  else
    match legacyActionCiPhraseSpan body with
    | none => body
    | some legacy => legacy.before ++ renderCiActionPhrase phrase ++ legacy.after

end Legacy

section Update

structure CiProjectionBodyOptions where
  supersededHead : Bool := false
  actionPhrase : Option Text := none
  deriving DecidableEq, Repr

inductive CiProjectionBodyDecision
  | reject | current | update
  deriving DecidableEq, Repr

def decideCiProjectionBodyUpdate (body headSha : Text) (version : Int) (options : CiProjectionBodyOptions) :
    CiProjectionBodyDecision :=
  match parseCiSummaryMarker body with
  | none => .reject
  | some marker =>
    if marker.head ≠ none ∧ marker.head ≠ some headSha then if options.supersededHead then .update else .reject
    else if marker.version > version then .reject
    else if marker.version < version then .update
    else if marker.format < ciProjectionFormat then .update
    else
      match exec .action body with
      | some action => if parseFormatAttr (attrsFromMatch action.attributes) < ciProjectionFormat then .update else .current
      | none => if legacyActionCiPhraseSpan body ≠ none then .update else .current

inductive CiProjectionBodyKind
  | updated | current
  deriving DecidableEq, Repr

structure ApplyCiProjectionBodyResult where
  body : Text
  kind : CiProjectionBodyKind
  deriving DecidableEq, Repr

def withActionPhrase (body : Text) (options : CiProjectionBodyOptions) : Text :=
  match options.actionPhrase with
  | none => body
  | some phrase => if phrase = [] then body else replaceActionPhrase body phrase

def applyCiProjectionBodyUpdate (body nextCell headSha : Text) (version : Int) (options : CiProjectionBodyOptions) :
    Option ApplyCiProjectionBodyResult :=
  match decideCiProjectionBodyUpdate body headSha version options with
  | .reject => none
  | .current => some { body, kind := .current }
  | .update =>
    let next := withActionPhrase (replaceMarker .summary body nextCell) options
    if next = body then some { body, kind := .current } else some { body := next, kind := .updated }

end Update

section Render

def escapeHtmlChar (c : Char) : Text :=
  if c = '&' then text "&amp;" else if c = '<' then text "&lt;" else if c = '>' then text "&gt;" else [c]

def escapeTableHtml (value : Text) : Text := value.flatMap escapeHtmlChar

def escapeAttrChar (c : Char) : Text :=
  if c = '"' then text "&quot;" else if c.toNat = 39 then text "&#39;" else [c]

def escapeHtmlAttr (value : Text) : Text := (escapeTableHtml value).flatMap escapeAttrChar

-- `\r?\n` to a blank.
def newlinesToBlanks : Text → Text
  | [] => []
  | '\r' :: '\n' :: rest => ' ' :: newlinesToBlanks rest
  | '\n' :: rest => ' ' :: newlinesToBlanks rest
  | c :: rest => c :: newlinesToBlanks rest

def escapeTablePlainCell (value : Text) : Text := escapeTableHtml (newlinesToBlanks value)

def renderTableStrong (value : Text) : Text := text "<strong>" ++ escapeTableHtml value ++ text "</strong>"

def renderTableLink (title href : Text) : Text :=
  text "<strong><a href=\"" ++ escapeHtmlAttr href ++ text "\">" ++ escapeTableHtml title ++ text "</a></strong>"

def renderTableEm (value : Text) : Text := text "<em>" ++ escapeTableHtml value ++ text "</em>"

structure CiSummarySections where
  headline : Text
  failures : List CiFailureDetail
  permissionNote : Option Text

def selectCiSummarySections (summary : CiSummary) : CiSummarySections where
  headline := text summary.headline
  failures := if summary.status = .failing && summary.failures ≠ [] then summary.failures else []
  permissionNote := (summary.permissionNote.map fun note => trim (text note)).filter fun note => note ≠ []

def renderFailure (failure : CiFailureDetail) : Text :=
  (match failure.url with
    | some url => renderTableLink (text failure.name) (text url)
    | none => renderTableStrong (text failure.name)) ++
    text "<br>" ++ escapeTablePlainCell (text failure.reason) ++ text "<br>" ++ renderTableEm (text failure.fixHint)

def renderCellText (summary : CiSummary) : Text :=
  let sections := selectCiSummarySections summary
  (text "<br><br>").intercalate
    (escapeTablePlainCell sections.headline :: sections.failures.map renderFailure ++
      (sections.permissionNote.map renderTableEm).toList)

def ciSummaryCellStart (headSha : Option Text) (version : Option Int) : Text :=
  match headSha with
  | none => text "<!-- pr-agent:ci-summary -->"
  | some headSha =>
    if headSha = [] then text "<!-- pr-agent:ci-summary -->"
    else
      match version with
      | some version =>
        text "<!-- pr-agent:ci-summary head=" ++ headSha ++ text " v=" ++ integerText version ++ text " fmt=" ++
          integerText ciProjectionFormat ++ text " -->"
      | none =>
        text "<!-- pr-agent:ci-summary head=" ++ headSha ++ text " fmt=" ++ integerText ciProjectionFormat ++ text " -->"

def ciSummaryCellEnd : Text := text "<!-- /pr-agent:ci-summary -->"

def renderCiSummaryCell (summary : CiSummary) (headSha : Option Text) (version : Option Int) : Text :=
  ciSummaryCellStart headSha version ++ renderCellText summary ++ ciSummaryCellEnd

end Render
end PrAgent
