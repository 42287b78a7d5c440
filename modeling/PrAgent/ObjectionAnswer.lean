import PrAgent.FindingInventory
import PrAgent.MarkerText
import PrAgent.PatternGlobal
import PrAgent.ReviewArtifacts
set_option autoImplicit false

namespace PrAgent.CommentMarkers

section Timestamp

-- `\d{4}-\d{2}-\d{2}T\d{2}:\d{2}:\d{2}`.
def timestampShape : List (Char → Bool) :=
  (text "0000-00-00T00:00:00").map fun shape => if shape = '0' then Char.isDigit else fun c => c = shape

def fits : List (Char → Bool) → Text → Option Text
  | [], s => some s
  | _ :: _, [] => none
  | allows :: shape, c :: s => if allows c then fits shape s else none

-- `USABLE_REVIEW_TIMESTAMP`; that `Date.parse` knows the day is left out.
def isUsableReviewTimestamp (value : Text) : Bool :=
  match fits timestampShape value with
  | none => false
  | some zone =>
    zone = ['Z'] ||
      (zone.head? = some '.' && (zone.drop 1).takeWhile Char.isDigit ≠ [] && (zone.drop 1).dropWhile Char.isDigit = ['Z'])

end Timestamp

section Marker

-- A comment that objects to a finding, as it stood at one time.
structure ObjectionRevision where
  commentId : Nat
  updatedAt : Text
  usable : isUsableReviewTimestamp updatedAt = true
  deriving DecidableEq

def renderObjectionAnswerMarker (revision : ObjectionRevision) : Text :=
  text "<!-- pr-agent:objection-answer v=1 c=" ++
    (Nat.toDigits 10 revision.commentId ++ (text " u=" ++ (revision.updatedAt ++ text " -->")))

-- A literal of an expression with the flag `i`.
def caseless : Text → Pattern Char
  | [] => .empty
  | c :: label => .seq (.one fun d => d.toLower = c.toLower) (caseless label)

-- A match of `OBJECTION_ANSWER_MARKER` that starts right here; the name ends in a word character.
def objectionAnswerAt : Text → Option (Unit × Text) :=
  (Pattern.literal (text "<!--")).skip <| spaces.skip <| (caseless (text "pr-agent:objection-answer")).skip fun rest =>
    if rest.head?.any isWord then none
    else ((Pattern.literal (text "-->")).untilFirst rest).map fun after => ((), after)

def withoutObjectionAnswerMarkers (body : Text) : Text := withoutMatches objectionAnswerAt body

def includes (body part : Text) : Bool := decide (part <:+: body)

def commentCarriesObjectionAnswer (body : Text) (revision : ObjectionRevision) : Bool :=
  includes body (renderObjectionAnswerMarker revision)

end Marker

section Answer

def verificationReplyStart : Text := text "**Verification reply**:"

def unauthorizedConcedeSentence : Text := text "A maintainer can dismiss this finding."

structure ObjectionDecision where
  concede : Bool
  revision : ObjectionRevision
  body : Text
  deriving DecidableEq

-- `fixedIn` is the commit of a verdict "fixed".
def objectionAnswerProse (decision : ObjectionDecision) (fixedIn : Option Text) (authorized : Bool) : Text :=
  let prose :=
    if verificationReplyStart.isPrefixOf decision.body then decision.body
    else verificationReplyStart ++ '\n' :: decision.body
  let withFix :=
    match fixedIn with
    | some commitSha => if includes prose commitSha then prose else prose ++ text "\n\nFixed in " ++ commitSha ++ ['.']
    | none => prose
  if decision.concede && !authorized && !includes withFix unauthorizedConcedeSentence then
    withFix ++ text "\n\n" ++ unauthorizedConcedeSentence
  else withFix

-- The digest is the start of a hash of the operation key and the work item.
def operationIntentMarker (digest : BoundedText hexDigit 24 24) : Text :=
  text "<!-- pr-agent:operation-intent " ++ (digest.text.toList ++ text " -->")

def objectionAnswerBody (redactReviewText : Text → Text) (decision : ObjectionDecision) (fixedIn : Option Text)
    (authorized : Bool) (operationMarker : Text) : Text :=
  let redacted := trimEnd (withoutObjectionAnswerMarkers (redactReviewText (objectionAnswerProse decision fixedIn authorized)))
  let withAnswer := redacted ++ '\n' :: renderObjectionAnswerMarker decision.revision
  if includes withAnswer operationMarker then withAnswer else withAnswer ++ '\n' :: operationMarker

structure ThreadReply where
  authorLogin : Option String
  body : Text
  deriving DecidableEq, Repr

-- Whether `selectFindingObjections` passes over a comment at its present revision.
def isAnswered (botLogin : String) (replies : List ThreadReply) (revision : ObjectionRevision) : Bool :=
  replies.any fun reply => isBotAuthor reply.authorLogin botLogin && commentCarriesObjectionAnswer reply.body revision

end Answer
end PrAgent.CommentMarkers
