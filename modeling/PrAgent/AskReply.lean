import PrAgent.Handler
import PrAgent.PublishProtocol
set_option autoImplicit false

namespace PrAgent

abbrev CommentId := Nat
abbrev Login := Nat

inductive ReplyTargetKind
  | prConversation | inlineReviewThread
  deriving DecidableEq, Repr

inductive ReplyTarget
  | prConversation
  | inlineReviewThread (inReplyToCommentId : CommentId)
  deriving DecidableEq, Repr

def ReplyTarget.kind : ReplyTarget → ReplyTargetKind
  | .prConversation => .prConversation
  | .inlineReviewThread _ => .inlineReviewThread

def ReplyTarget.inReplyToId : ReplyTarget → Option CommentId
  | .prConversation => none
  | .inlineReviewThread inReplyToCommentId => some inReplyToCommentId

-- The fields of an ask work item that its reply depends on.
structure AskWorkItem where
  id : WorkItemId
  commentId : CommentId
  replyTarget : ReplyTarget
  deriving DecidableEq, Repr

-- The keys `ask:reply:<resource>[:<comment>]` and `ask:failure_reply:<resource>:<comment>` of one resource, numbered.
def askReplyOperationKey : Option CommentId → OperationKey
  | none => 0
  | some commentId => 2 * commentId + 2

def askFailureReplyOperationKey (commentId : CommentId) : OperationKey := 2 * commentId + 1

def AskWorkItem.answerKey (item : AskWorkItem) : OperationKey := askReplyOperationKey (some item.commentId)

def AskWorkItem.failureKey (item : AskWorkItem) : OperationKey := askFailureReplyOperationKey item.commentId

-- `operationKey.startsWith("ask:reply:<resource>")`.
def isAskReplyKey (operationKey : OperationKey) : Bool := operationKey % 2 = 0

def askReplyLookupKeys (operationKey : OperationKey) : List OperationKey :=
  let scopedKey := askReplyOperationKey none
  if operationKey = scopedKey then [operationKey]
  else if isAskReplyKey operationKey then [operationKey, scopedKey]
  else [operationKey]

-- A comment of the pull request. `marker` is the key whose operation marker for this work item the body contains.
structure AskComment where
  id : CommentId
  kind : ReplyTargetKind
  authorLogin : Login
  inReplyToId : Option CommentId
  marker : Option OperationKey
  deriving DecidableEq, Repr

structure CommentListing where
  comments : List AskComment
  truncated : Bool
  deriving DecidableEq, Repr

-- Where in the source a GitHub read is awaited.
inductive AskSite
  -- the `catch` of `publishAskAnswer`, after the inline reply failed
  | inlineFallback (operationKey : OperationKey)
  -- `recover` of `publishOnce`
  | recover
  -- `recoverDeliveredAskReplyCommentId`, called by an attempt or by the terminal-failure handler
  | delivered
  | failureDecision
  deriving DecidableEq, Repr

inductive AskOp
  | store (operationKey : OperationKey) (op : PublishOp CommentId)
  | getOperationIntent (operationKey : OperationKey)
  | completed
  | record
  | getBotIdentity (site : AskSite)
  | listComments (site : AskSite) (kind : ReplyTargetKind)
  | replyAt (target : ReplyTarget) (operationKey : OperationKey)
  -- the agent run, with the discussion it loads and the usage it records
  | runAskRun

def askInterface : Interface where
  Op := AskOp
  Err := Thrown
  Ans
    | .store _ op => (publishInterface CommentId).Ans op
    | .getOperationIntent _ => Option (OperationIntent CommentId)
    | .completed => Bool
    | .record | .runAskRun => Unit
    | .getBotIdentity _ => Login
    | .listComments .. => CommentListing
    | .replyAt .. => CommentId

abbrev AskProgram (α : Type) := Program askInterface α

def await (op : AskOp) : AskProgram (askInterface.Ans op) := Program.perform (I := askInterface) op

-- `publishOnce` of an unleased caller without an abort signal: its statements run on the database, and the two
-- closures are programs of their own.
def publishHandler (operationKey : OperationKey) (mutate : AskProgram (Unknown CommentId))
    (recover : AskProgram (Option (Recovery CommentId))) :
    (op : PublishOp CommentId) → AskProgram (Except Thrown ((publishInterface CommentId).Ans op))
  | .aborted => .done (.ok none)
  | .mutate => mutate.attempt
  | .recover _ _ _ => recover.attempt
  | op => (await (.store operationKey op)).attempt

def publishOnce (params : PublishOnceParams CommentId) (mutate : AskProgram (Unknown CommentId))
    (recover : AskProgram (Option (Recovery CommentId))) : AskProgram (Unknown CommentId) :=
  ((publishOnceBody params).handle (publishHandler params.operationKey mutate recover)).bind
    (Program.ofExcept (I := askInterface))

def findCommentIdByMarker (comments : List AskComment) (marker : OperationKey) (predicate : AskComment → Bool) :
    Option CommentId :=
  (comments.reverse.find? fun comment => comment.marker = some marker && predicate comment).map AskComment.id

structure RecoveredAskReply where
  commentId : CommentId
  targetKind : ReplyTargetKind
  deriving DecidableEq, Repr

-- With an operation key the source returns before it compares bodies with the question.
def findExistingAskReplyComment (site : AskSite) (replyTarget : ReplyTarget) (botLogin : Login)
    (operationKey : OperationKey) : AskProgram (Option RecoveredAskReply) := do
  let listing : CommentListing ← await (.listComments site replyTarget.kind)
  let commentId := findCommentIdByMarker listing.comments operationKey fun comment =>
    comment.authorLogin = botLogin &&
      (replyTarget.kind ≠ .inlineReviewThread || comment.inReplyToId = replyTarget.inReplyToId)
  pure (commentId.map fun commentId => { commentId, targetKind := replyTarget.kind })

section Source

variable (item : AskWorkItem)

def findAskReplyByKeys (site : AskSite) (botLogin : Login) : List OperationKey → AskProgram (Option RecoveredAskReply)
  | [] => pure none
  | key :: keys => do
    let primary ← findExistingAskReplyComment site item.replyTarget botLogin key
    match primary with
    | some reply => pure (some reply)
    | none =>
      if item.replyTarget.kind = .prConversation then findAskReplyByKeys site botLogin keys
      else
        let conversation ← findExistingAskReplyComment site .prConversation botLogin key
        match conversation with
        | some reply => pure (some reply)
        | none => findAskReplyByKeys site botLogin keys

def findAskReplyOnAnyTarget (site : AskSite) (botLogin : Login) (operationKey : OperationKey) :
    AskProgram (Option RecoveredAskReply) :=
  findAskReplyByKeys item site botLogin (askReplyLookupKeys operationKey)

def findInlineReplyByKeys (site : AskSite) (botLogin : Login) :
    List OperationKey → AskProgram (Option RecoveredAskReply)
  | [] => pure none
  | key :: keys => do
    let recovered ← findExistingAskReplyComment site item.replyTarget botLogin key
    match recovered with
    | some reply => pure (some reply)
    | none => findInlineReplyByKeys site botLogin keys

-- The `catch` block: what becomes of a reply in the review thread that failed.
def recoverInlineReply (operationKey : OperationKey) (error : Thrown) : AskProgram RecoveredAskReply := do
  if item.replyTarget.kind ≠ .inlineReviewThread then throw error
  else
    let botLogin : Login ← await (.getBotIdentity (.inlineFallback operationKey))
    let recovered ← findInlineReplyByKeys item (.inlineFallback operationKey) botLogin (askReplyLookupKeys operationKey)
    match recovered with
    | some reply => pure reply
    | none =>
      if !isKnownNoAcceptanceMutationError error then throw error
      else
        let fallback : CommentId ← await (.replyAt .prConversation operationKey)
        pure { commentId := fallback, targetKind := .prConversation }

def publishAskAnswer (operationKey : OperationKey) : AskProgram RecoveredAskReply := do
  let posted : Except Thrown CommentId ← (await (.replyAt item.replyTarget operationKey)).attempt
  match posted with
  | .ok commentId => pure { commentId, targetKind := item.replyTarget.kind }
  | .error error => recoverInlineReply item operationKey error

-- The `mutate` and `recover` closures of the answer and of the failure notice: the same but for the key.
def mutateReply (operationKey : OperationKey) : AskProgram (Unknown CommentId) := do
  let published ← publishAskAnswer item operationKey
  pure (.value published.commentId)

def recoverReply (operationKey : OperationKey) : AskProgram (Option (Recovery CommentId)) := do
  let botLogin : Login ← await (.getBotIdentity .recover)
  let recovered ← findAskReplyOnAnyTarget item .recover botLogin operationKey
  pure (recovered.map fun reply => { value := .value reply.commentId })

def decodePostedReply : Unknown CommentId → Except Thrown (Unknown CommentId)
  | .value commentId => .ok (.value commentId)
  | .undefined | .null => .error { message := "invalid posted reply" }

def answerParams : PublishOnceParams CommentId :=
  { workItemId := item.id, operationKey := item.answerKey, leaseEpoch := none, recovers := true
    decodeResult := some decodePostedReply
    reconcileDetail := .ofResult fun _ => []
    isKnownNoAcceptanceError := some isKnownNoAcceptanceMutationError }

def failureParams : PublishOnceParams CommentId :=
  { workItemId := item.id, operationKey := item.failureKey, leaseEpoch := none, recovers := true
    isKnownNoAcceptanceError := some isKnownNoAcceptanceMutationError }

def finalizeParams : PublishOnceParams CommentId :=
  { workItemId := item.id, operationKey := item.answerKey, leaseEpoch := none, recovers := false }

-- A numeric `__result.commentId`.
def askReplyCommentIdFromIntentDetail (intent : Option (OperationIntent CommentId)) : Option CommentId :=
  (intent.bind fun row => row.detail.result).join

-- `adopt` of the publish context, for the answer's key.
def adopt (commentId : CommentId) : AskProgram Unit := do
  let key := item.answerKey
  let intent : Option (OperationIntent CommentId) ← await (.getOperationIntent key)
  match intent with
  | none =>
    let _ ← await (.store key (.persist { result := some (some commentId) }))
    pure ()
  | some row =>
    if (askReplyCommentIdFromIntentDetail (some row)).isSome then pure ()
    else if row.status = .outcomeUnknown then
      let _ ← await (.store key (.reconcile ⟨item.id, key⟩ item.id none .reconciled none
        { result := some (some commentId), recoveredAfterMutating := some true }))
      pure ()
    else if row.status = .pending then
      let _ ← await (.store key (.merge { result := some (some commentId) }))
      pure ()
    else pure ()

inductive AskReplyRecovery
  | recovered (commentId : CommentId)
  | outcomeUnknown
  deriving DecidableEq, Repr

def recoverDeliveredAskReplyCommentId (site : AskSite) : AskProgram (Option AskReplyRecovery) := do
  let intent : Option (OperationIntent CommentId) ← await (.getOperationIntent item.answerKey)
  match askReplyCommentIdFromIntentDetail intent with
  | some stashed => pure (some (.recovered stashed))
  | none =>
    match intent with
    | none => pure none
    | some row =>
      if row.status ≠ .pending ∧ row.status ≠ .outcomeUnknown then pure none
      else
        let botLogin : Login ← await (.getBotIdentity site)
        let recovered ← findAskReplyOnAnyTarget item site botLogin item.answerKey
        match recovered with
        | none =>
          if row.status = .outcomeUnknown ∨ row.detail.mutating = some true then pure (some .outcomeUnknown)
          else pure none
        | some reply =>
          adopt item reply.commentId
          pure (some (.recovered reply.commentId))

inductive AskDegradationReason
  | replyRecoveryDegraded | replyOutcomeUnknown | publishRecordFailed
  deriving DecidableEq, Repr

inductive AskOutcome
  | completed (degradation : List AskDegradationReason)
  -- what the terminal-failure handler comes to
  | failureReplySkipped | failureReplyPublished
  deriving DecidableEq, Repr

-- The publish record, whose failure only degrades the completion.
def recordAskReply (degraded : AskDegradationReason) : AskProgram AskOutcome := do
  let recorded : Except Thrown Unit ← (await .record).attempt
  match recorded with
  | .ok _ => pure (.completed [])
  | .error _ => pure (.completed [degraded])

def finalizeAskReplyPublish (commentId : CommentId) : AskProgram AskOutcome := do
  let _ ← publishOnce (finalizeParams item) (pure (.value commentId)) (pure none)
  recordAskReply .replyRecoveryDegraded

def execute : AskProgram AskOutcome := do
  let published : Bool ← await .completed
  if published then pure (.completed [])
  else
    let recovery ← recoverDeliveredAskReplyCommentId item .delivered
    match recovery with
    | some (.recovered commentId) => finalizeAskReplyPublish item commentId
    | some .outcomeUnknown => pure (.completed [.replyOutcomeUnknown])
    | none =>
      let _ ← await .runAskRun
      let published : Bool ← await .completed
      if published then pure (.completed [])
      else
        let _ ← publishOnce (answerParams item) (mutateReply item item.answerKey) (recoverReply item item.answerKey)
        recordAskReply .publishRecordFailed

def onTerminalFailure : AskProgram AskOutcome := do
  let published : Bool ← await .completed
  if published then pure .failureReplySkipped
  else
    let recovery ← recoverDeliveredAskReplyCommentId item .failureDecision
    match recovery with
    | some (.recovered _) => pure .failureReplySkipped
    | some .outcomeUnknown | none =>
      let _ ← publishOnce (failureParams item) (mutateReply item item.failureKey) (recoverReply item item.failureKey)
      pure .failureReplyPublished

end Source

-- How the environment answers one operation.
inductive AskReply
  | store (reply : PublishReply CommentId)
  | served
  -- a failed query, before or after it took effect
  | failed (applied : Bool)
  -- a listing: complete, or truncated and without these comments
  | listed (dropped : Option (List CommentId))
  -- the comment is accepted and its id arrives
  | posted (commentId : CommentId)
  -- the comment is accepted and an ambiguous error arrives
  | lost (commentId : CommentId) (error : Thrown)
  -- nothing is accepted and this error arrives
  | refused (error : Thrown)

structure AskState where
  db : PublishState CommentId
  -- a completed `ask_reply` publish record
  recorded : Bool
  -- the work item is marked failed; only then does the handler run, and no attempt starts after it
  failed : Bool
  comments : List AskComment

inductive AskTask
  | attempt | terminalFailure
  deriving DecidableEq, Repr

inductive AskMove
  | markFailed
  -- somebody else comments
  | comment (comment : AskComment)
  deriving DecidableEq, Repr

section Semantics

variable (item : AskWorkItem) (bot : Login) (leaseKeyOf : WorkItemId → LeaseKey)

def query {α : Type} (reply : AskReply) (s : AskState) (effect : α × AskState) :
    Option (Except Thrown α × AskState) :=
  match reply with
  | .served => some (.ok effect.1, effect.2)
  | .failed applied => some (.error .database, if applied then effect.2 else s)
  | _ => none

def AskState.listing (s : AskState) (kind : ReplyTargetKind) (dropped : Option (List CommentId)) : CommentListing :=
  { comments := s.comments.filter fun comment => comment.kind = kind && comment.id ∉ dropped.getD []
    truncated := dropped.isSome }

def AskState.post (s : AskState) (target : ReplyTarget) (operationKey : OperationKey) (commentId : CommentId) :
    AskState :=
  { s with
    comments := s.comments ++
      [{ id := commentId, kind := target.kind, authorLogin := bot, inReplyToId := target.inReplyToId
         marker := some operationKey }] }

def AskState.fresh (s : AskState) (commentId : CommentId) : Bool := s.comments.all fun comment => comment.id ≠ commentId

def askAct (op : AskOp) (reply : AskReply) (s : AskState) : Option (Except Thrown (askInterface.Ans op) × AskState) :=
  match op with
  | .store operationKey op =>
    match reply with
    | .store reply =>
      (publishAct leaseKeyOf ⟨item.id, none, operationKey⟩ op reply s.db).map fun (answer, db) => (answer, { s with db })
    | _ => none
  | .getOperationIntent operationKey => query reply s (s.db.intents.get? ⟨item.id, operationKey⟩, s)
  | .completed => query reply s (s.recorded, s)
  | .record => query reply s ((), { s with recorded := true })
  | .getBotIdentity _ =>
    match reply with
    | .served => some (.ok bot, s)
    | .refused error => some (.error error, s)
    | _ => none
  | .listComments _ kind =>
    match reply with
    | .listed dropped => some (.ok (s.listing kind dropped), s)
    | .refused error => some (.error error, s)
    | _ => none
  | .replyAt target operationKey =>
    match reply with
    | .posted commentId => if s.fresh commentId then some (.ok commentId, s.post bot target operationKey commentId) else none
    | .lost commentId error =>
      if s.fresh commentId && !isKnownNoAcceptanceMutationError error then
        some (.error error, s.post bot target operationKey commentId)
      else none
    | .refused error => some (.error error, s)
    | _ => none
  | .runAskRun =>
    match reply with
    | .served => some (.ok (), s)
    | .refused error => some (.error error, s)
    | _ => none

def askStarts (s : AskState) : AskTask → Bool
  | .attempt => !s.failed
  | .terminalFailure => s.failed

def askMove (move : AskMove) (s : AskState) : Option AskState :=
  match move with
  | .markFailed => some { s with failed := true }
  | .comment comment =>
    if comment.authorLogin ≠ bot ∧ s.fresh comment.id then some { s with comments := s.comments ++ [comment] } else none

-- One work item: its attempts and its terminal-failure handler, one at a time.
def askSystem : System Unit askInterface AskState AskTask AskReply AskMove AskOutcome where
  program
    | .attempt => execute item
    | .terminalFailure => onTerminalFailure item
  starts := fun s _ task => askStarts s task
  act := fun _ => askAct item bot leaseKeyOf
  ends := fun _ _ s => s
  move := askMove bot

-- The comments posted for one key of the work item.
def AskState.replies (s : AskState) (operationKey : OperationKey) : List AskComment :=
  s.comments.filter fun comment => comment.authorLogin = bot && comment.marker = some operationKey

end Semantics
end PrAgent
