import PrAgent.Lease
set_option autoImplicit false

namespace PrAgent

section Marker

-- What `parseProgressRevisionState` reads from the marker of a body.
structure ProgressRevisionState where
  revision : Nat
  workItemId : Option WorkItemId := none
  deriving DecidableEq, Repr

-- The comment under the summary sentinel, its revision marker apart from the rest of its body.
structure ProgressComment where
  marker : Option ProgressRevisionState
  body : String
  deriving DecidableEq, Repr

-- 0 to 6 are ticks, 7 concludes.
abbrev ProgressCommentRevision := Fin 8

instance revisions_nonempty : NeZero (8 : Nat) := ⟨by decide⟩

def withProgressRevisionComment (body : String) (revision : Nat) (workItemId : Option WorkItemId) : ProgressComment :=
  { marker := some { revision, workItemId }, body }

end Marker

section Record

-- The `progress_comment` row of a resource and lens.
structure ProgressRecord where
  workItemId : WorkItemId
  progressGeneration : Nat := 0
  progressRevision : Option Nat := none
  completed : Bool := false
  deriving DecidableEq, Repr

def transferProgressCommentOwnership (workItemId : WorkItemId) : Option ProgressRecord → ProgressRecord
  | none => { workItemId }
  | some row =>
    if row.workItemId = workItemId then row
    else { workItemId, progressGeneration := row.progressGeneration + 1 }

-- A row of another work item rejects the record.
def recordProgressStep (workItemId : WorkItemId) (revision : Nat) : Option ProgressRecord → Option ProgressRecord
  | none => some { workItemId, progressRevision := some revision, completed := true }
  | some row =>
    if row.workItemId = workItemId then some { row with progressRevision := some revision, completed := true } else none

def getProgressCommentOwner (row : Option ProgressRecord) : Option (WorkItemId × Nat) :=
  row.map fun row => (row.workItemId, row.progressGeneration)

def getProgressCommentRevision : Option ProgressRecord → Option ProgressRevisionState
  | none => none
  | some row =>
    if row.completed then row.progressRevision.map fun revision => { revision, workItemId := some row.workItemId } else none

end Record

section Decision

-- The revision a run has left behind, -1 when it has left none.
def revisionForRun (workItemId : Option WorkItemId) : Option ProgressRevisionState → Int
  | none => -1
  | some state => if state.workItemId = workItemId then state.revision else -1

def isForeignOwner (workItemId : Option WorkItemId) : Option (WorkItemId × Nat) → Bool
  | none => false
  | some (owner, _) => workItemId.isSome && decide (workItemId ≠ some owner)

-- Whether `prepareSummaryCommentAtRevision` goes on to the write.
def preparesWrite (workItemId : Option WorkItemId) (revision : ProgressCommentRevision) (shouldPublish : Bool)
    (currentComment : Option ProgressComment) (owner : Option (WorkItemId × Nat)) (stored : Option ProgressRevisionState) : Bool :=
  shouldPublish && !isForeignOwner workItemId owner &&
    !(currentComment.isSome && decide (revisionForRun workItemId (currentComment.bind ProgressComment.marker) ≥ revision.val)) &&
    !decide (revisionForRun workItemId stored > revision.val)

def ownsStub (workItemId : WorkItemId) (existing : ProgressComment) : Bool :=
  match existing.marker with
  | none => true
  | some rev => rev.workItemId = none || rev.workItemId = some workItemId

-- The notice that `publishCancelProgress` puts in the place of a stub of its own.
def renderReviewCancelledNotice (workItemId : WorkItemId) (notice : String) (existing : ProgressComment) : ProgressComment :=
  withProgressRevisionComment notice ((existing.marker.map ProgressRevisionState.revision).getD 0) (some workItemId)

end Decision

section Machine

inductive ProgressPhase
  | waiting
  | locked
  | found (current : Option ProgressComment)
  | owned (current : Option ProgressComment) (owner : Option (WorkItemId × Nat))
  | read (current : Option ProgressComment) (owner : Option (WorkItemId × Nat)) (stored : Option ProgressRevisionState)
  | prepared (current : Option ProgressComment)
  | recorded (current : Option ProgressComment)
  | written
  deriving DecidableEq, Repr

-- A call of `upsertSummaryCommentAtRevision`. An approval notice has no work item.
structure ProgressCall where
  workItemId : Option WorkItemId
  revision : ProgressCommentRevision
  body : String
  phase : ProgressPhase := .waiting
  deriving DecidableEq, Repr

inductive CancelPhase
  | waiting
  | owning (existing : ProgressComment)
  deriving DecidableEq, Repr

-- A run of `publishCancelProgress`.
structure CancelAck where
  workItemId : WorkItemId
  notice : String
  phase : CancelPhase := .waiting
  deriving DecidableEq, Repr

structure ProgressState where
  record : Option ProgressRecord := none
  comment : Option ProgressComment := none
  -- the call that holds the session lock
  lock : Option Nat := none
  calls : Table Nat ProgressCall := .empty
  acks : Table Nat CancelAck := .empty

inductive CallAction
  | acquire | find | readOwner | readRevision
  -- `approved`: what the approvals of the pull request say of a notice
  | prepare (approved : Bool)
  | record | write | finish
  -- a crash, a timeout or an error; the lock goes with the session
  | drop
  deriving DecidableEq, Repr

inductive AckAction
  -- `callId` names the tick that an ack without a stub of its own makes
  | read (callId : Nat)
  | edit
  | drop
  deriving DecidableEq, Repr

inductive ProgressEvent
  | transfer (workItemId : WorkItemId)
  | start (callId : Nat) (workItemId : Option WorkItemId) (revision : ProgressCommentRevision) (body : String)
  | call (callId : Nat) (action : CallAction)
  | cancel (ackId : Nat) (workItemId : WorkItemId) (notice : String)
  | ack (ackId : Nat) (action : AckAction)
  deriving DecidableEq, Repr

def ProgressState.setPhase (s : ProgressState) (callId : Nat) (call : ProgressCall) (phase : ProgressPhase) : ProgressState :=
  { s with calls := s.calls.set callId { call with phase } }

def ProgressState.hold (s : ProgressState) (callId : Nat) : ProgressState := { s with lock := some callId }

def ProgressState.store (s : ProgressState) (row : ProgressRecord) : ProgressState := { s with record := some row }

-- The call ends, and with it its session.
def ProgressState.leave (s : ProgressState) (callId : Nat) : ProgressState :=
  { s with calls := s.calls.erase callId, lock := if s.lock = some callId then none else s.lock }

def startCall (s : ProgressState) (callId : Nat) (call : ProgressCall) : Option ProgressState :=
  if s.calls.get? callId = none then some { s with calls := s.calls.set callId call } else none

-- `canPublishApprovalNotice` only lets a notice through while there is no progress record.
def shouldPublish (s : ProgressState) (call : ProgressCall) (approved : Bool) : Bool :=
  call.workItemId.isSome || approved && s.record.isNone

def prepareCall (s : ProgressState) (callId : Nat) (call : ProgressCall) (approved : Bool) (current : Option ProgressComment)
    (owner : Option (WorkItemId × Nat)) (stored : Option ProgressRevisionState) : ProgressState :=
  if preparesWrite call.workItemId call.revision (shouldPublish s call approved) current owner stored then
    s.setPhase callId call (if call.workItemId.isSome then .prepared current else .recorded current)
  else s.leave callId

def recordCall (s : ProgressState) (callId : Nat) (call : ProgressCall) (current : Option ProgressComment) : ProgressState :=
  match call.workItemId with
  | none => s.setPhase callId call (.recorded current)
  | some workItemId =>
    match recordProgressStep workItemId call.revision s.record with
    | none => s.leave callId
    | some row => (s.store row).setPhase callId call (.recorded current)

def writeCall (s : ProgressState) (callId : Nat) (call : ProgressCall) : ProgressState :=
  { s with
    comment := some (withProgressRevisionComment call.body call.revision call.workItemId)
    calls := s.calls.set callId { call with phase := .written } }

-- The second record, with the id of the comment. A conflict there throws after the write.
def finishCall (s : ProgressState) (callId : Nat) (call : ProgressCall) : ProgressState :=
  match call.workItemId with
  | none => s.leave callId
  | some workItemId =>
    match recordProgressStep workItemId call.revision s.record with
    | none => s.leave callId
    | some row => (s.store row).leave callId

def callStep (s : ProgressState) (callId : Nat) (call : ProgressCall) (action : CallAction) : Option ProgressState :=
  match action, call.phase with
  | .acquire, .waiting => if s.lock = none then some ((s.hold callId).setPhase callId call .locked) else none
  | .find, .locked => some (s.setPhase callId call (.found s.comment))
  | .readOwner, .found current => some (s.setPhase callId call (.owned current (getProgressCommentOwner s.record)))
  | .readRevision, .owned current owner =>
    some (s.setPhase callId call (.read current owner (getProgressCommentRevision s.record)))
  | .prepare approved, .read current owner stored => some (prepareCall s callId call approved current owner stored)
  | .record, .prepared current => some (recordCall s callId call current)
  | .write, .recorded _ => some (writeCall s callId call)
  | .finish, .written => some (finishCall s callId call)
  | .drop, _ => some (s.leave callId)
  | _, _ => none

def ackRead (s : ProgressState) (ackId callId : Nat) (ack : CancelAck) : Option ProgressState :=
  match s.comment.filter (ownsStub ack.workItemId) with
  | some existing => some { s with acks := s.acks.set ackId { ack with phase := .owning existing } }
  | none =>
    startCall { s with acks := s.acks.erase ackId } callId
      { workItemId := some ack.workItemId, revision := 0, body := ack.notice }

-- `editComment` runs without the session lock.
def ackEdit (s : ProgressState) (ackId : Nat) (ack : CancelAck) (existing : ProgressComment) : ProgressState :=
  { s with
    comment := some (renderReviewCancelledNotice ack.workItemId ack.notice existing)
    acks := s.acks.erase ackId }

def ackStep (s : ProgressState) (ackId : Nat) (ack : CancelAck) (action : AckAction) : Option ProgressState :=
  match action, ack.phase with
  | .read callId, .waiting => ackRead s ackId callId ack
  | .edit, .owning existing => some (ackEdit s ackId ack existing)
  | .drop, _ => some { s with acks := s.acks.erase ackId }
  | _, _ => none

def progressStep (s : ProgressState) : ProgressEvent → Option ProgressState
  | .transfer workItemId => some (s.store (transferProgressCommentOwnership workItemId s.record))
  | .start callId workItemId revision body => startCall s callId { workItemId, revision, body }
  | .call callId action => (s.calls.get? callId).bind fun call => callStep s callId call action
  | .cancel ackId workItemId notice =>
    if s.acks.get? ackId = none then some { s with acks := s.acks.set ackId { workItemId, notice } } else none
  | .ack ackId action => (s.acks.get? ackId).bind fun ack => ackStep s ackId ack action

-- Any record and any comment may stand there before the first call.
def startProgress (record : Option ProgressRecord) (comment : Option ProgressComment) : ProgressState := { record, comment }

end Machine
end PrAgent
