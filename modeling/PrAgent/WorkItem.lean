import PrAgent.Lease
set_option autoImplicit false

namespace PrAgent

inductive WorkSource
  | auto | slash
  deriving DecidableEq, Repr

inductive ReviewLens
  | review | reviewSecurity | reviewQuality | reviewTests
  deriving DecidableEq, Repr

inductive WorkStatus
  | queued | running | superseded | cancelled | completed | failed
  deriving DecidableEq, Repr

def isTerminalWorkStatus : WorkStatus → Bool
  | .queued | .running => false
  | .superseded | .cancelled | .completed | .failed => true

-- `DEFERRED_HEAD_SHA` stands for a head the worker looks up itself.
inductive HeadSha
  | deferred
  | sha (value : Nat)
  deriving DecidableEq, Repr

inductive ReviewCancelAttribution
  | user (login : String)
  | merged
  | closed
  deriving DecidableEq, Repr

def reviewCancelLastError : ReviewCancelAttribution → String
  | .merged => "Pull request merged"
  | .closed => "Pull request closed"
  | .user _ => "Cancelled by slash /cancel"

inductive ReplacementState
  | pendingEnqueue | enqueued
  deriving DecidableEq, Repr

structure StaleHeadReplacement where
  replacementWorkItemId : WorkItemId
  state : ReplacementState
  deriving DecidableEq, Repr

abbrev WebhookEventId := Nat

structure PushFollowUp where
  webhookEventId : WebhookEventId
  replacementWorkItemId : Option WorkItemId := none
  state : Option ReplacementState := none
  deriving DecidableEq, Repr

-- The keys of the jsonb `payload` column that transitions and reschedules read or write.
structure WorkPayload where
  staleHeadReplacement : Option StaleHeadReplacement := none
  pushFollowUp : Option PushFollowUp := none
  staleHeadRescheduled : Option Bool := none
  publishDegraded : Option Bool := none
  cancelAttribution : Option ReviewCancelAttribution := none
  deriving DecidableEq, Repr

-- `payload || patch`.
def WorkPayload.merge (payload patch : WorkPayload) : WorkPayload where
  staleHeadReplacement := patch.staleHeadReplacement.or payload.staleHeadReplacement
  pushFollowUp := patch.pushFollowUp.or payload.pushFollowUp
  staleHeadRescheduled := patch.staleHeadRescheduled.or payload.staleHeadRescheduled
  publishDegraded := patch.publishDegraded.or payload.publishDegraded
  cancelAttribution := patch.cancelAttribution.or payload.cancelAttribution

-- `attemptLimit` is no column: it is the limit under which the last attempt was admitted.
structure WorkItem where
  source : WorkSource
  reviewLens : Option ReviewLens
  headSha : HeadSha
  status : WorkStatus
  cancelRequestedAt : Option Nat := none
  startedAt : Option Nat := none
  completedAt : Option Nat := none
  updatedAt : Nat
  attemptCount : Nat := 0
  attemptLimit : Option Nat := none
  executionEpoch : Option Nat := none
  githubPreflightFailureCount : Nat := 0
  supersededBy : Option WorkItemId := none
  lastError : Option String := none
  webhookEventId : Option WebhookEventId := none
  payload : WorkPayload := {}
  deriving DecidableEq, Repr

abbrev WorkItems := Table WorkItemId WorkItem

structure WorkState extends LeaseState where
  items : WorkItems

structure TransitionSelector where
  id : Option WorkItemId := none
  resourceKey : Option ResourceKey := none
  type : Option WorkType := none
  reviewLens : Option ReviewLens := none
  source : Option WorkSource := none

-- `fence` is the epoch of a lease fence, `none` for the unleased one; `also` is the caller's extra predicate.
structure TransitionSpec where
  selector : TransitionSelector
  fromStatuses : List WorkStatus
  toStatus : WorkStatus
  unlessCancelRequested : Bool := false
  fence : Option Nat
  also : WorkItemId → WorkItem → Bool := fun _ _ => true
  lastError : Option String := none
  requestCancel : Bool := false
  payloadPatch : WorkPayload := {}
  executionEpoch : Option (Option Nat) := none
  keepCompletedAt : Bool := false

inductive TargetStamp
  | started | completed | none

def targetStamp : WorkStatus → TargetStamp
  | .queued | .superseded => .none
  | .running => .started
  | .cancelled | .completed | .failed => .completed

variable (leaseKeyOf : WorkItemId → LeaseKey)

def TransitionSelector.selects (selector : TransitionSelector) (id : WorkItemId) (row : WorkItem) : Bool :=
  selector.id.all (· = id) && selector.resourceKey.all (· = (leaseKeyOf id).resourceKey) &&
    selector.type.all (· = (leaseKeyOf id).workType) && selector.reviewLens.all (some · = row.reviewLens) &&
    selector.source.all (· = row.source)

-- The WHERE clause. A statement that stamps `execution_epoch` carries no lease fence of its own.
def TransitionSpec.selects (spec : TransitionSpec) (s : WorkState) (id : WorkItemId) (row : WorkItem) : Bool :=
  spec.selector.selects leaseKeyOf id row && row.status ∈ spec.fromStatuses &&
    (!spec.unlessCancelRequested || row.cancelRequestedAt.isNone) && spec.also id row &&
    (spec.executionEpoch.isSome || s.fenced id spec.fence)

-- The SET clause.
def TransitionSpec.assign (spec : TransitionSpec) (now : Nat) (row : WorkItem) : WorkItem :=
  { row with
    status := spec.toStatus
    startedAt := match targetStamp spec.toStatus with
      | .started => row.startedAt.or (some now)
      | .completed | .none => row.startedAt
    executionEpoch := (spec.executionEpoch.getD none).or row.executionEpoch
    cancelRequestedAt := if spec.requestCancel then row.cancelRequestedAt.or (some now) else row.cancelRequestedAt
    lastError := spec.lastError.or row.lastError
    completedAt := match targetStamp spec.toStatus with
      | .completed => if spec.keepCompletedAt then row.completedAt.or (some now) else some now
      | .started | .none => row.completedAt
    payload := row.payload.merge spec.payloadPatch
    updatedAt := now }

-- The updated rows, as they were before, and the state after the UPDATE.
def transition (s : WorkState) (spec : TransitionSpec) : List (WorkItemId × WorkItem) × WorkState :=
  (s.items.select (spec.selects leaseKeyOf s),
    { s with items := s.items.updateWhere (spec.selects leaseKeyOf s) fun _ row => spec.assign s.now row })

theorem transition_items (s : WorkState) (spec : TransitionSpec) (id : WorkItemId) :
    (transition leaseKeyOf s spec).2.items.get? id =
      (s.items.get? id).map fun row => if spec.selects leaseKeyOf s id row then spec.assign s.now row else row :=
  Table.get?_updateWhere ..

@[simp] theorem transition_leases (s : WorkState) (spec : TransitionSpec) :
    (transition leaseKeyOf s spec).2.toLeaseState = s.toLeaseState := rfl

-- A lease fence that does not hold leaves the statement without a row to update.
theorem selects_unfenced {s : WorkState} {spec : TransitionSpec} {id : WorkItemId} {row : WorkItem} {epoch : Nat}
    (stamps : spec.executionEpoch = none) (leased : spec.fence = some epoch) (lost : s.held id epoch = false) :
    spec.selects leaseKeyOf s id row = false := by
  simp [TransitionSpec.selects, LeaseState.fenced, stamps, leased, lost]

end PrAgent
