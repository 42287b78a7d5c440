import PrAgent.WorkItem
set_option autoImplicit false

namespace PrAgent

variable (leaseKeyOf : WorkItemId → LeaseKey)

structure WorkClaim where
  startedAt : Option Nat
  attemptCount : Nat
  resumed : Bool
  deriving DecidableEq, Repr

def claimSpec (id : WorkItemId) (leaseEpoch : Option Nat) : TransitionSpec where
  selector := { id := some id }
  fromStatuses := [.queued, .running]
  toStatus := .running
  unlessCancelRequested := true
  fence := leaseEpoch
  executionEpoch := some leaseEpoch

def claimWorkForExecution (s : WorkState) (id : WorkItemId) (leaseEpoch : Option Nat) : Option WorkClaim × WorkState :=
  let (rows, claimed) := transition leaseKeyOf s (claimSpec id leaseEpoch)
  match rows with
  | [] => (none, claimed)
  | (_, prior) :: _ =>
    (some { startedAt := prior.startedAt.or (some s.now), attemptCount := prior.attemptCount,
            resumed := prior.status = .running }, claimed)

-- One transaction: the lease row stays locked from its acquisition to the end of the claim.
def acquireAndClaimWorkItem (s : WorkState) (id : WorkItemId) (holderId ttlSeconds : Nat) :
    Option WorkClaim × WorkState :=
  match acquirePrActorLease s.now s.leases (leaseKeyOf id) id holderId ttlSeconds with
  | (.refused _ _, _) => (none, s)
  | (.acquired leaseEpoch, leases) =>
    match claimWorkForExecution leaseKeyOf { s with leases } id (some leaseEpoch) with
    | (some claim, claimed) => (some claim, claimed)
    | (none, claimed) =>
      (none, { claimed with leases := releasePrActorLease s.now leases (leaseKeyOf id) leaseEpoch })

inductive WorkAttemptResult
  | started (attemptCount : Nat)
  | exhausted (attemptCount : Nat)
  | unavailable
  | leaseLost
  deriving DecidableEq, Repr

def WorkItem.beginAttempt (now attemptLimit : Nat) (row : WorkItem) : WorkItem :=
  { row with attemptCount := row.attemptCount + 1, attemptLimit := some attemptLimit, updatedAt := now }

-- One transaction, begun by `lockPrActorLeaseForUpdate` when there is a lease.
def beginWorkAttempt (s : WorkState) (id : WorkItemId) (leaseEpoch : Option Nat) (attemptLimit : Nat) :
    WorkAttemptResult × WorkState :=
  if s.fenced id leaseEpoch then
    match s.items.get? id with
    | none => (.unavailable, s)
    | some row =>
      if row.status ≠ .running ∨ row.cancelRequestedAt.isSome then (.unavailable, s)
      else if attemptLimit ≤ row.attemptCount then (.exhausted row.attemptCount, s)
      else (.started (row.attemptCount + 1), { s with items := s.items.set id (row.beginAttempt s.now attemptLimit) })
  else (.leaseLost, s)

-- The transitions an execution asks for, with the epoch of its lease or none for an unleased one.
def completedSpec (id : WorkItemId) (leaseEpoch : Option Nat) : TransitionSpec where
  selector := { id := some id }
  fromStatuses := [.running]
  toStatus := .completed
  unlessCancelRequested := true
  fence := leaseEpoch

def markWorkCompleted (s : WorkState) (id : WorkItemId) (leaseEpoch : Option Nat) : Bool × WorkState :=
  let (rows, marked) := transition leaseKeyOf s (completedSpec id leaseEpoch)
  (!rows.isEmpty, marked)

def rescheduledParentSpec (id : WorkItemId) (leaseEpoch : Nat) : TransitionSpec where
  selector := { id := some id }
  fromStatuses := [.running, .queued]
  toStatus := .completed
  unlessCancelRequested := true
  keepCompletedAt := true
  also := fun _ row => row.payload.staleHeadReplacement.isSome
  fence := some leaseEpoch

def forceMarkRescheduledParentCompleted (s : WorkState) (id : WorkItemId) (leaseEpoch : Nat) : Bool × WorkState :=
  let (rows, marked) := transition leaseKeyOf s (rescheduledParentSpec id leaseEpoch)
  (!rows.isEmpty, marked)

def failedSpec (id : WorkItemId) (error : String) (leaseEpoch : Option Nat) : TransitionSpec where
  selector := { id := some id }
  fromStatuses := [.running]
  toStatus := .failed
  unlessCancelRequested := true
  lastError := some error
  fence := leaseEpoch

def markWorkFailed (s : WorkState) (id : WorkItemId) (error : String) (leaseEpoch : Option Nat) : Bool × WorkState :=
  let (rows, marked) := transition leaseKeyOf s (failedSpec id error leaseEpoch)
  (!rows.isEmpty, marked)

def retryingSpec (id : WorkItemId) (error : String) (leaseEpoch : Option Nat) : TransitionSpec where
  selector := { id := some id }
  fromStatuses := [.running]
  toStatus := .queued
  unlessCancelRequested := true
  lastError := some error
  fence := leaseEpoch

def markWorkRetrying (s : WorkState) (id : WorkItemId) (error : String) (leaseEpoch : Option Nat) : Bool × WorkState :=
  let (rows, marked) := transition leaseKeyOf s (retryingSpec id error leaseEpoch)
  (!rows.isEmpty, marked)

def cancelledSpec (id : WorkItemId) (leaseEpoch : Option Nat) : TransitionSpec where
  selector := { id := some id }
  fromStatuses := [.queued, .running]
  toStatus := .cancelled
  fence := leaseEpoch

def markWorkCancelled (s : WorkState) (id : WorkItemId) (leaseEpoch : Option Nat) : Bool × WorkState :=
  let (rows, marked) := transition leaseKeyOf s (cancelledSpec id leaseEpoch)
  (!rows.isEmpty, marked)

-- No unexpired lease names the item and no live job carries it; the job table answers `jobLive`.
def lostRunningWorkLiveness (s : WorkState) (jobLive : Bool) (id : WorkItemId) : Bool :=
  !s.leases.any (fun _ lease => lease.workItemId = some id && s.now < lease.expiresAt) && !jobLive

def cancelRequestedLostSpec (s : WorkState) (id : WorkItemId) (linked jobLive : Bool) : TransitionSpec where
  selector := { id := some id }
  fromStatuses := [.running]
  toStatus := if linked then .superseded else .cancelled
  fence := none
  also := fun id row => row.cancelRequestedAt.isSome && lostRunningWorkLiveness s jobLive id

def transitionCancelRequestedLostRunning (s : WorkState) (id : WorkItemId) (linked jobLive : Bool) : Bool × WorkState :=
  let (rows, marked) := transition leaseKeyOf s (cancelRequestedLostSpec s id linked jobLive)
  (!rows.isEmpty, marked)

def lostRunningSpec (s : WorkState) (id : WorkItemId) (minAgeSeconds : Nat) (jobLive : Bool) : TransitionSpec where
  selector := { id := some id, resourceKey := some (leaseKeyOf id).resourceKey, type := some (leaseKeyOf id).workType }
  fromStatuses := [.running]
  toStatus := .failed
  unlessCancelRequested := true
  lastError := some "worker_lost"
  also := fun id row => row.startedAt.any (· + minAgeSeconds < s.now) && lostRunningWorkLiveness s jobLive id
  fence := none

def markLostRunningWorkFailed (s : WorkState) (id : WorkItemId) (minAgeSeconds : Nat) (jobLive : Bool) :
    Bool × WorkState :=
  let (rows, marked) := transition leaseKeyOf s (lostRunningSpec leaseKeyOf s id minAgeSeconds jobLive)
  (!rows.isEmpty, marked)

-- `markQueuedWorkCancelled` as the statements it commits: the first attempt, the retry on an unchanged epoch, and
-- the cancellation of the execution it observed, under the lock of that execution's lease.
def queuedCancelSpec (id : WorkItemId) (error : String) : TransitionSpec where
  selector := { id := some id }
  fromStatuses := [.queued]
  toStatus := .cancelled
  requestCancel := true
  lastError := some error
  fence := none

def queuedCancelRetrySpec (id : WorkItemId) (error : String) (queuedEpoch : Option Nat) : TransitionSpec :=
  { queuedCancelSpec id error with also := fun _ row => row.executionEpoch = queuedEpoch }

def observedCancelSpec (id : WorkItemId) (error : String) (epoch : Nat) : TransitionSpec :=
  { queuedCancelSpec id error with
    fromStatuses := [.queued, .running]
    also := fun _ row => row.executionEpoch = some epoch
    fence := some epoch }

def cancelObservedExecution (s : WorkState) (id : WorkItemId) (error : String) (epoch : Nat) : WorkState :=
  if s.held id epoch then (transition leaseKeyOf s (observedCancelSpec id error epoch)).2 else s

-- Item and execution epoch of each row, for `releasePrActorLeaseHeldByWorkItems`.
def leaseHolders (rows : List (WorkItemId × WorkItem)) : List LeaseHolder :=
  (rows.map fun (id, row) => ⟨id, row.executionEpoch.getD 0⟩).filter fun holder => 0 < holder.leaseEpoch

def activeCancelSpec (key : LeaseKey) (attribution : ReviewCancelAttribution) (running : Bool) : TransitionSpec where
  selector := { resourceKey := some key.resourceKey, type := some key.workType }
  fromStatuses := if running then [.running] else [.queued]
  toStatus := .cancelled
  requestCancel := running
  lastError := some (reviewCancelLastError attribution)
  payloadPatch := { cancelAttribution := some attribution }
  fence := none

-- `cancelActiveReviews` and `cancelActiveTriage`: the key's work type tells them apart.
def cancelActive (s : WorkState) (key : LeaseKey) (attribution : ReviewCancelAttribution) : WorkState :=
  let (queued, afterQueued) := transition leaseKeyOf s (activeCancelSpec key attribution false)
  let (running, afterRunning) := transition leaseKeyOf afterQueued (activeCancelSpec key attribution true)
  { afterRunning with
    leases := releasePrActorLeaseHeldByWorkItems s.now s.leases key (leaseHolders (running ++ queued)) }

def supersedeSelector (key : LeaseKey) : TransitionSelector :=
  if key.workType = .review then
    { resourceKey := some key.resourceKey, reviewLens := some .review, source := some .auto }
  else { resourceKey := some key.resourceKey, type := some key.workType, source := some .auto }

def supersedeSpec (key : LeaseKey) (preserveQueuedIds : List WorkItemId) (running : Bool) : TransitionSpec where
  selector := supersedeSelector key
  fromStatuses := if running then [.running] else [.queued]
  toStatus := .superseded
  requestCancel := running
  also := fun id _ => running || id ∉ preserveQueuedIds
  fence := none

def supersedeActiveAutoWork (s : WorkState) (key : LeaseKey) (preserveQueuedIds : List WorkItemId) :
    List WorkItemId × WorkState :=
  let (queued, afterQueued) := transition leaseKeyOf s (supersedeSpec key preserveQueuedIds false)
  let (running, afterRunning) := transition leaseKeyOf afterQueued (supersedeSpec key [] true)
  let rows := queued ++ running
  (rows.map Prod.fst,
    { afterRunning with leases := releasePrActorLeaseHeldByWorkItems s.now s.leases key (leaseHolders rows) })

def linkSupersededWorkItems (s : WorkState) (id : WorkItemId) (supersededIds : List WorkItemId) : WorkState :=
  { s with
    items := s.items.updateWhere (fun other _ => other ∈ supersededIds) fun _ row => { row with supersededBy := some id } }

-- The statements that leave the status alone: each updates rows under a condition of its own.
def markWorkPublishDegraded (s : WorkState) (id : WorkItemId) (leaseEpoch : Option Nat) : WorkState :=
  { s with
    items := s.items.updateWhere (fun other _ => other = id && s.fenced id leaseEpoch) fun _ row =>
      { row with payload := row.payload.merge { publishDegraded := some true }, updatedAt := s.now } }

def updateRunningWorkHeadSha (s : WorkState) (id : WorkItemId) (headSha : HeadSha) (leaseEpoch : Option Nat) : WorkState :=
  { s with
    items := s.items.updateWhere
      (fun other row => other = id && row.status = .running && row.cancelRequestedAt.isNone && s.fenced id leaseEpoch)
      fun _ row => { row with headSha, updatedAt := s.now } }

def changeGithubPreflightFailureCount (s : WorkState) (id : WorkItemId) (leaseEpoch : Nat) (reset : Bool) : WorkState :=
  { s with
    items := s.items.updateWhere
      (fun other row => other = id && row.status = .running && row.cancelRequestedAt.isNone && s.held id leaseEpoch)
      fun _ row =>
        { row with githubPreflightFailureCount := if reset then 0 else row.githubPreflightFailureCount + 1 } }

-- `payload = payload || patch` under a condition on the row: follow-up stamps and replacement markers.
def patchPayload (s : WorkState) (guard : WorkItemId → WorkItem → Bool) (patch : WorkPayload) : WorkState :=
  { s with
    items := s.items.updateWhere guard fun _ row =>
      { row with payload := row.payload.merge patch, updatedAt := s.now } }

structure NewWorkItem where
  source : WorkSource
  reviewLens : Option ReviewLens
  headSha : HeadSha
  webhookEventId : Option WebhookEventId
  payload : WorkPayload

def NewWorkItem.row (new : NewWorkItem) (now : Nat) : WorkItem where
  source := new.source
  reviewLens := new.reviewLens
  headSha := new.headSha
  status := .queued
  updatedAt := now
  webhookEventId := new.webhookEventId
  payload := new.payload

-- `INSERT … status 'queued'`. An insert that names an existing row may rewrite its payload, head and source.
def insertAgentWorkItem (s : WorkState) (id : WorkItemId) (new : NewWorkItem) : WorkState :=
  match s.items.get? id with
  | none => { s with items := s.items.set id (new.row s.now) }
  | some old =>
    { s with
      items := s.items.set id
        { old with payload := new.payload, headSha := new.headSha, source := new.source, updatedAt := s.now } }

end PrAgent
