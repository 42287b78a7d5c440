import PrAgent.OperationIntent
import PrAgent.WorkItemState
set_option autoImplicit false

namespace PrAgent

-- The values under the keys of a step's jsonb `detail`. `other` is a value that no statement or decoder looks into:
-- an array, an object, a fraction.
inductive JsonValue
  | null
  | bool (value : Bool)
  | number (value : Int)
  | string (value : String)
  | other (text : String)
  deriving DecidableEq, Repr

abbrev JsonFields := Table String JsonValue

-- `detail || patch`.
def JsonFields.merge (fields patch : JsonFields) : JsonFields := fields.override patch

-- A key that is absent when its value is: `...(value === undefined ? {} : { key: value })`.
def JsonFields.put (fields : JsonFields) (key : String) : Option JsonValue → JsonFields
  | none => fields
  | some value => fields.set key value

theorem get?_put (fields : JsonFields) (key : String) (value : Option JsonValue) (k : String) :
    (fields.put key value).get? k = if k = key then value.or (fields.get? k) else fields.get? k := by
  cases value with
  | none =>
      by_cases same : k = key
      · rw [if_pos same]
        rfl
      · rw [if_neg same]
        rfl
  | some value => exact Table.get?_set ..

structure PublishedBatch where
  batchId : String
  fields : JsonFields

structure StepDetail where
  fields : JsonFields := Table.empty
  batches : Option (List PublishedBatch) := none

def StepDetail.merge (detail patch : StepDetail) : StepDetail where
  fields := detail.fields.merge patch.fields
  batches := patch.batches.or detail.batches

inductive SharedPublishLens
  | lens (reviewLens : ReviewLens)
  | description | triage | verification
  deriving DecidableEq, Repr

inductive SharedPublishStep
  | progressComment | inlineReview | summaryComment | summaryCommentClaim | labels | prBody | triagePush
  | triageThreadActions | triageReport | triagePreview | verificationThreadActions | ciCell | commitStatus
  | verificationFailure
  deriving DecidableEq, Repr

inductive StepMerge
  | progress | batches | replace
  deriving DecidableEq, Repr

-- `publishStepSpecs[step].merge`.
def SharedPublishStep.merge : SharedPublishStep → StepMerge
  | .progressComment => .progress
  | .inlineReview => .batches
  | _ => .replace

inductive PublishRecordStatus
  | pending | completed | failed
  deriving DecidableEq, Repr

-- The three partial unique indexes of `publish_records` keep its rows apart: rows of a resource, ask rows of a work
-- item and check runs of a work item.
structure SharedStepKey where
  resourceKey : ResourceKey
  reviewLens : SharedPublishLens
  step : SharedPublishStep
  deriving DecidableEq, Repr

structure SharedRecord where
  workItemId : WorkItemId
  githubId : Option Nat
  status : PublishRecordStatus
  leaseEpoch : Option Nat
  detail : StepDetail
  updatedAt : Nat

-- The row of step `ask_reply`.
structure AskRecord where
  resourceKey : ResourceKey
  githubId : Option Nat
  status : PublishRecordStatus
  leaseEpoch : Option Nat
  detail : StepDetail
  updatedAt : Nat

inductive ReviewCheckRunConclusion
  | success | failure | neutral | cancelled | actionRequired
  deriving DecidableEq, Repr

inductive OwnCommitStatusState
  | success | failure | error
  deriving DecidableEq, Repr

structure SelectedOwnStatus where
  headSha : String
  enabled : Bool
  state : OwnCommitStatusState
  deriving DecidableEq, Repr

structure SelectedOwnVerdict where
  conclusion : ReviewCheckRunConclusion
  summary : String
  detailsUrl : Option String := none
  status : Option SelectedOwnStatus := none
  deriving DecidableEq, Repr

def deferredHeadSha : String := "deferred-to-worker"

def ownVerdictStatusApplicable (selected : SelectedOwnVerdict) : Bool :=
  selected.status.any fun status => status.enabled && status.headSha ≠ "" && status.headSha ≠ deferredHeadSha

inductive OwnVerdictSurface
  | check | status
  deriving DecidableEq, Repr

inductive OwnVerdictSurfaceState
  | applied | skippedForThisRun | blocked | unresolved
  deriving DecidableEq, Repr

-- `ownCheckApplied` and `ownCheckState`, or `ownStatusApplied` and `ownStatusState`.
structure SurfaceReceipt where
  applied : Option Bool := none
  state : Option OwnVerdictSurfaceState := none
  deriving DecidableEq, Repr

def SurfaceReceipt.merge (receipt patch : SurfaceReceipt) : SurfaceReceipt where
  applied := patch.applied.or receipt.applied
  state := patch.state.or receipt.state

inductive CheckRunDetailStatus
  | starting | inProgress | completed
  deriving DecidableEq, Repr

-- `detail` of a check run.
structure CheckRunDetail where
  selectedOwnVerdict : Option SelectedOwnVerdict := none
  ownCheck : SurfaceReceipt := {}
  ownStatus : SurfaceReceipt := {}
  status : Option CheckRunDetailStatus := none
  conclusion : Option ReviewCheckRunConclusion := none
  completedAt : Option Nat := none
  detailsUrl : Option String := none
  headSha : Option String := none
  name : Option String := none
  externalId : Option WorkItemId := none
  recoveredStaleReservation : Option Bool := none
  deriving DecidableEq, Repr

def CheckRunDetail.merge (detail patch : CheckRunDetail) : CheckRunDetail where
  selectedOwnVerdict := patch.selectedOwnVerdict.or detail.selectedOwnVerdict
  ownCheck := detail.ownCheck.merge patch.ownCheck
  ownStatus := detail.ownStatus.merge patch.ownStatus
  status := patch.status.or detail.status
  conclusion := patch.conclusion.or detail.conclusion
  completedAt := patch.completedAt.or detail.completedAt
  detailsUrl := patch.detailsUrl.or detail.detailsUrl
  headSha := patch.headSha.or detail.headSha
  name := patch.name.or detail.name
  externalId := patch.externalId.or detail.externalId
  recoveredStaleReservation := patch.recoveredStaleReservation.or detail.recoveredStaleReservation

def CheckRunDetail.receipt (detail : CheckRunDetail) : OwnVerdictSurface → SurfaceReceipt
  | .check => detail.ownCheck
  | .status => detail.ownStatus

-- The patch that writes one surface's receipt.
def CheckRunDetail.ofReceipt (receipt : SurfaceReceipt) : OwnVerdictSurface → CheckRunDetail
  | .check => { ownCheck := receipt }
  | .status => { ownStatus := receipt }

structure CheckRunKey where
  workItemId : WorkItemId
  reviewLens : ReviewLens
  deriving DecidableEq, Repr

structure CheckRunRecord where
  resourceKey : ResourceKey
  githubId : Option Nat
  status : PublishRecordStatus
  leaseEpoch : Option Nat
  detail : CheckRunDetail
  updatedAt : Nat
  deriving DecidableEq, Repr

-- The intents of an own verdict's mutations, with what the statements on publish records read of them.
structure OwnVerdictIntent where
  surface : OwnVerdictSurface
  status : OperationIntentStatus
  mutating : Bool
  hasResult : Bool
  deriving DecidableEq, Repr

structure PublishDb extends WorkState where
  shared : Table SharedStepKey SharedRecord
  asks : Table WorkItemId AskRecord
  checkRuns : Table CheckRunKey CheckRunRecord
  ownVerdictIntents : Table IntentKey OwnVerdictIntent

-- `EXISTS (SELECT 1 FROM pr_actor_leases WHERE work_item_id = … AND lease_epoch = …)`, without a look at `expires_at`.
def LeaseState.owned (s : LeaseState) (workItemId : WorkItemId) (leaseEpoch : Nat) : Bool :=
  ownsPrActorLease s.leases workItemId leaseEpoch

-- What the lease test of a statement reads.
inductive StatementFence
  | unexpired | epochOnly
  deriving DecidableEq, Repr

def StatementFence.passes (fence : StatementFence) (s : LeaseState) (workItemId : WorkItemId) : Option Nat → Bool
  | none => true
  | some leaseEpoch =>
    match fence with
    | .unexpired => s.held workItemId leaseEpoch
    | .epochOnly => s.owned workItemId leaseEpoch

inductive PublishWriteError
  | prActorLeaseLost | progressCommentOwnershipConflict | ownVerdictReceiptRejected
  deriving DecidableEq, Repr

-- A `fencedWrite` around one statement: whether it asserts the lease before, and again after a statement that wrote
-- no row; the statement's lease test, its own conditions and its effect; and what the caller makes of no row.
structure FencedStatement where
  workItemId : WorkItemId
  leaseEpoch : Option Nat
  before : Bool
  rejected : Bool
  fence : StatementFence
  finds : PublishDb → Bool
  change : PublishDb → PublishDb
  unwritten : Option PublishWriteError := none

def FencedStatement.writes (statement : FencedStatement) (db : PublishDb) : Bool :=
  statement.fence.passes db.toLeaseState statement.workItemId statement.leaseEpoch && statement.finds db

-- The three awaits of the call read the lease table at three instants: `before`, that of `db`, and `after`.
def FencedStatement.run (statement : FencedStatement) (before after : LeaseState) (db : PublishDb) :
    Except PublishWriteError Bool × PublishDb :=
  if statement.before && !before.fenced statement.workItemId statement.leaseEpoch then (.error .prActorLeaseLost, db)
  else if statement.writes db then (.ok true, statement.change db)
  else if statement.rejected && !after.fenced statement.workItemId statement.leaseEpoch then
    (.error .prActorLeaseLost, db)
  else
    match statement.unwritten with
    | some error => (.error error, db)
    | none => (.ok false, db)

section SharedSteps

variable (workItemId : WorkItemId) (leaseEpoch : Option Nat)

def claimSummaryCommentCreation (resourceKey : ResourceKey) (reviewLens : ReviewLens) : FencedStatement where
  workItemId
  leaseEpoch
  before := true
  rejected := true
  fence := .epochOnly
  finds db := (db.shared.get? ⟨resourceKey, .lens reviewLens, .summaryCommentClaim⟩).isNone
  change db :=
    { db with
      shared := db.shared.set ⟨resourceKey, .lens reviewLens, .summaryCommentClaim⟩
        ⟨workItemId, none, .completed, leaseEpoch, {}, db.now⟩ }

-- The detail that is sent: one batch where the step collects batches, the caller's keys otherwise.
def publishStepDetail (step : SharedPublishStep) (detail : JsonFields) : StepDetail :=
  match step.merge, detail.get? "batchId" with
  | .batches, some (.string batchId) => { batches := some [⟨batchId, detail⟩] }
  | _, _ => { fields := detail }

-- The batches of a first writer win: a batch whose id is there already is not added again.
def mergedBatches (old new : List PublishedBatch) : List PublishedBatch :=
  match new with
  | [] => old
  | batch :: _ => if old.any fun stored => stored.batchId = batch.batchId then old else old ++ new

def mergedStepDetail (step : SharedPublishStep) (old new : StepDetail) : StepDetail :=
  match step, new.batches with
  | .inlineReview, some batches => { old with batches := some (mergedBatches (old.batches.getD []) batches) }
  | .progressComment, _ => old.merge new
  | _, _ => new

def recordPublishStep (key : SharedStepKey) (githubId : Option Nat) (detail : JsonFields) : FencedStatement where
  workItemId
  leaseEpoch
  before := true
  rejected := true
  fence := .unexpired
  finds db := (db.shared.get? key).all fun old => key.step ≠ .progressComment || old.workItemId = workItemId
  change db :=
    let sent := publishStepDetail key.step detail
    let row : SharedRecord :=
      match db.shared.get? key with
      | none => ⟨workItemId, githubId, .completed, leaseEpoch, sent, db.now⟩
      | some old =>
        ⟨workItemId, githubId, .completed, leaseEpoch.or old.leaseEpoch, mergedStepDetail key.step old.detail sent, db.now⟩
    { db with shared := db.shared.set key row }
  unwritten := if key.step = .progressComment then some .progressCommentOwnershipConflict else none

def recordAskPublishStep (resourceKey : ResourceKey) (githubId : Option Nat) (detail : JsonFields) : FencedStatement where
  workItemId
  leaseEpoch
  before := true
  rejected := true
  fence := .epochOnly
  finds _ := true
  change db :=
    let epoch := leaseEpoch.or ((db.asks.get? workItemId).bind AskRecord.leaseEpoch)
    { db with asks := db.asks.set workItemId ⟨resourceKey, githubId, .completed, epoch, { fields := detail }, db.now⟩ }

end SharedSteps

section OwnVerdict

variable (leaseKeyOf : WorkItemId → LeaseKey)

structure OwnVerdictIdentity where
  workItemId : WorkItemId
  resourceKey : ResourceKey
  reviewLens : ReviewLens
  leaseEpoch : Option Nat
  deriving DecidableEq, Repr

variable (params : OwnVerdictIdentity)

def OwnVerdictIdentity.key : CheckRunKey := ⟨params.workItemId, params.reviewLens⟩

-- The row that a WHERE on work item, resource and lens finds.
def OwnVerdictIdentity.row? (db : PublishDb) : Option CheckRunRecord :=
  (db.checkRuns.get? params.key).filter fun row => row.resourceKey = params.resourceKey

def OwnVerdictIdentity.update (db : PublishDb) (assign : CheckRunRecord → CheckRunRecord) : PublishDb :=
  match params.row? db with
  | none => db
  | some row => { db with checkRuns := db.checkRuns.set params.key { assign row with updatedAt := db.now } }

def OwnVerdictIntent.accepted (intent : OwnVerdictIntent) : Bool :=
  intent.status ∈ [.reconciled, .outcomeUnknown] || intent.hasResult || (intent.status ≠ .failed && intent.mutating)

def hasOwnVerdictSurfaceAcceptance (db : PublishDb) (workItemId : WorkItemId) (surface : OwnVerdictSurface) : Bool :=
  db.ownVerdictIntents.any fun key intent => key.workItemId = workItemId && intent.surface = surface && intent.accepted

-- The states a caller may record: every one but `applied`.
inductive OpenSurfaceState
  | skippedForThisRun | blocked | unresolved
  deriving DecidableEq, Repr

def OpenSurfaceState.toState : OpenSurfaceState → OwnVerdictSurfaceState
  | .skippedForThisRun => .skippedForThisRun
  | .blocked => .blocked
  | .unresolved => .unresolved

-- A surface is skipped only while nothing suggests that GitHub has accepted a mutation of it.
def mayRecordSurfaceState (db : PublishDb) (row : CheckRunRecord) (surface : OwnVerdictSurface)
    (state : OpenSurfaceState) : Bool :=
  state ≠ .skippedForThisRun ||
    ((surface ≠ .check || (row.githubId.isNone && row.detail.status ≠ some .starting)) &&
      !hasOwnVerdictSurfaceAcceptance db params.workItemId surface)

def recordOwnVerdictSurfaceState (selected : SelectedOwnVerdict) (surface : OwnVerdictSurface)
    (state : OpenSurfaceState) : FencedStatement where
  workItemId := params.workItemId
  leaseEpoch := params.leaseEpoch
  before := true
  rejected := false
  fence := .epochOnly
  finds db := (params.row? db).any fun row =>
    row.detail.selectedOwnVerdict = some selected &&
      (row.detail.receipt surface).state ∉ [some .applied, some .skippedForThisRun] &&
      mayRecordSurfaceState params db row surface state
  change db := params.update db fun row =>
    { row with detail := row.detail.merge (.ofReceipt { state := some state.toState } surface) }

-- `claimOwnVerdict` commits three statements after the lease assertion of its enclosing call: saved results are
-- reconciled, the selection is inserted, and a selection without a commit status is given one.
def reconcileSavedOwnVerdictAcceptance : FencedStatement where
  workItemId := params.workItemId
  leaseEpoch := params.leaseEpoch
  before := true
  rejected := false
  fence := .epochOnly
  finds db := db.ownVerdictIntents.any fun key intent =>
    key.workItemId = params.workItemId && intent.hasResult && intent.status ≠ .reconciled
  change db :=
    { db with
      ownVerdictIntents := db.ownVerdictIntents.updateWhere
        (fun key intent => key.workItemId = params.workItemId && intent.hasResult && intent.status ≠ .reconciled)
        fun _ intent => { intent with status := .reconciled } }

def ownVerdictEligible (db : PublishDb) : Bool :=
  (db.items.get? params.workItemId).any fun item =>
    leaseKeyOf params.workItemId = ⟨params.resourceKey, .review⟩ && item.reviewLens = some params.reviewLens &&
      (params.leaseEpoch.isSome || isTerminalWorkStatus item.status)

def insertOwnVerdict (selected : SelectedOwnVerdict) : FencedStatement where
  workItemId := params.workItemId
  leaseEpoch := params.leaseEpoch
  before := true
  rejected := true
  fence := .epochOnly
  finds db := ownVerdictEligible leaseKeyOf params db &&
    (db.checkRuns.get? params.key).all fun row =>
      row.resourceKey = params.resourceKey && row.detail.selectedOwnVerdict.isNone && row.detail.conclusion.isNone
  change db :=
    let patch : CheckRunDetail := { selectedOwnVerdict := some selected }
    let row : CheckRunRecord :=
      match db.checkRuns.get? params.key with
      | none => ⟨params.resourceKey, none, .pending, params.leaseEpoch, patch, db.now⟩
      | some old => { old with detail := old.detail.merge patch, updatedAt := db.now }
    { db with checkRuns := db.checkRuns.set params.key row }

def enrichedCommitStatusState : ReviewCheckRunConclusion → OwnCommitStatusState
  | .failure => .failure
  | .success => .success
  | _ => .error

-- `before` is the stored selection, which has no commit status; `statusAlreadyApplied` was read with it.
def enrichedOwnVerdict (before : SelectedOwnVerdict) (status : SelectedOwnStatus) : SelectedOwnVerdict :=
  { before with status := some { status with state := enrichedCommitStatusState before.conclusion } }

def enrichOwnVerdict (before : SelectedOwnVerdict) (status : SelectedOwnStatus) (statusAlreadyApplied : Bool) :
    FencedStatement where
  workItemId := params.workItemId
  leaseEpoch := params.leaseEpoch
  before := true
  rejected := false
  fence := .epochOnly
  finds db := (params.row? db).any fun row => row.detail.selectedOwnVerdict = some { before with status := none }
  change db := params.update db fun row =>
    let selected := enrichedOwnVerdict before status
    let reopened := ownVerdictStatusApplicable selected && !statusAlreadyApplied
    { row with
      detail := row.detail.merge
        { selectedOwnVerdict := some selected, status := if reopened then some .inProgress else none } }

def CheckRunDetail.surfaceResolved (detail : CheckRunDetail) (surface : OwnVerdictSurface) : Bool :=
  (detail.receipt surface).applied = some true || (detail.receipt surface).state = some .skippedForThisRun

-- `detail.status` after a surface was applied.
def appliedDetailStatus (detail : CheckRunDetail) (selected : SelectedOwnVerdict) (surface : OwnVerdictSurface) :
    CheckRunDetailStatus :=
  if (surface = .check || detail.surfaceResolved .check) &&
      (!ownVerdictStatusApplicable selected || surface = .status || detail.surfaceResolved .status) then .completed
  else .inProgress

def appliedPatch (now : Nat) (selected : SelectedOwnVerdict) : OwnVerdictSurface → CheckRunDetail
  | .check =>
    { ownCheck := ⟨some true, some .applied⟩, conclusion := some selected.conclusion, completedAt := some now,
      detailsUrl := selected.detailsUrl }
  | .status => { ownStatus := ⟨some true, some .applied⟩ }

def recordOwnVerdictSurfaceApplied (selected : SelectedOwnVerdict) (surface : OwnVerdictSurface) : FencedStatement where
  workItemId := params.workItemId
  leaseEpoch := params.leaseEpoch
  before := true
  rejected := true
  fence := .epochOnly
  finds db := (params.row? db).any fun row =>
    row.detail.selectedOwnVerdict = some selected && (surface ≠ .check || row.githubId.isSome) &&
      (row.detail.receipt surface).state ≠ some .skippedForThisRun
  change db := params.update db fun row =>
    { row with
      detail := (row.detail.merge (appliedPatch db.now selected surface)).merge
        { status := some (appliedDetailStatus row.detail selected surface) } }
  unwritten := some .ownVerdictReceiptRejected

-- The details that callers pass for a reserved and for a created check run.
def startingCheckRunDetail (headSha name : String) (recovered : Bool) : CheckRunDetail where
  status := some .starting
  headSha := some headSha
  name := some name
  externalId := some params.workItemId
  recoveredStaleReservation := if recovered then some true else none

def createdCheckRunDetail (headSha name : String) : CheckRunDetail where
  status := some .inProgress
  headSha := some headSha
  name := some name
  externalId := some params.workItemId

-- `reconcileSavedOwnVerdictAcceptance` records a saved result without them.
def savedCheckRunDetail : CheckRunDetail := { status := some .inProgress }

def reserveReviewCheckRun (detail : CheckRunDetail) : FencedStatement where
  workItemId := params.workItemId
  leaseEpoch := params.leaseEpoch
  before := true
  rejected := true
  fence := .epochOnly
  finds db := (db.checkRuns.get? params.key).all fun row =>
    row.resourceKey = params.resourceKey && row.status = .pending && row.githubId.isNone &&
      row.detail.selectedOwnVerdict.isSome && row.detail.ownCheck.state ≠ some .skippedForThisRun &&
      row.detail.status ≠ some .starting
  change db :=
    let row : CheckRunRecord :=
      match db.checkRuns.get? params.key with
      | none => ⟨params.resourceKey, none, .pending, params.leaseEpoch, detail, db.now⟩
      | some old =>
        { old with
          detail := old.detail.merge detail
          leaseEpoch := params.leaseEpoch.or old.leaseEpoch
          updatedAt := db.now }
    { db with checkRuns := db.checkRuns.set params.key row }

def recordReviewCheckRun (githubId : Nat) (detail : CheckRunDetail) : FencedStatement where
  workItemId := params.workItemId
  leaseEpoch := params.leaseEpoch
  before := true
  rejected := true
  fence := .epochOnly
  finds _ := true
  change db :=
    let row : CheckRunRecord :=
      match db.checkRuns.get? params.key with
      | none => ⟨params.resourceKey, some githubId, .completed, params.leaseEpoch, detail, db.now⟩
      | some old =>
        ⟨params.resourceKey, some githubId, .completed, params.leaseEpoch.or old.leaseEpoch, old.detail.merge detail,
          db.now⟩
    { db with checkRuns := db.checkRuns.set params.key row }

-- `detail - 'status' - 'headSha' - 'name' - 'externalId' - 'recoveredStaleReservation'`.
def CheckRunDetail.unreserved (detail : CheckRunDetail) : CheckRunDetail :=
  { detail with status := none, headSha := none, name := none, externalId := none, recoveredStaleReservation := none }

def reservationEligible (staleBefore : Option Nat) (row : CheckRunRecord) : Bool :=
  match params.leaseEpoch with
  | none => staleBefore.all fun stale => row.updatedAt < stale
  | some epoch => row.leaseEpoch = some epoch || staleBefore.any fun stale => row.updatedAt < stale

-- A reservation beside a selected verdict loses its keys; one without a selection is deleted.
def releaseUnstartedReviewCheckRunReservation (staleBefore : Option Nat) : FencedStatement where
  workItemId := params.workItemId
  leaseEpoch := params.leaseEpoch
  before := true
  rejected := true
  fence := .epochOnly
  finds db := (params.row? db).any fun row =>
    row.status = .pending && row.githubId.isNone &&
      (row.detail.selectedOwnVerdict.isNone || row.detail.status = some .starting) &&
      reservationEligible params staleBefore row
  change db :=
    match params.row? db with
    | none => db
    | some row =>
      if row.detail.selectedOwnVerdict.isSome then
        params.update db fun row => { row with detail := row.detail.unreserved }
      else { db with checkRuns := db.checkRuns.erase params.key }

end OwnVerdict
end PrAgent
