import PrAgent.ReviewLifecycle
set_option autoImplicit false

namespace PrAgent

section Events

structure WebhookHeaders where
  delivery : Option String := none
  event : Option String := none
  rawBody : String
  deriving DecidableEq, Repr

-- A header that is present and not empty.
def WebhookHeaders.deliveryId (headers : WebhookHeaders) : Option String := headers.delivery.filter fun id => id ≠ ""

structure WebhookEventKeys where
  dedupeKey : String
  bodyDedupeKey : String
  bodySha256 : String
  deriving DecidableEq, Repr

structure WebhookEvent where
  id : String
  deliveryId : Option String
  eventName : String
  bodySha256 : String
  processingDecision : String
  deriving DecidableEq, Repr

inductive DedupeReason
  | deliveryKey | bodyKey | bodyReplay
  deriving DecidableEq, Repr

-- A row of `webhook_delivery_duplicates`.
structure WebhookDuplicate where
  id : String
  deliveryId : Option String
  eventName : String
  bodySha256 : String
  dedupeKey : String
  dedupeReason : DedupeReason
  deriving DecidableEq, Repr

-- The hash function of the runtime.
variable (sha256 : String → String)

def webhookEventKeys (headers : WebhookHeaders) : WebhookEventKeys :=
  let bodySha256 := sha256 headers.rawBody
  { dedupeKey := match headers.deliveryId with
      | some delivery => "delivery:" ++ delivery
      | none => "body:" ++ bodySha256
    bodyDedupeKey := "body:" ++ bodySha256
    bodySha256 }

def webhookEvent (headers : WebhookHeaders) (id decision : String) : WebhookEvent :=
  { id, deliveryId := headers.delivery, eventName := headers.event.getD ""
    bodySha256 := (webhookEventKeys sha256 headers).bodySha256, processingDecision := decision }

def webhookDuplicate (headers : WebhookHeaders) (id dedupeKey : String) (dedupeReason : DedupeReason) : WebhookDuplicate :=
  { id, deliveryId := headers.delivery, eventName := headers.event.getD ""
    bodySha256 := (webhookEventKeys sha256 headers).bodySha256, dedupeKey, dedupeReason }

end Events

section Planning

inductive ReviewFeatureMode
  | manual | auto | approval
  deriving DecidableEq, Repr

inductive ReviewCadence
  | once | everyPush
  deriving DecidableEq, Repr

inductive AutomationMode
  | off | manual | auto
  deriving DecidableEq, Repr

structure IntakeFeatures where
  review : ReviewFeatureMode
  reviewCadence : ReviewCadence
  describe : AutomationMode
  verification : AutomationMode
  deriving DecidableEq, Repr

inductive ReviewAuthorTrust
  | trusted | awaitingMaintainerApproval | awaitingApproval
  deriving DecidableEq, Repr

inductive AutomatedPrIntakeKind
  | reviewSupersede | reviewTrackAwaitingHead | description | verification
  deriving DecidableEq, Repr

-- `kind.startsWith("review")`.
def AutomatedPrIntakeKind.isReview : AutomatedPrIntakeKind → Bool
  | .reviewSupersede | .reviewTrackAwaitingHead => true
  | .description | .verification => false

inductive ReviewAdmission
  | review
  | await (workflowStartAdmits : Bool)
  deriving DecidableEq, Repr

structure AutomatedPrIntakePlan where
  kinds : List AutomatedPrIntakeKind
  review : Option ReviewAdmission := none
  deriving DecidableEq, Repr

def admissionForApprovalOpen : ReviewAuthorTrust → ReviewAdmission
  | .trusted => .review
  | .awaitingMaintainerApproval => .await false
  | .awaitingApproval => .await true

def planAutomatedPullRequestIntake (action : String) (features : IntakeFeatures) (authorTrust : ReviewAuthorTrust) :
    AutomatedPrIntakePlan :=
  if action = "opened" then
    { kinds := if features.describe = .auto then [.description] else []
      review := match features.review with
        | .auto => some .review
        | .approval => some (admissionForApprovalOpen authorTrust)
        | .manual => none }
  else if action = "synchronize" then
    { kinds :=
        (if features.review ≠ .manual then [.reviewSupersede] else []) ++
          (if features.review = .approval then [.reviewTrackAwaitingHead] else []) ++
          (if features.verification = .auto then [.verification] else []) }
  else { kinds := [] }

def AutomatedPrIntakePlan.isEmpty (plan : AutomatedPrIntakePlan) : Bool := plan.kinds.isEmpty && plan.review.isNone

def AutomatedPrIntakePlan.readsLifecycle (plan : AutomatedPrIntakePlan) : Bool :=
  plan.review.isSome || plan.kinds.any AutomatedPrIntakeKind.isReview

-- What is left of a plan for a pull request that is not open.
def AutomatedPrIntakePlan.refuseReview (plan : AutomatedPrIntakePlan) : AutomatedPrIntakePlan :=
  { kinds := plan.kinds.filter fun kind => !kind.isReview }

def automatedIntakeDecision (plan : AutomatedPrIntakePlan) : String :=
  match plan.review with
  | some .review => "automated_review_enqueued"
  | some (.await _) => "review_awaiting_approval"
  | none => if .reviewSupersede ∈ plan.kinds then "automated_review_supersede_requested" else "automated_work_enqueued"

def approvalSignalDecision (admitted workflowRefused : Nat) : String :=
  if admitted > 0 then "review_approved"
  else if workflowRefused > 0 then "ignored_review_approval_maintainer_required"
  else "ignored_review_approval_not_awaiting"

end Planning

section Commands

-- The opts of a pull request event. A close or a reopening carries an observation of its lifecycle.
structure PullRequestIntake where
  resourceKey : String
  action : String
  authorTrust : ReviewAuthorTrust := .awaitingApproval
  lifecycle : Option ReviewLifecycleObservation := none
  deriving DecidableEq, Repr

inductive IntakeCommand
  | ignored (decision : String)
  | pullRequest (intake : PullRequestIntake)
  -- the pull requests that a review or a started workflow may approve, in the order of their keys
  | reviewApproved (resourceKeys : List String) (workflowRun : Bool)
  | ciRefresh
  | ciState
  | slash (command resourceKey : String)
  deriving DecidableEq, Repr

-- A transaction that may create a review: one for a webhook, or one that replaces a running review.
inductive IntakeJob
  | delivery (headers : WebhookHeaders) (command : IntakeCommand)
  | staleHeadReplacement (resourceKey : String)
  | pushFollowUp (resourceKey : String)
  deriving DecidableEq, Repr

inductive ReviewPath
  | opened | push | approval | slash | staleHead | followUp
  deriving DecidableEq, Repr

structure CreatedReview where
  resourceKey : String
  path : ReviewPath
  deriving DecidableEq, Repr

-- What a transaction reads once it holds the intake lock of a pull request. `awaiting`: `loadAwaitingApproval`, with what
-- the row says of a workflow start.
structure IntakeReading where
  resourceKey : String
  lifecycle : Option ReviewState
  accepted : Bool
  awaiting : Option Bool
  deriving DecidableEq, Repr

def IntakeReading.refused (reading : IntakeReading) : Option ReviewState := reading.lifecycle.filter fun state => state ≠ .open

variable (features : IntakeFeatures)

-- The observation of a close or a reopening, which these take the lock for.
def PullRequestIntake.observation (intake : PullRequestIntake) : Option ReviewLifecycleObservation :=
  if intake.action = "closed" ∨ intake.action = "reopened" then intake.lifecycle else none

def PullRequestIntake.plan (intake : PullRequestIntake) : AutomatedPrIntakePlan :=
  planAutomatedPullRequestIntake intake.action features intake.authorTrust

-- A close or a reopening without an observation throws before its first statement.
def IntakeJob.isValid : IntakeJob → Bool
  | .delivery _ (.pullRequest intake) =>
    decide (intake.action ≠ "closed" ∧ intake.action ≠ "reopened") || intake.lifecycle.isSome
  | _ => true

-- The pull requests whose intake lock a transaction takes, one after the other, before it writes.
def IntakeJob.lockKeys : IntakeJob → List String
  | .delivery _ (.pullRequest intake) =>
    if intake.action = "closed" ∨ intake.action = "reopened" ∨ (intake.plan features).readsLifecycle then
      [intake.resourceKey]
    else []
  | .delivery _ (.reviewApproved resourceKeys _) => resourceKeys
  | .delivery _ (.slash command resourceKey) => if command = "review" then [resourceKey] else []
  | .delivery _ (.ignored _) | .delivery _ .ciRefresh | .delivery _ .ciState => []
  | .staleHeadReplacement resourceKey | .pushFollowUp resourceKey => [resourceKey]

def IntakeJob.observation : IntakeJob → Option ReviewLifecycleObservation
  | .delivery _ (.pullRequest intake) => intake.observation
  | _ => none

def ReviewState.text : ReviewState → String
  | .open => "open"
  | .closed => "closed"
  | .merged => "merged"

-- The plan that is carried out, with the reviews dropped when the pull request is not open.
def admittedPlan (plan : AutomatedPrIntakePlan) (readings : List IntakeReading) : AutomatedPrIntakePlan :=
  if readings.any fun reading => reading.refused.isSome then plan.refuseReview else plan

def plannedDecision (plan : AutomatedPrIntakePlan) (readings : List IntakeReading) : String :=
  match readings.findSome? IntakeReading.refused with
  | some refused =>
    if plan.refuseReview.isEmpty then "ignored_review_pr_" ++ refused.text else automatedIntakeDecision plan.refuseReview
  | none => automatedIntakeDecision plan

def admittedByApproval (workflowRun : Bool) (reading : IntakeReading) : Bool :=
  reading.refused.isNone && reading.awaiting.any fun workflowStartAdmits => !workflowRun || workflowStartAdmits

def workflowRefused (workflowRun : Bool) (reading : IntakeReading) : Bool :=
  reading.refused.isNone && workflowRun && reading.awaiting = some false

-- The decision a delivery is recorded with. `seed`: the pull request needs its CI state read.
def intakeDecision (command : IntakeCommand) (readings : List IntakeReading) (seed : Bool) : String :=
  match command with
  | .ignored decision => decision
  | .pullRequest intake =>
    let accepted := readings.any IntakeReading.accepted
    if intake.action = "closed" then (if accepted then "review_cancelled_pr_closed" else "ignored_stale_pr_lifecycle")
    else if !(intake.plan features).isEmpty then plannedDecision (intake.plan features) readings
    else if seed then "ci_projection_enqueued"
    else if intake.action = "reopened" then
      (if accepted then "pr_review_lifecycle_applied" else "ignored_stale_pr_lifecycle")
    else "ignored_pull_request_" ++ intake.action
  | .reviewApproved _ workflowRun =>
    approvalSignalDecision (readings.filter (admittedByApproval workflowRun)).length
      (readings.filter (workflowRefused workflowRun)).length
  | .ciRefresh => "ci_projection_enqueued"
  | .ciState => "ci_state_applied"
  | .slash command _ =>
    match readings.findSome? IntakeReading.refused with
    | some refused => "ignored_slash_review_pr_" ++ refused.text
    | none => "slash_" ++ command

-- The reviews that a transaction may create with what it read. Whether it does depends on the work that is queued or
-- running.
def allowedReviews (job : IntakeJob) (readings : List IntakeReading) : List CreatedReview :=
  match job with
  | .delivery _ (.pullRequest intake) =>
    let plan := admittedPlan (intake.plan features) readings
    (if plan.review = some .review then [{ resourceKey := intake.resourceKey, path := .opened }] else []) ++
      (if .reviewSupersede ∈ plan.kinds then [{ resourceKey := intake.resourceKey, path := .push }] else [])
  | .delivery _ (.reviewApproved _ workflowRun) =>
    (readings.filter (admittedByApproval workflowRun)).map fun reading =>
      { resourceKey := reading.resourceKey, path := .approval }
  | .delivery _ (.slash command resourceKey) =>
    if command = "review" ∧ (readings.findSome? IntakeReading.refused).isNone then [{ resourceKey, path := .slash }] else []
  | .delivery _ (.ignored _) | .delivery _ .ciRefresh | .delivery _ .ciState => []
  | .staleHeadReplacement resourceKey =>
    if (readings.findSome? IntakeReading.refused).isNone then [{ resourceKey, path := .staleHead }] else []
  | .pushFollowUp resourceKey =>
    if (readings.findSome? IntakeReading.refused).isNone then [{ resourceKey, path := .followUp }] else []

end Commands

section Transactions

inductive IntakePhase
  -- the locks that are still to be taken
  | locking (waiting : List String)
  | inserted (key : String) (event : WebhookEvent)
  | accepted (key : String) (event : WebhookEvent)
  | duplicate (row : WebhookDuplicate)
  -- everything is written and waits for its commit
  | written (event : Option (String × WebhookEvent)) (lifecycle : Option (String × ReviewLifecycle))
      (reviews : List CreatedReview)
  deriving DecidableEq

structure IntakeTx where
  job : IntakeJob
  id : String
  readings : List IntakeReading := []
  phase : IntakePhase

-- The committed tables. `work` and `ci` are the work items with their jobs, and the CI state of the heads.
structure IntakeDb (Work Ci : Type) where
  webhookEvents : Table String WebhookEvent
  replays : Table String String
  duplicates : List WebhookDuplicate
  lifecycles : ReviewLifecycles
  reviews : List CreatedReview
  work : Work
  ci : Ci

-- `acceptedDeliveries` is the history of the deliveries whose transaction committed as an accepted one.
structure IntakeState (Work Ci : Type) where
  db : IntakeDb Work Ci
  transactions : Table Nat IntakeTx
  acceptedDeliveries : List WebhookHeaders

-- Each event of a transaction is one of its statements.
inductive IntakeEvent (Work Ci : Type)
  | begin (job : IntakeJob) (id : String)
  | lock (awaiting : Option Bool)
  | insertEvent (seed : Bool)
  | insertReplay
  | write (reviews : List CreatedReview)
  -- the work items and the CI state after the commit, for a transaction that may have written them
  | commit (work : Work) (ci : Ci)
  | rollback

def IntakeTx.holds (tx : IntakeTx) (resourceKey : String) : Bool :=
  tx.readings.any fun reading => reading.resourceKey = resourceKey

-- The unique keys that a transaction has inserted and not committed yet.
def IntakeTx.pendingKey? (tx : IntakeTx) : Option String :=
  match tx.phase with
  | .inserted key _ | .accepted key _ | .written (some (key, _)) _ _ => some key
  | .locking _ | .duplicate _ | .written none _ _ => none

def IntakeTx.pendingBody? (tx : IntakeTx) : Option String :=
  match tx.phase with
  | .accepted _ event | .written (some (_, event)) _ _ => some event.bodySha256
  | .locking _ | .inserted .. | .duplicate _ | .written none _ _ => none

variable {Work Ci : Type}

-- Another open transaction: an insert of a key that it has pending, and a lock that it holds, wait for its end.
def IntakeState.otherHas (s : IntakeState Work Ci) (n : Nat) (p : IntakeTx → Bool) : Bool :=
  s.transactions.any fun other tx => other ≠ n && p tx

variable (features : IntakeFeatures) (sha256 : String → String)

def lockStep (s : IntakeState Work Ci) (n : Nat) (tx : IntakeTx) (resourceKey : String) (rest : List String)
    (awaiting : Option Bool) : Option (IntakeState Work Ci) :=
  if s.otherHas n fun other => other.holds resourceKey then none
  else
    let reading : IntakeReading :=
      { resourceKey, lifecycle := loadReviewLifecycle s.db.lifecycles resourceKey
        accepted := tx.job.observation.any (reviewLifecycleObservationAccepted s.db.lifecycles resourceKey), awaiting }
    some { s with
      transactions := s.transactions.set n
        { tx with readings := tx.readings ++ [reading], phase := .locking rest } }

def insertEventStep (s : IntakeState Work Ci) (n : Nat) (tx : IntakeTx) (headers : WebhookHeaders)
    (command : IntakeCommand) (seed : Bool) : Option (IntakeState Work Ci) :=
  let keys := webhookEventKeys sha256 headers
  if (s.db.webhookEvents.get? keys.dedupeKey).isSome then
    let reason : DedupeReason := if headers.deliveryId.isSome then .deliveryKey else .bodyKey
    some { s with
      transactions := s.transactions.set n
        { tx with phase := .duplicate (webhookDuplicate sha256 headers tx.id keys.dedupeKey reason) } }
  else if s.otherHas n fun other => other.pendingKey? = some keys.dedupeKey then none
  else
    let event := webhookEvent sha256 headers tx.id (intakeDecision features command tx.readings seed)
    some { s with transactions := s.transactions.set n { tx with phase := .inserted keys.dedupeKey event } }

def insertReplayStep (s : IntakeState Work Ci) (n : Nat) (tx : IntakeTx) (headers : WebhookHeaders) (key : String)
    (event : WebhookEvent) : Option (IntakeState Work Ci) :=
  let keys := webhookEventKeys sha256 headers
  if (s.db.replays.get? keys.bodySha256).isSome then
    -- the event row is deleted again
    some { s with
      transactions := s.transactions.set n
        { tx with phase := .duplicate (webhookDuplicate sha256 headers tx.id keys.bodyDedupeKey .bodyReplay) } }
  else if s.otherHas n fun other => other.pendingBody? = some keys.bodySha256 then none
  else some { s with transactions := s.transactions.set n { tx with phase := .accepted key event } }

-- The lifecycle row that the command writes. `none` where the source throws, and so rolls the transaction back.
def lifecycleWrite (lifecycles : ReviewLifecycles) (tx : IntakeTx) (eventId : String) :
    Option (Option (String × ReviewLifecycle)) :=
  match tx.job.observation, tx.readings with
  | some observation, reading :: _ =>
    if !reading.accepted then some none
    else if (recordReviewLifecycleObservation lifecycles reading.resourceKey observation eventId).1 then
      some (some (reading.resourceKey, { toReviewLifecycleObservation := observation, webhookEventId := eventId }))
    else none
  | _, _ => some none

def writeStep (s : IntakeState Work Ci) (n : Nat) (tx : IntakeTx) (event : Option (String × WebhookEvent))
    (reviews : List CreatedReview) : Option (IntakeState Work Ci) :=
  if reviews.all fun review => review ∈ allowedReviews features tx.job tx.readings then
    match lifecycleWrite s.db.lifecycles tx tx.id with
    | none => some { s with transactions := s.transactions.erase n }
    | some lifecycle =>
      some { s with transactions := s.transactions.set n { tx with phase := .written event lifecycle reviews } }
  else none

def commitWritten (db : IntakeDb Work Ci) (event : Option (String × WebhookEvent))
    (lifecycle : Option (String × ReviewLifecycle)) (reviews : List CreatedReview) (work : Work) (ci : Ci) :
    IntakeDb Work Ci :=
  { webhookEvents := match event with
      | some (key, row) => db.webhookEvents.set key row
      | none => db.webhookEvents
    replays := match event with
      | some (_, row) => db.replays.set row.bodySha256 row.id
      | none => db.replays
    duplicates := db.duplicates
    lifecycles := match lifecycle with
      | some (resourceKey, row) => db.lifecycles.set resourceKey row
      | none => db.lifecycles
    reviews := db.reviews ++ reviews, work, ci }

def commitStep (s : IntakeState Work Ci) (n : Nat) (tx : IntakeTx) (work : Work) (ci : Ci) : Option (IntakeState Work Ci) :=
  match tx.phase with
  | .duplicate row =>
    some { s with
      db := { s.db with duplicates := s.db.duplicates ++ [row] }
      transactions := s.transactions.erase n }
  | .written event lifecycle reviews =>
    some
      { db := commitWritten s.db event lifecycle reviews work ci
        transactions := s.transactions.erase n
        acceptedDeliveries := match tx.job with
          | .delivery headers _ => s.acceptedDeliveries ++ [headers]
          | .staleHeadReplacement _ | .pushFollowUp _ => s.acceptedDeliveries }
  | .locking _ | .inserted .. | .accepted .. => none

-- The transaction `n` takes its next statement.
def intakeStep (s : IntakeState Work Ci) (move : Nat × IntakeEvent Work Ci) : Option (IntakeState Work Ci) :=
  let n := move.1
  match s.transactions.get? n, move.2 with
  | none, .begin job id =>
    if job.isValid then
      some { s with transactions := s.transactions.set n { job, id, phase := .locking (job.lockKeys features) } }
    else none
  | none, _ | some _, .begin .. => none
  | some tx, .lock awaiting =>
    match tx.phase with
    | .locking (resourceKey :: rest) => lockStep s n tx resourceKey rest awaiting
    | _ => none
  | some tx, .insertEvent seed =>
    match tx.phase, tx.job with
    | .locking [], .delivery headers command => insertEventStep features sha256 s n tx headers command seed
    | _, _ => none
  | some tx, .insertReplay =>
    match tx.phase, tx.job with
    | .inserted key event, .delivery headers _ => insertReplayStep sha256 s n tx headers key event
    | _, _ => none
  | some tx, .write reviews =>
    match tx.phase, tx.job with
    | .accepted key event, .delivery .. => writeStep features s n tx (some (key, event)) reviews
    | .locking [], .staleHeadReplacement _ | .locking [], .pushFollowUp _ => writeStep features s n tx none reviews
    | _, _ => none
  | some tx, .commit work ci => commitStep s n tx work ci
  | some _, .rollback => some { s with transactions := s.transactions.erase n }

-- Before the first delivery, with whatever lifecycles, work and CI state there are.
def startIntake (lifecycles : ReviewLifecycles) (work : Work) (ci : Ci) : IntakeState Work Ci :=
  { db := { webhookEvents := .empty, replays := .empty, duplicates := [], lifecycles, reviews := [], work, ci }
    transactions := .empty, acceptedDeliveries := [] }

end Transactions
end PrAgent
