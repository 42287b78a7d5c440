import PrAgent.SlashFollowUp
import PrAgent.WebhookIntake
import PrAgent.WorkItemRuns
set_option autoImplicit false

namespace PrAgent

section Trust

-- What the approvals take from the deployment. `drawId` stands for `crypto.randomUUID`: the ids that reviews of a pull
-- request get.
structure ApprovalSetup where
  features : IntakeFeatures
  slashAllowed : List String
  toUpperCase : String → String
  toLowerCase : String → String
  leaseKeyOf : WorkItemId → LeaseKey
  prResourceKey : String → String → Nat → ResourceKey
  drawId : ResourceKey → Nat → WorkItemId
  drawn : ∀ key draw, leaseKeyOf (drawId key draw) = ⟨key, .review⟩

def reviewTrustedAuthorAssociations : List String := ["OWNER", "MEMBER", "COLLABORATOR"]

def reviewWorkflowStartUngatedAssociations : List String :=
  ["CONTRIBUTOR", "FIRST_TIME_CONTRIBUTOR", "FIRST_TIMER", "NONE"]

-- The author of a pull request. A repository that is there may come without its id.
structure PullRequestAuthor where
  authorAssociation : Option String
  headRepo : Option (Option Nat)
  baseRepo : Option (Option Nat)

structure Commenter where
  id : Nat
  association : Option String

-- The payload of a review keeps the type of its user, that of a comment does not.
structure Reviewer extends Commenter where
  type : Option String

structure BotIdentity where
  userId : Nat
  login : String

inductive AuthorizeResult
  | ignored (decision : String)
  | authRequired
  | admitted (bot : BotIdentity)

variable (setup : ApprovalSetup)

def reviewAuthorTrust (pr : PullRequestAuthor) : ReviewAuthorTrust :=
  match pr.authorAssociation.filter fun association => association ≠ "", pr.headRepo with
  | some association, some headId =>
    if headId.isSome ∧ headId = pr.baseRepo.join then .trusted
    else if setup.toUpperCase association ∈ reviewTrustedAuthorAssociations then .trusted
    else if setup.toUpperCase association ∈ reviewWorkflowStartUngatedAssociations then .awaitingMaintainerApproval
    else .awaitingApproval
  | _, _ => .awaitingApproval

def isSlashAssociationAllowed (association : Option String) : Bool :=
  "*" ∈ setup.slashAllowed ||
    association.any fun association => association ≠ "" && setup.toUpperCase association ∈ setup.slashAllowed

-- `bot`: the identity of the app's own user, where it is known yet.
def authorize (bot : Option BotIdentity) (user : Commenter) (type : Option String := none) : AuthorizeResult :=
  if type.any fun type => setup.toLowerCase type = "bot" then .ignored "ignored_bot_slash_command"
  else match bot with
    | none => .authRequired
    | some bot =>
      if user.id = bot.userId then .ignored "ignored_bot_slash_command"
      else if !isSlashAssociationAllowed setup user.association then .ignored "ignored_unauthorized_slash"
      else .admitted bot

def Authorized (bot : Option BotIdentity) (user : Commenter) (type : Option String := none) : Prop :=
  ∃ identity, authorize setup bot user type = .admitted identity

end Trust

section Approvals

inductive ApprovalState
  | awaiting | approved | withdrawn
  deriving DecidableEq

inductive ApprovalSource
  | workflowRun | pullRequestReview | slash
  deriving DecidableEq

-- A row of `pr_review_approvals`.
structure ReviewApproval where
  owner : String
  repo : String
  prNumber : Nat
  headSha : Nat
  state : ApprovalState
  approvedBy : Option ApprovalSource := none
  webhookEventId : WebhookEventId
  workflowStartAdmits : Bool

abbrev ReviewApprovals := Table ResourceKey ReviewApproval

-- `state = 'awaiting' AND ($n::text IS NULL OR head_sha = $n)`.
def ReviewApproval.isAwaiting (headSha : Option Nat) (row : ReviewApproval) : Bool :=
  row.state = .awaiting && headSha.all fun head => row.headSha = head

def hasReview (setup : ApprovalSetup) (work : WorkState) (key : ResourceKey) : Bool :=
  work.items.any fun id _ => setup.leaseKeyOf id = ⟨key, .review⟩

def insertAwaitingApproval (setup : ApprovalSetup) (work : WorkState) (approvals : ReviewApprovals) (key : ResourceKey)
    (row : ReviewApproval) : ReviewApprovals :=
  if hasReview setup work key || (approvals.get? key).isSome then approvals else approvals.set key row

def moveAwaitingHead (approvals : ReviewApprovals) (key : ResourceKey) (headSha : Nat) : ReviewApprovals :=
  approvals.updateWhere (fun other row => other = key && row.isAwaiting none) fun _ row => { row with headSha }

def approveAwaiting (approvals : ReviewApprovals) (key : ResourceKey) (source : ApprovalSource) (headSha : Option Nat) :
    Bool × ReviewApprovals :=
  let selected (other : ResourceKey) (row : ReviewApproval) : Bool :=
    other = key && row.isAwaiting headSha && (source ≠ .workflowRun || row.workflowStartAdmits)
  (approvals.any selected,
    approvals.updateWhere selected fun _ row => { row with state := .approved, approvedBy := some source })

def withdrawAwaiting (approvals : ReviewApprovals) (key : ResourceKey) : ReviewApprovals :=
  approvals.updateWhere (fun other row => other = key && row.isAwaiting none) fun _ row =>
    { row with state := .withdrawn }

def loadAwaitingApproval (approvals : ReviewApprovals) (key : ResourceKey) (headSha : Option Nat) : Option ReviewApproval :=
  (approvals.get? key).filter (ReviewApproval.isAwaiting headSha)

def reviewPushAdmitted (setup : ApprovalSetup) (work : WorkState) (approvals : ReviewApprovals) (key : ResourceKey) : Bool :=
  hasReview setup work key || (approvals.get? key).any fun row => row.state = .approved

def findAwaitingForHead (approvals : ReviewApprovals) (owner repo : String) (headSha : Nat) : List ReviewApproval :=
  (approvals.select fun _ row => row.owner = owner && row.repo = repo && row.isAwaiting (some headSha)).map Prod.snd

end Approvals

section Replacement

variable (leaseKeyOf : WorkItemId → LeaseKey) (work : WorkState) (key : ResourceKey) (id : WorkItemId)

def newAutoReview (headSha : HeadSha) (eventId : WebhookEventId) : NewWorkItem := { everyPushReview eventId with headSha }

def newSlashReview (eventId : WebhookEventId) : NewWorkItem := { everyPushReview eventId with source := .slash }

def replaceAutoWorkItem (new : NewWorkItem) : WorkState :=
  let superseded := supersedeActiveAutoWork leaseKeyOf work ⟨key, .review⟩ []
  let created := insertAgentWorkItem superseded.2 id new
  if superseded.1.isEmpty then created else linkSupersededWorkItems created id superseded.1

def replaceActiveAutoWorkItem (new : NewWorkItem) : WorkState :=
  let superseded := supersedeActiveAutoWork leaseKeyOf work ⟨key, .review⟩ []
  if superseded.1.isEmpty then superseded.2
  else linkSupersededWorkItems (insertAgentWorkItem superseded.2 id new) id superseded.1

-- `ON CONFLICT` of the partial index on active slash reviews.
def createSlashReview (eventId : WebhookEventId) : Bool × WorkState :=
  if work.items.any fun other row =>
      isActiveSlashReview leaseKeyOf ⟨key, .review⟩ other row && row.payload.staleHeadRescheduled ≠ some true then
    (false, work)
  else (true, insertAgentWorkItem work id (newSlashReview eventId))

end Replacement

section Deliveries

inductive ReviewDelivery
  | opened (owner repo : String) (prNumber headSha : Nat) (author : PullRequestAuthor)
  | synchronize (owner repo : String) (prNumber headSha : Nat)
  | closed (owner repo : String) (prNumber : Nat) (merged : Bool)
  | pullRequestReview (owner repo : String) (prNumber : Nat) (reviewer : Reviewer)
  | workflowRunStarted (owner repo : String) (headSha : Nat) (prNumbers : List Nat)
  | slashReview (owner repo : String) (prNumber : Nat) (commenter : Commenter) (login : String) (force : Bool)

-- What the transaction of an accepted delivery reads beside the tables of this model: the lifecycles behind the intake
-- locks, whether a close is the latest of its observations, and the work items with a live job.
structure DeliveryContext where
  eventId : WebhookEventId
  bot : Option BotIdentity
  lifecycle : ResourceKey → Option ReviewState
  accepted : Bool
  draw : Nat
  liveJobs : List WorkItemId

def DeliveryContext.refused (ctx : DeliveryContext) (key : ResourceKey) : Bool := (ctx.lifecycle key).any fun state => state ≠ .open

-- `history` is that of the accepted deliveries, the latest first.
structure ApprovalWorld extends WorkState where
  approvals : ReviewApprovals
  history : List (ReviewDelivery × DeliveryContext)

variable (setup : ApprovalSetup) (world : ApprovalWorld) (ctx : DeliveryContext)

def carriedPlan (action : String) (trust : ReviewAuthorTrust) (key : ResourceKey) : AutomatedPrIntakePlan :=
  let plan := planAutomatedPullRequestIntake action setup.features trust
  if ctx.refused key then plan.refuseReview else plan

def deliverOpened (owner repo : String) (prNumber headSha : Nat) (author : PullRequestAuthor) : ApprovalWorld :=
  let key := setup.prResourceKey owner repo prNumber
  match (carriedPlan setup ctx "opened" (reviewAuthorTrust setup author) key).review with
  | none => world
  | some (.await workflowStartAdmits) =>
    { world with
      approvals := insertAwaitingApproval setup world.toWorkState world.approvals key
        { owner, repo, prNumber, headSha, state := .awaiting, webhookEventId := ctx.eventId, workflowStartAdmits } }
  | some .review =>
    { world with
      toWorkState := replaceAutoWorkItem setup.leaseKeyOf world.toWorkState key (setup.drawId key ctx.draw)
        (newAutoReview (.sha headSha) ctx.eventId) }

def everyPushReviewAdmitted (approvals : ReviewApprovals) (key : ResourceKey) : Bool :=
  if setup.features.review ≠ .approval then true
  else if (loadAwaitingApproval approvals key none).isSome then false
  else reviewPushAdmitted setup world.toWorkState approvals key

def deliverSynchronize (owner repo : String) (prNumber headSha : Nat) : ApprovalWorld :=
  let key := setup.prResourceKey owner repo prNumber
  let plan := carriedPlan setup ctx "synchronize" .awaitingApproval key
  let approvals :=
    if .reviewTrackAwaitingHead ∈ plan.kinds then moveAwaitingHead world.approvals key headSha else world.approvals
  let id := setup.drawId key ctx.draw
  let work :=
    if .reviewSupersede ∈ plan.kinds then
      if setup.features.reviewCadence = .everyPush && everyPushReviewAdmitted setup world approvals key then
        applyEveryPushReviewSupersede setup.leaseKeyOf world.toWorkState ⟨key, .review⟩ ctx.eventId id ctx.liveJobs
      else replaceActiveAutoWorkItem setup.leaseKeyOf world.toWorkState key id (newAutoReview .deferred ctx.eventId)
    else world.toWorkState
  { world with toWorkState := work, approvals }

def deliverClosed (key : ResourceKey) (merged : Bool) : ApprovalWorld :=
  if ctx.accepted then
    { world with
      toWorkState := cancelActive setup.leaseKeyOf world.toWorkState ⟨key, .review⟩ (if merged then .merged else .closed)
      approvals := withdrawAwaiting world.approvals key }
  else world

-- The head is the one of a started workflow, which alone names one.
def admitsApproval (headSha : Option Nat) (key : ResourceKey) : Bool :=
  !ctx.refused key && (loadAwaitingApproval world.approvals key headSha).any fun awaiting =>
    headSha.isNone || awaiting.workflowStartAdmits

-- `none` where the source throws, and so rolls the transaction back.
def approveReview (source : ApprovalSource) (headSha : Option Nat) (world : ApprovalWorld) (key : ResourceKey) :
    Option ApprovalWorld :=
  let approved := approveAwaiting world.approvals key source headSha
  if approved.1 then
    some { world with
      approvals := approved.2
      toWorkState := replaceAutoWorkItem setup.leaseKeyOf world.toWorkState key (setup.drawId key ctx.draw)
        (newAutoReview .deferred ctx.eventId) }
  else none

def deliverApproval (source : ApprovalSource) (headSha : Option Nat) (keys : List ResourceKey) : Option ApprovalWorld :=
  (keys.filter (admitsApproval world ctx headSha)).foldlM (approveReview setup ctx source headSha) world

def deliverSlashReview (key : ResourceKey) (login : String) (force : Bool) : ApprovalWorld :=
  if ctx.refused key then world
  else
    let cancelled :=
      if force then cancelActive setup.leaseKeyOf world.toWorkState ⟨key, .review⟩ (.user login) else world.toWorkState
    let created := createSlashReview setup.leaseKeyOf cancelled key (setup.drawId key ctx.draw) ctx.eventId
    { world with
      toWorkState := created.2
      approvals := if created.1 then (approveAwaiting world.approvals key .slash none).2 else world.approvals }

-- The pull requests a delivery is about, each once.
def deliveryKeys : ReviewDelivery → List ResourceKey
  | .opened owner repo prNumber _ _ | .synchronize owner repo prNumber _ | .closed owner repo prNumber _
  | .pullRequestReview owner repo prNumber _ | .slashReview owner repo prNumber _ _ _ =>
    [setup.prResourceKey owner repo prNumber]
  | .workflowRunStarted owner repo headSha prNumbers =>
    ((findAwaitingForHead world.approvals owner repo headSha).map fun row =>
      setup.prResourceKey row.owner row.repo row.prNumber) ++ prNumbers.map (setup.prResourceKey owner repo) |>.dedup

def deliver : ReviewDelivery → Option ApprovalWorld
  | .opened owner repo prNumber headSha author => some (deliverOpened setup world ctx owner repo prNumber headSha author)
  | .synchronize owner repo prNumber headSha => some (deliverSynchronize setup world ctx owner repo prNumber headSha)
  | .closed owner repo prNumber merged => some (deliverClosed setup world ctx (setup.prResourceKey owner repo prNumber) merged)
  | .pullRequestReview owner repo prNumber reviewer =>
    if setup.features.review ≠ .approval then some world
    else match authorize setup ctx.bot reviewer.toCommenter reviewer.type with
      | .admitted _ => deliverApproval setup world ctx .pullRequestReview none [setup.prResourceKey owner repo prNumber]
      | .ignored _ | .authRequired => some world
  | .workflowRunStarted owner repo headSha prNumbers =>
    if setup.features.review ≠ .approval then some world
    else deliverApproval setup world ctx .workflowRun (some headSha)
      (deliveryKeys setup world (.workflowRunStarted owner repo headSha prNumbers))
  | .slashReview owner repo prNumber commenter login force =>
    match authorize setup ctx.bot commenter with
    | .admitted _ => some (deliverSlashReview setup world ctx (setup.prResourceKey owner repo prNumber) login force)
    | .ignored _ | .authRequired => some world

-- `replace`: a stale head or a push follow-up puts a review in the place of a stored one. The other work moves are those
-- of the workers and of the other kinds of work.
inductive ApprovalEvent
  | deliver (delivery : ReviewDelivery) (ctx : DeliveryContext)
  | replace (parentId id : WorkItemId) (new : NewWorkItem)
  | work (move : WorkMove)
  | deleteExpired (keys : List ResourceKey)

def insertsReview (move : WorkMove) : Bool :=
  match move with
  | .insert id new => (setup.leaseKeyOf id).workType = .review || new.reviewLens = some .review
  | _ => false

def approvalStep (world : ApprovalWorld) : ApprovalEvent → Option ApprovalWorld
  | .deliver delivery ctx =>
    if (deliveryKeys setup world delivery).all fun key => (world.items.get? (setup.drawId key ctx.draw)).isNone then
      (deliver setup world ctx delivery).map fun next => { next with history := (delivery, ctx) :: world.history }
    else none
  | .replace parentId id new =>
    if (world.items.get? parentId).any (fun parent => new.reviewLens = parent.reviewLens) &&
        (setup.leaseKeyOf parentId).workType = .review && setup.leaseKeyOf id = setup.leaseKeyOf parentId then
      some { world with toWorkState := insertAgentWorkItem world.toWorkState id new }
    else none
  | .work move =>
    if insertsReview setup move then none
    else some { world with toWorkState := move.apply setup.leaseKeyOf world.toWorkState }
  | .deleteExpired keys => some { world with approvals := world.approvals.deleteWhere fun key _ => key ∈ keys }

def ApprovalWorld.empty : ApprovalWorld := ⟨⟨⟨0, .empty⟩, .empty⟩, .empty, []⟩

end Deliveries
end PrAgent
