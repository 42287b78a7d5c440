import PrAgent.ReviewApprovals
import PrAgent.Schedule
import PrAgent.SlashFollowUpCompletion
set_option autoImplicit false

namespace PrAgent

section Rows

-- Every row is one that was there with the same lens, or one that may be added.
def Adds (added : WorkItemId → Option ReviewLens → Prop) (s t : WorkState) : Prop :=
  ∀ id row, t.items.get? id = some row →
    (∃ old, s.items.get? id = some old ∧ row.reviewLens = old.reviewLens) ∨ added id row.reviewLens

variable {added : WorkItemId → Option ReviewLens → Prop} {s t u : WorkState} {leaseKeyOf : WorkItemId → LeaseKey}

theorem adds_of_items (same : t.items = s.items) : Adds added s t := fun _ row stored => .inl ⟨row, same ▸ stored, rfl⟩

theorem adds_trans (first : Adds added s t) (second : Adds added t u) : Adds added s u := by
  intro id row stored
  cases second id row stored with
  | inr fresh => exact .inr fresh
  | inl before =>
    obtain ⟨middle, storedMiddle, same⟩ := before
    cases first id middle storedMiddle with
    | inr fresh => exact .inr (same ▸ fresh)
    | inl before =>
      obtain ⟨old, storedOld, lens⟩ := before
      exact .inl ⟨old, storedOld, same.trans lens⟩

theorem adds_update {selected : WorkItemId → WorkItem → Bool} {assign : WorkItemId → WorkItem → WorkItem}
    (keeps : ∀ id row, (assign id row).reviewLens = row.reviewLens) :
    Adds added s { s with items := s.items.updateWhere selected assign } := by
  intro id row stored
  simp only [Table.get?_updateWhere, Option.map_eq_some_iff] at stored
  obtain ⟨old, storedOld, rfl⟩ := stored
  refine .inl ⟨old, storedOld, ?_⟩
  split
  · exact keeps id old
  · rfl

theorem transition_adds (spec : TransitionSpec) : Adds added s (transition leaseKeyOf s spec).2 := adds_update fun _ _ => rfl

variable {id : WorkItemId}

theorem insert_adds {new : NewWorkItem} (fresh : added id new.reviewLens) :
    Adds added s (insertAgentWorkItem s id new) := by
  intro other row stored
  rw [insert_items] at stored
  by_cases here : other = id
  · subst here
    rw [if_pos rfl] at stored
    obtain rfl := Option.some.inj stored
    cases before : s.items.get? other with
    | none => exact .inr fresh
    | some old => exact .inl ⟨old, rfl, rfl⟩
  · rw [if_neg here] at stored
    exact .inl ⟨row, stored, rfl⟩

theorem supersede_adds (key : LeaseKey) (preserved : List WorkItemId) :
    Adds added s (supersedeActiveAutoWork leaseKeyOf s key preserved).2 :=
  adds_trans (transition_adds (supersedeSpec key preserved false)) (transition_adds (supersedeSpec key [] true))

theorem cancel_active_adds (key : LeaseKey) (attribution : ReviewCancelAttribution) :
    Adds added s (cancelActive leaseKeyOf s key attribution) :=
  adds_trans (transition_adds (activeCancelSpec key attribution false)) (transition_adds (activeCancelSpec key attribution true))

theorem link_adds (id : WorkItemId) (supersededIds : List WorkItemId) :
    Adds added s (linkSupersededWorkItems s id supersededIds) := adds_update fun _ _ => rfl

theorem claim_adds (id : WorkItemId) (leaseEpoch : Option Nat) :
    Adds added s (claimWorkForExecution leaseKeyOf s id leaseEpoch).2 := by
  have adds : Adds added s (transition leaseKeyOf s (claimSpec id leaseEpoch)).2 := transition_adds _
  simp only [claimWorkForExecution]
  cases (transition leaseKeyOf s (claimSpec id leaseEpoch)).1 with
  | nil => exact adds
  | cons head rest => exact adds

theorem acquire_and_claim_adds (id : WorkItemId) (holderId ttlSeconds : Nat) :
    Adds added s (acquireAndClaimWorkItem leaseKeyOf s id holderId ttlSeconds).2 := by
  simp only [acquireAndClaimWorkItem]
  cases acquirePrActorLease s.now s.leases (leaseKeyOf id) id holderId ttlSeconds with
  | mk acquisition leases =>
    cases acquisition with
    | refused heldBy leaseEpoch => exact adds_of_items rfl
    | acquired leaseEpoch =>
      have adds : Adds added { s with leases } (claimWorkForExecution leaseKeyOf { s with leases } id (some leaseEpoch)).2 :=
        claim_adds id (some leaseEpoch)
      dsimp only
      generalize claimWorkForExecution leaseKeyOf { s with leases } id (some leaseEpoch) = result at adds ⊢
      obtain ⟨claim, claimed⟩ := result
      cases claim with
      | some claim => exact adds
      | none => exact adds

theorem begin_attempt_adds (id : WorkItemId) (leaseEpoch : Option Nat) (attemptLimit : Nat) :
    Adds added s (beginWorkAttempt s id leaseEpoch attemptLimit).2 := by
  have same : Adds added s s := adds_of_items rfl
  unfold beginWorkAttempt
  split
  · cases stored : s.items.get? id with
    | none => exact same
    | some old =>
      dsimp only
      split
      · exact same
      · split
        · exact same
        · intro other row storedRow
          rcases Table.get?_set_cases storedRow with ⟨here, rfl⟩ | ⟨_, storedRow⟩
          · exact .inl ⟨old, by rw [here, stored], rfl⟩
          · exact .inl ⟨row, storedRow, rfl⟩
  · exact same

-- The work moves: only an insertion adds a row.
theorem move_adds (move : WorkMove) (fresh : ∀ id new, move = .insert id new → added id new.reviewLens) :
    Adds added s (move.apply leaseKeyOf s) := by
  cases move with
  | insert id new => exact insert_adds (fresh id new rfl)
  | acquireAndClaim id holderId ttlSeconds => exact acquire_and_claim_adds id holderId ttlSeconds
  | claimUnleased id => exact claim_adds id none
  | beginAttempt id leaseEpoch attemptLimit => exact begin_attempt_adds id leaseEpoch attemptLimit
  | cancelObserved id error epoch =>
    simp only [WorkMove.apply, cancelObservedExecution]
    split
    · exact transition_adds _
    · exact adds_of_items rfl
  | cancelActive key attribution => exact cancel_active_adds key attribution
  | supersedeActive key preserveQueuedIds => exact supersede_adds key preserveQueuedIds
  | linkSuperseded id supersededIds => exact link_adds id supersededIds
  | lease move => exact adds_of_items rfl
  | complete | completeRescheduledParent | fail | retry | cancel | cancelQueued | cancelStillQueued
  | settleCancelRequestedLost | failLost => exact transition_adds _
  | degradePublish | updateHeadSha | countPreflightFailure | patchPayload => exact adds_update fun _ _ => rfl

theorem insert_every_push_adds {key : LeaseKey} {eventId : WebhookEventId}
    (fresh : added id (some .review)) : Adds added s (insertEveryPushReview leaseKeyOf s key eventId id) := by
  have created : Adds added s (insertAgentWorkItem (supersedeActiveAutoWork leaseKeyOf s key []).2 id (everyPushReview eventId)) :=
    adds_trans (supersede_adds key []) (insert_adds fresh)
  simp only [insertEveryPushReview]
  split
  · exact created
  · exact adds_trans created (link_adds _ _)

theorem every_push_adds {key : LeaseKey} {eventId : WebhookEventId} {liveJobs : List WorkItemId}
    (fresh : added id (some .review)) : Adds added s (applyEveryPushReviewSupersede leaseKeyOf s key eventId id liveJobs) := by
  have inserted {origin : WorkState} : Adds added origin (insertEveryPushReview leaseKeyOf origin key eventId id) :=
    insert_every_push_adds fresh
  have superseded (preserved : List WorkItemId) : Adds added s (supersedeActiveAutoWork leaseKeyOf s key preserved).2 :=
    supersede_adds key preserved
  have stamped (preserved : List WorkItemId) (guard : WorkItemId → WorkItem → Bool) (patch : WorkPayload) :
      Adds added s (patchPayload (supersedeActiveAutoWork leaseKeyOf s key preserved).2 guard patch) :=
    adds_trans (superseded preserved) (adds_update fun _ _ => rfl)
  simp only [applyEveryPushReviewSupersede]
  split
  · exact inserted
  · split
    · split
      · exact superseded _
      · split
        · exact superseded _
        · exact adds_trans (superseded _) inserted
    · split
      · exact stamped _ _ _
      · split
        · exact stamped _ _ _
        · split
          · exact adds_trans (stamped _ _ _) inserted
          · exact stamped _ _ _

theorem replace_auto_adds {key : ResourceKey} {new : NewWorkItem} (fresh : added id new.reviewLens) :
    Adds added s (replaceAutoWorkItem leaseKeyOf s key id new) := by
  have created : Adds added s (insertAgentWorkItem (supersedeActiveAutoWork leaseKeyOf s ⟨key, .review⟩ []).2 id new) :=
    adds_trans (supersede_adds _ []) (insert_adds fresh)
  simp only [replaceAutoWorkItem]
  split
  · exact created
  · exact adds_trans created (link_adds _ _)

-- What is superseded is a review of the pull request.
theorem superseded_review {key : ResourceKey} (superseded : id ∈ (supersedeActiveAutoWork leaseKeyOf s ⟨key, .review⟩ []).1) :
    ∃ row, s.items.get? id = some row ∧ (leaseKeyOf id).resourceKey = key ∧ row.reviewLens = some .review := by
  have selected {origin : WorkState} {running : Bool} {row : WorkItem}
      (listed : (id, row) ∈ (transition leaseKeyOf origin (supersedeSpec ⟨key, .review⟩ [] running)).1) :
      origin.items.get? id = some row ∧ (leaseKeyOf id).resourceKey = key ∧ row.reviewLens = some .review := by
    obtain ⟨stored, chosen⟩ := (Table.mem_select _ _ _ _).mp listed
    simp only [TransitionSpec.selects, TransitionSelector.selects, supersedeSpec, supersedeSelector, if_pos,
      Option.all_some, Option.all_none, Bool.and_eq_true, decide_eq_true_eq] at chosen
    exact ⟨stored, chosen.1.1.1.1.1.1.1.2.symm, chosen.1.1.1.1.1.2.symm⟩
  simp only [supersedeActiveAutoWork, List.map_append, List.mem_append, List.mem_map] at superseded
  rcases superseded with ⟨⟨other, row⟩, listed, rfl⟩ | ⟨⟨other, row⟩, listed, rfl⟩
  · exact ⟨row, selected listed⟩
  · obtain ⟨stored, resource, lens⟩ := selected listed
    have before : Adds (fun _ _ => False) s (transition leaseKeyOf s (supersedeSpec ⟨key, .review⟩ [] false)).2 :=
      transition_adds _
    cases before _ row stored with
    | inr fresh => exact fresh.elim
    | inl kept =>
      obtain ⟨old, storedOld, same⟩ := kept
      exact ⟨old, storedOld, resource, same ▸ lens⟩

end Rows

section History

-- An accepted delivery, with what its transaction read.
abbrev AcceptedDelivery := ReviewDelivery × DeliveryContext

variable (setup : ApprovalSetup) (key : ResourceKey)

-- The delivery opens a pull request, still open itself, whose author has to await an approval of this kind.
def OpensAwaiting (workflowStartAdmits : Bool) (entry : AcceptedDelivery) : Prop :=
  match entry with
  | (.opened owner repo prNumber _ author, ctx) =>
    setup.prResourceKey owner repo prNumber = key ∧ ctx.refused key = false ∧
      admissionForApprovalOpen (reviewAuthorTrust setup author) = .await workflowStartAdmits
  | _ => False

-- The head is that of the last push to the pull request, or of its opening and no push came after it.
def HeadStands (headSha : Nat) : List AcceptedDelivery → Prop
  | [] => False
  | (.opened owner repo prNumber head _, ctx) :: older =>
    (setup.prResourceKey owner repo prNumber = key ∧ ctx.refused key = false ∧ head = headSha) ∨ HeadStands headSha older
  | (.synchronize owner repo prNumber head, ctx) :: older =>
    if setup.prResourceKey owner repo prNumber = key ∧ ctx.refused key = false then head = headSha
    else HeadStands headSha older
  | _ :: older => HeadStands headSha older

-- What starts reviews of a pull request, after the older deliveries: a trusted author, an approving review of someone who
-- may and is not a bot, a `/review` of someone who may, or the start of a workflow on the head of an author for whom that
-- is enough.
def Authorises (older : List AcceptedDelivery) (entry : AcceptedDelivery) : Prop :=
  entry.2.refused key = false ∧
    match entry.1 with
    | .opened owner repo prNumber _ author =>
      setup.prResourceKey owner repo prNumber = key ∧ reviewAuthorTrust setup author = .trusted
    | .pullRequestReview owner repo prNumber reviewer =>
      setup.prResourceKey owner repo prNumber = key ∧ Authorized setup entry.2.bot reviewer.toCommenter reviewer.type
    | .slashReview owner repo prNumber commenter _ _ =>
      setup.prResourceKey owner repo prNumber = key ∧ Authorized setup entry.2.bot commenter
    | .workflowRunStarted _ _ headSha _ =>
      HeadStands setup key headSha older ∧ ∃ opening ∈ older, OpensAwaiting setup key true opening
    | .synchronize .. | .closed .. => False

def ReviewDelivery.source : ReviewDelivery → Option ApprovalSource
  | .pullRequestReview .. => some .pullRequestReview
  | .workflowRunStarted .. => some .workflowRun
  | .slashReview .. => some .slash
  | .opened .. | .synchronize .. | .closed .. => none

-- Some delivery of the history, of a source that counts, authorised the pull request when it came.
def Authorised (counts : Option ApprovalSource → Prop) : List AcceptedDelivery → Prop
  | [] => False
  | entry :: older => (Authorises setup key older entry ∧ counts entry.1.source) ∨ Authorised counts older

variable {setup key} {history : List AcceptedDelivery} {counts : Option ApprovalSource → Prop}

theorem authorised_any (authorised : Authorised setup key counts history) : Authorised setup key (fun _ => True) history := by
  induction history with
  | nil => exact authorised
  | cons entry older ih =>
    rcases authorised with ⟨here, -⟩ | before
    · exact .inl ⟨here, trivial⟩
    · exact .inr (ih before)

-- A row of the work items, and one of the approvals, after a history.
def RowAllowed (setup : ApprovalSetup) (history : List AcceptedDelivery) (id : WorkItemId) (lens : Option ReviewLens) : Prop :=
  (lens = some .review → (setup.leaseKeyOf id).workType = .review) ∧
    ((setup.leaseKeyOf id).workType = .review →
      Authorised setup (setup.leaseKeyOf id).resourceKey (fun _ => True) history)

structure ApprovalRowOk (setup : ApprovalSetup) (history : List AcceptedDelivery) (key : ResourceKey) (row : ReviewApproval) :
    Prop where
  opened : ∃ opening ∈ history, OpensAwaiting setup key row.workflowStartAdmits opening
  head : row.state = .awaiting → HeadStands setup key row.headSha history
  approved : row.state = .approved → ∃ source, row.approvedBy = some source ∧
    Authorised setup key (fun counted => counted = some source) history ∧ (source = .workflowRun → row.workflowStartAdmits = true)

structure ApprovalsOk (setup : ApprovalSetup) (history : List AcceptedDelivery) (work : WorkState) (approvals : ReviewApprovals) :
    Prop where
  rows : ∀ id row, work.items.get? id = some row → RowAllowed setup history id row.reviewLens
  approvals : ∀ key row, approvals.get? key = some row → ApprovalRowOk setup history key row

variable {work next : WorkState} {approvals : ReviewApprovals} {entry : AcceptedDelivery}

theorem allowed_later {id : WorkItemId} {lens : Option ReviewLens} (allowed : RowAllowed setup history id lens) :
    RowAllowed setup (entry :: history) id lens := ⟨allowed.1, fun type => .inr (allowed.2 type)⟩

theorem ApprovalRowOk.later {row : ReviewApproval} (ok : ApprovalRowOk setup history key row)
    (still : row.state = .awaiting → HeadStands setup key row.headSha (entry :: history)) :
    ApprovalRowOk setup (entry :: history) key row := by
  refine ⟨?_, still, fun approved => ?_⟩
  · obtain ⟨opening, listed, opens⟩ := ok.opened
    exact ⟨opening, .tail _ listed, opens⟩
  · obtain ⟨source, named, authorised, admits⟩ := ok.approved approved
    exact ⟨source, named, .inr authorised, admits⟩

-- A review is only there once its pull request was authorised, and so is an approved row.
theorem ApprovalsOk.authorised (ok : ApprovalsOk setup history work approvals)
    (admitted : reviewPushAdmitted setup work approvals key = true) : Authorised setup key (fun _ => True) history := by
  rcases Bool.or_eq_true _ _ ▸ admitted with review | approved
  · obtain ⟨id, row, stored, named⟩ := (Table.any_iff _ _).mp review
    have named : setup.leaseKeyOf id = ⟨key, .review⟩ := of_decide_eq_true named
    have allowed := (ok.rows id row stored).2 (by rw [named])
    rw [named] at allowed
    exact allowed
  · obtain ⟨row, stored, state⟩ := (Option.any_eq_true _ _).mp approved
    obtain ⟨_, _, authorised, _⟩ := (ok.approvals key row stored).approved (of_decide_eq_true state)
    exact authorised_any authorised

theorem ApprovalsOk.adds (ok : ApprovalsOk setup history work approvals) (adds : Adds (RowAllowed setup history) work next) :
    ApprovalsOk setup history next approvals := by
  refine ⟨fun id row stored => ?_, ok.approvals⟩
  cases adds id row stored with
  | inr fresh => exact fresh
  | inl before =>
    obtain ⟨old, storedOld, same⟩ := before
    exact same ▸ ok.rows id old storedOld

theorem drawn_allowed {draw : Nat} (authorised : Authorised setup key (fun _ => True) history) :
    RowAllowed setup history (setup.drawId key draw) (some .review) := by
  rw [RowAllowed, setup.drawn]
  exact ⟨fun _ => rfl, fun _ => authorised⟩

theorem replace_active_adds (ok : ApprovalsOk setup history work approvals) (draw : Nat) (eventId : WebhookEventId) :
    Adds (RowAllowed setup history) work
      (replaceActiveAutoWorkItem setup.leaseKeyOf work key (setup.drawId key draw) (newAutoReview .deferred eventId)) := by
  simp only [replaceActiveAutoWorkItem]
  split
  · exact supersede_adds _ []
  · next some =>
    obtain ⟨id, listed⟩ := List.exists_mem_of_ne_nil _ (by simpa using some)
    obtain ⟨row, stored, resource, lens⟩ := superseded_review listed
    have allowed := ok.rows id row stored
    have authorised := allowed.2 (allowed.1 lens)
    rw [resource] at authorised
    exact adds_trans (adds_trans (supersede_adds _ []) (insert_adds (drawn_allowed authorised))) (link_adds _ _)

end History

section Deliveries

variable {setup : ApprovalSetup} {history : List AcceptedDelivery} {work : WorkState} {approvals : ReviewApprovals}
  {key : ResourceKey} {entry : AcceptedDelivery} {world next : ApprovalWorld} {ctx : DeliveryContext}

theorem head_stands_after {headSha : Nat} {delivery : ReviewDelivery}
    (unmoved : ∀ owner repo prNumber head, delivery = .synchronize owner repo prNumber head →
      ¬(setup.prResourceKey owner repo prNumber = key ∧ ctx.refused key = false))
    (stands : HeadStands setup key headSha history) : HeadStands setup key headSha ((delivery, ctx) :: history) := by
  cases delivery with
  | opened => exact .inr stands
  | synchronize owner repo prNumber head =>
    rw [HeadStands, if_neg (unmoved owner repo prNumber head rfl)]
    exact stands
  | closed | pullRequestReview | workflowRunStarted | slashReview => exact stands

theorem ApprovalsOk.later (ok : ApprovalsOk setup history work approvals) (delivery : ReviewDelivery) (ctx : DeliveryContext)
    (unmoved : ∀ key owner repo prNumber head, delivery = .synchronize owner repo prNumber head →
      ¬(setup.prResourceKey owner repo prNumber = key ∧ ctx.refused key = false)) :
    ApprovalsOk setup ((delivery, ctx) :: history) work approvals := by
  refine ⟨fun id row stored => allowed_later (ok.rows id row stored), fun key row stored => ?_⟩
  have before := ok.approvals key row stored
  exact before.later fun awaiting => head_stands_after (unmoved key) (before.head awaiting)

theorem ApprovalsOk.update {selected : ResourceKey → ReviewApproval → Bool} {assign : ResourceKey → ReviewApproval → ReviewApproval}
    (ok : ApprovalsOk setup history work approvals)
    (keeps : ∀ key row, selected key row = true → ApprovalRowOk setup history key row →
      ApprovalRowOk setup history key (assign key row)) :
    ApprovalsOk setup history work (approvals.updateWhere selected assign) := by
  refine ⟨ok.rows, fun key row stored => ?_⟩
  simp only [Table.get?_updateWhere, Option.map_eq_some_iff] at stored
  obtain ⟨old, storedOld, rfl⟩ := stored
  split
  · next chosen => exact keeps key old chosen (ok.approvals key old storedOld)
  · exact ok.approvals key old storedOld

theorem insert_awaiting_ok {row : ReviewApproval} (ok : ApprovalsOk setup history work approvals)
    (fresh : ApprovalRowOk setup history key row) :
    ApprovalsOk setup history work (insertAwaitingApproval setup work approvals key row) := by
  unfold insertAwaitingApproval
  split
  · exact ok
  · refine ⟨ok.rows, fun other stored found => ?_⟩
    rcases Table.get?_set_cases found with ⟨rfl, rfl⟩ | ⟨_, found⟩
    · exact fresh
    · exact ok.approvals other stored found

variable {source : ApprovalSource}

theorem approve_awaiting_ok (headSha : Option Nat) (ok : ApprovalsOk setup history work approvals)
    (authorised : Authorised setup key (fun counted => counted = some source) history) :
    ApprovalsOk setup history work (approveAwaiting approvals key source headSha).2 := by
  simp only [approveAwaiting]
  apply ok.update
  intro other row chosen rowOk
  refine ⟨rowOk.opened, fun awaiting => ?_, fun _ => ?_⟩
  · cases awaiting
  · simp only [Bool.and_eq_true, Bool.or_eq_true, decide_eq_true_eq] at chosen
    obtain ⟨⟨rfl, -⟩, admits⟩ := chosen
    exact ⟨source, rfl, authorised, fun workflow => admits.resolve_left fun other => other workflow⟩

theorem withdraw_awaiting_ok (ok : ApprovalsOk setup history work approvals) :
    ApprovalsOk setup history work (withdrawAwaiting approvals key) :=
  ok.update fun _ _ _ rowOk => ⟨rowOk.opened, (by simp), (by simp)⟩

variable {headSha : Option Nat}

theorem approve_review_ok (ok : ApprovalsOk setup history world.toWorkState world.approvals)
    (authorised : Authorised setup key (fun counted => counted = some source) history)
    (made : approveReview setup ctx source headSha world key = some next) :
    ApprovalsOk setup history next.toWorkState next.approvals := by
  simp only [approveReview] at made
  split at made
  · obtain rfl := Option.some.inj made
    exact (approve_awaiting_ok headSha ok authorised).adds (replace_auto_adds (drawn_allowed (authorised_any authorised)))
  · cases made

theorem approve_reviews_ok (keys : List ResourceKey) (ok : ApprovalsOk setup history world.toWorkState world.approvals)
    (authorised : ∀ key ∈ keys, Authorised setup key (fun counted => counted = some source) history)
    (made : keys.foldlM (approveReview setup ctx source headSha) world = some next) :
    ApprovalsOk setup history next.toWorkState next.approvals := by
  induction keys generalizing world with
  | nil =>
    obtain rfl := Option.some.inj made
    exact ok
  | cons key rest ih =>
    rw [List.foldlM_cons] at made
    obtain ⟨middle, first, later⟩ := Option.bind_eq_some_iff.mp made
    exact ih (approve_review_ok ok (authorised key (.head _)) first)
      (fun other listed => authorised other (.tail _ listed)) later

theorem carried_opened (approval : setup.features.review = .approval) (trust : ReviewAuthorTrust) :
    (carriedPlan setup ctx "opened" trust key).review =
      if ctx.refused key then none else some (admissionForApprovalOpen trust) := by
  simp only [carriedPlan, planAutomatedPullRequestIntake, approval, if_pos]
  split <;> rfl

theorem carried_push (approval : setup.features.review = .approval) (key : ResourceKey) (trust : ReviewAuthorTrust)
    (kind : AutomatedPrIntakeKind) (review : kind.isReview = true) :
    kind ∈ (carriedPlan setup ctx "synchronize" trust key).kinds ↔ ctx.refused key = false := by
  cases refused : ctx.refused key with
  | true => simp [carriedPlan, refused, AutomatedPrIntakePlan.refuseReview, review]
  | false =>
    cases kind with
    | reviewSupersede => simp [carriedPlan, refused, planAutomatedPullRequestIntake, approval]
    | reviewTrackAwaitingHead => simp [carriedPlan, refused, planAutomatedPullRequestIntake, approval]
    | description | verification => cases review

theorem deliver_opened_ok (approval : setup.features.review = .approval)
    (ok : ApprovalsOk setup history world.toWorkState world.approvals) (owner repo : String) (prNumber headSha : Nat)
    (author : PullRequestAuthor) :
    let next := deliverOpened setup world ctx owner repo prNumber headSha author
    ApprovalsOk setup ((.opened owner repo prNumber headSha author, ctx) :: history) next.toWorkState next.approvals := by
  have later := ok.later (.opened owner repo prNumber headSha author) ctx (by simp)
  intro next
  simp only [next, deliverOpened, carried_opened approval]
  cases refused : ctx.refused (setup.prResourceKey owner repo prNumber) with
  | true => exact later
  | false =>
    have awaits {admits : Bool} (admission : admissionForApprovalOpen (reviewAuthorTrust setup author) = .await admits) :
        ApprovalRowOk setup ((.opened owner repo prNumber headSha author, ctx) :: history)
          (setup.prResourceKey owner repo prNumber)
          { owner, repo, prNumber, headSha, state := .awaiting, webhookEventId := ctx.eventId, workflowStartAdmits := admits } :=
      ⟨⟨_, .head _, rfl, refused, admission⟩, fun _ => .inl ⟨rfl, refused, rfl⟩, (by simp)⟩
    cases trust : reviewAuthorTrust setup author with
    | trusted => exact later.adds (replace_auto_adds (drawn_allowed (.inl ⟨⟨refused, rfl, trust⟩, trivial⟩)))
    | awaitingMaintainerApproval => exact insert_awaiting_ok later (awaits (by rw [trust]; rfl))
    | awaitingApproval => exact insert_awaiting_ok later (awaits (by rw [trust]; rfl))

theorem move_awaiting_ok (ok : ApprovalsOk setup history work approvals) {owner repo : String} {prNumber : Nat}
    (unrefused : ctx.refused (setup.prResourceKey owner repo prNumber) = false) (headSha : Nat) :
    ApprovalsOk setup ((.synchronize owner repo prNumber headSha, ctx) :: history) work
      (moveAwaitingHead approvals (setup.prResourceKey owner repo prNumber) headSha) := by
  refine ⟨fun id row stored => allowed_later (ok.rows id row stored), fun key row stored => ?_⟩
  simp only [moveAwaitingHead, Table.get?_updateWhere, Option.map_eq_some_iff] at stored
  obtain ⟨old, storedOld, rfl⟩ := stored
  have oldOk := ok.approvals key old storedOld
  split
  · next chosen =>
    simp only [Bool.and_eq_true, decide_eq_true_eq, ReviewApproval.isAwaiting] at chosen
    obtain ⟨rfl, awaiting, -⟩ := chosen
    obtain ⟨opening, listed, opens⟩ := oldOk.opened
    refine ⟨⟨opening, .tail _ listed, opens⟩, fun _ => ?_, fun approved => ?_⟩
    · rw [HeadStands, if_pos ⟨rfl, unrefused⟩]
    · exact absurd (awaiting.symm.trans approved) (by simp)
  · next kept =>
    refine oldOk.later fun awaiting => head_stands_after ?_ (oldOk.head awaiting)
    rintro _ _ _ _ ⟨⟩ ⟨rfl, -⟩
    exact kept (by simp [ReviewApproval.isAwaiting, awaiting])

theorem deliver_synchronize_ok (approval : setup.features.review = .approval)
    (ok : ApprovalsOk setup history world.toWorkState world.approvals) (owner repo : String) (prNumber headSha : Nat) :
    let next := deliverSynchronize setup world ctx owner repo prNumber headSha
    ApprovalsOk setup ((.synchronize owner repo prNumber headSha, ctx) :: history) next.toWorkState next.approvals := by
  intro next
  cases refused : ctx.refused (setup.prResourceKey owner repo prNumber) with
  | true =>
    have none (kind : AutomatedPrIntakeKind) (review : kind.isReview = true) :
        ¬ kind ∈ (carriedPlan setup ctx "synchronize" .awaitingApproval (setup.prResourceKey owner repo prNumber)).kinds := by
      rw [carried_push approval _ _ kind review, refused]
      simp
    simp only [next, deliverSynchronize, if_neg (none .reviewTrackAwaitingHead rfl),
      if_neg (none .reviewSupersede rfl)]
    apply ok.later
    rintro _ _ _ _ _ ⟨⟩ ⟨rfl, unrefused⟩
    rw [refused] at unrefused
    cases unrefused
  | false =>
    have moved := move_awaiting_ok ok refused headSha
    have carried (kind : AutomatedPrIntakeKind) (review : kind.isReview = true) :=
      (carried_push approval (setup.prResourceKey owner repo prNumber) .awaitingApproval kind review).mpr refused
    simp only [next, deliverSynchronize, if_pos (carried .reviewTrackAwaitingHead rfl),
      if_pos (carried .reviewSupersede rfl)]
    split
    · next admitted =>
      obtain ⟨-, admitted⟩ := (Bool.and_eq_true _ _).mp admitted
      simp only [everyPushReviewAdmitted, approval, ne_eq, not_true_eq_false, if_false] at admitted
      split at admitted
      · cases admitted
      · exact moved.adds (every_push_adds (drawn_allowed (moved.authorised admitted)))
    · exact moved.adds (replace_active_adds moved ctx.draw ctx.eventId)

-- The deliveries that approve: each pull request that is let through had its authorisation.
theorem deliver_approval_ok {delivery : ReviewDelivery} {keys : List ResourceKey}
    (ok : ApprovalsOk setup history world.toWorkState world.approvals)
    (named : delivery.source = some source)
    (authorises : ∀ key ∈ keys, admitsApproval world ctx headSha key = true → Authorises setup key history (delivery, ctx))
    (made : deliverApproval setup world ctx source headSha keys = some next) :
    ApprovalsOk setup ((delivery, ctx) :: history) next.toWorkState next.approvals := by
  refine approve_reviews_ok _ (ok.later delivery ctx ?_) (fun key listed => ?_) made
  · rintro _ _ _ _ _ rfl
    cases named
  · obtain ⟨member, admitted⟩ := List.mem_filter.mp listed
    exact .inl ⟨authorises key member admitted, named⟩

theorem workflow_authorises (ok : ApprovalsOk setup history world.toWorkState world.approvals) {owner repo : String}
    {headSha : Nat} {prNumbers : List Nat} (admitted : admitsApproval world ctx (some headSha) key = true) :
    Authorises setup key history (.workflowRunStarted owner repo headSha prNumbers, ctx) := by
  simp only [admitsApproval, Bool.and_eq_true, Bool.not_eq_true', loadAwaitingApproval, Option.any_eq_true,
    Option.filter_eq_some_iff, ReviewApproval.isAwaiting, Option.all_some, Option.isNone_some, Bool.false_or,
    decide_eq_true_eq] at admitted
  obtain ⟨refused, row, ⟨stored, awaiting, rfl⟩, admits⟩ := admitted
  have rowOk := ok.approvals key row stored
  obtain ⟨opening, listed, opens⟩ := rowOk.opened
  rw [admits] at opens
  exact ⟨refused, rowOk.head awaiting, opening, listed, opens⟩

theorem admits_open (admitted : admitsApproval world ctx headSha key = true) : ctx.refused key = false := by
  simp only [admitsApproval, Bool.and_eq_true, Bool.not_eq_true'] at admitted
  exact admitted.1

theorem deliver_slash_ok {owner repo : String} {prNumber : Nat} {commenter : Commenter} {login : String} {force : Bool}
    (ok : ApprovalsOk setup history world.toWorkState world.approvals) (admitted : Authorized setup ctx.bot commenter) :
    let next := deliverSlashReview setup world ctx (setup.prResourceKey owner repo prNumber) login force
    ApprovalsOk setup ((.slashReview owner repo prNumber commenter login force, ctx) :: history)
      next.toWorkState next.approvals := by
  have later := ok.later (.slashReview owner repo prNumber commenter login force) ctx (by simp)
  intro next
  simp only [next, deliverSlashReview]
  cases refused : ctx.refused (setup.prResourceKey owner repo prNumber) with
  | true => exact later
  | false =>
    have authorised : Authorised setup (setup.prResourceKey owner repo prNumber) (fun counted => counted = some .slash)
        ((.slashReview owner repo prNumber commenter login force, ctx) :: history) := .inl ⟨⟨refused, rfl, admitted⟩, rfl⟩
    have cancelled := later.adds (show Adds _ _ (if force then cancelActive setup.leaseKeyOf world.toWorkState
        ⟨setup.prResourceKey owner repo prNumber, .review⟩ (.user login) else world.toWorkState) by
      split
      · exact cancel_active_adds _ _
      · exact adds_of_items rfl)
    generalize (if force then cancelActive setup.leaseKeyOf world.toWorkState
      ⟨setup.prResourceKey owner repo prNumber, .review⟩ (.user login) else world.toWorkState) = work at cancelled ⊢
    simp only [Bool.false_eq_true, if_false, createSlashReview]
    split
    · exact cancelled
    · exact (approve_awaiting_ok none cancelled authorised).adds (insert_adds (drawn_allowed (authorised_any authorised)))

theorem deliver_ok (approval : setup.features.review = .approval)
    (ok : ApprovalsOk setup history world.toWorkState world.approvals) (delivery : ReviewDelivery)
    (made : deliver setup world ctx delivery = some next) :
    ApprovalsOk setup ((delivery, ctx) :: history) next.toWorkState next.approvals := by
  cases delivery with
  | opened owner repo prNumber headSha author =>
    obtain rfl := Option.some.inj made
    exact deliver_opened_ok approval ok owner repo prNumber headSha author
  | synchronize owner repo prNumber headSha =>
    obtain rfl := Option.some.inj made
    exact deliver_synchronize_ok approval ok owner repo prNumber headSha
  | closed owner repo prNumber merged =>
    obtain rfl := Option.some.inj made
    have later := ok.later (.closed owner repo prNumber merged) ctx (by simp)
    simp only [deliverClosed]
    split
    · exact (withdraw_awaiting_ok later).adds (cancel_active_adds _ _)
    · exact later
  | pullRequestReview owner repo prNumber reviewer =>
    have later := ok.later (.pullRequestReview owner repo prNumber reviewer) ctx (by simp)
    simp only [deliver, approval, ne_eq, not_true_eq_false, if_false] at made
    cases gate : authorize setup ctx.bot reviewer.toCommenter reviewer.type with
    | ignored decision => exact Option.some.inj (gate ▸ made) ▸ later
    | authRequired => exact Option.some.inj (gate ▸ made) ▸ later
    | admitted bot =>
      rw [gate] at made
      refine deliver_approval_ok ok rfl (fun key listed admitted => ?_) made
      obtain rfl := List.mem_singleton.mp listed
      exact ⟨admits_open admitted, rfl, bot, gate⟩
  | workflowRunStarted owner repo headSha prNumbers =>
    simp only [deliver, approval, ne_eq, not_true_eq_false, if_false] at made
    exact deliver_approval_ok ok rfl (fun key _ admitted => workflow_authorises ok admitted) made
  | slashReview owner repo prNumber commenter login force =>
    have later := ok.later (.slashReview owner repo prNumber commenter login force) ctx (by simp)
    simp only [deliver] at made
    cases gate : authorize setup ctx.bot commenter with
    | ignored decision => exact Option.some.inj (gate ▸ made) ▸ later
    | authRequired => exact Option.some.inj (gate ▸ made) ▸ later
    | admitted bot =>
      rw [gate] at made
      obtain rfl := Option.some.inj made
      exact deliver_slash_ok ok ⟨bot, gate⟩

end Deliveries

section Runs

variable {setup : ApprovalSetup} {world next : ApprovalWorld}

theorem approval_step_ok (approval : setup.features.review = .approval) (event : ApprovalEvent)
    (ok : ApprovalsOk setup world.history world.toWorkState world.approvals)
    (moved : approvalStep setup world event = some next) :
    ApprovalsOk setup next.history next.toWorkState next.approvals := by
  cases event with
  | deliver delivery ctx =>
    simp only [approvalStep] at moved
    split at moved
    · obtain ⟨made, delivered, rfl⟩ := Option.map_eq_some_iff.mp moved
      have accepted := deliver_ok approval ok delivery delivered
      exact accepted
    · cases moved
  | replace parentId id new =>
    simp only [approvalStep, Bool.and_eq_true, Option.any_eq_true, decide_eq_true_eq] at moved
    split at moved
    · next replaces =>
      obtain ⟨⟨⟨parent, stored, lens⟩, type⟩, same⟩ := replaces
      obtain rfl := Option.some.inj moved
      have allowed := ok.rows parentId parent stored
      refine ok.adds (insert_adds ?_)
      rw [RowAllowed, same, lens]
      exact allowed
    · cases moved
  | work move =>
    simp only [approvalStep] at moved
    split at moved
    · cases moved
    · next other =>
      obtain rfl := Option.some.inj moved
      refine ok.adds (move_adds move fun id new inserts => ?_)
      subst inserts
      simp only [insertsReview, Bool.or_eq_true, decide_eq_true_eq, not_or] at other
      exact ⟨fun lens => (other.2 lens).elim, fun type => (other.1 type).elim⟩
  | deleteExpired keys =>
    obtain rfl := Option.some.inj moved
    refine ⟨ok.rows, fun key row stored => ?_⟩
    rw [Table.get?_deleteWhere, Option.filter_eq_some_iff] at stored
    exact ok.approvals key row stored.1

theorem approvals_run_ok (approval : setup.features.review = .approval) (events : List ApprovalEvent) :
    let world := schedule (approvalStep setup) .empty events
    ApprovalsOk setup world.history world.toWorkState world.approvals :=
  schedule_invariant (fun world => ApprovalsOk setup world.history world.toWorkState world.approvals)
    (fun _ event _ ok moved => approval_step_ok approval event ok moved) events
    ⟨(fun _ _ stored => by cases stored), (fun _ _ stored => by cases stored)⟩

-- In approval mode, no pull request has a review before a delivery that authorises it.
theorem reviews_authorised (setup : ApprovalSetup) (approval : setup.features.review = .approval) (events : List ApprovalEvent)
    (id : WorkItemId) (row : WorkItem)
    (stored : (schedule (approvalStep setup) .empty events).items.get? id = some row)
    (review : (setup.leaseKeyOf id).workType = .review) :
    Authorised setup (setup.leaseKeyOf id).resourceKey (fun _ => True) (schedule (approvalStep setup) .empty events).history :=
  ((approvals_run_ok approval events).rows id row stored).2 review

theorem approval_rows_sound (setup : ApprovalSetup) (approval : setup.features.review = .approval) (events : List ApprovalEvent)
    (key : ResourceKey) (row : ReviewApproval)
    (stored : (schedule (approvalStep setup) .empty events).approvals.get? key = some row) :
    ApprovalRowOk setup (schedule (approvalStep setup) .empty events).history key row :=
  (approvals_run_ok approval events).approvals key row stored

end Runs

section Sample

def forkAuthor : PullRequestAuthor := ⟨some "MANNEQUIN", some (some 2), some (some 1)⟩

def sampleContext : DeliveryContext := ⟨5, none, fun _ => some .open, false, 0, []⟩

def sampleApprovals : ApprovalSetup where
  features := ⟨.approval, .everyPush, .off, .off⟩
  slashAllowed := ["OWNER"]
  toUpperCase association := association
  toLowerCase type := type
  leaseKeyOf id := ⟨id, .review⟩
  prResourceKey _ _ prNumber := prNumber
  drawId key _ := key
  drawn _ _ := rfl

def forkEvents : List ApprovalEvent :=
  [.deliver (.opened "acme" "site" 7 11 forkAuthor) sampleContext,
    .deliver (.synchronize "acme" "site" 7 12) sampleContext,
    .deliver (.workflowRunStarted "acme" "site" 12 []) sampleContext]

theorem fork_review_authorised :
    Authorised sampleApprovals 7 (fun _ => True) (schedule (approvalStep sampleApprovals) .empty forkEvents).history := by
  have stored : ((schedule (approvalStep sampleApprovals) .empty forkEvents).items.get? 7).isSome = true := by decide
  obtain ⟨row, stored⟩ := Option.isSome_iff_exists.mp stored
  exact reviews_authorised sampleApprovals rfl forkEvents 7 row stored rfl

theorem fork_approval_sound : ∃ row, (schedule (approvalStep sampleApprovals) .empty forkEvents).approvals.get? 7 = some row ∧
    row.state = .approved ∧ ApprovalRowOk sampleApprovals (schedule (approvalStep sampleApprovals) .empty forkEvents).history 7 row :=
  ⟨_, rfl, rfl, approval_rows_sound sampleApprovals rfl forkEvents 7 _ rfl⟩

end Sample
end PrAgent
