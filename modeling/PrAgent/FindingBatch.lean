import PrAgent.FindingLedger
import Mathlib.Data.List.Perm.Subperm
import Mathlib.Data.List.Enum
set_option autoImplicit false

namespace PrAgent

structure ReviewCaps where
  maxInlineComments : Nat
  maxThreadPublishCalls : Nat

-- A batch after reconciliation, with an id for each placement that may be posted.
structure ReconciledBatch (Finding Reaffirmed : Type) where
  postable : List (IdentifiedInlinePlacement Finding)
  held : List (IdentifiedInlinePlacement Finding × SummaryOnlyReason)
  reaffirmed : List Reaffirmed
  suppressedDismissedCount : Nat

inductive BatchResultKind
  | remote | empty | budgetExhausted
  deriving DecidableEq, Repr

-- `deterministicInlineBatchId`, with the material of the digest in the place of the digest.
abbrev InlineBatchId := String × List String

def deterministicInlineBatchId (headSha : String) (findingIds : List String) : InlineBatchId :=
  (headSha, findingIds.mergeSort)

-- `batchId` is the operation key that is saved next to the decision; no reader uses the key of a local decision.
structure CanonicalThreadDecision (Finding Reaffirmed : Type) where
  source : FindingSource
  ledgerBefore : FindingLedger Finding Reaffirmed
  localDelta : FindingLedgerDelta Finding Reaffirmed
  inline : List (IdentifiedInlinePlacement Finding)
  resultKind : BatchResultKind
  batchId : InlineBatchId
  batchId_of_inline : ∃ headSha, batchId = deterministicInlineBatchId headSha (inline.map (·.findingId))
  inline_of_remote : resultKind = .remote → inline ≠ []

structure InlinePublishResult (Finding : Type) where
  review : Option Nat
  posted : List (IdentifiedInlinePlacement Finding)
  anchorDropped : List (IdentifiedInlinePlacement Finding)

-- How one call of `publishThreadBatch` ends; an anchor error may hint at the placements that it is about.
inductive BatchResponse (Finding : Type)
  | accepted (reviewId : Nat)
  | anchorError (hinted : IdentifiedInlinePlacement Finding → Bool)

section Batch

variable {Finding Reaffirmed : Type} (before : Finding → Finding → Bool)

def cappedIndices (placements : List (IdentifiedInlinePlacement Finding)) (maxInlineComments : Nat) : List Nat :=
  let posted := placements.zipIdx.filter fun entry => entry.1.inlinePosted
  ((posted.mergeSort fun a b => before a.1.finding b.1.finding).take maxInlineComments).map Prod.snd

def applyInlineCommentCap (placements : List (IdentifiedInlinePlacement Finding)) (maxInlineComments : Nat) :
    List (IdentifiedInlinePlacement Finding) :=
  if (placements.filter fun placement => placement.inlinePosted).length ≤ maxInlineComments then placements
  else
    placements.zipIdx.map fun entry =>
      if !entry.1.inlinePosted || entry.2 ∈ cappedIndices before placements maxInlineComments then entry.1
      else { entry.1 with inlinePosted := false }

def inlineTargets (placements : List (IdentifiedInlinePlacement Finding)) : List (IdentifiedInlinePlacement Finding) :=
  placements.filter fun placement => placement.inlinePosted

def summaryOnlyPlacement (source : FindingSource) (placement : IdentifiedInlinePlacement Finding)
    (reason : SummaryOnlyReason) : AcceptedPlacement Finding :=
  .summaryOnly source ⟨placement.finding, placement.inlineLine, false⟩ placement.findingId reason placement.reopens

def postedPlacement (source : FindingSource) (reviewId : Nat) (placement : IdentifiedInlinePlacement Finding) :
    AcceptedPlacement Finding :=
  .posted source placement.toInlinePlacement placement.findingId reviewId placement.reopens

variable (placementKey : Finding → String)

-- The last planned placement of a key is the one a `Map` keeps.
def plannedByKey (planned : List (IdentifiedInlinePlacement Finding)) (key : String) :
    Option (IdentifiedInlinePlacement Finding) :=
  (planned.filter fun placement => placementKey placement.finding = key).getLast?

def acceptedSummaryPlacements (targets : List (IdentifiedInlinePlacement Finding))
    (batch : ReconciledBatch Finding Reaffirmed) (source : FindingSource) (budgetExhausted : Bool) :
    List (AcceptedPlacement Finding) :=
  let held := batch.held.map fun entry => summaryOnlyPlacement source entry.1 entry.2
  let fromTargets := targets.filterMap fun placement =>
    if placement.inlinePosted && !budgetExhausted then none
    else
      let planned := plannedByKey placementKey batch.postable (placementKey placement.finding)
      let reason := if budgetExhausted then .budget else if planned.any (·.inlinePosted) then .cap else .anchor
      some (summaryOnlyPlacement source placement reason)
  held ++ fromTargets

variable (caps : ReviewCaps)

def threadBudgetSpent (ledger : FindingLedger Finding Reaffirmed) : Bool :=
  ledger.threadBudgetExhausted || caps.maxThreadPublishCalls ≤ ledger.threadCallCount

def remainingInline (ledger : FindingLedger Finding Reaffirmed) : Nat :=
  caps.maxInlineComments - ledger.postedInlineCount

-- What a batch that is not replayed decides before anything is saved or sent.
def planFindingBatch (headSha : String) (source : FindingSource) (ledger : FindingLedger Finding Reaffirmed)
    (batch : ReconciledBatch Finding Reaffirmed) : CanonicalThreadDecision Finding Reaffirmed :=
  let targets := applyInlineCommentCap before batch.postable (remainingInline caps ledger)
  let spent := threadBudgetSpent caps ledger
  let delta := emptyDelta (acceptedSummaryPlacements placementKey targets batch source spent) batch.reaffirmed
    batch.suppressedDismissedCount
  { source
    ledgerBefore := ledger
    localDelta := { delta with threadBudgetExhausted := spent }
    inline := inlineTargets targets
    resultKind := if spent then .budgetExhausted else if (inlineTargets targets).isEmpty then .empty else .remote
    batchId := deterministicInlineBatchId headSha ((inlineTargets targets).map (·.findingId))
    batchId_of_inline := ⟨headSha, rfl⟩
    inline_of_remote := by
      intro remote none_
      by_cases exhausted : spent = true
      · simp [exhausted] at remote
      · simp [exhausted, none_] at remote }

-- The placement that a hint singles out, or the first of the drop order that is still attempted.
def lineResolutionDrop (dropOrder attempt : List (IdentifiedInlinePlacement Finding × Nat))
    (hinted : IdentifiedInlinePlacement Finding → Bool) : List (IdentifiedInlinePlacement Finding × Nat) :=
  let matching := attempt.filter fun entry => hinted entry.1
  if matching.length = 1 then matching
  else (dropOrder.find? fun entry => entry.2 ∈ attempt.map Prod.snd).toList

def withoutDropped (attempt drop : List (IdentifiedInlinePlacement Finding × Nat)) :
    List (IdentifiedInlinePlacement Finding × Nat) :=
  attempt.filter fun entry => entry.2 ∉ drop.map Prod.snd

-- One call after another, each without the placements that the errors before it dropped.
def publishAttempts (dropOrder : List (IdentifiedInlinePlacement Finding × Nat)) :
    List (BatchResponse Finding) → List (IdentifiedInlinePlacement Finding × Nat) →
      List (IdentifiedInlinePlacement Finding) → Option (InlinePublishResult Finding)
  | _, [], dropped => some ⟨none, [], dropped⟩
  | [], _ :: _, _ => none
  | .accepted reviewId :: _, attempt, dropped => some ⟨some reviewId, attempt.map Prod.fst, dropped⟩
  | .anchorError hinted :: rest, attempt, dropped =>
    match lineResolutionDrop dropOrder attempt hinted with
    | [] => some ⟨none, [], dropped⟩
    | drop =>
      publishAttempts dropOrder rest (withoutDropped attempt drop)
        (dropped ++ drop.map fun entry => { entry.1 with inlinePosted := false })

def publishInlineReviewComments (inline : List (IdentifiedInlinePlacement Finding))
    (responses : List (BatchResponse Finding)) : Option (InlinePublishResult Finding) :=
  let attempt := (inline.filter fun placement => placement.inlinePosted && placement.inlineLine.isSome).zipIdx
  publishAttempts (attempt.mergeSort fun a b => before b.1.finding a.1.finding) responses attempt []

-- What `recover` answers from the comments of the review that carries the marker of the operation.
def recoveredResult (inline : List (IdentifiedInlinePlacement Finding)) (sent : InlinePublishResult Finding) :
    InlinePublishResult Finding :=
  let posted := fun placement : IdentifiedInlinePlacement Finding =>
    decide (placement.findingId ∈ sent.posted.map (·.findingId))
  ⟨sent.review, inline.filter posted,
    (inline.filter fun placement => !posted placement).map fun placement => { placement with inlinePosted := false }⟩

-- The change of the ledger by a local decision; without its evidence no placement of it is accepted.
def localDelta (withoutEvidence : Bool) (decision : CanonicalThreadDecision Finding Reaffirmed) :
    FindingLedgerDelta Finding Reaffirmed :=
  if withoutEvidence then { decision.localDelta with accepted := [], reaffirmed := [], suppressedDismissedCount := 0 }
  else decision.localDelta

-- The change of the ledger by a batch that was sent.
def remoteDelta (withoutEvidence : Bool) (decision : CanonicalThreadDecision Finding Reaffirmed)
    (result : InlinePublishResult Finding) : FindingLedgerDelta Finding Reaffirmed :=
  let dropped := if withoutEvidence then []
    else result.anchorDropped.map fun placement => summaryOnlyPlacement decision.source placement .anchor
  let kept := (localDelta withoutEvidence decision).accepted ++ dropped
  let delta := emptyDelta kept (localDelta withoutEvidence decision).reaffirmed
    (localDelta withoutEvidence decision).suppressedDismissedCount
  match result.review with
  | none => delta
  | some reviewId =>
    { delta with
      accepted := kept ++ result.posted.map (postedPlacement decision.source reviewId)
      inlineReviewIds := [reviewId]
      postedInlineCount := result.posted.length }

end Batch

section Bounds

variable {Finding Reaffirmed : Type} {before : Finding → Finding → Bool}

theorem length_inlineTargets_zipIdx (placements : List (IdentifiedInlinePlacement Finding)) (kept : List Nat) :
    (inlineTargets (placements.zipIdx.map fun entry =>
      if !entry.1.inlinePosted || entry.2 ∈ kept then entry.1 else { entry.1 with inlinePosted := false })).length ≤
      kept.length := by
  have chosen : (inlineTargets (placements.zipIdx.map fun entry =>
      if !entry.1.inlinePosted || entry.2 ∈ kept then entry.1
      else { entry.1 with inlinePosted := false })).length ≤
      (placements.zipIdx.filter fun entry => entry.2 ∈ kept).length := by
    rw [inlineTargets, List.filter_map, List.length_map]
    apply List.Sublist.length_le
    apply List.monotone_filter_right
    intro entry posted
    by_cases listed : entry.2 ∈ kept
    · exact decide_eq_true listed
    · by_cases inline : entry.1.inlinePosted = true
      · simp [inline, listed] at posted
      · simp [inline] at posted
  have nodup : ((placements.zipIdx.filter fun entry => entry.2 ∈ kept).map Prod.snd).Nodup := by
    have indices : (placements.zipIdx.map Prod.snd).Nodup := by
      rw [List.zipIdx_map_snd]
      exact List.nodup_range'
    exact indices.sublist (List.filter_sublist.map Prod.snd)
  have within : ((placements.zipIdx.filter fun entry => entry.2 ∈ kept).map Prod.snd).length ≤ kept.length := by
    apply List.Subperm.length_le
    apply nodup.subperm
    intro index listed
    obtain ⟨entry, kept_, rfl⟩ := List.mem_map.mp listed
    exact of_decide_eq_true (List.mem_filter.mp kept_).2
  rw [List.length_map] at within
  exact Nat.le_trans chosen within

-- No more placements stay inline than the cap leaves room for.
theorem length_inline_capped (before : Finding → Finding → Bool)
    (placements : List (IdentifiedInlinePlacement Finding)) (maxInlineComments : Nat) :
    (inlineTargets (applyInlineCommentCap before placements maxInlineComments)).length ≤ maxInlineComments := by
  unfold applyInlineCommentCap
  by_cases fits : (placements.filter fun placement => placement.inlinePosted).length ≤ maxInlineComments
  · rw [if_pos fits]
    exact fits
  · rw [if_neg fits]
    have bound := length_inlineTargets_zipIdx placements (cappedIndices before placements maxInlineComments)
    have taken : (cappedIndices before placements maxInlineComments).length ≤ maxInlineComments := by
      rw [cappedIndices, List.length_map]
      exact List.length_take_le _ _
    exact Nat.le_trans bound taken

-- Whatever GitHub answers, the posted placements are some of the planned ones, and none without a review.
structure PostedFrom (inline : List (IdentifiedInlinePlacement Finding)) (result : InlinePublishResult Finding) : Prop where
  posted : result.posted.Sublist inline
  review : result.review = none → result.posted = []

theorem publishAttempts_posted (dropOrder : List (IdentifiedInlinePlacement Finding × Nat))
    (inline : List (IdentifiedInlinePlacement Finding)) (responses : List (BatchResponse Finding))
    (attempt : List (IdentifiedInlinePlacement Finding × Nat)) (dropped : List (IdentifiedInlinePlacement Finding))
    (result : InlinePublishResult Finding) (planned : (attempt.map Prod.fst).Sublist inline)
    (published : publishAttempts dropOrder responses attempt dropped = some result) : PostedFrom inline result := by
  induction responses generalizing attempt dropped with
  | nil =>
      cases attempt with
      | nil =>
          obtain rfl := Option.some.inj published
          exact ⟨List.nil_sublist _, fun _ => rfl⟩
      | cons entry attempt => cases published
  | cons response rest ih =>
      cases attempt with
      | nil =>
          obtain rfl := Option.some.inj published
          exact ⟨List.nil_sublist _, fun _ => rfl⟩
      | cons entry attempt =>
          cases response with
          | accepted reviewId =>
              obtain rfl := Option.some.inj published
              exact ⟨planned, nofun⟩
          | anchorError hinted =>
              simp only [publishAttempts] at published
              cases dropping : lineResolutionDrop dropOrder (entry :: attempt) hinted with
              | nil =>
                  rw [dropping] at published
                  obtain rfl := Option.some.inj published
                  exact ⟨List.nil_sublist _, fun _ => rfl⟩
              | cons drop drops =>
                  rw [dropping] at published
                  have kept : ((withoutDropped (entry :: attempt) (drop :: drops)).map Prod.fst).Sublist inline :=
                    (List.filter_sublist.map Prod.fst).trans planned
                  exact ih _ _ kept published

theorem publishInline_posted {inline : List (IdentifiedInlinePlacement Finding)}
    {responses : List (BatchResponse Finding)} {result : InlinePublishResult Finding}
    (published : publishInlineReviewComments before inline responses = some result) : PostedFrom inline result := by
  refine publishAttempts_posted _ inline responses _ _ result ?_ published
  rw [List.zipIdx_map_fst]
  exact List.filter_sublist

-- A recovery of the review counts at least the comments that were posted.
theorem length_recovered {inline : List (IdentifiedInlinePlacement Finding)} {sent : InlinePublishResult Finding}
    (planned : (sent.posted.map (·.findingId)).Subperm (inline.map (·.findingId))) :
    sent.posted.length ≤ (recoveredResult inline sent).posted.length := by
  have kept := planned.filter fun id => decide (id ∈ sent.posted.map (·.findingId))
  have all : (sent.posted.map (·.findingId)).filter (fun id => decide (id ∈ sent.posted.map (·.findingId))) =
      sent.posted.map (·.findingId) := by
    rw [List.filter_eq_self]
    intro id listed
    exact decide_eq_true listed
  rw [all, List.filter_map] at kept
  have bound := kept.length_le
  rw [List.length_map, List.length_map] at bound
  exact bound

end Bounds

end PrAgent
