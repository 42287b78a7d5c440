import PrAgent.InlineBatches
set_option autoImplicit false

namespace PrAgent

section Placements

variable (Finding Reaffirmed : Type)

structure InlinePlacement where
  finding : Finding
  inlineLine : Option Nat
  inlinePosted : Bool

structure IdentifiedInlinePlacement extends InlinePlacement Finding where
  findingId : String
  reopens : Option String

inductive SummaryOnlyReason
  | cap | budget | anchor | inventoryIncomplete | unansweredOverlap
  deriving DecidableEq, Repr

inductive AcceptedPlacement
  | posted (source : FindingSource) (placement : InlinePlacement Finding) (findingId : String) (reviewId : Nat)
      (reopens : Option String)
  | resumed (source : FindingSource) (placement : InlinePlacement Finding) (findingId : String) (reviewId : Nat)
  | summaryOnly (source : FindingSource) (placement : InlinePlacement Finding) (findingId : String)
      (reason : SummaryOnlyReason) (reopens : Option String)

structure FindingLedgerDelta where
  accepted : List (AcceptedPlacement Finding)
  reaffirmed : List Reaffirmed
  suppressedDismissedCount : Nat
  inlineReviewIds : List Nat
  postedInlineCount : Nat
  threadCallCount : Nat
  threadBudgetExhausted : Bool

-- The review ids come from a `Set`.
structure FindingLedger extends FindingLedgerDelta Finding Reaffirmed where
  inlineReviewIds_nodup : inlineReviewIds.Nodup

end Placements

variable {Finding Reaffirmed : Type}

theorem firsts_id_nodup (ids : List Nat) : (firsts id ids).Nodup := by
  have nodup : ((firsts id ids).map id).Nodup := nodup_firsts ids
  rwa [List.map_id] at nodup

theorem firsts_id_of_nodup {ids : List Nat} (nodup : ids.Nodup) : firsts id ids = ids := by
  induction ids using List.reverseRecOn with
  | nil => rfl
  | append_singleton ids new ih =>
      obtain ⟨before, _, apart⟩ := List.nodup_append.mp nodup
      have fresh : ¬ (ids.any fun old => decide (id old = id new)) = true := by
        intro known
        obtain ⟨old, listed, same⟩ := List.any_eq_true.mp known
        exact apart old listed new (List.mem_singleton_self new) (of_decide_eq_true same)
      rw [firsts_append, ih before, appendFirst, if_neg fresh]

@[ext]
theorem FindingLedger.ext_delta {first second : FindingLedger Finding Reaffirmed}
    (same : first.toFindingLedgerDelta = second.toFindingLedgerDelta) : first = second := by
  cases first
  cases second
  cases same
  rfl

-- A saved ledger has every field of the argument; the others are the defaults.
def createFindingLedger (initial : FindingLedgerDelta Finding Reaffirmed) : FindingLedger Finding Reaffirmed :=
  { initial with
    inlineReviewIds := firsts id initial.inlineReviewIds
    inlineReviewIds_nodup := firsts_id_nodup _ }

theorem createFindingLedger_ledger (ledger : FindingLedger Finding Reaffirmed) :
    createFindingLedger ledger.toFindingLedgerDelta = ledger := by
  apply FindingLedger.ext_delta
  simp only [createFindingLedger, firsts_id_of_nodup ledger.inlineReviewIds_nodup]

def applyFindingLedgerDelta (ledger : FindingLedger Finding Reaffirmed)
    (delta : FindingLedgerDelta Finding Reaffirmed) : FindingLedger Finding Reaffirmed where
  accepted := ledger.accepted ++ delta.accepted
  reaffirmed := ledger.reaffirmed ++ delta.reaffirmed
  suppressedDismissedCount := ledger.suppressedDismissedCount + delta.suppressedDismissedCount
  inlineReviewIds := firsts id (ledger.inlineReviewIds ++ delta.inlineReviewIds)
  postedInlineCount := ledger.postedInlineCount + delta.postedInlineCount
  threadCallCount := ledger.threadCallCount + delta.threadCallCount
  threadBudgetExhausted := ledger.threadBudgetExhausted || delta.threadBudgetExhausted
  inlineReviewIds_nodup := firsts_id_nodup _

-- `emptyDelta`; the other fields of its overrides stand where it is used.
def emptyDelta (accepted : List (AcceptedPlacement Finding)) (reaffirmed : List Reaffirmed)
    (suppressedDismissedCount : Nat) : FindingLedgerDelta Finding Reaffirmed where
  accepted
  reaffirmed
  suppressedDismissedCount
  inlineReviewIds := []
  postedInlineCount := 0
  threadCallCount := 1
  threadBudgetExhausted := false

-- What the replay of a rejected decision changes.
def noDelta : FindingLedgerDelta Finding Reaffirmed := { emptyDelta [] [] 0 with threadCallCount := 0 }

theorem apply_noDelta (ledger : FindingLedger Finding Reaffirmed) :
    applyFindingLedgerDelta ledger noDelta = ledger := by
  apply FindingLedger.ext_delta
  simp [applyFindingLedgerDelta, noDelta, emptyDelta, firsts_id_of_nodup ledger.inlineReviewIds_nodup]

def ResumedPlacement.accepted (resumed : ResumedPlacement Finding) : AcceptedPlacement Finding :=
  .resumed resumed.source ⟨resumed.finding, some resumed.inlineLine, true⟩ resumed.findingId resumed.reviewId

-- The ledger of an attempt that has no saved thread decision: every resumed placement is a posted one.
def initialLedger (context : ReviewExecutorPublishContext Finding) : FindingLedger Finding Reaffirmed :=
  createFindingLedger
    { accepted := context.resumedPlacements.map ResumedPlacement.accepted
      reaffirmed := []
      suppressedDismissedCount := 0
      inlineReviewIds := context.publishState.inlineReviewIds ++ context.resumedPlacements.map ResumedPlacement.reviewId
      postedInlineCount := context.resumedPlacements.length
      threadCallCount := context.publishState.threadCallCount
      threadBudgetExhausted := false }

end PrAgent
