import PrAgent.ReviewAttemptShape
import Mathlib.Algebra.Order.BigOperators.Group.List
set_option autoImplicit false

namespace PrAgent

variable {Finding Reaffirmed : Type}

-- A cap on what `publish_thread` posts: how a posted review weighs, how a ledger counts it, and what a batch that is
-- planned for GitHub leaves room for.
structure ThreadCap (setting : ReviewSetting Finding) (Reaffirmed : Type) where
  weigh : Nat → Nat
  counted : FindingLedgerDelta Finding Reaffirmed → Nat
  limit : Nat
  weigh_le : ∀ {few many}, few ≤ many → weigh few ≤ weigh many
  counted_create : ∀ delta, counted (createFindingLedger delta).toFindingLedgerDelta = counted delta
  counted_apply : ∀ ledger delta, counted (applyFindingLedgerDelta ledger delta).toFindingLedgerDelta =
    counted ledger.toFindingLedgerDelta + counted delta
  counted_remote : ∀ withoutEvidence decision (result : InlinePublishResult Finding), result.review.isSome = true →
    weigh result.posted.length ≤ counted (remoteDelta withoutEvidence decision result)
  fits : ∀ headSha source (ledger : FindingLedger Finding Reaffirmed) batch,
    (planFindingBatch setting.before setting.placementKey setting.caps headSha source ledger batch).resultKind = .remote →
    counted ledger.toFindingLedgerDelta +
      weigh (planFindingBatch setting.before setting.placementKey setting.caps headSha source ledger batch).inline.length ≤
      limit

section Caps

variable (setting : ReviewSetting Finding)

-- A batch is planned for GitHub only below the cap on calls, and with some placement inline.
theorem planned_remote {headSha : String} {source : FindingSource} {ledger : FindingLedger Finding Reaffirmed}
    {batch : ReconciledBatch Finding Reaffirmed}
    (remote : (planFindingBatch setting.before setting.placementKey setting.caps headSha source ledger batch).resultKind =
      .remote) :
    ledger.threadCallCount < setting.caps.maxThreadPublishCalls ∧
      0 < (planFindingBatch setting.before setting.placementKey setting.caps headSha source ledger batch).inline.length := by
  have some_ := (planFindingBatch setting.before setting.placementKey setting.caps headSha source ledger
    batch).inline_of_remote remote
  refine ⟨?_, List.length_pos_of_ne_nil some_⟩
  by_cases spent : threadBudgetSpent setting.caps ledger = true
  · simp [planFindingBatch, spent] at remote
  · simp only [threadBudgetSpent, Bool.or_eq_true, decide_eq_true_eq, not_or] at spent
    omega

def inlineCommentCap : ThreadCap setting Reaffirmed where
  weigh comments := comments
  counted delta := delta.postedInlineCount
  limit := setting.caps.maxInlineComments
  weigh_le bound := bound
  counted_create _ := rfl
  counted_apply _ _ := rfl
  counted_remote withoutEvidence decision result posted := by
    obtain ⟨reviewId, review⟩ := Option.isSome_iff_exists.mp posted
    simp [remoteDelta, review]
  fits headSha source ledger batch remote := by
    obtain ⟨_, some_⟩ := planned_remote setting remote
    have room := length_inline_capped setting.before batch.postable (remainingInline setting.caps ledger)
    simp only [planFindingBatch] at some_ ⊢
    simp only [remainingInline] at room some_ ⊢
    omega

def threadCallCap : ThreadCap setting Reaffirmed where
  weigh _ := 1
  counted delta := delta.threadCallCount
  limit := setting.caps.maxThreadPublishCalls
  weigh_le _ := Nat.le_refl 1
  counted_create _ := rfl
  counted_apply _ _ := rfl
  counted_remote withoutEvidence decision result posted := by
    obtain ⟨reviewId, review⟩ := Option.isSome_iff_exists.mp posted
    simp [remoteDelta, review, emptyDelta]
  fits headSha source ledger batch remote := (planned_remote setting remote).1

end Caps

section Weights

variable {setting : ReviewSetting Finding} (cap : ThreadCap setting Reaffirmed)

def postedTotal (reviews : List (ThreadReview Finding)) : Nat :=
  (reviews.map fun review => cap.weigh review.comments.length).sum

def receiptWeight : Option (BatchReceipt Finding) → Nat
  | some receipt => if receipt.result.review.isSome then cap.weigh receipt.result.posted.length else 0
  | none => 0

def savedWeight (receipts : Table InlineBatchId (BatchReceipt Finding)) (saved : RecoveryDecision Finding Reaffirmed) :
    Nat :=
  match saved.canonical with
  | .summary => 0
  | .threads decision =>
    if decision.resultKind = .remote ∧ saved.settled ≠ some .stopped then receiptWeight cap (receipts.get? decision.batchId)
    else 0

-- What the saved decisions from the `n`th on have posted.
def restWeight (receipts : Table InlineBatchId (BatchReceipt Finding))
    (decisions : List (RecoveryDecision Finding Reaffirmed)) (n : Nat) : Nat :=
  ((decisions.map (savedWeight cap receipts)).drop n).sum

-- What a batch without a saved decision has posted that is not yet in the ledger.
def openWeight (receipts : Table InlineBatchId (BatchReceipt Finding)) :
    Option (InflightBatch Finding Reaffirmed) → Nat
  | some ⟨_, none, _, _, .prepared⟩ => 0
  | some ⟨decision, none, _, _, _⟩ => receiptWeight cap (receipts.get? decision.batchId)
  | _ => 0

variable {receipts : Table InlineBatchId (BatchReceipt Finding)}
  {decisions : List (RecoveryDecision Finding Reaffirmed)}

theorem rest_succ {n : Nat} {saved : RecoveryDecision Finding Reaffirmed} (found : decisions[n]? = some saved) :
    restWeight cap receipts decisions n = savedWeight cap receipts saved + restWeight cap receipts decisions (n + 1) := by
  have here : (decisions.map (savedWeight cap receipts))[n]? = some (savedWeight cap receipts saved) := by
    rw [List.getElem?_map, found, Option.map_some]
  obtain ⟨inside, value⟩ := List.getElem?_eq_some_iff.mp here
  rw [restWeight, List.drop_eq_getElem_cons inside, List.sum_cons, value]
  rfl

theorem rest_end : restWeight cap receipts decisions decisions.length = 0 := by
  rw [restWeight, List.drop_of_length_le (by rw [List.length_map]), List.sum_nil]

theorem rest_append {n : Nat} (inside : n ≤ decisions.length) (saved : RecoveryDecision Finding Reaffirmed) :
    restWeight cap receipts (decisions ++ [saved]) n =
      restWeight cap receipts decisions n + savedWeight cap receipts saved := by
  rw [restWeight, restWeight, List.map_append, List.drop_append_of_le_length (by rw [List.length_map]; exact inside),
    List.sum_append, List.map_singleton, List.sum_singleton]

variable {receipts' : Table InlineBatchId (BatchReceipt Finding)}

theorem savedWeight_le (grows : ∀ batchId, receiptWeight cap (receipts.get? batchId) ≤ receiptWeight cap (receipts'.get? batchId))
    (saved : RecoveryDecision Finding Reaffirmed) : savedWeight cap receipts saved ≤ savedWeight cap receipts' saved := by
  unfold savedWeight
  cases saved.canonical with
  | summary => exact Nat.le_refl _
  | threads decision =>
      by_cases counts : decision.resultKind = .remote ∧ saved.settled ≠ some .stopped
      · simp only [if_pos counts]
        exact grows _
      · simp only [if_neg counts, Nat.le_refl]

theorem rest_le (decisions : List (RecoveryDecision Finding Reaffirmed))
    (grows : ∀ batchId, receiptWeight cap (receipts.get? batchId) ≤ receiptWeight cap (receipts'.get? batchId))
    (n : Nat) : restWeight cap receipts decisions n ≤ restWeight cap receipts' decisions n := by
  rw [restWeight, restWeight, ← List.map_drop, ← List.map_drop]
  exact List.sum_le_sum fun saved _ => savedWeight_le cap grows saved

-- The send of a saved decision adds what it posts to the rest it is in.
theorem rest_gain (grows : ∀ batchId, receiptWeight cap (receipts.get? batchId) ≤ receiptWeight cap (receipts'.get? batchId))
    {decision : CanonicalThreadDecision Finding Reaffirmed} {settled : Option SettlementOutcome} {q : Nat}
    (found : decisions[q]? = some ⟨.threads decision, settled⟩) (remote : decision.resultKind = .remote)
    (open_ : settled ≠ some .stopped) (unsent : receipts.get? decision.batchId = none) (n : Nat) (early : n ≤ q) :
    restWeight cap receipts decisions n + receiptWeight cap (receipts'.get? decision.batchId) ≤
      restWeight cap receipts' decisions n := by
  induction early using Nat.decreasingInduction with
  | self =>
      have before : savedWeight cap receipts ⟨.threads decision, settled⟩ = 0 := by
        simp [savedWeight, unsent, receiptWeight]
      have after : savedWeight cap receipts' ⟨.threads decision, settled⟩ =
          receiptWeight cap (receipts'.get? decision.batchId) := by
        simp [savedWeight, remote, open_]
      have rest := rest_le cap decisions grows (q + 1)
      rw [rest_succ cap found, rest_succ cap found, before, after]
      omega
  | of_succ n inside ih =>
      obtain ⟨bound, _⟩ := List.getElem?_eq_some_iff.mp found
      have here : decisions[n]? = some decisions[n] := List.getElem?_eq_getElem (by omega)
      have weight := savedWeight_le cap grows decisions[n]
      rw [rest_succ cap here, rest_succ cap here]
      omega

-- A settlement leaves every weight as it is, unless it stops a decision that posted something.
theorem weights_settle {sequence : Option Nat} {outcome : SettlementOutcome}
    (stopped : ∀ n canonical, sequence = some n → decisions[n]? = some ⟨canonical, none⟩ →
      savedWeight cap receipts ⟨canonical, some outcome⟩ = savedWeight cap receipts ⟨canonical, none⟩) (n : Nat) :
    restWeight cap receipts (settle decisions sequence outcome) n = restWeight cap receipts decisions n := by
  have same : (settle decisions sequence outcome).map (savedWeight cap receipts) =
      decisions.map (savedWeight cap receipts) := by
    cases sequence with
    | none => rfl
    | some q =>
        apply List.ext_getElem?
        intro m
        rw [List.getElem?_map, List.getElem?_map, get?_settle]
        cases found : decisions[m]? with
        | none => rfl
        | some saved =>
            by_cases here : q = m ∧ saved.settled = none
            · obtain ⟨rfl, none_⟩ := here
              obtain ⟨canonical, settled⟩ := saved
              simp only at none_
              subst none_
              simpa using stopped q canonical rfl found
            · simp only [Option.map_some, if_neg here]
  rw [restWeight, restWeight, same]

theorem savedWeight_accepted (canonical : CanonicalDecision Finding Reaffirmed) :
    savedWeight cap receipts ⟨canonical, some .accepted⟩ = savedWeight cap receipts ⟨canonical, none⟩ := by
  cases canonical with
  | summary => rfl
  | threads decision => simp [savedWeight]

theorem rest_accepted {sequence : Option Nat} (n : Nat) :
    restWeight cap receipts (settle decisions sequence .accepted) n = restWeight cap receipts decisions n :=
  weights_settle cap (fun _ canonical _ _ => savedWeight_accepted cap canonical) n

end Weights
end PrAgent
