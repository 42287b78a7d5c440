import PrAgent.WorkItemRuns
import PrAgent.PublishFence
set_option autoImplicit false

namespace PrAgent

variable {leaseKeyOf : WorkItemId → LeaseKey}

section Acquisitions

variable {now holderId ttlSeconds leaseEpoch : Nat} {leases : Leases} {workItemId : WorkItemId}

theorem acquired_issues
    (granted : (acquirePrActorLease now leases (leaseKeyOf workItemId) workItemId holderId ttlSeconds).1 =
      .acquired leaseEpoch) :
    EpochIssued leaseKeyOf (acquirePrActorLease now leases (leaseKeyOf workItemId) workItemId holderId ttlSeconds).2
      workItemId leaseEpoch := by
  unfold acquirePrActorLease at granted ⊢
  cases stored : leases.get? (leaseKeyOf workItemId) with
  | none =>
      rw [stored] at granted
      injection granted with first
      exact ⟨_, Table.get?_set_self .., Nat.le_of_eq first.symm⟩
  | some lease =>
      rw [stored] at granted
      dsimp only at granted ⊢
      by_cases free : lease.free now = true
      · rw [if_pos free] at granted ⊢
        injection granted with next
        exact ⟨_, Table.get?_set_self .., Nat.le_of_eq next.symm⟩
      · rw [if_neg free] at granted
        cases granted

theorem acquired_exceeds {other : WorkItemId} {earlier : Nat} (issued : EpochIssued leaseKeyOf leases other earlier)
    (sameKey : leaseKeyOf other = leaseKeyOf workItemId)
    (granted : (acquirePrActorLease now leases (leaseKeyOf workItemId) workItemId holderId ttlSeconds).1 =
      .acquired leaseEpoch) : earlier < leaseEpoch := by
  obtain ⟨lease, stored, le⟩ := issued
  rw [sameKey] at stored
  unfold acquirePrActorLease at granted
  rw [stored] at granted
  dsimp only at granted
  by_cases free : lease.free now = true
  · rw [if_pos free] at granted
    injection granted with next
    omega
  · rw [if_neg free] at granted
    cases granted

end Acquisitions

section Moves

variable (leaseKeyOf)

theorem claim_leases (s : WorkState) (id : WorkItemId) (leaseEpoch : Option Nat) :
    (claimWorkForExecution leaseKeyOf s id leaseEpoch).2.toLeaseState = s.toLeaseState := by
  simp only [claimWorkForExecution]
  cases (transition leaseKeyOf s (claimSpec id leaseEpoch)).1 with
  | nil => rfl
  | cons head rest => rfl

-- What the claim of a work item does to the leases: an acquisition, given back when the item cannot be claimed.
theorem acquire_and_claim_leases (s : WorkState) (id : WorkItemId) (holderId ttlSeconds : Nat) :
    (acquireAndClaimWorkItem leaseKeyOf s id holderId ttlSeconds).2.toLeaseState =
        LeaseMove.apply leaseKeyOf s.toLeaseState (.acquire id holderId ttlSeconds) ∨
    ∃ leaseEpoch, (acquireAndClaimWorkItem leaseKeyOf s id holderId ttlSeconds).2.toLeaseState =
        LeaseMove.apply leaseKeyOf (LeaseMove.apply leaseKeyOf s.toLeaseState (.acquire id holderId ttlSeconds))
          (.release (leaseKeyOf id) leaseEpoch) := by
  simp only [acquireAndClaimWorkItem, LeaseMove.apply]
  cases acquisition : acquirePrActorLease s.now s.leases (leaseKeyOf id) id holderId ttlSeconds with
  | mk answer leases =>
      cases answer with
      | refused heldBy leaseEpoch =>
          left
          have unchanged : leases = s.leases := by
            unfold acquirePrActorLease at acquisition
            split at acquisition
            · cases acquisition
            · split at acquisition
              · cases acquisition
              · exact (Prod.mk.inj acquisition).2.symm
          rw [unchanged]
      | acquired leaseEpoch =>
          have claimLeases := claim_leases leaseKeyOf { s with leases } id (some leaseEpoch)
          dsimp only at claimLeases ⊢
          generalize claimWorkForExecution leaseKeyOf { s with leases } id (some leaseEpoch) = result at claimLeases ⊢
          obtain ⟨claim, claimed⟩ := result
          cases claim with
          | some claim => exact .inl claimLeases
          | none =>
              right
              refine ⟨leaseEpoch, ?_⟩
              have sameNow := congrArg LeaseState.now claimLeases
              dsimp only at sameNow
              simp only [sameNow]

-- Work moves act on the leases through lease moves only.
theorem work_move_leases (s : WorkState) (move : WorkMove) : ∃ moves : List LeaseMove,
    (move.apply leaseKeyOf s).toLeaseState = moves.foldl (LeaseMove.apply leaseKeyOf) s.toLeaseState := by
  cases move with
  | acquireAndClaim id holderId ttlSeconds =>
      rcases acquire_and_claim_leases leaseKeyOf s id holderId ttlSeconds with claimed | ⟨leaseEpoch, released⟩
      · exact ⟨[.acquire id holderId ttlSeconds], claimed⟩
      · exact ⟨[.acquire id holderId ttlSeconds, .release (leaseKeyOf id) leaseEpoch], released⟩
  | claimUnleased id => exact ⟨[], claim_leases leaseKeyOf s id none⟩
  | cancelActive key attribution => exact ⟨[.releaseHeldByWorkItems key _], rfl⟩
  | supersedeActive key preserveQueuedIds => exact ⟨[.releaseHeldByWorkItems key _], rfl⟩
  | lease move => exact ⟨[move], rfl⟩
  | beginAttempt id leaseEpoch attemptLimit =>
      refine ⟨[], ?_⟩
      simp only [WorkMove.apply, beginWorkAttempt, List.foldl_nil]
      split
      · split
        · rfl
        · split
          · rfl
          · split
            · rfl
            · rfl
      · rfl
  | cancelObserved id error epoch =>
      refine ⟨[], ?_⟩
      simp only [WorkMove.apply, cancelObservedExecution, List.foldl_nil]
      split
      · rfl
      · rfl
  | insert id new =>
      refine ⟨[], ?_⟩
      simp only [WorkMove.apply, insertAgentWorkItem, List.foldl_nil]
      split
      · rfl
      · rfl
  | complete id leaseEpoch => exact ⟨[], rfl⟩
  | completeRescheduledParent id leaseEpoch => exact ⟨[], rfl⟩
  | fail id error leaseEpoch => exact ⟨[], rfl⟩
  | retry id error leaseEpoch => exact ⟨[], rfl⟩
  | cancel id leaseEpoch => exact ⟨[], rfl⟩
  | cancelQueued id error => exact ⟨[], rfl⟩
  | cancelStillQueued id error queuedEpoch => exact ⟨[], rfl⟩
  | linkSuperseded id supersededIds => exact ⟨[], rfl⟩
  | settleCancelRequestedLost id linked jobLive => exact ⟨[], rfl⟩
  | failLost id minAgeSeconds jobLive => exact ⟨[], rfl⟩
  | degradePublish id leaseEpoch => exact ⟨[], rfl⟩
  | updateHeadSha id headSha leaseEpoch => exact ⟨[], rfl⟩
  | countPreflightFailure id leaseEpoch reset => exact ⟨[], rfl⟩
  | patchPayload guard patch => exact ⟨[], rfl⟩

-- The lease a move acquires: its key and the epoch it is given.
def WorkMove.acquires? (s : WorkState) : WorkMove → Option (LeaseKey × Nat)
  | .acquireAndClaim id holderId ttlSeconds | .lease (.acquire id holderId ttlSeconds) =>
    match (acquirePrActorLease s.now s.leases (leaseKeyOf id) id holderId ttlSeconds).1 with
    | .acquired leaseEpoch => some (leaseKeyOf id, leaseEpoch)
    | .refused _ _ => none
  | _ => none

end Moves

theorem holders_at_home_foldl (moves : List LeaseMove) {state : LeaseState} (home : HoldersAtHome leaseKeyOf state.leases) :
    HoldersAtHome leaseKeyOf (moves.foldl (LeaseMove.apply leaseKeyOf) state).leases := by
  induction moves generalizing state with
  | nil => exact home
  | cons move rest ih => exact ih (home.apply move)

theorem epoch_issued_foldl (moves : List LeaseMove) {state : LeaseState} {workItemId : WorkItemId} {leaseEpoch : Nat}
    (issued : EpochIssued leaseKeyOf state.leases workItemId leaseEpoch) :
    EpochIssued leaseKeyOf (moves.foldl (LeaseMove.apply leaseKeyOf) state).leases workItemId leaseEpoch := by
  induction moves generalizing state with
  | nil => exact issued
  | cons move rest ih => exact ih (issued.apply move)

theorem holders_at_home_run {s t : WorkState} (home : HoldersAtHome leaseKeyOf s.leases) (run : WorkRun leaseKeyOf s t) :
    HoldersAtHome leaseKeyOf t.leases := by
  induction run with
  | start => exact home
  | @next u _ move _ _ moved ih =>
      obtain rfl := Option.some.inj moved
      obtain ⟨moves, same⟩ := work_move_leases leaseKeyOf u move
      rw [same]
      exact holders_at_home_foldl moves ih

theorem epoch_issued_run {s t : WorkState} {workItemId : WorkItemId} {leaseEpoch : Nat}
    (issued : EpochIssued leaseKeyOf s.leases workItemId leaseEpoch) (run : WorkRun leaseKeyOf s t) :
    EpochIssued leaseKeyOf t.leases workItemId leaseEpoch := by
  induction run with
  | start => exact issued
  | @next u _ move _ _ moved ih =>
      obtain rfl := Option.some.inj moved
      obtain ⟨moves, same⟩ := work_move_leases leaseKeyOf u move
      rw [same]
      exact epoch_issued_foldl moves ih

-- A move that acquires a lease is an acquisition by a work item of that key.
theorem acquires_cases {s : WorkState} {move : WorkMove} {key : LeaseKey} {leaseEpoch : Nat}
    (acquires : move.acquires? leaseKeyOf s = some (key, leaseEpoch)) :
    ∃ id holderId ttlSeconds, key = leaseKeyOf id ∧
      (move = .acquireAndClaim id holderId ttlSeconds ∨ move = .lease (.acquire id holderId ttlSeconds)) ∧
      (acquirePrActorLease s.now s.leases (leaseKeyOf id) id holderId ttlSeconds).1 = .acquired leaseEpoch := by
  unfold WorkMove.acquires? at acquires
  split at acquires
  · next id holderId ttlSeconds =>
    split at acquires
    · next granted =>
      cases acquires
      exact ⟨id, holderId, ttlSeconds, rfl, .inl rfl, granted⟩
    · cases acquires
  · next id holderId ttlSeconds =>
    split at acquires
    · next granted =>
      cases acquires
      exact ⟨id, holderId, ttlSeconds, rfl, .inr rfl, granted⟩
    · cases acquires
  · cases acquires

theorem acquires_issues {s : WorkState} {move : WorkMove} {key : LeaseKey} {leaseEpoch : Nat}
    (acquires : move.acquires? leaseKeyOf s = some (key, leaseEpoch)) :
    ∃ id, key = leaseKeyOf id ∧ EpochIssued leaseKeyOf (move.apply leaseKeyOf s).leases id leaseEpoch := by
  obtain ⟨id, holderId, ttlSeconds, sameKey, shape, granted⟩ := acquires_cases acquires
  have issued : EpochIssued leaseKeyOf
      (LeaseMove.apply leaseKeyOf s.toLeaseState (.acquire id holderId ttlSeconds)).leases id leaseEpoch :=
    acquired_issues granted
  refine ⟨id, sameKey, ?_⟩
  cases shape with
  | inl claims =>
      subst claims
      rcases acquire_and_claim_leases leaseKeyOf s id holderId ttlSeconds with claimed | ⟨releasedEpoch, released⟩
      · rw [WorkMove.apply, claimed]
        exact issued
      · rw [WorkMove.apply, released]
        exact issued.apply (.release (leaseKeyOf id) releasedEpoch)
  | inr acquisition =>
      subst acquisition
      exact issued

section StaleEpochs

variable {leases : Leases} {workItemId : WorkItemId} {leaseEpoch : Nat} {lease : Lease}

theorem unowned_of_newer (home : HoldersAtHome leaseKeyOf leases)
    (stored : leases.get? (leaseKeyOf workItemId) = some lease) (newer : leaseEpoch < lease.leaseEpoch) :
    ownsPrActorLease leases workItemId leaseEpoch = false := by
  by_cases owns : ownsPrActorLease leases workItemId leaseEpoch = true
  · obtain ⟨key, owned, at_, holder, epoch⟩ := (ownsPrActorLease_iff ..).mp owns
    obtain rfl := home key owned workItemId at_ holder
    obtain rfl := Option.some.inj (stored.symm.trans at_)
    omega
  · simpa using owns

variable {key : LeaseKey}

theorem stale_renew (stored : leases.get? key = some lease) (newer : leaseEpoch < lease.leaseEpoch) (now ttlSeconds : Nat)
    (workItemId : WorkItemId) : renewPrActorLease now leases key leaseEpoch ttlSeconds workItemId = (false, leases) := by
  have differs : ¬(lease.leaseEpoch = leaseEpoch ∧ lease.workItemId = some workItemId) := by omega
  simp only [renewPrActorLease, stored, if_neg differs]

theorem stale_release (stored : leases.get? key = some lease) (newer : leaseEpoch < lease.leaseEpoch) (now : Nat) :
    releasePrActorLease now leases key leaseEpoch = leases := by
  have differs : ¬lease.leaseEpoch = leaseEpoch := by omega
  simp only [releasePrActorLease, stored, if_neg differs]

-- The clears of a cancellation and of a superseding carry the epochs of the rows they closed.
theorem stale_clear (stored : leases.get? key = some lease) (holders : List LeaseHolder)
    (newer : ∀ holder ∈ holders, holder.leaseEpoch < lease.leaseEpoch) (now : Nat) :
    releasePrActorLeaseHeldByWorkItems now leases key holders = leases := by
  have unmatched : ¬(holders.any fun holder =>
      decide (lease.workItemId = some holder.workItemId ∧ lease.leaseEpoch = holder.leaseEpoch)) = true := by
    simp only [List.any_eq_true, decide_eq_true_eq, not_exists, not_and]
    intro holder member _ same
    have := newer holder member
    omega
  simp only [releasePrActorLeaseHeldByWorkItems, stored, if_neg unmatched]

end StaleEpochs

section Intents

variable {V : Type} {s : PublishState V} {slot : PublishSlot} {leaseEpoch : Nat}

theorem unfenced_slot (leased : slot.leaseEpoch = some leaseEpoch) (lost : s.held slot.workItemId leaseEpoch = false) :
    ¬s.fenced slot.workItemId slot.leaseEpoch = true := by
  rw [leased, LeaseState.fenced, lost]
  exact Bool.false_ne_true

-- The fenced statements on operation intents under a lost lease.
theorem lost_intent_statements (leased : slot.leaseEpoch = some leaseEpoch)
    (lost : s.held slot.workItemId leaseEpoch = false) (detail : IntentDetail V) (target : IntentKey)
    (status : OperationIntentStatus) (publishRecordId : Option Nat) :
    persistStatement s slot detail = (none, s) ∧ mergeStatement s slot detail = (none, s) ∧
      reconcileStatement s target slot.workItemId slot.leaseEpoch status publishRecordId detail = (none, s) := by
  have unfenced := unfenced_slot leased lost
  refine ⟨by simp only [persistStatement, if_neg unfenced], ?_, ?_⟩
  · unfold mergeStatement
    cases s.intents.get? slot.key with
    | none => rfl
    | some old => simp [unfenced]
  · unfold reconcileStatement
    cases s.intents.get? target with
    | none => rfl
    | some old => simp [unfenced]

end Intents

-- Every write that carries the epoch `leaseEpoch` of `workItemId` leaves the rows of `t` as they are.
structure WorkState.Fences (leaseKeyOf : WorkItemId → LeaseKey) (t : WorkState) (workItemId : WorkItemId) (leaseEpoch : Nat) : Prop where
  renew : ∀ ttlSeconds other,
    renewPrActorLease t.now t.leases (leaseKeyOf workItemId) leaseEpoch ttlSeconds other = (false, t.leases)
  release : releasePrActorLease t.now t.leases (leaseKeyOf workItemId) leaseEpoch = t.leases
  clear : ∀ holders : List LeaseHolder, (∀ holder ∈ holders, holder.leaseEpoch ≤ leaseEpoch) →
    releasePrActorLeaseHeldByWorkItems t.now t.leases (leaseKeyOf workItemId) holders = t.leases
  moves : ∀ move : WorkMove, move.execution? = some ⟨workItemId, leaseEpoch⟩ → move.apply leaseKeyOf t = t
  publishes : ∀ (write : PublishWrite) (before after : LeaseState) (db : PublishDb), db.toWorkState = t →
    (write.statement leaseKeyOf).workItemId = workItemId → (write.statement leaseKeyOf).leaseEpoch = some leaseEpoch →
    ((write.statement leaseKeyOf).run before after db).2 = db
  intents : ∀ {V : Type} (s : PublishState V) (slot : PublishSlot) (detail : IntentDetail V) (target : IntentKey)
    (status : OperationIntentStatus) (publishRecordId : Option Nat), s.toLeaseState = t.toLeaseState →
    slot.workItemId = workItemId → slot.leaseEpoch = some leaseEpoch →
    persistStatement s slot detail = (none, s) ∧ mergeStatement s slot detail = (none, s) ∧
      reconcileStatement s target slot.workItemId slot.leaseEpoch status publishRecordId detail = (none, s)

theorem newer_epoch_fences {t : WorkState} {workItemId : WorkItemId} {leaseEpoch : Nat} {lease : Lease}
    (home : HoldersAtHome leaseKeyOf t.leases) (stored : t.leases.get? (leaseKeyOf workItemId) = some lease)
    (newer : leaseEpoch < lease.leaseEpoch) : t.Fences leaseKeyOf workItemId leaseEpoch := by
  have unowned : t.owned workItemId leaseEpoch = false := unowned_of_newer home stored newer
  have lost : t.held workItemId leaseEpoch = false := by
    by_cases held : t.held workItemId leaseEpoch = true
    · rw [LeaseState.owned, owns_of_held held] at unowned
      cases unowned
    · simpa using held
  constructor
  · exact fun ttlSeconds other => stale_renew stored newer t.now ttlSeconds other
  · exact stale_release stored newer t.now
  · exact fun holders older => stale_clear stored holders (fun holder member => by have := older holder member; omega) t.now
  · exact fun move issued => lost_execution_changes_nothing leaseKeyOf t move _ issued lost
  · intro write before after db same holder leased
    apply run_unowned _ before after db leased
    rw [holder, same]
    exact unowned
  · intro V s slot detail target status publishRecordId same holder leased
    apply lost_intent_statements leased
    rw [holder, same]
    exact lost

variable (leaseKeyOf)

theorem lease_epochs_fence (s t : WorkState) (home : HoldersAtHome leaseKeyOf s.leases) (run : WorkRun leaseKeyOf s t) :
    (∀ (move : WorkMove) (key : LeaseKey) (leaseEpoch : Nat), move.acquires? leaseKeyOf t = some (key, leaseEpoch) →
      ∀ u, WorkRun leaseKeyOf (move.apply leaseKeyOf t) u →
        ∀ (later : WorkMove) (laterEpoch : Nat), later.acquires? leaseKeyOf u = some (key, laterEpoch) →
          leaseEpoch < laterEpoch) ∧
    (∀ first second firstEpoch secondEpoch, leaseKeyOf first = leaseKeyOf second →
      t.held first firstEpoch = true → t.held second secondEpoch = true → first = second ∧ firstEpoch = secondEpoch) ∧
    ∀ workItemId leaseEpoch lease, t.leases.get? (leaseKeyOf workItemId) = some lease →
      leaseEpoch < lease.leaseEpoch → t.Fences leaseKeyOf workItemId leaseEpoch := by
  have homeNow := holders_at_home_run home run
  refine ⟨?_, ?_, ?_⟩
  · intro move key leaseEpoch acquires u rest later laterEpoch acquiresLater
    obtain ⟨id, sameKey, issued⟩ := acquires_issues acquires
    obtain ⟨laterId, holderId, ttlSeconds, sameLater, _, granted⟩ := acquires_cases acquiresLater
    exact acquired_exceeds (epoch_issued_run issued rest) (sameKey.symm.trans sameLater) granted
  · intro first second firstEpoch secondEpoch sameKey heldFirst heldSecond
    exact owner_unique homeNow sameKey (owns_of_held heldFirst) (owns_of_held heldSecond)
  · exact fun workItemId leaseEpoch lease stored newer => newer_epoch_fences homeNow stored newer

-- The redelivery of the cancelled review took epoch 2 and gave it back: epoch 1 is fenced off.
theorem redelivery_fences_first_epoch : redeliveredWorkState.Fences reviewLeaseKey 1 1 := by
  have home : HoldersAtHome reviewLeaseKey emptyWorkState.leases := fun key lease workItemId stored => by cases stored
  have run : WorkRun reviewLeaseKey emptyWorkState redeliveredWorkState := cancelled_work_run.trans redelivered_work_run
  exact (lease_epochs_fence reviewLeaseKey emptyWorkState redeliveredWorkState home run).2.2 1 1 _ rfl (by decide)

end PrAgent
