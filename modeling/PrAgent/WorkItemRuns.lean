import PrAgent.WorkItemMoves
set_option autoImplicit false

namespace PrAgent

-- Every statement that writes work items or leases. The two claims are `acquireAndClaimWorkItem` for leased work
-- and `claimWorkForExecution` without an epoch for work that takes no lease.
inductive WorkMove
  | insert (id : WorkItemId) (new : NewWorkItem)
  | acquireAndClaim (id : WorkItemId) (holderId ttlSeconds : Nat)
  | claimUnleased (id : WorkItemId)
  | beginAttempt (id : WorkItemId) (leaseEpoch : Option Nat) (attemptLimit : Nat)
  | complete (id : WorkItemId) (leaseEpoch : Option Nat)
  | completeRescheduledParent (id : WorkItemId) (leaseEpoch : Nat)
  | fail (id : WorkItemId) (error : String) (leaseEpoch : Option Nat)
  | retry (id : WorkItemId) (error : String) (leaseEpoch : Option Nat)
  | cancel (id : WorkItemId) (leaseEpoch : Option Nat)
  | cancelQueued (id : WorkItemId) (error : String)
  | cancelStillQueued (id : WorkItemId) (error : String) (queuedEpoch : Option Nat)
  | cancelObserved (id : WorkItemId) (error : String) (epoch : Nat)
  | cancelActive (key : LeaseKey) (attribution : ReviewCancelAttribution)
  | supersedeActive (key : LeaseKey) (preserveQueuedIds : List WorkItemId)
  | linkSuperseded (id : WorkItemId) (supersededIds : List WorkItemId)
  | settleCancelRequestedLost (id : WorkItemId) (linked jobLive : Bool)
  | failLost (id : WorkItemId) (minAgeSeconds : Nat) (jobLive : Bool)
  | degradePublish (id : WorkItemId) (leaseEpoch : Option Nat)
  | updateHeadSha (id : WorkItemId) (headSha : HeadSha) (leaseEpoch : Option Nat)
  | countPreflightFailure (id : WorkItemId) (leaseEpoch : Nat) (reset : Bool)
  | patchPayload (guard : WorkItemId → WorkItem → Bool) (patch : WorkPayload)
  | lease (move : LeaseMove)

variable (leaseKeyOf : WorkItemId → LeaseKey)

def WorkMove.apply (s : WorkState) : WorkMove → WorkState
  | .insert id new => insertAgentWorkItem s id new
  | .acquireAndClaim id holderId ttlSeconds => (acquireAndClaimWorkItem leaseKeyOf s id holderId ttlSeconds).2
  | .claimUnleased id => (claimWorkForExecution leaseKeyOf s id none).2
  | .beginAttempt id leaseEpoch attemptLimit => (beginWorkAttempt s id leaseEpoch attemptLimit).2
  | .complete id leaseEpoch => (markWorkCompleted leaseKeyOf s id leaseEpoch).2
  | .completeRescheduledParent id leaseEpoch => (forceMarkRescheduledParentCompleted leaseKeyOf s id leaseEpoch).2
  | .fail id error leaseEpoch => (markWorkFailed leaseKeyOf s id error leaseEpoch).2
  | .retry id error leaseEpoch => (markWorkRetrying leaseKeyOf s id error leaseEpoch).2
  | .cancel id leaseEpoch => (markWorkCancelled leaseKeyOf s id leaseEpoch).2
  | .cancelQueued id error => (transition leaseKeyOf s (queuedCancelSpec id error)).2
  | .cancelStillQueued id error queuedEpoch => (transition leaseKeyOf s (queuedCancelRetrySpec id error queuedEpoch)).2
  | .cancelObserved id error epoch => cancelObservedExecution leaseKeyOf s id error epoch
  | .cancelActive key attribution => PrAgent.cancelActive leaseKeyOf s key attribution
  | .supersedeActive key preserveQueuedIds => (supersedeActiveAutoWork leaseKeyOf s key preserveQueuedIds).2
  | .linkSuperseded id supersededIds => linkSupersededWorkItems s id supersededIds
  | .settleCancelRequestedLost id linked jobLive =>
    (transitionCancelRequestedLostRunning leaseKeyOf s id linked jobLive).2
  | .failLost id minAgeSeconds jobLive => (markLostRunningWorkFailed leaseKeyOf s id minAgeSeconds jobLive).2
  | .degradePublish id leaseEpoch => markWorkPublishDegraded s id leaseEpoch
  | .updateHeadSha id headSha leaseEpoch => updateRunningWorkHeadSha s id headSha leaseEpoch
  | .countPreflightFailure id leaseEpoch reset => changeGithubPreflightFailureCount s id leaseEpoch reset
  | .patchPayload guard patch => PrAgent.patchPayload s guard patch
  | .lease move => { s with toLeaseState := move.apply leaseKeyOf s.toLeaseState }

-- The execution that issues a move: its work item and the epoch of its lease.
def WorkMove.execution? : WorkMove → Option LeaseHolder
  | .beginAttempt id (some leaseEpoch) _ | .complete id (some leaseEpoch) | .completeRescheduledParent id leaseEpoch
  | .fail id _ (some leaseEpoch) | .retry id _ (some leaseEpoch) | .cancel id (some leaseEpoch)
  | .cancelObserved id _ leaseEpoch | .degradePublish id (some leaseEpoch) | .updateHeadSha id _ (some leaseEpoch)
  | .countPreflightFailure id leaseEpoch _ => some ⟨id, leaseEpoch⟩
  | _ => none

theorem work_move_keeps (s : WorkState) (move : WorkMove) : s.Keeps (move.apply leaseKeyOf s) := by
  cases move with
  | insert id new => exact insert_keeps s id new
  | acquireAndClaim id holderId ttlSeconds => exact acquire_and_claim_keeps leaseKeyOf s id holderId ttlSeconds
  | claimUnleased id => exact claim_keeps leaseKeyOf s id none
  | beginAttempt id leaseEpoch attemptLimit => exact begin_work_attempt_keeps s id leaseEpoch attemptLimit
  | complete id leaseEpoch => exact transition_keeps leaseKeyOf s (completed_lawful id leaseEpoch)
  | completeRescheduledParent id leaseEpoch => exact transition_keeps leaseKeyOf s (rescheduled_parent_lawful id leaseEpoch)
  | fail id error leaseEpoch => exact transition_keeps leaseKeyOf s (failed_lawful id error leaseEpoch)
  | retry id error leaseEpoch => exact transition_keeps leaseKeyOf s (retrying_lawful id error leaseEpoch)
  | cancel id leaseEpoch => exact transition_keeps leaseKeyOf s (cancelled_lawful id leaseEpoch)
  | cancelQueued id error => exact transition_keeps leaseKeyOf s (queued_cancel_lawful id error)
  | cancelStillQueued id error queuedEpoch =>
      exact transition_keeps leaseKeyOf s (queued_cancel_retry_lawful id error queuedEpoch)
  | cancelObserved id error epoch => exact cancel_observed_keeps leaseKeyOf s id error epoch
  | cancelActive key attribution => exact cancel_active_keeps leaseKeyOf s key attribution
  | supersedeActive key preserveQueuedIds => exact supersede_active_keeps leaseKeyOf s key preserveQueuedIds
  | linkSuperseded id supersededIds => exact patch_keeps fun _ _ => ⟨rfl, rfl, rfl, rfl, rfl⟩
  | settleCancelRequestedLost id linked jobLive =>
      exact transition_keeps leaseKeyOf s (cancel_requested_lost_lawful s id linked jobLive)
  | failLost id minAgeSeconds jobLive =>
      exact transition_keeps leaseKeyOf s (lost_running_lawful leaseKeyOf s id minAgeSeconds jobLive)
  | degradePublish id leaseEpoch => exact patch_keeps fun _ _ => ⟨rfl, rfl, rfl, rfl, rfl⟩
  | updateHeadSha id headSha leaseEpoch => exact patch_keeps fun _ _ => ⟨rfl, rfl, rfl, rfl, rfl⟩
  | countPreflightFailure id leaseEpoch reset => exact patch_keeps fun _ _ => ⟨rfl, rfl, rfl, rfl, rfl⟩
  | patchPayload guard patch => exact patch_keeps fun _ _ => ⟨rfl, rfl, rfl, rfl, rfl⟩
  | lease move => exact keeps_of_items (keeps_refl s) rfl

-- The step relation of a run: moves by any number of workers, in any order and with any epochs.
def workStep (s : WorkState) (move : WorkMove) : Option WorkState := some (move.apply leaseKeyOf s)

def WorkRun (s t : WorkState) : Prop := Reaches (workStep leaseKeyOf) (fun _ _ => True) s t

theorem work_run_keeps {s t : WorkState} (run : WorkRun leaseKeyOf s t) : s.Keeps t := by
  induction run with
  | start => exact keeps_refl s
  | next _ _ moved ih =>
      obtain rfl := Option.some.inj moved
      exact keeps_trans ih (work_move_keeps leaseKeyOf _ _)

section LostLease

variable {leaseKeyOf} {s : WorkState} {id : WorkItemId} {epoch : Nat}

theorem unfenced_transition {spec : TransitionSpec} (stamps : spec.executionEpoch = none) (leased : spec.fence = some epoch)
    (selector : spec.selector.id = some id) (lost : s.held id epoch = false) : (transition leaseKeyOf s spec).2 = s := by
  have unselected : ∀ other row, s.items.get? other = some row → spec.selects leaseKeyOf s other row = false := by
    intro other row _
    by_cases same : other = id
    · subst same
      exact selects_unfenced leaseKeyOf stamps leased lost
    · have differs : ¬id = other := Ne.symm same
      simp [TransitionSpec.selects, TransitionSelector.selects, selector, differs]
  simp only [transition, Table.updateWhere_none _ _ _ unselected]

theorem unfenced_update {selected : WorkItemId → WorkItem → Bool} {assign : WorkItemId → WorkItem → WorkItem}
    (lost : s.held id epoch = false) :
    { s with items := s.items.updateWhere (fun other row => selected other row && s.held id epoch) assign } = s := by
  have unselected : ∀ other row, s.items.get? other = some row → (selected other row && s.held id epoch) = false := by
    intro other row _
    rw [lost, Bool.and_false]
  rw [Table.updateWhere_none _ _ _ unselected]

end LostLease

theorem lost_execution_changes_nothing (s : WorkState) (move : WorkMove) (holder : LeaseHolder)
    (issued : move.execution? = some holder) (lost : s.held holder.workItemId holder.leaseEpoch = false) :
    move.apply leaseKeyOf s = s := by
  cases move with
  | beginAttempt id leaseEpoch attemptLimit =>
      cases leaseEpoch with
      | none => cases issued
      | some epoch =>
          cases issued
          have unfenced : ¬s.fenced id (some epoch) = true := by simpa [LeaseState.fenced] using lost
          simp only [WorkMove.apply, beginWorkAttempt, if_neg unfenced]
  | complete id leaseEpoch =>
      cases leaseEpoch with
      | none => cases issued
      | some epoch =>
          cases issued
          exact unfenced_transition rfl rfl rfl lost
  | completeRescheduledParent id epoch =>
      cases issued
      exact unfenced_transition rfl rfl rfl lost
  | fail id error leaseEpoch =>
      cases leaseEpoch with
      | none => cases issued
      | some epoch =>
          cases issued
          exact unfenced_transition rfl rfl rfl lost
  | retry id error leaseEpoch =>
      cases leaseEpoch with
      | none => cases issued
      | some epoch =>
          cases issued
          exact unfenced_transition rfl rfl rfl lost
  | cancel id leaseEpoch =>
      cases leaseEpoch with
      | none => cases issued
      | some epoch =>
          cases issued
          exact unfenced_transition rfl rfl rfl lost
  | cancelObserved id error epoch =>
      cases issued
      have unheld : ¬s.held id epoch = true := by simpa using lost
      simp only [WorkMove.apply, cancelObservedExecution, if_neg unheld]
  | degradePublish id leaseEpoch =>
      cases leaseEpoch with
      | none => cases issued
      | some epoch =>
          cases issued
          exact unfenced_update lost
  | updateHeadSha id headSha leaseEpoch =>
      cases leaseEpoch with
      | none => cases issued
      | some epoch =>
          cases issued
          exact unfenced_update lost
  | countPreflightFailure id epoch reset =>
      cases issued
      exact unfenced_update lost
  | insert id new => cases issued
  | acquireAndClaim id holderId ttlSeconds => cases issued
  | claimUnleased id => cases issued
  | cancelQueued id error => cases issued
  | cancelStillQueued id error queuedEpoch => cases issued
  | cancelActive key attribution => cases issued
  | supersedeActive key preserveQueuedIds => cases issued
  | linkSuperseded id supersededIds => cases issued
  | settleCancelRequestedLost id linked jobLive => cases issued
  | failLost id minAgeSeconds jobLive => cases issued
  | patchPayload guard patch => cases issued
  | lease move => cases issued

section Refusals

variable {s : WorkState} {id : WorkItemId} {row : WorkItem}

-- A row that a claim passes over is not claimed, and stays as it is.
theorem claim_refused (stored : s.items.get? id = some row)
    (refused : row.cancelRequestedAt.isSome = true ∨ isTerminalWorkStatus row.status = true) (leaseEpoch : Option Nat) :
    claimWorkForExecution leaseKeyOf s id leaseEpoch = (none, s) := by
  have unselected : ∀ other old, s.items.get? other = some old →
      (claimSpec id leaseEpoch).selects leaseKeyOf s other old = false := by
    intro other old storedOld
    by_cases chosen : (claimSpec id leaseEpoch).selects leaseKeyOf s other old = true
    · by_cases same : other = id
      · subst same
        obtain rfl := Option.some.inj (stored.symm.trans storedOld)
        cases refused with
        | inl requested =>
            rw [selected_uncancelled chosen rfl] at requested
            cases requested
        | inr terminal =>
            have active := (claim_lawful other leaseEpoch).active _ (selected_status chosen)
            rw [terminal] at active
            cases active
      · have differs : ¬id = other := Ne.symm same
        simp [TransitionSpec.selects, TransitionSelector.selects, claimSpec, differs] at chosen
    · simpa using chosen
  simp only [claimWorkForExecution, transition, Table.select_eq_nil _ _ unselected, Table.updateWhere_none _ _ _ unselected]

theorem acquire_and_claim_refused (stored : s.items.get? id = some row)
    (refused : row.cancelRequestedAt.isSome = true ∨ isTerminalWorkStatus row.status = true) (holderId ttlSeconds : Nat) :
    (acquireAndClaimWorkItem leaseKeyOf s id holderId ttlSeconds).1 = none ∧
      (acquireAndClaimWorkItem leaseKeyOf s id holderId ttlSeconds).2.items = s.items := by
  simp only [acquireAndClaimWorkItem]
  cases acquirePrActorLease s.now s.leases (leaseKeyOf id) id holderId ttlSeconds with
  | mk acquisition leases =>
      cases acquisition with
      | refused heldBy leaseEpoch => exact ⟨rfl, rfl⟩
      | acquired leaseEpoch =>
          have held : ({ s with leases } : WorkState).items.get? id = some row := stored
          simp only [claim_refused leaseKeyOf held refused (some leaseEpoch), and_self]

end Refusals

-- The states a run can end in, seen from any earlier state of it.
theorem work_item_state_machine (s t : WorkState) (sound : ∀ id row, s.items.get? id = some row → row.Sound)
    (run : WorkRun leaseKeyOf s t) :
    (∀ id row, t.items.get? id = some row → row.Sound) ∧
    (∀ id row, s.items.get? id = some row → ∃ new, t.items.get? id = some new ∧ row.Follows new) ∧
    (∀ id row, s.items.get? id = some row →
      row.cancelRequestedAt.isSome = true ∨ isTerminalWorkStatus row.status = true →
      (∀ leaseEpoch, claimWorkForExecution leaseKeyOf t id leaseEpoch = (none, t)) ∧
      ∀ holderId ttlSeconds, (acquireAndClaimWorkItem leaseKeyOf t id holderId ttlSeconds).1 = none ∧
        (acquireAndClaimWorkItem leaseKeyOf t id holderId ttlSeconds).2.items = t.items) ∧
    ∀ (move : WorkMove) (holder : LeaseHolder), move.execution? = some holder →
      t.held holder.workItemId holder.leaseEpoch = false → move.apply leaseKeyOf t = t := by
  have keeps := work_run_keeps leaseKeyOf run
  refine ⟨keeps.sound sound, keeps.follows, ?_, ?_⟩
  · intro id row stored refused
    obtain ⟨new, storedNew, follows⟩ := keeps.follows id row stored
    have stillRefused : new.cancelRequestedAt.isSome = true ∨ isTerminalWorkStatus new.status = true := by
      cases refused with
      | inl requested =>
          left
          rw [follows.cancelKept requested]
          exact requested
      | inr terminal =>
          right
          rw [follows.terminal terminal]
          exact terminal
    exact ⟨claim_refused leaseKeyOf storedNew stillRefused,
      acquire_and_claim_refused leaseKeyOf storedNew stillRefused⟩
  · exact fun move holder issued lost => lost_execution_changes_nothing leaseKeyOf t move holder issued lost

def reviewLeaseKey : WorkItemId → LeaseKey := fun _ => ⟨0, .review⟩

def emptyWorkState : WorkState := ⟨⟨0, Table.empty⟩, Table.empty⟩

def autoReview : NewWorkItem := ⟨.auto, some .review, .sha 0, none, {}⟩

-- A review is claimed, starts its first attempt and is cancelled by a slash command.
def cancelledWorkState : WorkState :=
  runTo (workStep reviewLeaseKey) (fun _ _ => decide True)
    [.insert 1 autoReview, .acquireAndClaim 1 0 60, .beginAttempt 1 (some 1) 3,
      .cancelActive ⟨0, .review⟩ (.user "octocat")] emptyWorkState emptyWorkState

-- Its job is delivered again, and its first execution still tries to complete it.
def redeliveredWorkState : WorkState :=
  runTo (workStep reviewLeaseKey) (fun _ _ => decide True)
    [.lease (.elapse 5), .acquireAndClaim 1 0 60, .complete 1 (some 1)] cancelledWorkState emptyWorkState

theorem cancelled_work_run : WorkRun reviewLeaseKey emptyWorkState cancelledWorkState :=
  reaches_runTo _ _ _ (by decide)

theorem redelivered_work_run : WorkRun reviewLeaseKey cancelledWorkState redeliveredWorkState :=
  reaches_runTo _ _ _ (by decide)

theorem redelivered_work_stays_cancelled :
    ∃ row, redeliveredWorkState.items.get? 1 = some row ∧ row.status = .cancelled ∧ row.attemptCount = 1 := by
  have sound : ∀ id row, cancelledWorkState.items.get? id = some row → row.Sound :=
    (work_run_keeps reviewLeaseKey cancelled_work_run).sound fun id row stored => by cases stored
  have states := work_item_state_machine reviewLeaseKey cancelledWorkState redeliveredWorkState sound redelivered_work_run
  obtain ⟨row, stored, follows⟩ := states.2.1 1 _ rfl
  refine ⟨row, stored, follows.terminal rfl, ?_⟩
  obtain rfl := Option.some.inj (stored.symm.trans rfl)
  rfl

end PrAgent
