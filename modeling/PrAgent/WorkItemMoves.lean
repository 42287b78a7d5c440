import PrAgent.WorkItemState
set_option autoImplicit false

namespace PrAgent

-- What holds of a stored row. `attemptLimit` is the limit in force at the claim whose attempt was admitted last.
structure WorkItem.Sound (row : WorkItem) : Prop where
  started : row.status = .running → row.startedAt.isSome = true
  cancelled : row.cancelRequestedAt.isSome = true → row.status ≠ .completed ∧ row.status ≠ .failed
  attempts : row.attemptCount = 0 ∨ ∃ limit, row.attemptLimit = some limit ∧ row.attemptCount ≤ limit

-- How a row may differ from an earlier version of itself.
structure WorkItem.Follows (old new : WorkItem) : Prop where
  terminal : isTerminalWorkStatus old.status = true → new.status = old.status
  cancelKept : old.cancelRequestedAt.isSome = true → new.cancelRequestedAt = old.cancelRequestedAt
  cancelled : old.cancelRequestedAt.isSome = true →
    new.status = old.status ∨ new.status = .cancelled ∨ new.status = .superseded

theorem follows_refl (row : WorkItem) : row.Follows row := ⟨fun _ => rfl, fun _ => rfl, fun _ => .inl rfl⟩

theorem follows_trans {old mid new : WorkItem} (first : old.Follows mid) (second : mid.Follows new) :
    old.Follows new := by
  have kept : old.cancelRequestedAt.isSome = true → mid.cancelRequestedAt.isSome = true :=
    fun requested => by rw [first.cancelKept requested]; exact requested
  constructor
  · intro terminal
    have same := first.terminal terminal
    rw [second.terminal (by rw [same]; exact terminal), same]
  · intro requested
    rw [second.cancelKept (kept requested), first.cancelKept requested]
  · intro requested
    cases first.cancelled requested with
    | inl same => exact same ▸ second.cancelled (kept requested)
    | inr settled =>
        have terminal : isTerminalWorkStatus mid.status = true := by
          cases settled with
          | inl cancelled => rw [cancelled]; rfl
          | inr superseded => rw [superseded]; rfl
        rw [second.terminal terminal]
        exact .inr settled

-- A statement that writes other columns than the lifecycle ones.
structure WorkItem.SameLifecycle (old new : WorkItem) : Prop where
  status : new.status = old.status
  cancelRequestedAt : new.cancelRequestedAt = old.cancelRequestedAt
  startedAt : new.startedAt = old.startedAt
  attemptCount : new.attemptCount = old.attemptCount
  attemptLimit : new.attemptLimit = old.attemptLimit

theorem same_lifecycle_follows {old new : WorkItem} (same : old.SameLifecycle new) : old.Follows new :=
  ⟨fun _ => same.status, fun _ => same.cancelRequestedAt, fun _ => .inl same.status⟩

theorem same_lifecycle_sound {old new : WorkItem} (same : old.SameLifecycle new) (sound : old.Sound) : new.Sound := by
  constructor
  · rw [same.status, same.startedAt]
    exact sound.started
  · rw [same.status, same.cancelRequestedAt]
    exact sound.cancelled
  · rw [same.attemptCount, same.attemptLimit]
    exact sound.attempts

-- The guards a transition needs: it leaves active statuses only, and unless it cancels or supersedes it neither
-- takes nor makes a row with a cancel request.
structure TransitionSpec.Lawful (spec : TransitionSpec) : Prop where
  active : ∀ status ∈ spec.fromStatuses, isTerminalWorkStatus status = false
  guarded : spec.toStatus ≠ .cancelled → spec.toStatus ≠ .superseded →
    spec.unlessCancelRequested = true ∧ spec.requestCancel = false

section Transitions

variable {leaseKeyOf : WorkItemId → LeaseKey} {s : WorkState} {spec : TransitionSpec} {id : WorkItemId} {row : WorkItem}

theorem selected_status (selected : spec.selects leaseKeyOf s id row = true) : row.status ∈ spec.fromStatuses := by
  simp only [TransitionSpec.selects, Bool.and_eq_true, decide_eq_true_eq] at selected
  exact selected.1.1.1.2

theorem selected_uncancelled (selected : spec.selects leaseKeyOf s id row = true)
    (guarded : spec.unlessCancelRequested = true) : row.cancelRequestedAt = none := by
  simp only [TransitionSpec.selects, guarded, Bool.and_eq_true] at selected
  simpa using selected.1.1.2

theorem assign_cancel_kept (requested : row.cancelRequestedAt.isSome = true) (now : Nat) :
    (spec.assign now row).cancelRequestedAt = row.cancelRequestedAt := by
  cases stored : row.cancelRequestedAt with
  | none =>
      rw [stored] at requested
      cases requested
  | some at_ => simp [TransitionSpec.assign, stored]

theorem assign_follows (lawful : spec.Lawful) (selected : spec.selects leaseKeyOf s id row = true) (now : Nat) :
    row.Follows (spec.assign now row) := by
  constructor
  · intro terminal
    have active := lawful.active row.status (selected_status selected)
    rw [terminal] at active
    cases active
  · exact fun requested => assign_cancel_kept requested now
  · intro requested
    by_cases cancels : spec.toStatus = .cancelled
    · exact .inr (.inl cancels)
    · by_cases supersedes : spec.toStatus = .superseded
      · exact .inr (.inr supersedes)
      · rw [selected_uncancelled selected (lawful.guarded cancels supersedes).1] at requested
        cases requested

theorem assign_sound (lawful : spec.Lawful) (selected : spec.selects leaseKeyOf s id row = true) (sound : row.Sound)
    (now : Nat) : (spec.assign now row).Sound := by
  constructor
  · intro running
    have target : spec.toStatus = .running := running
    cases stored : row.startedAt with
    | none => simp [TransitionSpec.assign, target, targetStamp, stored]
    | some at_ => simp [TransitionSpec.assign, target, targetStamp, stored]
  · intro requested
    by_cases cancels : spec.toStatus = .cancelled
    · simp [TransitionSpec.assign, cancels]
    · by_cases supersedes : spec.toStatus = .superseded
      · simp [TransitionSpec.assign, supersedes]
      · have guarded := lawful.guarded cancels supersedes
        have absent := selected_uncancelled selected guarded.1
        simp [TransitionSpec.assign, guarded.2, absent] at requested
  · exact sound.attempts

end Transitions

-- The rows of a later state of the table: none is lost, each follows its earlier version, and they stay sound.
structure WorkState.Keeps (s t : WorkState) : Prop where
  follows : ∀ id row, s.items.get? id = some row → ∃ new, t.items.get? id = some new ∧ row.Follows new
  sound : (∀ id row, s.items.get? id = some row → row.Sound) → ∀ id row, t.items.get? id = some row → row.Sound

theorem keeps_refl (s : WorkState) : s.Keeps s := ⟨fun _ row stored => ⟨row, stored, follows_refl row⟩, fun sound => sound⟩

theorem keeps_trans {s t u : WorkState} (first : s.Keeps t) (second : t.Keeps u) : s.Keeps u := by
  constructor
  · intro id row stored
    obtain ⟨mid, storedMid, followsMid⟩ := first.follows id row stored
    obtain ⟨new, storedNew, followsNew⟩ := second.follows id mid storedMid
    exact ⟨new, storedNew, follows_trans followsMid followsNew⟩
  · exact fun sound => second.sound (first.sound sound)

theorem keeps_of_items {s t u : WorkState} (keeps : s.Keeps t) (same : u.items = t.items) : s.Keeps u := by
  constructor
  · rw [same]
    exact keeps.follows
  · rw [same]
    exact keeps.sound

-- One UPDATE, whose new rows follow the old ones.
theorem update_keeps {s : WorkState} {selected : WorkItemId → WorkItem → Bool} {assign : WorkItemId → WorkItem → WorkItem}
    (follows : ∀ id row, selected id row = true → row.Follows (assign id row))
    (sound : ∀ id row, selected id row = true → row.Sound → (assign id row).Sound) :
    s.Keeps { s with items := s.items.updateWhere selected assign } := by
  constructor
  · intro id row stored
    by_cases chosen : selected id row = true
    · refine ⟨assign id row, ?_, follows id row chosen⟩
      rw [Table.get?_updateWhere, stored]
      simp [chosen]
    · refine ⟨row, ?_, follows_refl row⟩
      rw [Table.get?_updateWhere, stored]
      simp [chosen]
  · intro before id new storedNew
    rw [Table.get?_updateWhere] at storedNew
    cases stored : s.items.get? id with
    | none =>
        rw [stored] at storedNew
        cases storedNew
    | some row =>
        rw [stored] at storedNew
        obtain rfl := Option.some.inj storedNew
        by_cases chosen : selected id row = true
        · simpa [chosen] using sound id row chosen (before id row stored)
        · simpa [chosen] using before id row stored

theorem patch_keeps {s : WorkState} {selected : WorkItemId → WorkItem → Bool} {assign : WorkItemId → WorkItem → WorkItem}
    (same : ∀ id (row : WorkItem), row.SameLifecycle (assign id row)) :
    s.Keeps { s with items := s.items.updateWhere selected assign } :=
  update_keeps (fun id row _ => same_lifecycle_follows (same id row))
    (fun id row _ => same_lifecycle_sound (same id row))

theorem transition_keeps (leaseKeyOf : WorkItemId → LeaseKey) (s : WorkState) {spec : TransitionSpec}
    (lawful : spec.Lawful) : s.Keeps (transition leaseKeyOf s spec).2 :=
  update_keeps (fun _ _ selected => assign_follows lawful selected s.now)
    (fun _ _ selected sound => assign_sound lawful selected sound s.now)

-- One row written back, or inserted.
theorem set_keeps {s : WorkState} {id : WorkItemId} {new : WorkItem}
    (follows : ∀ row, s.items.get? id = some row → row.Follows new)
    (sound : (∀ row, s.items.get? id = some row → row.Sound) → new.Sound) :
    s.Keeps { s with items := s.items.set id new } := by
  constructor
  · intro other row stored
    by_cases same : other = id
    · subst same
      exact ⟨new, Table.get?_set_self .., follows row stored⟩
    · exact ⟨row, by rw [Table.get?_set_of_ne _ _ _ same]; exact stored, follows_refl row⟩
  · intro before other row stored
    by_cases same : other = id
    · subst same
      rw [Table.get?_set_self] at stored
      obtain rfl := Option.some.inj stored
      exact sound (before other)
    · rw [Table.get?_set_of_ne _ _ _ same] at stored
      exact before other row stored

section Statements

theorem claim_lawful (id : WorkItemId) (leaseEpoch : Option Nat) : (claimSpec id leaseEpoch).Lawful :=
  ⟨by simp [claimSpec, isTerminalWorkStatus], fun _ _ => ⟨rfl, rfl⟩⟩

theorem completed_lawful (id : WorkItemId) (leaseEpoch : Option Nat) : (completedSpec id leaseEpoch).Lawful :=
  ⟨by simp [completedSpec, isTerminalWorkStatus], fun _ _ => ⟨rfl, rfl⟩⟩

theorem rescheduled_parent_lawful (id : WorkItemId) (leaseEpoch : Nat) : (rescheduledParentSpec id leaseEpoch).Lawful :=
  ⟨by simp [rescheduledParentSpec, isTerminalWorkStatus], fun _ _ => ⟨rfl, rfl⟩⟩

theorem failed_lawful (id : WorkItemId) (error : String) (leaseEpoch : Option Nat) :
    (failedSpec id error leaseEpoch).Lawful :=
  ⟨by simp [failedSpec, isTerminalWorkStatus], fun _ _ => ⟨rfl, rfl⟩⟩

theorem retrying_lawful (id : WorkItemId) (error : String) (leaseEpoch : Option Nat) :
    (retryingSpec id error leaseEpoch).Lawful :=
  ⟨by simp [retryingSpec, isTerminalWorkStatus], fun _ _ => ⟨rfl, rfl⟩⟩

theorem lost_running_lawful (leaseKeyOf : WorkItemId → LeaseKey) (s : WorkState) (id : WorkItemId) (minAgeSeconds : Nat)
    (jobLive : Bool) : (lostRunningSpec leaseKeyOf s id minAgeSeconds jobLive).Lawful :=
  ⟨by simp [lostRunningSpec, isTerminalWorkStatus], fun _ _ => ⟨rfl, rfl⟩⟩

-- A transition to `cancelled` or `superseded` needs no guard on the cancel request.
theorem lawful_of_settles {spec : TransitionSpec} (active : ∀ status ∈ spec.fromStatuses, isTerminalWorkStatus status = false)
    (settles : spec.toStatus = .cancelled ∨ spec.toStatus = .superseded) : spec.Lawful := by
  refine ⟨active, fun notCancelled notSuperseded => ?_⟩
  cases settles with
  | inl cancels => exact absurd cancels notCancelled
  | inr supersedes => exact absurd supersedes notSuperseded

theorem cancelled_lawful (id : WorkItemId) (leaseEpoch : Option Nat) : (cancelledSpec id leaseEpoch).Lawful :=
  lawful_of_settles (by simp [cancelledSpec, isTerminalWorkStatus]) (.inl rfl)

theorem cancel_requested_lost_lawful (s : WorkState) (id : WorkItemId) (linked jobLive : Bool) :
    (cancelRequestedLostSpec s id linked jobLive).Lawful := by
  apply lawful_of_settles
  · simp [cancelRequestedLostSpec, isTerminalWorkStatus]
  · cases linked with
    | false => exact .inl rfl
    | true => exact .inr rfl

theorem queued_cancel_lawful (id : WorkItemId) (error : String) : (queuedCancelSpec id error).Lawful :=
  lawful_of_settles (by simp [queuedCancelSpec, isTerminalWorkStatus]) (.inl rfl)

theorem queued_cancel_retry_lawful (id : WorkItemId) (error : String) (queuedEpoch : Option Nat) :
    (queuedCancelRetrySpec id error queuedEpoch).Lawful :=
  lawful_of_settles (by simp [queuedCancelRetrySpec, queuedCancelSpec, isTerminalWorkStatus]) (.inl rfl)

theorem observed_cancel_lawful (id : WorkItemId) (error : String) (epoch : Nat) :
    (observedCancelSpec id error epoch).Lawful :=
  lawful_of_settles (by simp [observedCancelSpec, queuedCancelSpec, isTerminalWorkStatus]) (.inl rfl)

theorem active_cancel_lawful (key : LeaseKey) (attribution : ReviewCancelAttribution) (running : Bool) :
    (activeCancelSpec key attribution running).Lawful := by
  apply lawful_of_settles
  · cases running with
    | false => simp [activeCancelSpec, isTerminalWorkStatus]
    | true => simp [activeCancelSpec, isTerminalWorkStatus]
  · exact .inl rfl

theorem supersede_lawful (key : LeaseKey) (preserveQueuedIds : List WorkItemId) (running : Bool) :
    (supersedeSpec key preserveQueuedIds running).Lawful := by
  apply lawful_of_settles
  · cases running with
    | false => simp [supersedeSpec, isTerminalWorkStatus]
    | true => simp [supersedeSpec, isTerminalWorkStatus]
  · exact .inr rfl

variable (leaseKeyOf : WorkItemId → LeaseKey) (s : WorkState)

theorem claim_keeps (id : WorkItemId) (leaseEpoch : Option Nat) :
    s.Keeps (claimWorkForExecution leaseKeyOf s id leaseEpoch).2 := by
  have keeps := transition_keeps leaseKeyOf s (claim_lawful id leaseEpoch)
  simp only [claimWorkForExecution]
  cases (transition leaseKeyOf s (claimSpec id leaseEpoch)).1 with
  | nil => exact keeps
  | cons head rest => exact keeps

theorem acquire_and_claim_keeps (id : WorkItemId) (holderId ttlSeconds : Nat) :
    s.Keeps (acquireAndClaimWorkItem leaseKeyOf s id holderId ttlSeconds).2 := by
  simp only [acquireAndClaimWorkItem]
  cases acquirePrActorLease s.now s.leases (leaseKeyOf id) id holderId ttlSeconds with
  | mk acquisition leases =>
      cases acquisition with
      | refused heldBy leaseEpoch => exact keeps_refl s
      | acquired leaseEpoch =>
          have acquired : s.Keeps { s with leases } := keeps_of_items (keeps_refl s) rfl
          have keeps := keeps_trans acquired (claim_keeps leaseKeyOf { s with leases } id (some leaseEpoch))
          dsimp only
          generalize claimWorkForExecution leaseKeyOf { s with leases } id (some leaseEpoch) = result at keeps ⊢
          obtain ⟨claim, claimed⟩ := result
          cases claim with
          | some claim => exact keeps
          | none => exact keeps_of_items keeps rfl

theorem begin_attempt_sound {row : WorkItem} (sound : row.Sound) (now : Nat) {attemptLimit : Nat}
    (below : row.attemptCount < attemptLimit) : (row.beginAttempt now attemptLimit).Sound :=
  ⟨sound.started, sound.cancelled, .inr ⟨attemptLimit, rfl, below⟩⟩

theorem begin_work_attempt_keeps (id : WorkItemId) (leaseEpoch : Option Nat) (attemptLimit : Nat) :
    s.Keeps (beginWorkAttempt s id leaseEpoch attemptLimit).2 := by
  unfold beginWorkAttempt
  by_cases fenced : s.fenced id leaseEpoch = true
  · rw [if_pos fenced]
    cases stored : s.items.get? id with
    | none => exact keeps_refl s
    | some row =>
        dsimp only
        by_cases idle : row.status ≠ .running ∨ row.cancelRequestedAt.isSome = true
        · rw [if_pos idle]
          exact keeps_refl s
        · rw [if_neg idle]
          by_cases exhausted : attemptLimit ≤ row.attemptCount
          · rw [if_pos exhausted]
            exact keeps_refl s
          · rw [if_neg exhausted]
            apply set_keeps
            · intro old storedOld
              obtain rfl := Option.some.inj (stored.symm.trans storedOld)
              exact ⟨fun _ => rfl, fun _ => rfl, fun _ => .inl rfl⟩
            · exact fun sound => begin_attempt_sound (sound row stored) s.now (by omega)
  · rw [if_neg fenced]
    exact keeps_refl s

theorem cancel_observed_keeps (id : WorkItemId) (error : String) (epoch : Nat) :
    s.Keeps (cancelObservedExecution leaseKeyOf s id error epoch) := by
  unfold cancelObservedExecution
  by_cases held : s.held id epoch = true
  · rw [if_pos held]
    exact transition_keeps leaseKeyOf s (observed_cancel_lawful id error epoch)
  · rw [if_neg held]
    exact keeps_refl s

theorem cancel_active_keeps (key : LeaseKey) (attribution : ReviewCancelAttribution) :
    s.Keeps (cancelActive leaseKeyOf s key attribution) :=
  keeps_of_items (keeps_trans (transition_keeps leaseKeyOf s (active_cancel_lawful key attribution false))
    (transition_keeps leaseKeyOf _ (active_cancel_lawful key attribution true))) rfl

theorem supersede_active_keeps (key : LeaseKey) (preserveQueuedIds : List WorkItemId) :
    s.Keeps (supersedeActiveAutoWork leaseKeyOf s key preserveQueuedIds).2 :=
  keeps_of_items (keeps_trans (transition_keeps leaseKeyOf s (supersede_lawful key preserveQueuedIds false))
    (transition_keeps leaseKeyOf _ (supersede_lawful key [] true))) rfl

theorem insert_keeps (id : WorkItemId) (new : NewWorkItem) : s.Keeps (insertAgentWorkItem s id new) := by
  unfold insertAgentWorkItem
  cases stored : s.items.get? id with
  | none =>
      have fresh : (new.row s.now).Sound := by
        constructor
        · intro running
          cases running
        · intro requested
          cases requested
        · exact .inl rfl
      apply set_keeps
      · intro row storedRow
        rw [stored] at storedRow
        cases storedRow
      · exact fun _ => fresh
  | some old =>
      have same : ∀ row, s.items.get? id = some row → row.SameLifecycle
          { old with payload := new.payload, headSha := new.headSha, source := new.source, updatedAt := s.now } := by
        intro row storedRow
        obtain rfl := Option.some.inj (stored.symm.trans storedRow)
        exact ⟨rfl, rfl, rfl, rfl, rfl⟩
      exact set_keeps (fun row storedRow => same_lifecycle_follows (same row storedRow))
        (fun sound => same_lifecycle_sound (same old stored) (sound old stored))

end Statements
end PrAgent
