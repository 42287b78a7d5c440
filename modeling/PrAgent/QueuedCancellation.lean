import PrAgent.WorkItemRuns
import PrAgent.SafeIntegers
set_option autoImplicit false

namespace PrAgent

section Numbers

-- `Number(execution_epoch)`, where `Number(null)` is 0.
def epochNumber (executionEpoch : Option Nat) : Nat := nearestDouble (executionEpoch.getD 0)

theorem epochNumber_eq_safe {executionEpoch : Option Nat} {epoch : Nat} (same : epochNumber executionEpoch = epoch)
    (safe : epoch ≤ maxSafe) (positive : 0 < epoch) : executionEpoch = some epoch := by
  have value := nearestDouble_eq_safe same safe
  cases executionEpoch with
  | none =>
    simp at value
    omega
  | some n => exact congrArg some value

end Numbers

section Call

-- Where a call of `markQueuedWorkCancelled` stands: each constructor but the last two is a statement it is about to send.
inductive CancelCall
  | cancelQueued
  | observe
  | retry (queuedEpoch : Option Nat)
  | observeAgain (queuedEpoch : Option Nat)
  | begin (epoch : Nat)
  | lock (epoch beganAt : Nat)
  | cancelRunning (epoch beganAt : Nat)
  | confirm (epoch : Nat)
  | returned (cancelled : Bool)
  | leaseLost
  deriving DecidableEq, Repr

-- What follows a row that is neither queued nor cancelled.
def CancelCall.ofObserved (observedEpoch : Nat) (target : WorkItem) : CancelCall :=
  let epoch := if 0 < observedEpoch then observedEpoch else epochNumber target.executionEpoch
  if target.status ≠ .running ∨ ¬epoch ≤ maxSafe ∨ epoch = 0 then .returned false else .begin epoch

def afterFirst (target : WorkItem) : CancelCall :=
  if target.status = .cancelled then .returned true
  else if target.status = .queued then .retry target.executionEpoch
  else .ofObserved (epochNumber target.executionEpoch) target

def afterRetry (queuedEpoch : Option Nat) (target : WorkItem) : CancelCall :=
  if 0 < epochNumber queuedEpoch ∧ epochNumber target.executionEpoch ≠ epochNumber queuedEpoch then .returned false
  else if target.status = .cancelled then .returned true
  else .ofObserved (epochNumber queuedEpoch) target

variable (leaseKeyOf : WorkItemId → LeaseKey) (id : WorkItemId) (error : String)

-- A transition and where the call goes when it updates no row.
def cancelOr (s : WorkState) (spec : TransitionSpec) (otherwise : CancelCall) : WorkState × CancelCall :=
  let (rows, moved) := transition leaseKeyOf s spec
  (moved, if rows.isEmpty then otherwise else .returned true)

-- `now()` is the time at which the transaction began.
def WorkState.at (s : WorkState) (now : Nat) : WorkState := { s with now }

def cancelStatement (s : WorkState) : CancelCall → Option (WorkState × CancelCall)
  | .cancelQueued => some (cancelOr leaseKeyOf s (queuedCancelSpec id error) .observe)
  | .observe => some (s, ((s.items.get? id).map afterFirst).getD (.returned false))
  | .retry queuedEpoch =>
    some (cancelOr leaseKeyOf s (queuedCancelRetrySpec id error queuedEpoch) (.observeAgain queuedEpoch))
  | .observeAgain queuedEpoch => some (s, ((s.items.get? id).map (afterRetry queuedEpoch)).getD (.returned false))
  | .begin epoch => some (s, .lock epoch s.now)
  | .lock epoch beganAt => some (s, if (s.at beganAt).held id epoch then .cancelRunning epoch beganAt else .leaseLost)
  | .cancelRunning epoch beganAt =>
    let result := cancelOr leaseKeyOf (s.at beganAt) (observedCancelSpec id error epoch) (.confirm epoch)
    some (result.1.at s.now, result.2)
  | .confirm epoch =>
    some (s, .returned ((s.items.get? id).any fun row => row.status = .cancelled && epochNumber row.executionEpoch = epoch))
  | .returned _ | .leaseLost => none

def CancelCall.observes : CancelCall → Bool
  | .observe | .observeAgain _ => true
  | _ => false

-- A call among the other statements on the tables. `observed` and `others` only record the run: the epochs that the
-- call has read, the last one first, and the statements of others, in their order.
structure CancelRun where
  work : WorkState
  call : CancelCall := .cancelQueued
  observed : List (Option Nat) := []
  others : List WorkMove := []

inductive CancelEvent
  | own
  | other (move : WorkMove)

def cancelRunStep (s : CancelRun) : CancelEvent → Option CancelRun
  | .own => (cancelStatement leaseKeyOf id error s.work s.call).map fun (work, call) =>
    { s with
      work
      call
      observed := if s.call.observes then ((s.work.items.get? id).map WorkItem.executionEpoch).toList ++ s.observed
        else s.observed }
  | .other move => some { s with work := move.apply leaseKeyOf s.work, others := s.others ++ [move] }

end Call

section Statements

variable {leaseKeyOf : WorkItemId → LeaseKey} {id : WorkItemId} {error : String}

theorem transition_nothing {s : WorkState} {spec : TransitionSpec} (nothing : (transition leaseKeyOf s spec).1 = []) :
    (transition leaseKeyOf s spec).2 = s := by
  have unselected : ∀ other row, s.items.get? other = some row → spec.selects leaseKeyOf s other row = false := by
    intro other row stored
    by_cases chosen : spec.selects leaseKeyOf s other row = true
    · have listed := (Table.mem_select s.items (spec.selects leaseKeyOf s) other row).mpr ⟨stored, chosen⟩
      rw [show s.items.select (spec.selects leaseKeyOf s) = [] from nothing] at listed
      cases listed
    · simpa using chosen
  simp only [transition, Table.updateWhere_none _ _ _ unselected]

theorem transition_something {s : WorkState} {spec : TransitionSpec} (selector : spec.selector.id = some id)
    (something : (transition leaseKeyOf s spec).1 ≠ []) :
    ∃ row, s.items.get? id = some row ∧ spec.selects leaseKeyOf s id row = true := by
  obtain ⟨⟨other, row⟩, listed⟩ := List.exists_mem_of_ne_nil _ something
  obtain ⟨stored, chosen⟩ := (Table.mem_select s.items (spec.selects leaseKeyOf s) other row).mp listed
  have same : id = other := by
    simp only [TransitionSpec.selects, TransitionSelector.selects, selector, Bool.and_eq_true] at chosen
    simpa using chosen.1.1.1.1.1.1.1.1
  subst same
  exact ⟨row, stored, chosen⟩

theorem transition_elsewhere {s : WorkState} {spec : TransitionSpec} (selector : spec.selector.id = some id)
    {other : WorkItemId} (elsewhere : other ≠ id) :
    (transition leaseKeyOf s spec).2.items.get? other = s.items.get? other := by
  have unselected : ∀ row, spec.selects leaseKeyOf s other row = false := by
    intro row
    have differs : ¬id = other := Ne.symm elsewhere
    simp [TransitionSpec.selects, TransitionSelector.selects, selector, differs]
  rw [transition_items]
  cases s.items.get? other with
  | none => rfl
  | some row => simp [unselected row]

-- What the cancelling statements of the call do: nothing, or a row of the item becomes cancelled.
theorem cancelOr_spec (s : WorkState) {spec : TransitionSpec} (otherwise : CancelCall) (selector : spec.selector.id = some id)
    (cancels : spec.toStatus = .cancelled) :
    cancelOr leaseKeyOf s spec otherwise = (s, otherwise) ∨
      ((cancelOr leaseKeyOf s spec otherwise).2 = .returned true ∧
        (∀ other, other ≠ id → (cancelOr leaseKeyOf s spec otherwise).1.items.get? other = s.items.get? other) ∧
        ∃ row new, s.items.get? id = some row ∧ spec.selects leaseKeyOf s id row = true ∧
          (cancelOr leaseKeyOf s spec otherwise).1.items.get? id = some new ∧ new.status = .cancelled) := by
  by_cases nothing : (transition leaseKeyOf s spec).1 = []
  · left
    simp [cancelOr, nothing, transition_nothing nothing]
  · right
    obtain ⟨row, stored, chosen⟩ := transition_something selector nothing
    have moved : (transition leaseKeyOf s spec).2.items.get? id = some (spec.assign s.now row) := by
      rw [transition_items, stored]
      simp [chosen]
    have call : (cancelOr leaseKeyOf s spec otherwise).2 = .returned true := by
      simp [cancelOr, nothing]
    exact ⟨call, fun _ elsewhere => transition_elsewhere selector elsewhere, row, spec.assign s.now row, stored, chosen,
      moved, cancels⟩

theorem selected_also {s : WorkState} {spec : TransitionSpec} {row : WorkItem}
    (selected : spec.selects leaseKeyOf s id row = true) : spec.also id row = true := by
  simp only [TransitionSpec.selects, Bool.and_eq_true] at selected
  exact selected.1.2

end Statements

section Runs

variable {leaseKeyOf : WorkItemId → LeaseKey} {id : WorkItemId} {error : String}

def ItemCancelled (id : WorkItemId) (s : WorkState) : Prop := ∃ row, s.items.get? id = some row ∧ row.status = .cancelled

theorem move_keeps_cancelled {s : WorkState} (cancelled : ItemCancelled id s) (move : WorkMove) :
    ItemCancelled id (move.apply leaseKeyOf s) := by
  obtain ⟨row, stored, status⟩ := cancelled
  obtain ⟨new, stored', follows⟩ := (work_move_keeps leaseKeyOf s move).follows id row stored
  have terminal : isTerminalWorkStatus row.status = true := by
    rw [status]
    rfl
  exact ⟨new, stored', (follows.terminal terminal).trans status⟩

-- What the call has read when it is about to send a statement.
def CancelCall.Observed (observed : List (Option Nat)) : CancelCall → Prop
  | .cancelQueued | .observe => observed = []
  | .retry queuedEpoch | .observeAgain queuedEpoch => observed = [queuedEpoch]
  | .begin epoch | .lock epoch _ | .cancelRunning epoch _ | .confirm epoch =>
    epoch ≤ maxSafe ∧ observed.head? = some (some epoch) ∧ ∀ n, some n ∈ observed → 0 < n → n = epoch
  | .returned _ | .leaseLost => True

-- The call changes one row: it cancels the item, which was queued before the call had read anything, or is of the
-- epoch that the call has read, in every of its readings that found one.
structure CancelsObserved (id : WorkItemId) (s t : CancelRun) : Prop where
  returns : t.call = .returned true
  cancels : ItemCancelled id t.work
  elsewhere : ∀ other, other ≠ id → t.work.items.get? other = s.work.items.get? other
  leases : t.work.toLeaseState = s.work.toLeaseState
  observed : ∃ row, s.work.items.get? id = some row ∧ (row.status = .queued ∧ s.observed = [] ∨
    s.observed.head? = some row.executionEpoch ∧ ∀ n, some n ∈ s.observed → 0 < n → row.executionEpoch = some n)

structure CancelInvariant (leaseKeyOf : WorkItemId → LeaseKey) (id : WorkItemId) (start : WorkState) (s : CancelRun) : Prop where
  observed : s.call.Observed s.observed
  cancelled : s.call = .returned true → ItemCancelled id s.work
  unchanged : s.call ≠ .returned true → s.work = s.others.foldl (fun work move => move.apply leaseKeyOf work) start

theorem ofObserved_not_true (observedEpoch : Nat) (target : WorkItem) :
    CancelCall.ofObserved observedEpoch target ≠ .returned true := by
  simp only [CancelCall.ofObserved]
  generalize (if 0 < observedEpoch then observedEpoch else epochNumber target.executionEpoch) = epoch
  split <;> simp

theorem ofObserved_observed {observedEpoch : Nat} {target : WorkItem} {observed : List (Option Nat)}
    (last : observed.head? = some target.executionEpoch)
    (same : 0 < observedEpoch → epochNumber target.executionEpoch = observedEpoch)
    (earlier : ∀ n, some n ∈ observed → some n = target.executionEpoch ∨ nearestDouble n = observedEpoch) :
    (CancelCall.ofObserved observedEpoch target).Observed observed := by
  have current : (if 0 < observedEpoch then observedEpoch else epochNumber target.executionEpoch) =
      epochNumber target.executionEpoch := by
    by_cases positive : 0 < observedEpoch
    · rw [if_pos positive, same positive]
    · rw [if_neg positive]
  simp only [CancelCall.ofObserved, current]
  by_cases refused : target.status ≠ .running ∨ ¬epochNumber target.executionEpoch ≤ maxSafe ∨
      epochNumber target.executionEpoch = 0
  · rw [if_pos refused]
    trivial
  · rw [if_neg refused]
    have safe : epochNumber target.executionEpoch ≤ maxSafe := by
      by_cases safe : epochNumber target.executionEpoch ≤ maxSafe
      · exact safe
      · exact absurd (.inr (.inl safe)) refused
    have positive : 0 < epochNumber target.executionEpoch := by
      by_cases zero : epochNumber target.executionEpoch = 0
      · exact absurd (.inr (.inr zero)) refused
      · omega
    have stored := epochNumber_eq_safe rfl safe positive
    have every : ∀ n, some n ∈ observed → 0 < n → n = epochNumber target.executionEpoch := by
      intro n listed above
      cases earlier n listed with
      | inl here => exact Option.some.inj (here.trans stored)
      | inr before =>
        have nonzero : 0 < nearestDouble n := by
          by_cases small : n ≤ maxSafe
          · rw [nearestDouble_of_safe small]
            exact above
          · have large := nearestDouble_unsafe (Nat.lt_of_not_le small)
            omega
        have agrees := same (before ▸ nonzero)
        exact nearestDouble_eq_safe (before.trans agrees.symm) safe
    exact ⟨safe, last.trans (congrArg some stored), every⟩

theorem own_others {s t : CancelRun} (moved : cancelRunStep leaseKeyOf id error s .own = some t) : t.others = s.others := by
  obtain ⟨moved, _, rfl⟩ := Option.map_eq_some_iff.mp moved
  rfl

theorem own_step {s t : CancelRun} (before : s.call.Observed s.observed)
    (moved : cancelRunStep leaseKeyOf id error s .own = some t) :
    t.call.Observed t.observed ∧
      (t.work = s.work ∧ (t.call = .returned true → ItemCancelled id t.work) ∨ CancelsObserved id s t) := by
  obtain ⟨work, call, observed, others⟩ := s
  cases call with
  | cancelQueued =>
    cases moved
    rcases @cancelOr_spec leaseKeyOf id work (queuedCancelSpec id error) .observe rfl rfl with
      nothing | ⟨returns, elsewhere, row, new, stored, chosen, after, status⟩
    · simp only [nothing]
      exact ⟨before, .inl ⟨by trivial, by simp⟩⟩
    · have queued : row.status = .queued := by simpa [queuedCancelSpec] using selected_status chosen
      have step : (cancelOr leaseKeyOf work (queuedCancelSpec id error) .observe).2.Observed observed := by
        rw [returns]
        trivial
      exact ⟨step, .inr ⟨returns, ⟨new, after, status⟩, elsewhere, rfl,
        row, stored, .inl ⟨queued, before⟩⟩⟩
  | observe =>
    cases moved
    have before : observed = [] := before
    subst before
    cases stored : work.items.get? id with
    | none => exact ⟨by simp [CancelCall.Observed], .inl ⟨by trivial, by simp⟩⟩
    | some row =>
      simp only [CancelCall.observes, Option.map_some, Option.getD_some, Option.toList_some, if_true, List.append_nil, afterFirst]
      by_cases cancelled : row.status = .cancelled
      · rw [if_pos cancelled]
        exact ⟨by trivial, .inl ⟨by trivial, fun _ => ⟨row, stored, cancelled⟩⟩⟩
      · rw [if_neg cancelled]
        by_cases queued : row.status = .queued
        · rw [if_pos queued]
          exact ⟨rfl, .inl ⟨by trivial, by simp⟩⟩
        · rw [if_neg queued]
          have every : ∀ n, some n ∈ [row.executionEpoch] →
              some n = row.executionEpoch ∨ nearestDouble n = epochNumber row.executionEpoch :=
            fun n listed => .inl (List.mem_singleton.mp listed)
          exact ⟨ofObserved_observed rfl (fun _ => rfl) every,
            .inl ⟨by trivial, fun wrong => absurd wrong (ofObserved_not_true _ row)⟩⟩
  | retry queuedEpoch =>
    cases moved
    have before : observed = [queuedEpoch] := before
    subst before
    rcases @cancelOr_spec leaseKeyOf id work (queuedCancelRetrySpec id error queuedEpoch) (.observeAgain queuedEpoch)
        rfl rfl with
      nothing | ⟨returns, elsewhere, row, new, stored, chosen, after, status⟩
    · simp only [nothing]
      exact ⟨rfl, .inl ⟨by trivial, by simp⟩⟩
    · have same : row.executionEpoch = queuedEpoch := of_decide_eq_true (selected_also chosen)
      have step : (cancelOr leaseKeyOf work (queuedCancelRetrySpec id error queuedEpoch) (.observeAgain queuedEpoch)).2.Observed
          [queuedEpoch] := by
        rw [returns]
        trivial
      have every : ∀ n, some n ∈ [queuedEpoch] → 0 < n → row.executionEpoch = some n :=
        fun n listed _ => same.trans (List.mem_singleton.mp listed).symm
      exact ⟨step, .inr ⟨returns, ⟨new, after, status⟩, elsewhere, rfl,
        row, stored, .inr ⟨congrArg some same.symm, every⟩⟩⟩
  | observeAgain queuedEpoch =>
    cases moved
    have before : observed = [queuedEpoch] := before
    subst before
    cases stored : work.items.get? id with
    | none => exact ⟨by simp [CancelCall.Observed], .inl ⟨by trivial, by simp⟩⟩
    | some row =>
      simp only [CancelCall.observes, Option.map_some, Option.getD_some, Option.toList_some, if_true, List.cons_append,
        List.nil_append, afterRetry]
      by_cases moved : 0 < epochNumber queuedEpoch ∧ epochNumber row.executionEpoch ≠ epochNumber queuedEpoch
      · rw [if_pos moved]
        exact ⟨by trivial, .inl ⟨by trivial, by simp⟩⟩
      · rw [if_neg moved]
        by_cases cancelled : row.status = .cancelled
        · rw [if_pos cancelled]
          exact ⟨by trivial, .inl ⟨by trivial, fun _ => ⟨row, stored, cancelled⟩⟩⟩
        · rw [if_neg cancelled]
          have same : 0 < epochNumber queuedEpoch → epochNumber row.executionEpoch = epochNumber queuedEpoch := by
            intro positive
            by_cases same : epochNumber row.executionEpoch = epochNumber queuedEpoch
            · exact same
            · exact absurd ⟨positive, same⟩ moved
          have every : ∀ n, some n ∈ [row.executionEpoch, queuedEpoch] →
              some n = row.executionEpoch ∨ nearestDouble n = epochNumber queuedEpoch := by
            intro n listed
            cases List.mem_cons.mp listed with
            | inl here => exact .inl here
            | inr first =>
              have first := List.mem_singleton.mp first
              exact .inr (by rw [epochNumber, ← first, Option.getD_some])
          exact ⟨ofObserved_observed rfl same every,
            .inl ⟨by trivial, fun wrong => absurd wrong (ofObserved_not_true _ row)⟩⟩
  | begin epoch =>
    cases moved
    exact ⟨before, .inl ⟨by trivial, by simp⟩⟩
  | lock epoch beganAt =>
    cases moved
    by_cases held : (work.at beganAt).held id epoch = true
    · simp only [held, if_true]
      exact ⟨before, .inl ⟨by trivial, by simp⟩⟩
    · simp only [held]
      exact ⟨by trivial, .inl ⟨by trivial, by simp⟩⟩
  | cancelRunning epoch beganAt =>
    cases moved
    obtain ⟨safe, last, every⟩ := before
    rcases @cancelOr_spec leaseKeyOf id (work.at beganAt) (observedCancelSpec id error epoch) (.confirm epoch)
        rfl rfl with
      nothing | ⟨returns, elsewhere, row, new, stored, chosen, after, status⟩
    · simp only [nothing]
      exact ⟨⟨safe, last, every⟩, .inl ⟨by trivial, by simp⟩⟩
    · have same : row.executionEpoch = some epoch := of_decide_eq_true (selected_also chosen)
      have step : (cancelOr leaseKeyOf (work.at beganAt) (observedCancelSpec id error epoch) (.confirm epoch)).2.Observed
          observed := by
        rw [returns]
        trivial
      have all : ∀ n, some n ∈ observed → 0 < n → row.executionEpoch = some n :=
        fun n listed positive => same.trans (congrArg some (every n listed positive).symm)
      exact ⟨step, .inr ⟨returns, ⟨new, after, status⟩, elsewhere, rfl,
        row, stored, .inr ⟨last.trans (congrArg some same.symm), all⟩⟩⟩
  | confirm epoch =>
    cases moved
    refine ⟨trivial, .inl ⟨by trivial, ?_⟩⟩
    intro confirmed
    cases stored : work.items.get? id with
    | none => simp [stored] at confirmed
    | some row =>
      simp only [stored, Option.any_some, CancelCall.returned.injEq, Bool.and_eq_true, decide_eq_true_eq] at confirmed
      exact ⟨row, stored, confirmed.1⟩
  | returned cancelled => cases moved
  | leaseLost => cases moved

theorem cancel_run_invariant {start : WorkState} {s : CancelRun}
    (reached : Reaches (cancelRunStep leaseKeyOf id error) (fun _ _ => True) { work := start } s) :
    CancelInvariant leaseKeyOf id start s := by
  have initial : CancelInvariant leaseKeyOf id start { work := start } := ⟨rfl, by simp, fun _ => rfl⟩
  apply reached.invariant (CancelInvariant leaseKeyOf id start) initial
  intro s event t inv _ moved
  cases event with
  | own =>
    have others := own_others moved
    obtain ⟨observed, kept | cancels⟩ := own_step inv.observed moved
    · have running : s.call ≠ .returned true := by
        intro ended
        simp [cancelRunStep, ended, cancelStatement] at moved
      exact ⟨observed, kept.2, fun _ => by rw [kept.1, others]; exact inv.unchanged running⟩
    · exact ⟨observed, fun _ => cancels.cancels, fun wrong => absurd cancels.returns wrong⟩
  | other move =>
    cases moved
    constructor
    · exact inv.observed
    · exact fun ended => move_keeps_cancelled (inv.cancelled ended) move
    · intro running
      rw [List.foldl_append, ← inv.unchanged running]
      rfl

-- Whatever other statements come between its own, a call that returns true leaves the item cancelled for good, and one
-- that does not return true has changed nothing: the tables are what the others made of them.
theorem queued_cancellation_exact (leaseKeyOf : WorkItemId → LeaseKey) (id : WorkItemId) (error : String) (start : WorkState)
    (s : CancelRun) (reached : Reaches (cancelRunStep leaseKeyOf id error) (fun _ _ => True) { work := start } s) :
    (s.call = .returned true → ItemCancelled id s.work ∧
      ∀ t, Reaches (cancelRunStep leaseKeyOf id error) (fun _ _ => True) s t → ItemCancelled id t.work) ∧
    (∀ t, cancelRunStep leaseKeyOf id error s .own = some t → t.work = s.work ∨ CancelsObserved id s t) ∧
    (s.call ≠ .returned true → s.work = s.others.foldl (fun work move => move.apply leaseKeyOf work) start) := by
  have inv := cancel_run_invariant reached
  refine ⟨?_, ?_, inv.unchanged⟩
  · intro ended
    have later : ∀ t, Reaches (cancelRunStep leaseKeyOf id error) (fun _ _ => True) s t →
        t.call = .returned true ∧ ItemCancelled id t.work := by
      intro t reached'
      apply reached'.invariant (fun t => t.call = .returned true ∧ ItemCancelled id t.work) ⟨ended, inv.cancelled ended⟩
      intro a event b before _ moved
      cases event with
      | own => simp [cancelRunStep, before.1, cancelStatement] at moved
      | other move =>
        cases moved
        exact ⟨before.1, move_keeps_cancelled before.2 move⟩
    exact ⟨inv.cancelled ended, fun t reached' => (later t reached').2⟩
  · intro t moved
    cases (own_step inv.observed moved).2 with
    | inl kept => exact .inl kept.1
    | inr cancels => exact .inr cancels

-- A worker claims the item before the first statement of the call, which then cancels the execution it reads.
def claimedItemRun : CancelRun :=
  runTo (cancelRunStep reviewLeaseKey 1 "closed") (fun _ _ => true)
    [.other (.insert 1 autoReview), .other (.acquireAndClaim 1 0 60), .own, .own, .own, .own, .own]
    { work := emptyWorkState } { work := emptyWorkState }

theorem claimed_item_cancelled : ItemCancelled 1 claimedItemRun.work := by
  have exact' := queued_cancellation_exact reviewLeaseKey 1 "closed" emptyWorkState claimedItemRun
    (reaches_runTo _ _ _ (by decide +kernel))
  exact (exact'.1 (by decide +kernel)).1

end Runs
end PrAgent
