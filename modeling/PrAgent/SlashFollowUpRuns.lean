import PrAgent.SlashFollowUpDelivery
set_option autoImplicit false

namespace PrAgent

variable {leaseKeyOf : WorkItemId → LeaseKey} {slashId : WorkItemId} {s t : PushRun}

def PushAllowed (slashId : WorkItemId) (s : PushRun) : PushEvent → Prop
  | .deliver pushed _ _ liveJobs => DeliveryAllowed slashId s pushed liveJobs
  | .complete run => CompletionAllowed slashId s run
  | _ => True

instance (slashId : WorkItemId) (s : PushRun) : DecidablePred (PushAllowed slashId s) := fun event => by
  cases event <;> unfold PushAllowed <;> first
    | unfold DeliveryAllowed; infer_instance
    | unfold CompletionAllowed; infer_instance

-- The slash review has just been created; automatic reviews of the pull request may be there already.
structure PushRun.Started (leaseKeyOf : WorkItemId → LeaseKey) (slashId : WorkItemId) (s : PushRun) : Prop where
  slash : ∃ row, s.items.get? slashId = some row ∧ row.source = .slash ∧ row.reviewLens = some .review ∧
    row.status = .queued ∧ row.payload.pushFollowUp = none
  alone : ∀ id row, s.items.get? id = some row → id ≠ slashId →
    row.source = .auto ∧ row.reviewLens = some .review ∧ leaseKeyOf id = leaseKeyOf slashId
  recorded : ∀ id row value, s.items.get? id = some row → id ≠ slashId → row.headSha = .sha value →
    ⟨id, value⟩ ∈ s.bindings
  awaiting : s.awaiting = []
  executions : s.executions = Table.empty

theorem started_sound (started : s.Started leaseKeyOf slashId) : s.Sound leaseKeyOf slashId := by
  obtain ⟨row, stored, source, lens, queued, unstamped⟩ := started.slash
  have none_ : ∀ run execution, s.executions.get? run ≠ some execution := by
    intro run execution found
    rw [started.executions] at found
    cases found
  constructor
  · exact ⟨row, stored, source, lens⟩
  · exact started.alone
  · rw [started.awaiting]
    exact fun i waiting => by cases waiting
  · rw [started.awaiting]
    exact fun _ _ i waiting => by cases waiting
  · exact started.recorded
  · intro other id storedOther replacement
    obtain rfl := Option.some.inj (stored.symm.trans storedOther)
    simp [WorkItem.followUpReplacementId, unstamped] at replacement
  · exact fun run execution _ found => absurd found (none_ run execution)
  · exact fun run execution _ found => absurd found (none_ run execution)
  · exact fun run execution _ _ found => absurd found (none_ run execution)
  · rw [started.awaiting]
    exact fun _ _ _ i waiting => by cases waiting

theorem deliver_sound (review : (leaseKeyOf slashId).workType = .review) (sound : s.Sound leaseKeyOf slashId)
    {pushed eventId newId : Nat} {liveJobs : List WorkItemId} (allowed : DeliveryAllowed slashId s pushed liveJobs)
    (moved : pushStep leaseKeyOf slashId s (.deliver pushed eventId newId liveJobs) = some t) :
    t.Sound leaseKeyOf slashId := by
  simp only [pushStep] at moved
  split at moved
  · rename_i admitted
    obtain rfl := Option.some.inj moved
    obtain ⟨slash, stored, _⟩ := sound.slash
    have absent : s.items.get? newId = none := by
      have fresh := admitted.2
      simp only [PushRun.freshId, Bool.and_eq_true, Option.isNone_iff_eq_none] at fresh
      exact fresh.1
    obtain ⟨new, delivered, outcome⟩ := delivery_outcome sound review stored absent eventId liveJobs
    exact sound_delivered sound stored admitted.2 delivered outcome allowed admitted.1
  · cases moved

theorem push_step_sound (review : (leaseKeyOf slashId).workType = .review) (sound : s.Sound leaseKeyOf slashId)
    {event : PushEvent} (allowed : PushAllowed slashId s event) (moved : pushStep leaseKeyOf slashId s event = some t) :
    t.Sound leaseKeyOf slashId := by
  cases event with
  | push headSha =>
      obtain rfl := Option.some.inj moved
      exact sound_push sound headSha
  | deliver pushed eventId newId liveJobs => exact deliver_sound review sound allowed moved
  | lease move =>
      obtain rfl := Option.some.inj moved
      change (s.withWork { s.toWorkState with toLeaseState := move.apply leaseKeyOf s.toLeaseState }).Sound leaseKeyOf slashId
      exact sound_rows_kept sound (rows_kept_of_items rfl)
  | claim leaseEpoch =>
      obtain rfl := Option.some.inj moved
      exact sound_rows_kept sound (claim_rows_kept s.toWorkState leaseEpoch)
  | begin run leaseEpoch => exact begin_sound sound moved
  | check run =>
      simp only [pushStep] at moved
      cases found : s.executions.get? run with
      | none => simp [found] at moved
      | some execution =>
          simp only [found] at moved
          split at moved
          · obtain rfl := Option.some.inj moved
            exact check_head_sound sound found
          · cases moved
  | follow run newId => exact follow_sound sound moved
  | complete run => exact complete_sound sound allowed moved
  | retry id error leaseEpoch =>
      obtain rfl := Option.some.inj moved
      exact sound_rows_kept sound (retry_rows_kept s.toWorkState id error leaseEpoch)
  | fail id error leaseEpoch =>
      obtain rfl := Option.some.inj moved
      exact sound_rows_kept sound (fail_rows_kept s.toWorkState id error leaseEpoch)
  | startAuto id leaseEpoch => exact start_auto_sound sound moved
  | abandonAuto id error leaseEpoch =>
      simp only [pushStep] at moved
      split at moved
      · cases moved
      · rename_i admitted
        obtain rfl := Option.some.inj moved
        have failed : (markWorkFailed leaseKeyOf (claimWorkForExecution leaseKeyOf s.toWorkState id leaseEpoch).2 id error
            leaseEpoch).1 = true := by simpa using (not_or.mp admitted).2
        exact sound_rows_kept sound (abandon_rows_kept slashId failed)
  | completeAuto id leaseEpoch =>
      simp only [pushStep] at moved
      by_cases here : id = slashId
      · simp [here] at moved
      · rw [if_neg here] at moved
        obtain rfl := Option.some.inj moved
        exact sound_rows_kept sound (complete_auto_rows_kept s.toWorkState here leaseEpoch)

theorem pushes_followed_up (leaseKeyOf : WorkItemId → LeaseKey) (slashId : WorkItemId)
    (review : (leaseKeyOf slashId).workType = .review) (s t : PushRun) (started : s.Started leaseKeyOf slashId)
    (reached : Reaches (pushStep leaseKeyOf slashId) (PushAllowed slashId) s t) :
    ∀ slash, t.items.get? slashId = some slash → slash.status = .completed →
      ∀ pushed ∈ t.awaiting, t.Covered leaseKeyOf slashId pushed := by
  have sound : t.Sound leaseKeyOf slashId := by
    refine reached.invariant (PushRun.Sound leaseKeyOf slashId) (started_sound started) ?_
    intro s event t sound allowed moved
    exact push_step_sound review sound allowed moved
  exact sound.completed

section Histories

def slashReview : WorkItem where
  source := .slash
  reviewLens := some .review
  headSha := .deferred
  status := .queued
  updatedAt := 0

-- A slash review is queued under id 1, and the head of the pull request is 10.
def slashQueued : PushRun where
  now := 0
  leases := Table.empty
  items := ⟨[(1, slashReview)], by decide⟩
  pushes := [10]
  awaiting := []
  bindings := []
  executions := Table.empty

theorem slash_started : slashQueued.Started (fun _ => ⟨0, .review⟩) 1 := by
  have only : ∀ id row, slashQueued.items.get? id = some row → id = 1 := by
    intro id row stored
    have listed := (Table.get?_eq_some_iff _ id row).mp stored
    simp only [slashQueued, List.mem_singleton, Prod.mk.injEq] at listed
    exact listed.1
  exact ⟨⟨slashReview, rfl, rfl, rfl, rfl, rfl⟩, fun id row stored other => absurd (only id row stored) other,
    fun id row _ stored other => absurd (only id row stored) other, rfl, rfl⟩

def slashBegun : List PushEvent := [.lease (.acquire 1 0 60), .claim (some 1), .begin 0 (some 1)]

def pushDelivered : List PushEvent := [.push 20, .deliver 1 7 2 []]

-- The push and its delivery come between the head check and the terminal update.
def pushAfterCheck : List PushEvent := slashBegun ++ .check 0 :: pushDelivered ++ [.complete 0]

-- The head check sees the push, and its delivery comes after the follow-up was refused for want of a stamp.
def deliveryAfterFollow : List PushEvent := slashBegun ++ [.push 20, .check 0, .follow 0 2, .deliver 1 7 2 [], .complete 0]

-- The delivery comes while the review waits for a retry on the head it has bound.
def deliveryBeforeRetry : List PushEvent :=
  slashBegun ++ .retry 1 "" (some 1) :: pushDelivered ++
    [.claim (some 1), .begin 1 (some 1), .check 1, .follow 1 2, .complete 1]

def slashThrough (events : List PushEvent) : PushRun :=
  runTo (pushStep (fun _ => ⟨0, .review⟩) 1) (fun _ _ => decide True) events slashQueued slashQueued

-- A slash review that is alone, completed and bound to the first head only covers no later push.
theorem bound_alone_uncovered {t : PushRun} {slash : WorkItem} (rows : t.items.rows = [(1, slash)])
    (pushes : t.pushes = [10, 20]) (bindings : ∀ binding ∈ t.bindings, binding.headSha = 10)
    (head : slash.headSha = .sha 10) : ¬t.Covered (fun _ => ⟨0, .review⟩) 1 1 := by
  rintro ⟨id, row, stored, _, _, covers⟩
  have listed := (Table.get?_eq_some_iff _ id row).mp stored
  rw [rows, List.mem_singleton, Prod.mk.injEq] at listed
  obtain ⟨rfl, rfl⟩ := listed
  have older : ¬NewerHead t.pushes 1 10 := by
    rw [pushes]
    decide
  rcases covers.head with ⟨value, same, newer⟩ | ⟨value, bound, newer⟩ | ⟨deferred, _⟩
  · rw [head] at same
    cases same
    exact older newer
  · obtain rfl : value = 10 := bindings _ bound
    exact older newer
  · rw [head] at deferred
    cases deferred

-- Events after which the slash review is completed and nothing stands for a push that awaits it.
def LosesPush (events : List PushEvent) : Prop :=
  Reaches (pushStep (fun _ => ⟨0, .review⟩) 1) (fun _ _ => True) slashQueued (slashThrough events) ∧
    (∃ slash, (slashThrough events).items.get? 1 = some slash ∧ slash.status = .completed) ∧
    1 ∈ (slashThrough events).awaiting ∧ ¬(slashThrough events).Covered (fun _ => ⟨0, .review⟩) 1 1

theorem loses_push {events : List PushEvent}
    (completes : (runEvents (pushStep (fun _ => ⟨0, .review⟩) 1) (fun _ _ => decide True) events slashQueued).isSome = true)
    {slash : WorkItem} (rows : (slashThrough events).items.rows = [(1, slash)]) (completed : slash.status = .completed)
    (head : slash.headSha = .sha 10) (pushes : (slashThrough events).pushes = [10, 20])
    (awaiting : (slashThrough events).awaiting = [1])
    (bindings : ∀ binding ∈ (slashThrough events).bindings, binding.headSha = 10) : LosesPush events := by
  have stored : (slashThrough events).items.get? 1 = some slash :=
    (Table.get?_eq_some_iff _ 1 slash).mpr (by rw [rows]; exact List.mem_singleton.mpr rfl)
  exact ⟨reaches_runTo _ _ _ completes, ⟨slash, stored, completed⟩, by rw [awaiting]; exact List.mem_singleton.mpr rfl,
    bound_alone_uncovered rows pushes bindings head⟩

theorem push_lost : LosesPush pushAfterCheck ∧ LosesPush deliveryAfterFollow ∧ LosesPush deliveryBeforeRetry := by
  refine ⟨?_, ?_, ?_⟩
  · exact loses_push (by decide +kernel) rfl rfl rfl rfl rfl (by decide +kernel)
  · exact loses_push (by decide +kernel) rfl rfl rfl rfl rfl (by decide +kernel)
  · exact loses_push (by decide +kernel) rfl rfl rfl rfl rfl (by decide +kernel)

-- The delivery stamps the review before its head check, and the follow-up is created.
def deliveryBeforeCheck : List PushEvent := slashBegun ++ pushDelivered ++ [.check 0, .follow 0 3, .complete 0]

def pushFollowedUp : PushRun :=
  runTo (pushStep (fun _ => ⟨0, .review⟩) 1) (fun s event => decide (PushAllowed 1 s event)) deliveryBeforeCheck slashQueued
    slashQueued

theorem stamped_push_followed_up : ∃ slash, pushFollowedUp.items.get? 1 = some slash ∧ slash.status = .completed ∧
    1 ∈ pushFollowedUp.awaiting ∧ pushFollowedUp.Covered (fun _ => ⟨0, .review⟩) 1 1 :=
  ⟨_, rfl, rfl, List.mem_singleton.mpr rfl,
    pushes_followed_up (fun _ => ⟨0, .review⟩) 1 rfl slashQueued pushFollowedUp slash_started
      (reaches_runTo _ _ _ (by decide +kernel)) _ rfl rfl 1 (List.mem_singleton.mpr rfl)⟩

end Histories

end PrAgent
