import PrAgent.WorkItemMoves
set_option autoImplicit false

namespace PrAgent

-- A head an execution bound for a review.
structure HeadBinding where
  workItemId : WorkItemId
  headSha : Nat
  deriving DecidableEq, Repr

-- How far the completion path of an execution has come. `completed` holds the number of pushes at the head check that
-- found the live head to be the bound one, and nothing when no such check decided.
inductive CompletionPhase
  | executing
  | headMoved
  | completed (atHead : Option Nat)
  | rescheduled (replacementWorkItemId : WorkItemId)
  deriving DecidableEq, Repr

-- `payload` is the one of the row the execution loaded.
structure SlashExecution where
  leaseEpoch : Option Nat
  payload : WorkPayload
  boundHeadSha : Nat
  phase : CompletionPhase
  deriving DecidableEq, Repr

-- `pushes`: the heads of the pull request, the live one last. `awaiting`: the pushes whose delivery was accepted while
-- the slash review was active. `bindings`: every head bound for a review.
structure PushRun extends WorkState where
  pushes : List Nat
  awaiting : List Nat
  bindings : List HeadBinding
  executions : Table Nat SlashExecution

def PushRun.withWork (s : PushRun) (work : WorkState) : PushRun := { s with toWorkState := work }

variable (leaseKeyOf : WorkItemId → LeaseKey)

section Delivery

def isActiveSlashReview (key : LeaseKey) (id : WorkItemId) (row : WorkItem) : Bool :=
  (leaseKeyOf id).resourceKey = key.resourceKey && row.source = .slash && (leaseKeyOf id).workType = .review &&
    row.reviewLens = some .review && (row.status = .queued || row.status = .running)

def lockActiveSlashReviews (s : WorkState) (key : LeaseKey) : List (WorkItemId × WorkItem) :=
  s.items.select (isActiveSlashReview leaseKeyOf key)

def WorkItem.followUpReplacementId (row : WorkItem) : Option WorkItemId :=
  row.payload.pushFollowUp.bind PushFollowUp.replacementWorkItemId

def everyPushReview (eventId : WebhookEventId) : NewWorkItem where
  source := .auto
  reviewLens := some .review
  headSha := .deferred
  webhookEventId := some eventId
  payload := {}

def insertEveryPushReview (s : WorkState) (key : LeaseKey) (eventId : WebhookEventId) (newId : WorkItemId) : WorkState :=
  let superseded := supersedeActiveAutoWork leaseKeyOf s key []
  let created := insertAgentWorkItem superseded.2 newId (everyPushReview eventId)
  if superseded.1.isEmpty then created else linkSupersededWorkItems created newId superseded.1

-- `UPDATE … WHERE id = ANY($1) AND status = 'running' AND NOT (payload ? 'pushFollowUp')`.
def stampsFollowUp (runningIds : List WorkItemId) (id : WorkItemId) (row : WorkItem) : Bool :=
  id ∈ runningIds && row.status = .running && row.payload.pushFollowUp.isNone

-- One transaction, behind the intake lock. `liveJobs`: the work items with a live review job.
def applyEveryPushReviewSupersede (s : WorkState) (key : LeaseKey) (eventId : WebhookEventId) (newId : WorkItemId)
    (liveJobs : List WorkItemId) : WorkState :=
  let slashRows := lockActiveSlashReviews leaseKeyOf s key
  if slashRows.isEmpty then insertEveryPushReview leaseKeyOf s key eventId newId
  else
    let followUpIds := slashRows.filterMap fun (_, row) => row.followUpReplacementId
    let preservedFollowUpIds := followUpIds.filter (· ∈ liveJobs)
    let superseded := (supersedeActiveAutoWork leaseKeyOf s key preservedFollowUpIds).2
    let runningIds := (slashRows.filter fun (_, row) =>
      row.status = .running && row.payload.pushFollowUp.isNone).map Prod.fst
    if runningIds.isEmpty then
      if followUpIds.isEmpty then superseded
      else if superseded.items.any fun id row => id ∈ preservedFollowUpIds && row.status = .queued then superseded
      else insertEveryPushReview leaseKeyOf superseded key eventId newId
    else
      let stamped := patchPayload superseded (stampsFollowUp runningIds) { pushFollowUp := some ⟨eventId, none, none⟩ }
      if superseded.items.any (stampsFollowUp runningIds) then stamped
      else if !(lockActiveSlashReviews leaseKeyOf stamped key).isEmpty then stamped
      else if stamped.items.any fun id row => id ∈ runningIds && row.status = .completed then
        insertEveryPushReview leaseKeyOf stamped key eventId newId
      else stamped

end Delivery

section FollowUp

def pushFollowUpChildPayload (payload : WorkPayload) : WorkPayload :=
  { payload with pushFollowUp := none, staleHeadReplacement := none, staleHeadRescheduled := none }

def followUpReview (followUp : PushFollowUp) (parent : WorkItem) : NewWorkItem where
  source := .auto
  reviewLens := parent.reviewLens
  headSha := .deferred
  webhookEventId := some followUp.webhookEventId
  payload := pushFollowUpChildPayload parent.payload

-- One transaction, behind the intake lock, with the lease row locked. `newId` is the id drawn for a first replacement.
def createPushFollowUpWorkItem (s : WorkState) (itemId : WorkItemId) (leaseEpoch : Nat) (newId : WorkItemId) :
    Option (WorkItemId × WorkState) :=
  if s.held itemId leaseEpoch then
    match s.items.get? itemId with
    | none => none
    | some parent =>
      if parent.status ≠ .running ∨ parent.cancelRequestedAt.isSome ∨ parent.source ≠ .slash ∨
          parent.payload.staleHeadReplacement.isSome then none
      else match parent.payload.pushFollowUp with
        | none => none
        | some followUp =>
          let replacementWorkItemId := followUp.replacementWorkItemId.getD newId
          let child := insertAgentWorkItem s replacementWorkItemId (followUpReview followUp parent)
          let marker : PushFollowUp := ⟨followUp.webhookEventId, some replacementWorkItemId, some .enqueued⟩
          some (replacementWorkItemId, patchPayload child (fun id _ => id = itemId) { pushFollowUp := some marker })
  else none

-- `finishRescheduledParentWorkItem`: the row may have been completed elsewhere or by the forced update.
def finishRescheduledParentWorkItem (s : WorkState) (itemId : WorkItemId) (leaseEpoch : Nat) : WorkState :=
  let marked := markWorkCompleted leaseKeyOf s itemId (some leaseEpoch)
  if marked.1 then marked.2
  else if (marked.2.items.get? itemId).any fun row => row.status = .completed then marked.2
  else (forceMarkRescheduledParentCompleted leaseKeyOf marked.2 itemId leaseEpoch).2

end FollowUp

section Steps

variable (slashId : WorkItemId)

-- The slash review is named by `slashId`; the other events are those of the automatic reviews of its pull request. One
-- of these is claimed and bound to its head, or claimed and failed, in one step.
inductive PushEvent
  | push (headSha : Nat)
  | deliver (pushed : Nat) (eventId : WebhookEventId) (newId : WorkItemId) (liveJobs : List WorkItemId)
  | lease (move : LeaseMove)
  | claim (leaseEpoch : Option Nat)
  | begin (execution : Nat) (leaseEpoch : Option Nat)
  | check (execution : Nat)
  | follow (execution : Nat) (newId : WorkItemId)
  | complete (execution : Nat)
  | retry (id : WorkItemId) (error : String) (leaseEpoch : Option Nat)
  | fail (id : WorkItemId) (error : String) (leaseEpoch : Option Nat)
  | startAuto (id : WorkItemId) (leaseEpoch : Option Nat)
  | abandonAuto (id : WorkItemId) (error : String) (leaseEpoch : Option Nat)
  | completeAuto (id : WorkItemId) (leaseEpoch : Option Nat)

-- `resolveWorkItemHead`.
def PushRun.resolveHead (s : PushRun) : HeadSha → Option Nat
  | .deferred => s.pushes.getLast?
  | .sha value => some value

-- The head is looked up and bound: a push between the two is one right after them.
def PushRun.bindHead (s : PushRun) (id : WorkItemId) (leaseEpoch : Option Nat) : Option (Nat × PushRun) :=
  match s.items.get? id with
  | none => none
  | some row =>
    if row.status = .running ∧ row.cancelRequestedAt.isNone ∧ s.fenced id leaseEpoch then
      (s.resolveHead row.headSha).map fun headSha =>
        (headSha, { s with
          toWorkState := updateRunningWorkHeadSha s.toWorkState id (.sha headSha) leaseEpoch
          bindings := ⟨id, headSha⟩ :: s.bindings })
    else none

-- `schedulePushFollowUp` up to its head check. The cadence is every push and the pull request is open.
def PushRun.checkHead (s : PushRun) (execution : SlashExecution) : CompletionPhase :=
  if execution.payload.staleHeadReplacement.isSome ∨ execution.leaseEpoch.isNone then .completed none
  else if s.pushes.getLast? = some execution.boundHeadSha then .completed (some s.pushes.length)
  else .headMoved

def PushRun.setPhase (s : PushRun) (run : Nat) (execution : SlashExecution) (phase : CompletionPhase) : PushRun :=
  { s with executions := s.executions.set run { execution with phase } }

def followStep (s : PushRun) (run : Nat) (execution : SlashExecution) (leaseEpoch : Nat) (newId : WorkItemId) : PushRun :=
  match createPushFollowUpWorkItem s.toWorkState slashId leaseEpoch newId with
  | some (replacementWorkItemId, work) => (s.withWork work).setPhase run execution (.rescheduled replacementWorkItemId)
  | none => s.setPhase run execution (.completed none)

def completeStep (s : PushRun) (execution : SlashExecution) : Option WorkState :=
  match execution.phase, execution.leaseEpoch with
  | .completed _, leaseEpoch => some (markWorkCompleted leaseKeyOf s.toWorkState slashId leaseEpoch).2
  | .rescheduled _, some leaseEpoch => some (finishRescheduledParentWorkItem leaseKeyOf s.toWorkState slashId leaseEpoch)
  | _, _ => none

-- A fresh id of a review of the same pull request.
def PushRun.freshId (s : PushRun) (newId : WorkItemId) : Bool :=
  (s.items.get? newId).isNone && leaseKeyOf newId = leaseKeyOf slashId

def PushRun.slashActive (s : PushRun) : Bool :=
  (s.items.get? slashId).any fun row => row.status = .queued || row.status = .running

def pushStep (s : PushRun) : PushEvent → Option PushRun
  | .push headSha => some { s with pushes := s.pushes ++ [headSha] }
  | .deliver pushed eventId newId liveJobs =>
    if pushed < s.pushes.length ∧ s.freshId leaseKeyOf slashId newId then
      some { s with
        toWorkState := applyEveryPushReviewSupersede leaseKeyOf s.toWorkState (leaseKeyOf slashId) eventId newId liveJobs
        awaiting := if s.slashActive slashId then pushed :: s.awaiting else s.awaiting }
    else none
  | .lease move => some { s with toLeaseState := move.apply leaseKeyOf s.toLeaseState }
  | .claim leaseEpoch => some (s.withWork (claimWorkForExecution leaseKeyOf s.toWorkState slashId leaseEpoch).2)
  | .begin run leaseEpoch =>
    match s.executions.get? run, s.items.get? slashId, s.bindHead slashId leaseEpoch with
    | none, some row, some (boundHeadSha, bound) =>
      some { bound with executions := s.executions.set run ⟨leaseEpoch, row.payload, boundHeadSha, .executing⟩ }
    | _, _, _ => none
  | .check run =>
    match s.executions.get? run with
    | some execution => if execution.phase = .executing then some (s.setPhase run execution (s.checkHead execution)) else none
    | none => none
  | .follow run newId =>
    match s.executions.get? run with
    | some execution =>
      match execution.phase, execution.leaseEpoch with
      | .headMoved, some leaseEpoch =>
        if s.freshId leaseKeyOf slashId newId then some (followStep slashId s run execution leaseEpoch newId) else none
      | _, _ => none
    | none => none
  | .complete run =>
    match s.executions.get? run with
    | some execution => (completeStep leaseKeyOf slashId s execution).map s.withWork
    | none => none
  | .retry id error leaseEpoch => some (s.withWork (markWorkRetrying leaseKeyOf s.toWorkState id error leaseEpoch).2)
  | .fail id error leaseEpoch => some (s.withWork (markWorkFailed leaseKeyOf s.toWorkState id error leaseEpoch).2)
  | .startAuto id leaseEpoch =>
    if id = slashId then none
    else ((s.withWork (claimWorkForExecution leaseKeyOf s.toWorkState id leaseEpoch).2).bindHead id leaseEpoch).map Prod.snd
  | .abandonAuto id error leaseEpoch =>
    let claimed := (claimWorkForExecution leaseKeyOf s.toWorkState id leaseEpoch).2
    let failed := markWorkFailed leaseKeyOf claimed id error leaseEpoch
    if id = slashId ∨ failed.1 = false then none else some (s.withWork failed.2)
  | .completeAuto id leaseEpoch =>
    if id = slashId then none else some (s.withWork (markWorkCompleted leaseKeyOf s.toWorkState id leaseEpoch).2)

end Steps

end PrAgent

namespace PrAgent

-- The head is that of the push, or of a later one.
abbrev NewerHead (pushes : List Nat) (pushed headSha : Nat) : Prop := headSha ∈ pushes.drop pushed

def HeadFits (pushes : List Nat) (pushed : Nat) : HeadSha → Prop
  | .deferred => True
  | .sha value => NewerHead pushes pushed value

instance (pushes : List Nat) (pushed : Nat) : DecidablePred (HeadFits pushes pushed) := fun head => by
  cases head <;> unfold HeadFits <;> infer_instance

-- A review that stands for the push: its head or one bound for it is as new, or it still binds the live one.
structure WorkItem.Covers (pushes : List Nat) (bindings : List HeadBinding) (id : WorkItemId) (row : WorkItem)
    (pushed : Nat) : Prop where
  standing : row.status ≠ .superseded ∧ row.status ≠ .cancelled
  head : (∃ value, row.headSha = .sha value ∧ NewerHead pushes pushed value) ∨
    (∃ value, ⟨id, value⟩ ∈ bindings ∧ NewerHead pushes pushed value) ∨
    row.headSha = .deferred ∧ (row.status = .queued ∨ row.status = .failed)

-- A queued, running or finished review of the pull request that stands for the push.
def PushRun.Covered (leaseKeyOf : WorkItemId → LeaseKey) (slashId : WorkItemId) (s : PushRun) (pushed : Nat) : Prop :=
  ∃ id row, s.items.get? id = some row ∧ row.reviewLens = some .review ∧ leaseKeyOf id = leaseKeyOf slashId ∧
    row.Covers s.pushes s.bindings id pushed

def PushRun.CoveredByOther (slashId : WorkItemId) (s : PushRun) (pushed : Nat) : Prop :=
  ∃ id row, id ≠ slashId ∧ s.items.get? id = some row ∧ row.Covers s.pushes s.bindings id pushed

-- The slash review is the only one of its kind on the pull request; its row is written by its executions.
structure PushRun.Sound (leaseKeyOf : WorkItemId → LeaseKey) (slashId : WorkItemId) (s : PushRun) : Prop where
  slash : ∃ row, s.items.get? slashId = some row ∧ row.source = .slash ∧ row.reviewLens = some .review
  alone : ∀ id row, s.items.get? id = some row → id ≠ slashId →
    row.source = .auto ∧ row.reviewLens = some .review ∧ leaseKeyOf id = leaseKeyOf slashId
  pushed : ∀ i ∈ s.awaiting, i < s.pushes.length
  stamped : ∀ row, s.items.get? slashId = some row → ∀ i ∈ s.awaiting,
    HeadFits s.pushes i row.headSha ∨ row.payload.pushFollowUp.isSome = true
  recorded : ∀ id row value, s.items.get? id = some row → id ≠ slashId → row.headSha = .sha value →
    ⟨id, value⟩ ∈ s.bindings
  followed : ∀ row id, s.items.get? slashId = some row → row.followUpReplacementId = some id →
    id ≠ slashId ∧ leaseKeyOf id = leaseKeyOf slashId ∧ ∀ i ∈ s.awaiting, s.CoveredByOther slashId i
  bound : ∀ run execution row, s.executions.get? run = some execution → s.items.get? slashId = some row →
    row.headSha = .sha execution.boundHeadSha
  checked : ∀ run execution pushes, s.executions.get? run = some execution →
    execution.phase = .completed (some pushes) → ∀ i, i < pushes → NewerHead s.pushes i execution.boundHeadSha
  rescheduled : ∀ run execution row id, s.executions.get? run = some execution →
    execution.phase = .rescheduled id → s.items.get? slashId = some row → row.followUpReplacementId.isSome = true
  completed : ∀ row, s.items.get? slashId = some row → row.status = .completed →
    ∀ i ∈ s.awaiting, s.Covered leaseKeyOf slashId i

section Heads

variable {pushes : List Nat} {i v : Nat}

theorem newer_head_push (newer : NewerHead pushes i v) (headSha : Nat) : NewerHead (pushes ++ [headSha]) i v := by
  rw [NewerHead, List.drop_append]
  exact List.mem_append_left _ newer

theorem newer_head_live (inside : i < pushes.length) (live : pushes.getLast? = some v) : NewerHead pushes i v := by
  have last : (pushes.drop i).getLast? = some v := by
    rw [List.getLast?_drop, if_neg (by omega), live]
  exact List.mem_of_getLast? last

theorem head_fits_push {head : HeadSha} (fits : HeadFits pushes i head) (headSha : Nat) :
    HeadFits (pushes ++ [headSha]) i head := by
  cases head with
  | deferred => trivial
  | sha value => exact newer_head_push fits headSha

theorem covers_push {bindings : List HeadBinding} {id : WorkItemId} {row : WorkItem}
    (covers : row.Covers pushes bindings id i) (headSha : Nat) : row.Covers (pushes ++ [headSha]) bindings id i := by
  refine ⟨covers.standing, ?_⟩
  rcases covers.head with ⟨value, head, newer⟩ | ⟨value, bound, newer⟩ | waiting
  · exact .inl ⟨value, head, newer_head_push newer headSha⟩
  · exact .inr (.inl ⟨value, bound, newer_head_push newer headSha⟩)
  · exact .inr (.inr waiting)

-- What a statement may do to the row of a review that it neither supersedes nor binds to a head.
structure RowKept (slashId id : WorkItemId) (old new : WorkItem) : Prop where
  source : new.source = old.source
  reviewLens : new.reviewLens = old.reviewLens
  headSha : new.headSha = old.headSha
  payload : new.payload = old.payload
  status : new.status = old.status ∨ (old.status = .queued ∨ old.status = .running) ∧
    (new.status = .queued ∨ new.status = .failed ∨ id = slashId ∧ new.status = .running ∨
      id ≠ slashId ∧ old.status = .running ∧ new.status = .completed)

theorem row_kept_refl (slashId id : WorkItemId) (row : WorkItem) : RowKept slashId id row row :=
  ⟨rfl, rfl, rfl, rfl, .inl rfl⟩

theorem row_kept_standing {slashId id : WorkItemId} {old new : WorkItem} (kept : RowKept slashId id old new)
    (standing : old.status ≠ .superseded ∧ old.status ≠ .cancelled) :
    new.status ≠ .superseded ∧ new.status ≠ .cancelled := by
  rcases kept.status with same | ⟨_, queued | failed | ⟨_, running⟩ | ⟨_, _, completed⟩⟩
  · rw [same]
    exact standing
  · simp [queued]
  · simp [failed]
  · simp [running]
  · simp [completed]

theorem row_kept_covers {slashId id : WorkItemId} {old new : WorkItem} {bindings : List HeadBinding}
    (kept : RowKept slashId id old new) (other : id ≠ slashId) (covers : old.Covers pushes bindings id i) :
    new.Covers pushes bindings id i := by
  refine ⟨row_kept_standing kept covers.standing, ?_⟩
  rcases covers.head with ⟨value, head, newer⟩ | bound | ⟨deferred, waiting⟩
  · exact .inl ⟨value, by rw [kept.headSha, head], newer⟩
  · exact .inr (.inl bound)
  · refine .inr (.inr ⟨by rw [kept.headSha, deferred], ?_⟩)
    rcases kept.status with same | ⟨_, queued | failed | ⟨here, _⟩ | ⟨_, running, _⟩⟩
    · rw [same]
      exact waiting
    · exact .inl queued
    · exact .inr failed
    · exact absurd here other
    · rw [running] at waiting
      simp at waiting

end Heads

-- Two states whose tables hold the same reviews, each row kept.
def RowsKept (slashId : WorkItemId) (s t : WorkState) : Prop :=
  (∀ id row, s.items.get? id = some row → ∃ new, t.items.get? id = some new ∧ RowKept slashId id row new) ∧
  ∀ id new, t.items.get? id = some new → ∃ row, s.items.get? id = some row ∧ RowKept slashId id row new

section Statements

variable {leaseKeyOf : WorkItemId → LeaseKey} {slashId : WorkItemId}

theorem rows_kept_of_items {s t : WorkState} (same : t.items = s.items) : RowsKept slashId s t := by
  refine ⟨fun id row stored => ⟨row, ?_, row_kept_refl slashId id row⟩,
    fun id row stored => ⟨row, ?_, row_kept_refl slashId id row⟩⟩
  · rw [same]
    exact stored
  · rw [← same]
    exact stored

theorem rows_kept_map {s t : WorkState} {f : WorkItemId → WorkItem → WorkItem}
    (items : ∀ id, t.items.get? id = (s.items.get? id).map (f id))
    (kept : ∀ id row, s.items.get? id = some row → RowKept slashId id row (f id row)) : RowsKept slashId s t := by
  constructor
  · intro id row stored
    exact ⟨f id row, by rw [items, stored]; rfl, kept id row stored⟩
  · intro id new storedNew
    rw [items] at storedNew
    cases stored : s.items.get? id with
    | none =>
        rw [stored] at storedNew
        cases storedNew
    | some row =>
        rw [stored] at storedNew
        obtain rfl := Option.some.inj storedNew
        exact ⟨row, rfl, kept id row stored⟩

@[simp] theorem merge_nothing (payload : WorkPayload) : payload.merge {} = payload := by
  simp [WorkPayload.merge]

theorem transition_rows_kept (s : WorkState) {spec : TransitionSpec} (patch : spec.payloadPatch = {})
    (status : ∀ id row, spec.selects leaseKeyOf s id row = true → RowKept slashId id row { row with status := spec.toStatus }) :
    RowsKept slashId s (transition leaseKeyOf s spec).2 := by
  refine rows_kept_map (transition_items leaseKeyOf s spec) ?_
  intro id row _
  by_cases selected : spec.selects leaseKeyOf s id row = true
  · rw [if_pos selected]
    exact ⟨rfl, rfl, rfl, by simp [TransitionSpec.assign, patch], (status id row selected).status⟩
  · rw [if_neg selected]
    exact row_kept_refl slashId id row

theorem selected_id {s : WorkState} {spec : TransitionSpec} {id other : WorkItemId} {row : WorkItem}
    (selector : spec.selector.id = some other) (selected : spec.selects leaseKeyOf s id row = true) : id = other := by
  simp only [TransitionSpec.selects, TransitionSelector.selects, selector, Option.all_some, Bool.and_eq_true,
    decide_eq_true_eq] at selected
  exact selected.1.1.1.1.1.1.1.1.symm

theorem claim_rows_kept (s : WorkState) (leaseEpoch : Option Nat) :
    RowsKept slashId s (claimWorkForExecution leaseKeyOf s slashId leaseEpoch).2 := by
  have kept : RowsKept slashId s (transition leaseKeyOf s (claimSpec slashId leaseEpoch)).2 := by
    refine transition_rows_kept s rfl fun id row selected => ⟨rfl, rfl, rfl, rfl, .inr ⟨?_, ?_⟩⟩
    · simpa [claimSpec] using selected_status selected
    · exact .inr (.inr (.inl ⟨selected_id rfl selected, rfl⟩))
  simp only [claimWorkForExecution]
  cases (transition leaseKeyOf s (claimSpec slashId leaseEpoch)).1 with
  | nil => exact kept
  | cons head rest => exact kept

theorem retry_rows_kept (s : WorkState) (id : WorkItemId) (error : String) (leaseEpoch : Option Nat) :
    RowsKept slashId s (markWorkRetrying leaseKeyOf s id error leaseEpoch).2 :=
  transition_rows_kept s rfl fun _ _ selected =>
    ⟨rfl, rfl, rfl, rfl, .inr ⟨.inr (by simpa [retryingSpec] using selected_status selected), .inl rfl⟩⟩

theorem fail_rows_kept (s : WorkState) (id : WorkItemId) (error : String) (leaseEpoch : Option Nat) :
    RowsKept slashId s (markWorkFailed leaseKeyOf s id error leaseEpoch).2 :=
  transition_rows_kept s rfl fun _ _ selected =>
    ⟨rfl, rfl, rfl, rfl, .inr ⟨.inr (by simpa [failedSpec] using selected_status selected), .inr (.inl rfl)⟩⟩

theorem complete_auto_rows_kept (s : WorkState) {id : WorkItemId} (other : id ≠ slashId) (leaseEpoch : Option Nat) :
    RowsKept slashId s (markWorkCompleted leaseKeyOf s id leaseEpoch).2 := by
  refine transition_rows_kept s rfl fun here row selected => ⟨rfl, rfl, rfl, rfl, .inr ⟨?_, ?_⟩⟩
  · exact .inr (by simpa [completedSpec] using selected_status selected)
  · obtain rfl := selected_id rfl selected
    exact .inr (.inr (.inr ⟨other, by simpa [completedSpec] using selected_status selected, rfl⟩))

end Statements

section Frames

variable {leaseKeyOf : WorkItemId → LeaseKey} {slashId : WorkItemId} {s : PushRun} {work : WorkState}

theorem covered_other_kept (kept : RowsKept slashId s.toWorkState work) {i : Nat}
    (covered : s.CoveredByOther slashId i) : (s.withWork work).CoveredByOther slashId i := by
  obtain ⟨id, row, other, stored, covers⟩ := covered
  obtain ⟨new, storedNew, keptRow⟩ := kept.1 id row stored
  exact ⟨id, new, other, storedNew, row_kept_covers keptRow other covers⟩

-- The row of a completed review does not change any more.
theorem covered_kept (kept : RowsKept slashId s.toWorkState work) {i : Nat} {slash : WorkItem}
    (stored : s.items.get? slashId = some slash) (completed : slash.status = .completed)
    (covered : s.Covered leaseKeyOf slashId i) : (s.withWork work).Covered leaseKeyOf slashId i := by
  obtain ⟨id, row, storedRow, lens, key, covers⟩ := covered
  obtain ⟨new, storedNew, keptRow⟩ := kept.1 id row storedRow
  refine ⟨id, new, storedNew, keptRow.reviewLens.trans lens, key, ?_⟩
  by_cases here : id = slashId
  · subst here
    obtain rfl := Option.some.inj (stored.symm.trans storedRow)
    have same : new.status = slash.status := by
      rcases keptRow.status with same | ⟨active, _⟩
      · exact same
      · simp [completed] at active
    refine ⟨by rw [same]; exact covers.standing, ?_⟩
    rcases covers.head with ⟨value, head, newer⟩ | bound | ⟨_, waiting⟩
    · exact .inl ⟨value, by rw [keptRow.headSha, head], newer⟩
    · exact .inr (.inl bound)
    · simp [completed] at waiting
  · exact row_kept_covers keptRow here covers

theorem replacement_kept {id : WorkItemId} {old new : WorkItem} (kept : RowKept slashId id old new) :
    new.followUpReplacementId = old.followUpReplacementId := by
  rw [WorkItem.followUpReplacementId, WorkItem.followUpReplacementId, kept.payload]

theorem sound_rows_kept (sound : s.Sound leaseKeyOf slashId) (kept : RowsKept slashId s.toWorkState work) :
    (s.withWork work).Sound leaseKeyOf slashId := by
  constructor
  · obtain ⟨row, stored, source, lens⟩ := sound.slash
    obtain ⟨new, storedNew, keptRow⟩ := kept.1 slashId row stored
    exact ⟨new, storedNew, keptRow.source.trans source, keptRow.reviewLens.trans lens⟩
  · intro id new storedNew other
    obtain ⟨row, stored, keptRow⟩ := kept.2 id new storedNew
    obtain ⟨source, lens, key⟩ := sound.alone id row stored other
    exact ⟨keptRow.source.trans source, keptRow.reviewLens.trans lens, key⟩
  · exact sound.pushed
  · intro new storedNew i waiting
    obtain ⟨row, stored, keptRow⟩ := kept.2 slashId new storedNew
    rw [keptRow.headSha, keptRow.payload]
    exact sound.stamped row stored i waiting
  · intro id new value storedNew other head
    obtain ⟨row, stored, keptRow⟩ := kept.2 id new storedNew
    exact sound.recorded id row value stored other (keptRow.headSha.symm.trans head)
  · intro new id storedNew replacement
    obtain ⟨row, stored, keptRow⟩ := kept.2 slashId new storedNew
    rw [replacement_kept keptRow] at replacement
    obtain ⟨other, key, covered⟩ := sound.followed row id stored replacement
    exact ⟨other, key, fun i waiting => covered_other_kept kept (covered i waiting)⟩
  · intro run execution new found storedNew
    obtain ⟨row, stored, keptRow⟩ := kept.2 slashId new storedNew
    rw [keptRow.headSha]
    exact sound.bound run execution row found stored
  · exact sound.checked
  · intro run execution new id found phase storedNew
    obtain ⟨row, stored, keptRow⟩ := kept.2 slashId new storedNew
    rw [replacement_kept keptRow]
    exact sound.rescheduled run execution row id found phase stored
  · intro new storedNew completed i waiting
    obtain ⟨row, stored, keptRow⟩ := kept.2 slashId new storedNew
    have before : row.status = .completed := by
      rcases keptRow.status with same | ⟨_, queued | failed | ⟨_, running⟩ | ⟨other, _⟩⟩
      · exact same ▸ completed
      · simp [queued] at completed
      · simp [failed] at completed
      · simp [running] at completed
      · exact absurd rfl other
    exact covered_kept kept stored before (sound.completed row stored before i waiting)

theorem sound_push (sound : s.Sound leaseKeyOf slashId) (headSha : Nat) :
    PushRun.Sound leaseKeyOf slashId { s with pushes := s.pushes ++ [headSha] } := by
  constructor
  · exact sound.slash
  · exact sound.alone
  · intro i waiting
    have before := sound.pushed i waiting
    simp only [List.length_append, List.length_singleton]
    omega
  · intro row stored i waiting
    rcases sound.stamped row stored i waiting with fits | stamped
    · exact .inl (head_fits_push fits headSha)
    · exact .inr stamped
  · exact sound.recorded
  · intro row id stored replacement
    obtain ⟨other, key, covered⟩ := sound.followed row id stored replacement
    refine ⟨other, key, fun i waiting => ?_⟩
    obtain ⟨id, row, other, stored, covers⟩ := covered i waiting
    exact ⟨id, row, other, stored, covers_push covers headSha⟩
  · exact sound.bound
  · intro run execution pushes found phase i before
    exact newer_head_push (sound.checked run execution pushes found phase i before) headSha
  · exact sound.rescheduled
  · intro row stored completed i waiting
    obtain ⟨id, row, stored, lens, key, covers⟩ := sound.completed row stored completed i waiting
    exact ⟨id, row, stored, lens, key, covers_push covers headSha⟩

end Frames

end PrAgent
