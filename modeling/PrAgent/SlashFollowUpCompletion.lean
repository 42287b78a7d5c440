import PrAgent.SlashFollowUpSteps
set_option autoImplicit false

namespace PrAgent

variable {leaseKeyOf : WorkItemId → LeaseKey} {slashId : WorkItemId} {s : PushRun}

section FollowUp

-- The row of the slash review once a replacement is stored on it.
structure RowFollowed (parent new : WorkItem) (replacementId : WorkItemId) : Prop where
  source : new.source = parent.source
  reviewLens : new.reviewLens = parent.reviewLens
  status : new.status = parent.status
  headSha : new.headSha = parent.headSha
  followUp : new.followUpReplacementId = some replacementId

-- The row of the replacement: a fresh one, or the earlier one with its head reset.
structure ChildRow (old : Option WorkItem) (parent child : WorkItem) : Prop where
  source : child.source = .auto
  reviewLens : child.reviewLens = parent.reviewLens ∨ ∃ row, old = some row ∧ child.reviewLens = row.reviewLens
  headSha : child.headSha = .deferred
  status : old = none ∧ child.status = .queued ∨ ∃ row, old = some row ∧ child.status = row.status

structure FollowUpMade (slashId newId : WorkItemId) (s work : WorkState) (childId : WorkItemId) (parent new child : WorkItem) :
    Prop where
  stored : s.items.get? slashId = some parent
  running : parent.status = .running
  replacement : parent.followUpReplacementId = some childId ∨ parent.followUpReplacementId = none ∧ childId = newId
  parentRow : RowFollowed parent new childId
  childRow : ChildRow (s.items.get? childId) parent child
  items : childId ≠ slashId → ∀ id, work.items.get? id =
    if id = slashId then some new else if id = childId then some child else s.items.get? id

-- `INSERT … ON CONFLICT (id) DO UPDATE`.
def NewWorkItem.upserted (new : NewWorkItem) (now : Nat) : Option WorkItem → WorkItem
  | none => new.row now
  | some old => { old with payload := new.payload, headSha := new.headSha, source := new.source, updatedAt := now }

theorem insert_items (s : WorkState) (id : WorkItemId) (new : NewWorkItem) (other : WorkItemId) :
    (insertAgentWorkItem s id new).items.get? other =
      if other = id then some (new.upserted s.now (s.items.get? id)) else s.items.get? other := by
  cases stored : s.items.get? id with
  | none => simp [insertAgentWorkItem, NewWorkItem.upserted, stored, Table.get?_set]
  | some old => simp [insertAgentWorkItem, NewWorkItem.upserted, stored, Table.get?_set]

@[simp] theorem insert_now (s : WorkState) (id : WorkItemId) (new : NewWorkItem) :
    (insertAgentWorkItem s id new).now = s.now := by
  simp only [insertAgentWorkItem]
  cases s.items.get? id with
  | none => rfl
  | some old => rfl

theorem follow_up_made {work : WorkState} {leaseEpoch : Nat} {newId childId : WorkItemId}
    (made : createPushFollowUpWorkItem s.toWorkState slashId leaseEpoch newId = some (childId, work)) :
    ∃ parent new child, FollowUpMade slashId newId s.toWorkState work childId parent new child := by
  simp only [createPushFollowUpWorkItem] at made
  split at made
  · cases stored : s.items.get? slashId with
    | none => simp [stored] at made
    | some parent =>
        simp only [stored] at made
        split at made
        · cases made
        · rename_i admitted
          cases stamp : parent.payload.pushFollowUp with
          | none => simp [stamp] at made
          | some followUp =>
              simp only [stamp, Option.some.injEq, Prod.mk.injEq] at made
              obtain ⟨rfl, rfl⟩ := made
              have running : parent.status = .running := by
                by_cases running : parent.status = .running
                · exact running
                · exact absurd (.inl running) admitted
              have marked : RowFollowed parent { parent with
                  payload := parent.payload.merge
                    { pushFollowUp := some ⟨followUp.webhookEventId, some (followUp.replacementWorkItemId.getD newId),
                        some .enqueued⟩ }
                  updatedAt := s.now } (followUp.replacementWorkItemId.getD newId) := ⟨rfl, rfl, rfl, rfl, rfl⟩
              refine ⟨parent, _, (followUpReview followUp parent).upserted s.now
                (s.items.get? (followUp.replacementWorkItemId.getD newId)), stored, running, ?_, marked, ?_, ?_⟩
              · cases earlier : followUp.replacementWorkItemId with
                | none => exact .inr ⟨by simp [WorkItem.followUpReplacementId, stamp, earlier], by simp⟩
                | some id => exact .inl (by simp [WorkItem.followUpReplacementId, stamp, earlier])
              · cases s.items.get? (followUp.replacementWorkItemId.getD newId) with
                | none => exact ⟨rfl, .inl rfl, rfl, .inl ⟨rfl, rfl⟩⟩
                | some old => exact ⟨rfl, .inr ⟨old, rfl, rfl⟩, rfl, .inr ⟨old, rfl, rfl⟩⟩
              · intro other id
                simp only [patchPayload, Table.get?_updateWhere, insert_items]
                by_cases here : id = slashId
                · subst here
                  rw [if_neg other.symm, stored, if_pos rfl]
                  simp
                · by_cases child : id = followUp.replacementWorkItemId.getD newId
                  · subst child
                    simp [here]
                  · simp [here, child]
  · cases made

section Made

variable {newId childId : WorkItemId} {work : WorkState} {parent new child : WorkItem}
  (made : FollowUpMade slashId newId s.toWorkState work childId parent new child)

include made

variable (sound : s.Sound leaseKeyOf slashId)
include sound

variable (fresh : s.freshId leaseKeyOf slashId newId = true)
include fresh

theorem child_key :
    childId ≠ slashId ∧ leaseKeyOf childId = leaseKeyOf slashId := by
  rcases made.replacement with followed | ⟨_, rfl⟩
  · obtain ⟨other, key, _⟩ := sound.followed parent childId made.stored followed
    exact ⟨other, key⟩
  · simp only [PushRun.freshId, Bool.and_eq_true, Option.isNone_iff_eq_none, decide_eq_true_eq] at fresh
    refine ⟨?_, fresh.2⟩
    rintro rfl
    rw [made.stored] at fresh
    exact absurd fresh.1 (by simp)

-- The replacement stands for every push that awaits it: a fresh one has no head yet, and an earlier one keeps the heads
-- that were bound for it.
theorem child_covers
    {i : Nat} (waiting : i ∈ s.awaiting) : (s.withWork work).CoveredByOther slashId i := by
  obtain ⟨other, _⟩ := child_key made sound fresh
  have items := made.items other
  rcases made.replacement with followed | ⟨_, rfl⟩
  · obtain ⟨_, _, covered⟩ := sound.followed parent childId made.stored followed
    obtain ⟨id, row, differs, stored, covers⟩ := covered i waiting
    by_cases here : id = childId
    · subst here
      refine ⟨id, child, differs, by simp [PushRun.withWork, items, differs], ?_⟩
      have status : child.status = row.status := by
        rcases made.childRow.status with ⟨absent, _⟩ | ⟨old, storedOld, same⟩
        · rw [stored] at absent
          cases absent
        · obtain rfl := Option.some.inj (stored.symm.trans storedOld)
          exact same
      refine ⟨by rw [status]; exact covers.standing, ?_⟩
      rcases covers.head with ⟨value, head, newer⟩ | bound | ⟨_, waits⟩
      · exact .inr (.inl ⟨value, sound.recorded id row value stored differs head, newer⟩)
      · exact .inr (.inl bound)
      · exact .inr (.inr ⟨made.childRow.headSha, by rw [status]; exact waits⟩)
    · exact ⟨id, row, differs, by simp [PushRun.withWork, items, differs, here, stored], covers⟩
  · have absent : s.items.get? childId = none := by
      simp only [PushRun.freshId, Bool.and_eq_true, Option.isNone_iff_eq_none] at fresh
      exact fresh.1
    have queued : child.status = .queued := by
      rcases made.childRow.status with ⟨_, queued⟩ | ⟨old, storedOld, _⟩
      · exact queued
      · rw [absent] at storedOld
        cases storedOld
    refine ⟨childId, child, other, by simp [PushRun.withWork, items, other], by simp [queued], ?_⟩
    exact .inr (.inr ⟨made.childRow.headSha, .inl queued⟩)

theorem followed_row
    {row : WorkItem} (stored : (s.withWork work).items.get? slashId = some row) : row = new := by
  have found : work.items.get? slashId = some row := stored
  rw [made.items (child_key made sound fresh).1, if_pos rfl] at found
  exact (Option.some.inj found).symm

theorem sound_followed :
    (s.withWork work).Sound leaseKeyOf slashId := by
  obtain ⟨other, key⟩ := child_key made sound fresh
  have items := made.items other
  obtain ⟨slash, storedSlash, source, lens⟩ := sound.slash
  obtain rfl := Option.some.inj (made.stored.symm.trans storedSlash)
  constructor
  · refine ⟨new, by simp [PushRun.withWork, items], made.parentRow.source.trans source,
      made.parentRow.reviewLens.trans lens⟩
  · intro id row stored differs
    have found : work.items.get? id = some row := stored
    rw [items, if_neg differs] at found
    by_cases here : id = childId
    · rw [if_pos here] at found
      obtain rfl := Option.some.inj found
      refine ⟨made.childRow.source, ?_, by rw [here, key]⟩
      rcases made.childRow.reviewLens with same | ⟨old, storedOld, same⟩
      · exact same.trans lens
      · exact same.trans (sound.alone childId old storedOld other).2.1
    · rw [if_neg here] at found
      exact sound.alone id row found differs
  · exact sound.pushed
  · intro row stored i waiting
    obtain rfl := followed_row made sound fresh stored
    right
    have followUp := made.parentRow.followUp
    rw [WorkItem.followUpReplacementId] at followUp
    cases stamp : row.payload.pushFollowUp with
    | none => simp [stamp] at followUp
    | some _ => rfl
  · intro id row value stored differs head
    have found : work.items.get? id = some row := stored
    rw [items, if_neg differs] at found
    by_cases here : id = childId
    · rw [if_pos here] at found
      obtain rfl := Option.some.inj found
      rw [made.childRow.headSha] at head
      cases head
    · rw [if_neg here] at found
      exact sound.recorded id row value found differs head
  · intro row id stored replacement
    obtain rfl := followed_row made sound fresh stored
    rw [made.parentRow.followUp] at replacement
    obtain rfl := Option.some.inj replacement
    exact ⟨other, key, fun i waiting => child_covers made sound fresh waiting⟩
  · intro run execution row found stored
    obtain rfl := followed_row made sound fresh stored
    exact made.parentRow.headSha.trans (sound.bound run execution parent found made.stored)
  · exact sound.checked
  · intro run execution row id found phase stored
    obtain rfl := followed_row made sound fresh stored
    simp [made.parentRow.followUp]
  · intro row stored completed
    obtain rfl := followed_row made sound fresh stored
    rw [made.parentRow.status, made.running] at completed
    cases completed

end Made

theorem follow_sound (sound : s.Sound leaseKeyOf slashId) {run newId : Nat} {t : PushRun}
    (moved : pushStep leaseKeyOf slashId s (.follow run newId) = some t) : t.Sound leaseKeyOf slashId := by
  simp only [pushStep] at moved
  cases found : s.executions.get? run with
  | none => simp [found] at moved
  | some execution =>
      simp only [found] at moved
      split at moved
      · rename_i leaseEpoch headMoved leased
        split at moved
        · rename_i fresh
          obtain rfl := Option.some.inj moved
          simp only [followStep]
          cases created : createPushFollowUpWorkItem s.toWorkState slashId leaseEpoch newId with
          | none =>
              refine sound_execution sound ⟨fun row => sound.bound run execution row found, ?_, ?_⟩
              · intro pushes phase
                cases phase
              · intro row id phase
                cases phase
          | some result =>
              obtain ⟨childId, work⟩ := result
              obtain ⟨parent, new, child, made⟩ := follow_up_made created
              have followed := sound_followed made sound fresh
              refine sound_execution followed ⟨?_, ?_, ?_⟩
              · exact fun row stored => followed.bound run execution row found stored
              · intro pushes phase
                cases phase
              · intro row id phase stored
                obtain rfl := followed_row made sound fresh stored
                simp [made.parentRow.followUp]
        · cases moved
      · cases moved

end FollowUp

section Completion

structure RowCompleted (row new : WorkItem) : Prop where
  source : new.source = row.source
  reviewLens : new.reviewLens = row.reviewLens
  headSha : new.headSha = row.headSha
  payload : new.payload = row.payload
  status : new.status = row.status ∨ new.status = .completed

-- The slash review may have been completed; every other row is as before.
structure SlashCompleted (slashId : WorkItemId) (s t : WorkState) : Prop where
  others : ∀ id, id ≠ slashId → t.items.get? id = s.items.get? id
  slash : ∀ row, s.items.get? slashId = some row → ∃ new, t.items.get? slashId = some new ∧ RowCompleted row new

theorem slash_completed_trans {s t u : WorkState} (first : SlashCompleted slashId s t) (second : SlashCompleted slashId t u) :
    SlashCompleted slashId s u := by
  constructor
  · intro id other
    rw [second.others id other, first.others id other]
  · intro row stored
    obtain ⟨mid, storedMid, before⟩ := first.slash row stored
    obtain ⟨new, storedNew, after⟩ := second.slash mid storedMid
    refine ⟨new, storedNew, after.source.trans before.source, after.reviewLens.trans before.reviewLens,
      after.headSha.trans before.headSha, after.payload.trans before.payload, ?_⟩
    cases after.status with
    | inl same => exact same ▸ before.status
    | inr completed => exact .inr completed

theorem transition_completed (s : WorkState) {spec : TransitionSpec} (selector : spec.selector.id = some slashId)
    (target : spec.toStatus = .completed) (patch : spec.payloadPatch = {}) :
    SlashCompleted slashId s (transition leaseKeyOf s spec).2 := by
  constructor
  · intro id other
    rw [transition_items]
    cases s.items.get? id with
    | none => rfl
    | some row =>
        rw [Option.map_some, if_neg]
        intro selected
        exact other (selected_id selector selected)
  · intro row stored
    refine ⟨_, by rw [transition_items, stored]; rfl, ?_⟩
    dsimp only
    by_cases selected : spec.selects leaseKeyOf s slashId row = true
    · rw [if_pos selected]
      exact ⟨rfl, rfl, rfl, by simp [TransitionSpec.assign, patch], .inr target⟩
    · rw [if_neg selected]
      exact ⟨rfl, rfl, rfl, rfl, .inl rfl⟩

theorem mark_completed (leaseKeyOf : WorkItemId → LeaseKey) (slashId : WorkItemId) (s : WorkState) (leaseEpoch : Option Nat) :
    SlashCompleted slashId s (markWorkCompleted leaseKeyOf s slashId leaseEpoch).2 :=
  transition_completed s rfl rfl rfl

theorem finish_completed (s : WorkState) (leaseEpoch : Nat) :
    SlashCompleted slashId s (finishRescheduledParentWorkItem leaseKeyOf s slashId leaseEpoch) := by
  have marked := mark_completed leaseKeyOf slashId s (some leaseEpoch)
  simp only [finishRescheduledParentWorkItem]
  split
  · exact marked
  · split
    · exact marked
    · exact slash_completed_trans marked (transition_completed _ rfl rfl rfl)

variable {work : WorkState}

theorem sound_completed (sound : s.Sound leaseKeyOf slashId) (rows : SlashCompleted slashId s.toWorkState work)
    (covered : ∀ row, s.items.get? slashId = some row → ∀ i ∈ s.awaiting,
      (∃ value, row.headSha = .sha value ∧ NewerHead s.pushes i value) ∨ s.CoveredByOther slashId i) :
    (s.withWork work).Sound leaseKeyOf slashId := by
  obtain ⟨slash, storedSlash, source, lens⟩ := sound.slash
  obtain ⟨new, storedNew, completedRow⟩ := rows.slash slash storedSlash
  have slashRow : ∀ row, (s.withWork work).items.get? slashId = some row → row = new :=
    fun row stored => Option.some.inj (stored.symm.trans storedNew)
  have otherCovered : ∀ i, s.CoveredByOther slashId i → (s.withWork work).CoveredByOther slashId i := by
    rintro i ⟨id, row, other, stored, covers⟩
    exact ⟨id, row, other, (rows.others id other).trans stored, covers⟩
  have replacementSame : new.followUpReplacementId = slash.followUpReplacementId := by
    rw [WorkItem.followUpReplacementId, completedRow.payload, WorkItem.followUpReplacementId]
  have alone : ∀ id row, (s.withWork work).items.get? id = some row → id ≠ slashId →
      row.source = .auto ∧ row.reviewLens = some .review ∧ leaseKeyOf id = leaseKeyOf slashId :=
    fun id row stored other => sound.alone id row ((rows.others id other).symm.trans stored) other
  constructor
  · exact ⟨new, storedNew, completedRow.source.trans source, completedRow.reviewLens.trans lens⟩
  · exact alone
  · exact sound.pushed
  · intro row stored i waiting
    rw [slashRow row stored, completedRow.headSha, completedRow.payload]
    exact sound.stamped slash storedSlash i waiting
  · intro id row value stored other head
    exact sound.recorded id row value ((rows.others id other).symm.trans stored) other head
  · intro row id stored replacement
    rw [slashRow row stored, replacementSame] at replacement
    obtain ⟨other, key, covers⟩ := sound.followed slash id storedSlash replacement
    exact ⟨other, key, fun i waiting => otherCovered i (covers i waiting)⟩
  · intro run execution row found stored
    rw [slashRow row stored, completedRow.headSha]
    exact sound.bound run execution slash found storedSlash
  · exact sound.checked
  · intro run execution row id found phase stored
    rw [slashRow row stored, replacementSame]
    exact sound.rescheduled run execution slash id found phase storedSlash
  · intro row stored completed i waiting
    rcases covered slash storedSlash i waiting with ⟨value, head, newer⟩ | byOther
    · obtain rfl := slashRow row stored
      exact ⟨slashId, row, storedNew, completedRow.reviewLens.trans lens, rfl, by simp [completed],
        .inl ⟨value, completedRow.headSha.trans head, newer⟩⟩
    · obtain ⟨id, other, differs, storedOther, covers⟩ := otherCovered i byOther
      exact ⟨id, other, storedOther, (alone id other storedOther differs).2.1, (alone id other storedOther differs).2.2,
        covers⟩

-- A completion that the head check decided stands for the pushes made before it.
def CompletionPhase.StandsFor (awaiting : List Nat) : CompletionPhase → Prop
  | .completed (some pushes) => ∀ i ∈ awaiting, i < pushes
  | .completed none => False
  | .executing | .headMoved | .rescheduled _ => True

instance (awaiting : List Nat) : DecidablePred (CompletionPhase.StandsFor awaiting) := fun phase => by
  cases phase with
  | completed atHead => cases atHead <;> unfold CompletionPhase.StandsFor <;> infer_instance
  | executing => exact .isTrue trivial
  | headMoved => exact .isTrue trivial
  | rescheduled _ => exact .isTrue trivial

-- The row carries no stamp, or every push left to the review had been made when the head check found the bound head.
def CompletionAllowed (slashId : WorkItemId) (s : PushRun) (run : Nat) : Prop :=
  ∀ execution ∈ s.executions.get? run, ∀ row ∈ s.items.get? slashId, row.payload.pushFollowUp ≠ none →
    execution.phase.StandsFor s.awaiting

theorem complete_sound (sound : s.Sound leaseKeyOf slashId) {run : Nat} (allowed : CompletionAllowed slashId s run)
    {t : PushRun} (moved : pushStep leaseKeyOf slashId s (.complete run) = some t) : t.Sound leaseKeyOf slashId := by
  simp only [pushStep] at moved
  cases found : s.executions.get? run with
  | none => simp [found] at moved
  | some execution =>
      simp only [found, Option.map_eq_some_iff] at moved
      obtain ⟨work, completes, rfl⟩ := moved
      simp only [completeStep] at completes
      split at completes
      · rename_i atHead phase
        obtain rfl := Option.some.inj completes
        refine sound_completed sound (mark_completed leaseKeyOf slashId s.toWorkState execution.leaseEpoch) ?_
        intro row stored i waiting
        have head := sound.bound run execution row found stored
        left
        refine ⟨execution.boundHeadSha, head, ?_⟩
        rcases sound.stamped row stored i waiting with fits | stamped
        · rw [head] at fits
          exact fits
        · have condition := allowed execution (by rw [found]; rfl) row (by rw [stored]; rfl)
            (by intro unstamped; simp [unstamped] at stamped)
          rw [phase] at condition
          cases atHead with
          | none => exact condition.elim
          | some pushes => exact sound.checked run execution pushes found phase i (condition i waiting)
      · rename_i replacementId leaseEpoch phase leased
        obtain rfl := Option.some.inj completes
        refine sound_completed sound (finish_completed s.toWorkState leaseEpoch) ?_
        intro row stored i waiting
        right
        have followed := sound.rescheduled run execution row replacementId found phase stored
        obtain ⟨childId, replacement⟩ := Option.isSome_iff_exists.mp followed
        exact (sound.followed row childId stored replacement).2.2 i waiting
      · cases completes

end Completion

end PrAgent
