import PrAgent.SlashFollowUpCompletion
set_option autoImplicit false

namespace PrAgent

variable {leaseKeyOf : WorkItemId → LeaseKey} {slashId : WorkItemId}

-- A row under the statements of a delivery: an automatic review may be superseded.
structure RowDelivered (row new : WorkItem) : Prop where
  source : new.source = row.source
  reviewLens : new.reviewLens = row.reviewLens
  headSha : new.headSha = row.headSha
  status : new.status = row.status ∨ row.source = .auto ∧ new.status = .superseded
  payload : new.payload = row.payload

theorem row_delivered_refl (row : WorkItem) : RowDelivered row row := ⟨rfl, rfl, rfl, .inl rfl, rfl⟩

theorem row_delivered_trans {row mid new : WorkItem} (first : RowDelivered row mid) (second : RowDelivered mid new) :
    RowDelivered row new := by
  refine ⟨second.source.trans first.source, second.reviewLens.trans first.reviewLens,
    second.headSha.trans first.headSha, ?_, second.payload.trans first.payload⟩
  rcases second.status with same | ⟨auto, superseded⟩
  · rw [same]
    exact first.status
  · exact .inr ⟨first.source ▸ auto, superseded⟩

-- The rows of a delivery that inserts no review.
structure Superseding (s t : WorkState) : Prop where
  rows : ∀ id row, s.items.get? id = some row → ∃ new, t.items.get? id = some new ∧ RowDelivered row new
  old : ∀ id new, t.items.get? id = some new → ∃ row, s.items.get? id = some row ∧ RowDelivered row new

theorem superseding_of_map {s t : WorkState} {f : WorkItemId → WorkItem → WorkItem}
    (items : ∀ id, t.items.get? id = (s.items.get? id).map (f id)) (delivered : ∀ id row, RowDelivered row (f id row)) :
    Superseding s t := by
  constructor
  · intro id row stored
    exact ⟨f id row, by rw [items, stored]; rfl, delivered id row⟩
  · intro id new storedNew
    rw [items, Option.map_eq_some_iff] at storedNew
    obtain ⟨row, stored, rfl⟩ := storedNew
    exact ⟨row, stored, delivered id row⟩

theorem superseding_trans {s t u : WorkState} (first : Superseding s t) (second : Superseding t u) : Superseding s u := by
  constructor
  · intro id row stored
    obtain ⟨mid, storedMid, before⟩ := first.rows id row stored
    obtain ⟨new, storedNew, after⟩ := second.rows id mid storedMid
    exact ⟨new, storedNew, row_delivered_trans before after⟩
  · intro id new storedNew
    obtain ⟨mid, storedMid, after⟩ := second.old id new storedNew
    obtain ⟨row, stored, before⟩ := first.old id mid storedMid
    exact ⟨row, stored, row_delivered_trans before after⟩

section Supersede

theorem supersede_selected_auto {s : WorkState} {key : LeaseKey} {preserved : List WorkItemId} {running : Bool}
    {id : WorkItemId} {row : WorkItem} (selected : (supersedeSpec key preserved running).selects leaseKeyOf s id row = true) :
    row.source = .auto := by
  have source : (supersedeSelector key).source = some .auto := by
    unfold supersedeSelector
    split <;> rfl
  simp only [TransitionSpec.selects, TransitionSelector.selects, supersedeSpec, source, Option.all_some,
    Bool.and_eq_true, decide_eq_true_eq] at selected
  exact selected.1.1.1.1.2.symm

theorem transition_superseding (leaseKeyOf : WorkItemId → LeaseKey) (s : WorkState) (key : LeaseKey) (preserved : List WorkItemId) (running : Bool) :
    Superseding s (transition leaseKeyOf s (supersedeSpec key preserved running)).2 := by
  refine superseding_of_map (transition_items leaseKeyOf s _) fun id row => ?_
  by_cases selected : (supersedeSpec key preserved running).selects leaseKeyOf s id row = true
  · rw [if_pos selected]
    exact ⟨rfl, rfl, rfl, .inr ⟨supersede_selected_auto selected, rfl⟩, by simp [TransitionSpec.assign, supersedeSpec]⟩
  · rw [if_neg selected]
    exact row_delivered_refl row

theorem supersede_superseding (leaseKeyOf : WorkItemId → LeaseKey) (s : WorkState) (key : LeaseKey) (preserved : List WorkItemId) :
    Superseding s (supersedeActiveAutoWork leaseKeyOf s key preserved).2 := by
  have queued := transition_superseding leaseKeyOf s key preserved false
  have running := transition_superseding leaseKeyOf
    (transition leaseKeyOf s (supersedeSpec key preserved false)).2 key [] true
  have both := superseding_trans queued running
  exact ⟨both.rows, both.old⟩

end Supersede

section Insert

-- The review a delivery inserts.
structure FreshReview (row : WorkItem) : Prop where
  source : row.source = .auto
  reviewLens : row.reviewLens = some .review
  headSha : row.headSha = .deferred
  status : row.status = .queued

structure Inserting (newId : WorkItemId) (s t : WorkState) : Prop where
  rows : ∀ id row, s.items.get? id = some row → ∃ new, t.items.get? id = some new ∧ RowDelivered row new
  old : ∀ id new, t.items.get? id = some new →
    (∃ row, s.items.get? id = some row ∧ RowDelivered row new) ∨ id = newId ∧ FreshReview new
  fresh : ∃ new, t.items.get? newId = some new ∧ FreshReview new

variable {newId : WorkItemId}

theorem inserting_of_superseding {s t u : WorkState} (first : Superseding s t) (second : Inserting newId t u) : Inserting newId s u := by
  refine ⟨?_, ?_, second.fresh⟩
  · intro id row stored
    obtain ⟨mid, storedMid, before⟩ := first.rows id row stored
    obtain ⟨new, storedNew, after⟩ := second.rows id mid storedMid
    exact ⟨new, storedNew, row_delivered_trans before after⟩
  · intro id new storedNew
    rcases second.old id new storedNew with ⟨mid, storedMid, after⟩ | inserted
    · obtain ⟨row, stored, before⟩ := first.old id mid storedMid
      exact .inl ⟨row, stored, row_delivered_trans before after⟩
    · exact .inr inserted

theorem superseding_absent {s t : WorkState} (superseding : Superseding s t) {id : WorkItemId}
    (absent : s.items.get? id = none) : t.items.get? id = none := by
  cases stored : t.items.get? id with
  | none => rfl
  | some new =>
      obtain ⟨row, storedRow, _⟩ := superseding.old id new stored
      rw [absent] at storedRow
      cases storedRow

theorem insert_inserting {s : WorkState} (absent : s.items.get? newId = none)
    (eventId : WebhookEventId) : Inserting newId s (insertAgentWorkItem s newId (everyPushReview eventId)) := by
  have items := insert_items s newId (everyPushReview eventId)
  have fresh : FreshReview ((everyPushReview eventId).upserted s.now (s.items.get? newId)) := by
    rw [absent]
    exact ⟨rfl, rfl, rfl, rfl⟩
  refine ⟨?_, ?_, ⟨_, by rw [items, if_pos rfl], fresh⟩⟩
  · intro id row stored
    have other := Table.ne_of_stored stored absent
    exact ⟨row, by rw [items, if_neg other, stored], row_delivered_refl row⟩
  · intro id new storedNew
    rw [items] at storedNew
    by_cases here : id = newId
    · rw [if_pos here] at storedNew
      obtain rfl := Option.some.inj storedNew
      exact .inr ⟨here, fresh⟩
    · rw [if_neg here] at storedNew
      exact .inl ⟨new, storedNew, row_delivered_refl new⟩

theorem link_inserting {s t : WorkState} {supersededIds : List WorkItemId}
    (inserting : Inserting newId s t) : Inserting newId s (linkSupersededWorkItems t newId supersededIds) := by
  have items : ∀ id, (linkSupersededWorkItems t newId supersededIds).items.get? id = (t.items.get? id).map fun row =>
      if id ∈ supersededIds then { row with supersededBy := some newId } else row := by
    intro id
    simp [linkSupersededWorkItems, Table.get?_updateWhere]
  refine ⟨?_, ?_, ?_⟩
  · intro id row stored
    obtain ⟨new, storedNew, delivered⟩ := inserting.rows id row stored
    refine ⟨_, by rw [items, storedNew]; rfl, row_delivered_trans delivered ?_⟩
    dsimp only
    split <;> exact ⟨rfl, rfl, rfl, .inl rfl, rfl⟩
  · intro id new storedNew
    rw [items, Option.map_eq_some_iff] at storedNew
    obtain ⟨mid, storedMid, rfl⟩ := storedNew
    rcases inserting.old id mid storedMid with ⟨row, stored, delivered⟩ | ⟨here, fresh⟩
    · refine .inl ⟨row, stored, row_delivered_trans delivered ?_⟩
      split <;> exact ⟨rfl, rfl, rfl, .inl rfl, rfl⟩
    · refine .inr ⟨here, ?_⟩
      split <;> exact ⟨fresh.source, fresh.reviewLens, fresh.headSha, fresh.status⟩
  · obtain ⟨new, stored, fresh⟩ := inserting.fresh
    refine ⟨_, by rw [items, stored]; rfl, ?_⟩
    dsimp only
    split <;> exact ⟨fresh.source, fresh.reviewLens, fresh.headSha, fresh.status⟩

theorem every_push_inserting (leaseKeyOf : WorkItemId → LeaseKey) {s : WorkState} (absent : s.items.get? newId = none) (key : LeaseKey)
    (eventId : WebhookEventId) : Inserting newId s (insertEveryPushReview leaseKeyOf s key eventId newId) := by
  have superseding := supersede_superseding leaseKeyOf s key []
  have created := inserting_of_superseding superseding
    (insert_inserting (superseding_absent superseding absent) eventId)
  simp only [insertEveryPushReview]
  split
  · exact created
  · exact link_inserting created

end Insert

section Outcome

variable {s : PushRun}

-- What a delivery does to the row of the slash review: nothing, or the stamp of a follow-up.
structure SlashDelivered (slash new : WorkItem) : Prop where
  source : new.source = slash.source
  reviewLens : new.reviewLens = slash.reviewLens
  headSha : new.headSha = slash.headSha
  status : new.status = slash.status
  payload : new.payload = slash.payload ∨
    new.payload.pushFollowUp.isSome = true ∧ slash.payload.pushFollowUp = none ∧ new.followUpReplacementId = none

structure Delivered (slashId newId : WorkItemId) (s t : WorkState) (slash new : WorkItem) : Prop where
  stored : t.items.get? slashId = some new
  slash : SlashDelivered slash new
  old : ∀ id row, id ≠ slashId → t.items.get? id = some row →
    (∃ before, s.items.get? id = some before ∧ RowDelivered before row) ∨ id = newId ∧ FreshReview row

-- A review was inserted, the slash review was stamped, its follow-up is still queued, or there is none to keep.
inductive DeliveryOutcome (newId : WorkItemId) (liveJobs : List WorkItemId) (t : WorkState) (slash new : WorkItem) : Prop
  | inserted (fresh : ∃ row, t.items.get? newId = some row ∧ FreshReview row)
      (handled : slash.status = .running → slash.payload.pushFollowUp.isSome = true)
  | stamped (running : slash.status = .running) (follow : new.payload.pushFollowUp.isSome = true)
      (replacement : new.followUpReplacementId = none)
  | kept (id : WorkItemId) (row : WorkItem) (replacement : slash.followUpReplacementId = some id) (live : id ∈ liveJobs)
      (stored : t.items.get? id = some row) (queued : row.status = .queued)
  | quiet (active : slash.status = .queued ∨ slash.status = .running)
      (handled : slash.status = .running → slash.payload.pushFollowUp.isSome = true)
      (replacement : slash.followUpReplacementId = none)

theorem superseding_slash {t : WorkState} {slash : WorkItem} (superseding : Superseding s.toWorkState t)
    (stored : s.items.get? slashId = some slash) (source : slash.source = .slash) :
    ∃ new, t.items.get? slashId = some new ∧ new.status = slash.status ∧ SlashDelivered slash new := by
  obtain ⟨new, storedNew, delivered⟩ := superseding.rows slashId slash stored
  have status : new.status = slash.status := by
    rcases delivered.status with same | ⟨auto, _⟩
    · exact same
    · rw [source] at auto
      cases auto
  exact ⟨new, storedNew, status, delivered.source, delivered.reviewLens, delivered.headSha, status, .inl delivered.payload⟩

theorem delivered_of_superseding {t : WorkState} {slash : WorkItem} (newId : WorkItemId)
    (superseding : Superseding s.toWorkState t) (stored : s.items.get? slashId = some slash) (source : slash.source = .slash) :
    ∃ new, Delivered slashId newId s.toWorkState t slash new := by
  obtain ⟨new, storedNew, _, delivered⟩ := superseding_slash superseding stored source
  exact ⟨new, storedNew, delivered, fun id row _ storedRow => .inl (superseding.old id row storedRow)⟩

theorem delivered_of_inserting {t : WorkState} {slash : WorkItem} {newId : WorkItemId}
    (inserting : Inserting newId s.toWorkState t) (stored : s.items.get? slashId = some slash) (source : slash.source = .slash) :
    ∃ new, Delivered slashId newId s.toWorkState t slash new := by
  obtain ⟨new, storedNew, delivered⟩ := inserting.rows slashId slash stored
  have status : new.status = slash.status := by
    rcases delivered.status with same | ⟨auto, _⟩
    · exact same
    · rw [source] at auto
      cases auto
  exact ⟨new, storedNew,
    ⟨delivered.source, delivered.reviewLens, delivered.headSha, status, .inl delivered.payload⟩,
    fun id row _ storedRow => inserting.old id row storedRow⟩

-- The active slash reviews of the pull request are the one named by `slashId`, or none.
theorem mem_active_slash {slash : WorkItem} (sound : s.Sound leaseKeyOf slashId)
    (review : (leaseKeyOf slashId).workType = .review) (stored : s.items.get? slashId = some slash) (id : WorkItemId)
    (row : WorkItem) : (id, row) ∈ lockActiveSlashReviews leaseKeyOf s.toWorkState (leaseKeyOf slashId) ↔
      id = slashId ∧ row = slash ∧ (slash.status = .queued ∨ slash.status = .running) := by
  obtain ⟨other, storedOther, source, lens⟩ := sound.slash
  obtain rfl := Option.some.inj (stored.symm.trans storedOther)
  rw [lockActiveSlashReviews, Table.mem_select]
  simp only [isActiveSlashReview, Bool.and_eq_true, Bool.or_eq_true, decide_eq_true_eq]
  constructor
  · rintro ⟨storedRow, ⟨⟨⟨_, slashRow⟩, _⟩, _⟩, active⟩
    by_cases here : id = slashId
    · subst here
      obtain rfl := Option.some.inj (stored.symm.trans storedRow)
      exact ⟨rfl, rfl, active⟩
    · rw [(sound.alone id row storedRow here).1] at slashRow
      cases slashRow
  · rintro ⟨rfl, rfl, active⟩
    exact ⟨stored, ⟨⟨⟨rfl, source⟩, review⟩, lens⟩, active⟩

theorem stamp_delivered (newId : WorkItemId) (eventId : WebhookEventId) {work : WorkState} {slash : WorkItem}
    {runningIds : List WorkItemId} (superseding : Superseding s.toWorkState work)
    (stored : s.items.get? slashId = some slash) (source : slash.source = .slash) (running : slash.status = .running)
    (unstamped : slash.payload.pushFollowUp = none) (only : ∀ id, id ∈ runningIds ↔ id = slashId) :
    work.items.any (stampsFollowUp runningIds) = true ∧
      ∃ new, Delivered slashId newId s.toWorkState
        (patchPayload work (stampsFollowUp runningIds) { pushFollowUp := some ⟨eventId, none, none⟩ }) slash new ∧
        new.payload.pushFollowUp.isSome = true ∧ new.followUpReplacementId = none := by
  obtain ⟨mid, storedMid, _, delivered⟩ := superseding_slash superseding stored source
  have payload : mid.payload = slash.payload := by
    rcases delivered.payload with same | ⟨stamped, _, _⟩
    · exact same
    · obtain ⟨row, storedRow, rowDelivered⟩ := superseding.old slashId mid storedMid
      obtain rfl := Option.some.inj (stored.symm.trans storedRow)
      exact rowDelivered.payload
  have chosen : stampsFollowUp runningIds slashId mid = true := by
    simp [stampsFollowUp, only, delivered.status, running, payload, unstamped]
  refine ⟨(Table.any_iff _ _).mpr ⟨slashId, mid, storedMid, chosen⟩, ?_⟩
  refine ⟨{ mid with payload := mid.payload.merge { pushFollowUp := some ⟨eventId, none, none⟩ }, updatedAt := work.now },
    ⟨?_, ?_, ?_⟩, rfl, rfl⟩
  · simp only [patchPayload, Table.get?_updateWhere, storedMid, Option.map_some, if_pos chosen]
  · exact ⟨delivered.source, delivered.reviewLens, delivered.headSha, delivered.status, .inr ⟨rfl, unstamped, rfl⟩⟩
  · intro id row other storedRow
    simp only [patchPayload, Table.get?_updateWhere, Option.map_eq_some_iff] at storedRow
    obtain ⟨before, storedBefore, same⟩ := storedRow
    have unselected : ¬stampsFollowUp runningIds id before = true := by simp [stampsFollowUp, only, other]
    rw [if_neg unselected] at same
    obtain rfl := same
    exact .inl (superseding.old id before storedBefore)

-- The child of the one active row is the only one to keep.
theorem follow_ups_of_member {slash : WorkItem} {rows : List (WorkItemId × WorkItem)}
    (member : ∀ id row, (id, row) ∈ rows ↔ id = slashId ∧ row = slash ∧ (slash.status = .queued ∨ slash.status = .running))
    (listed : (slashId, slash) ∈ rows) :
    ∃ ids, rows.filterMap (fun (_, row) => row.followUpReplacementId) = ids ∧
      ∀ id, id ∈ ids ↔ slash.followUpReplacementId = some id := by
  refine ⟨_, rfl, fun id => ?_⟩
  simp only [List.mem_filterMap, Prod.exists]
  constructor
  · intro kept
    obtain ⟨other, row, found, replacement⟩ := kept
    obtain ⟨_, rfl, _⟩ := (member other row).mp found
    exact replacement
  · exact fun replacement => ⟨slashId, slash, listed, replacement⟩

-- It is the only row to stamp.
theorem running_of_member {slash : WorkItem} {rows : List (WorkItemId × WorkItem)}
    (member : ∀ id row, (id, row) ∈ rows ↔ id = slashId ∧ row = slash ∧ (slash.status = .queued ∨ slash.status = .running))
    (listed : (slashId, slash) ∈ rows) :
    ∃ ids, (rows.filter fun (_, row) => row.status = .running && row.payload.pushFollowUp.isNone).map Prod.fst = ids ∧
      ∀ id, id ∈ ids ↔ id = slashId ∧ slash.status = .running ∧ slash.payload.pushFollowUp = none := by
  refine ⟨_, rfl, fun id => ?_⟩
  simp only [List.mem_map, List.mem_filter, Bool.and_eq_true, decide_eq_true_eq, Option.isNone_iff_eq_none,
    Prod.exists, exists_and_right, exists_eq_right]
  constructor
  · intro kept
    obtain ⟨row, found, stamps⟩ := kept
    obtain ⟨rfl, rfl, _⟩ := (member id row).mp found
    exact ⟨rfl, stamps⟩
  · intro kept
    obtain ⟨rfl, stamps⟩ := kept
    exact ⟨slash, listed, stamps⟩

theorem delivery_outcome {slash : WorkItem} {newId : WorkItemId} (sound : s.Sound leaseKeyOf slashId)
    (review : (leaseKeyOf slashId).workType = .review) (stored : s.items.get? slashId = some slash)
    (absent : s.items.get? newId = none) (eventId : WebhookEventId) (liveJobs : List WorkItemId) :
    ∃ new, Delivered slashId newId s.toWorkState
        (applyEveryPushReviewSupersede leaseKeyOf s.toWorkState (leaseKeyOf slashId) eventId newId liveJobs) slash new ∧
      DeliveryOutcome newId liveJobs
        (applyEveryPushReviewSupersede leaseKeyOf s.toWorkState (leaseKeyOf slashId) eventId newId liveJobs) slash new := by
  have source : slash.source = .slash := by
    obtain ⟨other, storedOther, source, _⟩ := sound.slash
    obtain rfl := Option.some.inj (stored.symm.trans storedOther)
    exact source
  have member := mem_active_slash sound review stored
  generalize applied : applyEveryPushReviewSupersede leaseKeyOf s.toWorkState (leaseKeyOf slashId) eventId newId liveJobs = t
  simp only [applyEveryPushReviewSupersede] at applied
  generalize lockActiveSlashReviews leaseKeyOf s.toWorkState (leaseKeyOf slashId) = slashRows at applied member
  by_cases active : slash.status = .queued ∨ slash.status = .running
  · have listed : (slashId, slash) ∈ slashRows := (member slashId slash).mpr ⟨rfl, rfl, active⟩
    have nonempty : ¬slashRows.isEmpty = true := by
      intro empty
      rw [List.isEmpty_iff.mp empty] at listed
      cases listed
    rw [if_neg nonempty] at applied
    obtain ⟨followUpIds, followed, follow⟩ := follow_ups_of_member member listed
    obtain ⟨runningIds, ran, running⟩ := running_of_member member listed
    rw [followed, ran] at applied
    have superseding := supersede_superseding leaseKeyOf s.toWorkState (leaseKeyOf slashId)
      (followUpIds.filter (· ∈ liveJobs))
    generalize (supersedeActiveAutoWork leaseKeyOf s.toWorkState (leaseKeyOf slashId)
      (followUpIds.filter (· ∈ liveJobs))).2 = superseded at applied superseding
    by_cases stamps : slash.status = .running ∧ slash.payload.pushFollowUp = none
    · have only : ∀ id, id ∈ runningIds ↔ id = slashId := by
        intro id
        rw [running]
        exact ⟨And.left, fun here => ⟨here, stamps⟩⟩
      have some_ : ¬runningIds.isEmpty = true := by
        intro empty
        have mem := (only slashId).mpr rfl
        rw [List.isEmpty_iff.mp empty] at mem
        cases mem
      obtain ⟨found, new, delivered, stamped, replacement⟩ :=
        stamp_delivered newId eventId superseding stored source stamps.1 stamps.2 only
      rw [if_neg some_, if_pos found] at applied
      subst applied
      exact ⟨new, delivered, .stamped stamps.1 stamped replacement⟩
    · have none_ : runningIds.isEmpty = true := by
        rw [List.isEmpty_iff, List.eq_nil_iff_forall_not_mem]
        exact fun id mem => stamps ((running id).mp mem).2
      rw [if_pos none_] at applied
      have handled : slash.status = .running → slash.payload.pushFollowUp.isSome = true := by
        intro runs
        cases stamp : slash.payload.pushFollowUp with
        | none => exact absurd ⟨runs, stamp⟩ stamps
        | some _ => rfl
      cases replacement : slash.followUpReplacementId with
      | none =>
          have empty : followUpIds.isEmpty = true := by
            rw [List.isEmpty_iff, List.eq_nil_iff_forall_not_mem]
            intro id mem
            rw [(follow id).mp mem] at replacement
            cases replacement
          rw [if_pos empty] at applied
          subst applied
          obtain ⟨new, delivered⟩ := delivered_of_superseding newId superseding stored source
          exact ⟨new, delivered, .quiet active handled replacement⟩
      | some childId =>
          have some_ : ¬followUpIds.isEmpty = true := by
            intro empty
            have mem := (follow childId).mpr replacement
            rw [List.isEmpty_iff.mp empty] at mem
            cases mem
          rw [if_neg some_] at applied
          by_cases queued : superseded.items.any
              (fun id row => id ∈ followUpIds.filter (· ∈ liveJobs) && row.status = .queued) = true
          · rw [if_pos queued] at applied
            subst applied
            obtain ⟨new, delivered⟩ := delivered_of_superseding newId superseding stored source
            obtain ⟨id, row, storedRow, kept⟩ := (Table.any_iff _ _).mp queued
            simp only [Bool.and_eq_true, decide_eq_true_eq, List.mem_filter] at kept
            obtain ⟨⟨listed, live⟩, waits⟩ := kept
            exact ⟨new, delivered, .kept id row ((follow id).mp listed) live storedRow waits⟩
          · rw [if_neg queued] at applied
            subst applied
            have inserting := inserting_of_superseding superseding
              (every_push_inserting leaseKeyOf (superseding_absent superseding absent) (leaseKeyOf slashId)
                eventId)
            obtain ⟨new, delivered⟩ := delivered_of_inserting inserting stored source
            exact ⟨new, delivered, .inserted inserting.fresh handled⟩
  · have empty : slashRows.isEmpty = true := by
      rw [List.isEmpty_iff, List.eq_nil_iff_forall_not_mem]
      exact fun entry mem => active ((member entry.1 entry.2).mp mem).2.2
    rw [if_pos empty] at applied
    subst applied
    have inserting := every_push_inserting leaseKeyOf absent (leaseKeyOf slashId) eventId
    obtain ⟨new, delivered⟩ := delivered_of_inserting inserting stored source
    exact ⟨new, delivered, .inserted inserting.fresh fun running => absurd (.inr running) active⟩

-- A delivery that the slash review is left with: while it waits for a retry, its head stands for the push; and the
-- follow-up that stays queued stands for every push that awaits it.
def DeliveryAllowed (slashId : WorkItemId) (s : PushRun) (pushed : Nat) (liveJobs : List WorkItemId) : Prop :=
  ∀ slash ∈ s.items.get? slashId,
    (slash.status = .queued → slash.payload.pushFollowUp = none → HeadFits s.pushes pushed slash.headSha) ∧
    ∀ id ∈ slash.followUpReplacementId, id ∈ liveJobs → ∀ child ∈ s.items.get? id, child.status = .queued →
      ∀ i ∈ pushed :: s.awaiting, HeadFits s.pushes i child.headSha

theorem queued_covers {pushes : List Nat} {bindings : List HeadBinding} {id : WorkItemId} {row : WorkItem} {i : Nat}
    (queued : row.status = .queued) (fits : HeadFits pushes i row.headSha) : row.Covers pushes bindings id i := by
  refine ⟨by simp [queued], ?_⟩
  cases head : row.headSha with
  | deferred => exact .inr (.inr ⟨rfl, .inl queued⟩)
  | sha value =>
      rw [head] at fits
      exact .inl ⟨value, rfl, fits⟩

section Sound

variable {work : WorkState} {slash new : WorkItem} {newId pushed : Nat} {liveJobs : List WorkItemId}

def PushRun.deliver (s : PushRun) (slashId : WorkItemId) (work : WorkState) (pushed : Nat) : PushRun :=
  { s with
    toWorkState := work
    awaiting := if s.slashActive slashId then pushed :: s.awaiting else s.awaiting }

variable (sound : s.Sound leaseKeyOf slashId) (stored : s.items.get? slashId = some slash)
  (fresh : s.freshId leaseKeyOf slashId newId = true) (delivered : Delivered slashId newId s.toWorkState work slash new)
  (outcome : DeliveryOutcome newId liveJobs work slash new) (allowed : DeliveryAllowed slashId s pushed liveJobs)

theorem awaiting_cases {i : Nat} (waiting : i ∈ (s.deliver slashId work pushed).awaiting) :
    i ∈ s.awaiting ∨ i = pushed ∧ s.slashActive slashId = true := by
  simp only [PushRun.deliver] at waiting
  split at waiting
  · rename_i active
    cases List.mem_cons.mp waiting with
    | inl here => exact .inr ⟨here, active⟩
    | inr before => exact .inl before
  · exact .inl waiting

include sound stored fresh delivered outcome allowed

-- The push of the delivery and the ones before it are covered by the review that was inserted or kept.
theorem delivered_covers (replaced : new.followUpReplacementId.isSome = true ∨ s.slashActive slashId = false)
    {i : Nat} (waiting : i ∈ (s.deliver slashId work pushed).awaiting) :
    (s.deliver slashId work pushed).CoveredByOther slashId i := by
  simp only [PushRun.freshId, Bool.and_eq_true, Option.isNone_iff_eq_none] at fresh
  cases outcome with
  | inserted inserted _ =>
      obtain ⟨row, storedRow, freshRow⟩ := inserted
      refine ⟨newId, row, ?_, storedRow, queued_covers freshRow.status (by rw [freshRow.headSha]; trivial)⟩
      rintro rfl
      rw [stored] at fresh
      exact absurd fresh.1 (by simp)
  | stamped running follow replacement =>
      rcases replaced with replaced | inactive
      · simp [replacement] at replaced
      · simp [PushRun.slashActive, stored, running] at inactive
  | kept id row replacement live storedRow queued =>
      obtain ⟨other, _, _⟩ := sound.followed slash id stored replacement
      refine ⟨id, row, other, storedRow, queued_covers queued ?_⟩
      have before : ∃ child, s.items.get? id = some child ∧ row.headSha = child.headSha ∧ child.status = .queued ∨
          row.headSha = .deferred := by
        rcases delivered.old id row other storedRow with ⟨child, storedChild, kept⟩ | ⟨_, freshRow⟩
        · refine ⟨child, .inl ⟨storedChild, kept.headSha, ?_⟩⟩
          rcases kept.status with same | ⟨_, superseded⟩
          · exact same ▸ queued
          · rw [queued] at superseded
            cases superseded
        · exact ⟨row, .inr freshRow.headSha⟩
      obtain ⟨child, ⟨storedChild, head, childQueued⟩ | deferred⟩ := before
      · rw [head]
        refine (allowed slash (by rw [stored]; rfl)).2 id (by rw [replacement]; rfl) live child (by rw [storedChild]; rfl)
          childQueued i ?_
        rcases awaiting_cases waiting with before | ⟨rfl, _⟩
        · exact List.mem_cons_of_mem _ before
        · exact List.mem_cons_self
      · rw [deferred]
        trivial
  | quiet active handled replacement =>
      rcases replaced with replaced | inactive
      · have payload : new.payload = slash.payload := by
          rcases delivered.slash.payload with same | ⟨_, _, unreplaced⟩
          · exact same
          · simp [unreplaced] at replaced
        rw [WorkItem.followUpReplacementId, payload] at replaced
        rw [WorkItem.followUpReplacementId] at replacement
        simp [replacement] at replaced
      · rcases active with queued | running
        · simp [PushRun.slashActive, stored, queued] at inactive
        · simp [PushRun.slashActive, stored, running] at inactive

omit fresh in
theorem delivered_stamped {i : Nat} (waiting : i ∈ (s.deliver slashId work pushed).awaiting) :
    HeadFits s.pushes i new.headSha ∨ new.payload.pushFollowUp.isSome = true := by
  rw [delivered.slash.headSha]
  rcases delivered.slash.payload with same | ⟨stamped, _⟩
  · rw [same]
    rcases awaiting_cases waiting with before | ⟨rfl, active⟩
    · exact sound.stamped slash stored i before
    · cases stamp : slash.payload.pushFollowUp with
      | some followUp => exact .inr rfl
      | none =>
          by_cases queued : slash.status = .queued
          · exact .inl ((allowed slash (by rw [stored]; rfl)).1 queued stamp)
          · have running : slash.status = .running := by
              simp only [PushRun.slashActive, stored, Option.any_some, Bool.or_eq_true, decide_eq_true_eq] at active
              exact active.resolve_left queued
            cases outcome with
            | inserted _ handled =>
                have some_ := handled running
                simp [stamp] at some_
            | stamped _ follow _ => simp [same, stamp] at follow
            | kept id row replacement => simp [WorkItem.followUpReplacementId, stamp] at replacement
            | quiet _ handled _ =>
                have some_ := handled running
                simp [stamp] at some_
  · exact .inr stamped

theorem sound_delivered (inside : pushed < s.pushes.length) :
    (s.deliver slashId work pushed).Sound leaseKeyOf slashId := by
  have slashRow : ∀ row, (s.deliver slashId work pushed).items.get? slashId = some row → row = new :=
    fun row storedRow => Option.some.inj (storedRow.symm.trans delivered.stored)
  obtain ⟨other, storedOther, source, lens⟩ := sound.slash
  obtain rfl := Option.some.inj (stored.symm.trans storedOther)
  have alone : ∀ id row, (s.deliver slashId work pushed).items.get? id = some row → id ≠ slashId →
      row.source = .auto ∧ row.reviewLens = some .review ∧ leaseKeyOf id = leaseKeyOf slashId := by
    intro id row storedRow other
    rcases delivered.old id row other storedRow with ⟨before, storedBefore, kept⟩ | ⟨rfl, inserted⟩
    · obtain ⟨auto, lens, key⟩ := sound.alone id before storedBefore other
      exact ⟨kept.source.trans auto, kept.reviewLens.trans lens, key⟩
    · simp only [PushRun.freshId, Bool.and_eq_true, decide_eq_true_eq] at fresh
      exact ⟨inserted.source, inserted.reviewLens, fresh.2⟩
  constructor
  · exact ⟨new, delivered.stored, delivered.slash.source.trans source, delivered.slash.reviewLens.trans lens⟩
  · exact alone
  · intro i waiting
    rcases awaiting_cases waiting with before | ⟨rfl, _⟩
    · exact sound.pushed i before
    · exact inside
  · intro row storedRow i waiting
    obtain rfl := slashRow row storedRow
    exact delivered_stamped sound stored delivered outcome allowed waiting
  · intro id row value storedRow other head
    rcases delivered.old id row other storedRow with ⟨before, storedBefore, kept⟩ | ⟨_, inserted⟩
    · exact sound.recorded id before value storedBefore other (kept.headSha.symm.trans head)
    · rw [inserted.headSha] at head
      cases head
  · intro row id storedRow replacement
    obtain rfl := slashRow row storedRow
    have before : slash.followUpReplacementId = some id := by
      rcases delivered.slash.payload with same | ⟨_, _, unreplaced⟩
      · rw [WorkItem.followUpReplacementId, ← same]
        exact replacement
      · rw [unreplaced] at replacement
        cases replacement
    obtain ⟨other, key, _⟩ := sound.followed slash id stored before
    exact ⟨other, key, fun i waiting => delivered_covers sound stored fresh delivered outcome allowed
      (.inl (by rw [replacement]; rfl)) waiting⟩
  · intro run execution row found storedRow
    rw [slashRow row storedRow, delivered.slash.headSha]
    exact sound.bound run execution slash found stored
  · exact sound.checked
  · intro run execution row id found phase storedRow
    obtain rfl := slashRow row storedRow
    have before := sound.rescheduled run execution slash id found phase stored
    rcases delivered.slash.payload with same | ⟨_, unstamped, _⟩
    · rw [WorkItem.followUpReplacementId, same]
      exact before
    · rw [WorkItem.followUpReplacementId, unstamped] at before
      cases before
  · intro row storedRow completed i waiting
    obtain rfl := slashRow row storedRow
    have inactive : s.slashActive slashId = false := by
      rw [delivered.slash.status] at completed
      simp [PushRun.slashActive, stored, completed]
    obtain ⟨id, cover, other, storedCover, covers⟩ :=
      delivered_covers sound stored fresh delivered outcome allowed (.inr inactive) waiting
    exact ⟨id, cover, storedCover, (alone id cover storedCover other).2.1, (alone id cover storedCover other).2.2, covers⟩

end Sound

end Outcome

end PrAgent
