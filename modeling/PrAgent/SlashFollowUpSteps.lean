import PrAgent.SlashFollowUp
set_option autoImplicit false

namespace PrAgent

variable {leaseKeyOf : WorkItemId → LeaseKey} {slashId : WorkItemId} {s : PushRun}

theorem covers_binding {pushes : List Nat} {bindings : List HeadBinding} {id : WorkItemId} {row : WorkItem} {i : Nat}
    (covers : row.Covers pushes bindings id i) (binding : HeadBinding) :
    row.Covers pushes (binding :: bindings) id i := by
  refine ⟨covers.standing, ?_⟩
  rcases covers.head with head | ⟨value, bound, newer⟩ | waiting
  · exact .inl head
  · exact .inr (.inl ⟨value, List.mem_cons_of_mem _ bound, newer⟩)
  · exact .inr (.inr waiting)

section Binding

variable {work : WorkState} {id : WorkItemId} {row new : WorkItem} {value : Nat}

-- What a claim and the binding of a head leave of a row.
structure RowBound (row new : WorkItem) (value : Nat) : Prop where
  source : new.source = row.source
  reviewLens : new.reviewLens = row.reviewLens
  payload : new.payload = row.payload
  status : new.status = .running
  headSha : new.headSha = .sha value

theorem resolved_fits (resolved : s.resolveHead row.headSha = some value) {i : Nat} (inside : i < s.pushes.length)
    (fits : HeadFits s.pushes i row.headSha) : NewerHead s.pushes i value := by
  cases head : row.headSha with
  | deferred =>
      rw [head] at resolved
      exact newer_head_live inside resolved
  | sha bound =>
      rw [head] at resolved fits
      obtain rfl := Option.some.inj resolved
      exact fits

theorem row_bound_covers (boundRow : RowBound row new value) (resolved : s.resolveHead row.headSha = some value) {i : Nat}
    (inside : i < s.pushes.length) (covers : row.Covers s.pushes s.bindings id i) :
    new.Covers s.pushes (⟨id, value⟩ :: s.bindings) id i := by
  refine ⟨by simp [boundRow.status], ?_⟩
  rcases covers.head with ⟨head, same, newer⟩ | ⟨bound, listed, newer⟩ | ⟨deferred, _⟩
  · exact .inl ⟨value, boundRow.headSha, resolved_fits resolved inside (by rw [same]; exact newer)⟩
  · exact .inr (.inl ⟨bound, List.mem_cons_of_mem _ listed, newer⟩)
  · exact .inl ⟨value, boundRow.headSha, resolved_fits resolved inside (by rw [deferred]; trivial)⟩

variable (stored : s.items.get? id = some row) (boundRow : RowBound row new value)
  (resolved : s.resolveHead row.headSha = some value)
  (items : ∀ other, work.items.get? other = if other = id then some new else s.items.get? other)

def PushRun.bind (s : PushRun) (work : WorkState) (id : WorkItemId) (value : Nat) : PushRun :=
  { s with toWorkState := work, bindings := ⟨id, value⟩ :: s.bindings }

include stored boundRow resolved items

theorem covered_other_bound {i : Nat} (inside : i < s.pushes.length) (covered : s.CoveredByOther slashId i) :
    (s.bind work id value).CoveredByOther slashId i := by
  obtain ⟨cover, old, other, storedCover, covers⟩ := covered
  by_cases here : cover = id
  · subst here
    obtain rfl := Option.some.inj (stored.symm.trans storedCover)
    exact ⟨cover, new, other, by simp [PushRun.bind, items], row_bound_covers boundRow resolved inside covers⟩
  · exact ⟨cover, old, other, by simp [PushRun.bind, items, here, storedCover], covers_binding covers _⟩

theorem covered_bound {i : Nat} (inside : i < s.pushes.length) (covered : s.Covered leaseKeyOf slashId i) :
    (s.bind work id value).Covered leaseKeyOf slashId i := by
  obtain ⟨cover, old, storedCover, lens, key, covers⟩ := covered
  by_cases here : cover = id
  · subst here
    obtain rfl := Option.some.inj (stored.symm.trans storedCover)
    exact ⟨cover, new, by simp [PushRun.bind, items], boundRow.reviewLens.trans lens, key,
      row_bound_covers boundRow resolved inside covers⟩
  · exact ⟨cover, old, by simp [PushRun.bind, items, here, storedCover], lens, key, covers_binding covers _⟩

-- The row a review has after the binding, and the one it had before.
omit stored boundRow resolved in
theorem bound_row {other : WorkItemId} {after : WorkItem} (storedAfter : (s.bind work id value).items.get? other = some after) :
    other = id ∧ after = new ∨ other ≠ id ∧ s.items.get? other = some after := by
  have found : work.items.get? other = some after := storedAfter
  rw [items] at found
  by_cases here : other = id
  · rw [if_pos here] at found
    exact .inl ⟨here, (Option.some.inj found).symm⟩
  · rw [if_neg here] at found
    exact .inr ⟨here, found⟩

theorem sound_bound (sound : s.Sound leaseKeyOf slashId) : (s.bind work id value).Sound leaseKeyOf slashId := by
  have rowOf := @bound_row s work id new value items
  constructor
  · obtain ⟨slash, storedSlash, source, lens⟩ := sound.slash
    by_cases here : slashId = id
    · obtain rfl := Option.some.inj (stored.symm.trans (here ▸ storedSlash))
      exact ⟨new, by simp [PushRun.bind, items, here], boundRow.source.trans source, boundRow.reviewLens.trans lens⟩
    · exact ⟨slash, by simp [PushRun.bind, items, here, storedSlash], source, lens⟩
  · intro other after storedAfter differs
    rcases rowOf storedAfter with ⟨rfl, rfl⟩ | ⟨_, before⟩
    · obtain ⟨source, lens, key⟩ := sound.alone other row stored differs
      exact ⟨boundRow.source.trans source, boundRow.reviewLens.trans lens, key⟩
    · exact sound.alone other after before differs
  · exact sound.pushed
  · intro after storedAfter i waiting
    rcases rowOf storedAfter with ⟨rfl, rfl⟩ | ⟨_, before⟩
    · rcases sound.stamped row stored i waiting with fits | stamped
      · rw [boundRow.headSha]
        exact .inl (resolved_fits resolved (sound.pushed i waiting) fits)
      · rw [boundRow.payload]
        exact .inr stamped
    · exact sound.stamped after before i waiting
  · intro other after head storedAfter differs same
    rcases rowOf storedAfter with ⟨rfl, rfl⟩ | ⟨_, before⟩
    · rw [boundRow.headSha] at same
      cases same
      exact List.mem_cons_self
    · exact List.mem_cons_of_mem _ (sound.recorded other after head before differs same)
  · intro after other storedAfter replacement
    have followed : other ≠ slashId ∧ leaseKeyOf other = leaseKeyOf slashId ∧
        ∀ i ∈ s.awaiting, s.CoveredByOther slashId i := by
      rcases rowOf storedAfter with ⟨rfl, rfl⟩ | ⟨_, before⟩
      · refine sound.followed row other stored ?_
        rw [WorkItem.followUpReplacementId, ← boundRow.payload]
        exact replacement
      · exact sound.followed after other before replacement
    obtain ⟨differs, key, covered⟩ := followed
    exact ⟨differs, key, fun i waiting =>
      covered_other_bound stored boundRow resolved items (sound.pushed i waiting) (covered i waiting)⟩
  · intro run execution after found storedAfter
    rcases rowOf storedAfter with ⟨rfl, rfl⟩ | ⟨_, before⟩
    · have same := sound.bound run execution row found stored
      rw [same] at resolved
      obtain rfl := Option.some.inj resolved
      exact boundRow.headSha
    · exact sound.bound run execution after found before
  · exact sound.checked
  · intro run execution after other found phase storedAfter
    rcases rowOf storedAfter with ⟨rfl, rfl⟩ | ⟨_, before⟩
    · rw [WorkItem.followUpReplacementId, boundRow.payload]
      exact sound.rescheduled run execution row other found phase stored
    · exact sound.rescheduled run execution after other found phase before
  · intro after storedAfter completed i waiting
    rcases rowOf storedAfter with ⟨rfl, rfl⟩ | ⟨_, before⟩
    · rw [boundRow.status] at completed
      cases completed
    · exact covered_bound stored boundRow resolved items (sound.pushed i waiting)
        (sound.completed after before completed i waiting)

end Binding

section Executions

-- An execution whose data fits the state.
structure PushRun.ExecutionSound (slashId : WorkItemId) (s : PushRun) (execution : SlashExecution) : Prop where
  bound : ∀ row, s.items.get? slashId = some row → row.headSha = .sha execution.boundHeadSha
  checked : ∀ pushes, execution.phase = .completed (some pushes) →
    ∀ i, i < pushes → NewerHead s.pushes i execution.boundHeadSha
  rescheduled : ∀ row id, execution.phase = .rescheduled id → s.items.get? slashId = some row →
    row.followUpReplacementId.isSome = true

theorem sound_execution (sound : s.Sound leaseKeyOf slashId) {run : Nat} {execution : SlashExecution}
    (fits : s.ExecutionSound slashId execution) :
    PushRun.Sound leaseKeyOf slashId { s with executions := s.executions.set run execution } := by
  have executionOf : ∀ other after, (s.executions.set run execution).get? other = some after →
      execution = after ∨ s.executions.get? other = some after :=
    fun other after found => (Table.get?_set_cases found).imp And.right And.right
  constructor
  · exact sound.slash
  · exact sound.alone
  · exact sound.pushed
  · exact sound.stamped
  · exact sound.recorded
  · exact sound.followed
  · intro other after row found stored
    rcases executionOf other after found with rfl | before
    · exact fits.bound row stored
    · exact sound.bound other after row before stored
  · intro other after pushes found phase
    rcases executionOf other after found with rfl | before
    · exact fits.checked pushes phase
    · exact sound.checked other after pushes before phase
  · intro other after row id found phase stored
    rcases executionOf other after found with rfl | before
    · exact fits.rescheduled row id phase stored
    · exact sound.rescheduled other after row id before phase stored
  · exact sound.completed

theorem check_head_sound (sound : s.Sound leaseKeyOf slashId) {run : Nat} {execution : SlashExecution}
    (found : s.executions.get? run = some execution) :
    (s.setPhase run execution (s.checkHead execution)).Sound leaseKeyOf slashId := by
  refine sound_execution sound ⟨fun row stored => sound.bound run execution row found stored, ?_, ?_⟩
  · intro pushes phase i before
    simp only [PushRun.checkHead] at phase
    split at phase
    · cases phase
    · split at phase
      · rename_i live
        cases phase
        exact newer_head_live before live
      · cases phase
  · intro row id phase
    simp only [PushRun.checkHead] at phase
    split at phase
    · cases phase
    · split at phase <;> cases phase

end Executions

section Claims

theorem claim_items (leaseKeyOf : WorkItemId → LeaseKey) (s : WorkState) (id : WorkItemId) (leaseEpoch : Option Nat) (other : WorkItemId) :
    (claimWorkForExecution leaseKeyOf s id leaseEpoch).2.items.get? other = (s.items.get? other).map fun row =>
      if (claimSpec id leaseEpoch).selects leaseKeyOf s other row then (claimSpec id leaseEpoch).assign s.now row else row := by
  rw [← transition_items]
  simp only [claimWorkForExecution]
  cases (transition leaseKeyOf s (claimSpec id leaseEpoch)).1 with
  | nil => rfl
  | cons head rest => rfl

variable {id : WorkItemId} {leaseEpoch : Option Nat}

theorem bind_head_moved {value : Nat} {bound : PushRun} (moved : s.bindHead id leaseEpoch = some (value, bound)) :
    ∃ row new work, s.items.get? id = some row ∧ RowBound row new value ∧ s.resolveHead row.headSha = some value ∧
      bound = s.bind work id value ∧
      ∀ other, work.items.get? other = if other = id then some new else s.items.get? other := by
  simp only [PushRun.bindHead] at moved
  cases stored : s.items.get? id with
  | none =>
      rw [stored] at moved
      cases moved
  | some row =>
      rw [stored] at moved
      by_cases admitted : row.status = .running ∧ row.cancelRequestedAt.isNone ∧ s.fenced id leaseEpoch
      · obtain ⟨running, uncancelled, fenced⟩ := admitted
        simp only [running, uncancelled, fenced, and_self, if_true, Option.map_eq_some_iff, Prod.mk.injEq] at moved
        obtain ⟨head, resolved, rfl, rfl⟩ := moved
        refine ⟨row, { row with headSha := .sha head, updatedAt := s.now }, _, rfl, ⟨rfl, rfl, rfl, running, rfl⟩, resolved,
          rfl, fun other => ?_⟩
        simp only [updateRunningWorkHeadSha, Table.get?_updateWhere]
        by_cases here : other = id
        · subst here
          simp [stored, running, Option.isNone_iff_eq_none.mp uncancelled, fenced]
        · cases s.items.get? other with
          | none => simp [here]
          | some otherRow => simp [here]
      · simp only [if_neg admitted, reduceCtorEq] at moved

theorem begin_sound (sound : s.Sound leaseKeyOf slashId) {run : Nat} {t : PushRun}
    (moved : pushStep leaseKeyOf slashId s (.begin run leaseEpoch) = some t) : t.Sound leaseKeyOf slashId := by
  simp only [pushStep] at moved
  split at moved
  · rename_i loaded boundHeadSha bound _ _ boundTo
    obtain ⟨row, new, work, stored, boundRow, resolved, rfl, items⟩ := bind_head_moved boundTo
    obtain rfl := Option.some.inj moved
    have boundSound := sound_bound stored boundRow resolved items sound
    refine sound_execution boundSound ⟨?_, ?_, ?_⟩
    · intro after storedAfter
      have found : work.items.get? slashId = some after := storedAfter
      rw [items, if_pos rfl] at found
      obtain rfl := Option.some.inj found
      exact boundRow.headSha
    · intro pushes phase
      cases phase
    · intro after id phase
      cases phase
  · cases moved

theorem start_auto_sound (sound : s.Sound leaseKeyOf slashId) {t : PushRun}
    (moved : pushStep leaseKeyOf slashId s (.startAuto id leaseEpoch) = some t) : t.Sound leaseKeyOf slashId := by
  simp only [pushStep] at moved
  by_cases here : id = slashId
  · simp [here] at moved
  · rw [if_neg here, Option.map_eq_some_iff] at moved
    obtain ⟨⟨value, bound⟩, boundTo, rfl⟩ := moved
    obtain ⟨claimed, new, work, storedClaimed, boundRow, resolved, rfl, items⟩ := bind_head_moved boundTo
    have claimItems := claim_items leaseKeyOf s.toWorkState id leaseEpoch
    have found := storedClaimed
    simp only [PushRun.withWork, claimItems] at found
    cases stored : s.items.get? id with
    | none => simp [stored] at found
    | some row =>
        -- the claim keeps all of the row but its status and its time stamps
        have kept : claimed.source = row.source ∧ claimed.reviewLens = row.reviewLens ∧ claimed.payload = row.payload ∧
            claimed.headSha = row.headSha := by
          rw [stored, Option.map_some] at found
          obtain rfl := Option.some.inj found
          split
          · exact ⟨rfl, rfl, by simp [TransitionSpec.assign, claimSpec], rfl⟩
          · exact ⟨rfl, rfl, rfl, rfl⟩
        obtain ⟨source, lens, payload, head⟩ := kept
        rw [head] at resolved
        have boundRow : RowBound row new value :=
          ⟨boundRow.source.trans source, boundRow.reviewLens.trans lens, boundRow.payload.trans payload,
            boundRow.status, boundRow.headSha⟩
        change (s.bind work id value).Sound leaseKeyOf slashId
        refine sound_bound stored boundRow resolved ?_ sound
        intro other
        rw [items other]
        by_cases same : other = id
        · rw [if_pos same, if_pos same]
        · rw [if_neg same, if_neg same, PushRun.withWork, claimItems]
          cases storedOther : s.items.get? other with
          | none => rfl
          | some otherRow =>
              rw [Option.map_some, if_neg]
              intro selected
              exact same (selected_id rfl selected)

theorem marked_failed {s : WorkState} {error : String} (failed : (markWorkFailed leaseKeyOf s id error leaseEpoch).1 = true) :
    ∃ row, s.items.get? id = some row ∧ (failedSpec id error leaseEpoch).selects leaseKeyOf s id row = true := by
  simp only [markWorkFailed, transition, Bool.not_eq_true', List.isEmpty_eq_false_iff_exists_mem] at failed
  obtain ⟨⟨here, row⟩, listed⟩ := failed
  obtain ⟨stored, selected⟩ := (Table.mem_select _ _ here row).mp listed
  obtain rfl := selected_id rfl selected
  exact ⟨row, stored, selected⟩

theorem abandon_rows_kept (slashId : WorkItemId) {s : WorkState} {error : String}
    (failed : (markWorkFailed leaseKeyOf (claimWorkForExecution leaseKeyOf s id leaseEpoch).2 id error leaseEpoch).1 = true) :
    RowsKept slashId s (markWorkFailed leaseKeyOf (claimWorkForExecution leaseKeyOf s id leaseEpoch).2 id error leaseEpoch).2 := by
  have claimItems := claim_items leaseKeyOf s id leaseEpoch
  generalize claimed : (claimWorkForExecution leaseKeyOf s id leaseEpoch).2 = work at claimItems failed
  have items := transition_items leaseKeyOf work (failedSpec id error leaseEpoch)
  obtain ⟨failedRow, storedFailed, fails⟩ := marked_failed failed
  refine @rows_kept_map slashId _ _ (fun here row =>
    (fun row => if (failedSpec id error leaseEpoch).selects leaseKeyOf work here row then
      (failedSpec id error leaseEpoch).assign work.now row else row)
    (if (claimSpec id leaseEpoch).selects leaseKeyOf s here row then (claimSpec id leaseEpoch).assign s.now row else row))
    ?_ ?_
  · intro here
    rw [markWorkFailed, items, claimItems, Option.map_map]
    rfl
  · intro here row stored
    dsimp only
    by_cases same : here = id
    · subst same
      rw [claimItems, stored, Option.map_some] at storedFailed
      rw [Option.some.inj storedFailed, if_pos fails, ← Option.some.inj storedFailed]
      have running : failedRow.status = .running := by simpa [failedSpec] using selected_status fails
      by_cases claims : (claimSpec here leaseEpoch).selects leaseKeyOf s here row = true
      · rw [if_pos claims]
        refine ⟨rfl, rfl, rfl, by simp [TransitionSpec.assign, claimSpec, failedSpec], .inr ⟨?_, .inr (.inl rfl)⟩⟩
        simpa [claimSpec] using selected_status claims
      · rw [if_neg claims] at storedFailed ⊢
        obtain rfl := Option.some.inj storedFailed
        exact ⟨rfl, rfl, rfl, by simp [TransitionSpec.assign, failedSpec], .inr ⟨.inr running, .inr (.inl rfl)⟩⟩
    · have unclaimed : ¬(claimSpec id leaseEpoch).selects leaseKeyOf s here row = true :=
        fun selected => same (selected_id rfl selected)
      have unfailed : ¬(failedSpec id error leaseEpoch).selects leaseKeyOf work here row = true :=
        fun selected => same (selected_id rfl selected)
      rw [if_neg unclaimed, if_neg unfailed]
      exact row_kept_refl slashId here row

end Claims

end PrAgent
