import PrAgent.OwnVerdictInvariant
import PrAgent.WorkItemRuns
set_option autoImplicit false

namespace PrAgent

def OwnVerdictSurface.other : OwnVerdictSurface → OwnVerdictSurface
  | .check => .status
  | .status => .check

-- When a statement that writes leaves the status of a selected row right. `recordOwnVerdictSurfaceState` does not
-- compute it; a recorded check run always sets it to `in_progress`; an enriched selection resets it unless the commit
-- status is applied.
def VerdictWrite.ConcludesOn (row : CheckRunRecord) : VerdictWrite → Prop
  | .surfaceState selected surface .skippedForThisRun =>
    row.detail.resolvedFor selected surface = true ∨ row.detail.resolvedFor selected surface.other = false
  | .record _ _ => ∀ selected, row.detail.selectedOwnVerdict = some selected →
    ¬(row.detail.resolvedFor selected .check = true ∧ row.detail.resolvedFor selected .status = true)
  | .enrich selected status statusAlreadyApplied =>
    ownVerdictStatusApplicable (enrichedOwnVerdict selected status) = true → row.detail.surfaceResolved .check = true →
      statusAlreadyApplied = row.detail.surfaceResolved .status
  | _ => True

section Changes

variable {params : OwnVerdictIdentity} {write : VerdictWrite} {old new : CheckRunRecord}

theorem resolvedFor_of_receipts {old new : CheckRunDetail} (same : ∀ surface, new.receipt surface = old.receipt surface)
    (selected : SelectedOwnVerdict) (surface : OwnVerdictSurface) :
    new.resolvedFor selected surface = old.resolvedFor selected surface := by
  cases surface with
  | check => exact resolved_of_receipt (same .check)
  | status => simp only [CheckRunDetail.resolvedFor, resolved_of_receipt (same .status)]

-- A row whose status is not `completed` and whose check is unresolved.
theorem concluded_of_open_check (uncompleted : new.detail.status ≠ some .completed)
    (unresolved : new.detail.surfaceResolved .check = false) : new.Concluded := by
  intro selected _
  refine iff_of_false uncompleted fun resolved => ?_
  rw [CheckRunDetail.resolvedFor, unresolved] at resolved
  cases resolved.1

variable {surface : OwnVerdictSurface}

theorem unresolved_of_bare (bare : new.detail.receipt surface = {}) :
    new.detail.surfaceResolved surface = false := by
  rw [CheckRunDetail.surfaceResolved, bare]
  rfl

variable {selected : SelectedOwnVerdict}

theorem enriched_concluded {status : SelectedOwnStatus} {statusAlreadyApplied : Bool}
    (concluded : old.Concluded) (found : old.detail.selectedOwnVerdict = some { selected with status := none })
    (concludes : (VerdictWrite.enrich selected status statusAlreadyApplied).ConcludesOn old)
    (change : new.detail = old.detail.merge
      { selectedOwnVerdict := some (enrichedOwnVerdict selected status),
        status := if (ownVerdictStatusApplicable (enrichedOwnVerdict selected status) && !statusAlreadyApplied) = true
          then some .inProgress else none }) : new.Concluded := by
  obtain ⟨receipts, detailStatus, chosen⟩ := enriched_keeps change
  have before : old.detail.status = some .completed ↔ old.detail.surfaceResolved .check = true := by
    rw [concluded _ found]
    exact ⟨fun resolved => resolved.1, fun resolved => ⟨resolved, rfl⟩⟩
  intro other foundOther
  obtain rfl := Option.some.inj (chosen.symm.trans foundOther)
  rw [resolvedFor_of_receipts receipts, resolvedFor_of_receipts receipts, detailStatus]
  cases applicable : ownVerdictStatusApplicable (enrichedOwnVerdict selected status) with
  | false => simpa [applicable, CheckRunDetail.resolvedFor] using before
  | true =>
      have agrees := concludes applicable
      cases statusAlreadyApplied with
      | true =>
          simp only [applicable, CheckRunDetail.resolvedFor, Bool.not_true, Bool.and_false, Bool.false_eq_true, if_false,
            Option.none_or, Bool.false_or, before]
          exact ⟨fun resolved => ⟨resolved, (agrees resolved).symm⟩, fun resolved => resolved.1⟩
      | false =>
          refine iff_of_false (by simp) fun resolved => ?_
          have unresolved := agrees resolved.1
          simp [CheckRunDetail.resolvedFor, applicable, ← unresolved] at resolved

theorem stated_resolved {state : OpenSurfaceState} (sound : old.Sound) (unapplied : (old.detail.receipt surface).state ≠ some .applied)
    (detail : new.detail = old.detail.merge (.ofReceipt { state := some state.toState } surface))
    (other : OwnVerdictSurface) : new.detail.surfaceResolved other =
      if other = surface then decide (state = .skippedForThisRun) else old.detail.surfaceResolved other := by
  have receipt := stated_receipt detail other
  by_cases same : other = surface
  · subst same
    rw [if_pos rfl] at receipt ⊢
    have bare : (old.detail.receipt other).applied ≠ some true := fun applied =>
      unapplied ((sound.receipts other).mp applied)
    rw [CheckRunDetail.surfaceResolved, receipt]
    cases state with
    | skippedForThisRun => simp [OpenSurfaceState.toState]
    | blocked => simp [OpenSurfaceState.toState, bare]
    | unresolved => simp [OpenSurfaceState.toState, bare]
  · rw [if_neg same] at receipt ⊢
    exact resolved_of_receipt receipt

theorem stated_concluded {state : OpenSurfaceState}
    (sound : old.Sound) (concluded : old.Concluded) (found : old.detail.selectedOwnVerdict = some selected)
    (unapplied : (old.detail.receipt surface).state ≠ some .applied)
    (open_ : (old.detail.receipt surface).state ≠ some .skippedForThisRun)
    (concludes : (VerdictWrite.surfaceState selected surface state).ConcludesOn old)
    (detail : new.detail = old.detail.merge (.ofReceipt { state := some state.toState } surface)) : new.Concluded := by
  have before := concluded selected found
  have resolved := stated_resolved sound unapplied detail
  have unresolved := unresolved_of_open sound unapplied open_
  have status : new.detail.status = old.detail.status := by
    rw [detail, merge_detail_status, (ofReceipt_rest surface _).2.1]
    rfl
  intro other foundOther
  have same : new.detail.selectedOwnVerdict = some selected := by
    rw [detail, merge_selected, (ofReceipt_rest surface _).1]
    exact found
  obtain rfl := Option.some.inj (same.symm.trans foundOther)
  rw [status, before]
  cases surface with
  | check =>
      simp only [CheckRunDetail.resolvedFor, resolved, if_true, unresolved, reduceCtorEq, if_false]
      cases state with
      | skippedForThisRun =>
          have statusOpen : old.detail.resolvedFor selected .status = false := by
            cases concludes with
            | inl checkResolved =>
                rw [CheckRunDetail.resolvedFor, unresolved] at checkResolved
                cases checkResolved
            | inr statusOpen => exact statusOpen
          simp only [CheckRunDetail.resolvedFor] at statusOpen
          simp [statusOpen]
      | blocked => simp
      | unresolved => simp
  | status =>
      simp only [CheckRunDetail.resolvedFor, resolved, if_true, unresolved, reduceCtorEq, if_false, Bool.or_false]
      cases applicable : ownVerdictStatusApplicable selected with
      | false => simp
      | true =>
          cases state with
          | skippedForThisRun =>
              have checkOpen : old.detail.surfaceResolved .check = false := by
                cases concludes with
                | inl statusResolved => simp [CheckRunDetail.resolvedFor, applicable, unresolved] at statusResolved
                | inr checkOpen => exact checkOpen
              simp [checkOpen]
          | blocked => simp
          | unresolved => simp

theorem applied_concluded {now : Nat} (found : old.detail.selectedOwnVerdict = some selected)
    (detail : new.detail = (old.detail.merge (appliedPatch now selected surface)).merge
      { status := some (appliedDetailStatus old.detail selected surface) }) : new.Concluded := by
  have resolved : ∀ other, new.detail.surfaceResolved other =
      if other = surface then true else old.detail.surfaceResolved other := by
    intro other
    have receipt := applied_receipt detail other
    by_cases same : other = surface
    · rw [if_pos same] at receipt ⊢
      rw [CheckRunDetail.surfaceResolved, receipt]
      rfl
    · rw [if_neg same] at receipt ⊢
      exact resolved_of_receipt receipt
  have status : new.detail.status = some (appliedDetailStatus old.detail selected surface) := by
    rw [detail]
    rfl
  have same : new.detail.selectedOwnVerdict = some selected := by
    rw [detail, merge_selected, merge_selected, appliedPatch_selected, found]
    rfl
  intro other foundOther
  obtain rfl := Option.some.inj (same.symm.trans foundOther)
  rw [status]
  cases applicable : ownVerdictStatusApplicable selected with
  | false =>
      cases surface with
      | check => simp [appliedDetailStatus, CheckRunDetail.resolvedFor, resolved, applicable]
      | status => simp [appliedDetailStatus, CheckRunDetail.resolvedFor, resolved, applicable]
  | true =>
      cases surface with
      | check => simp [appliedDetailStatus, CheckRunDetail.resolvedFor, resolved, applicable]
      | status => simp [appliedDetailStatus, CheckRunDetail.resolvedFor, resolved]

theorem change_concluded (sound : old.Sound) (concluded : old.Concluded) (concludes : write.ConcludesOn old)
    (change : CheckRunChange params write (some old) (some new)) : new.Concluded := by
  cases change with
  | unwritten => exact concluded
  | claimed selected _ _ unselected unclosed detail github =>
      obtain ⟨receipts, status, _⟩ := claimed_keeps detail
      obtain ⟨bare, uncompleted⟩ := sound.unselected unselected unclosed
      apply concluded_of_open_check
      · rw [status]
        exact uncompleted
      · exact unresolved_of_bare ((receipts .check).trans (bare .check))
  | enriched selected status statusAlreadyApplied _ _ found detail github =>
      exact enriched_concluded concluded found concludes detail
  | stated selected surface state _ _ found open_ detail github =>
      exact stated_concluded sound concluded found open_.1 open_.2 concludes detail
  | applied selected surface now _ _ found accepted open_ detail github => exact applied_concluded found detail
  | reserved headSha name recovered _ _ absent selected open_ detail github =>
      have keeps := starting_keeps detail github
      apply concluded_of_open_check
      · rw [detail]
        exact fun completed => nomatch completed
      · rw [resolved_of_receipt (keeps.receipt .check)]
        exact check_unresolved_of_unrecorded sound absent open_
  | recorded githubId created _ _ detail github =>
      have keeps := recorded_keeps detail github
      intro selected found
      rw [keeps.selected] at found
      rw [resolvedFor_of_receipts keeps.receipt, resolvedFor_of_receipts keeps.receipt]
      refine iff_of_false ?_ (concludes selected found)
      rw [detail, merge_detail_status, (recorded_detail params created).1]
      exact fun completed => nomatch completed
  | unreserved staleBefore _ _ starting detail github =>
      have keeps := unreserved_keeps detail github
      intro selected found
      rw [keeps.selected] at found
      rw [resolvedFor_of_receipts keeps.receipt, resolvedFor_of_receipts keeps.receipt, ← concluded selected found, starting,
        detail]
      exact iff_of_false (fun completed => nomatch completed) (fun completed => nomatch completed)

theorem inserted_concluded (change : CheckRunChange params write none (some new)) : new.Concluded := by
  cases change with
  | claimedFirst selected _ detail =>
      apply concluded_of_open_check
      · rw [detail]
        exact fun completed => nomatch completed
      · rw [detail]
        rfl
  | reservedFirst headSha name recovered _ detail =>
      intro selected found
      rw [detail] at found
      cases found
  | recordedFirst githubId created _ detail =>
      intro selected found
      rw [detail, (recorded_detail params created).2.1] at found
      cases found

end Changes

-- One statement of any caller on any check run, or anything else that happens to the database: check runs are written
-- by these statements only.
inductive VerdictEvent
  | write (params : OwnVerdictIdentity) (write : VerdictWrite) (before after : LeaseState)
  | elsewhere (state : WorkState) (shared : Table SharedStepKey SharedRecord) (asks : Table WorkItemId AskRecord)
      (intents : Table IntentKey OwnVerdictIntent)

variable (leaseKeyOf : WorkItemId → LeaseKey)

def verdictStep (db : PublishDb) : VerdictEvent → Option PublishDb
  | .write params write before after => some (((write.toPublishWrite params).statement leaseKeyOf).run before after db).2
  | .elsewhere state shared asks intents => some ⟨state, shared, asks, db.checkRuns, intents⟩

def ConcludingEvent (db : PublishDb) : VerdictEvent → Prop
  | .write params write _ _ => ((write.toPublishWrite params).statement leaseKeyOf).writes db = true →
      ∀ row, db.checkRuns.get? params.key = some row → write.ConcludesOn row
  | .elsewhere _ _ _ _ => True

def PublishDb.CheckRunsSound (db : PublishDb) : Prop := ∀ key row, db.checkRuns.get? key = some row → row.Sound

def PublishDb.CheckRunsConcluded (db : PublishDb) : Prop := ∀ key row, db.checkRuns.get? key = some row → row.Concluded

-- Rows with a selection stay, and follow their earlier versions.
def PublishDb.CheckRunsFollow (s t : PublishDb) : Prop :=
  ∀ key row, s.checkRuns.get? key = some row → row.detail.selectedOwnVerdict.isSome = true →
    ∃ new, t.checkRuns.get? key = some new ∧ row.Follows new

section Steps

variable {leaseKeyOf} {s t u : PublishDb}

theorem check_runs_follow_refl (s : PublishDb) : s.CheckRunsFollow s :=
  fun _ row stored _ => ⟨row, stored, check_run_follows_refl row⟩

theorem check_runs_follow_trans (first : s.CheckRunsFollow t) (second : t.CheckRunsFollow u) : s.CheckRunsFollow u := by
  intro key row stored selected
  obtain ⟨mid, storedMid, followsMid⟩ := first key row stored selected
  have selectedMid : mid.detail.selectedOwnVerdict.isSome = true := by
    obtain ⟨verdict, found⟩ := Option.isSome_iff_exists.mp selected
    obtain ⟨later, foundLater, _⟩ := followsMid.verdict verdict found
    rw [foundLater]
    rfl
  obtain ⟨new, storedNew, followsNew⟩ := second key mid storedMid selectedMid
  exact ⟨new, storedNew, check_run_follows_trans followsMid followsNew⟩

theorem write_sound (sound : s.CheckRunsSound) (params : OwnVerdictIdentity) (write : VerdictWrite) (before after : LeaseState) :
    (((write.toPublishWrite params).statement leaseKeyOf).run before after s).2.CheckRunsSound := by
  intro key new storedNew
  by_cases same : key = params.key
  · subst same
    have change := verdict_write_change leaseKeyOf params s write before after
    rw [storedNew] at change
    cases stored : s.checkRuns.get? params.key with
    | none =>
        rw [stored] at change
        exact inserted_sound change
    | some old =>
        rw [stored] at change
        exact change_sound (sound _ _ stored) change
  · rw [verdict_write_other leaseKeyOf params s write before after same] at storedNew
    exact sound key new storedNew

theorem write_follows (sound : s.CheckRunsSound) (params : OwnVerdictIdentity) (write : VerdictWrite) (before after : LeaseState) :
    s.CheckRunsFollow (((write.toPublishWrite params).statement leaseKeyOf).run before after s).2 := by
  intro key old stored selected
  by_cases same : key = params.key
  · subst same
    have change := verdict_write_change leaseKeyOf params s write before after
    rw [stored] at change
    generalize (((write.toPublishWrite params).statement leaseKeyOf).run before after s).2.checkRuns.get? params.key =
      row at change
    cases row with
    | none =>
        -- Only a row without a selection is deleted.
        cases change with
        | released _ _ unselected =>
            rw [unselected] at selected
            cases selected
    | some new => exact ⟨new, rfl, change_follows (sound _ _ stored) change⟩
  · rw [verdict_write_other leaseKeyOf params s write before after same]
    exact ⟨old, stored, check_run_follows_refl old⟩

theorem write_concluded (sound : s.CheckRunsSound) (concluded : s.CheckRunsConcluded) (params : OwnVerdictIdentity)
    (write : VerdictWrite) (before after : LeaseState)
    (concludes : ConcludingEvent leaseKeyOf s (.write params write before after)) :
    (((write.toPublishWrite params).statement leaseKeyOf).run before after s).2.CheckRunsConcluded := by
  have change := verdict_write_change leaseKeyOf params s write before after
  have others := fun key => @verdict_write_other leaseKeyOf params s write before after key
  rcases run_cases ((write.toPublishWrite params).statement leaseKeyOf) before after s with unchanged | ⟨writes, _⟩
  · rw [unchanged]
    exact concluded
  · intro key new storedNew
    by_cases same : key = params.key
    · subst same
      rw [storedNew] at change
      cases stored : s.checkRuns.get? params.key with
      | none =>
          rw [stored] at change
          exact inserted_concluded change
      | some old =>
          rw [stored] at change
          exact change_concluded (sound _ _ stored) (concluded _ _ stored) (concludes writes old stored) change
    · rw [others key same] at storedNew
      exact concluded key new storedNew

end Steps

section Runs

variable {leaseKeyOf} {s t : PublishDb}

-- What every run keeps, whatever its statements find.
theorem verdict_run_follows {allowed : PublishDb → VerdictEvent → Prop} (sound : s.CheckRunsSound)
    (run : Reaches (verdictStep leaseKeyOf) allowed s t) : t.CheckRunsSound ∧ s.CheckRunsFollow t := by
  induction run with
  | start => exact ⟨sound, check_runs_follow_refl s⟩
  | @next u _ event _ _ moved ih =>
      cases event with
      | write params write before after =>
          obtain rfl := Option.some.inj moved
          exact ⟨write_sound ih.1 params write before after,
            check_runs_follow_trans ih.2 (write_follows ih.1 params write before after)⟩
      | elsewhere state shared asks intents =>
          obtain rfl := Option.some.inj moved
          exact ih

end Runs

theorem first_selected_verdict_wins (s t : PublishDb) (sound : s.CheckRunsSound) (concluded : s.CheckRunsConcluded)
    (run : Reaches (verdictStep leaseKeyOf) (ConcludingEvent leaseKeyOf) s t) :
    t.CheckRunsSound ∧ t.CheckRunsConcluded ∧ s.CheckRunsFollow t := by
  obtain ⟨soundNow, follows⟩ := verdict_run_follows sound run
  refine ⟨soundNow, ?_, follows⟩
  have both : t.CheckRunsSound ∧ t.CheckRunsConcluded := by
    refine Reaches.invariant (fun db => db.CheckRunsSound ∧ db.CheckRunsConcluded) ⟨sound, concluded⟩ ?_ run
    intro db event after kept allowed moved
    cases event with
    | write params write before later =>
        obtain rfl := Option.some.inj moved
        exact ⟨write_sound kept.1 params write before later, write_concluded kept.1 kept.2 params write before later allowed⟩
    | elsewhere state shared asks intents =>
        obtain rfl := Option.some.inj moved
        exact kept
  exact both.2

section Histories

-- A completed review without a lease, and no check run yet.
def closedReviewDb : PublishDb where
  now := 0
  leases := Table.empty
  items := Table.empty.set 1 { (autoReview.row 0) with status := .completed }
  shared := Table.empty
  asks := Table.empty
  checkRuns := Table.empty
  ownVerdictIntents := Table.empty

def unleasedReview : OwnVerdictIdentity := ⟨1, 0, .review, none⟩

-- A verdict whose commit status is switched off.
def checkOnlyVerdict : SelectedOwnVerdict := ⟨.success, "No open findings.", none, some ⟨"a", false, .success⟩⟩

def VerdictWrite.event (write : VerdictWrite) : VerdictEvent := .write unleasedReview write ⟨0, Table.empty⟩ ⟨0, Table.empty⟩

def verdictRun (writes : List VerdictWrite) : PublishDb :=
  runTo (verdictStep reviewLeaseKey) (fun _ _ => decide True) (writes.map VerdictWrite.event) closedReviewDb closedReviewDb

-- The check is skipped for want of access, and the other surface does not apply: both are resolved, and the record is
-- never completed. And a check run recorded after completion reopens the record.
theorem resolved_verdict_stays_open :
    (∃ row, Reaches (verdictStep reviewLeaseKey) (fun _ _ => True) closedReviewDb
        (verdictRun [.claim checkOnlyVerdict, .surfaceState checkOnlyVerdict .check .skippedForThisRun]) ∧
      (verdictRun [.claim checkOnlyVerdict, .surfaceState checkOnlyVerdict .check .skippedForThisRun]).checkRuns.get?
        unleasedReview.key = some row ∧ ¬row.Concluded) ∧
    ∃ row, Reaches (verdictStep reviewLeaseKey) (fun _ _ => True) closedReviewDb
        (verdictRun [.record 5 none, .claim checkOnlyVerdict, .surfaceApplied checkOnlyVerdict .check, .record 5 none]) ∧
      (verdictRun [.record 5 none, .claim checkOnlyVerdict, .surfaceApplied checkOnlyVerdict .check,
        .record 5 none]).checkRuns.get? unleasedReview.key = some row ∧ ¬row.Concluded := by
  refine ⟨⟨_, reaches_runTo _ _ _ (by decide), rfl, ?_⟩, ⟨_, reaches_runTo _ _ _ (by decide), rfl, ?_⟩⟩
  · intro concluded
    have completed := (concluded checkOnlyVerdict rfl).mpr ⟨rfl, rfl⟩
    cases completed
  · intro concluded
    have completed := (concluded checkOnlyVerdict rfl).mpr ⟨rfl, rfl⟩
    cases completed

-- A verdict claimed on a recorded check run and applied to it is completed.
theorem applied_verdict_is_completed : ∃ row,
    (verdictRun [.record 5 none, .claim checkOnlyVerdict, .surfaceApplied checkOnlyVerdict .check]).checkRuns.get?
      unleasedReview.key = some row ∧ row.detail.status = some .completed ∧ row.githubId = some 5 := by
  let recorded := verdictRun [.record 5 none]
  let claimed := verdictRun [.record 5 none, .claim checkOnlyVerdict]
  let applied := verdictRun [.record 5 none, .claim checkOnlyVerdict, .surfaceApplied checkOnlyVerdict .check]
  have records : verdictStep reviewLeaseKey closedReviewDb (VerdictWrite.event (.record 5 none)) = some recorded := rfl
  have claims : verdictStep reviewLeaseKey recorded (VerdictWrite.event (.claim checkOnlyVerdict)) = some claimed := rfl
  have applies : verdictStep reviewLeaseKey claimed (VerdictWrite.event (.surfaceApplied checkOnlyVerdict .check)) =
      some applied := rfl
  have run : Reaches (verdictStep reviewLeaseKey) (ConcludingEvent reviewLeaseKey) closedReviewDb applied := by
    refine .next (.next (.next .start ?_ records) ?_ claims) ?_ applies
    · intro _ row stored
      cases stored
    · exact fun _ _ _ => trivial
    · exact fun _ _ _ => trivial
  have sound : closedReviewDb.CheckRunsSound := fun key row stored => by cases stored
  have concluded : closedReviewDb.CheckRunsConcluded := fun key row stored => by cases stored
  have states := first_selected_verdict_wins reviewLeaseKey closedReviewDb applied sound concluded run
  exact ⟨_, rfl, (states.2.1 unleasedReview.key _ rfl checkOnlyVerdict rfl).mpr ⟨rfl, rfl⟩, rfl⟩

end Histories
end PrAgent
