import PrAgent.PublishRecord
set_option autoImplicit false

namespace PrAgent

theorem owned_of_held {s : LeaseState} {workItemId : WorkItemId} {leaseEpoch : Nat}
    (held : s.held workItemId leaseEpoch = true) : s.owned workItemId leaseEpoch = true := owns_of_held held

theorem held_of_passes {fence : StatementFence} {s : LeaseState} {workItemId : WorkItemId} {leaseEpoch : Nat}
    (passes : fence.passes s workItemId (some leaseEpoch) = true) : s.owned workItemId leaseEpoch = true := by
  cases fence with
  | unexpired => exact owned_of_held passes
  | epochOnly => exact passes

section Statements

variable (statement : FencedStatement) (before after : LeaseState) (db : PublishDb)

theorem run_unwritten (unwritten : statement.writes db = false) : (statement.run before after db).2 = db := by
  unfold FencedStatement.run
  by_cases lost : (statement.before && !before.fenced statement.workItemId statement.leaseEpoch) = true
  · rw [if_pos lost]
  · rw [if_neg lost, if_neg (by simp [unwritten])]
    by_cases rejected : (statement.rejected && !after.fenced statement.workItemId statement.leaseEpoch) = true
    · rw [if_pos rejected]
    · rw [if_neg rejected]
      cases statement.unwritten with
      | none => rfl
      | some error => rfl

theorem written_of_ok (ok : (statement.run before after db).1 = .ok true) :
    (statement.run before after db).2 = statement.change db := by
  unfold FencedStatement.run at ok ⊢
  by_cases lost : (statement.before && !before.fenced statement.workItemId statement.leaseEpoch) = true
  · rw [if_pos lost] at ok
    cases ok
  · rw [if_neg lost] at ok ⊢
    by_cases writes : statement.writes db = true
    · rw [if_pos writes]
    · rw [if_neg writes] at ok
      by_cases rejected : (statement.rejected && !after.fenced statement.workItemId statement.leaseEpoch) = true
      · rw [if_pos rejected] at ok
        cases ok
      · rw [if_neg rejected] at ok
        cases unwritten : statement.unwritten with
        | none =>
            rw [unwritten] at ok
            cases ok
        | some error =>
            rw [unwritten] at ok
            cases ok

-- A statement whose epoch the lease row no longer carries changes no row.
theorem run_unowned {leaseEpoch : Nat} (leased : statement.leaseEpoch = some leaseEpoch)
    (lost : db.owned statement.workItemId leaseEpoch = false) : (statement.run before after db).2 = db := by
  apply run_unwritten
  by_cases passes : statement.fence.passes db.toLeaseState statement.workItemId statement.leaseEpoch = true
  · rw [leased] at passes
    rw [held_of_passes passes] at lost
    cases lost
  · simp [FencedStatement.writes, passes]

-- The operation writes only under a lease that is held and unexpired when its statement runs; otherwise it leaves the
-- rows alone and reports the lease lost.
def FencedStatement.HonoursExpiry (leaseEpoch : Nat) : Prop :=
  ((statement.run before after db).2 ≠ db → db.held statement.workItemId leaseEpoch = true) ∧
  (db.held statement.workItemId leaseEpoch = false →
    (statement.run before after db).2 = db ∧ (statement.run before after db).1 = .error .prActorLeaseLost)

-- When it does.
def FencedStatement.CaughtLapse (leaseEpoch : Nat) : Prop :=
  db.held statement.workItemId leaseEpoch = true ∨ before.held statement.workItemId leaseEpoch = false ∨
    statement.rejected = true ∧ after.held statement.workItemId leaseEpoch = false ∧
      (statement.fence.passes db.toLeaseState statement.workItemId (some leaseEpoch) = false ∨ statement.finds db = false)

variable {statement} {leaseEpoch : Nat}

theorem caught_of_honours (leased : statement.leaseEpoch = some leaseEpoch)
    (distinct : statement.unwritten ≠ some .prActorLeaseLost)
    (honours : statement.HonoursExpiry before after db leaseEpoch) : statement.CaughtLapse before after db leaseEpoch := by
  cases heldNow : db.held statement.workItemId leaseEpoch with
  | true => exact .inl heldNow
  | false =>
      have told := (honours.2 heldNow).2
      cases heldBefore : before.held statement.workItemId leaseEpoch with
      | false => exact .inr (.inl heldBefore)
      | true =>
          right; right
          have passed : ¬(statement.before && !before.fenced statement.workItemId statement.leaseEpoch) = true := by
            simp [leased, LeaseState.fenced, heldBefore]
          rw [FencedStatement.run, if_neg passed] at told
          cases written : statement.writes db with
          | true =>
              rw [if_pos written] at told
              cases told
          | false =>
              rw [if_neg (by simp [written])] at told
              have missed : statement.fence.passes db.toLeaseState statement.workItemId (some leaseEpoch) = false ∨
                  statement.finds db = false := by
                rw [FencedStatement.writes, Bool.and_eq_false_iff, leased] at written
                exact written
              by_cases rejects : (statement.rejected && !after.fenced statement.workItemId statement.leaseEpoch) = true
              · simp only [leased, LeaseState.fenced, Bool.and_eq_true, Bool.not_eq_true'] at rejects
                exact ⟨rejects.1, rejects.2, missed⟩
              · rw [if_neg rejects] at told
                cases unwritten : statement.unwritten with
                | none =>
                    rw [unwritten] at told
                    cases told
                | some error =>
                    rw [unwritten] at told
                    injection told with same
                    rw [unwritten, same] at distinct
                    exact absurd rfl distinct

theorem honours_of_caught (leased : statement.leaseEpoch = some leaseEpoch) (asserts : statement.before = true)
    (caught : statement.CaughtLapse before after db leaseEpoch) : statement.HonoursExpiry before after db leaseEpoch := by
  cases heldNow : db.held statement.workItemId leaseEpoch with
  | true => exact ⟨fun _ => heldNow, fun lost => by rw [heldNow] at lost; cases lost⟩
  | false =>
      have unchanged : (statement.run before after db).2 = db ∧
          (statement.run before after db).1 = .error .prActorLeaseLost := by
        rcases caught with held | lostBefore | ⟨rejected, lostAfter, missed⟩
        · rw [heldNow] at held
          cases held
        · have lost : (statement.before && !before.fenced statement.workItemId statement.leaseEpoch) = true := by
            simp [leased, asserts, LeaseState.fenced, lostBefore]
          rw [FencedStatement.run, if_pos lost]
          exact ⟨rfl, rfl⟩
        · have unwritten : statement.writes db = false := by
            rw [FencedStatement.writes, Bool.and_eq_false_iff, leased]
            exact missed
          refine ⟨run_unwritten statement before after db unwritten, ?_⟩
          by_cases lost : (statement.before && !before.fenced statement.workItemId statement.leaseEpoch) = true
          · rw [FencedStatement.run, if_pos lost]
          · have rejects : (statement.rejected && !after.fenced statement.workItemId statement.leaseEpoch) = true := by
              simp [leased, rejected, LeaseState.fenced, lostAfter]
            rw [FencedStatement.run, if_neg lost, if_neg (by simp [unwritten]), if_pos rejects]
      exact ⟨fun changed => absurd unchanged.1 changed, fun _ => unchanged⟩

end Statements

-- The operations on publish records that take a lease epoch, each with the statement it commits.
inductive PublishWrite
  | claimSummaryCommentCreation (workItemId : WorkItemId) (leaseEpoch : Option Nat) (resourceKey : ResourceKey)
      (reviewLens : ReviewLens)
  | recordPublishStep (workItemId : WorkItemId) (leaseEpoch : Option Nat) (key : SharedStepKey) (githubId : Option Nat)
      (detail : JsonFields)
  | recordAskPublishStep (workItemId : WorkItemId) (leaseEpoch : Option Nat) (resourceKey : ResourceKey)
      (githubId : Option Nat) (detail : JsonFields)
  | recordOwnVerdictSurfaceState (params : OwnVerdictIdentity) (selected : SelectedOwnVerdict)
      (surface : OwnVerdictSurface) (state : OpenSurfaceState)
  | reconcileSavedOwnVerdictAcceptance (params : OwnVerdictIdentity)
  | insertOwnVerdict (params : OwnVerdictIdentity) (selected : SelectedOwnVerdict)
  | enrichOwnVerdict (params : OwnVerdictIdentity) (selected : SelectedOwnVerdict) (status : SelectedOwnStatus)
      (statusAlreadyApplied : Bool)
  | recordOwnVerdictSurfaceApplied (params : OwnVerdictIdentity) (selected : SelectedOwnVerdict)
      (surface : OwnVerdictSurface)
  | reserveReviewCheckRun (params : OwnVerdictIdentity) (detail : CheckRunDetail)
  | recordReviewCheckRun (params : OwnVerdictIdentity) (githubId : Nat) (detail : CheckRunDetail)
  | releaseUnstartedReviewCheckRunReservation (params : OwnVerdictIdentity) (staleBefore : Option Nat)

variable (leaseKeyOf : WorkItemId → LeaseKey)

def PublishWrite.statement : PublishWrite → FencedStatement
  | .claimSummaryCommentCreation workItemId leaseEpoch resourceKey reviewLens =>
    PrAgent.claimSummaryCommentCreation workItemId leaseEpoch resourceKey reviewLens
  | .recordPublishStep workItemId leaseEpoch key githubId detail =>
    PrAgent.recordPublishStep workItemId leaseEpoch key githubId detail
  | .recordAskPublishStep workItemId leaseEpoch resourceKey githubId detail =>
    PrAgent.recordAskPublishStep workItemId leaseEpoch resourceKey githubId detail
  | .recordOwnVerdictSurfaceState params selected surface state =>
    PrAgent.recordOwnVerdictSurfaceState params selected surface state
  | .reconcileSavedOwnVerdictAcceptance params => PrAgent.reconcileSavedOwnVerdictAcceptance params
  | .insertOwnVerdict params selected => PrAgent.insertOwnVerdict leaseKeyOf params selected
  | .enrichOwnVerdict params selected status statusAlreadyApplied =>
    PrAgent.enrichOwnVerdict params selected status statusAlreadyApplied
  | .recordOwnVerdictSurfaceApplied params selected surface =>
    PrAgent.recordOwnVerdictSurfaceApplied params selected surface
  | .reserveReviewCheckRun params detail => PrAgent.reserveReviewCheckRun params detail
  | .recordReviewCheckRun params githubId detail => PrAgent.recordReviewCheckRun params githubId detail
  | .releaseUnstartedReviewCheckRunReservation params staleBefore =>
    PrAgent.releaseUnstartedReviewCheckRunReservation params staleBefore

-- Every one asserts the lease first, and none reports a lost lease for any other reason.
theorem publish_write_asserts (write : PublishWrite) :
    (write.statement leaseKeyOf).before = true ∧ (write.statement leaseKeyOf).unwritten ≠ some .prActorLeaseLost := by
  cases write with
  | recordPublishStep workItemId leaseEpoch key githubId detail =>
      refine ⟨rfl, ?_⟩
      by_cases progress : key.step = .progressComment
      · simp [PublishWrite.statement, recordPublishStep, progress]
      · simp [PublishWrite.statement, recordPublishStep, progress]
  | claimSummaryCommentCreation workItemId leaseEpoch resourceKey reviewLens => exact ⟨rfl, fun same => by cases same⟩
  | recordAskPublishStep workItemId leaseEpoch resourceKey githubId detail => exact ⟨rfl, fun same => by cases same⟩
  | recordOwnVerdictSurfaceState params selected surface state => exact ⟨rfl, fun same => by cases same⟩
  | reconcileSavedOwnVerdictAcceptance params => exact ⟨rfl, fun same => by cases same⟩
  | insertOwnVerdict params selected => exact ⟨rfl, fun same => by cases same⟩
  | enrichOwnVerdict params selected status applied => exact ⟨rfl, fun same => by cases same⟩
  | recordOwnVerdictSurfaceApplied params selected surface => exact ⟨rfl, fun same => by cases same⟩
  | reserveReviewCheckRun params detail => exact ⟨rfl, fun same => by cases same⟩
  | recordReviewCheckRun params githubId detail => exact ⟨rfl, fun same => by cases same⟩
  | releaseUnstartedReviewCheckRunReservation params staleBefore => exact ⟨rfl, fun same => by cases same⟩

theorem publish_write_honours_expiry_iff (write : PublishWrite) (leaseEpoch : Nat)
    (leased : (write.statement leaseKeyOf).leaseEpoch = some leaseEpoch) (before after : LeaseState) (db : PublishDb) :
    (write.statement leaseKeyOf).HonoursExpiry before after db leaseEpoch ↔
      (write.statement leaseKeyOf).CaughtLapse before after db leaseEpoch := by
  obtain ⟨asserts, distinct⟩ := publish_write_asserts leaseKeyOf write
  exact ⟨caught_of_honours before after db leased distinct, honours_of_caught before after db leased asserts⟩

section Histories

def reviewedSurface : WorkItemId → LeaseKey := fun _ => ⟨0, .review⟩

def verdictIdentity : OwnVerdictIdentity := ⟨1, 0, .review, some 1⟩

-- Work item 1 holds the lease until 30; then it runs out; then it is renewed.
def heldLease : LeaseState := LeaseMove.apply reviewedSurface ⟨0, Table.empty⟩ (.acquire 1 0 30)

def lapsedLease : LeaseState := LeaseMove.apply reviewedSurface heldLease (.elapse 30)

def renewedLease : LeaseState := LeaseMove.apply reviewedSurface lapsedLease (.renew ⟨0, .review⟩ 1 30 1)

def lapsedDb : PublishDb :=
  ⟨⟨lapsedLease, Table.empty⟩, Table.empty, Table.empty, Table.empty, Table.empty⟩

-- A check run is recorded under a lease that has run out; a surface state is dropped in a lapse without a word; and a
-- renewal after the statement hides the lapse from `recordPublishStep`.
theorem publish_writes_miss_lapses :
    (lapsedDb.held 1 1 = false ∧
      ((recordReviewCheckRun verdictIdentity 5 savedCheckRunDetail).run heldLease lapsedLease lapsedDb).1 = .ok true ∧
      ¬(recordReviewCheckRun verdictIdentity 5 savedCheckRunDetail).HonoursExpiry heldLease lapsedLease lapsedDb 1) ∧
    ¬(recordOwnVerdictSurfaceState verdictIdentity ⟨.success, "", none, none⟩ .check .blocked).HonoursExpiry
      heldLease lapsedLease lapsedDb 1 ∧
    ¬(recordPublishStep 1 (some 1) ⟨0, .lens .review, .summaryComment⟩ (some 5) Table.empty).HonoursExpiry
      heldLease renewedLease lapsedDb 1 := by
  have lapsed : lapsedDb.held 1 1 = false := by decide
  refine ⟨⟨lapsed, rfl, ?_⟩, ?_, ?_⟩
  · intro honours
    cases (honours.2 lapsed).2
  · intro honours
    cases (honours.2 lapsed).2
  · intro honours
    cases (honours.2 lapsed).2

-- With no renewal the same step is refused and reported.
theorem publish_step_refused_after_lapse :
    (recordPublishStep 1 (some 1) ⟨0, .lens .review, .summaryComment⟩ (some 5) Table.empty).HonoursExpiry
      heldLease lapsedLease lapsedDb 1 := by
  have lost : lapsedLease.held 1 1 = false := by decide
  have unfenced : StatementFence.passes .unexpired lapsedDb.toLeaseState 1 (some 1) = false := by decide
  exact (publish_write_honours_expiry_iff reviewedSurface
    (.recordPublishStep 1 (some 1) ⟨0, .lens .review, .summaryComment⟩ (some 5) Table.empty) 1 rfl heldLease lapsedLease
    lapsedDb).mpr (.inr (.inr ⟨rfl, lost, .inl unfenced⟩))

end Histories
end PrAgent
