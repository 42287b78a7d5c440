import PrAgent.PublishFence
set_option autoImplicit false

namespace PrAgent

-- The statements on check runs, with the details their callers pass. `record` is given the head and the name of a
-- check run that was created or found, and neither for a saved result.
inductive VerdictWrite
  | claim (selected : SelectedOwnVerdict)
  | enrich (selected : SelectedOwnVerdict) (status : SelectedOwnStatus) (statusAlreadyApplied : Bool)
  | surfaceState (selected : SelectedOwnVerdict) (surface : OwnVerdictSurface) (state : OpenSurfaceState)
  | surfaceApplied (selected : SelectedOwnVerdict) (surface : OwnVerdictSurface)
  | reserve (headSha name : String) (recovered : Bool)
  | record (githubId : Nat) (created : Option (String × String))
  | release (staleBefore : Option Nat)

def recordedCheckRunDetail (params : OwnVerdictIdentity) : Option (String × String) → CheckRunDetail
  | some (headSha, name) => createdCheckRunDetail params headSha name
  | none => savedCheckRunDetail

def VerdictWrite.toPublishWrite (params : OwnVerdictIdentity) : VerdictWrite → PublishWrite
  | .claim selected => .insertOwnVerdict params selected
  | .enrich selected status statusAlreadyApplied => .enrichOwnVerdict params selected status statusAlreadyApplied
  | .surfaceState selected surface state => .recordOwnVerdictSurfaceState params selected surface state
  | .surfaceApplied selected surface => .recordOwnVerdictSurfaceApplied params selected surface
  | .reserve headSha name recovered =>
    .reserveReviewCheckRun params (startingCheckRunDetail params headSha name recovered)
  | .record githubId created => .recordReviewCheckRun params githubId (recordedCheckRunDetail params created)
  | .release staleBefore => .releaseUnstartedReviewCheckRunReservation params staleBefore

section Detail

variable (detail patch : CheckRunDetail) (surface : OwnVerdictSurface)

@[simp] theorem merge_selected :
    (detail.merge patch).selectedOwnVerdict = patch.selectedOwnVerdict.or detail.selectedOwnVerdict := rfl

@[simp] theorem merge_detail_status : (detail.merge patch).status = patch.status.or detail.status := rfl

@[simp] theorem merge_conclusion : (detail.merge patch).conclusion = patch.conclusion.or detail.conclusion := rfl

@[simp] theorem merge_receipt :
    (detail.merge patch).receipt surface = (detail.receipt surface).merge (patch.receipt surface) := by
  cases surface with
  | check => rfl
  | status => rfl

@[simp] theorem receipt_merge_empty (receipt : SurfaceReceipt) : receipt.merge {} = receipt := rfl

@[simp] theorem ofReceipt_receipt (receipt : SurfaceReceipt) (other : OwnVerdictSurface) :
    (CheckRunDetail.ofReceipt receipt surface).receipt other = if other = surface then receipt else {} := by
  cases surface with
  | check =>
      cases other with
      | check => rfl
      | status => rfl
  | status =>
      cases other with
      | check => rfl
      | status => rfl

@[simp] theorem ofReceipt_rest (receipt : SurfaceReceipt) :
    (CheckRunDetail.ofReceipt receipt surface).selectedOwnVerdict = none ∧
      (CheckRunDetail.ofReceipt receipt surface).status = none ∧
      (CheckRunDetail.ofReceipt receipt surface).conclusion = none := by
  cases surface with
  | check => exact ⟨rfl, rfl, rfl⟩
  | status => exact ⟨rfl, rfl, rfl⟩

@[simp] theorem appliedPatch_receipt (now : Nat) (selected : SelectedOwnVerdict) (other : OwnVerdictSurface) :
    (appliedPatch now selected surface).receipt other = if other = surface then ⟨some true, some .applied⟩ else {} := by
  cases surface with
  | check =>
      cases other with
      | check => rfl
      | status => rfl
  | status =>
      cases other with
      | check => rfl
      | status => rfl

@[simp] theorem appliedPatch_selected (now : Nat) (selected : SelectedOwnVerdict) :
    (appliedPatch now selected surface).selectedOwnVerdict = none := by
  cases surface with
  | check => rfl
  | status => rfl

end Detail

-- What a statement on check runs can do to the row under its key.
inductive CheckRunChange (params : OwnVerdictIdentity) :
    VerdictWrite → Option CheckRunRecord → Option CheckRunRecord → Prop
  | unwritten (write : VerdictWrite) (row : Option CheckRunRecord) : CheckRunChange params write row row
  | claimedFirst (selected : SelectedOwnVerdict) (new : CheckRunRecord)
      (detail : new.detail = { selectedOwnVerdict := some selected }) :
      CheckRunChange params (.claim selected) none (some new)
  | claimed (selected : SelectedOwnVerdict) (old new : CheckRunRecord)
      (unselected : old.detail.selectedOwnVerdict = none) (unclosed : old.detail.conclusion = none)
      (detail : new.detail = old.detail.merge { selectedOwnVerdict := some selected })
      (github : new.githubId = old.githubId) : CheckRunChange params (.claim selected) (some old) (some new)
  | enriched (selected : SelectedOwnVerdict) (status : SelectedOwnStatus) (statusAlreadyApplied : Bool)
      (old new : CheckRunRecord) (found : old.detail.selectedOwnVerdict = some { selected with status := none })
      (detail : new.detail = old.detail.merge
        { selectedOwnVerdict := some (enrichedOwnVerdict selected status),
          status := if (ownVerdictStatusApplicable (enrichedOwnVerdict selected status) && !statusAlreadyApplied) = true
            then some .inProgress else none })
      (github : new.githubId = old.githubId) :
      CheckRunChange params (.enrich selected status statusAlreadyApplied) (some old) (some new)
  | stated (selected : SelectedOwnVerdict) (surface : OwnVerdictSurface) (state : OpenSurfaceState)
      (old new : CheckRunRecord) (found : old.detail.selectedOwnVerdict = some selected)
      (open_ : (old.detail.receipt surface).state ≠ some .applied ∧
        (old.detail.receipt surface).state ≠ some .skippedForThisRun)
      (detail : new.detail = old.detail.merge (.ofReceipt { state := some state.toState } surface))
      (github : new.githubId = old.githubId) :
      CheckRunChange params (.surfaceState selected surface state) (some old) (some new)
  | applied (selected : SelectedOwnVerdict) (surface : OwnVerdictSurface) (now : Nat) (old new : CheckRunRecord)
      (found : old.detail.selectedOwnVerdict = some selected) (accepted : surface = .check → old.githubId.isSome = true)
      (open_ : (old.detail.receipt surface).state ≠ some .skippedForThisRun)
      (detail : new.detail = (old.detail.merge (appliedPatch now selected surface)).merge
        { status := some (appliedDetailStatus old.detail selected surface) })
      (github : new.githubId = old.githubId) :
      CheckRunChange params (.surfaceApplied selected surface) (some old) (some new)
  | reservedFirst (headSha name : String) (recovered : Bool) (new : CheckRunRecord)
      (detail : new.detail = startingCheckRunDetail params headSha name recovered) :
      CheckRunChange params (.reserve headSha name recovered) none (some new)
  | reserved (headSha name : String) (recovered : Bool) (old new : CheckRunRecord) (absent : old.githubId = none)
      (selected : old.detail.selectedOwnVerdict.isSome = true) (open_ : old.detail.ownCheck.state ≠ some .skippedForThisRun)
      (detail : new.detail = old.detail.merge (startingCheckRunDetail params headSha name recovered))
      (github : new.githubId = old.githubId) :
      CheckRunChange params (.reserve headSha name recovered) (some old) (some new)
  | recordedFirst (githubId : Nat) (created : Option (String × String)) (new : CheckRunRecord)
      (detail : new.detail = recordedCheckRunDetail params created) :
      CheckRunChange params (.record githubId created) none (some new)
  | recorded (githubId : Nat) (created : Option (String × String)) (old new : CheckRunRecord)
      (detail : new.detail = old.detail.merge (recordedCheckRunDetail params created))
      (github : new.githubId = some githubId) : CheckRunChange params (.record githubId created) (some old) (some new)
  | unreserved (staleBefore : Option Nat) (old new : CheckRunRecord) (starting : old.detail.status = some .starting)
      (detail : new.detail = old.detail.unreserved) (github : new.githubId = old.githubId) :
      CheckRunChange params (.release staleBefore) (some old) (some new)
  | released (staleBefore : Option Nat) (old : CheckRunRecord) (unselected : old.detail.selectedOwnVerdict = none) :
      CheckRunChange params (.release staleBefore) (some old) none

section Statements

variable {leaseKeyOf : WorkItemId → LeaseKey} {params : OwnVerdictIdentity} {db : PublishDb}

-- A call commits its statement's effect where the statement finds a row to write, and nothing otherwise.
theorem run_cases (statement : FencedStatement) (before after : LeaseState) (db : PublishDb) :
    (statement.run before after db).2 = db ∨
      (statement.writes db = true ∧ (statement.run before after db).2 = statement.change db) := by
  unfold FencedStatement.run
  by_cases lost : (statement.before && !before.fenced statement.workItemId statement.leaseEpoch) = true
  · rw [if_pos lost]
    exact .inl rfl
  · rw [if_neg lost]
    by_cases writes : statement.writes db = true
    · rw [if_pos writes]
      exact .inr ⟨writes, rfl⟩
    · rw [if_neg writes]
      left
      split
      · rfl
      · split
        · rfl
        · rfl

theorem finds_of_writes {statement : FencedStatement} (writes : statement.writes db = true) : statement.finds db = true := by
  rw [FencedStatement.writes, Bool.and_eq_true] at writes
  exact writes.2

theorem row_stored {row : CheckRunRecord} (found : params.row? db = some row) :
    db.checkRuns.get? params.key = some row ∧ row.resourceKey = params.resourceKey := by
  simpa [OwnVerdictIdentity.row?, Option.filter_eq_some_iff] using found

theorem any_row {p : CheckRunRecord → Bool} (found : (params.row? db).any p = true) :
    ∃ row, params.row? db = some row ∧ p row = true := by
  cases stored : params.row? db with
  | none =>
      rw [stored] at found
      cases found
  | some row =>
      rw [stored] at found
      exact ⟨row, rfl, found⟩

theorem update_row {row : CheckRunRecord} (found : params.row? db = some row) (assign : CheckRunRecord → CheckRunRecord) :
    (params.update db assign).checkRuns.get? params.key = some { assign row with updatedAt := db.now } := by
  simp [OwnVerdictIdentity.update, found]

theorem claim_change (selected : SelectedOwnVerdict)
    (finds : (insertOwnVerdict leaseKeyOf params selected).finds db = true) :
    CheckRunChange params (.claim selected) (db.checkRuns.get? params.key)
      (((insertOwnVerdict leaseKeyOf params selected).change db).checkRuns.get? params.key) := by
  simp only [insertOwnVerdict, Bool.and_eq_true] at finds
  simp only [insertOwnVerdict, Table.get?_set_self]
  cases stored : db.checkRuns.get? params.key with
  | none => exact .claimedFirst selected _ rfl
  | some old =>
      have matched := finds.2
      simp only [stored, Option.all_some, Bool.and_eq_true, Option.isNone_iff_eq_none] at matched
      exact .claimed selected old _ matched.1.2 matched.2 rfl rfl

theorem enrich_change (selected : SelectedOwnVerdict) (status : SelectedOwnStatus) (statusAlreadyApplied : Bool)
    (finds : (enrichOwnVerdict params selected status statusAlreadyApplied).finds db = true) :
    CheckRunChange params (.enrich selected status statusAlreadyApplied) (db.checkRuns.get? params.key)
      (((enrichOwnVerdict params selected status statusAlreadyApplied).change db).checkRuns.get? params.key) := by
  obtain ⟨row, found, matched⟩ := any_row finds
  rw [(row_stored found).1, enrichOwnVerdict, update_row found]
  exact .enriched selected status statusAlreadyApplied row _ (of_decide_eq_true matched) rfl rfl

theorem state_change (selected : SelectedOwnVerdict) (surface : OwnVerdictSurface) (state : OpenSurfaceState)
    (finds : (recordOwnVerdictSurfaceState params selected surface state).finds db = true) :
    CheckRunChange params (.surfaceState selected surface state) (db.checkRuns.get? params.key)
      (((recordOwnVerdictSurfaceState params selected surface state).change db).checkRuns.get? params.key) := by
  obtain ⟨row, found, matched⟩ := any_row finds
  simp only [Bool.and_eq_true, decide_eq_true_eq, List.mem_cons, List.not_mem_nil, or_false, not_or] at matched
  rw [(row_stored found).1, recordOwnVerdictSurfaceState, update_row found]
  exact .stated selected surface state row _ matched.1.1 matched.1.2 rfl rfl

theorem applied_change (selected : SelectedOwnVerdict) (surface : OwnVerdictSurface)
    (finds : (recordOwnVerdictSurfaceApplied params selected surface).finds db = true) :
    CheckRunChange params (.surfaceApplied selected surface) (db.checkRuns.get? params.key)
      (((recordOwnVerdictSurfaceApplied params selected surface).change db).checkRuns.get? params.key) := by
  obtain ⟨row, found, matched⟩ := any_row finds
  simp only [Bool.and_eq_true, Bool.or_eq_true, decide_eq_true_eq, ne_eq] at matched
  rw [(row_stored found).1, recordOwnVerdictSurfaceApplied, update_row found]
  refine .applied selected surface db.now row _ matched.1.1 ?_ matched.2 rfl rfl
  intro check
  cases matched.1.2 with
  | inl other => exact absurd check other
  | inr accepted => exact accepted

theorem reserve_change (headSha name : String) (recovered : Bool)
    (finds : (reserveReviewCheckRun params (startingCheckRunDetail params headSha name recovered)).finds db = true) :
    CheckRunChange params (.reserve headSha name recovered) (db.checkRuns.get? params.key)
      (((reserveReviewCheckRun params (startingCheckRunDetail params headSha name recovered)).change db).checkRuns.get?
        params.key) := by
  simp only [reserveReviewCheckRun] at finds
  simp only [reserveReviewCheckRun, Table.get?_set_self]
  cases stored : db.checkRuns.get? params.key with
  | none => exact .reservedFirst headSha name recovered _ rfl
  | some old =>
      simp only [stored, Option.all_some, Bool.and_eq_true, Option.isNone_iff_eq_none, decide_eq_true_eq] at finds
      exact .reserved headSha name recovered old _ finds.1.1.1.2 finds.1.1.2 finds.1.2 rfl rfl

theorem record_change (githubId : Nat) (created : Option (String × String)) :
    CheckRunChange params (.record githubId created) (db.checkRuns.get? params.key)
      (((recordReviewCheckRun params githubId (recordedCheckRunDetail params created)).change db).checkRuns.get?
        params.key) := by
  simp only [recordReviewCheckRun, Table.get?_set_self]
  cases stored : db.checkRuns.get? params.key with
  | none => exact .recordedFirst githubId created _ rfl
  | some old => exact .recorded githubId created old _ rfl rfl

theorem release_change (staleBefore : Option Nat)
    (finds : (releaseUnstartedReviewCheckRunReservation params staleBefore).finds db = true) :
    CheckRunChange params (.release staleBefore) (db.checkRuns.get? params.key)
      (((releaseUnstartedReviewCheckRunReservation params staleBefore).change db).checkRuns.get? params.key) := by
  obtain ⟨row, found, matched⟩ := any_row finds
  simp only [Bool.and_eq_true, Bool.or_eq_true, decide_eq_true_eq, Option.isNone_iff_eq_none] at matched
  rw [(row_stored found).1]
  simp only [releaseUnstartedReviewCheckRunReservation, found]
  by_cases selected : row.detail.selectedOwnVerdict.isSome = true
  · rw [if_pos selected, update_row found]
    refine .unreserved staleBefore row _ ?_ rfl rfl
    cases matched.1.2 with
    | inl unselected =>
        rw [unselected] at selected
        cases selected
    | inr starting => exact starting
  · rw [if_neg selected, Table.get?_erase, if_pos rfl]
    exact .released staleBefore row (by simpa using selected)

variable (leaseKeyOf params db)

theorem verdict_write_change (write : VerdictWrite) (before after : LeaseState) :
    CheckRunChange params write (db.checkRuns.get? params.key)
      ((((write.toPublishWrite params).statement leaseKeyOf).run before after db).2.checkRuns.get? params.key) := by
  rcases run_cases ((write.toPublishWrite params).statement leaseKeyOf) before after db with unchanged | ⟨writes, changed⟩
  · rw [unchanged]
    exact .unwritten write _
  · rw [changed]
    have finds := finds_of_writes writes
    cases write with
    | claim selected => exact claim_change selected finds
    | enrich selected status statusAlreadyApplied => exact enrich_change selected status statusAlreadyApplied finds
    | surfaceState selected surface state => exact state_change selected surface state finds
    | surfaceApplied selected surface => exact applied_change selected surface finds
    | reserve headSha name recovered => exact reserve_change headSha name recovered finds
    | record githubId created => exact record_change githubId created
    | release staleBefore => exact release_change staleBefore finds

variable {params db} in
-- The rows of other check runs stay.
theorem update_other (assign : CheckRunRecord → CheckRunRecord) {key : CheckRunKey} (other : key ≠ params.key) :
    (params.update db assign).checkRuns.get? key = db.checkRuns.get? key := by
  unfold OwnVerdictIdentity.update
  cases params.row? db with
  | none => rfl
  | some row => exact Table.get?_set_of_ne _ _ _ other

theorem verdict_write_other (write : VerdictWrite) (before after : LeaseState) {key : CheckRunKey}
    (other : key ≠ params.key) :
    (((write.toPublishWrite params).statement leaseKeyOf).run before after db).2.checkRuns.get? key =
      db.checkRuns.get? key := by
  rcases run_cases ((write.toPublishWrite params).statement leaseKeyOf) before after db with unchanged | ⟨_, changed⟩
  · rw [unchanged]
  · rw [changed]
    cases write with
    | claim selected => exact Table.get?_set_of_ne _ _ _ other
    | enrich selected status statusAlreadyApplied => exact update_other _ other
    | surfaceState selected surface state => exact update_other _ other
    | surfaceApplied selected surface => exact update_other _ other
    | reserve headSha name recovered => exact Table.get?_set_of_ne _ _ _ other
    | record githubId created => exact Table.get?_set_of_ne _ _ _ other
    | release staleBefore =>
        simp only [VerdictWrite.toPublishWrite, PublishWrite.statement, releaseUnstartedReviewCheckRunReservation]
        cases params.row? db with
        | none => rfl
        | some row =>
            by_cases selected : row.detail.selectedOwnVerdict.isSome = true
            · simp only [if_pos selected]
              exact update_other _ other
            · simp only [if_neg selected, Table.get?_erase, if_neg other]

end Statements
end PrAgent
