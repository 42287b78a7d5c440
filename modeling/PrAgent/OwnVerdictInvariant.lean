import PrAgent.OwnVerdictRecord
set_option autoImplicit false

namespace PrAgent

-- What holds of every stored check run: a receipt and its state agree, an applied check has its GitHub id, and a row
-- without a selection has no receipts.
structure CheckRunRecord.Sound (row : CheckRunRecord) : Prop where
  receipts : ∀ surface, (row.detail.receipt surface).applied = some true ↔
    (row.detail.receipt surface).state = some .applied
  github : row.detail.ownCheck.applied = some true → row.githubId.isSome = true
  unselected : row.detail.selectedOwnVerdict = none → row.detail.conclusion = none →
    (∀ surface, row.detail.receipt surface = {}) ∧ row.detail.status ≠ some .completed

-- A surface is resolved for a selection when it is applied or skipped, or when it does not apply.
def CheckRunDetail.resolvedFor (detail : CheckRunDetail) (selected : SelectedOwnVerdict) : OwnVerdictSurface → Bool
  | .check => detail.surfaceResolved .check
  | .status => !ownVerdictStatusApplicable selected || detail.surfaceResolved .status

-- The record is completed exactly when both surfaces of its selection are resolved.
def CheckRunRecord.Concluded (row : CheckRunRecord) : Prop :=
  ∀ selected, row.detail.selectedOwnVerdict = some selected →
    (row.detail.status = some .completed ↔
      row.detail.resolvedFor selected .check = true ∧ row.detail.resolvedFor selected .status = true)

-- How a row with a selection may differ from an earlier version of itself.
structure CheckRunRecord.Follows (old new : CheckRunRecord) : Prop where
  verdict : ∀ selected, old.detail.selectedOwnVerdict = some selected →
    ∃ later, new.detail.selectedOwnVerdict = some later ∧ later.conclusion = selected.conclusion ∧
      later.summary = selected.summary ∧ later.detailsUrl = selected.detailsUrl
  settled : ∀ surface, old.detail.surfaceResolved surface = true → new.detail.receipt surface = old.detail.receipt surface
  github : old.githubId.isSome = true → new.githubId.isSome = true

theorem check_run_follows_refl (row : CheckRunRecord) : row.Follows row :=
  ⟨fun selected found => ⟨selected, found, rfl, rfl, rfl⟩, fun _ _ => rfl, fun recorded => recorded⟩

theorem resolved_of_receipt {old new : CheckRunDetail} {surface : OwnVerdictSurface}
    (same : new.receipt surface = old.receipt surface) : new.surfaceResolved surface = old.surfaceResolved surface := by
  rw [CheckRunDetail.surfaceResolved, CheckRunDetail.surfaceResolved, same]

theorem check_run_follows_trans {old mid new : CheckRunRecord} (first : old.Follows mid) (second : mid.Follows new) :
    old.Follows new := by
  constructor
  · intro selected found
    obtain ⟨later, foundLater, conclusion, summary, detailsUrl⟩ := first.verdict selected found
    obtain ⟨last, foundLast, conclusion', summary', detailsUrl'⟩ := second.verdict later foundLater
    exact ⟨last, foundLast, conclusion'.trans conclusion, summary'.trans summary, detailsUrl'.trans detailsUrl⟩
  · intro surface resolved
    have same := first.settled surface resolved
    rw [second.settled surface (by rw [resolved_of_receipt same]; exact resolved), same]
  · exact fun recorded => second.github (first.github recorded)

-- A statement that writes no receipt and no conclusion, and keeps the selection and the GitHub id.
structure CheckRunRecord.KeepsReceipts (old new : CheckRunRecord) : Prop where
  selected : new.detail.selectedOwnVerdict = old.detail.selectedOwnVerdict
  receipt : ∀ surface, new.detail.receipt surface = old.detail.receipt surface
  conclusion : new.detail.conclusion = old.detail.conclusion
  github : old.githubId.isSome = true → new.githubId.isSome = true
  status : new.detail.status = some .completed → old.detail.status = some .completed

theorem keeps_receipts_sound {old new : CheckRunRecord} (keeps : old.KeepsReceipts new) (sound : old.Sound) :
    new.Sound := by
  constructor
  · intro surface
    rw [keeps.receipt surface]
    exact sound.receipts surface
  · intro applied
    have same := keeps.receipt .check
    simp only [CheckRunDetail.receipt] at same
    rw [same] at applied
    exact keeps.github (sound.github applied)
  · intro unselected unclosed
    rw [keeps.selected] at unselected
    rw [keeps.conclusion] at unclosed
    obtain ⟨bare, uncompleted⟩ := sound.unselected unselected unclosed
    exact ⟨fun surface => by rw [keeps.receipt surface]; exact bare surface, fun completed => uncompleted (keeps.status completed)⟩

theorem keeps_receipts_follows {old new : CheckRunRecord} (keeps : old.KeepsReceipts new) : old.Follows new :=
  ⟨fun selected found => ⟨selected, by rw [keeps.selected]; exact found, rfl, rfl, rfl⟩,
    fun surface _ => keeps.receipt surface, keeps.github⟩

theorem check_unresolved_of_unrecorded {row : CheckRunRecord} (sound : row.Sound) (absent : row.githubId = none)
    (open_ : row.detail.ownCheck.state ≠ some .skippedForThisRun) : row.detail.surfaceResolved .check = false := by
  have unapplied : row.detail.ownCheck.applied ≠ some true := by
    intro applied
    have recorded := sound.github applied
    rw [absent] at recorded
    cases recorded
  simp [CheckRunDetail.surfaceResolved, CheckRunDetail.receipt, unapplied, open_]

theorem unresolved_of_open {row : CheckRunRecord} (sound : row.Sound) {surface : OwnVerdictSurface}
    (unapplied : (row.detail.receipt surface).state ≠ some .applied)
    (open_ : (row.detail.receipt surface).state ≠ some .skippedForThisRun) :
    row.detail.surfaceResolved surface = false := by
  have bare : (row.detail.receipt surface).applied ≠ some true := fun applied =>
    unapplied ((sound.receipts surface).mp applied)
  simp [CheckRunDetail.surfaceResolved, bare, open_]

theorem bare_receipt : ({} : SurfaceReceipt).applied = some true ↔ ({} : SurfaceReceipt).state = some .applied :=
  iff_of_false (fun applied => nomatch applied) (fun applied => nomatch applied)

section Changes

variable {params : OwnVerdictIdentity} {write : VerdictWrite} {old new : CheckRunRecord}

variable {selected : SelectedOwnVerdict}

theorem claimed_first_sound (detail : new.detail = { selectedOwnVerdict := some selected }) :
    new.Sound := by
  constructor
  · intro surface
    rw [detail]
    cases surface with
    | check => exact bare_receipt
    | status => exact bare_receipt
  · rw [detail]
    exact fun applied => nomatch applied
  · rw [detail]
    exact fun unselected => nomatch unselected

-- A row that a reservation or a recorded check run starts has neither a selection nor receipts.
theorem unselected_row_sound (bare : ∀ surface, new.detail.receipt surface = {})
    (uncompleted : new.detail.status ≠ some .completed) : new.Sound := by
  constructor
  · intro surface
    rw [bare surface]
    exact bare_receipt
  · have check := bare .check
    simp only [CheckRunDetail.receipt] at check
    rw [check]
    exact fun applied => nomatch applied
  · exact fun _ _ => ⟨bare, uncompleted⟩

theorem claimed_keeps (detail : new.detail = old.detail.merge { selectedOwnVerdict := some selected }) :
    (∀ surface, new.detail.receipt surface = old.detail.receipt surface) ∧ new.detail.status = old.detail.status ∧
      new.detail.selectedOwnVerdict = some selected := by
  rw [detail]
  refine ⟨fun surface => ?_, rfl, rfl⟩
  cases surface with
  | check => rfl
  | status => rfl

theorem enriched_keeps {status : Option CheckRunDetailStatus}
    (detail : new.detail = old.detail.merge { selectedOwnVerdict := some selected, status := status }) :
    (∀ surface, new.detail.receipt surface = old.detail.receipt surface) ∧
      new.detail.status = status.or old.detail.status ∧ new.detail.selectedOwnVerdict = some selected := by
  rw [detail]
  refine ⟨fun surface => ?_, rfl, rfl⟩
  cases surface with
  | check => rfl
  | status => rfl

theorem selected_row_sound (sound : old.Sound) (receipts : ∀ surface, new.detail.receipt surface = old.detail.receipt surface)
    (selected : new.detail.selectedOwnVerdict.isSome = true) (github : new.githubId = old.githubId) : new.Sound := by
  constructor
  · intro surface
    rw [receipts surface]
    exact sound.receipts surface
  · have check := receipts .check
    simp only [CheckRunDetail.receipt] at check
    rw [check, github]
    exact sound.github
  · intro unselected
    rw [unselected] at selected
    cases selected

theorem starting_keeps {headSha name : String} {recovered : Bool}
    (detail : new.detail = old.detail.merge (startingCheckRunDetail params headSha name recovered))
    (github : new.githubId = old.githubId) : old.KeepsReceipts new := by
  constructor
  · rw [detail]
    rfl
  · intro surface
    rw [detail]
    cases surface with
    | check => rfl
    | status => rfl
  · rw [detail]
    rfl
  · rw [github]
    exact fun recorded => recorded
  · rw [detail]
    exact fun completed => nomatch completed

theorem recorded_detail (params : OwnVerdictIdentity) (created : Option (String × String)) :
    (recordedCheckRunDetail params created).status = some .inProgress ∧
      (recordedCheckRunDetail params created).selectedOwnVerdict = none ∧
      (recordedCheckRunDetail params created).conclusion = none ∧
      ∀ surface, (recordedCheckRunDetail params created).receipt surface = {} := by
  cases created with
  | none =>
      refine ⟨rfl, rfl, rfl, fun surface => ?_⟩
      cases surface with
      | check => rfl
      | status => rfl
  | some names =>
      refine ⟨rfl, rfl, rfl, fun surface => ?_⟩
      cases surface with
      | check => rfl
      | status => rfl

theorem recorded_keeps {created : Option (String × String)} {githubId : Nat}
    (detail : new.detail = old.detail.merge (recordedCheckRunDetail params created))
    (github : new.githubId = some githubId) : old.KeepsReceipts new := by
  obtain ⟨status, selected, conclusion, receipts⟩ := recorded_detail params created
  constructor
  · rw [detail, merge_selected, selected]
    rfl
  · intro surface
    rw [detail, merge_receipt, receipts]
    rfl
  · rw [detail, merge_conclusion, conclusion]
    rfl
  · rw [github]
    exact fun _ => rfl
  · rw [detail, merge_detail_status, status]
    exact fun completed => nomatch completed

theorem unreserved_keeps (detail : new.detail = old.detail.unreserved) (github : new.githubId = old.githubId) :
    old.KeepsReceipts new := by
  constructor
  · rw [detail]
    rfl
  · intro surface
    rw [detail]
    cases surface with
    | check => rfl
    | status => rfl
  · rw [detail]
    rfl
  · rw [github]
    exact fun recorded => recorded
  · rw [detail]
    exact fun completed => nomatch completed

variable {surface : OwnVerdictSurface}

-- The receipts after a surface was given a state, and after it was applied.
theorem stated_receipt {state : OwnVerdictSurfaceState}
    (detail : new.detail = old.detail.merge (.ofReceipt { state := some state } surface)) (other : OwnVerdictSurface) :
    new.detail.receipt other =
      if other = surface then { old.detail.receipt surface with state := some state } else old.detail.receipt other := by
  rw [detail, merge_receipt, ofReceipt_receipt]
  by_cases same : other = surface
  · subst same
    rw [if_pos rfl, if_pos rfl]
    rfl
  · rw [if_neg same, if_neg same]
    rfl

theorem applied_receipt {now : Nat} (detail : new.detail = (old.detail.merge (appliedPatch now selected surface)).merge
      { status := some (appliedDetailStatus old.detail selected surface) }) (other : OwnVerdictSurface) :
    new.detail.receipt other = if other = surface then ⟨some true, some .applied⟩ else old.detail.receipt other := by
  have bare : ({ status := some (appliedDetailStatus old.detail selected surface) } : CheckRunDetail).receipt other = {} := by
    cases other with
    | check => rfl
    | status => rfl
  rw [detail, merge_receipt, merge_receipt, bare, receipt_merge_empty, appliedPatch_receipt]
  by_cases same : other = surface
  · rw [if_pos same, if_pos same]
    rfl
  · rw [if_neg same, if_neg same]
    rfl

theorem open_state_ne_applied (state : OpenSurfaceState) : state.toState ≠ .applied := by
  cases state with
  | skippedForThisRun => exact fun same => nomatch same
  | blocked => exact fun same => nomatch same
  | unresolved => exact fun same => nomatch same

theorem stated_sound {state : OpenSurfaceState} (sound : old.Sound) (found : old.detail.selectedOwnVerdict = some selected)
    (unapplied : (old.detail.receipt surface).state ≠ some .applied)
    (detail : new.detail = old.detail.merge (.ofReceipt { state := some state.toState } surface))
    (github : new.githubId = old.githubId) : new.Sound := by
  have receipt := stated_receipt detail
  constructor
  · intro other
    rw [receipt other]
    by_cases same : other = surface
    · subst same
      rw [if_pos rfl]
      have bare : (old.detail.receipt other).applied ≠ some true := fun applied =>
        unapplied ((sound.receipts other).mp applied)
      exact ⟨fun applied => absurd applied bare, fun applied => absurd (Option.some.inj applied) (open_state_ne_applied state)⟩
    · rw [if_neg same]
      exact sound.receipts other
  · have check := receipt .check
    rw [github]
    by_cases same : OwnVerdictSurface.check = surface
    · subst same
      rw [if_pos rfl] at check
      simp only [CheckRunDetail.receipt] at check
      rw [check]
      exact sound.github
    · rw [if_neg same] at check
      simp only [CheckRunDetail.receipt] at check
      rw [check]
      exact sound.github
  · intro unselected
    rw [detail, merge_selected, (ofReceipt_rest surface _).1, found] at unselected
    cases unselected

theorem applied_sound {now : Nat} (sound : old.Sound)
    (found : old.detail.selectedOwnVerdict = some selected) (accepted : surface = .check → old.githubId.isSome = true)
    (detail : new.detail = (old.detail.merge (appliedPatch now selected surface)).merge
      { status := some (appliedDetailStatus old.detail selected surface) })
    (github : new.githubId = old.githubId) : new.Sound := by
  have receipt := applied_receipt detail
  constructor
  · intro other
    rw [receipt other]
    by_cases same : other = surface
    · rw [if_pos same]
      exact ⟨fun _ => rfl, fun _ => rfl⟩
    · rw [if_neg same]
      exact sound.receipts other
  · intro applied
    rw [github]
    by_cases same : OwnVerdictSurface.check = surface
    · exact accepted same.symm
    · have check := receipt .check
      rw [if_neg same] at check
      simp only [CheckRunDetail.receipt] at check
      rw [check] at applied
      exact sound.github applied
  · intro unselected
    rw [detail, merge_selected, merge_selected, appliedPatch_selected, found] at unselected
    cases unselected

theorem change_sound (sound : old.Sound) (change : CheckRunChange params write (some old) (some new)) : new.Sound := by
  cases change with
  | unwritten => exact sound
  | claimed selected _ _ unselected unclosed detail github =>
      obtain ⟨receipts, _, chosen⟩ := claimed_keeps detail
      exact selected_row_sound sound receipts (by rw [chosen]; rfl) github
  | enriched selected status statusAlreadyApplied _ _ found detail github =>
      obtain ⟨receipts, _, chosen⟩ := enriched_keeps detail
      exact selected_row_sound sound receipts (by rw [chosen]; rfl) github
  | stated selected surface state _ _ found open_ detail github => exact stated_sound sound found open_.1 detail github
  | applied selected surface now _ _ found accepted open_ detail github =>
      exact applied_sound sound found accepted detail github
  | reserved headSha name recovered _ _ absent selected open_ detail github =>
      exact keeps_receipts_sound (starting_keeps detail github) sound
  | recorded githubId created _ _ detail github => exact keeps_receipts_sound (recorded_keeps detail github) sound
  | unreserved staleBefore _ _ starting detail github =>
      exact keeps_receipts_sound (unreserved_keeps detail github) sound

theorem inserted_sound (change : CheckRunChange params write none (some new)) : new.Sound := by
  cases change with
  | claimedFirst selected _ detail => exact claimed_first_sound detail
  | reservedFirst headSha name recovered _ detail =>
      apply unselected_row_sound
      · intro surface
        rw [detail]
        cases surface with
        | check => rfl
        | status => rfl
      · rw [detail]
        exact fun completed => nomatch completed
  | recordedFirst githubId created _ detail =>
      obtain ⟨status, _, _, receipts⟩ := recorded_detail params created
      apply unselected_row_sound
      · rw [detail]
        exact receipts
      · rw [detail, status]
        exact fun completed => nomatch completed

theorem change_follows (sound : old.Sound) (change : CheckRunChange params write (some old) (some new)) :
    old.Follows new := by
  cases change with
  | unwritten => exact check_run_follows_refl old
  | claimed selected _ _ unselected unclosed detail github =>
      obtain ⟨receipts, _, _⟩ := claimed_keeps detail
      refine ⟨?_, fun surface _ => receipts surface, by rw [github]; exact fun recorded => recorded⟩
      intro other found
      rw [unselected] at found
      cases found
  | enriched selected status statusAlreadyApplied _ _ found detail github =>
      obtain ⟨receipts, _, chosen⟩ := enriched_keeps detail
      refine ⟨?_, fun surface _ => receipts surface, by rw [github]; exact fun recorded => recorded⟩
      intro other foundOther
      obtain rfl := Option.some.inj (found.symm.trans foundOther)
      exact ⟨_, chosen, rfl, rfl, rfl⟩
  | stated selected surface state _ _ found open_ detail github =>
      refine ⟨?_, ?_, by rw [github]; exact fun recorded => recorded⟩
      · intro other foundOther
        refine ⟨other, ?_, rfl, rfl, rfl⟩
        rw [detail, merge_selected, (ofReceipt_rest surface _).1]
        exact foundOther
      · intro other resolved
        rw [stated_receipt detail other]
        by_cases same : other = surface
        · subst same
          rw [unresolved_of_open sound open_.1 open_.2] at resolved
          cases resolved
        · rw [if_neg same]
  | applied selected surface now _ _ found accepted open_ detail github =>
      refine ⟨?_, ?_, by rw [github]; exact fun recorded => recorded⟩
      · intro other foundOther
        refine ⟨other, ?_, rfl, rfl, rfl⟩
        rw [detail, merge_selected, merge_selected, appliedPatch_selected]
        exact foundOther
      · intro other resolved
        rw [applied_receipt detail other]
        by_cases same : other = surface
        · subst same
          rw [if_pos rfl]
          -- A resolved surface that is not skipped is applied already.
          have applied : (old.detail.receipt other).applied = some true := by
            simpa [CheckRunDetail.surfaceResolved, open_] using resolved
          have state := (sound.receipts other).mp applied
          cases receipt : old.detail.receipt other with
          | mk appliedField stateField =>
              rw [receipt] at applied state
              dsimp only at applied state
              rw [applied, state]
        · rw [if_neg same]
  | reserved headSha name recovered _ _ absent selected open_ detail github =>
      exact keeps_receipts_follows (starting_keeps detail github)
  | recorded githubId created _ _ detail github => exact keeps_receipts_follows (recorded_keeps detail github)
  | unreserved staleBefore _ _ starting detail github => exact keeps_receipts_follows (unreserved_keeps detail github)

end Changes
end PrAgent
