import PrAgent.ReviewVerdict
import PrAgent.OwnVerdictRuns
set_option autoImplicit false

namespace PrAgent

section Meta

variable (counts : SummaryCounts) (coverage : ReviewCoverage) (check : FindingCheck) (severity : FindingSeverity)

-- The keys of the recorded detail that a replay reads.
theorem published_detail_kind :
    (publishedSummaryDetail counts coverage check severity).get? "ownVerdictKind" =
      some (.string (if (summaryVerdict coverage check severity).uneven then "partial" else "published")) := by
  simp [publishedSummaryDetail, summaryCommentVerdictMeta, get?_put]

theorem published_detail_note :
    (publishedSummaryDetail counts coverage check severity).get? "ownVerdictNote" =
      (if (summaryVerdict coverage check severity).uneven then
        (summaryVerdict coverage check severity).note.filter (· ≠ "") else none).map .string := by
  simp [publishedSummaryDetail, summaryCommentVerdictMeta, get?_put, SummaryCounts.fields]

theorem published_detail_reason :
    (publishedSummaryDetail counts coverage check severity).get? "ownPartialReason" =
      (decidingCoverageReason coverage).map fun reason => .string reason.text := by
  simp [publishedSummaryDetail, summaryCommentVerdictMeta, get?_put, SummaryCounts.fields, summaryVerdict]

theorem published_detail_failing :
    (publishedSummaryDetail counts coverage check severity).get? "ownCheckFailing" =
      some (.bool (check.conclusion = .failure)) := by
  cases conclusion : check.conclusion with
  | failure => simp [publishedSummaryDetail, summaryCommentVerdictMeta, get?_put, summaryVerdict, conclusion]
  | neutral => simp [publishedSummaryDetail, summaryCommentVerdictMeta, get?_put, summaryVerdict, conclusion]
  | success => simp [publishedSummaryDetail, summaryCommentVerdictMeta, get?_put, summaryVerdict, conclusion]

theorem published_detail_incomplete :
    (publishedSummaryDetail counts coverage check severity).get? "ownCheckIncomplete" =
      if check.conclusion = .neutral then some (.bool true) else none := by
  cases conclusion : check.conclusion with
  | failure =>
      simp [publishedSummaryDetail, summaryCommentVerdictMeta, get?_put, SummaryCounts.fields, summaryVerdict, conclusion]
  | neutral =>
      simp [publishedSummaryDetail, summaryCommentVerdictMeta, get?_put, SummaryCounts.fields, summaryVerdict, conclusion]
  | success =>
      simp [publishedSummaryDetail, summaryCommentVerdictMeta, get?_put, SummaryCounts.fields, summaryVerdict, conclusion]

theorem published_detail_count (bounded : check.blockingCount < 2 ^ 32) :
    storedBlockingCount (publishedSummaryDetail counts coverage check severity) = check.blockingCount := by
  have safe : (check.blockingCount : Int) ≤ maxSafeInteger := by
    unfold maxSafeInteger
    omega
  have stored : (publishedSummaryDetail counts coverage check severity).get? "ownBlockingCount" =
      some (.number check.blockingCount) := by
    simp [publishedSummaryDetail, summaryCommentVerdictMeta, get?_put, summaryVerdict, safe]
  simp [storedBlockingCount, stored, safe]

theorem reason_is_known (reason : PartialReason) :
    some (JsonValue.string reason.text) = some (.string "unjudged") ∨
      some (JsonValue.string reason.text) = some (.string "unread") ∨
      some (JsonValue.string reason.text) = some (.string "specialists") := by
  cases reason with
  | unjudged => exact .inl rfl
  | specialists => exact .inr (.inr rfl)
  | unread => exact .inr (.inl rfl)

end Meta

-- What a decoder makes of the keys of the recorded detail.
section Decoding

variable {detail : JsonFields}

theorem decode_failing_of_reason {reason : PartialReason} (known : detail.get? "ownPartialReason" = some (.string reason.text))
    (failing : detail.get? "ownCheckFailing" = some (.bool true)) :
    ownVerdictFromSummaryDetail (some detail) = .published ⟨.failure, storedBlockingCount detail⟩ none := by
  simp only [ownVerdictFromSummaryDetail, known, failing, reason_is_known reason, and_self, if_true]

theorem decode_uneven (passing : detail.get? "ownCheckFailing" = some (.bool false))
    (kind : detail.get? "ownVerdictKind" = some (.string "partial")) :
    ownVerdictFromSummaryDetail (some detail) = .uneven (unevenNote detail) := by
  simp [ownVerdictFromSummaryDetail, passing, kind]

theorem decode_published (kind : detail.get? "ownVerdictKind" = some (.string "published")) (conclusion : FindingCheckConclusion)
    (failing : detail.get? "ownCheckFailing" = some (.bool (conclusion = .failure)))
    (incomplete : detail.get? "ownCheckIncomplete" = if conclusion = .neutral then some (.bool true) else none) :
    ownVerdictFromSummaryDetail (some detail) =
      .published ⟨conclusion, if conclusion = .failure then storedBlockingCount detail else 0⟩ none := by
  cases conclusion with
  | failure => simp [ownVerdictFromSummaryDetail, failing, kind]
  | neutral => simp [ownVerdictFromSummaryDetail, failing, kind, incomplete]
  | success => simp [ownVerdictFromSummaryDetail, failing, kind, incomplete]

end Decoding

-- Only a failing check counts findings.
theorem finding_check_count (view : FindingView) :
    findingCheck view =
      ⟨checkConclusion view, if checkConclusion view = .failure then (findingCheck view).blockingCount else 0⟩ := by
  by_cases blocking : 0 < view.blockingCount
  · simp [findingCheck, checkConclusion, blocking]
  · have none_ : view.blockingCount = 0 := by omega
    cases complete : view.complete with
    | true => simp [findingCheck, checkConclusion, none_, complete]
    | false => simp [findingCheck, checkConclusion, none_, complete]

-- A replay reads the close-out of the published coverage back from the recorded detail.
theorem replay_reads_outcome_back (counts : SummaryCounts) (coverage : ReviewCoverage) (view : FindingView) (severity : FindingSeverity)
    (noted : ∀ failed paths unjudged note, coverage = .uneven failed paths unjudged note → note ≠ "") :
    ownVerdictFromSummaryDetail (some (publishedSummaryDetail counts coverage (findingCheck view) severity)) =
      closeOutcomeForCoverage (some coverage) (some (findingCheck view)) := by
  have kind := published_detail_kind counts coverage (findingCheck view) severity
  have note := published_detail_note counts coverage (findingCheck view) severity
  have reason := published_detail_reason counts coverage (findingCheck view) severity
  have failing := published_detail_failing counts coverage (findingCheck view) severity
  have incomplete := published_detail_incomplete counts coverage (findingCheck view) severity
  have count := published_detail_count counts coverage (findingCheck view) severity view.bounded
  generalize publishedSummaryDetail counts coverage (findingCheck view) severity = detail at *
  have published : detail.get? "ownVerdictKind" = some (.string "published") →
      ownVerdictFromSummaryDetail (some detail) = .published (findingCheck view) none := by
    intro kind
    rw [decode_published kind (findingCheck view).conclusion failing incomplete, count]
    exact congrArg (fun check => OwnVerdictOutcome.published check none) (finding_check_count view).symm
  cases coverage with
  | full => exact published kind
  | uncovered failed => exact published kind
  | uneven failed paths unjudged text =>
      by_cases fails : (findingCheck view).conclusion = .failure
      · rw [fails] at failing
        rw [decode_failing_of_reason reason failing, count]
        simp only [closeOutcomeForCoverage, fails, if_true]
        rw [← fails]
      · have passing : detail.get? "ownCheckFailing" = some (.bool false) := by
          rw [failing, decide_eq_false fails]
        have worded := noted failed paths unjudged text rfl
        have uneven : (summaryVerdict (.uneven failed paths unjudged text) (findingCheck view) severity).uneven = true ∧
            (summaryVerdict (.uneven failed paths unjudged text) (findingCheck view) severity).note = some text := by
          simp [summaryVerdict, closeOutcomeForCoverage, fails]
        rw [uneven.1] at kind
        rw [uneven.1, uneven.2] at note
        have stored : detail.get? "ownVerdictNote" = some (.string text) := by
          rw [note, if_pos rfl, Option.filter_some, if_pos (decide_eq_true worded)]
          rfl
        rw [decode_uneven passing kind]
        simp [closeOutcomeForCoverage, fails, unevenNote, stored, worded]

section Selections

inductive TerminalOwnCheckStatus
  | completed | failed | cancelled | superseded
  deriving DecidableEq, Repr

def asTerminalOwnCheckStatus : WorkStatus → Option TerminalOwnCheckStatus
  | .completed => some .completed
  | .failed => some .failed
  | .cancelled => some .cancelled
  | .superseded => some .superseded
  | .queued | .running => none

variable (workItemId : WorkItemId) (resourceKey : ResourceKey) (reviewLens : ReviewLens)

def summaryKey : SharedStepKey := ⟨resourceKey, .lens reviewLens, .summaryComment⟩

-- `completed("summary_comment")` in the publish context of a work item.
def completedSummary (db : PublishDb) : Option JsonFields :=
  ((db.shared.get? (summaryKey resourceKey reviewLens)).filter fun row =>
    row.workItemId = workItemId && row.status = .completed).map fun row => row.detail.fields

def resolveOwnVerdictForTerminalReview (db : PublishDb) : TerminalOwnCheckStatus → OwnVerdictOutcome
  | .failed => .crashed none
  | .cancelled => .cancelled none
  | .superseded => .superseded none
  | .completed => ownVerdictFromSummaryDetail (completedSummary workItemId resourceKey reviewLens db)

-- Who selects a verdict after the review that published: a retry that accepts the recorded summary, the hook of a
-- terminal failure, and the repair of an open check. A retry that does not accept it reviews again.
inductive VerdictSelection
  | retry (usable : JsonFields → Bool)
  | terminalFailure
  | repair

def VerdictSelection.outcome? (db : PublishDb) : VerdictSelection → Option OwnVerdictOutcome
  | .retry usable =>
    ((completedSummary workItemId resourceKey reviewLens db).filter usable).map fun detail =>
      ownVerdictFromSummaryDetail (some detail)
  | .terminalFailure =>
    some (match completedSummary workItemId resourceKey reviewLens db with
      | some detail => ownVerdictFromSummaryDetail (some detail)
      | none => .crashed none)
  | .repair =>
    ((db.items.get? workItemId).bind fun item => asTerminalOwnCheckStatus item.status).map
      (resolveOwnVerdictForTerminalReview workItemId resourceKey reviewLens db)

-- A retry goes by the summary it accepts, and a repair by that of a review that ended completed.
def VerdictSelection.ReadsSummary (db : PublishDb) : VerdictSelection → Prop
  | .retry usable => (completedSummary workItemId resourceKey reviewLens db).any usable = true
  | .terminalFailure => True
  | .repair => ∃ item, db.items.get? workItemId = some item ∧ item.status = .completed

variable {workItemId resourceKey reviewLens} {db : PublishDb} {detail : JsonFields}

theorem selection_of_recorded (recorded : completedSummary workItemId resourceKey reviewLens db = some detail)
    {selection : VerdictSelection} (reads : selection.ReadsSummary workItemId resourceKey reviewLens db) :
    selection.outcome? workItemId resourceKey reviewLens db = some (ownVerdictFromSummaryDetail (some detail)) := by
  cases selection with
  | retry usable =>
      have accepted : usable detail = true := by simpa [VerdictSelection.ReadsSummary, recorded] using reads
      simp [VerdictSelection.outcome?, recorded, accepted]
  | terminalFailure => simp only [VerdictSelection.outcome?, recorded]
  | repair =>
      obtain ⟨item, stored, completed⟩ := reads
      simp [VerdictSelection.outcome?, stored, completed, asTerminalOwnCheckStatus, resolveOwnVerdictForTerminalReview,
        recorded]

end Selections

-- One statement on publish records by any caller, a hand-over of a progress comment, or a change elsewhere: of the
-- rows that reviews share, only these are written.
inductive RecordEvent
  | write (write : PublishWrite) (before after : LeaseState)
  | transferProgress (resourceKey : ResourceKey) (reviewLens : ReviewLens) (row : SharedRecord)
  | elsewhere (state : WorkState) (asks : Table WorkItemId AskRecord) (checkRuns : Table CheckRunKey CheckRunRecord)
      (intents : Table IntentKey OwnVerdictIntent)

variable (leaseKeyOf : WorkItemId → LeaseKey)

def recordEventStep (db : PublishDb) : RecordEvent → Option PublishDb
  | .write write before after => some ((write.statement leaseKeyOf).run before after db).2
  | .transferProgress resourceKey reviewLens row =>
    some { db with shared := db.shared.set ⟨resourceKey, .lens reviewLens, .progressComment⟩ row }
  | .elsewhere state asks checkRuns intents => some ⟨state, db.shared, asks, checkRuns, intents⟩

def PublishWrite.recordsStep (key : SharedStepKey) : PublishWrite → Bool
  | .recordPublishStep _ _ recorded _ _ => recorded = key
  | _ => false

-- No summary is recorded for the resource and lens.
def KeepsSummary (resourceKey : ResourceKey) (reviewLens : ReviewLens) (_ : PublishDb) : RecordEvent → Prop
  | .write write _ _ => write.recordsStep (summaryKey resourceKey reviewLens) = false
  | .transferProgress _ _ _ | .elsewhere _ _ _ _ => True

instance (resourceKey : ResourceKey) (reviewLens : ReviewLens) (db : PublishDb) (event : RecordEvent) :
    Decidable (KeepsSummary resourceKey reviewLens db event) :=
  match event with
  | .write write _ _ => inferInstanceAs (Decidable (write.recordsStep (summaryKey resourceKey reviewLens) = false))
  | .transferProgress _ _ _ | .elsewhere _ _ _ _ => inferInstanceAs (Decidable True)

section Records

variable {leaseKeyOf}

theorem update_keeps_shared (params : OwnVerdictIdentity) (db : PublishDb) (assign : CheckRunRecord → CheckRunRecord) :
    (params.update db assign).shared = db.shared := by
  unfold OwnVerdictIdentity.update
  cases params.row? db with
  | none => rfl
  | some row => rfl

-- Only `recordPublishStep` writes a step's row, but for the claim of a summary comment.
theorem write_keeps_step {write : PublishWrite} {key : SharedStepKey} (unclaimed : key.step ≠ .summaryCommentClaim)
    (other : write.recordsStep key = false) (before after : LeaseState) (db : PublishDb) :
    ((write.statement leaseKeyOf).run before after db).2.shared.get? key = db.shared.get? key := by
  rcases run_cases (write.statement leaseKeyOf) before after db with unchanged | ⟨_, changed⟩
  · rw [unchanged]
  · rw [changed]
    cases write with
    | claimSummaryCommentCreation workItemId leaseEpoch resourceKey reviewLens =>
        refine Table.get?_set_of_ne _ _ _ ?_
        intro same
        rw [same] at unclaimed
        exact unclaimed rfl
    | recordPublishStep workItemId leaseEpoch recorded githubId detail =>
        have ne : recorded ≠ key := of_decide_eq_false other
        exact Table.get?_set_of_ne _ _ _ (Ne.symm ne)
    | recordAskPublishStep workItemId leaseEpoch resourceKey githubId detail => rfl
    | recordOwnVerdictSurfaceState params selected surface state =>
        exact congrArg (Table.get? · key) (update_keeps_shared params db _)
    | reconcileSavedOwnVerdictAcceptance params => rfl
    | insertOwnVerdict params selected => rfl
    | enrichOwnVerdict params selected status applied =>
        exact congrArg (Table.get? · key) (update_keeps_shared params db _)
    | recordOwnVerdictSurfaceApplied params selected surface =>
        exact congrArg (Table.get? · key) (update_keeps_shared params db _)
    | reserveReviewCheckRun params detail => rfl
    | recordReviewCheckRun params githubId detail => rfl
    | releaseUnstartedReviewCheckRunReservation params staleBefore =>
        simp only [PublishWrite.statement, releaseUnstartedReviewCheckRunReservation]
        cases params.row? db with
        | none => rfl
        | some row =>
            by_cases selected : row.detail.selectedOwnVerdict.isSome = true
            · simp only [selected, if_true]
              exact congrArg (Table.get? · key) (update_keeps_shared params db _)
            · simp only [selected]
              rfl

variable {resourceKey : ResourceKey} {reviewLens : ReviewLens}

theorem summary_kept_step {db t : PublishDb} {event : RecordEvent}
    (keeps : KeepsSummary resourceKey reviewLens db event) (moved : recordEventStep leaseKeyOf db event = some t) :
    t.shared.get? (summaryKey resourceKey reviewLens) = db.shared.get? (summaryKey resourceKey reviewLens) := by
  cases event with
  | write write before after =>
      obtain rfl := Option.some.inj moved
      exact write_keeps_step (fun claim => by cases claim) keeps before after db
  | transferProgress otherKey otherLens row =>
      obtain rfl := Option.some.inj moved
      exact Table.get?_set_of_ne _ _ _ fun same => by cases same
  | elsewhere state asks checkRuns intents =>
      obtain rfl := Option.some.inj moved
      rfl

-- A summary stays the work item's as long as no other is recorded for the resource and lens.
theorem summary_kept {s t : PublishDb} (run : Reaches (recordEventStep leaseKeyOf) (KeepsSummary resourceKey reviewLens) s t) :
    t.shared.get? (summaryKey resourceKey reviewLens) = s.shared.get? (summaryKey resourceKey reviewLens) := by
  induction run with
  | start => rfl
  | next _ keeps moved ih => exact (summary_kept_step keeps moved).trans ih

-- What a recorded summary leaves for a reader: a step that replaces its detail stores the detail as it was sent.
theorem recorded_summary {workItemId : WorkItemId} {leaseEpoch githubId : Option Nat}
    {detail : JsonFields} {before after : LeaseState} {db : PublishDb}
    (recorded : ((recordPublishStep workItemId leaseEpoch (summaryKey resourceKey reviewLens) githubId detail).run before
      after db).1 = .ok true) :
    completedSummary workItemId resourceKey reviewLens
      ((recordPublishStep workItemId leaseEpoch (summaryKey resourceKey reviewLens) githubId detail).run before after
        db).2 = some detail := by
  have written := written_of_ok _ _ _ _ recorded
  rw [written]
  cases stored : db.shared.get? (summaryKey resourceKey reviewLens) with
  | none =>
      simp only [summaryKey] at stored
      simp [completedSummary, recordPublishStep, stored, publishStepDetail, summaryKey, SharedPublishStep.merge]
  | some old =>
      simp only [summaryKey] at stored
      simp [completedSummary, recordPublishStep, stored, publishStepDetail, summaryKey, SharedPublishStep.merge,
        mergedStepDetail]

end Records

-- The close-out of a published summary never asks for action.
theorem published_close_out (coverage : ReviewCoverage) (check : FindingCheck) :
    (ownVerdictSurfaces (closeOutcomeForCoverage (some coverage) (some check))).checkRun ≠ .actionRequired ∧
      ∀ summary, closeOutcomeForCoverage (some coverage) (some check) ≠ .notPublished summary := by
  have published : (ownVerdictSurfaces (.published check none)).checkRun ≠ .actionRequired := by
    obtain ⟨conclusion, count⟩ := check
    cases conclusion with
    | failure => exact fun same => by cases same
    | neutral => exact fun same => by cases same
    | success => exact fun same => by cases same
  cases coverage with
  | full => exact ⟨published, fun summary same => by cases same⟩
  | uncovered failed => exact ⟨published, fun summary same => by cases same⟩
  | uneven failed paths unjudged note =>
      by_cases fails : check.conclusion = .failure
      · simp only [closeOutcomeForCoverage, fails, if_true]
        exact ⟨published, fun summary same => by cases same⟩
      · simp only [closeOutcomeForCoverage, fails, if_false]
        exact ⟨fun same => (by cases same), fun summary same => by cases same⟩

theorem replayed_verdict_is_published (redactReviewText : String → String) (workItemId : WorkItemId)
    (leaseEpoch githubId : Option Nat) (resourceKey : ResourceKey) (reviewLens : ReviewLens) (counts : SummaryCounts)
    (failedSpecialists unjudgedSpecialists : List SpecialistId) (unreadPaths : List String) (view : FindingView)
    (severity : FindingSeverity) (coverage : ReviewCoverage)
    (covered : reviewRunCoverage redactReviewText failedSpecialists unreadPaths unjudgedSpecialists = coverage)
    (before after : LeaseState) (db later : PublishDb)
    (recorded : ((recordPublishStep workItemId leaseEpoch (summaryKey resourceKey reviewLens) githubId
      (publishedSummaryDetail counts coverage (findingCheck view) severity)).run before after db).1 = .ok true)
    (run : Reaches (recordEventStep leaseKeyOf) (KeepsSummary resourceKey reviewLens)
      ((recordPublishStep workItemId leaseEpoch (summaryKey resourceKey reviewLens) githubId
        (publishedSummaryDetail counts coverage (findingCheck view) severity)).run before after db).2 later) :
    (∀ selection : VerdictSelection, selection.ReadsSummary workItemId resourceKey reviewLens later →
      selection.outcome? workItemId resourceKey reviewLens later =
        some (closeOutcomeForCoverage (some coverage) (some (findingCheck view)))) ∧
    (ownVerdictSurfaces (closeOutcomeForCoverage (some coverage) (some (findingCheck view)))).checkRun ≠
      .actionRequired ∧
    ∀ summary, closeOutcomeForCoverage (some coverage) (some (findingCheck view)) ≠ .notPublished summary := by
  refine ⟨?_, published_close_out coverage (findingCheck view)⟩
  intro selection reads
  have kept : completedSummary workItemId resourceKey reviewLens later =
      some (publishedSummaryDetail counts coverage (findingCheck view) severity) := by
    rw [completedSummary, summary_kept run]
    exact recorded_summary recorded
  rw [selection_of_recorded kept reads, replay_reads_outcome_back]
  intro failed paths unjudged note uneven
  rw [uneven] at covered
  exact coverage_note_ne_empty redactReviewText covered

section Histories

-- Work item 1 runs under its lease.
def publishingDb : PublishDb where
  toLeaseState := heldLease
  items := Table.empty.set 1 { (autoReview.row 0) with status := .running, executionEpoch := some 1 }
  shared := Table.empty
  asks := Table.empty
  checkRuns := Table.empty
  ownVerdictIntents := Table.empty

def cleanView : FindingView := ⟨true, 0, by omega⟩

def cleanSummaryDetail : JsonFields := publishedSummaryDetail ⟨0, 0, false, true⟩ .full (findingCheck cleanView) .p1

def recordCleanSummary (workItemId : WorkItemId) (leaseEpoch : Option Nat) : PublishWrite :=
  .recordPublishStep workItemId leaseEpoch (summaryKey 0 .review) (some 7) cleanSummaryDetail

-- It publishes a clean summary. Then it ends, and other events follow.
def publishedDb : PublishDb :=
  (((recordCleanSummary 1 (some 1)).statement reviewLeaseKey).run heldLease heldLease publishingDb).2

def endedAs (status : WorkStatus) : RecordEvent :=
  .elsewhere ⟨heldLease, Table.empty.set 1 { (autoReview.row 0) with status }⟩ Table.empty Table.empty Table.empty

def endedDb (status : WorkStatus) (others : List RecordEvent) : PublishDb :=
  runTo (recordEventStep reviewLeaseKey) (fun _ _ => true) (endedAs status :: others) publishedDb publishedDb

-- Another review of the resource records its findings, but no summary yet.
def otherReviewFindings : RecordEvent :=
  .write (.recordPublishStep 2 none ⟨0, .lens .review, .inlineReview⟩ none Table.empty) heldLease heldLease

def otherReviewSummary : RecordEvent := .write (recordCleanSummary 2 none) heldLease heldLease

theorem ended_step (status : WorkStatus) :
    recordEventStep reviewLeaseKey publishedDb (endedAs status) = some (endedDb status []) := rfl

theorem repaired_verdict_is_published :
    VerdictSelection.repair.outcome? 1 0 .review (endedDb .completed [otherReviewFindings]) =
      some (.published ⟨.success, 0⟩ none) := by
  have findings : recordEventStep reviewLeaseKey (endedDb .completed []) otherReviewFindings =
      some (endedDb .completed [otherReviewFindings]) := rfl
  have keeps : KeepsSummary 0 .review publishedDb (endedAs .completed) := trivial
  have keepsOther : KeepsSummary 0 .review (endedDb .completed []) otherReviewFindings := rfl
  have run : Reaches (recordEventStep reviewLeaseKey) (KeepsSummary 0 .review) publishedDb
      (endedDb .completed [otherReviewFindings]) :=
    .next (.next .start keeps (ended_step .completed)) keepsOther findings
  exact (replayed_verdict_is_published reviewLeaseKey id 1 (some 1) (some 7) 0 .review ⟨0, 0, false, true⟩ [] [] []
    cleanView .p1 .full rfl heldLease heldLease publishingDb _ rfl run).1 .repair ⟨_, rfl, rfl⟩

-- A repair of a failed review selects `crashed`, whatever it published; and one of a completed review whose record
-- another review has overwritten selects `not_published`.
theorem repaired_verdict_asks_for_action :
    (((recordCleanSummary 1 (some 1)).statement reviewLeaseKey).run heldLease heldLease publishingDb).1 = .ok true ∧
    (Reaches (recordEventStep reviewLeaseKey) (fun _ _ => True) publishedDb (endedDb .failed []) ∧
      VerdictSelection.repair.outcome? 1 0 .review (endedDb .failed []) = some (.crashed none) ∧
      (ownVerdictSurfaces (.crashed none)).checkRun = .actionRequired) ∧
    Reaches (recordEventStep reviewLeaseKey) (fun _ _ => True) publishedDb
        (endedDb .completed [otherReviewSummary]) ∧
      VerdictSelection.repair.outcome? 1 0 .review (endedDb .completed [otherReviewSummary]) =
        some (.notPublished none) ∧
      (ownVerdictSurfaces (.notPublished none)).checkRun = .actionRequired := by
  have overwrites : recordEventStep reviewLeaseKey (endedDb .completed []) otherReviewSummary =
      some (endedDb .completed [otherReviewSummary]) := rfl
  refine ⟨rfl, ⟨.next .start trivial (ended_step .failed), rfl, rfl⟩, ?_, rfl, rfl⟩
  exact .next (.next .start trivial (ended_step .completed)) trivial overwrites

end Histories
end PrAgent
