import PrAgent.ReviewAttempts
set_option autoImplicit false

namespace PrAgent

variable {Finding Reaffirmed : Type}

section Moves

variable (setting : ReviewSetting Finding)

-- The results that `answer` may hand out for the batch.
inductive Answers (run : ReviewRun Finding Reaffirmed) (inflight : InflightBatch Finding Reaffirmed) :
    InlinePublishResult Finding → Prop
  | persisted {receipt : BatchReceipt Finding} (sent : inflight.stage = .sent)
      (found : run.receipts.get? inflight.decision.batchId = some receipt) : Answers run inflight receipt.result
  | retained {result : InlinePublishResult Finding} (prepared : inflight.stage = .prepared)
      (remote : inflight.decision.resultKind = .remote)
      (found : run.receipts.get? inflight.decision.batchId = some ⟨result, true⟩) : Answers run inflight result
  | recovered {result : InlinePublishResult Finding} (prepared : inflight.stage = .prepared)
      (remote : inflight.decision.resultKind = .remote)
      (found : run.receipts.get? inflight.decision.batchId = some ⟨result, false⟩) :
      Answers run inflight (recoveredResult inflight.decision.inline result)

-- The changes of the ledger with which `finish` may end the batch.
inductive Finishes (inflight : InflightBatch Finding Reaffirmed) : FindingLedgerDelta Finding Reaffirmed → Prop
  | kept (prepared : inflight.stage = .prepared) (here : inflight.decision.resultKind ≠ .remote) :
      Finishes inflight (localDelta false inflight.decision)
  | dropped {result : InlinePublishResult Finding} (answered : inflight.stage = .answered result)
      (none_ : result.review = none) :
      Finishes inflight (remoteDelta inflight.withoutEvidence inflight.decision result)
  | published {result : InlinePublishResult Finding} (recorded : inflight.stage = .recorded result) :
      Finishes inflight (remoteDelta inflight.withoutEvidence inflight.decision result)

-- Everything a step can do.
inductive AttemptMove (run : ReviewRun Finding Reaffirmed) :
    AttemptEvent Finding Reaffirmed → ReviewRun Finding Reaffirmed → Prop
  | start {headSha : String} {visible caching : Bool} {misses : List Nat} (idle : run.attempt = none) :
      AttemptMove run (.start headSha visible caching misses)
        { run with
          attempt := some ⟨headSha, startingLedger setting run visible, visible || run.decisions.isEmpty, caching, misses,
            0, none⟩ }
  | crash : AttemptMove run .crash { run with attempt := none }
  | elsewhere {db : PublishDb} : AttemptMove run (.elsewhere db) { run with db }
  | replaySummary {attempt : ReviewAttempt Finding Reaffirmed} {saved : RecoveryDecision Finding Reaffirmed}
      {published : Bool} {decisions : List (RecoveryDecision Finding Reaffirmed)} (running : run.attempt = some attempt)
      (idle : attempt.inflight = none) (visible : attempt.visible = true)
      (found : run.decisions[attempt.next]? = some saved) (summary : saved.canonical = .summary)
      (settles : decisions = run.decisions ∧ (saved.settled.isSome = true ∨ attempt.evidenceMisses ≠ []) ∨
        decisions = settle run.decisions (some attempt.next) .accepted) :
      AttemptMove run (.replay published)
        { run with decisions, attempt := some { attempt with next := attempt.next + 1 } }
  | replayLocal {attempt : ReviewAttempt Finding Reaffirmed} {decision : CanonicalThreadDecision Finding Reaffirmed}
      {settled : Option SettlementOutcome} {published missed : Bool} (running : run.attempt = some attempt)
      (idle : attempt.inflight = none) (visible : attempt.visible = true)
      (found : run.decisions[attempt.next]? = some ⟨.threads decision, settled⟩)
      (here : decision.resultKind ≠ .remote) (misses : missed = decide (attempt.next ∈ attempt.evidenceMisses)) :
      AttemptMove run (.replay published)
        { run with
          decisions := if missed then run.decisions else settle run.decisions (some attempt.next) .accepted
          attempt := some { attempt with
            next := attempt.next + 1
            ledger := applyFindingLedgerDelta attempt.ledger (localDelta missed decision) } }
  | replayStopped {attempt : ReviewAttempt Finding Reaffirmed} {decision : CanonicalThreadDecision Finding Reaffirmed}
      {published : Bool} (running : run.attempt = some attempt) (idle : attempt.inflight = none)
      (visible : attempt.visible = true)
      (found : run.decisions[attempt.next]? = some ⟨.threads decision, some .stopped⟩)
      (remote : decision.resultKind = .remote) :
      AttemptMove run (.replay published)
        { run with attempt := some { attempt with
            next := attempt.next + 1
            ledger := applyFindingLedgerDelta attempt.ledger noDelta } }
  | replayRemote {attempt : ReviewAttempt Finding Reaffirmed} {decision : CanonicalThreadDecision Finding Reaffirmed}
      {settled : Option SettlementOutcome} {published missed : Bool} (running : run.attempt = some attempt)
      (idle : attempt.inflight = none) (visible : attempt.visible = true)
      (found : run.decisions[attempt.next]? = some ⟨.threads decision, settled⟩)
      (remote : decision.resultKind = .remote) (open_ : settled ≠ some .stopped)
      (misses : missed = decide (attempt.next ∈ attempt.evidenceMisses)) :
      AttemptMove run (.replay published)
        { run with attempt := some { attempt with
            inflight := some ⟨decision, some attempt.next, true, missed, .prepared⟩ } }
  | publishSaved {attempt : ReviewAttempt Finding Reaffirmed} {source : FindingSource}
      {batch : ReconciledBatch Finding Reaffirmed} {cacheable stored : Bool} (running : run.attempt = some attempt)
      (live : attempt.live run.decisions = true) (saves : attempt.saves cacheable stored = true) :
      AttemptMove run (.publish source batch cacheable stored)
        { run with
          decisions := run.decisions ++ [⟨.threads (planFindingBatch setting.before setting.placementKey setting.caps
            attempt.headSha source attempt.ledger batch), none⟩]
          attempt := some { attempt with
            inflight := some ⟨planFindingBatch setting.before setting.placementKey setting.caps attempt.headSha source
              attempt.ledger batch, some run.decisions.length, false, false, .prepared⟩ } }
  | publishUnsaved {attempt : ReviewAttempt Finding Reaffirmed} {source : FindingSource}
      {batch : ReconciledBatch Finding Reaffirmed} {cacheable stored : Bool} (running : run.attempt = some attempt)
      (live : attempt.live run.decisions = true) (saves : attempt.saves cacheable stored = false) :
      AttemptMove run (.publish source batch cacheable stored)
        { run with attempt := some { attempt with
            caching := false
            inflight := some ⟨planFindingBatch setting.before setting.placementKey setting.caps attempt.headSha source
              attempt.ledger batch, none, false, false, .prepared⟩ } }
  | sendDropped {attempt : ReviewAttempt Finding Reaffirmed} {inflight : InflightBatch Finding Reaffirmed}
      {responses : List (BatchResponse Finding)} {result : InlinePublishResult Finding}
      (running : run.attempt = some attempt) (flying : attempt.inflight = some inflight)
      (prepared : inflight.stage = .prepared) (mutable_ : inflight.mutable run.decisions = true)
      (fresh : ∀ result, run.receipts.get? inflight.decision.batchId ≠ some ⟨result, true⟩)
      (published : publishInlineReviewComments setting.before inflight.decision.inline responses = some result)
      (none_ : result.review = none) :
      AttemptMove run (.send responses) (answerStep run attempt inflight result)
  | sendAccepted {attempt : ReviewAttempt Finding Reaffirmed} {inflight : InflightBatch Finding Reaffirmed}
      {responses : List (BatchResponse Finding)} {result : InlinePublishResult Finding} {reviewId : Nat}
      (running : run.attempt = some attempt) (flying : attempt.inflight = some inflight)
      (prepared : inflight.stage = .prepared) (mutable_ : inflight.mutable run.decisions = true)
      (fresh : ∀ result, run.receipts.get? inflight.decision.batchId ≠ some ⟨result, true⟩)
      (published : publishInlineReviewComments setting.before inflight.decision.inline responses = some result)
      (accepted : result.review = some reviewId) :
      AttemptMove run (.send responses)
        { run with
          receipts := run.receipts.set inflight.decision.batchId ⟨result, false⟩
          reviews := run.reviews ++ [⟨inflight.decision.batchId, reviewId, result.posted⟩]
          outside := run.outside || (inflight.sequence.isNone && !run.decisions.isEmpty)
          attempt := some { attempt with inflight := some { inflight with stage := .sent } } }
  | reject {attempt : ReviewAttempt Finding Reaffirmed} {inflight : InflightBatch Finding Reaffirmed}
      (running : run.attempt = some attempt) (flying : attempt.inflight = some inflight)
      (prepared : inflight.stage = .prepared) (mutable_ : inflight.mutable run.decisions = true)
      (fresh : run.receipts.get? inflight.decision.batchId = none) :
      AttemptMove run .reject (rejectStep run attempt inflight)
  | answer {attempt : ReviewAttempt Finding Reaffirmed} {inflight : InflightBatch Finding Reaffirmed}
      {result : InlinePublishResult Finding} (running : run.attempt = some attempt)
      (flying : attempt.inflight = some inflight) (answers : Answers run inflight result) :
      AttemptMove run .answer (answerStep run attempt inflight result)
  | record {attempt : ReviewAttempt Finding Reaffirmed} {inflight : InflightBatch Finding Reaffirmed}
      {leaseEpoch : Option Nat} {before after : LeaseState} {result : InlinePublishResult Finding} {db : PublishDb}
      (running : run.attempt = some attempt) (flying : attempt.inflight = some inflight)
      (answered : inflight.stage = .answered result) :
      AttemptMove run (.record leaseEpoch before after)
        { run with db, attempt := some { attempt with inflight := some { inflight with stage := .recorded result } } }
  | finish {attempt : ReviewAttempt Finding Reaffirmed} {inflight : InflightBatch Finding Reaffirmed}
      {delta : FindingLedgerDelta Finding Reaffirmed} (running : run.attempt = some attempt)
      (flying : attempt.inflight = some inflight) (finishes : Finishes inflight delta) :
      AttemptMove run .finish (finishStep run attempt inflight delta)
  | fail {attempt : ReviewAttempt Finding Reaffirmed} {inflight : InflightBatch Finding Reaffirmed}
      (running : run.attempt = some attempt) (flying : attempt.inflight = some inflight)
      (unrecorded : inflight.sequence = none → ∀ result, inflight.stage ≠ .recorded result) :
      AttemptMove run .fail (failStep run attempt inflight)
  | summarizeSaved {attempt : ReviewAttempt Finding Reaffirmed} {stored : Bool} {settled : Option SettlementOutcome}
      (running : run.attempt = some attempt) (live : attempt.live run.decisions = true)
      (saves : attempt.saves true stored = true) :
      AttemptMove run (.summarize stored settled)
        { run with
          decisions := run.decisions ++ [⟨.summary, settled⟩]
          attempt := if settled.isSome then some { attempt with next := attempt.next + 1 } else none }
  | summarizeUnsaved {attempt : ReviewAttempt Finding Reaffirmed} {stored : Bool} {settled : Option SettlementOutcome}
      (running : run.attempt = some attempt) (live : attempt.live run.decisions = true)
      (saves : attempt.saves true stored = false) :
      AttemptMove run (.summarize stored settled) { run with attempt := some { attempt with caching := false } }

variable {setting} {run t : ReviewRun Finding Reaffirmed}

variable {attempt : ReviewAttempt Finding Reaffirmed}

theorem replay_move {saved : RecoveryDecision Finding Reaffirmed}
    {published : Bool} (running : run.attempt = some attempt) (idle : attempt.inflight = none)
    (visible : attempt.visible = true) (found : run.decisions[attempt.next]? = some saved)
    (moved : replayStep run attempt saved published = some t) : AttemptMove setting run (.replay published) t := by
  obtain ⟨canonical, settled⟩ := saved
  cases canonical with
  | summary =>
      simp only [replayStep] at moved
      by_cases skipped : (settled.isSome || !attempt.evidenceMisses.isEmpty) = true
      · rw [if_pos skipped] at moved
        obtain rfl := Option.some.inj moved
        have why : settled.isSome = true ∨ attempt.evidenceMisses ≠ [] := by simpa using skipped
        exact .replaySummary running idle visible found rfl (.inl ⟨rfl, why⟩)
      · rw [if_neg skipped] at moved
        cases published with
        | false => cases moved
        | true =>
            obtain rfl := Option.some.inj moved
            exact .replaySummary running idle visible found rfl (.inr rfl)
  | threads decision =>
      simp only [replayStep] at moved
      by_cases here : decision.resultKind ≠ .remote
      · rw [if_pos here] at moved
        obtain rfl := Option.some.inj moved
        exact .replayLocal running idle visible found here rfl
      · rw [if_neg here] at moved
        have remote := not_not.mp here
        by_cases stopped : settled = some .stopped
        · rw [if_pos stopped] at moved
          obtain rfl := Option.some.inj moved
          subst stopped
          exact .replayStopped running idle visible found remote
        · rw [if_neg stopped] at moved
          obtain rfl := Option.some.inj moved
          exact .replayRemote running idle visible found remote stopped rfl

theorem send_move {inflight : InflightBatch Finding Reaffirmed}
    {responses : List (BatchResponse Finding)} (running : run.attempt = some attempt)
    (flying : attempt.inflight = some inflight) (prepared : inflight.stage = .prepared)
    (mutable_ : inflight.mutable run.decisions = true)
    (fresh : ∀ result, run.receipts.get? inflight.decision.batchId ≠ some ⟨result, true⟩)
    (moved : sendStep setting run attempt inflight responses = some t) :
    AttemptMove setting run (.send responses) t := by
  simp only [sendStep] at moved
  cases published : publishInlineReviewComments setting.before inflight.decision.inline responses with
  | none =>
      rw [published] at moved
      cases moved
  | some result =>
      rw [published] at moved
      simp only at moved
      cases accepted : result.review with
      | none =>
          rw [accepted] at moved
          obtain rfl := Option.some.inj moved
          exact .sendDropped running flying prepared mutable_ fresh published accepted
      | some reviewId =>
          rw [accepted] at moved
          obtain rfl := Option.some.inj moved
          exact .sendAccepted running flying prepared mutable_ fresh published accepted

variable {event : AttemptEvent Finding Reaffirmed}

theorem inflight_move {inflight : InflightBatch Finding Reaffirmed} (running : run.attempt = some attempt)
    (flying : attempt.inflight = some inflight) (moved : inflightStep setting run attempt inflight event = some t) :
    AttemptMove setting run event t := by
  cases event with
  | start => cases moved
  | replay => cases moved
  | publish => cases moved
  | crash => cases moved
  | summarize => cases moved
  | elsewhere => cases moved
  | send responses =>
      simp only [inflightStep] at moved
      cases stage : inflight.stage with
      | sent => simp [stage] at moved
      | answered => simp [stage] at moved
      | recorded => simp [stage] at moved
      | prepared =>
          rw [stage] at moved
          have fresh : ∀ result, run.receipts.get? inflight.decision.batchId ≠ some ⟨result, true⟩ := by
            intro result found
            simp [found] at moved
          have sends : (if inflight.mutable run.decisions then sendStep setting run attempt inflight responses
              else none) = some t := by
            cases found : run.receipts.get? inflight.decision.batchId with
            | none => simpa [found] using moved
            | some receipt =>
                obtain ⟨result, saved⟩ := receipt
                cases saved with
                | true => exact absurd found (fresh result)
                | false => simpa [found] using moved
          obtain ⟨mutable_, sends⟩ := Option.ite_none_right_eq_some.mp sends
          exact send_move running flying stage mutable_ fresh sends
  | reject =>
      simp only [inflightStep] at moved
      cases stage : inflight.stage with
      | sent => simp [stage] at moved
      | answered => simp [stage] at moved
      | recorded => simp [stage] at moved
      | prepared =>
          cases found : run.receipts.get? inflight.decision.batchId with
          | some receipt => simp [stage, found] at moved
          | none =>
              simp only [stage, found] at moved
              obtain ⟨mutable_, moved⟩ := Option.ite_none_right_eq_some.mp moved
              obtain rfl := Option.some.inj moved
              exact .reject running flying stage mutable_ found
  | answer =>
      simp only [inflightStep] at moved
      cases found : run.receipts.get? inflight.decision.batchId with
      | none =>
          cases stage : inflight.stage <;> simp [stage, found] at moved
      | some receipt =>
          cases stage : inflight.stage with
          | answered => simp [stage] at moved
          | recorded => simp [stage] at moved
          | sent =>
              simp only [stage, found] at moved
              obtain rfl := Option.some.inj moved
              exact .answer running flying (.persisted stage found)
          | prepared =>
              simp only [stage, found] at moved
              obtain ⟨here, moved⟩ := Option.ite_none_left_eq_some.mp moved
              have remote := not_not.mp here
              obtain ⟨result, saved⟩ := receipt
              cases saved with
              | true =>
                  obtain rfl := Option.some.inj moved
                  exact .answer running flying (.retained stage remote found)
              | false =>
                  obtain rfl := Option.some.inj moved
                  exact .answer running flying (.recovered stage remote found)
  | record leaseEpoch before after =>
      simp only [inflightStep] at moved
      cases stage : inflight.stage with
      | prepared => simp [stage] at moved
      | sent => simp [stage] at moved
      | recorded => simp [stage] at moved
      | answered result =>
          simp only [stage] at moved
          split at moved
          · cases moved
          · split at moved
            · obtain rfl := Option.some.inj moved
              exact .record running flying stage
            · cases moved
  | finish =>
      simp only [inflightStep] at moved
      cases stage : inflight.stage with
      | sent => simp [stage] at moved
      | prepared =>
          simp only [stage] at moved
          obtain ⟨remote, moved⟩ := Option.ite_none_left_eq_some.mp moved
          obtain rfl := Option.some.inj moved
          exact .finish running flying (.kept stage remote)
      | answered result =>
          simp only [stage] at moved
          obtain ⟨none_, moved⟩ := Option.ite_none_right_eq_some.mp moved
          obtain rfl := Option.some.inj moved
          exact .finish running flying (.dropped stage (Option.isNone_iff_eq_none.mp none_))
      | recorded result =>
          simp only [stage] at moved
          obtain rfl := Option.some.inj moved
          exact .finish running flying (.published stage)
  | fail =>
      simp only [inflightStep] at moved
      have unrecorded : inflight.sequence = none → ∀ result, inflight.stage ≠ .recorded result := by
        intro none_ result recorded
        simp [none_, recorded] at moved
      have failed : failStep run attempt inflight = t := by
        split at moved
        · cases moved
        · exact Option.some.inj moved
      rw [← failed]
      exact .fail running flying unrecorded

theorem inflight_attempt_move (moved : (match run.attempt with
    | none => none
    | some attempt => match attempt.inflight with
      | none => none
      | some inflight => inflightStep setting run attempt inflight event) = some t) : AttemptMove setting run event t := by
  cases running : run.attempt with
  | none => simp [running] at moved
  | some attempt =>
      cases flying : attempt.inflight with
      | none => simp [running, flying] at moved
      | some inflight =>
          simp only [running, flying] at moved
          exact inflight_move running flying moved

theorem attempt_move (moved : attemptStep setting run event = some t) :
    AttemptMove setting run event t := by
  cases event with
  | send responses => exact inflight_attempt_move moved
  | reject => exact inflight_attempt_move moved
  | answer => exact inflight_attempt_move moved
  | record leaseEpoch before after => exact inflight_attempt_move moved
  | finish => exact inflight_attempt_move moved
  | fail => exact inflight_attempt_move moved
  | crash =>
      obtain rfl := Option.some.inj moved
      exact .crash
  | elsewhere db =>
      obtain rfl := Option.some.inj moved
      exact .elsewhere
  | start headSha visible caching misses =>
      simp only [attemptStep] at moved
      cases running : run.attempt with
      | some attempt => simp [running] at moved
      | none =>
          simp only [running] at moved
          obtain rfl := Option.some.inj moved
          exact .start running
  | replay published =>
      simp only [attemptStep] at moved
      cases running : run.attempt with
      | none => simp [running] at moved
      | some attempt =>
          simp only [running] at moved
          cases idle : attempt.inflight with
          | some inflight => simp [idle] at moved
          | none =>
              cases found : run.decisions[attempt.next]? with
              | none => simp [idle, found] at moved
              | some saved =>
                  simp only [idle, found] at moved
                  obtain ⟨visible, moved⟩ := Option.ite_none_right_eq_some.mp moved
                  exact replay_move running idle visible found moved
  | publish source batch cacheable stored =>
      simp only [attemptStep] at moved
      cases running : run.attempt with
      | none => simp [running] at moved
      | some attempt =>
          simp only [running] at moved
          obtain ⟨live, moved⟩ := Option.ite_none_right_eq_some.mp moved
          obtain rfl := Option.some.inj moved
          by_cases saves : attempt.saves cacheable stored = true
          · rw [publishStep, if_pos saves]
            exact .publishSaved running live saves
          · rw [publishStep, if_neg saves]
            exact .publishUnsaved running live (Bool.eq_false_iff.mpr saves)
  | summarize stored settled =>
      simp only [attemptStep] at moved
      cases running : run.attempt with
      | none => simp [running] at moved
      | some attempt =>
          simp only [running] at moved
          obtain ⟨live, moved⟩ := Option.ite_none_right_eq_some.mp moved
          by_cases saves : attempt.saves true stored = true
          · rw [if_pos saves] at moved
            obtain rfl := Option.some.inj moved
            exact .summarizeSaved running live saves
          · rw [if_neg saves] at moved
            obtain rfl := Option.some.inj moved
            exact .summarizeUnsaved running live (Bool.eq_false_iff.mpr saves)

end Moves
end PrAgent
