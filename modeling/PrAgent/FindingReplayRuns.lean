import PrAgent.FindingReplay
set_option autoImplicit false

namespace PrAgent

section Runs

variable {Finding Reaffirmed : Type}

def freshReview (db : PublishDb) : ReviewRun Finding Reaffirmed := ⟨[], Table.empty, [], db, false, none⟩

theorem replay_run {setting : ReviewSetting Finding} {db : PublishDb} {run : ReviewRun Finding Reaffirmed}
    (reached : Reaches (attemptStep setting) ReplayAllowed (freshReview db) run) :
    AttemptShape run ∧ FindingsReplay run := by
  refine reached.invariant (fun run => AttemptShape run ∧ FindingsReplay run) ⟨shape_start db, replay_start db⟩ ?_
  intro run event t ih ok moved
  exact ⟨shape_step ih.1 moved, replay_step ih.1 ih.2 ok moved⟩

theorem no_send_on_settled {setting : ReviewSetting Finding} {run t : ReviewRun Finding Reaffirmed}
    {attempt : ReviewAttempt Finding Reaffirmed} {saved : RecoveryDecision Finding Reaffirmed}
    {event : AttemptEvent Finding Reaffirmed} (shape : AttemptShape run) (inv : FindingsReplay run)
    (running : run.attempt = some attempt) (found : run.decisions[attempt.next]? = some saved)
    (settled : saved.settled.isSome = true) (moved : attemptStep setting run event = some t) :
    t.reviews = run.reviews := by
  cases attempt_move moved with
  | @sendAccepted other inflight responses result reviewId here flying prepared mutable_ fresh published accepted =>
      rw [running] at here
      obtain rfl := Option.some.inj here
      cases sequence : inflight.sequence with
      | none =>
          rw [((inv.attempt attempt running).inflight inflight flying).2 sequence] at found
          cases found
      | some q =>
          obtain ⟨_, rfl, _, _, _⟩ := (shape.inflight attempt inflight running flying).saved q sequence
          simp only [InflightBatch.mutable, Bool.and_eq_true, sequence, Option.bind_some, found, Option.all_some]
            at mutable_
          rw [Option.isNone_iff_eq_none.mp mutable_.2] at settled
          cases settled
  | _ => rfl

end Runs

theorem findings_replayed {Finding Reaffirmed : Type} (setting : ReviewSetting Finding) (db : PublishDb)
    (run : ReviewRun Finding Reaffirmed) (reached : Reaches (attemptStep setting) ReplayAllowed (freshReview db) run) :
    ReplayMatches setting run := by
  obtain ⟨shape, inv⟩ := replay_run reached
  refine ⟨inv.before, ?_, shape.pending, inv.once, ?_⟩
  · intro attempt running
    exact (inv.attempt attempt running).ledger
  · intro attempt saved event t running found settled moved
    exact no_send_on_settled shape inv running found settled moved

section Histories

def numberedReview : ReviewSetting Nat where
  text := numberedBatchText
  derivedFindingId _ _ := ""
  before a b := a ≤ b
  placementKey _ := ""
  digest batchId := String.join batchId.2
  reviewUrl _ := ""
  workItemId := 1
  resourceKey := 0
  reviewLens := .review
  caps := ⟨2, 2⟩

-- Retries on one binding whose evidence revalidates.
def SameBinding : AttemptEvent Nat Unit → Prop
  | .start _ visible _ misses => visible = true ∧ misses = []
  | _ => True

instance : DecidablePred SameBinding
  | .start .. | .replay _ | .publish .. | .send _ | .reject | .answer | .record .. | .finish | .fail | .crash | .summarize ..
  | .elsewhere _ => by delta SameBinding; infer_instance

def oneFinding (findingId : String) : ReconciledBatch Nat Unit := ⟨[⟨⟨0, some 0, true⟩, findingId, none⟩], [], [], 0⟩

-- A batch that goes through, with the review that GitHub gives it.
def throughGitHub (reviewId : Nat) : List (AttemptEvent Nat Unit) :=
  [.send [.accepted reviewId], .answer, .record (some 1) heldLease heldLease, .finish]

def reviewAfter (events : List (AttemptEvent Nat Unit)) : ReviewRun Nat Unit :=
  runTo (attemptStep numberedReview) (fun _ event => decide (SameBinding event)) events (freshReview publishingDb)
    (freshReview publishingDb)

-- The second batch cites no evidence that can be cached.
def cachedThenUncached : List (AttemptEvent Nat Unit) :=
  .start "" true true [] :: .publish .review (oneFinding "") true true :: throughGitHub 1 ++
    .publish .review (oneFinding "a") false true :: throughGitHub 2

def retryAfterUncached : List (AttemptEvent Nat Unit) :=
  cachedThenUncached ++ [.crash, .start "" true true [], .replay false, .answer,
    .record (some 1) heldLease heldLease, .finish]

-- GitHub rejects the summary of a review that published no batch.
def rejectedSummaryFirst : List (AttemptEvent Nat Unit) :=
  [.start "" true true [], .summarize true (some .stopped), .crash, .start "" true true [], .replay false,
    .publish .review (oneFinding "") true true] ++ throughGitHub 1

def retryAfterRejected : List (AttemptEvent Nat Unit) :=
  rejectedSummaryFirst ++ [.crash, .start "" true true [], .replay false, .replay false, .answer,
    .record (some 1) heldLease heldLease, .finish]

def callsCounted (run : ReviewRun Nat Unit) : Option Nat := run.attempt.map fun attempt => attempt.ledger.threadCallCount

theorem calls_match {run : ReviewRun Nat Unit} (matches_ : ReplayMatches numberedReview run) :
    run.decisions = [] ∨ callsCounted run =
      run.attempt.map fun attempt => (replayed run attempt.next).threadCallCount := by
  by_cases none_ : run.decisions = []
  · exact .inl none_
  · cases running : run.attempt with
    | none => exact .inr (by rw [callsCounted, running]; rfl)
    | some attempt =>
        have same := matches_.ledger attempt running none_
        exact .inr (by rw [callsCounted, running, Option.map_some, Option.map_some, same])

-- A batch without a saved decision is lost to the replay; a rejected summary in front lets a batch count twice.
theorem replay_drops_and_doubles :
    (Reaches (attemptStep numberedReview) (fun _ event => SameBinding event) (freshReview publishingDb)
        (reviewAfter cachedThenUncached) ∧
      Reaches (attemptStep numberedReview) (fun _ event => SameBinding event) (freshReview publishingDb)
        (reviewAfter retryAfterUncached) ∧
      ¬ReplayMatches numberedReview (reviewAfter cachedThenUncached) ∧
      callsCounted (reviewAfter cachedThenUncached) = some 2 ∧ callsCounted (reviewAfter retryAfterUncached) = some 1) ∧
    Reaches (attemptStep numberedReview) (fun _ event => SameBinding event) (freshReview publishingDb)
        (reviewAfter rejectedSummaryFirst) ∧
      Reaches (attemptStep numberedReview) (fun _ event => SameBinding event) (freshReview publishingDb)
        (reviewAfter retryAfterRejected) ∧
      ¬ReplayMatches numberedReview (reviewAfter retryAfterRejected) ∧
      callsCounted (reviewAfter rejectedSummaryFirst) = some 1 ∧
        callsCounted (reviewAfter retryAfterRejected) = some 2 := by
  refine ⟨⟨reaches_runTo _ _ _ (by decide +kernel), reaches_runTo _ _ _ (by decide +kernel), ?_, by decide +kernel,
    by decide +kernel⟩, reaches_runTo _ _ _ (by decide +kernel), reaches_runTo _ _ _ (by decide +kernel), ?_,
    by decide +kernel, by decide +kernel⟩
  · intro matches_
    rcases calls_match matches_ with none_ | same
    · exact absurd none_ (by decide +kernel)
    · exact absurd same (by decide +kernel)
  · intro matches_
    rcases calls_match matches_ with none_ | same
    · exact absurd none_ (by decide +kernel)
    · exact absurd same (by decide +kernel)

-- GitHub accepts a batch, the worker crashes, and the retry recovers the review and finishes the decision.
def crashAfterSend : List (AttemptEvent Nat Unit) :=
  [.start "" true true [], .publish .review (oneFinding "") true true, .send [.accepted 1], .crash,
    .start "" true true [], .replay false, .answer, .record (some 1) heldLease heldLease, .finish]

def reviewRecovered : ReviewRun Nat Unit :=
  runTo (attemptStep numberedReview) (fun run event => decide (ReplayAllowed run event)) crashAfterSend
    (freshReview publishingDb) (freshReview publishingDb)

theorem recovered_review_replays : callsCounted reviewRecovered = some 1 ∧ reviewRecovered.reviews.length = 1 ∧
    ReplayMatches numberedReview reviewRecovered :=
  ⟨by decide +kernel, by decide +kernel,
    findings_replayed numberedReview publishingDb reviewRecovered (reaches_runTo _ _ _ (by decide +kernel))⟩

end Histories
end PrAgent
