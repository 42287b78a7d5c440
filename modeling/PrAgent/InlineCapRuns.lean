import PrAgent.FindingReplayRuns
import PrAgent.InlineCapInvariant
set_option autoImplicit false

namespace PrAgent

section Runs

variable {Finding Reaffirmed : Type} {setting : ReviewSetting Finding} {db : PublishDb}
  {run : ReviewRun Finding Reaffirmed}

theorem cap_run (cap : ThreadCap setting Reaffirmed)
    (reached : Reaches (attemptStep setting) (CapAllowed cap) (freshReview db) run) :
    AttemptShape run ∧ CapInvariant cap run := by
  refine reached.invariant (fun run => AttemptShape run ∧ CapInvariant cap run) ⟨shape_start db, cap_start db⟩ ?_
  intro run event t ih ok moved
  exact ⟨shape_step ih.1 moved, cap_step ih.1 ih.2 ok moved⟩

end Runs

def CapsAllowed {Finding Reaffirmed : Type} (setting : ReviewSetting Finding) (run : ReviewRun Finding Reaffirmed)
    (event : AttemptEvent Finding Reaffirmed) : Prop :=
  CapAllowed (inlineCommentCap setting) run event ∧ CapAllowed (threadCallCap setting) run event

instance {Finding Reaffirmed : Type} (setting : ReviewSetting Finding) (run : ReviewRun Finding Reaffirmed) :
    DecidablePred (CapsAllowed setting run) :=
  fun event => inferInstanceAs (Decidable (CapAllowed (inlineCommentCap setting) run event ∧
    CapAllowed (threadCallCap setting) run event))

def inlineComments {Finding Reaffirmed : Type} (run : ReviewRun Finding Reaffirmed) : Nat :=
  (run.reviews.map fun review => review.comments.length).sum

theorem inline_caps_kept {Finding Reaffirmed : Type} (setting : ReviewSetting Finding) (db : PublishDb)
    (run : ReviewRun Finding Reaffirmed)
    (reached : Reaches (attemptStep setting) (CapsAllowed setting) (freshReview db) run) :
    inlineComments run ≤ setting.caps.maxInlineComments ∧ run.reviews.length ≤ setting.caps.maxThreadPublishCalls := by
  have comments := (reached.restrict (fun _ => True) trivial (fun _ _ _ _ _ _ => trivial) fun _ _ _ ok => ok.1).1
  have calls := (reached.restrict (fun _ => True) trivial (fun _ _ _ _ _ _ => trivial) fun _ _ _ ok => ok.2).1
  have fewComments := (cap_run _ comments).2.total
  have fewCalls := (cap_run _ calls).2.total
  refine ⟨fewComments, ?_⟩
  simpa [postedTotal, threadCallCap] using fewCalls

section Histories

-- The retry replays the cached batch only, and has room for one more.
def uncachedThenRetry : List (AttemptEvent Nat Unit) :=
  retryAfterUncached ++ .publish .review (oneFinding "b") false true :: throughGitHub 3

-- Each attempt crashes after GitHub accepted its batch and before the batch is recorded.
def acceptedThenCrash (findingId : String) (reviewId : Nat) : List (AttemptEvent Nat Unit) :=
  [.start "" true false [], .publish .review (oneFinding findingId) false true, .send [.accepted reviewId], .crash]

def unrecordedThrice : List (AttemptEvent Nat Unit) :=
  acceptedThenCrash "" 1 ++ acceptedThenCrash "a" 2 ++ acceptedThenCrash "b" 3

def reviewThrough (events : List (AttemptEvent Nat Unit)) : ReviewRun Nat Unit :=
  runTo (attemptStep numberedReview) (fun _ _ => true) events (freshReview publishingDb) (freshReview publishingDb)

-- Both caps are two.
theorem caps_exceeded :
    (Reaches (attemptStep numberedReview) (fun _ _ => True) (freshReview publishingDb) (reviewThrough uncachedThenRetry) ∧
      inlineComments (reviewThrough uncachedThenRetry) = 3 ∧ (reviewThrough uncachedThenRetry).reviews.length = 3) ∧
    Reaches (attemptStep numberedReview) (fun _ _ => True) (freshReview publishingDb) (reviewThrough unrecordedThrice) ∧
      inlineComments (reviewThrough unrecordedThrice) = 3 ∧ (reviewThrough unrecordedThrice).reviews.length = 3 := by
  refine ⟨⟨?_, by decide +kernel, by decide +kernel⟩, ?_, by decide +kernel, by decide +kernel⟩
  · exact reaches_runTo uncachedThenRetry _ _ (by decide +kernel)
  · exact reaches_runTo unrecordedThrice _ _ (by decide +kernel)

-- A saved batch, a crash, and a retry that replays it before it publishes another one.
def savedThenRetry : List (AttemptEvent Nat Unit) :=
  crashAfterSend ++ .publish .review (oneFinding "a") true true :: throughGitHub 2

def reviewWithinCaps : ReviewRun Nat Unit :=
  runTo (attemptStep numberedReview) (fun run event => decide (CapsAllowed numberedReview run event)) savedThenRetry
    (freshReview publishingDb) (freshReview publishingDb)

theorem retried_review_within_caps : inlineComments reviewWithinCaps = 2 ∧
    inlineComments reviewWithinCaps ≤ 2 ∧ reviewWithinCaps.reviews.length ≤ 2 :=
  ⟨by decide +kernel, inline_caps_kept numberedReview publishingDb reviewWithinCaps
    (reaches_runTo _ _ _ (by decide +kernel))⟩

end Histories
end PrAgent
