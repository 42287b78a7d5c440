import PrAgent.ReviewAttemptShape
import Mathlib.Data.List.TakeDrop
set_option autoImplicit false

namespace PrAgent

variable {Finding Reaffirmed : Type}

-- The change of the ledger by a saved decision.
def decisionDelta (receipts : Table InlineBatchId (BatchReceipt Finding)) (saved : RecoveryDecision Finding Reaffirmed) :
    FindingLedgerDelta Finding Reaffirmed :=
  match saved.canonical with
  | .summary => noDelta
  | .threads decision =>
    if decision.resultKind ≠ .remote then localDelta false decision
    else if saved.settled = some .stopped then noDelta
    else
      match receipts.get? decision.batchId with
      | some receipt => remoteDelta false decision receipt.result
      | none => noDelta

def replayDecisions (receipts : Table InlineBatchId (BatchReceipt Finding)) (ledger : FindingLedger Finding Reaffirmed)
    (decisions : List (RecoveryDecision Finding Reaffirmed)) : FindingLedger Finding Reaffirmed :=
  (decisions.map (decisionDelta receipts)).foldl applyFindingLedgerDelta ledger

def firstLedger : List (RecoveryDecision Finding Reaffirmed) → FindingLedger Finding Reaffirmed
  | ⟨.threads decision, _⟩ :: _ => decision.ledgerBefore
  | _ => createFindingLedger noDelta

-- The ledger after the first `n` saved decisions.
def replayed (run : ReviewRun Finding Reaffirmed) (n : Nat) : FindingLedger Finding Reaffirmed :=
  replayDecisions run.receipts (firstLedger run.decisions) (run.decisions.take n)

-- The replay of the saved decisions is the run that saved them.
structure ReplayMatches (setting : ReviewSetting Finding) (run : ReviewRun Finding Reaffirmed) : Prop where
  before : ∀ n decision settled, run.decisions[n]? = some ⟨.threads decision, settled⟩ →
    decision.ledgerBefore = replayed run n
  ledger : ∀ attempt, run.attempt = some attempt → run.decisions ≠ [] → attempt.ledger = replayed run attempt.next
  pending : ∀ n saved, run.decisions[n]? = some saved → saved.settled = none → n + 1 = run.decisions.length
  once : (run.reviews.map ThreadReview.batchId).Nodup
  silent : ∀ attempt saved event t, run.attempt = some attempt → run.decisions[attempt.next]? = some saved →
    saved.settled.isSome = true → attemptStep setting run event = some t → t.reviews = run.reviews

-- Retries on one binding whose evidence revalidates; no batch and no summary is published past the saved decisions, the
-- first of which is one of `publish_thread`; a key with an accepted review is not sent again.
def ReplayAllowed (run : ReviewRun Finding Reaffirmed) : AttemptEvent Finding Reaffirmed → Prop
  | .start _ visible _ misses => visible = true ∧ misses = []
  | .publish _ _ cacheable stored => run.decisions = [] ∨ ∀ attempt ∈ run.attempt, attempt.saves cacheable stored = true
  | .summarize stored _ => run.decisions ≠ [] ∨ ∀ attempt ∈ run.attempt, attempt.saves true stored = false
  | .send _ => ∀ attempt ∈ run.attempt, ∀ inflight ∈ attempt.inflight,
    run.receipts.get? inflight.decision.batchId = none
  | _ => True

instance (run : ReviewRun Finding Reaffirmed) : DecidablePred (ReplayAllowed run)
  | .start .. | .replay _ | .publish .. | .send _ | .reject | .answer | .record .. | .finish | .fail | .crash | .summarize ..
  | .elsewhere _ => by delta ReplayAllowed; infer_instance

section Replayed

variable {run t : ReviewRun Finding Reaffirmed}

theorem replayed_succ {n : Nat} {saved : RecoveryDecision Finding Reaffirmed} (found : run.decisions[n]? = some saved) :
    replayed run (n + 1) = applyFindingLedgerDelta (replayed run n) (decisionDelta run.receipts saved) := by
  rw [replayed, replayed, replayDecisions, replayDecisions, List.take_add_one, found, Option.toList_some, List.map_append,
    List.foldl_append]
  rfl

variable {receipts : Table InlineBatchId (BatchReceipt Finding)} {decision : CanonicalThreadDecision Finding Reaffirmed}

theorem decisionDelta_sent {settled : Option SettlementOutcome}
    {result : InlinePublishResult Finding} {stored : Bool} (remote : decision.resultKind = .remote)
    (open_ : settled ≠ some .stopped) (found : receipts.get? decision.batchId = some ⟨result, stored⟩) :
    decisionDelta receipts ⟨.threads decision, settled⟩ = remoteDelta false decision result := by
  simp [decisionDelta, remote, open_, found]

theorem decisionDelta_stopped (remote : decision.resultKind = .remote) :
    decisionDelta receipts ⟨.threads decision, some .stopped⟩ = noDelta := by
  simp [decisionDelta, remote]

theorem decisionDelta_local {settled : Option SettlementOutcome}
    (here : decision.resultKind ≠ .remote) :
    decisionDelta receipts ⟨.threads decision, settled⟩ = localDelta false decision := by
  simp [decisionDelta, here]

-- What a step keeps of the saved decisions: each canonical decision, and the settled ones with their changes.
structure SameHistory (run t : ReviewRun Finding Reaffirmed) : Prop where
  canonical : ∀ n : Nat, (t.decisions[n]?).map RecoveryDecision.canonical = (run.decisions[n]?).map RecoveryDecision.canonical
  settled : ∀ (n : Nat) saved, run.decisions[n]? = some saved → saved.settled.isSome = true → t.decisions[n]? = some saved
  deltas : ∀ (n : Nat) saved, run.decisions[n]? = some saved → saved.settled.isSome = true →
    decisionDelta t.receipts saved = decisionDelta run.receipts saved

variable {attempt : Option (ReviewAttempt Finding Reaffirmed)}

theorem SameHistory.refl {db : PublishDb} {reviews : List (ThreadReview Finding)} {outside : Bool} :
    SameHistory run { run with reviews, db, outside, attempt } :=
  ⟨fun _ => rfl, fun _ _ found _ => found, fun _ _ _ _ => rfl⟩

theorem SameHistory.of_settle {sequence : Option Nat} {outcome : SettlementOutcome} :
    SameHistory run { run with decisions := settle run.decisions sequence outcome, attempt } := by
  cases sequence with
  | none => exact SameHistory.refl
  | some sequence =>
      refine ⟨?_, ?_, fun _ _ _ _ => rfl⟩
      · intro n
        rw [get?_settle]
        cases run.decisions[n]? with
        | none => rfl
        | some saved =>
            by_cases here : sequence = n ∧ saved.settled = none
            · simp [here]
            · simp only [Option.map_some, if_neg here]
      · intro n saved found some_
        rw [get?_settle, found]
        have kept : ¬ (sequence = n ∧ saved.settled = none) := by
          rintro ⟨_, none_⟩
          rw [none_] at some_
          cases some_
        rw [Option.map_some, if_neg kept]

theorem SameHistory.of_receipts (shape : AttemptShape run) {reviews : List (ThreadReview Finding)} {outside : Bool}
    (kept : ∀ batchId result, run.receipts.get? batchId = some ⟨result, true⟩ →
      receipts.get? batchId = some ⟨result, true⟩) :
    SameHistory run { run with receipts, reviews, outside, attempt } := by
  refine ⟨fun _ => rfl, fun _ _ found _ => found, ?_⟩
  rintro n ⟨canonical, settled⟩ found some_
  obtain ⟨outcome, rfl⟩ := Option.isSome_iff_exists.mp some_
  cases canonical with
  | summary => rfl
  | threads decision =>
      by_cases here : decision.resultKind = .remote
      · by_cases stopped : outcome = .stopped
        · subst stopped
          rw [decisionDelta_stopped here, decisionDelta_stopped here]
        · have open_ : some outcome ≠ some SettlementOutcome.stopped := fun same => stopped (Option.some.inj same)
          obtain ⟨result, stored⟩ := shape.settled decision outcome (List.mem_of_getElem? found) stopped here
          rw [decisionDelta_sent here open_ stored, decisionDelta_sent here open_ (kept _ _ stored)]
      · rw [decisionDelta_local here, decisionDelta_local here]

theorem SameHistory.firstLedger (same : SameHistory run t) : firstLedger t.decisions = firstLedger run.decisions := by
  have heads := same.canonical 0
  cases old : run.decisions with
  | nil =>
      cases new : t.decisions with
      | nil => rfl
      | cons saved rest => simp [old, new] at heads
  | cons saved rest =>
      cases new : t.decisions with
      | nil => simp [old, new] at heads
      | cons saved' rest' =>
          obtain ⟨canonical, settled⟩ := saved
          obtain ⟨canonical', settled'⟩ := saved'
          have equal : canonical' = canonical := by simpa [old, new] using heads
          subst equal
          cases canonical' with
          | summary => rfl
          | threads decision => rfl

theorem SameHistory.replayed (same : SameHistory run t) {n : Nat}
    (settled : ∀ m saved, m < n → run.decisions[m]? = some saved → saved.settled.isSome = true) :
    replayed t n = replayed run n := by
  rw [PrAgent.replayed, PrAgent.replayed, replayDecisions, replayDecisions, same.firstLedger]
  congr 1
  apply List.ext_getElem?
  intro m
  rw [List.getElem?_map, List.getElem?_map]
  by_cases early : m < n
  · rw [List.getElem?_take_of_lt early, List.getElem?_take_of_lt early]
    cases found : run.decisions[m]? with
    | none =>
        have lost := same.canonical m
        rw [found, Option.map_none, Option.map_eq_none_iff] at lost
        rw [lost]
        rfl
    | some saved =>
        have done := settled m saved early found
        rw [same.settled m saved found done, Option.map_some, Option.map_some, same.deltas m saved found done]
  · rw [List.getElem?_take_eq_none (by omega), List.getElem?_take_eq_none (by omega)]
    rfl

end Replayed

-- Where an attempt stands in the saved decisions.
structure AttemptReplays (run : ReviewRun Finding Reaffirmed) (attempt : ReviewAttempt Finding Reaffirmed) : Prop where
  visible : attempt.visible = true
  misses : attempt.evidenceMisses = []
  settled : ∀ n saved, n < attempt.next → run.decisions[n]? = some saved → saved.settled.isSome = true
  ledger : run.decisions ≠ [] → attempt.ledger = replayed run attempt.next
  inflight : ∀ inflight, attempt.inflight = some inflight →
    inflight.withoutEvidence = false ∧ (inflight.sequence = none → run.decisions = [])

structure FindingsReplay (run : ReviewRun Finding Reaffirmed) : Prop where
  first : ∀ saved, run.decisions[0]? = some saved → ∃ decision, saved.canonical = .threads decision
  before : ∀ n decision settled, run.decisions[n]? = some ⟨.threads decision, settled⟩ →
    decision.ledgerBefore = replayed run n
  attempt : ∀ attempt, run.attempt = some attempt → AttemptReplays run attempt
  sent : ∀ review ∈ run.reviews, (run.receipts.get? review.batchId).isSome = true
  once : (run.reviews.map ThreadReview.batchId).Nodup

section Steps

variable {setting : ReviewSetting Finding} {run t : ReviewRun Finding Reaffirmed}
  {attempt : ReviewAttempt Finding Reaffirmed} {inflight : InflightBatch Finding Reaffirmed}

theorem replay_start (db : PublishDb) :
    FindingsReplay (⟨[], Table.empty, [], db, false, none⟩ : ReviewRun Finding Reaffirmed) where
  first saved found := by cases found
  before n decision settled found := by cases found
  attempt attempt running := by cases running
  sent review listed := by cases listed
  once := List.nodup_nil

theorem pending_before (shape : AttemptShape run) {n m : Nat} {last saved : RecoveryDecision Finding Reaffirmed}
    (found : run.decisions[n]? = some last) (early : m < n) (here : run.decisions[m]? = some saved) :
    saved.settled.isSome = true := by
  cases settled : saved.settled with
  | some outcome => rfl
  | none =>
      have atEnd := shape.pending m saved here settled
      obtain ⟨inside, _⟩ := List.getElem?_eq_some_iff.mp found
      omega

theorem before_of_same (shape : AttemptShape run) (inv : FindingsReplay run) (same : SameHistory run t) (n : Nat)
    (decision : CanonicalThreadDecision Finding Reaffirmed) (settled : Option SettlementOutcome)
    (found : t.decisions[n]? = some ⟨.threads decision, settled⟩) : decision.ledgerBefore = replayed t n := by
  have canonical := same.canonical n
  rw [found, Option.map_some] at canonical
  obtain ⟨⟨old, was⟩, here, equal⟩ := Option.map_eq_some_iff.mp canonical.symm
  simp only at equal
  subst equal
  rw [same.replayed fun m saved early here' => pending_before shape here early here']
  exact inv.before n decision was here

theorem first_of_same (inv : FindingsReplay run) (same : SameHistory run t) (saved : RecoveryDecision Finding Reaffirmed)
    (found : t.decisions[0]? = some saved) : ∃ decision, saved.canonical = .threads decision := by
  have canonical := same.canonical 0
  rw [found, Option.map_some] at canonical
  obtain ⟨old, here, equal⟩ := Option.map_eq_some_iff.mp canonical.symm
  rw [← equal]
  exact inv.first old here

theorem nonempty_of_same (same : SameHistory run t) (some_ : t.decisions ≠ []) : run.decisions ≠ [] := by
  intro none_
  have canonical := same.canonical 0
  cases new : t.decisions with
  | nil => exact some_ new
  | cons saved rest => simp [none_, new] at canonical

theorem FindingsReplay.of_same (inv : FindingsReplay run) (shape : AttemptShape run) (same : SameHistory run t)
    (attempt : ∀ attempt, t.attempt = some attempt → AttemptReplays t attempt)
    (sent : ∀ review ∈ t.reviews, (t.receipts.get? review.batchId).isSome = true)
    (once : (t.reviews.map ThreadReview.batchId).Nodup) : FindingsReplay t :=
  ⟨first_of_same inv same, before_of_same shape inv same, attempt, sent, once⟩

-- An attempt that stays where it is.
theorem AttemptReplays.stay (replays : AttemptReplays run attempt) (same : SameHistory run t) {caching : Bool}
    {flight : Option (InflightBatch Finding Reaffirmed)}
    (inflight : ∀ inflight, flight = some inflight →
      inflight.withoutEvidence = false ∧ (inflight.sequence = none → t.decisions = [])) :
    AttemptReplays t { attempt with caching, inflight := flight } where
  visible := replays.visible
  misses := replays.misses
  settled n saved early found := by
    have canonical := same.canonical n
    rw [found, Option.map_some] at canonical
    obtain ⟨old, here, _⟩ := Option.map_eq_some_iff.mp canonical.symm
    have done := replays.settled n old early here
    rw [same.settled n old here done] at found
    obtain rfl := Option.some.inj found
    exact done
  ledger some_ := by
    rw [same.replayed replays.settled]
    exact replays.ledger (nonempty_of_same same some_)
  inflight := inflight

theorem AttemptReplays.idle (replays : AttemptReplays run attempt) (same : SameHistory run t) {caching : Bool} :
    AttemptReplays t { attempt with caching, inflight := none } := by
  refine replays.stay same ?_
  intro batch flying
  cases flying

-- An attempt that goes past a settled decision with the change of it.
theorem AttemptReplays.advance (replays : AttemptReplays run attempt) (same : SameHistory run t)
    {saved : RecoveryDecision Finding Reaffirmed} (found : t.decisions[attempt.next]? = some saved)
    (settled : saved.settled.isSome = true) {ledger : FindingLedger Finding Reaffirmed}
    (changed : ledger = applyFindingLedgerDelta attempt.ledger (decisionDelta t.receipts saved)) :
    AttemptReplays t { attempt with next := attempt.next + 1, ledger, inflight := none } where
  visible := replays.visible
  misses := replays.misses
  settled n other early here := by
    have stays : AttemptReplays t { attempt with caching := true, inflight := none } := replays.idle same
    by_cases before : n < attempt.next
    · exact stays.settled n other before here
    · obtain rfl : n = attempt.next := by
        simp only at early
        omega
      rw [found] at here
      obtain rfl := Option.some.inj here
      exact settled
  ledger some_ := by
    rw [replayed_succ found, same.replayed replays.settled, ← replays.ledger (nonempty_of_same same some_)]
    exact changed
  inflight batch flying := by cases flying

section Prepare

variable {saved : RecoveryDecision Finding Reaffirmed} {attempt' : Option (ReviewAttempt Finding Reaffirmed)}

theorem replayed_append (some_ : run.decisions ≠ []) {n : Nat} (inside : n ≤ run.decisions.length) :
    replayed { run with decisions := run.decisions ++ [saved], attempt := attempt' } n = replayed run n := by
  have first : firstLedger (run.decisions ++ [saved]) = firstLedger run.decisions := by
    cases decisions : run.decisions with
    | nil => exact absurd decisions some_
    | cons head rest =>
        obtain ⟨canonical, settled⟩ := head
        cases canonical with
        | summary => rfl
        | threads decision => rfl
  simp only [replayed, first, List.take_append_of_le_length inside]

theorem FindingsReplay.of_prepare (inv : FindingsReplay run) (running : run.attempt = some attempt) (atEnd : attempt.next = run.decisions.length)
    (first : run.decisions = [] → ∃ decision, saved.canonical = .threads decision)
    (planned : ∀ decision, saved.canonical = .threads decision → decision.ledgerBefore = attempt.ledger)
    (resumes : ∀ attempt, attempt' = some attempt →
      AttemptReplays { run with decisions := run.decisions ++ [saved], attempt := attempt' } attempt) :
    FindingsReplay { run with decisions := run.decisions ++ [saved], attempt := attempt' } where
  first head found := by
    cases decisions : run.decisions with
    | nil =>
        simp only [decisions, List.nil_append, List.getElem?_cons_zero] at found
        obtain rfl := Option.some.inj found
        exact first decisions
    | cons old rest =>
        apply inv.first head
        simpa [decisions] using found
  before n decision settled found := by
    simp only at found
    by_cases early : n < run.decisions.length
    · rw [List.getElem?_append_left early] at found
      have some_ : run.decisions ≠ [] := List.ne_nil_of_length_pos (by omega)
      rw [replayed_append some_ (Nat.le_of_lt early)]
      exact inv.before n decision settled found
    · obtain ⟨inside, _⟩ := List.getElem?_eq_some_iff.mp found
      rw [List.length_append, List.length_singleton] at inside
      obtain rfl : n = run.decisions.length := by omega
      rw [List.getElem?_concat_length] at found
      obtain rfl := Option.some.inj found
      cases decisions : run.decisions with
      | nil => simp [replayed, replayDecisions, firstLedger]
      | cons old rest =>
          have some_ : run.decisions ≠ [] := by simp [decisions]
          rw [← decisions, replayed_append some_ (Nat.le_refl _), planned decision rfl, ← atEnd]
          exact (inv.attempt attempt running).ledger some_
  attempt := resumes
  sent := inv.sent
  once := inv.once

end Prepare

theorem answers_kept (shape : AttemptShape run) (running : run.attempt = some attempt)
    (flying : attempt.inflight = some inflight) {result : InlinePublishResult Finding}
    (answers : Answers run inflight result) (batchId : InlineBatchId) (old : InlinePublishResult Finding)
    (found : run.receipts.get? batchId = some ⟨old, true⟩) :
    (run.receipts.set inflight.decision.batchId ⟨result, true⟩).get? batchId = some ⟨old, true⟩ := by
  by_cases here : batchId = inflight.decision.batchId
  · subst here
    rw [Table.get?_set_self]
    cases answers with
    | persisted sent stored =>
        have receipt := (shape.inflight attempt inflight running flying).receipt
        rw [sent] at receipt
        obtain ⟨other, unsaved⟩ := receipt
        rw [found] at unsaved
        cases unsaved
    | retained prepared remote stored =>
        rw [found] at stored
        cases stored
        rfl
    | recovered prepared remote stored =>
        rw [found] at stored
        cases stored
  · rw [Table.get?_set_of_ne _ _ _ here]
    exact found

theorem fresh_kept (fresh : run.receipts.get? inflight.decision.batchId = none) (receipt : BatchReceipt Finding)
    (batchId : InlineBatchId) (old : InlinePublishResult Finding)
    (found : run.receipts.get? batchId = some ⟨old, true⟩) :
    (run.receipts.set inflight.decision.batchId receipt).get? batchId = some ⟨old, true⟩ := by
  rw [Table.get?_set_of_ne _ _ _ (Table.ne_of_stored found fresh)]
  exact found

theorem sent_set (inv : FindingsReplay run) (batchId : InlineBatchId) (receipt : BatchReceipt Finding) :
    ∀ review ∈ run.reviews, ((run.receipts.set batchId receipt).get? review.batchId).isSome = true := by
  intro review listed
  by_cases here : review.batchId = batchId
  · rw [here, Table.get?_set_self]
    rfl
  · rw [Table.get?_set_of_ne _ _ _ here]
    exact inv.sent review listed

theorem replay_publish (inv : FindingsReplay run) (running : run.attempt = some attempt)
    (live : attempt.live run.decisions = true) {source : FindingSource} {batch : ReconciledBatch Finding Reaffirmed} :
    FindingsReplay (
      let decision := planFindingBatch setting.before setting.placementKey setting.caps attempt.headSha source
        attempt.ledger batch
      { run with
        decisions := run.decisions ++ [⟨.threads decision, none⟩]
        attempt := some { attempt with
          inflight := some ⟨decision, some run.decisions.length, false, false, .prepared⟩ } }) := by
  have replays := inv.attempt attempt running
  obtain ⟨atEnd, all⟩ := live_settled live replays.visible
  refine inv.of_prepare running atEnd (fun _ => ⟨_, rfl⟩) ?_ ?_
  · rintro decision ⟨⟩
    rfl
  · rintro _ ⟨⟩
    refine ⟨replays.visible, replays.misses, ?_, ?_, ?_⟩
    · intro n saved early found
      have inside : n < run.decisions.length := atEnd ▸ early
      simp only [List.getElem?_append_left inside] at found
      exact all saved (List.mem_of_getElem? found)
    · intro _
      by_cases some_ : run.decisions = []
      · simp only [some_, List.length_nil] at atEnd
        simp [replayed, replayDecisions, some_, atEnd, firstLedger, planFindingBatch]
      · simp only [replayed_append some_ (Nat.le_of_eq atEnd)]
        exact replays.ledger some_
    · rintro _ ⟨⟩
      exact ⟨rfl, nofun⟩

theorem replay_summarize (inv : FindingsReplay run) (running : run.attempt = some attempt)
    (live : attempt.live run.decisions = true) (some_ : run.decisions ≠ []) {settled : Option SettlementOutcome} :
    FindingsReplay { run with
      decisions := run.decisions ++ [⟨.summary, settled⟩]
      attempt := if settled.isSome then some { attempt with next := attempt.next + 1 } else none } := by
  have replays := inv.attempt attempt running
  obtain ⟨atEnd, all⟩ := live_settled live replays.visible
  refine inv.of_prepare running atEnd (fun none_ => absurd none_ some_) (fun decision threads => by cases threads) ?_
  intro other same
  cases settled with
  | none => cases same
  | some outcome =>
      obtain rfl := Option.some.inj same
      have found : (run.decisions ++ [(⟨.summary, some outcome⟩ : RecoveryDecision Finding Reaffirmed)])[attempt.next]? =
          some ⟨.summary, some outcome⟩ := by rw [atEnd, List.getElem?_concat_length]
      refine ⟨replays.visible, replays.misses, ?_, ?_, ?_⟩
      · intro n saved early here
        by_cases before : n < run.decisions.length
        · simp only [List.getElem?_append_left before] at here
          exact all saved (List.mem_of_getElem? here)
        · obtain rfl : n = attempt.next := by
            simp only at early
            omega
          simp only at here
          rw [found] at here
          obtain rfl := Option.some.inj here
          rfl
      · intro _
        rw [replayed_succ found, replayed_append some_ (Nat.le_of_eq atEnd), ← replays.ledger some_]
        exact (apply_noDelta attempt.ledger).symm
      · intro batch flying
        simp only [live_idle live] at flying
        cases flying

variable (shape : AttemptShape run)
include shape

theorem replay_send (inv : FindingsReplay run) (running : run.attempt = some attempt)
    (flying : attempt.inflight = some inflight) (unsent : run.receipts.get? inflight.decision.batchId = none)
    {result : InlinePublishResult Finding} {reviewId : Nat} {outside : Bool} :
    FindingsReplay { run with
      receipts := run.receipts.set inflight.decision.batchId ⟨result, false⟩
      reviews := run.reviews ++ [⟨inflight.decision.batchId, reviewId, result.posted⟩]
      outside
      attempt := some { attempt with inflight := some { inflight with stage := .sent } } } := by
  have stored := sent_set inv inflight.decision.batchId ⟨result, false⟩
  refine inv.of_same shape (SameHistory.of_receipts shape (fresh_kept unsent _)) ?_ ?_ ?_
  · rintro _ ⟨⟩
    refine (inv.attempt attempt running).stay (SameHistory.of_receipts shape (fresh_kept unsent _)) ?_
    rintro _ ⟨⟩
    exact (inv.attempt attempt running).inflight inflight flying
  · intro review listed
    rcases List.mem_append.mp listed with before | new
    · exact stored review before
    · obtain rfl := List.mem_singleton.mp new
      simp only [Table.get?_set_self, Option.isSome_some]
  · rw [List.map_append, List.map_singleton, List.nodup_append]
    refine ⟨inv.once, List.nodup_singleton _, ?_⟩
    rintro batchId before _ new rfl
    obtain ⟨review, listed, same⟩ := List.mem_map.mp before
    rw [List.mem_singleton] at new
    have some_ := inv.sent review listed
    rw [same, new, unsent] at some_
    cases some_

theorem replay_reject (inv : FindingsReplay run) (running : run.attempt = some attempt)
    (flying : attempt.inflight = some inflight) (mutable_ : inflight.mutable run.decisions = true) :
    FindingsReplay (rejectStep run attempt inflight) := by
  have replays := inv.attempt attempt running
  refine inv.of_same shape SameHistory.of_settle ?_ inv.sent inv.once
  intro other same
  cases replay : inflight.replay with
  | true => simp [rejectStep, replay] at same
  | false =>
      simp only [rejectStep, replay, Bool.false_eq_true, if_false] at same ⊢
      obtain rfl := Option.some.inj same
      cases sequence : inflight.sequence with
      | none =>
          rw [Option.isSome_none, if_neg Bool.false_ne_true]
          exact replays.idle SameHistory.refl
      | some q =>
          rw [Option.isSome_some, if_pos rfl]
          obtain ⟨_, rfl, settled, found, _⟩ := (shape.inflight attempt inflight running flying).saved q sequence
          have open_ : settled = none := by
            simp only [InflightBatch.mutable, Bool.and_eq_true, sequence, Option.bind_some, found, Option.all_some]
              at mutable_
            exact Option.isNone_iff_eq_none.mp mutable_.2
          obtain ⟨final, after, ⟨_, rfl⟩ | some_⟩ := settle_found .stopped found
          · refine replays.advance SameHistory.of_settle after rfl ?_
            rw [decisionDelta_stopped (mutable_remote mutable_).1, apply_noDelta]
          · rw [open_] at some_
            cases some_

-- The change with which a batch finishes is that of its saved decision.
theorem finishes_delta (running : run.attempt = some attempt)
    (flying : attempt.inflight = some inflight) {delta : FindingLedgerDelta Finding Reaffirmed}
    (finishes : Finishes inflight delta) (evidence : inflight.withoutEvidence = false)
    {settled : Option SettlementOutcome} (open_ : settled ≠ some .stopped) :
    delta = decisionDelta run.receipts ⟨.threads inflight.decision, settled⟩ := by
  by_cases remote : inflight.decision.resultKind = .remote
  · obtain ⟨result, stored, rfl⟩ := finishes_saved shape running flying finishes remote
    rw [decisionDelta_sent remote open_ stored, evidence]
  · have sent := (shape.inflight attempt inflight running flying).remote
    cases finishes with
    | kept prepared here => rw [decisionDelta_local here]
    | dropped answered none_ => exact absurd (sent (by rw [answered]; nofun)) remote
    | published recorded => exact absurd (sent (by rw [recorded]; nofun)) remote

theorem replay_finish (inv : FindingsReplay run) (running : run.attempt = some attempt)
    (flying : attempt.inflight = some inflight) {delta : FindingLedgerDelta Finding Reaffirmed}
    (finishes : Finishes inflight delta) : FindingsReplay (finishStep run attempt inflight delta) := by
  have replays := inv.attempt attempt running
  obtain ⟨evidence, unsaved⟩ := replays.inflight inflight flying
  refine inv.of_same shape SameHistory.of_settle ?_ inv.sent inv.once
  intro other same
  obtain rfl := Option.some.inj same
  cases sequence : inflight.sequence with
  | none =>
      have none_ : (finishStep run attempt inflight delta).decisions = [] := by
        rw [finishStep, sequence]
        exact unsaved sequence
      refine ⟨replays.visible, replays.misses, ?_, fun some_ => absurd none_ some_, ?_⟩
      · intro n saved early found
        rw [none_] at found
        cases found
      · intro batch flying
        cases flying
  | some q =>
      rw [Option.isSome_some, if_pos rfl]
      obtain ⟨_, rfl, settled, found, open_⟩ := (shape.inflight attempt inflight running flying).saved q sequence
      have same : SameHistory run (finishStep run attempt inflight delta) := SameHistory.of_settle
      obtain ⟨final, after, how⟩ := settle_found .accepted found
      have stays : (some final : Option SettlementOutcome) ≠ some .stopped := by
        rcases how with ⟨_, rfl⟩ | rfl
        · nofun
        · exact open_
      have stored : (finishStep run attempt inflight delta).decisions[attempt.next]? =
          some ⟨.threads inflight.decision, some final⟩ := by
        rw [finishStep, sequence]
        exact after
      refine replays.advance same stored rfl ?_
      rw [finishes_delta shape running flying finishes evidence stays]
      rfl

theorem replay_step {event : AttemptEvent Finding Reaffirmed} (inv : FindingsReplay run)
    (ok : ReplayAllowed run event) (moved : attemptStep setting run event = some t) : FindingsReplay t := by
  cases attempt_move moved with
  | @start headSha visible caching misses idle =>
      obtain ⟨rfl, rfl⟩ := ok
      refine inv.of_same shape SameHistory.refl ?_ inv.sent inv.once
      rintro _ ⟨⟩
      refine ⟨rfl, rfl, fun n saved early => absurd early (Nat.not_lt_zero n), ?_, fun batch flying => by cases flying⟩
      intro some_
      cases decisions : run.decisions with
      | nil => exact absurd decisions some_
      | cons head rest =>
          obtain ⟨decision, threads⟩ := inv.first head (by rw [decisions, List.getElem?_cons_zero])
          obtain ⟨canonical, settled⟩ := head
          simp only at threads
          subst threads
          simp [startingLedger, decisions, createFindingLedger_ledger, replayed, replayDecisions, firstLedger]
  | crash =>
      refine inv.of_same shape SameHistory.refl ?_ inv.sent inv.once
      intro _ running
      cases running
  | elsewhere =>
      refine inv.of_same shape SameHistory.refl ?_ inv.sent inv.once
      intro attempt running
      exact (inv.attempt attempt running).stay SameHistory.refl (inv.attempt attempt running).inflight
  | @replaySummary attempt saved published decisions running idle visible found summary settles =>
      have replays := inv.attempt attempt running
      have unchanged : ∀ receipts settled, attempt.ledger =
          applyFindingLedgerDelta attempt.ledger (decisionDelta receipts ⟨saved.canonical, settled⟩) := by
        intro receipts settled
        rw [summary]
        exact (apply_noDelta attempt.ledger).symm
      rcases settles with ⟨rfl, settled | missed⟩ | rfl
      · refine inv.of_same shape SameHistory.refl ?_ inv.sent inv.once
        rintro _ ⟨⟩
        rw [idle]
        refine replays.advance SameHistory.refl ?_ settled (unchanged _ _)
        exact found
      · exact absurd replays.misses missed
      · refine inv.of_same shape SameHistory.of_settle ?_ inv.sent inv.once
        rintro _ ⟨⟩
        rw [idle]
        obtain ⟨final, after, _⟩ := settle_found .accepted found
        exact replays.advance SameHistory.of_settle after rfl (unchanged _ _)
  | @replayLocal attempt decision settled published missed running idle visible found here misses =>
      have replays := inv.attempt attempt running
      obtain rfl : missed = false := by simp [misses, replays.misses]
      rw [if_neg Bool.false_ne_true]
      refine inv.of_same shape SameHistory.of_settle ?_ inv.sent inv.once
      rintro _ ⟨⟩
      rw [idle]
      obtain ⟨final, after, _⟩ := settle_found .accepted found
      refine replays.advance SameHistory.of_settle after rfl ?_
      rw [decisionDelta_local here]
  | @replayStopped attempt decision published running idle visible found remote =>
      have replays := inv.attempt attempt running
      refine inv.of_same shape SameHistory.refl ?_ inv.sent inv.once
      rintro _ ⟨⟩
      rw [idle]
      have stopped : (⟨.threads decision, some .stopped⟩ : RecoveryDecision Finding Reaffirmed).settled.isSome = true := rfl
      refine replays.advance SameHistory.refl ?_ stopped ?_
      · exact found
      · rw [decisionDelta_stopped remote]
  | @replayRemote attempt decision settled published missed running idle visible found remote open_ misses =>
      have replays := inv.attempt attempt running
      obtain rfl : missed = false := by simp [misses, replays.misses]
      refine inv.of_same shape SameHistory.refl ?_ inv.sent inv.once
      rintro _ ⟨⟩
      refine replays.stay SameHistory.refl ?_
      rintro _ ⟨⟩
      exact ⟨rfl, nofun⟩
  | @publishSaved attempt source batch cacheable stored running live saves =>
      exact replay_publish inv running live
  | @publishUnsaved attempt source batch cacheable stored running live saves =>
      have replays := inv.attempt attempt running
      have none_ : run.decisions = [] := by
        rcases ok with none_ | saved
        · exact none_
        · rw [saved attempt running] at saves
          cases saves
      refine inv.of_same shape SameHistory.refl ?_ inv.sent inv.once
      rintro _ ⟨⟩
      refine replays.stay SameHistory.refl ?_
      rintro _ ⟨⟩
      exact ⟨rfl, fun _ => none_⟩
  | @sendDropped attempt inflight responses result running flying prepared mutable_ fresh published none_ =>
      have unsent := ok attempt running inflight flying
      have same : SameHistory run (answerStep run attempt inflight result) :=
        SameHistory.of_receipts shape (fresh_kept unsent _)
      refine inv.of_same shape same ?_ (sent_set inv _ _) inv.once
      rintro _ ⟨⟩
      refine (inv.attempt attempt running).stay same ?_
      rintro _ ⟨⟩
      exact (inv.attempt attempt running).inflight inflight flying
  | @sendAccepted attempt inflight responses result reviewId running flying prepared mutable_ fresh published accepted =>
      exact replay_send shape inv running flying (ok attempt running inflight flying)
  | @reject attempt inflight running flying prepared mutable_ fresh =>
      exact replay_reject shape inv running flying mutable_
  | @answer attempt inflight result running flying answers =>
      have same : SameHistory run (answerStep run attempt inflight result) :=
        SameHistory.of_receipts shape (answers_kept shape running flying answers)
      refine inv.of_same shape same ?_ (sent_set inv _ _) inv.once
      rintro _ ⟨⟩
      refine (inv.attempt attempt running).stay same ?_
      rintro _ ⟨⟩
      exact (inv.attempt attempt running).inflight inflight flying
  | @record attempt inflight leaseEpoch before after result db running flying answered =>
      refine inv.of_same shape SameHistory.refl ?_ inv.sent inv.once
      rintro _ ⟨⟩
      refine (inv.attempt attempt running).stay SameHistory.refl ?_
      rintro _ ⟨⟩
      exact (inv.attempt attempt running).inflight inflight flying
  | @finish attempt inflight delta running flying finishes =>
      exact replay_finish shape inv running flying finishes
  | @fail attempt inflight running flying unrecorded =>
      refine inv.of_same shape SameHistory.refl ?_ inv.sent inv.once
      intro other same
      cases sequence : inflight.sequence with
      | some q => simp [failStep, sequence] at same
      | none =>
          simp only [failStep, sequence, Option.isSome_none, Bool.false_eq_true, if_false] at same ⊢
          obtain rfl := Option.some.inj same
          exact (inv.attempt attempt running).idle SameHistory.refl
  | @summarizeSaved attempt stored settled running live saves =>
      have some_ : run.decisions ≠ [] := by
        rcases ok with some_ | unsaved
        · exact some_
        · rw [unsaved attempt running] at saves
          cases saves
      exact replay_summarize inv running live some_
  | @summarizeUnsaved attempt stored settled running live saves =>
      refine inv.of_same shape SameHistory.refl ?_ inv.sent inv.once
      rintro _ ⟨⟩
      rw [live_idle live]
      exact (inv.attempt attempt running).idle SameHistory.refl

end Steps
end PrAgent
