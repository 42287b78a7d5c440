import PrAgent.InlineCaps
set_option autoImplicit false

namespace PrAgent

variable {Finding Reaffirmed : Type} {setting : ReviewSetting Finding}

-- Whether an attempt takes its ledger from the first saved decision.
def startsSaved (visible : Bool) : List (RecoveryDecision Finding Reaffirmed) → Bool
  | ⟨.threads _, _⟩ :: _ => visible
  | _ => false

-- A batch without a saved decision that GitHub accepted and that no ledger or record counts.
def InflightBatch.uncounted (inflight : InflightBatch Finding Reaffirmed) : Bool :=
  match inflight.sequence, inflight.stage with
  | none, .sent => true
  | none, .answered result => result.review.isSome
  | _, _ => false

-- No attempt replays saved decisions past which a batch was sent; an attempt that does not start from a saved decision
-- loads every posted review; a call does not fail between the acceptance of an unsaved batch and its record; and no
-- operation key with an accepted review is sent again.
def CapAllowed (cap : ThreadCap setting Reaffirmed) (run : ReviewRun Finding Reaffirmed) :
    AttemptEvent Finding Reaffirmed → Prop
  | .start _ visible _ _ =>
    (visible = true → run.outside = false) ∧
      (startsSaved visible run.decisions = true ∨
        postedTotal cap run.reviews ≤ cap.counted (setting.loaded run.db).toFindingLedgerDelta)
  | .send _ => ∀ attempt ∈ run.attempt, ∀ inflight ∈ attempt.inflight,
    run.receipts.get? inflight.decision.batchId = none
  | .fail => ∀ attempt ∈ run.attempt, ∀ inflight ∈ attempt.inflight, inflight.uncounted = false
  | _ => True

instance (cap : ThreadCap setting Reaffirmed) (run : ReviewRun Finding Reaffirmed) : DecidablePred (CapAllowed cap run)
  | .start .. | .replay _ | .publish .. | .send _ | .reject | .answer | .record .. | .finish | .fail | .crash | .summarize ..
  | .elsewhere _ => by delta CapAllowed; infer_instance

-- What the ledger of an attempt makes of the reviews on GitHub.
structure AttemptWithin (cap : ThreadCap setting Reaffirmed) (run : ReviewRun Finding Reaffirmed)
    (attempt : ReviewAttempt Finding Reaffirmed) : Prop where
  counted : postedTotal cap run.reviews ≤ cap.counted attempt.ledger.toFindingLedgerDelta +
    (if attempt.visible then restWeight cap run.receipts run.decisions attempt.next else 0) +
      openWeight cap run.receipts attempt.inflight
  unsent : ∀ inflight, attempt.inflight = some inflight → inflight.sequence = none → inflight.stage = .prepared →
    inflight.decision.resultKind = .remote →
    cap.counted attempt.ledger.toFindingLedgerDelta + cap.weigh inflight.decision.inline.length ≤ cap.limit
  inside : attempt.visible = true → attempt.caching = true ∨ attempt.next < run.decisions.length → run.outside = false
  uncached : ∀ inflight, attempt.inflight = some inflight → inflight.sequence = none → attempt.caching = false

structure CapInvariant (cap : ThreadCap setting Reaffirmed) (run : ReviewRun Finding Reaffirmed) : Prop where
  total : postedTotal cap run.reviews ≤ cap.limit
  first : run.outside = false → ∀ decision settled rest, run.decisions = ⟨.threads decision, settled⟩ :: rest →
    postedTotal cap run.reviews ≤ cap.counted decision.ledgerBefore.toFindingLedgerDelta +
      restWeight cap run.receipts run.decisions 0
  pendingFits : run.outside = false → ∀ (n : Nat) decision, run.decisions[n]? = some ⟨.threads decision, none⟩ →
    decision.resultKind = .remote → run.receipts.get? decision.batchId = none →
    postedTotal cap run.reviews + cap.weigh decision.inline.length ≤ cap.limit
  outsideSaved : run.outside = true → run.decisions ≠ []
  attempt : ∀ attempt, run.attempt = some attempt → AttemptWithin cap run attempt

section Steps

variable {cap : ThreadCap setting Reaffirmed} {run t : ReviewRun Finding Reaffirmed}
  {attempt : ReviewAttempt Finding Reaffirmed} {inflight : InflightBatch Finding Reaffirmed}

theorem cap_start (db : PublishDb) :
    CapInvariant cap (⟨[], Table.empty, [], db, false, none⟩ : ReviewRun Finding Reaffirmed) where
  total := Nat.zero_le _
  first _ decision settled rest decisions := by cases decisions
  pendingFits _ n decision found := by cases found
  outsideSaved outside := by cases outside
  attempt attempt running := by cases running

variable {receipts : Table InlineBatchId (BatchReceipt Finding)}

theorem open_saved {flight : InflightBatch Finding Reaffirmed}
    {sequence : Nat} (saved : flight.sequence = some sequence) : openWeight cap receipts (some flight) = 0 := by
  obtain ⟨decision, _, replay, withoutEvidence, stage⟩ := flight
  simp only at saved
  subst saved
  rfl

theorem open_prepared {flight : InflightBatch Finding Reaffirmed}
    (prepared : flight.stage = .prepared) : openWeight cap receipts (some flight) = 0 := by
  obtain ⟨decision, sequence, replay, withoutEvidence, _⟩ := flight
  simp only at prepared
  subst prepared
  cases sequence with
  | none => rfl
  | some sequence => rfl

theorem open_flown (flight : InflightBatch Finding Reaffirmed) (unsaved : flight.sequence = none) (flown : flight.stage ≠ .prepared) :
    openWeight cap receipts (some flight) = receiptWeight cap (receipts.get? flight.decision.batchId) := by
  obtain ⟨decision, _, replay, withoutEvidence, stage⟩ := flight
  simp only at unsaved
  subst unsaved
  cases stage with
  | prepared => exact absurd rfl flown
  | sent => rfl
  | answered result => rfl
  | recorded result => rfl

-- A step that leaves decisions, receipts and reviews alone.
theorem CapInvariant.of_attempt (inv : CapInvariant cap run) {db : PublishDb} {attempt' : Option (ReviewAttempt Finding Reaffirmed)}
    (attempt : ∀ attempt, attempt' = some attempt → AttemptWithin cap run attempt) :
    CapInvariant cap { run with db, attempt := attempt' } where
  total := inv.total
  first := inv.first
  pendingFits := inv.pendingFits
  outsideSaved := inv.outsideSaved
  attempt other running := by
    obtain ⟨counted, unsent, inside, uncached⟩ := attempt other running
    exact ⟨counted, unsent, inside, uncached⟩

-- A step that settles a decision, or none, with the weights as they were.
theorem CapInvariant.of_settle (inv : CapInvariant cap run) {sequence : Option Nat} {outcome : SettlementOutcome}
    {attempt' : Option (ReviewAttempt Finding Reaffirmed)}
    (weights : ∀ n, restWeight cap run.receipts (settle run.decisions sequence outcome) n =
      restWeight cap run.receipts run.decisions n)
    (attempt : ∀ attempt, attempt' = some attempt → AttemptWithin cap run attempt) :
    CapInvariant cap { run with decisions := settle run.decisions sequence outcome, attempt := attempt' } where
  total := inv.total
  first inside decision settled rest decisions := by
    simp only at decisions ⊢
    rw [weights]
    have found : (settle run.decisions sequence outcome)[0]? = some ⟨.threads decision, settled⟩ := by
      rw [decisions, List.getElem?_cons_zero]
    have was : ∃ old, run.decisions[0]? = some ⟨.threads decision, old⟩ := by
      rcases found_of_settle found with same | ⟨_, _, same⟩
      · exact ⟨settled, same⟩
      · exact ⟨none, same⟩
    obtain ⟨old, head⟩ := was
    cases listed : run.decisions with
    | nil => simp [listed] at head
    | cons first others =>
        rw [listed, List.getElem?_cons_zero] at head
        obtain rfl := Option.some.inj head
        rw [← listed]
        exact inv.first inside decision old others listed
  pendingFits inside n decision found := by
    rcases found_of_settle found with was | ⟨_, some_, _⟩
    · exact inv.pendingFits inside n decision was
    · cases some_
  outsideSaved outside none_ := by
    have empty := congrArg List.length none_
    rw [length_settle] at empty
    exact inv.outsideSaved outside (List.eq_nil_of_length_eq_zero empty)
  attempt other running := by
    obtain ⟨counted, unsent, inside, uncached⟩ := attempt other running
    refine ⟨?_, unsent, ?_, uncached⟩
    · simp only [weights]
      exact counted
    · simp only [length_settle]
      exact inside

-- A step that stores a receipt, with no new review.
theorem CapInvariant.of_receipt (inv : CapInvariant cap run) (running : run.attempt = some attempt)
    (flying : attempt.inflight = some inflight) {receipt : BatchReceipt Finding} {stage : BatchStage Finding}
    (flown : stage ≠ .prepared)
    (heavier : receiptWeight cap (run.receipts.get? inflight.decision.batchId) ≤ receiptWeight cap (some receipt)) :
    CapInvariant cap { run with
      receipts := run.receipts.set inflight.decision.batchId receipt
      attempt := some { attempt with inflight := some { inflight with stage } } } := by
  have grows : ∀ batchId, receiptWeight cap (run.receipts.get? batchId) ≤
      receiptWeight cap ((run.receipts.set inflight.decision.batchId receipt).get? batchId) := by
    intro batchId
    by_cases here : batchId = inflight.decision.batchId
    · rw [here, Table.get?_set_self]
      exact heavier
    · rw [Table.get?_set_of_ne _ _ _ here]
  obtain ⟨counted, unsent, inside, uncached⟩ := inv.attempt attempt running
  refine ⟨inv.total, ?_, ?_, inv.outsideSaved, ?_⟩
  · intro outside decision settled rest decisions
    exact Nat.le_trans (inv.first outside decision settled rest decisions)
      (Nat.add_le_add_left (rest_le cap _ grows 0) _)
  · intro outside n decision found remote unsent
    apply inv.pendingFits outside n decision found remote
    by_cases here : decision.batchId = inflight.decision.batchId
    · simp only [here, Table.get?_set_self] at unsent
      cases unsent
    · simp only [Table.get?_set_of_ne _ _ _ here] at unsent
      exact unsent
  · intro other same
    obtain rfl := Option.some.inj same
    refine ⟨?_, ?_, inside, ?_⟩
    · have rest := rest_le cap run.decisions grows attempt.next
      have opened : openWeight cap run.receipts attempt.inflight ≤
          openWeight cap (run.receipts.set inflight.decision.batchId receipt) (some { inflight with stage }) := by
        rw [flying]
        cases sequence : inflight.sequence with
        | some q =>
            rw [open_saved sequence]
            exact Nat.zero_le _
        | none =>
            rw [open_flown { inflight with sequence := none, stage } rfl flown, Table.get?_set_self]
            by_cases prepared : inflight.stage = .prepared
            · rw [open_prepared prepared]
              exact Nat.zero_le _
            · rw [open_flown _ sequence prepared]
              exact heavier
      simp only
      by_cases visible : attempt.visible = true
      · simp only [visible, if_true] at counted ⊢
        omega
      · simp only [visible, Bool.false_eq_true, if_false] at counted ⊢
        omega
    · rintro _ ⟨⟩ _ prepared
      exact absurd prepared flown
    · rintro _ ⟨⟩ unsaved
      exact uncached inflight flying unsaved

-- An attempt without a batch in flight, at a place with the same rest.
theorem AttemptWithin.move (within : AttemptWithin cap run attempt) (ledger : FindingLedger Finding Reaffirmed)
    (next : Nat) (caching : Bool)
    (counted : (if attempt.visible then restWeight cap run.receipts run.decisions attempt.next else 0) +
        cap.counted attempt.ledger.toFindingLedgerDelta + openWeight cap run.receipts attempt.inflight ≤
      (if attempt.visible then restWeight cap run.receipts run.decisions next else 0) +
        cap.counted ledger.toFindingLedgerDelta)
    (inside : attempt.visible = true → caching = true ∨ next < run.decisions.length →
      attempt.caching = true ∨ attempt.next < run.decisions.length) :
    AttemptWithin cap run { attempt with ledger, next, caching, inflight := none } where
  counted := by
    have before := within.counted
    simp only [openWeight]
    omega
  unsent batch flying := by cases flying
  inside visible open_ := within.inside visible (inside visible open_)
  uncached batch flying := by cases flying

theorem rest_advance (cap : ThreadCap setting Reaffirmed) {n : Nat} {saved : RecoveryDecision Finding Reaffirmed} (found : run.decisions[n]? = some saved)
    {gained : Nat} (weight : savedWeight cap run.receipts saved ≤ gained) :
    restWeight cap run.receipts run.decisions n ≤ restWeight cap run.receipts run.decisions (n + 1) + gained := by
  rw [rest_succ cap found]
  omega

-- A replayed decision that weighs no more than what the ledger gains from it.
theorem AttemptWithin.advance (within : AttemptWithin cap run attempt) (visible : attempt.visible = true)
    {saved : RecoveryDecision Finding Reaffirmed} (found : run.decisions[attempt.next]? = some saved)
    (ledger : FindingLedger Finding Reaffirmed) (opened : openWeight cap run.receipts attempt.inflight = 0)
    (gains : cap.counted attempt.ledger.toFindingLedgerDelta + savedWeight cap run.receipts saved ≤
      cap.counted ledger.toFindingLedgerDelta) :
    AttemptWithin cap run { attempt with ledger, next := attempt.next + 1, inflight := none } := by
  refine within.move _ _ _ ?_ ?_
  · have rest := rest_advance cap found (Nat.le_refl _)
    simp only [visible, if_true]
    omega
  · intro _ open_
    rcases open_ with caching | early
    · exact .inl caching
    · exact .inr (by omega)

theorem cap_publish (inv : CapInvariant cap run) (running : run.attempt = some attempt)
    (live : attempt.live run.decisions = true) {cacheable stored : Bool} (saves : attempt.saves cacheable stored = true)
    {source : FindingSource} {batch : ReconciledBatch Finding Reaffirmed} :
    CapInvariant cap (
      let decision := planFindingBatch setting.before setting.placementKey setting.caps attempt.headSha source
        attempt.ledger batch
      { run with
        decisions := run.decisions ++ [⟨.threads decision, none⟩]
        attempt := some { attempt with
          inflight := some ⟨decision, some run.decisions.length, false, false, .prepared⟩ } }) := by
  obtain ⟨visible, caching⟩ := saves_visible saves
  obtain ⟨atEnd, all⟩ := live_settled live visible
  obtain ⟨counted, unsent, inside, uncached⟩ := inv.attempt attempt running
  have ledgered : postedTotal cap run.reviews ≤ cap.counted attempt.ledger.toFindingLedgerDelta := by
    simp only [visible, if_true, live_idle live, openWeight, atEnd, rest_end] at counted
    omega
  refine ⟨inv.total, ?_, ?_, ?_, ?_⟩
  · intro outside decision settled rest decisions
    cases listed : run.decisions with
    | nil =>
        simp only [listed, List.nil_append, List.cons.injEq, RecoveryDecision.mk.injEq, CanonicalDecision.threads.injEq]
          at decisions
        obtain ⟨⟨rfl, _⟩, _⟩ := decisions
        exact Nat.le_trans ledgered (Nat.le_add_right _ _)
    | cons head others =>
        simp only [listed, List.cons_append, List.cons.injEq] at decisions
        obtain ⟨rfl, rfl⟩ := decisions
        have before := inv.first outside decision settled others listed
        simp only
        rw [← listed, rest_append cap (Nat.zero_le _)]
        omega
  · intro outside n decision found remote fresh
    by_cases early : n < run.decisions.length
    · simp only [List.getElem?_append_left early] at found
      exact inv.pendingFits outside n decision found remote fresh
    · obtain ⟨bound, _⟩ := List.getElem?_eq_some_iff.mp found
      rw [List.length_append, List.length_singleton] at bound
      obtain rfl : n = run.decisions.length := by omega
      simp only [List.getElem?_concat_length, Option.some.injEq, RecoveryDecision.mk.injEq,
        CanonicalDecision.threads.injEq, and_true] at found
      subst found
      have fits := cap.fits _ _ _ _ remote
      simp only
      omega
  · intro _ none_
    simp at none_
  · intro other same
    obtain rfl := Option.some.inj same
    refine ⟨?_, ?_, fun _ _ => inside visible (.inl caching), ?_⟩
    · simp only [visible, if_true]
      omega
    · intro flight flying unsaved
      obtain rfl := Option.some.inj flying
      cases unsaved
    · intro flight flying unsaved
      obtain rfl := Option.some.inj flying
      cases unsaved

theorem cap_send (shape : AttemptShape run) (inv : CapInvariant cap run) (running : run.attempt = some attempt)
    (flying : attempt.inflight = some inflight) (prepared : inflight.stage = .prepared)
    (mutable_ : inflight.mutable run.decisions = true) (fresh : run.receipts.get? inflight.decision.batchId = none)
    {result : InlinePublishResult Finding} {reviewId : Nat} (accepted : result.review = some reviewId)
    (posted : result.posted.length ≤ inflight.decision.inline.length) :
    CapInvariant cap { run with
      receipts := run.receipts.set inflight.decision.batchId ⟨result, false⟩
      reviews := run.reviews ++ [⟨inflight.decision.batchId, reviewId, result.posted⟩]
      outside := run.outside || (inflight.sequence.isNone && !run.decisions.isEmpty)
      attempt := some { attempt with inflight := some { inflight with stage := .sent } } } := by
  obtain ⟨counted, unsent, inside, uncached⟩ := inv.attempt attempt running
  obtain ⟨remote, _⟩ := mutable_remote mutable_
  have weight : receiptWeight cap (some ⟨result, false⟩) = cap.weigh result.posted.length := by
    simp [receiptWeight, accepted]
  have planned := cap.weigh_le posted
  have grows : ∀ batchId, receiptWeight cap (run.receipts.get? batchId) ≤
      receiptWeight cap ((run.receipts.set inflight.decision.batchId ⟨result, false⟩).get? batchId) := by
    intro batchId
    by_cases here : batchId = inflight.decision.batchId
    · rw [here, fresh]
      exact Nat.zero_le _
    · rw [Table.get?_set_of_ne _ _ _ here]
  have total : postedTotal cap (run.reviews ++ [⟨inflight.decision.batchId, reviewId, result.posted⟩]) =
      postedTotal cap run.reviews + cap.weigh result.posted.length := by
    simp [postedTotal]
  have stored : receiptWeight cap ((run.receipts.set inflight.decision.batchId ⟨result, false⟩).get?
      inflight.decision.batchId) = cap.weigh result.posted.length := by rw [Table.get?_set_self, weight]
  cases sequence : inflight.sequence with
  | none =>
      have off := uncached inflight flying sequence
      have atEnd := ((shape.inflight attempt inflight running flying).unsaved sequence).2
      have room := unsent inflight flying sequence prepared remote
      have ledgered : postedTotal cap run.reviews ≤ cap.counted attempt.ledger.toFindingLedgerDelta := by
        rw [flying, open_prepared prepared] at counted
        by_cases visible : attempt.visible = true
        · simp only [visible, if_true, atEnd visible, rest_end] at counted
          omega
        · simp only [visible, Bool.false_eq_true, if_false] at counted
          omega
      refine ⟨?_, ?_, ?_, ?_, ?_⟩
      · rw [total]
        omega
      · intro outside decision settled rest decisions
        simp only at decisions
        simp [decisions] at outside
      · intro outside n decision found
        have none_ : run.decisions = [] := by simpa using (Bool.or_eq_false_iff.mp outside).2
        simp [none_] at found
      · intro outside none_
        simp only at none_
        rcases Bool.or_eq_true_iff.mp outside with before | now
        · exact inv.outsideSaved before none_
        · simp [none_] at now
      · intro other same
        obtain rfl := Option.some.inj same
        refine ⟨?_, ?_, ?_, ?_⟩
        · have opened : openWeight cap (run.receipts.set inflight.decision.batchId ⟨result, false⟩)
              (some { inflight with stage := .sent }) = cap.weigh result.posted.length := by
            rw [open_flown { inflight with stage := .sent } sequence (by simp), stored]
          simp only [total]
          rw [sequence] at opened
          rw [opened]
          omega
        · rintro _ ⟨⟩ _ flown
          cases flown
        · intro visible open_
          rcases open_ with caching | early
          · rw [off] at caching
            cases caching
          · simp only [atEnd visible] at early
            omega
        · rintro _ ⟨⟩ _
          exact off
  | some q =>
      obtain ⟨visible, rfl, settled, found, _⟩ := (shape.inflight attempt inflight running flying).saved q sequence
      have open_ : settled = none := by
        simp only [InflightBatch.mutable, Bool.and_eq_true, sequence, Option.bind_some, found, Option.all_some]
          at mutable_
        exact Option.isNone_iff_eq_none.mp mutable_.2
      subst open_
      have early : attempt.next < run.decisions.length := (List.getElem?_eq_some_iff.mp found).1
      have outside := inside visible (.inr early)
      have room := inv.pendingFits outside attempt.next inflight.decision found remote fresh
      have gain := fun n => rest_gain cap grows found remote (by simp) fresh n
      refine ⟨?_, ?_, ?_, ?_, ?_⟩
      · rw [total]
        omega
      · intro _ decision settled rest decisions
        have before := inv.first outside decision settled rest decisions
        have more := gain 0 (Nat.zero_le _)
        rw [stored] at more
        simp only [total]
        omega
      · intro _ n decision here sent unsent'
        have last := shape.pending attempt.next _ found rfl
        have also := shape.pending n _ here rfl
        obtain rfl : n = attempt.next := by omega
        simp only at here
        rw [found] at here
        cases here
        simp only [Table.get?_set_self] at unsent'
        cases unsent'
      · intro came
        simp only [Option.isNone_some, Bool.false_and, Bool.or_false] at came
        exact inv.outsideSaved came
      · intro other same
        obtain rfl := Option.some.inj same
        refine ⟨?_, ?_, ?_, ?_⟩
        · have more := gain attempt.next (Nat.le_refl _)
          rw [stored] at more
          rw [flying, open_prepared prepared] at counted
          simp only [visible, if_true, total] at counted ⊢
          omega
        · rintro _ ⟨⟩ unsaved
          cases unsaved
        · intro _ _
          simp only [Option.isNone_some, Bool.false_and, Bool.or_false]
          exact outside
        · rintro _ ⟨⟩ unsaved
          cases unsaved

-- The ledger gains at least what the batch has posted.
theorem finishes_counted (shape : AttemptShape run) (running : run.attempt = some attempt)
    (flying : attempt.inflight = some inflight) {delta : FindingLedgerDelta Finding Reaffirmed}
    (finishes : Finishes inflight delta) (remote : inflight.decision.resultKind = .remote) :
    receiptWeight cap (run.receipts.get? inflight.decision.batchId) ≤ cap.counted delta := by
  obtain ⟨result, stored, rfl⟩ := finishes_saved shape running flying finishes remote
  rw [stored]
  by_cases posted : result.review.isSome = true
  · simp only [receiptWeight, posted, if_true]
    exact cap.counted_remote _ _ _ posted
  · simp [receiptWeight, posted]

theorem cap_finish (shape : AttemptShape run) (inv : CapInvariant cap run) (running : run.attempt = some attempt)
    (flying : attempt.inflight = some inflight) {delta : FindingLedgerDelta Finding Reaffirmed}
    (finishes : Finishes inflight delta) : CapInvariant cap (finishStep run attempt inflight delta) := by
  have within := inv.attempt attempt running
  have gained := cap.counted_apply attempt.ledger delta
  refine inv.of_settle (rest_accepted cap) ?_
  intro other same
  obtain rfl := Option.some.inj same
  cases sequence : inflight.sequence with
  | none =>
      rw [Option.isSome_none, if_neg Bool.false_ne_true]
      refine within.move _ _ _ ?_ fun _ open_ => open_
      have opened : openWeight cap run.receipts attempt.inflight ≤ cap.counted delta := by
        rw [flying]
        by_cases prepared : inflight.stage = .prepared
        · rw [open_prepared prepared]
          exact Nat.zero_le _
        · rw [open_flown _ sequence prepared]
          exact finishes_counted shape running flying finishes
            ((shape.inflight attempt inflight running flying).remote prepared)
      omega
  | some q =>
      rw [Option.isSome_some, if_pos rfl]
      obtain ⟨visible, rfl, settled, found, _⟩ := (shape.inflight attempt inflight running flying).saved q sequence
      refine within.advance visible found _ ?_ ?_
      · rw [flying, open_saved sequence]
      · have weight : savedWeight cap run.receipts ⟨.threads inflight.decision, settled⟩ ≤ cap.counted delta := by
          by_cases counts : inflight.decision.resultKind = .remote ∧ settled ≠ some .stopped
          · simp only [savedWeight, if_pos counts]
            exact finishes_counted shape running flying finishes counts.1
          · simp only [savedWeight, if_neg counts]
            exact Nat.zero_le _
        omega

theorem cap_reject (shape : AttemptShape run) (inv : CapInvariant cap run) (running : run.attempt = some attempt)
    (flying : attempt.inflight = some inflight) (prepared : inflight.stage = .prepared)
    (fresh : run.receipts.get? inflight.decision.batchId = none) :
    CapInvariant cap (rejectStep run attempt inflight) := by
  have within := inv.attempt attempt running
  have saved := (shape.inflight attempt inflight running flying).saved
  have weightless : ∀ settled, savedWeight cap run.receipts ⟨.threads inflight.decision, settled⟩ = 0 := by
    intro settled
    simp [savedWeight, fresh, receiptWeight]
  refine inv.of_settle (weights_settle cap ?_) ?_
  · intro n canonical sequence found
    obtain ⟨_, _, settled, here, _⟩ := saved n sequence
    rw [found] at here
    cases here
    rw [weightless, weightless]
  · intro other same
    cases replay : inflight.replay with
    | true => simp [replay] at same
    | false =>
        rw [replay] at same
        obtain rfl := Option.some.inj same
        cases sequence : inflight.sequence with
        | none =>
            rw [Option.isSome_none, if_neg Bool.false_ne_true]
            refine within.move _ _ _ ?_ fun _ open_ => open_
            rw [flying, open_prepared prepared]
            omega
        | some q =>
            rw [Option.isSome_some, if_pos rfl]
            obtain ⟨visible, rfl, settled, found, _⟩ := saved q sequence
            refine within.advance visible found _ ?_ ?_
            · rw [flying, open_saved sequence]
            · rw [weightless]
              omega

theorem cap_summarize (inv : CapInvariant cap run) (running : run.attempt = some attempt)
    (live : attempt.live run.decisions = true) {stored : Bool} (saves : attempt.saves true stored = true)
    {settled : Option SettlementOutcome} :
    CapInvariant cap { run with
      decisions := run.decisions ++ [⟨.summary, settled⟩]
      attempt := if settled.isSome then some { attempt with next := attempt.next + 1 } else none } := by
  obtain ⟨visible, caching⟩ := saves_visible saves
  obtain ⟨atEnd, all⟩ := live_settled live visible
  obtain ⟨counted, unsent, inside, uncached⟩ := inv.attempt attempt running
  refine ⟨inv.total, ?_, ?_, ?_, ?_⟩
  · intro outside decision settled' rest decisions
    cases listed : run.decisions with
    | nil => simp [listed] at decisions
    | cons head others =>
        simp only [listed, List.cons_append, List.cons.injEq] at decisions
        obtain ⟨rfl, rfl⟩ := decisions
        have before := inv.first outside decision settled' others listed
        simp only
        rw [← listed, rest_append cap (Nat.zero_le _)]
        omega
  · intro outside n decision found
    by_cases early : n < run.decisions.length
    · simp only [List.getElem?_append_left early] at found
      exact inv.pendingFits outside n decision found
    · obtain ⟨bound, _⟩ := List.getElem?_eq_some_iff.mp found
      rw [List.length_append, List.length_singleton] at bound
      obtain rfl : n = run.decisions.length := by omega
      simp at found
  · intro _ none_
    simp at none_
  · intro other same
    cases settled with
    | none => cases same
    | some outcome =>
        obtain rfl := Option.some.inj same
        refine ⟨?_, ?_, fun _ _ => inside visible (.inl caching), ?_⟩
        · simp only [visible, if_true, atEnd, rest_end] at counted ⊢
          omega
        · intro flight flying
          simp only [live_idle live] at flying
          cases flying
        · intro flight flying
          simp only [live_idle live] at flying
          cases flying

theorem startingLedger_cases (run : ReviewRun Finding Reaffirmed) (visible : Bool) :
    (∃ decision settled rest, visible = true ∧ run.decisions = ⟨.threads decision, settled⟩ :: rest ∧
      startingLedger setting run visible = decision.ledgerBefore) ∨
    startsSaved visible run.decisions = false ∧ startingLedger setting run visible = setting.loaded run.db := by
  cases visible with
  | false =>
      cases decisions : run.decisions with
      | nil => exact .inr ⟨rfl, rfl⟩
      | cons head rest =>
          obtain ⟨canonical, settled⟩ := head
          cases canonical with
          | summary => exact .inr ⟨rfl, rfl⟩
          | threads decision => exact .inr ⟨rfl, rfl⟩
  | true =>
      cases decisions : run.decisions with
      | nil => exact .inr ⟨rfl, by simp [startingLedger, decisions]⟩
      | cons head rest =>
          obtain ⟨canonical, settled⟩ := head
          cases canonical with
          | summary => exact .inr ⟨rfl, by simp [startingLedger, decisions]⟩
          | threads decision =>
              exact .inl ⟨decision, settled, rest, rfl, rfl, by
                simp [startingLedger, decisions, createFindingLedger_ledger]⟩

theorem cap_attempt (inv : CapInvariant cap run) {headSha : String} {visible caching : Bool} {misses : List Nat}
    (ok : CapAllowed cap run (.start headSha visible caching misses)) :
    AttemptWithin cap run
      ⟨headSha, startingLedger setting run visible, visible || run.decisions.isEmpty, caching, misses, 0, none⟩ where
  counted := by
    obtain ⟨kept, covered⟩ := ok
    rcases startingLedger_cases run visible with ⟨decision, settled, rest, rfl, decisions, starts⟩ | ⟨starts, loaded⟩
    · have first := inv.first (kept rfl) decision settled rest decisions
      simp only [Bool.true_or, if_true]
      rw [starts]
      omega
    · rw [starts] at covered
      rcases covered with nothing | covers
      · cases nothing
      · simp only
        rw [loaded]
        omega
  unsent batch flying := by cases flying
  inside := by
    intro seen _
    cases visible with
    | true => exact ok.1 rfl
    | false =>
        have none_ : run.decisions = [] := by simpa using seen
        cases outside : run.outside with
        | false => rfl
        | true => exact absurd none_ (inv.outsideSaved outside)
  uncached batch flying := by cases flying

theorem answer_heavier (shape : AttemptShape run) {result : InlinePublishResult Finding} (answers : Answers run inflight result) :
    receiptWeight cap (run.receipts.get? inflight.decision.batchId) ≤ receiptWeight cap (some ⟨result, true⟩) := by
  cases answers with
  | persisted sent found =>
      rw [found]
      exact Nat.le_refl _
  | retained prepared remote found =>
      rw [found]
  | @recovered sent prepared remote found =>
      rw [found]
      by_cases posted : sent.review.isSome = true
      · have planned := shape.receipts _ _ found
        have more := length_recovered (planned.trans (batchId_ids inflight.decision).symm.subperm)
        simpa [receiptWeight, recoveredResult, posted] using cap.weigh_le more
      · simp [receiptWeight, recoveredResult, posted]

theorem cap_step {event : AttemptEvent Finding Reaffirmed} (shape : AttemptShape run) (inv : CapInvariant cap run)
    (ok : CapAllowed cap run event) (moved : attemptStep setting run event = some t) : CapInvariant cap t := by
  cases attempt_move moved with
  | start idle =>
      refine inv.of_attempt ?_
      intro other same
      obtain rfl := Option.some.inj same
      exact cap_attempt inv ok
  | crash =>
      refine inv.of_attempt ?_
      intro other same
      cases same
  | elsewhere => exact inv.of_attempt inv.attempt
  | @replaySummary attempt saved published decisions running idle visible found summary settles =>
      have within := inv.attempt attempt running
      have weightless : savedWeight cap run.receipts saved = 0 := by simp [savedWeight, summary]
      have advanced : AttemptWithin cap run { attempt with next := attempt.next + 1 } := by
        have next := within.advance visible found attempt.ledger (by rw [idle]; rfl)
          (by rw [weightless]; exact Nat.le_refl _)
        rwa [← idle] at next
      rcases settles with ⟨rfl, _⟩ | rfl
      · refine inv.of_attempt ?_
        intro other same
        obtain rfl := Option.some.inj same
        exact advanced
      · refine inv.of_settle (rest_accepted cap) ?_
        intro other same
        obtain rfl := Option.some.inj same
        exact advanced
  | @replayLocal attempt decision settled published missed running idle visible found here misses =>
      have within := inv.attempt attempt running
      have gained := cap.counted_apply attempt.ledger (localDelta missed decision)
      have weightless : savedWeight cap run.receipts ⟨.threads decision, settled⟩ = 0 := by simp [savedWeight, here]
      have advanced : AttemptWithin cap run { attempt with
          next := attempt.next + 1, ledger := applyFindingLedgerDelta attempt.ledger (localDelta missed decision) } := by
        have next := within.advance visible found
          (applyFindingLedgerDelta attempt.ledger (localDelta missed decision)) (by rw [idle]; rfl) (by rw [weightless]; omega)
        rwa [← idle] at next
      cases missed with
      | true =>
          refine inv.of_attempt ?_
          intro other same
          obtain rfl := Option.some.inj same
          exact advanced
      | false =>
          rw [if_neg Bool.false_ne_true]
          refine inv.of_settle (rest_accepted cap) ?_
          intro other same
          obtain rfl := Option.some.inj same
          exact advanced
  | @replayStopped attempt decision published running idle visible found remote =>
      have within := inv.attempt attempt running
      have weightless : savedWeight cap run.receipts ⟨.threads decision, some .stopped⟩ = 0 := by simp [savedWeight]
      refine inv.of_attempt ?_
      intro other same
      obtain rfl := Option.some.inj same
      have next := within.advance visible found (applyFindingLedgerDelta attempt.ledger noDelta)
        (by rw [idle]; rfl) (by rw [weightless, apply_noDelta]; exact Nat.le_refl _)
      rwa [← idle] at next
  | @replayRemote attempt decision settled published missed running idle visible found remote open_ misses =>
      obtain ⟨counted, unsent, inside, uncached⟩ := inv.attempt attempt running
      refine inv.of_attempt ?_
      intro other same
      obtain rfl := Option.some.inj same
      refine ⟨?_, ?_, inside, ?_⟩
      · rw [idle] at counted
        exact counted
      · rintro _ ⟨⟩ unsaved
        cases unsaved
      · rintro _ ⟨⟩ unsaved
        cases unsaved
  | publishSaved running live saves => exact cap_publish inv running live saves
  | @publishUnsaved attempt source batch cacheable stored running live saves =>
      obtain ⟨counted, unsent, inside, uncached⟩ := inv.attempt attempt running
      rw [live_idle live] at counted
      refine inv.of_attempt ?_
      intro other same
      obtain rfl := Option.some.inj same
      refine ⟨counted, ?_, ?_, ?_⟩
      · rintro _ ⟨⟩ _ _ remote
        exact cap.fits _ _ _ _ remote
      · intro visible open_
        rcases open_ with caching | early
        · cases caching
        · have atEnd := (live_settled live visible).1
          simp only at early
          omega
      · rintro _ ⟨⟩ _
        rfl
  | @sendDropped attempt inflight responses result running flying prepared mutable_ fresh published none_ =>
      have unsent := ok attempt running inflight flying
      refine inv.of_receipt running flying (by simp) ?_
      rw [unsent]
      exact Nat.zero_le _
  | @sendAccepted attempt inflight responses result reviewId running flying prepared mutable_ fresh published accepted =>
      exact cap_send shape inv running flying prepared mutable_ (ok attempt running inflight flying) accepted
        (publishInline_posted published).posted.length_le
  | reject running flying prepared mutable_ fresh => exact cap_reject shape inv running flying prepared fresh
  | answer running flying answers => exact inv.of_receipt running flying (by simp) (answer_heavier shape answers)
  | @record attempt inflight leaseEpoch before after result db running flying answered =>
      obtain ⟨counted, unsent, inside, uncached⟩ := inv.attempt attempt running
      refine inv.of_attempt ?_
      intro other same
      obtain rfl := Option.some.inj same
      refine ⟨?_, ?_, inside, ?_⟩
      · rw [flying] at counted
        cases sequence : inflight.sequence with
        | none =>
            have flown : inflight.stage ≠ .prepared := by simp [answered]
            rw [open_flown _ sequence flown] at counted
            rw [open_flown { inflight with stage := .recorded result, sequence := none } rfl (by simp)]
            exact counted
        | some q =>
            rw [open_saved sequence] at counted
            exact counted
      · rintro _ ⟨⟩ _ flown
        cases flown
      · rintro _ ⟨⟩ unsaved
        exact uncached inflight flying unsaved
  | finish running flying finishes => exact cap_finish shape inv running flying finishes
  | @fail attempt inflight running flying unrecorded =>
      refine inv.of_attempt ?_
      intro other same
      cases sequence : inflight.sequence with
      | some q => simp [sequence] at same
      | none =>
          rw [sequence] at same
          obtain rfl := Option.some.inj same
          have counts := ok attempt running inflight flying
          have opened : openWeight cap run.receipts attempt.inflight = 0 := by
            rw [flying]
            cases stage : inflight.stage with
            | prepared => exact open_prepared stage
            | sent => simp [InflightBatch.uncounted, sequence, stage] at counts
            | recorded result => exact absurd stage (unrecorded sequence result)
            | answered result =>
                have receipt := (shape.inflight attempt inflight running flying).receipt
                rw [stage] at receipt
                rw [open_flown _ sequence (by simp [stage]), receipt]
                have none_ : result.review.isSome = false := by
                  simpa [InflightBatch.uncounted, sequence, stage] using counts
                simp [receiptWeight, none_]
          refine (inv.attempt attempt running).move _ _ _ ?_ fun _ open_ => open_
          omega
  | summarizeSaved running live saves => exact cap_summarize inv running live saves
  | @summarizeUnsaved attempt stored settled running live saves =>
      refine inv.of_attempt ?_
      intro other same
      obtain rfl := Option.some.inj same
      have moved := (inv.attempt attempt running).move attempt.ledger attempt.next false
        (by rw [live_idle live]; simp only [openWeight]; omega) (by
          intro visible open_
          rcases open_ with caching | early
          · cases caching
          · exact .inr early)
      rwa [← live_idle live] at moved

end Steps
end PrAgent
