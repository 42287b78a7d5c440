import PrAgent.ReviewAttemptMoves
set_option autoImplicit false

namespace PrAgent

variable {Finding Reaffirmed : Type}

section Settle

variable (decisions : List (RecoveryDecision Finding Reaffirmed)) (outcome : SettlementOutcome)

theorem get?_settle (sequence n : Nat) :
    (settle decisions (some sequence) outcome)[n]? = (decisions[n]?).map fun saved =>
      if sequence = n ∧ saved.settled = none then { saved with settled := some outcome } else saved := by
  rw [settle, List.getElem?_modify]
  cases decisions[n]? with
  | none => rfl
  | some saved =>
      by_cases here : sequence = n
      · cases settled : saved.settled with
        | none => simp [here, settled]
        | some old => simp [here, settled]
      · simp [here]

theorem length_settle (sequence : Option Nat) : (settle decisions sequence outcome).length = decisions.length := by
  cases sequence with
  | none => rfl
  | some sequence => exact List.length_modify _ _ _

variable {decisions outcome}

-- A settled list holds the old decisions, but for one that was pending and took the outcome.
theorem found_of_settle {sequence : Option Nat} {n : Nat} {saved : RecoveryDecision Finding Reaffirmed}
    (found : (settle decisions sequence outcome)[n]? = some saved) :
    decisions[n]? = some saved ∨
      sequence = some n ∧ saved.settled = some outcome ∧ decisions[n]? = some ⟨saved.canonical, none⟩ := by
  cases sequence with
  | none => exact .inl found
  | some sequence =>
      rw [get?_settle, Option.map_eq_some_iff] at found
      obtain ⟨old, was, rfl⟩ := found
      by_cases here : sequence = n ∧ old.settled = none
      · obtain ⟨canonical, settled⟩ := old
        obtain ⟨rfl, none_⟩ := here
        simp only at none_
        subst none_
        exact .inr ⟨rfl, by simp, by simp [was]⟩
      · rw [if_neg here]
        exact .inl was

-- The decision that a settlement is about is settled after it.
theorem settle_found (outcome : SettlementOutcome) {n : Nat} {canonical : CanonicalDecision Finding Reaffirmed} {settled : Option SettlementOutcome}
    (found : decisions[n]? = some ⟨canonical, settled⟩) : ∃ final,
      (settle decisions (some n) outcome)[n]? = some ⟨canonical, some final⟩ ∧
        (settled = none ∧ final = outcome ∨ settled = some final) := by
  cases settled with
  | none => exact ⟨outcome, by simp [get?_settle, found], .inl ⟨rfl, rfl⟩⟩
  | some final => exact ⟨final, by simp [get?_settle, found], .inr rfl⟩

end Settle

-- What is stored for the stage of a batch.
def StageReceipt (receipts : Table InlineBatchId (BatchReceipt Finding)) (batchId : InlineBatchId) :
    BatchStage Finding → Prop
  | .prepared => True
  | .sent => ∃ result, receipts.get? batchId = some ⟨result, false⟩
  | .answered result => receipts.get? batchId = some ⟨result, true⟩
  | .recorded result => receipts.get? batchId = some ⟨result, true⟩

structure InflightShape (run : ReviewRun Finding Reaffirmed) (attempt : ReviewAttempt Finding Reaffirmed)
    (inflight : InflightBatch Finding Reaffirmed) : Prop where
  saved : ∀ sequence, inflight.sequence = some sequence → attempt.visible = true ∧ sequence = attempt.next ∧
    ∃ settled, run.decisions[sequence]? = some ⟨.threads inflight.decision, settled⟩ ∧ settled ≠ some .stopped
  unsaved : inflight.sequence = none →
    inflight.withoutEvidence = false ∧ (attempt.visible = true → attempt.next = run.decisions.length)
  remote : inflight.stage ≠ .prepared → inflight.decision.resultKind = .remote
  receipt : StageReceipt run.receipts inflight.decision.batchId inflight.stage

structure AttemptShape (run : ReviewRun Finding Reaffirmed) : Prop where
  pending : ∀ n saved, run.decisions[n]? = some saved → saved.settled = none → n + 1 = run.decisions.length
  next_le : ∀ attempt, run.attempt = some attempt → attempt.visible = true → attempt.next ≤ run.decisions.length
  inflight : ∀ attempt inflight, run.attempt = some attempt → attempt.inflight = some inflight →
    InflightShape run attempt inflight
  receipts : ∀ batchId receipt, run.receipts.get? batchId = some receipt →
    (receipt.result.posted.map (·.findingId)).Subperm batchId.2
  settled : ∀ decision outcome, (⟨.threads decision, some outcome⟩ : RecoveryDecision Finding Reaffirmed) ∈ run.decisions →
    outcome ≠ .stopped → decision.resultKind = .remote →
    ∃ result, run.receipts.get? decision.batchId = some ⟨result, true⟩

section Facts

variable {run : ReviewRun Finding Reaffirmed} {attempt : ReviewAttempt Finding Reaffirmed}

theorem live_idle {decisions : List (RecoveryDecision Finding Reaffirmed)} (live : attempt.live decisions = true) :
    attempt.inflight = none := by
  rw [ReviewAttempt.live, Bool.and_eq_true, Option.isNone_iff_eq_none] at live
  exact live.1

theorem live_settled {decisions : List (RecoveryDecision Finding Reaffirmed)} (live : attempt.live decisions = true)
    (visible : attempt.visible = true) :
    attempt.next = decisions.length ∧ ∀ saved ∈ decisions, saved.settled.isSome = true := by
  simp only [ReviewAttempt.live, visible, Bool.not_true, Bool.false_or, Bool.and_eq_true, decide_eq_true_eq,
    List.all_eq_true] at live
  exact live.2

theorem saves_visible {cacheable stored : Bool} (saves : attempt.saves cacheable stored = true) :
    attempt.visible = true ∧ attempt.caching = true := by
  simp only [ReviewAttempt.saves, Bool.and_eq_true] at saves
  exact ⟨saves.2, saves.1.1.2⟩

theorem batchId_ids (decision : CanonicalThreadDecision Finding Reaffirmed) :
    (decision.inline.map (·.findingId)).Perm decision.batchId.2 := by
  obtain ⟨headSha, same⟩ := decision.batchId_of_inline
  rw [same]
  exact (List.mergeSort_perm _ _).symm

-- What GitHub accepted of a batch is part of its plan.
theorem posted_subperm {before : Finding → Finding → Bool} {decision : CanonicalThreadDecision Finding Reaffirmed}
    {responses : List (BatchResponse Finding)} {result : InlinePublishResult Finding}
    (published : publishInlineReviewComments before decision.inline responses = some result) :
    (result.posted.map (·.findingId)).Subperm decision.batchId.2 :=
  ((publishInline_posted published).posted.map _).subperm.trans (batchId_ids decision).subperm

theorem recovered_subperm (decision : CanonicalThreadDecision Finding Reaffirmed) (sent : InlinePublishResult Finding) :
    ((recoveredResult decision.inline sent).posted.map (·.findingId)).Subperm decision.batchId.2 :=
  (List.filter_sublist.map _).subperm.trans (batchId_ids decision).subperm

theorem AttemptShape.posted (shape : AttemptShape run) {inflight : InflightBatch Finding Reaffirmed}
    {result : InlinePublishResult Finding} (answers : Answers run inflight result) :
    (result.posted.map (·.findingId)).Subperm inflight.decision.batchId.2 := by
  cases answers with
  | persisted sent found => exact shape.receipts _ _ found
  | retained prepared remote found => exact shape.receipts _ _ found
  | recovered prepared remote found => exact recovered_subperm _ _

end Facts

section Steps

variable {setting : ReviewSetting Finding} {run t : ReviewRun Finding Reaffirmed}
  {attempt : ReviewAttempt Finding Reaffirmed} {inflight : InflightBatch Finding Reaffirmed}

theorem shape_start (db : PublishDb) :
    AttemptShape (⟨[], Table.empty, [], db, false, none⟩ : ReviewRun Finding Reaffirmed) where
  pending n saved found := by cases found
  next_le attempt running := by cases running
  inflight attempt batch running := by cases running
  receipts batchId receipt found := by
    rw [Table.get?_empty] at found
    cases found
  settled decision outcome listed := by cases listed

variable {attempt' : Option (ReviewAttempt Finding Reaffirmed)}

-- A step that leaves decisions and receipts alone.
theorem AttemptShape.of_attempt (shape : AttemptShape run) {db : PublishDb}
    (next_le : ∀ attempt, attempt' = some attempt → attempt.visible = true → attempt.next ≤ run.decisions.length)
    (inflight : ∀ attempt inflight, attempt' = some attempt → attempt.inflight = some inflight →
      InflightShape run attempt inflight) : AttemptShape { run with db, attempt := attempt' } where
  pending := shape.pending
  next_le := next_le
  inflight attempt batch running flying := by
    obtain ⟨saved, unsaved, remote, receipt⟩ := inflight attempt batch running flying
    exact ⟨saved, unsaved, remote, receipt⟩
  receipts := shape.receipts
  settled := shape.settled

-- A step that settles a decision, or none, and leaves no batch in flight.
theorem AttemptShape.of_settle (shape : AttemptShape run) {sequence : Option Nat} {outcome : SettlementOutcome}
    (next_le : ∀ attempt, attempt' = some attempt → attempt.visible = true → attempt.next ≤ run.decisions.length)
    (idle : ∀ attempt, attempt' = some attempt → attempt.inflight = none)
    (settled : ∀ n decision, sequence = some n → run.decisions[n]? = some ⟨.threads decision, none⟩ →
      outcome ≠ .stopped → decision.resultKind = .remote →
      ∃ result, run.receipts.get? decision.batchId = some ⟨result, true⟩) :
    AttemptShape { run with decisions := settle run.decisions sequence outcome, attempt := attempt' } where
  pending n saved found none_ := by
    rw [length_settle]
    rcases found_of_settle found with was | ⟨_, some_, _⟩
    · exact shape.pending n saved was none_
    · rw [none_] at some_
      cases some_
  next_le attempt running visible := by
    rw [length_settle]
    exact next_le attempt running visible
  inflight attempt batch running flying := by
    rw [idle attempt running] at flying
    cases flying
  receipts := shape.receipts
  settled decision old listed open_ remote := by
    obtain ⟨n, found⟩ := List.mem_iff_getElem?.mp listed
    rcases found_of_settle found with was | ⟨here, some_, was⟩
    · exact shape.settled decision old (List.mem_of_getElem? was) open_ remote
    · obtain rfl := Option.some.inj some_
      exact settled n decision here was open_ remote

-- A step that stores a receipt for the batch in flight.
theorem AttemptShape.of_receipt (shape : AttemptShape run) (running : run.attempt = some attempt)
    (flying : attempt.inflight = some inflight) {receipt : BatchReceipt Finding} {stage : BatchStage Finding}
    {reviews : List (ThreadReview Finding)} {outside : Bool}
    (remote : inflight.decision.resultKind = .remote)
    (posted : (receipt.result.posted.map (·.findingId)).Subperm inflight.decision.batchId.2)
    (kept : ∀ result, run.receipts.get? inflight.decision.batchId = some ⟨result, true⟩ → receipt.saved = true)
    (stored : StageReceipt (run.receipts.set inflight.decision.batchId receipt) inflight.decision.batchId stage) :
    AttemptShape { run with
      receipts := run.receipts.set inflight.decision.batchId receipt, reviews, outside
      attempt := some { attempt with inflight := some { inflight with stage } } } := by
  obtain ⟨saved, unsaved, _, _⟩ := shape.inflight attempt inflight running flying
  refine ⟨shape.pending, ?_, ?_, ?_, ?_⟩
  · intro other same visible
    obtain rfl := Option.some.inj same
    exact shape.next_le attempt running visible
  · intro other batch same flying'
    obtain rfl := Option.some.inj same
    obtain rfl := Option.some.inj flying'
    exact ⟨saved, unsaved, fun _ => remote, stored⟩
  · intro batchId old found
    by_cases here : batchId = inflight.decision.batchId
    · subst here
      simp only [Table.get?_set_self] at found
      obtain rfl := Option.some.inj found
      exact posted
    · simp only [Table.get?_set_of_ne _ _ _ here] at found
      exact shape.receipts batchId old found
  · intro decision outcome listed open_ sent
    obtain ⟨result, found⟩ := shape.settled decision outcome listed open_ sent
    by_cases here : decision.batchId = inflight.decision.batchId
    · rw [here] at found
      refine ⟨receipt.result, ?_⟩
      simp only [here, Table.get?_set_self]
      rw [← kept result found]
    · exact ⟨result, by simp only [Table.get?_set_of_ne _ _ _ here, found]⟩

-- A step that saves a decision, which only a visible attempt without a pending one does.
theorem AttemptShape.of_prepare (shape : AttemptShape run) {saved : RecoveryDecision Finding Reaffirmed}
    (all : ∀ saved ∈ run.decisions, saved.settled.isSome = true)
    (next_le : ∀ attempt, attempt' = some attempt → attempt.next ≤ run.decisions.length + 1)
    (inflight : ∀ attempt inflight, attempt' = some attempt → attempt.inflight = some inflight →
      InflightShape { run with decisions := run.decisions ++ [saved] } attempt inflight)
    (settled : ∀ decision outcome, saved = ⟨.threads decision, some outcome⟩ → outcome = .stopped) :
    AttemptShape { run with decisions := run.decisions ++ [saved], attempt := attempt' } where
  pending n old found none_ := by
    by_cases early : n < run.decisions.length
    · rw [List.getElem?_append_left early] at found
      have some_ := all old (List.mem_of_getElem? found)
      rw [none_] at some_
      cases some_
    · obtain ⟨inside, _⟩ := List.getElem?_eq_some_iff.mp found
      rw [List.length_append, List.length_singleton] at inside ⊢
      omega
  next_le attempt running _ := by
    rw [List.length_append, List.length_singleton]
    exact next_le attempt running
  inflight attempt batch running flying := by
    obtain ⟨saved, unsaved, remote, receipt⟩ := inflight attempt batch running flying
    exact ⟨saved, unsaved, remote, receipt⟩
  receipts := shape.receipts
  settled decision outcome listed open_ remote := by
    rcases List.mem_append.mp listed with before | new
    · exact shape.settled decision outcome before open_ remote
    · exact absurd (settled decision outcome (List.mem_singleton.mp new).symm) open_

theorem mutable_remote {decisions : List (RecoveryDecision Finding Reaffirmed)} (mutable_ : inflight.mutable decisions = true) :
    inflight.decision.resultKind = .remote ∧ inflight.withoutEvidence = false := by
  simp only [InflightBatch.mutable, Bool.and_eq_true, decide_eq_true_eq, Bool.not_eq_true'] at mutable_
  exact mutable_.1

theorem answers_remote (shape : AttemptShape run) (running : run.attempt = some attempt)
    (flying : attempt.inflight = some inflight) {result : InlinePublishResult Finding}
    (answers : Answers run inflight result) : inflight.decision.resultKind = .remote := by
  cases answers with
  | persisted sent found => exact (shape.inflight attempt inflight running flying).remote (by rw [sent]; nofun)
  | retained prepared remote found => exact remote
  | recovered prepared remote found => exact remote

-- A batch that is sent when it finishes has its result stored.
theorem finishes_saved (shape : AttemptShape run) (running : run.attempt = some attempt)
    (flying : attempt.inflight = some inflight) {delta : FindingLedgerDelta Finding Reaffirmed}
    (finishes : Finishes inflight delta) (remote : inflight.decision.resultKind = .remote) :
    ∃ result, run.receipts.get? inflight.decision.batchId = some ⟨result, true⟩ ∧
      delta = remoteDelta inflight.withoutEvidence inflight.decision result := by
  have receipt := (shape.inflight attempt inflight running flying).receipt
  cases finishes with
  | kept prepared here => exact absurd remote here
  | dropped answered none_ =>
      rw [answered] at receipt
      exact ⟨_, receipt, rfl⟩
  | published recorded =>
      rw [recorded] at receipt
      exact ⟨_, receipt, rfl⟩

theorem shape_step {event : AttemptEvent Finding Reaffirmed} (shape : AttemptShape run)
    (moved : attemptStep setting run event = some t) : AttemptShape t := by
  cases attempt_move moved with
  | start idle =>
      apply shape.of_attempt
      · rintro _ ⟨⟩ _
        exact Nat.zero_le _
      · rintro _ _ ⟨⟩ flying
        cases flying
  | crash =>
      apply shape.of_attempt
      · intro _ running
        cases running
      · intro _ _ running
        cases running
  | elsewhere => exact shape.of_attempt shape.next_le shape.inflight
  | @replaySummary attempt saved published decisions running idle visible found summary settles =>
      obtain ⟨inside, _⟩ := List.getElem?_eq_some_iff.mp found
      rcases settles with ⟨rfl, _⟩ | rfl
      · apply shape.of_attempt
        · rintro _ ⟨⟩ _
          exact inside
        · rintro _ _ ⟨⟩ flying
          rw [idle] at flying
          cases flying
      · apply shape.of_settle
        · rintro _ ⟨⟩ _
          exact inside
        · rintro _ ⟨⟩
          exact idle
        · rintro n decision ⟨⟩ was
          rw [found] at was
          obtain rfl := Option.some.inj was
          cases summary
  | @replayLocal attempt decision settled published missed running idle visible found here misses =>
      obtain ⟨inside, _⟩ := List.getElem?_eq_some_iff.mp found
      cases missed with
      | true =>
          apply shape.of_attempt
          · rintro _ ⟨⟩ _
            exact inside
          · rintro _ _ ⟨⟩ flying
            rw [idle] at flying
            cases flying
      | false =>
          rw [if_neg Bool.false_ne_true]
          apply shape.of_settle
          · rintro _ ⟨⟩ _
            exact inside
          · rintro _ ⟨⟩
            exact idle
          · rintro n other ⟨⟩ was _ remote
            rw [found] at was
            cases was
            exact absurd remote here
  | @replayStopped attempt decision published running idle visible found remote =>
      obtain ⟨inside, _⟩ := List.getElem?_eq_some_iff.mp found
      apply shape.of_attempt
      · rintro _ ⟨⟩ _
        exact inside
      · rintro _ _ ⟨⟩ flying
        rw [idle] at flying
        cases flying
  | @replayRemote attempt decision settled published missed running idle visible found remote open_ misses =>
      apply shape.of_attempt
      · rintro _ ⟨⟩ _
        exact shape.next_le attempt running visible
      · rintro _ _ ⟨⟩ ⟨⟩
        refine ⟨?_, nofun, fun _ => remote, trivial⟩
        rintro sequence ⟨⟩
        exact ⟨visible, rfl, settled, found, open_⟩
  | @publishSaved attempt source batch cacheable stored running live saves =>
      have visible := (saves_visible saves).1
      obtain ⟨atEnd, all⟩ := live_settled live visible
      apply shape.of_prepare all
      · rintro _ ⟨⟩
        simp only [atEnd]
        omega
      · rintro _ _ ⟨⟩ ⟨⟩
        refine ⟨?_, nofun, fun flown => absurd rfl flown, trivial⟩
        rintro sequence ⟨⟩
        exact ⟨visible, atEnd.symm, none, by simp, nofun⟩
      · rintro decision outcome ⟨⟩
  | @publishUnsaved attempt source batch cacheable stored running live saves =>
      apply shape.of_attempt
      · rintro _ ⟨⟩ visible
        exact shape.next_le attempt running visible
      · rintro _ _ ⟨⟩ ⟨⟩
        exact ⟨nofun, fun _ => ⟨rfl, fun visible => (live_settled live visible).1⟩, fun flown => absurd rfl flown, trivial⟩
  | @sendDropped attempt inflight responses result running flying prepared mutable_ fresh published none_ =>
      exact shape.of_receipt running flying (mutable_remote mutable_).1 (posted_subperm published)
        (fun _ _ => rfl) (Table.get?_set_self _ _ _)
  | @sendAccepted attempt inflight responses result reviewId running flying prepared mutable_ fresh published accepted =>
      exact shape.of_receipt running flying (mutable_remote mutable_).1 (posted_subperm published)
        (fun old found => absurd found (fresh old)) ⟨result, Table.get?_set_self _ _ _⟩
  | @reject attempt inflight running flying prepared mutable_ fresh =>
      obtain ⟨saved, _, _, _⟩ := shape.inflight attempt inflight running flying
      apply shape.of_settle
      · intro other same visible
        cases replay : inflight.replay with
        | true => simp [replay] at same
        | false =>
            rw [replay] at same
            obtain rfl := Option.some.inj same
            cases sequence : inflight.sequence with
            | none => simpa [sequence] using shape.next_le attempt running visible
            | some q =>
                obtain ⟨_, rfl, settled, found, _⟩ := saved q sequence
                obtain ⟨inside, _⟩ := List.getElem?_eq_some_iff.mp found
                exact inside
      · intro other same
        cases replay : inflight.replay with
        | true => simp [replay] at same
        | false =>
            rw [replay] at same
            obtain rfl := Option.some.inj same
            rfl
      · intro n decision _ _ open_
        exact absurd rfl open_
  | @answer attempt inflight result running flying answers =>
      exact shape.of_receipt running flying (answers_remote shape running flying answers) (shape.posted answers)
        (fun _ _ => rfl) (Table.get?_set_self _ _ _)
  | @record attempt inflight leaseEpoch before after result db running flying answered =>
      obtain ⟨saved, unsaved, remote, receipt⟩ := shape.inflight attempt inflight running flying
      rw [answered] at remote receipt
      apply shape.of_attempt
      · rintro _ ⟨⟩ visible
        exact shape.next_le attempt running visible
      · rintro _ _ ⟨⟩ ⟨⟩
        exact ⟨saved, unsaved, fun _ => remote nofun, receipt⟩
  | @finish attempt inflight delta running flying finishes =>
      obtain ⟨saved, _, _, _⟩ := shape.inflight attempt inflight running flying
      apply shape.of_settle
      · rintro other ⟨⟩ visible
        cases sequence : inflight.sequence with
        | none => simpa [sequence] using shape.next_le attempt running visible
        | some q =>
            obtain ⟨_, rfl, settled, found, _⟩ := saved q sequence
            obtain ⟨inside, _⟩ := List.getElem?_eq_some_iff.mp found
            exact inside
      · rintro other ⟨⟩
        rfl
      · intro n decision sequence was _ remote
        obtain ⟨_, _, settled, found, _⟩ := saved n sequence
        rw [found] at was
        cases was
        obtain ⟨result, stored, _⟩ := finishes_saved shape running flying finishes remote
        exact ⟨result, stored⟩
  | @fail attempt inflight running flying unrecorded =>
      apply shape.of_attempt
      · intro other same visible
        cases sequence : inflight.sequence with
        | some q => simp [sequence] at same
        | none =>
            rw [sequence] at same
            obtain rfl := Option.some.inj same
            exact shape.next_le attempt running visible
      · intro other batch same flying'
        cases sequence : inflight.sequence with
        | some q => simp [sequence] at same
        | none =>
            rw [sequence] at same
            obtain rfl := Option.some.inj same
            cases flying'
  | @summarizeSaved attempt stored settled running live saves =>
      obtain ⟨atEnd, all⟩ := live_settled live (saves_visible saves).1
      apply shape.of_prepare all
      · intro other same
        cases settled with
        | none => cases same
        | some outcome =>
            obtain rfl := Option.some.inj same
            simp only [atEnd]
            omega
      · intro other batch same flying
        cases settled with
        | none => cases same
        | some outcome =>
            obtain rfl := Option.some.inj same
            rw [live_idle live] at flying
            cases flying
      · rintro decision outcome ⟨⟩
  | @summarizeUnsaved attempt stored settled running live saves =>
      apply shape.of_attempt
      · rintro _ ⟨⟩ visible
        exact shape.next_le attempt running visible
      · rintro _ _ ⟨⟩ flying
        rw [live_idle live] at flying
        cases flying

end Steps
end PrAgent
