import PrAgent.FindingBatchExact
import PrAgent.JudgmentDisposition
set_option autoImplicit false

namespace PrAgent

abbrev BatchLedger := FindingLedger BatchFinding BatchReaffirmed
abbrev BatchDelta := FindingLedgerDelta BatchFinding BatchReaffirmed
abbrev BatchDecision := CanonicalThreadDecision BatchFinding BatchReaffirmed

section Machine

-- What `publishFindingBatch` does with a batch that is not thrown back. Its decision may have been saved before it is published, or
-- before it throws.
inductive BatchAnswer
  | published (publication : InlinePublication BatchFinding) (saved : Bool)
  | stopped
  | failed (saved : Bool)

-- A call that was published. It only records the run.
structure JudgedCall where
  specialist : SpecialistId
  awaiting : List CandidateIdentity
  dispositions : List JudgmentDisposition
  findings : List CandidateIdentity
  -- the candidates that were posted, went to the summary or were reaffirmed
  judged : List CandidateIdentity
  posted : List CandidateIdentity

-- A call and its decision, with the submitted findings beside their redacted forms.
structure PreparedCall where
  record : JudgedCall
  findings : List (BatchFinding × BatchFinding)
  decision : BatchDecision

-- A saved decision that is settled, with its publication unless that was rejected.
structure SavedDecision where
  call : JudgedCall
  decision : BatchDecision
  publication : Option (InlinePublication BatchFinding)

structure Judging where
  source : Option SpecialistId := none
  report : Option (List CandidateIdentity) := none
  ledger : BatchLedger
  overlapRoundsUsed : Nat := 0
  pending : Option PreparedCall := none
  decisions : List SavedDecision := []
  history : List JudgedCall := []

abbrev SubmittedEntry := BatchFinding × Except String ObservationRelation

inductive JudgingEvent
  | setSource (specialist : SpecialistId)
  | setReport (findings : List CandidateIdentity)
  -- a `publish_thread` call; `environment` holds what a batch is reconciled against and published with
  | publish (submitted : List SubmittedEntry) (dispositions : List JudgmentDisposition) (environment : BatchCall)
      (answer : BatchAnswer)
  -- a new attempt replays the settled decisions, the `missed` ones without evidence; `loaded` is the ledger of a run that has none
  | restart (summaryFirst : Bool) (loaded : BatchLedger) (missed : List Nat)
  -- the saved decision of a failed call is published again, or is settled as rejected
  | replay (withoutEvidence : Bool) (publication : InlinePublication BatchFinding)
  | abandon

variable (collation : Collation) (minting : IdMinting) (redactReviewText : String → String)

def redactedFinding (environment : BatchCall) (specialist : SpecialistId) (finding : BatchFinding) : BatchFinding :=
  let redacted := { finding with title := redactReviewText finding.title, detail := redactReviewText finding.detail }
  { redacted with
    severity := cappedFindingSeverity
      ⟨decide (specialist = .tests), finding.file, none, true, environment.coverageGapCeiling redacted⟩ finding.file finding.severity }

def Judging.call (state : Judging) (specialist : SpecialistId) (submitted : List SubmittedEntry) (environment : BatchCall) :
    BatchCall :=
  { environment with
    submitted := submitted.map fun entry => (redactedFinding redactReviewText environment specialist entry.1, entry.2)
    source := .specialist specialist
    ledger := state.ledger
    overlapRoundsLeft := maxOverlapRounds - state.overlapRoundsUsed
    judged := true }

def findingsOf (delta : BatchDelta) : List BatchFinding :=
  delta.accepted.map (fun entry => entry.placement.finding) ++ delta.reaffirmed.map fun entry => entry.placement.finding

-- The submitted findings that a change of the ledger holds in their redacted form.
def judgedBy (findings : List (BatchFinding × BatchFinding)) (delta : BatchDelta) :
    List CandidateIdentity :=
  (findings.filter fun finding => finding.2 ∈ findingsOf delta).map fun finding => finding.1.candidate

def postedBy (findings : List (BatchFinding × BatchFinding)) (delta : BatchDelta) :
    List CandidateIdentity :=
  judgedBy findings { delta with accepted := delta.accepted.filter AcceptedPlacement.isPosted, reaffirmed := [] }

def replayedDelta (withoutEvidence : Bool) (publication : InlinePublication BatchFinding) (decision : BatchDecision) :
    Option BatchDelta :=
  match decision.resultKind with
  | .remote => (publication.result (sortsBefore collation) decision.inline).map (remoteDelta withoutEvidence decision)
  | .empty | .budgetExhausted => some (localDelta withoutEvidence decision)

def Judging.prepared (state : Judging) (specialist : SpecialistId) (submitted : List SubmittedEntry)
    (dispositions : List JudgmentDisposition) (environment : BatchCall) : PreparedCall where
  record :=
    { specialist
      awaiting := awaitingCandidates minting specialist state.report state.ledger
      dispositions
      findings := submitted.map fun entry => entry.1.candidate
      judged := []
      posted := [] }
  findings := submitted.map fun entry => (entry.1, redactedFinding redactReviewText environment specialist entry.1)
  decision := (state.call redactReviewText specialist submitted environment).plan collation minting

def Judging.settle (state : Judging) (prepared : PreparedCall) (publication : InlinePublication BatchFinding) (saved : Bool)
    (delta : BatchDelta) : Judging :=
  let call :=
    { prepared.record with judged := judgedBy prepared.findings delta, posted := postedBy prepared.findings delta }
  { state with
    ledger := applyFindingLedgerDelta state.ledger delta
    pending := none
    decisions := state.decisions ++ if saved then [⟨call, prepared.decision, some publication⟩] else []
    history := state.history ++ [call] }

def SavedDecision.delta (withoutEvidence : Bool) (saved : SavedDecision) : BatchDelta :=
  (saved.publication.bind fun publication => replayedDelta collation withoutEvidence publication saved.decision).getD noDelta

-- The ledger that a restarted run begins with: that of the first saved decision, unless a summary was saved before it.
def Judging.startingLedger (state : Judging) (summaryFirst : Bool) (loaded : BatchLedger) :
    BatchLedger :=
  match state.decisions.map SavedDecision.decision ++ (state.pending.map PreparedCall.decision).toList with
  | [] => loaded
  | first :: _ => if summaryFirst then loaded else createFindingLedger first.ledgerBefore.toFindingLedgerDelta

def Judging.rebuilt (state : Judging) (summaryFirst : Bool) (loaded : BatchLedger) (missed : List Nat) : BatchLedger :=
  (state.decisions.zipIdx.map fun entry => entry.1.delta collation (decide (entry.2 ∈ missed))).foldl applyFindingLedgerDelta
    (state.startingLedger summaryFirst loaded)

-- A call in another phase, or one that the schemas or `coverageGapPublishError` reject, changes nothing, and is no event.
def judgingStep (state : Judging) : JudgingEvent → Option Judging
  | .setSource specialist => some { state with source := some specialist, overlapRoundsUsed := 0, report := none }
  | .setReport findings => some { state with report := some findings }
  | .publish submitted dispositions environment answer =>
    match state.source with
    | none => some state
    | some specialist =>
      let findings := submitted.map fun entry => entry.1.candidate
      let call := state.call redactReviewText specialist submitted environment
      let prepared := state.prepared collation minting redactReviewText specialist submitted dispositions environment
      if (dispositionMismatch minting specialist state.report state.ledger findings dispositions).isSome then some state
      else if !(call.scan collation minting).isAnswered then some { state with overlapRoundsUsed := state.overlapRoundsUsed + 1 }
      else if state.pending.isSome then some state
      else
        match answer with
        | .stopped => some state
        | .failed saved => some { state with pending := if saved then some prepared else none }
        | .published publication saved =>
          (call.publish collation minting publication).map (state.settle prepared publication saved)
  | .restart summaryFirst loaded missed => some { state with
      source := none
      report := none
      ledger := state.rebuilt collation summaryFirst loaded missed
      overlapRoundsUsed := 0 }
  | .replay withoutEvidence publication =>
    match state.source, state.pending with
    | none, some prepared =>
      -- returned before the decision is settled
      if withoutEvidence = true ∧ prepared.decision.resultKind ≠ .remote then
        some { state with ledger := applyFindingLedgerDelta state.ledger (localDelta true prepared.decision) }
      else
        (replayedDelta collation withoutEvidence publication prepared.decision).map (state.settle prepared publication true)
    -- a run replays before it selects a source
    | _, _ => none
  | .abandon =>
    (state.pending.filter fun prepared => prepared.decision.resultKind = .remote).map fun prepared =>
      { state with pending := none, decisions := state.decisions ++ [⟨prepared.record, prepared.decision, none⟩] }

end Machine

section Property

variable (minting : IdMinting)

-- Every call covers what it was asked for, and nothing that was judged is asked for or published again.
structure JudgedOnce (state : Judging) : Prop where
  covers : ∀ call ∈ state.history, Covers (call.awaiting.map (candidateFindingId minting call.specialist)) call.dispositions
    (call.findings.map (candidateFindingId minting call.specialist))
  later : state.history.Pairwise fun earlier later => earlier.specialist = later.specialist →
    ∀ candidate ∈ earlier.judged, candidate ∉ later.awaiting ∧ candidate ∉ later.findings
  now : ∀ call ∈ state.history, ∀ candidate ∈ call.judged, ∀ report,
    candidate ∉ awaitingCandidates minting call.specialist report state.ledger

variable (collation : Collation) (redactReviewText : String → String)

-- No published finding has a title that redaction changes, none is reaffirmed, and a restart loses none that was judged: its decision
-- was saved and still has its evidence, or it was posted, or the ledger that the run starts from has it.
def KeepsJudged (state : Judging) : JudgingEvent → Prop
  | .publish submitted dispositions environment _ => ∀ specialist, state.source = some specialist →
      dispositionMismatch minting specialist state.report state.ledger (submitted.map fun entry => entry.1.candidate)
        dispositions = none →
      (∀ entry ∈ submitted, redactReviewText entry.1.title = entry.1.title) ∧
        ∀ turn ∈ (state.call redactReviewText specialist submitted environment).keptTurns collation, ∀ id severity,
          (state.call redactReviewText specialist submitted environment).step collation minting turn ≠
            .outcome (.reaffirm id severity)
  | .restart summaryFirst loaded missed => ∀ call ∈ state.history, ∀ candidate ∈ call.judged,
      alreadyJudged call.specialist candidate (state.startingLedger summaryFirst loaded).accepted = true ∨
        ∃ entry ∈ state.decisions.zipIdx, entry.1.call = call ∧ (entry.2 ∉ missed ∨ candidate ∈ call.posted)
  | .setSource _ | .setReport _ | .replay _ _ | .abandon => True

end Property

section Sources

variable {collation : Collation} {minting : IdMinting}

theorem summary_source {Finding Reaffirmed : Type} {placementKey : Finding → String}
    {targets : List (IdentifiedInlinePlacement Finding)} {batch : ReconciledBatch Finding Reaffirmed} {source : FindingSource}
    {spent : Bool} : ∀ entry ∈ acceptedSummaryPlacements placementKey targets batch source spent, entry.source = source := by
  intro entry listed
  rw [acceptedSummary_eq, List.mem_append] at listed
  cases listed with
  | inl held =>
      obtain ⟨_, _, rfl⟩ := List.mem_map.mp held
      rfl
  | inr target =>
      obtain ⟨_, _, rfl⟩ := List.mem_map.mp target
      rfl

-- A decision of one source that reaffirms nothing.
structure OwnDecision (source : FindingSource) (decision : BatchDecision) : Prop where
  decided : decision.source = source
  accepted : ∀ entry ∈ decision.localDelta.accepted, entry.source = source ∧ entry.isPosted = false
  reaffirmed : decision.localDelta.reaffirmed = []

variable {source : FindingSource} {withoutEvidence : Bool} {publication : InlinePublication BatchFinding}
  {decision : BatchDecision} {delta : BatchDelta}
  {result : InlinePublishResult BatchFinding}

def sentEntries (decision : BatchDecision) (result : InlinePublishResult BatchFinding) :
    List (AcceptedPlacement BatchFinding) :=
  match result.review with
  | none => []
  | some reviewId => result.posted.map (postedPlacement decision.source reviewId)

def summaryEntries (decision : BatchDecision) (result : InlinePublishResult BatchFinding) :
    List (AcceptedPlacement BatchFinding) :=
  decision.localDelta.accepted ++ result.anchorDropped.map fun placement => summaryOnlyPlacement decision.source placement .anchor

theorem sentEntries_source : ∀ entry ∈ sentEntries decision result, entry.source = decision.source := by
  intro entry listed
  rw [sentEntries] at listed
  split at listed
  · cases listed
  · obtain ⟨_, _, rfl⟩ := List.mem_map.mp listed
    rfl

theorem summaryEntries_own (own : OwnDecision source decision) :
    ∀ entry ∈ summaryEntries decision result, entry.source = source ∧ entry.isPosted = false := by
  intro entry listed
  rcases List.mem_append.mp listed with kept | dropped
  · exact own.accepted entry kept
  · obtain ⟨_, _, rfl⟩ := List.mem_map.mp dropped
    exact ⟨own.decided, rfl⟩

-- A replay without evidence leaves what was sent. A local decision is as one that sends nothing.
theorem replayed_parts (replayed : replayedDelta collation withoutEvidence publication decision = some delta) :
    ∃ result, ∀ missed, ∃ other, replayedDelta collation missed publication decision = some other ∧
      other.accepted = (if missed then [] else summaryEntries decision result) ++ sentEntries decision result ∧
      other.reaffirmed = if missed then [] else decision.localDelta.reaffirmed := by
  have unsent : ∀ missed, (localDelta missed decision).accepted =
      (if missed then [] else summaryEntries decision ⟨none, [], []⟩) ++ sentEntries decision ⟨none, [], []⟩ ∧
      (localDelta missed decision).reaffirmed = if missed then [] else decision.localDelta.reaffirmed := by
    intro missed
    cases missed <;> simp [summaryEntries, sentEntries, localDelta]
  cases kind : decision.resultKind with
  | remote =>
      simp only [replayedDelta, kind] at replayed ⊢
      obtain ⟨result, found, -⟩ := Option.map_eq_some_iff.mp replayed
      refine ⟨result, fun missed => ⟨_, by rw [found, Option.map_some], ?_⟩⟩
      cases review : result.review <;> cases missed <;>
        simp [remoteDelta, summaryEntries, sentEntries, localDelta, emptyDelta, review]
  | empty => exact ⟨_, fun missed => ⟨localDelta missed decision, by simp only [replayedDelta, kind], unsent missed⟩⟩
  | budgetExhausted => exact ⟨_, fun missed => ⟨localDelta missed decision, by simp only [replayedDelta, kind], unsent missed⟩⟩

theorem replayed_own (own : OwnDecision source decision)
    (replayed : replayedDelta collation withoutEvidence publication decision = some delta) :
    (∀ entry ∈ delta.accepted, entry.source = source) ∧ delta.reaffirmed = [] := by
  obtain ⟨result, parts⟩ := replayed_parts replayed
  obtain ⟨other, found, accepted, reaffirmed⟩ := parts withoutEvidence
  obtain rfl := Option.some.inj (replayed.symm.trans found)
  rw [own.reaffirmed, ite_self] at reaffirmed
  refine ⟨?_, reaffirmed⟩
  intro entry listed
  rw [accepted] at listed
  rcases List.mem_append.mp listed with kept | sent
  · exact (summaryEntries_own own entry (List.mem_ite_nil_left.mp kept).2).1
  · exact (sentEntries_source entry sent).trans own.decided

-- Once more with evidence it holds what it held, and without evidence what was posted.
theorem replayed_again (own : OwnDecision source decision)
    (replayed : replayedDelta collation withoutEvidence publication decision = some delta) (missed : Bool) :
    ∃ other, replayedDelta collation missed publication decision = some other ∧
      ∀ entry ∈ delta.accepted, missed = false ∨ entry.isPosted = true → entry ∈ other.accepted := by
  obtain ⟨result, parts⟩ := replayed_parts replayed
  obtain ⟨same, found, accepted, _⟩ := parts withoutEvidence
  obtain rfl := Option.some.inj (replayed.symm.trans found)
  obtain ⟨other, again, other_accepted, _⟩ := parts missed
  refine ⟨other, again, ?_⟩
  intro entry listed held
  rw [accepted] at listed
  rw [other_accepted]
  rcases List.mem_append.mp listed with kept | sent
  · have kept := (List.mem_ite_nil_left.mp kept).2
    have hidden := (summaryEntries_own own entry kept).2
    have evidence := held.resolve_right fun posted => Bool.noConfusion (hidden.symm.trans posted)
    rw [evidence, if_neg Bool.false_ne_true]
    exact List.mem_append_left _ kept
  · exact List.mem_append_right _ sent

-- A batch in which nothing is answered with a reaffirmation.
theorem plan_own (call : BatchCall) (unaffirmed : ∀ turn ∈ call.keptTurns collation, ∀ id severity,
    call.step collation minting turn ≠ .outcome (.reaffirm id severity)) :
    OwnDecision call.source (call.plan collation minting) where
  decided := rfl
  accepted := fun _ listed => ⟨summary_source _ listed, (acceptedSummary_unposted listed).1⟩
  reaffirmed := by
    change (call.reconcileBatch collation minting).reaffirmed = []
    have none_ : (call.reconcileBatch collation minting).reaffirmed.map (fun entry => entry.placement.finding) = [] := by
      rw [BatchCall.reaffirmed_turns, List.map_eq_nil_iff]
      apply List.filter_eq_nil_iff.mpr
      intro turn kept ends
      cases result : call.turnResult collation minting turn with
      | none =>
          rw [result] at ends
          cases of_decide_eq_true ends
      | some outcome =>
          rw [result] at ends
          cases outcome with
          | reaffirm id severity =>
              exact unaffirmed turn kept id severity (BatchCall.step_of_result result fun _ _ => ReconcileOutcome.noConfusion)
          | postThread id reopens links => cases of_decide_eq_true ends
          | promote id => cases of_decide_eq_true ends
          | summaryOnly id reason => cases of_decide_eq_true ends
          | suppressedDismissed id => cases of_decide_eq_true ends
    exact List.map_eq_nil_iff.mp none_

end Sources

section Invariant

variable (minting : IdMinting)

-- A saved call covers what it was asked for, and holds nothing that was judged before it.
structure PreparedCall.Sound (prepared : PreparedCall) (state : Judging) : Prop where
  covers : Covers (prepared.record.awaiting.map (candidateFindingId minting prepared.record.specialist))
    prepared.record.dispositions (prepared.record.findings.map (candidateFindingId minting prepared.record.specialist))
  apart : ∀ call ∈ state.history, call.specialist = prepared.record.specialist →
    ∀ candidate ∈ call.judged, candidate ∉ prepared.record.awaiting ∧ candidate ∉ prepared.record.findings
  own : OwnDecision (.specialist prepared.record.specialist) prepared.decision
  titles : ∀ finding ∈ prepared.findings, finding.2.candidate = finding.1.candidate
  unjudged : prepared.record.judged = [] ∧ prepared.record.posted = []

variable (collation : Collation)

-- What a replay of a saved decision holds of the candidates that its call judged.
structure SavedDecision.Sound (saved : SavedDecision) : Prop where
  judged : ∀ candidate ∈ saved.call.judged,
    alreadyJudged saved.call.specialist candidate (saved.delta collation false).accepted = true
  posted : ∀ candidate ∈ saved.call.posted, ∀ withoutEvidence,
    alreadyJudged saved.call.specialist candidate (saved.delta collation withoutEvidence).accepted = true

structure Judging.Sound (state : Judging) : Prop where
  once : JudgedOnce minting state
  held : ∀ call ∈ state.history, ∀ candidate ∈ call.judged,
    alreadyJudged call.specialist candidate state.ledger.accepted = true
  pending : ∀ prepared, state.pending = some prepared → prepared.Sound minting state
  decisions : ∀ saved ∈ state.decisions, saved.Sound collation

variable {minting} {collation} {redactReviewText : String → String}

variable {specialist : SpecialistId} {candidate : CandidateIdentity}

theorem not_awaiting {ledger : BatchLedger}
    (judged : alreadyJudged specialist candidate ledger.accepted = true) (report : Option (List CandidateIdentity)) :
    candidate ∉ awaitingCandidates minting specialist report ledger := by
  intro asked
  cases report with
  | none => cases asked
  | some findings =>
      have open_ := (mem_awaiting.mp asked).2
      rw [judged] at open_
      cases open_

theorem alreadyJudged_mono {some_ all : List (AcceptedPlacement BatchFinding)} (inside : ∀ entry ∈ some_, entry ∈ all)
    (judged : alreadyJudged specialist candidate some_ = true) : alreadyJudged specialist candidate all = true := by
  obtain ⟨entry, listed, same⟩ := alreadyJudged_iff.mp judged
  exact alreadyJudged_iff.mpr ⟨entry, inside entry listed, same⟩

theorem applied_accepted (ledger : BatchLedger)
    (deltas : List BatchDelta) : (deltas.foldl applyFindingLedgerDelta ledger).accepted =
      ledger.accepted ++ deltas.flatMap FindingLedgerDelta.accepted := by
  induction deltas generalizing ledger with
  | nil => exact (List.append_nil _).symm
  | cons delta deltas ih => rw [List.foldl_cons, ih, List.flatMap_cons, ← List.append_assoc]; rfl

-- What a covering call publishes was awaited.
theorem Covers.awaited {awaiting findings : List CandidateIdentity} {dispositions : List JudgmentDisposition}
    (covers : Covers (awaiting.map (candidateFindingId minting specialist)) dispositions
      (findings.map (candidateFindingId minting specialist))) (published : candidate ∈ findings) :
    candidate ∈ awaiting := by
  have accepted := (covers.published _).mp (List.mem_map_of_mem published)
  obtain ⟨disposition, listed, same⟩ := List.mem_map.mp accepted
  have asked := (covers.asked (candidateFindingId minting specialist candidate)).mp
    (same ▸ List.mem_map_of_mem (List.mem_of_mem_filter listed))
  obtain ⟨other, here, id⟩ := List.mem_map.mp asked
  exact candidateFindingId_inj id ▸ here

variable {delta : BatchDelta}

-- The candidates of a call whose findings the ledger has are judged in it.
theorem judgedBy_held {prepared : PreparedCall} (titles : ∀ finding ∈ prepared.findings, finding.2.candidate = finding.1.candidate)
    (reaffirmed : delta.reaffirmed = [])
    {accepted : List (AcceptedPlacement BatchFinding)} (inside : ∀ entry ∈ delta.accepted, entry ∈ accepted)
    (sources : ∀ entry ∈ delta.accepted, entry.source = .specialist prepared.record.specialist) :
    ∀ candidate ∈ judgedBy prepared.findings delta, alreadyJudged prepared.record.specialist candidate accepted = true := by
  intro candidate listed
  obtain ⟨finding, found, rfl⟩ := List.mem_map.mp listed
  obtain ⟨submitted, placed⟩ := List.mem_filter.mp found
  have placed := of_decide_eq_true placed
  rw [findingsOf, reaffirmed, List.map_nil, List.append_nil] at placed
  obtain ⟨entry, here, same⟩ := List.mem_map.mp placed
  apply alreadyJudged_iff.mpr
  exact ⟨entry, inside entry here, sources entry here, by rw [same, titles finding submitted]⟩

variable {publication : InlinePublication BatchFinding}

theorem settle_sound {state : Judging} {prepared : PreparedCall} {withoutEvidence saved : Bool}
    (sound : state.Sound minting collation) (call : prepared.Sound minting state)
    (replayed : replayedDelta collation withoutEvidence publication prepared.decision = some delta) :
    (state.settle prepared publication saved delta).Sound minting collation := by
  obtain ⟨sources, reaffirmed⟩ := replayed_own call.own replayed
  have held : ∀ record ∈ (state.settle prepared publication saved delta).history, ∀ candidate ∈ record.judged,
      alreadyJudged record.specialist candidate (state.settle prepared publication saved delta).ledger.accepted = true := by
    intro record listed candidate inside
    cases List.mem_append.mp listed with
    | inl before =>
        exact alreadyJudged_mono (fun _ => List.mem_append_left _) (sound.held record before candidate inside)
    | inr here =>
        obtain rfl := List.mem_singleton.mp here
        exact judgedBy_held call.titles reaffirmed (fun _ => List.mem_append_right _) sources candidate inside
  refine ⟨⟨?_, ?_, ?_⟩, held, ?_, ?_⟩
  · intro record listed
    cases List.mem_append.mp listed with
    | inl before => exact sound.once.covers record before
    | inr here =>
        obtain rfl := List.mem_singleton.mp here
        exact call.covers
  · apply List.pairwise_append.mpr
    refine ⟨sound.once.later, List.pairwise_singleton _ _, ?_⟩
    intro earlier before later here same
    obtain rfl := List.mem_singleton.mp here
    exact call.apart earlier before same
  · intro record listed candidate inside report
    exact not_awaiting (held record listed candidate inside) report
  · intro other none_
    cases none_
  · intro decision listed
    cases List.mem_append.mp listed with
    | inl before => exact sound.decisions decision before
    | inr here =>
        cases saved with
        | false => cases here
        | true =>
            obtain rfl := List.mem_singleton.mp here
            constructor
            · obtain ⟨other, again, keeps⟩ := replayed_again call.own replayed false
              rw [SavedDecision.delta, Option.bind_some, again, Option.getD_some]
              exact judgedBy_held call.titles reaffirmed (fun entry listed => keeps entry listed (.inl rfl)) sources
            · intro candidate inside missed
              obtain ⟨other, again, keeps⟩ := replayed_again call.own replayed missed
              rw [SavedDecision.delta, Option.bind_some, again, Option.getD_some]
              refine judgedBy_held call.titles rfl ?_ ?_ candidate inside
              · intro entry listed
                obtain ⟨here, posted⟩ := List.mem_filter.mp listed
                exact keeps entry here (.inr posted)
              · exact fun entry listed => sources entry (List.mem_of_mem_filter listed)

-- An event that leaves the history as it is, and what was judged in the ledger.
theorem unsettled_sound {state next : Judging} (sound : state.Sound minting collation) (history : next.history = state.history)
    (held : ∀ call ∈ state.history, ∀ candidate ∈ call.judged, alreadyJudged call.specialist candidate next.ledger.accepted = true)
    (pending : ∀ prepared, next.pending = some prepared → prepared.Sound minting state)
    (decisions : ∀ saved ∈ next.decisions, saved.Sound collation) : next.Sound minting collation where
  once :=
    { covers := history ▸ sound.once.covers
      later := history ▸ sound.once.later
      now := by
        rw [history]
        exact fun call listed candidate inside => not_awaiting (held call listed candidate inside) }
  held := history ▸ held
  pending := by
    intro prepared saved
    have call := pending prepared saved
    exact ⟨call.covers, history ▸ call.apart, call.own, call.titles, call.unjudged⟩
  decisions

-- A restart without the candidates that the condition names.
theorem rebuilt_held {state : Judging} (sound : state.Sound minting collation) {summaryFirst : Bool}
    {loaded : BatchLedger} {missed : List Nat}
    (keeps : KeepsJudged minting collation redactReviewText state (.restart summaryFirst loaded missed)) :
    ∀ call ∈ state.history, ∀ candidate ∈ call.judged,
      alreadyJudged call.specialist candidate (state.rebuilt collation summaryFirst loaded missed).accepted = true := by
  intro call listed candidate inside
  rw [Judging.rebuilt, applied_accepted]
  rcases keeps call listed candidate inside with kept | ⟨⟨saved, n⟩, stored, rfl, how⟩
  · exact alreadyJudged_mono (fun _ => List.mem_append_left _) kept
  · have decision := sound.decisions saved (List.fst_mem_of_mem_zipIdx stored)
    have again : alreadyJudged saved.call.specialist candidate (saved.delta collation (decide (n ∈ missed))).accepted = true := by
      rcases how with evidence | posted
      · rw [decide_eq_false evidence]
        exact decision.judged candidate inside
      · exact decision.posted candidate posted _
    refine alreadyJudged_mono (fun entry there => List.mem_append_right _ ?_) again
    exact List.mem_flatMap.mpr ⟨_, List.mem_map_of_mem stored, there⟩

theorem prepared_sound {state : Judging} (sound : state.Sound minting collation)
    {submitted : List SubmittedEntry} {dispositions : List JudgmentDisposition} {environment : BatchCall}
    (matched : dispositionMismatch minting specialist state.report state.ledger (submitted.map fun entry => entry.1.candidate)
      dispositions = none)
    (titles : ∀ entry ∈ submitted, redactReviewText entry.1.title = entry.1.title)
    (unaffirmed : ∀ turn ∈ (state.call redactReviewText specialist submitted environment).keptTurns collation, ∀ id severity,
      (state.call redactReviewText specialist submitted environment).step collation minting turn ≠ .outcome (.reaffirm id severity)) :
    (state.prepared collation minting redactReviewText specialist submitted dispositions environment).Sound minting state := by
  have covers := mismatch_none_iff.mp matched
  refine ⟨covers, ?_, plan_own _ unaffirmed, ?_, rfl, rfl⟩
  · intro call listed same candidate judged
    have absent : candidate ∉ awaitingCandidates minting specialist state.report state.ledger := by
      have now := sound.once.now call listed candidate judged state.report
      rw [same] at now
      exact now
    exact ⟨absent, fun published => absent (covers.awaited published)⟩
  · intro finding listed
    obtain ⟨entry, here, rfl⟩ := List.mem_map.mp listed
    simp only [redactedFinding, BatchFinding.candidate, titles entry here]

theorem publish_replayed {call : BatchCall} (published : call.publish collation minting publication = some delta) :
    replayedDelta collation false publication (call.plan collation minting) = some delta := by
  rw [BatchCall.publish] at published
  split at published
  · exact published
  · cases published

theorem replay_sound {state next : Judging} (sound : state.Sound minting collation) {withoutEvidence : Bool}
    (moved : judgingStep collation minting redactReviewText state (.replay withoutEvidence publication) = some next) :
    next.Sound minting collation := by
  simp only [judgingStep] at moved
  split at moved
  · rename_i prepared _ saved
    have call := sound.pending prepared saved
    split at moved
    · cases moved
      refine unsettled_sound sound rfl ?_ sound.pending sound.decisions
      exact fun record listed candidate inside =>
        alreadyJudged_mono (fun _ => List.mem_append_left _) (sound.held record listed candidate inside)
    · obtain ⟨delta, found, rfl⟩ := Option.map_eq_some_iff.mp moved
      exact settle_sound sound call found
  · cases moved

theorem judgingStep_sound {state next : Judging} {event : JudgingEvent} (sound : state.Sound minting collation)
    (keeps : KeepsJudged minting collation redactReviewText state event)
    (moved : judgingStep collation minting redactReviewText state event = some next) : next.Sound minting collation := by
  cases event with
  | setSource specialist =>
      cases moved
      exact unsettled_sound sound rfl sound.held sound.pending sound.decisions
  | setReport findings =>
      cases moved
      exact unsettled_sound sound rfl sound.held sound.pending sound.decisions
  | restart summaryFirst loaded missed =>
      cases moved
      exact unsettled_sound sound rfl (rebuilt_held sound keeps) sound.pending sound.decisions
  | abandon =>
      obtain ⟨prepared, found, rfl⟩ := Option.map_eq_some_iff.mp moved
      obtain ⟨judged, posted⟩ := (sound.pending prepared (Option.filter_eq_some_iff.mp found).1).unjudged
      refine unsettled_sound sound rfl sound.held (fun _ none_ => by cases none_) ?_
      intro decision listed
      cases List.mem_append.mp listed with
      | inl before => exact sound.decisions decision before
      | inr here =>
          obtain rfl := List.mem_singleton.mp here
          exact ⟨by simp [judged], by simp [posted]⟩
  | replay withoutEvidence publication => exact replay_sound sound moved
  | publish submitted dispositions environment answer =>
      simp only [judgingStep] at moved
      cases source : state.source with
      | none =>
          rw [source] at moved
          cases moved
          exact sound
      | some specialist =>
          rw [source] at moved
          dsimp only at moved
          by_cases mismatch : (dispositionMismatch minting specialist state.report state.ledger
              (submitted.map fun entry => entry.1.candidate) dispositions).isSome = true
          · rw [if_pos mismatch] at moved
            cases moved
            exact sound
          · rw [if_neg mismatch] at moved
            have matched := Option.not_isSome_iff_eq_none.mp mismatch
            obtain ⟨titles, unaffirmed⟩ := keeps specialist source matched
            have call := prepared_sound sound matched titles unaffirmed
            split at moved
            · cases moved
              exact unsettled_sound sound rfl sound.held sound.pending sound.decisions
            · split at moved
              · cases moved
                exact sound
              · cases answer with
                | stopped =>
                    cases moved
                    exact sound
                | failed saved =>
                    cases moved
                    refine unsettled_sound sound rfl sound.held ?_ sound.decisions
                    intro prepared found
                    cases saved with
                    | true =>
                        cases found
                        exact call
                    | false => cases found
                | published publication saved =>
                    obtain ⟨delta, published, rfl⟩ := Option.map_eq_some_iff.mp moved
                    exact settle_sound sound call (publish_replayed published)

-- In every run whose published findings keep their titles and are not reaffirmed, and whose restarts lose none that was judged, each
-- candidate is judged once.
theorem candidates_judged_once (collation : Collation) (minting : IdMinting) (redactReviewText : String → String)
    {ledger : BatchLedger} {state : Judging}
    (reached : Reaches (judgingStep collation minting redactReviewText) (KeepsJudged minting collation redactReviewText)
      { ledger } state) : JudgedOnce minting state := by
  have initial : Judging.Sound minting collation { ledger } := by
    refine ⟨⟨by simp, List.Pairwise.nil, by simp⟩, by simp, ?_, by simp⟩
    intro prepared none_
    cases none_
  have sound := reached.invariant (Judging.Sound minting collation) initial fun _ _ _ sound keeps moved => judgingStep_sound sound keeps moved
  exact sound.once

end Invariant

section Examples

-- A thread of an earlier run holds a finding.
def threadHeld : ReconcileFinding := { BatchCall.summaryHeld with source := .thread, url := "thread" }

def threadInventory : ReconcileInventory where
  completeness := .complete
  findings := Table.empty.set "f1" threadHeld
  canonicalOf := some
  keyed := by
    intro id finding stored
    rcases Table.get?_set_cases stored with ⟨same, rfl⟩ | ⟨_, stored⟩
    · exact same.symm
    · cases stored

def threadEnvironment : BatchCall := { BatchCall.settledCall with inventory := threadInventory }

def reaffirmedEntry : SubmittedEntry :=
  (⟨"a.ts", 1, 2, .p1, "Lost update", "The write is not awaited."⟩, .ok (.continues "f1"))

def secretEntry : SubmittedEntry := (⟨"b.ts", 4, 4, .p2, "Logs token=abcd1234", "The log keeps it."⟩, .ok .new)

-- Goes to the summary, since no line of its file is in the diff.
def plainEntry : SubmittedEntry := (⟨"b.ts", 4, 4, .p2, "Unchecked result", "The result is dropped."⟩, .ok .new)

-- What redaction does to the titles of the findings.
def redactToken (text : String) : String := if text = "Logs token=abcd1234" then "Logs [redacted]" else text

def loneDispositions (entry : SubmittedEntry) : List JudgmentDisposition :=
  [⟨candidateFindingId BatchCall.spelledMinting .correctness entry.1.candidate, true⟩]

-- A specialist whose report of the one candidate has arrived.
def loneReported (entry : SubmittedEntry) : Judging where
  source := some .correctness
  report := some [entry.1.candidate]
  ledger := BatchCall.emptyLedger

def loneCall (entry : SubmittedEntry) : BatchCall := (loneReported entry).call redactToken .correctness [entry] threadEnvironment

theorem loneCall_repeated (entry : SubmittedEntry) : (loneCall entry).repeated BatchCall.flatCollation = [] := by
  have findings : (loneCall entry).submitted.map Prod.fst = [redactedFinding redactToken threadEnvironment .correctness entry.1] := rfl
  rw [BatchCall.repeated, findings, repeatedInBatch, List.zipIdx_singleton, List.mergeSort_singleton]
  rfl

-- The findings that the one call adds to the ledger, accepted and reaffirmed, and those that its replay adds without evidence.
def loneResult (entry : SubmittedEntry) : Option (List BatchFinding × List BatchFinding × Option (List BatchFinding)) :=
  ((loneCall entry).publish BatchCall.flatCollation BatchCall.spelledMinting (.sent [])).map fun delta =>
    (delta.accepted.map (fun accepted => accepted.placement.finding),
      delta.reaffirmed.map (fun reaffirmed => reaffirmed.placement.finding),
      (replayedDelta BatchCall.flatCollation true (.sent [])
        ((loneCall entry).plan BatchCall.flatCollation BatchCall.spelledMinting)).map findingsOf)

theorem lone_results : loneResult reaffirmedEntry = some ([], [reaffirmedEntry.1], some []) ∧
    loneResult secretEntry = some ([{ secretEntry.1 with title := "Logs [redacted]" }], [], some []) ∧
    loneResult plainEntry = some ([plainEntry.1], [], some []) := by
  simp only [loneResult, BatchCall.publish, BatchCall.plan, BatchCall.reconcileBatch, BatchCall.identified, BatchCall.postable,
    BatchCall.outcome, BatchCall.planInlinePlacements, BatchCall.findings, BatchCall.unrepeated, BatchCall.scan,
    BatchCall.reconcileInput, loneCall_repeated]
  decide +kernel

-- The state after the one call.
def afterLone (entry : SubmittedEntry) (delta : BatchDelta) : Judging :=
  (loneReported entry).settle ((loneReported entry).prepared BatchCall.flatCollation BatchCall.spelledMinting redactToken .correctness
    [entry] (loneDispositions entry) threadEnvironment) (.sent []) true delta

variable {entry : SubmittedEntry} {delta : BatchDelta} {accepted reaffirmed : List BatchFinding}
  {replayed : Option (List BatchFinding)}

theorem lone_run (allowed : Judging → JudgingEvent → Prop) (result : loneResult entry = some (accepted, reaffirmed, replayed))
    (selects : ∀ state, allowed state (.setSource .correctness)) (reports : ∀ state, allowed state (.setReport [entry.1.candidate]))
    (publishes : allowed (loneReported entry) (.publish [entry] (loneDispositions entry) threadEnvironment (.published (.sent []) true)))
    (matched : dispositionMismatch BatchCall.spelledMinting .correctness (some [entry.1.candidate]) BatchCall.emptyLedger
      [entry.1.candidate] (loneDispositions entry) = none) :
    ∃ delta, Reaches (judgingStep BatchCall.flatCollation BatchCall.spelledMinting redactToken) allowed
        { ledger := BatchCall.emptyLedger } (afterLone entry delta) ∧
      delta.accepted.map (fun accepted => accepted.placement.finding) = accepted ∧ findingsOf delta = accepted ++ reaffirmed ∧
      (replayedDelta BatchCall.flatCollation true (.sent [])
        ((loneCall entry).plan BatchCall.flatCollation BatchCall.spelledMinting)).map findingsOf = replayed := by
  rw [loneResult] at result
  obtain ⟨delta, published, same⟩ := Option.map_eq_some_iff.mp result
  rw [Prod.mk.injEq, Prod.mk.injEq] at same
  obtain ⟨rfl, rfl, again⟩ := same
  have started : Reaches (judgingStep BatchCall.flatCollation BatchCall.spelledMinting redactToken) allowed
      { ledger := BatchCall.emptyLedger } (loneReported entry) := .next (.next .start (selects _) rfl) (reports _) rfl
  have called : judgingStep BatchCall.flatCollation BatchCall.spelledMinting redactToken (loneReported entry)
      (.publish [entry] (loneDispositions entry) threadEnvironment (.published (.sent []) true)) = some (afterLone entry delta) := by
    have answered := (BatchCall.publish_answered published).1
    have source : (loneReported entry).source = some .correctness := rfl
    have report : (loneReported entry).report = some [entry.1.candidate] := rfl
    have held : (loneReported entry).ledger = BatchCall.emptyLedger := rfl
    have idle : (loneReported entry).pending.isSome = false := rfl
    rw [loneCall] at published answered
    simp only [judgingStep, source]
    rw [report, held, List.map_singleton, matched, answered, idle, published]
    rfl
  exact ⟨delta, .next started publishes called, rfl, rfl, again⟩

theorem lone_judged (held : redactedFinding redactToken threadEnvironment .correctness entry.1 ∈ findingsOf delta) :
    judgedBy [(entry.1, redactedFinding redactToken threadEnvironment .correctness entry.1)] delta = [entry.1.candidate] := by
  simp [judgedBy, held]

-- A candidate that is judged and still asked for.
theorem asked_again {state : Judging} (history : state.history = (afterLone entry delta).history)
    (held : redactedFinding redactToken threadEnvironment .correctness entry.1 ∈ findingsOf delta)
    (unknown : alreadyJudged .correctness entry.1.candidate state.ledger.accepted = false) :
    ¬ JudgedOnce BatchCall.spelledMinting state := by
  intro once
  have now := once.now
  rw [history] at now
  have judged : entry.1.candidate ∈
      judgedBy [(entry.1, redactedFinding redactToken threadEnvironment .correctness entry.1)] delta := by
    rw [lone_judged held]
    exact List.mem_singleton_self _
  exact now _ (List.mem_singleton_self _) _ judged (some [entry.1.candidate])
    (mem_awaiting.mpr ⟨List.mem_singleton_self _, unknown⟩)

-- Every call submits the entry alone.
def SubmitsOnly (entry : SubmittedEntry) (restarts : Bool) : JudgingEvent → Prop
  | .publish submitted _ _ _ => submitted = [entry]
  | .restart .. => restarts = true
  | _ => True

-- A run whose calls submit nothing but the entry, after which its candidate is judged and asked for.
def AskedAgain (entry : SubmittedEntry) (restarts : Bool) : Prop :=
  ∃ state, Reaches (judgingStep BatchCall.flatCollation BatchCall.spelledMinting redactToken)
    (fun _ event => SubmitsOnly entry restarts event) { ledger := BatchCall.emptyLedger } state ∧
      ¬ JudgedOnce BatchCall.spelledMinting state

theorem lone_asked_again (result : loneResult entry = some (accepted, reaffirmed, replayed))
    (matched : dispositionMismatch BatchCall.spelledMinting .correctness (some [entry.1.candidate]) BatchCall.emptyLedger
      [entry.1.candidate] (loneDispositions entry) = none)
    (held : redactedFinding redactToken threadEnvironment .correctness entry.1 ∈ accepted ++ reaffirmed)
    (other : ∀ finding ∈ accepted, finding.candidate ≠ entry.1.candidate) : AskedAgain entry false := by
  obtain ⟨delta, reached, rfl, findings, _⟩ :=
    lone_run (fun _ event => SubmitsOnly entry false event) result (fun _ => trivial) (fun _ => trivial) rfl matched
  refine ⟨_, reached, asked_again rfl (findings ▸ held) (Bool.eq_false_iff.mpr ?_)⟩
  intro known
  obtain ⟨placed, listed, _, candidate⟩ := alreadyJudged_iff.mp known
  exact other placed.placement.finding (List.mem_map_of_mem listed) candidate

theorem plain_matched : dispositionMismatch BatchCall.spelledMinting .correctness (some [plainEntry.1.candidate])
    BatchCall.emptyLedger [plainEntry.1.candidate] (loneDispositions plainEntry) = none := by decide +kernel

theorem restarted_asked_again : AskedAgain plainEntry true := by
  obtain ⟨delta, reached, _, findings, again⟩ := lone_run (fun _ event => SubmitsOnly plainEntry true event) lone_results.2.2
    (fun _ => trivial) (fun _ => trivial) rfl plain_matched
  obtain ⟨bare, replayed, none_⟩ := Option.map_eq_some_iff.mp again
  have lost : ((afterLone plainEntry delta).rebuilt BatchCall.flatCollation false BatchCall.emptyLedger [0]).accepted = [] := by
    change ((replayedDelta BatchCall.flatCollation true (.sent [])
      ((loneCall plainEntry).plan BatchCall.flatCollation BatchCall.spelledMinting)).getD noDelta).accepted = []
    rw [replayed]
    exact List.map_eq_nil_iff.mp (List.append_eq_nil_iff.mp none_).1
  have restarts : SubmitsOnly plainEntry true (.restart false BatchCall.emptyLedger [0]) := rfl
  refine ⟨_, .next reached restarts rfl, @asked_again plainEntry delta _ rfl (by rw [findings]; decide +kernel) ?_⟩
  rw [lost]
  rfl

-- A reaffirmed candidate is asked for again, and so is one whose title redaction changes, and one of the summary after a restart without
-- its evidence.
theorem candidate_asked_again :
    AskedAgain reaffirmedEntry false ∧ AskedAgain secretEntry false ∧ AskedAgain plainEntry true := by
  refine ⟨?_, ?_, restarted_asked_again⟩
  · exact lone_asked_again lone_results.1 (by decide +kernel) (by decide +kernel) (by decide +kernel)
  · exact lone_asked_again lone_results.2.1 (by decide +kernel) (by decide +kernel) (by decide +kernel)

theorem plain_keeps : KeepsJudged BatchCall.spelledMinting BatchCall.flatCollation redactToken (loneReported plainEntry)
      (.publish [plainEntry] (loneDispositions plainEntry) threadEnvironment (.published (.sent []) true)) := by
  intro specialist source _
  cases source
  constructor
  · intro entry listed
    obtain rfl := List.mem_singleton.mp listed
    decide
  · intro turn kept id severity
    have turns : (loneCall plainEntry).keptTurns BatchCall.flatCollation = (loneCall plainEntry).submitted.zipIdx := by
      simp only [BatchCall.keptTurns, BatchCall.turns, BatchCall.unrepeated, loneCall_repeated]
      rfl
    have only : turn = ((redactedFinding redactToken threadEnvironment .correctness plainEntry.1, plainEntry.2), 0) := by
      have listed : turn ∈ (loneCall plainEntry).keptTurns BatchCall.flatCollation := kept
      rw [turns] at listed
      exact List.mem_singleton.mp listed
    subst only
    have minted : (loneCall plainEntry).mints BatchCall.flatCollation BatchCall.spelledMinting
        ((redactedFinding redactToken threadEnvironment .correctness plainEntry.1, plainEntry.2), 0) = true := by decide +kernel
    intro reaffirms
    have step : (loneCall plainEntry).step BatchCall.flatCollation BatchCall.spelledMinting
        ((redactedFinding redactToken threadEnvironment .correctness plainEntry.1, plainEntry.2), 0) =
          .outcome (.reaffirm id severity) := reaffirms
    rw [BatchCall.mints, step] at minted
    cases minted

-- One call, and a restart that has its evidence.
theorem plain_judged_once : ∃ state, state.source = none ∧ state.history.map JudgedCall.judged = [[plainEntry.1.candidate]] ∧
    JudgedOnce BatchCall.spelledMinting state := by
  obtain ⟨delta, reached, _, findings, _⟩ := lone_run
    (KeepsJudged BatchCall.spelledMinting BatchCall.flatCollation redactToken) lone_results.2.2 (fun _ => trivial) (fun _ => trivial) plain_keeps plain_matched
  have keeps : KeepsJudged BatchCall.spelledMinting BatchCall.flatCollation redactToken (afterLone plainEntry delta)
      (.restart false BatchCall.emptyLedger []) := by
    intro call listed candidate _
    obtain rfl := List.mem_singleton.mp listed
    exact .inr ⟨_, List.mem_singleton_self _, rfl, .inl List.not_mem_nil⟩
  refine ⟨_, rfl, ?_, candidates_judged_once _ _ _ (.next reached keeps rfl)⟩
  change [judgedBy [(plainEntry.1, redactedFinding redactToken threadEnvironment .correctness plainEntry.1)] delta] = _
  rw [lone_judged (by rw [findings]; decide +kernel)]

end Examples

end PrAgent
