import PrAgent.FindingBatch
import PrAgent.InlineBatchRuns
import PrAgent.ReviewArtifacts
set_option autoImplicit false

namespace PrAgent

variable (Finding Reaffirmed : Type)

inductive CanonicalDecision
  | threads (decision : CanonicalThreadDecision Finding Reaffirmed)
  | summary

-- A `publication_prepared` artifact, with the outcome of its settlement.
structure RecoveryDecision where
  canonical : CanonicalDecision Finding Reaffirmed
  settled : Option SettlementOutcome

-- The intent of a batch whose send was accepted or dropped every placement; `saved` once its result is stored.
structure BatchReceipt where
  result : InlinePublishResult Finding
  saved : Bool

structure ThreadReview where
  batchId : InlineBatchId
  reviewId : Nat
  comments : List (IdentifiedInlinePlacement Finding)

-- How far `publishFindingBatch` has come: `sent` once GitHub accepted the review, `answered` with the stored result,
-- `recorded` once the batch is in the publish record.
inductive BatchStage
  | prepared
  | sent
  | answered (result : InlinePublishResult Finding)
  | recorded (result : InlinePublishResult Finding)

structure InflightBatch where
  decision : CanonicalThreadDecision Finding Reaffirmed
  sequence : Option Nat
  replay : Bool
  withoutEvidence : Bool
  stage : BatchStage Finding

-- `visible`: the saved decisions carry the binding of the attempt. `next` is the decision that is replayed next.
structure ReviewAttempt where
  headSha : String
  ledger : FindingLedger Finding Reaffirmed
  visible : Bool
  caching : Bool
  evidenceMisses : List Nat
  next : Nat
  inflight : Option (InflightBatch Finding Reaffirmed)

-- `outside`: a review was sent without a saved decision while saved decisions existed.
structure ReviewRun where
  decisions : List (RecoveryDecision Finding Reaffirmed)
  receipts : Table InlineBatchId (BatchReceipt Finding)
  reviews : List (ThreadReview Finding)
  db : PublishDb
  outside : Bool
  attempt : Option (ReviewAttempt Finding Reaffirmed)

inductive AttemptEvent
  | start (headSha : String) (visible caching : Bool) (evidenceMisses : List Nat)
  | replay (published : Bool)
  | publish (source : FindingSource) (batch : ReconciledBatch Finding Reaffirmed) (cacheable stored : Bool)
  | send (responses : List (BatchResponse Finding))
  | reject
  | answer
  | record (leaseEpoch : Option Nat) (before after : LeaseState)
  | finish
  | fail
  | crash
  | summarize (stored : Bool) (settled : Option SettlementOutcome)
  | elsewhere (db : PublishDb)

-- What a review work item is run with.
structure ReviewSetting where
  text : BatchText Finding
  derivedFindingId : String → Finding → String
  before : Finding → Finding → Bool
  placementKey : Finding → String
  digest : InlineBatchId → String
  reviewUrl : Nat → String
  workItemId : WorkItemId
  resourceKey : ResourceKey
  reviewLens : ReviewLens
  caps : ReviewCaps

variable {Finding Reaffirmed}

section Step

variable (setting : ReviewSetting Finding)

def ReviewSetting.loaded (db : PublishDb) : FindingLedger Finding Reaffirmed :=
  initialLedger (loadReviewExecutorPublishContext setting.text setting.derivedFindingId db setting.workItemId
    setting.resourceKey setting.reviewLens)

-- The ledger that an attempt starts from.
def startingLedger (run : ReviewRun Finding Reaffirmed) (visible : Bool) : FindingLedger Finding Reaffirmed :=
  match visible, run.decisions with
  | true, ⟨.threads decision, _⟩ :: _ => createFindingLedger decision.ledgerBefore.toFindingLedgerDelta
  | _, _ => setting.loaded run.db

def settle (decisions : List (RecoveryDecision Finding Reaffirmed)) (sequence : Option Nat)
    (outcome : SettlementOutcome) : List (RecoveryDecision Finding Reaffirmed) :=
  match sequence with
  | none => decisions
  | some sequence => decisions.modify sequence fun decision =>
    if decision.settled.isSome then decision else { decision with settled := some outcome }

-- No saved decision is left to replay, and none is pending.
def ReviewAttempt.live (attempt : ReviewAttempt Finding Reaffirmed)
    (decisions : List (RecoveryDecision Finding Reaffirmed)) : Bool :=
  attempt.inflight.isNone &&
    (!attempt.visible || attempt.next = decisions.length && decisions.all fun decision => decision.settled.isSome)

-- Whether `prepare` saves a decision of the attempt.
def ReviewAttempt.saves (attempt : ReviewAttempt Finding Reaffirmed) (cacheable stored : Bool) : Bool :=
  cacheable && attempt.caching && stored && attempt.visible

def storedPlacements? (posted : List (IdentifiedInlinePlacement Finding)) : Option (List (StoredPlacement Finding)) :=
  posted.mapM fun placement => placement.inlineLine.map fun line => ⟨placement.finding, line, placement.findingId⟩

-- The record of a published batch; `storedPlacement` throws on a placement without a line.
def batchRecord (decision : CanonicalThreadDecision Finding Reaffirmed) (headSha : String) (reviewId : Nat)
    (posted : List (IdentifiedInlinePlacement Finding)) : Option (StoredInlineBatch Finding) :=
  if positive : 0 < reviewId then
    (storedPlacements? posted).map fun placements =>
      ⟨setting.digest decision.batchId, setting.workItemId, decision.source, headSha, reviewId,
        setting.reviewUrl reviewId, placements, positive⟩
  else none

def replayStep (run : ReviewRun Finding Reaffirmed) (attempt : ReviewAttempt Finding Reaffirmed)
    (saved : RecoveryDecision Finding Reaffirmed) (published : Bool) : Option (ReviewRun Finding Reaffirmed) :=
  let missed := decide (attempt.next ∈ attempt.evidenceMisses)
  match saved.canonical with
  | .summary =>
    if saved.settled.isSome || !attempt.evidenceMisses.isEmpty then
      some { run with attempt := some { attempt with next := attempt.next + 1 } }
    else if published then
      some { run with
        decisions := settle run.decisions (some attempt.next) .accepted
        attempt := some { attempt with next := attempt.next + 1 } }
    else none
  | .threads decision =>
    if decision.resultKind ≠ .remote then
      some { run with
        decisions := if missed then run.decisions else settle run.decisions (some attempt.next) .accepted
        attempt := some { attempt with
          next := attempt.next + 1
          ledger := applyFindingLedgerDelta attempt.ledger (localDelta missed decision) } }
    else if saved.settled = some .stopped then
      some { run with attempt := some { attempt with
        next := attempt.next + 1
        ledger := applyFindingLedgerDelta attempt.ledger noDelta } }
    else
      some { run with attempt := some { attempt with
        inflight := some ⟨decision, some attempt.next, true, missed, .prepared⟩ } }

def publishStep (run : ReviewRun Finding Reaffirmed) (attempt : ReviewAttempt Finding Reaffirmed)
    (source : FindingSource) (batch : ReconciledBatch Finding Reaffirmed) (cacheable stored : Bool) :
    ReviewRun Finding Reaffirmed :=
  let decision := planFindingBatch setting.before setting.placementKey setting.caps attempt.headSha source attempt.ledger
    batch
  if attempt.saves cacheable stored then
    { run with
      decisions := run.decisions ++ [⟨.threads decision, none⟩]
      attempt := some { attempt with
        inflight := some ⟨decision, some run.decisions.length, false, false, .prepared⟩ } }
  else
    { run with attempt := some { attempt with
      caching := false
      inflight := some ⟨decision, none, false, false, .prepared⟩ } }

-- `mutate`: only a batch that may still be sent gets here.
def sendStep (run : ReviewRun Finding Reaffirmed) (attempt : ReviewAttempt Finding Reaffirmed)
    (inflight : InflightBatch Finding Reaffirmed) (responses : List (BatchResponse Finding)) :
    Option (ReviewRun Finding Reaffirmed) :=
  match publishInlineReviewComments setting.before inflight.decision.inline responses with
  | none => none
  | some result =>
    match result.review with
    | none =>
      some { run with
        receipts := run.receipts.set inflight.decision.batchId ⟨result, true⟩
        attempt := some { attempt with inflight := some { inflight with stage := .answered result } } }
    | some reviewId =>
      some { run with
        receipts := run.receipts.set inflight.decision.batchId ⟨result, false⟩
        reviews := run.reviews ++ [⟨inflight.decision.batchId, reviewId, result.posted⟩]
        outside := run.outside || (inflight.sequence.isNone && !run.decisions.isEmpty)
        attempt := some { attempt with inflight := some { inflight with stage := .sent } } }

-- The batch is through: it is settled, and the ledger takes its change.
def finishStep (run : ReviewRun Finding Reaffirmed) (attempt : ReviewAttempt Finding Reaffirmed)
    (inflight : InflightBatch Finding Reaffirmed) (delta : FindingLedgerDelta Finding Reaffirmed) :
    ReviewRun Finding Reaffirmed :=
  { run with
    decisions := settle run.decisions inflight.sequence .accepted
    attempt := some { attempt with
      inflight := none
      ledger := applyFindingLedgerDelta attempt.ledger delta
      next := if inflight.sequence.isSome then attempt.next + 1 else attempt.next } }

-- A replay that throws ends the attempt, and a pending decision lets nothing more be published in it.
def failStep (run : ReviewRun Finding Reaffirmed) (attempt : ReviewAttempt Finding Reaffirmed)
    (inflight : InflightBatch Finding Reaffirmed) : ReviewRun Finding Reaffirmed :=
  { run with attempt := if inflight.sequence.isSome then none else some { attempt with inflight := none } }

def rejectStep (run : ReviewRun Finding Reaffirmed) (attempt : ReviewAttempt Finding Reaffirmed)
    (inflight : InflightBatch Finding Reaffirmed) : ReviewRun Finding Reaffirmed :=
  { run with
    decisions := settle run.decisions inflight.sequence .stopped
    attempt := if inflight.replay then none
      else some { attempt with
        inflight := none
        next := if inflight.sequence.isSome then attempt.next + 1 else attempt.next } }

-- A call of `mutate` is open to a batch whose decision is not settled and whose evidence holds.
def InflightBatch.mutable (inflight : InflightBatch Finding Reaffirmed)
    (decisions : List (RecoveryDecision Finding Reaffirmed)) : Bool :=
  inflight.decision.resultKind = .remote && !inflight.withoutEvidence &&
    (inflight.sequence.bind fun sequence => decisions[sequence]?).all fun saved => saved.settled.isNone

def answerStep (run : ReviewRun Finding Reaffirmed) (attempt : ReviewAttempt Finding Reaffirmed)
    (inflight : InflightBatch Finding Reaffirmed) (result : InlinePublishResult Finding) :
    ReviewRun Finding Reaffirmed :=
  { run with
    receipts := run.receipts.set inflight.decision.batchId ⟨result, true⟩
    attempt := some { attempt with inflight := some { inflight with stage := .answered result } } }

def inflightStep (run : ReviewRun Finding Reaffirmed) (attempt : ReviewAttempt Finding Reaffirmed)
    (inflight : InflightBatch Finding Reaffirmed) :
    AttemptEvent Finding Reaffirmed → Option (ReviewRun Finding Reaffirmed)
  | .send responses =>
    match inflight.stage, run.receipts.get? inflight.decision.batchId with
    | .prepared, some ⟨_, true⟩ => none
    | .prepared, _ => if inflight.mutable run.decisions then sendStep setting run attempt inflight responses else none
    | _, _ => none
  | .reject =>
    match inflight.stage, run.receipts.get? inflight.decision.batchId with
    | .prepared, none => if inflight.mutable run.decisions then some (rejectStep run attempt inflight) else none
    | _, _ => none
  | .answer =>
    match inflight.stage, run.receipts.get? inflight.decision.batchId with
    | .sent, some receipt => some (answerStep run attempt inflight receipt.result)
    | .prepared, some receipt =>
      if inflight.decision.resultKind ≠ .remote then none
      else if receipt.saved then some (answerStep run attempt inflight receipt.result)
      else some (answerStep run attempt inflight (recoveredResult inflight.decision.inline receipt.result))
    | _, _ => none
  | .record leaseEpoch before after =>
    match inflight.stage with
    | .answered result =>
      match result.review.bind fun reviewId => batchRecord setting inflight.decision attempt.headSha reviewId result.posted with
      | none => none
      | some batch =>
        let written := (recordBatch setting.text setting.resourceKey setting.reviewLens batch leaseEpoch).run before after
          run.db
        match written.1 with
        | .ok true =>
          some { run with
            db := written.2
            attempt := some { attempt with inflight := some { inflight with stage := .recorded result } } }
        | _ => none
    | _ => none
  | .finish =>
    match inflight.stage with
    | .prepared =>
      if inflight.decision.resultKind = .remote then none
      else some (finishStep run attempt inflight (localDelta false inflight.decision))
    | .answered result =>
      if result.review.isNone then
        some (finishStep run attempt inflight (remoteDelta inflight.withoutEvidence inflight.decision result))
      else none
    | .recorded result =>
      some (finishStep run attempt inflight (remoteDelta inflight.withoutEvidence inflight.decision result))
    | .sent => none
  | .fail =>
    match inflight.stage, inflight.sequence with
    | .recorded _, none => none
    | _, _ => some (failStep run attempt inflight)
  | _ => none

def attemptStep (run : ReviewRun Finding Reaffirmed) :
    AttemptEvent Finding Reaffirmed → Option (ReviewRun Finding Reaffirmed)
  | .start headSha visible caching evidenceMisses =>
    match run.attempt with
    | some _ => none
    | none =>
      let ledger := startingLedger setting run visible
      some { run with
        attempt := some ⟨headSha, ledger, visible || run.decisions.isEmpty, caching, evidenceMisses, 0, none⟩ }
  | .crash => some { run with attempt := none }
  | .elsewhere db => some { run with db }
  | .replay published =>
    match run.attempt with
    | none => none
    | some attempt =>
      match attempt.inflight, run.decisions[attempt.next]? with
      | none, some saved => if attempt.visible then replayStep run attempt saved published else none
      | _, _ => none
  | .publish source batch cacheable stored =>
    match run.attempt with
    | none => none
    | some attempt =>
      if attempt.live run.decisions then some (publishStep setting run attempt source batch cacheable stored) else none
  | .summarize stored settled =>
    match run.attempt with
    | none => none
    | some attempt =>
      if attempt.live run.decisions then
        if attempt.saves true stored then
          some { run with
            decisions := run.decisions ++ [⟨.summary, settled⟩]
            attempt := if settled.isSome then some { attempt with next := attempt.next + 1 } else none }
        else some { run with attempt := some { attempt with caching := false } }
      else none
  | event =>
    match run.attempt with
    | none => none
    | some attempt =>
      match attempt.inflight with
      | none => none
      | some inflight => inflightStep setting run attempt inflight event

end Step
end PrAgent
