import PrAgent.BatchFindings
import PrAgent.FindingBatchParts
import PrAgent.FindingReconcileRuns
set_option autoImplicit false

namespace PrAgent

inductive HeldBy
  | run | summary | thread
  deriving DecidableEq, Repr

structure BatchReaffirmed where
  id : String
  source : FindingSource
  severity : FindingSeverity
  judged : Option Bool
  coverageGapCeiling : Option CoverageGapCeiling
  heldBy : HeldBy
  placement : InlinePlacement BatchFinding

structure PlacementIdentity where
  findingId : String
  reopens : Option String

-- A batch of one `publish_thread` call, with what it is reconciled against and published with.
structure BatchCall where
  submitted : List (BatchFinding × Except String ObservationRelation)
  scope : Option (List String)
  source : FindingSource
  ledger : FindingLedger BatchFinding BatchReaffirmed
  caps : ReviewCaps
  inventory : ReconcileInventory
  acceptedThisRun : List AcceptedThisRun
  overlapRoundsLeft : Nat
  -- how many ids the run has drawn
  calls : Nat
  judged : Bool
  coverageGapCeiling : BatchFinding → Option CoverageGapCeiling
  hasEvidence : BatchFinding → Bool
  resolveInlineAnchorLine : BatchFinding → Option Nat
  headSha : String

-- Ids do not collide: neither two draws, nor the digests of two materials, nor a draw with a digest.
structure IdMinting where
  draw : Nat → String
  derivedFindingId : List String → String
  draw_injective : ∀ m n, draw m = draw n → m = n
  derived_injective : ∀ s t, derivedFindingId s = derivedFindingId t → s = t
  apart : ∀ n s, draw n ≠ derivedFindingId s

section Reaffirm

def cappedReaffirmedSeverity (held : Option HeldSeverity) (observed : FindingSeverity) (cap : RunCap) : FindingSeverity :=
  let merged := held.elim (.known observed) fun held => higherSeverity held (.known observed)
  match merged with
  | .known severity => severityWithinRunCap cap severity
  | .unknown => severityWithinRunCap cap observed

def ReconcileFinding.heldBy (held : ReconcileFinding) : HeldBy :=
  if held.source = .summary then .summary else .thread

def reaffirmedFinding (call : BatchCall) (placement : InlinePlacement BatchFinding) (id : String) (severity : FindingSeverity) :
    BatchReaffirmed :=
  let held := call.inventory.findings.get? id
  let ceiling := call.coverageGapCeiling placement.finding
  { id
    source := call.source
    severity := cappedReaffirmedSeverity (held.map (·.severity)) severity
      ⟨call.source = .specialist .tests, placement.finding.file, held.map (·.path), call.judged, ceiling⟩
    judged := if call.judged then none else some false
    coverageGapCeiling := ceiling
    heldBy := held.elim .run ReconcileFinding.heldBy
    placement :=
      match held with
      | some held => if held.source = .summary then ⟨placement.finding, none, false⟩ else ⟨placement.finding, held.line, true⟩
      | none => ⟨placement.finding, none, false⟩ }

end Reaffirm

section Outcomes

def UnsettledReason.summaryOnly : UnsettledReason → SummaryOnlyReason
  | .inventoryIncomplete => .inventoryIncomplete
  | .unansweredOverlap => .unansweredOverlap

def ReconcileOutcome.identity : ReconcileOutcome → Option PlacementIdentity
  | .postThread id reopens _ => some ⟨id, reopens⟩
  | .promote id => some ⟨id, none⟩
  | .summaryOnly _ _ | .reaffirm _ _ | .suppressedDismissed _ => none

def ReconcileOutcome.held (placement : InlinePlacement BatchFinding) :
    ReconcileOutcome → Option (IdentifiedInlinePlacement BatchFinding × SummaryOnlyReason)
  | .summaryOnly id reason => some (⟨placement, id, none⟩, reason.summaryOnly)
  | .postThread _ _ _ | .promote _ | .reaffirm _ _ | .suppressedDismissed _ => none

def ReconcileOutcome.reaffirmed (call : BatchCall) (placement : InlinePlacement BatchFinding) :
    ReconcileOutcome → Option BatchReaffirmed
  | .reaffirm id severity => some (reaffirmedFinding call placement id severity)
  | .postThread _ _ _ | .promote _ | .summaryOnly _ _ | .suppressedDismissed _ => none

def ReconcileOutcome.isDismissed : ReconcileOutcome → Bool
  | .suppressedDismissed _ => true
  | .postThread _ _ _ | .promote _ | .summaryOnly _ _ | .reaffirm _ _ => false

end Outcomes

-- A batch with questions or rejected relations is thrown back.
def BatchScan.isAnswered (scan : BatchScan) : Bool := scan.questions.isEmpty && scan.rejected.isEmpty

namespace BatchCall

variable (collation : Collation) (minting : IdMinting) (call : BatchCall)

def observation (finding : BatchFinding) : ReconcileObservation :=
  { file := finding.file
    startLine := finding.startLine
    endLine := finding.endLine
    severity := finding.severity
    title := finding.title }

def submittedFinding (entry : BatchFinding × Except String ObservationRelation) : SubmittedFinding :=
  ⟨reconciledFindingKey entry.1, observation entry.1, entry.2⟩

def repeated : List Nat := repeatedInBatch collation (call.submitted.map Prod.fst)

def threadBudgetSpent : Bool := PrAgent.threadBudgetSpent call.caps call.ledger

def reconcileInput : ReconcileBatch where
  scope := call.scope
  submitted := call.submitted.map submittedFinding
  repeated := call.repeated collation
  threadBudgetSpent := call.threadBudgetSpent

def scan : BatchScan :=
  scanBatch collation.localeCompare minting.draw minting.derivedFindingId call.inventory call.acceptedThisRun
    call.overlapRoundsLeft (call.reconcileInput collation) call.calls

def unrepeated : List (BatchFinding × Except String ObservationRelation) :=
  (call.submitted.zipIdx.filter fun entry => entry.2 ∉ call.repeated collation).map Prod.fst

-- The findings of the batch that are no repeats and have evidence.
def findings : List BatchFinding := ((call.unrepeated collation).map Prod.fst).filter call.hasEvidence

def planInlinePlacements : List (InlinePlacement BatchFinding) :=
  (call.findings collation).map fun finding =>
    ⟨finding, call.resolveInlineAnchorLine finding, (call.resolveInlineAnchorLine finding).isSome⟩

def outcome (placement : InlinePlacement BatchFinding) : Option ReconcileOutcome :=
  (call.scan collation minting).outcomes.get? (reconciledFindingKey placement.finding)

def postable : List (InlinePlacement BatchFinding) :=
  (call.planInlinePlacements collation).filter fun placement =>
    (call.outcome collation minting placement).all fun outcome => outcome.identity.isSome

-- The placements with their ids; one without an outcome gets a fresh id.
def identified : List (IdentifiedInlinePlacement BatchFinding) :=
  (call.postable collation minting).zipIdx.map fun entry =>
    let key := reviewFindingPlacementKey entry.1.finding
    let earlier := ((call.postable collation minting).take entry.2).filter fun placement =>
      reviewFindingPlacementKey placement.finding = key
    let minted := (mintOrigin call.scope ((call.scan collation minting).calls + entry.2) key earlier.length).id minting.draw
      minting.derivedFindingId
    let identity := ((call.outcome collation minting entry.1).bind ReconcileOutcome.identity).getD ⟨minted, none⟩
    ⟨entry.1, identity.findingId, identity.reopens⟩

def reconcileBatch : ReconciledBatch BatchFinding BatchReaffirmed where
  postable := call.identified collation minting
  held := (call.planInlinePlacements collation).filterMap fun placement =>
    (call.outcome collation minting placement).bind (ReconcileOutcome.held placement)
  reaffirmed := (call.planInlinePlacements collation).filterMap fun placement =>
    (call.outcome collation minting placement).bind (ReconcileOutcome.reaffirmed call placement)
  suppressedDismissedCount := ((call.planInlinePlacements collation).filter fun placement =>
    (call.outcome collation minting placement).any ReconcileOutcome.isDismissed).length

def plan : CanonicalThreadDecision BatchFinding BatchReaffirmed :=
  planFindingBatch (sortsBefore collation) reviewFindingPlacementKey call.caps call.headSha call.source call.ledger
    (call.reconcileBatch collation minting)

-- What a batch that is not thrown back changes of the ledger.
def publish (publication : InlinePublication BatchFinding) : Option (FindingLedgerDelta BatchFinding BatchReaffirmed) :=
  if (call.scan collation minting).isAnswered then publishedDelta (sortsBefore collation) publication (call.plan collation minting)
  else none

end BatchCall

end PrAgent
