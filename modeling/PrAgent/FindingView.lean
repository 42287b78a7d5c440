import PrAgent.FindingInventory
import PrAgent.PointerChains
set_option autoImplicit false

namespace PrAgent

section Severities

def FindingSeverity.rank : FindingSeverity → Nat
  | .p0 => 0
  | .p1 => 1
  | .p2 => 2
  | .p3 => 3

def reviewSeverities : List FindingSeverity := [.p0, .p1, .p2, .p3]

def severityRank : HeldSeverity → Nat
  | .known severity => severity.rank
  | .unknown => 4

def higherSeverity (left right : HeldSeverity) : HeldSeverity :=
  if severityRank left ≤ severityRank right then left else right

def isCheckFailingSeverity (severity threshold : FindingSeverity) : Bool := severity.rank ≤ threshold.rank

def HeldSeverity.blocking (severity : HeldSeverity) (threshold : FindingSeverity) : Bool :=
  match severity with
  | .known severity => isCheckFailingSeverity severity threshold
  | .unknown => false

inductive CoverageGapCeiling
  | p0 | p1
  deriving DecidableEq, Repr

def CoverageGapCeiling.severity : CoverageGapCeiling → FindingSeverity
  | .p0 => .p0
  | .p1 => .p1

def looserRank (left right : Nat) : Nat := if left > right then left else right

def isLowerLetter (c : Char) : Bool := 'a' ≤ c ∧ c ≤ 'z'

-- `/\.test\.[a-z]+$/i` and its like.
def hasSuffixWord (word path : List Char) : Bool :=
  let letters := path.reverse.takeWhile isLowerLetter
  !letters.isEmpty && decide (word <:+ path.take (path.length - letters.length))

-- `REVIEW_RISK_PATH_PATTERNS.test`.
def isTestPath (path : String) : Bool :=
  let path := path.toList.map Char.toLower
  ((path.splitOn '/').dropLast.any fun segment => segment = "test".toList || segment = "tests".toList) ||
    hasSuffixWord ".test.".toList path || hasSuffixWord ".spec.".toList path

structure RunCap where
  testsLens : Bool
  anchorPath : String
  heldPath : Option String
  judged : Bool
  coverageGapCeiling : Option CoverageGapCeiling

def cappedFindingSeverity (cap : RunCap) (path : String) (severity : FindingSeverity) : FindingSeverity :=
  let rank := severity.rank
  let rank :=
    match cap.coverageGapCeiling with
    | none =>
      let rank := if cap.testsLens then looserRank rank FindingSeverity.p2.rank else rank
      if isTestPath path then looserRank rank FindingSeverity.p2.rank else rank
    | some ceiling => looserRank rank ceiling.severity.rank
  let rank := if !cap.judged then looserRank rank FindingSeverity.p1.rank else rank
  reviewSeverities[rank]?.getD severity

def severityWithinRunCap (cap : RunCap) (severity : FindingSeverity) : FindingSeverity :=
  let capped := cappedFindingSeverity cap cap.anchorPath severity
  match cap.heldPath with
  | none => capped
  | some heldPath => if heldPath = cap.anchorPath then capped else cappedFindingSeverity cap heldPath capped

end Severities

section Views

inductive FindingStatus
  | new | confirmedAtHead | openUnverified | outdatedLocation | summaryOnly
  deriving DecidableEq, Repr

structure CleanedDuplicate where
  id : String
  canonicalId : String
  canonicalUrl : String
  resolved : Bool
  deriving DecidableEq, Repr

structure ReviewFinding where
  file : String
  severity : FindingSeverity

structure ReaffirmedFinding where
  id : String
  source : FindingSource
  severity : FindingSeverity
  judged : Option Bool := none
  coverageGapCeiling : Option CoverageGapCeiling := none
  placement : InlinePlacement ReviewFinding

structure ReviewedLedger where
  accepted : List (AcceptedPlacement ReviewFinding) := []
  reaffirmed : List ReaffirmedFinding := []
  suppressedDismissedCount : Nat := 0

inductive FindingRunOutcomes
  | reviewed (ledger : ReviewedLedger) (duplicates : List CleanedDuplicate)
  | notReviewed

def FindingRunOutcomes.ledger : FindingRunOutcomes → ReviewedLedger
  | .reviewed ledger _ => ledger
  | .notReviewed => {}

def FindingRunOutcomes.duplicates : FindingRunOutcomes → List CleanedDuplicate
  | .reviewed _ duplicates => duplicates
  | .notReviewed => []

def FindingRunOutcomes.isReviewed : FindingRunOutcomes → Bool
  | .reviewed .. => true
  | .notReviewed => false

structure FindingViewRow where
  id : String
  status : FindingStatus
  severity : HeldSeverity
  blocking : Bool
  held : Option InventoryFinding
  observedThisRun : Bool

-- The whole of a `FindingView`.
structure BuiltFindingView where
  completeness : InventoryCompleteness
  rows : List FindingViewRow
  blockingCount : Nat
  suppressedDismissedCount : Nat
  duplicates : List CleanedDuplicate

-- What `findingCheck` reads of it.
def BuiltFindingView.read (view : BuiltFindingView) (bounded : view.blockingCount < 2 ^ 32) : FindingView :=
  ⟨view.completeness = .complete, view.blockingCount, bounded⟩

section Placements

variable {Finding : Type}

def AcceptedPlacement.findingId : AcceptedPlacement Finding → String
  | .posted _ _ findingId _ _ => findingId
  | .resumed _ _ findingId _ => findingId
  | .summaryOnly _ _ findingId _ _ => findingId

def AcceptedPlacement.placement : AcceptedPlacement Finding → InlinePlacement Finding
  | .posted _ placement _ _ _ => placement
  | .resumed _ placement _ _ => placement
  | .summaryOnly _ placement _ _ _ => placement

def AcceptedPlacement.isSummaryOnly : AcceptedPlacement Finding → Bool
  | .summaryOnly .. => true
  | .posted .. | .resumed .. => false

end Placements

variable (threshold : FindingSeverity)

def viewRow (id : String) (status : FindingStatus) (severity : HeldSeverity) (held : Option InventoryFinding)
    (observedThisRun : Bool) : FindingViewRow :=
  { id, status, severity, blocking := severity.blocking threshold, held, observedThisRun }

def acceptedRow (accepted : AcceptedPlacement ReviewFinding) : FindingViewRow :=
  viewRow threshold accepted.findingId (if accepted.isSummaryOnly then .summaryOnly else .new)
    (.known accepted.placement.finding.severity) none true

def reaffirmedRow (inventory : FindingInventory) (entry : ReaffirmedFinding) : Option FindingViewRow :=
  match inventory.findings.get? entry.id with
  | none => none
  | some held =>
    if held.state ≠ .open then none
    else
      some (viewRow threshold entry.id (if held.source = .thread then .confirmedAtHead else .summaryOnly)
        (higherSeverity held.severity (.known entry.severity)) (some held) true)

def runRows (inventory : FindingInventory) (ledger : ReviewedLedger) : List FindingViewRow :=
  (ledger.reaffirmed.filterMap (reaffirmedRow threshold inventory)).foldl (appendFirst FindingViewRow.id)
    ((ledger.accepted.map (acceptedRow threshold)).foldl (appendFirst FindingViewRow.id) [])

def carriedStatus (finding : InventoryFinding) : FindingStatus :=
  if finding.source = .summary then .summaryOnly
  else if finding.positionStale then .outdatedLocation else .openUnverified

def carriedRow (finding : InventoryFinding) : FindingViewRow :=
  viewRow threshold finding.id (carriedStatus finding) finding.severity (some finding) false

-- `String.prototype.localeCompare` of the runtime.
abbrev LocaleCompare := String → String → Int

def firstNonZero : List Int → Int
  | [] => 0
  | difference :: rest => if difference ≠ 0 then difference else firstNonZero rest

def compareCarried (localeCompare : LocaleCompare) (left right : InventoryFinding) : Int :=
  firstNonZero
    [severityRank left.severity - severityRank right.severity, localeCompare left.path right.path,
      (left.line.getD 0 : Int) - right.line.getD 0, localeCompare left.id right.id]

-- The duplicates cleaned up this run under another finding, without the copies of one finding id.
def cleanedDuplicates (inventory : FindingInventory) (duplicates : List CleanedDuplicate) : List CleanedDuplicate :=
  duplicates.filter fun duplicate =>
    (inventory.findings.get? duplicate.id).map InventoryFinding.url ≠ some duplicate.canonicalUrl

def isCleaned (cleaned : List CleanedDuplicate) (id : String) : Bool := cleaned.any fun duplicate => duplicate.id = id

-- The `Map` of the cleaned ones: a later entry of an id replaces an earlier one.
def cleanedTo (cleaned : List CleanedDuplicate) (id : String) : Option String :=
  (cleaned.reverse.find? fun duplicate => duplicate.id = id).map CleanedDuplicate.canonicalId

def isClosed (cleaned : List CleanedDuplicate) (id : String) : Bool :=
  cleaned.any fun duplicate => duplicate.resolved && duplicate.id = id

def nextCanonical (inventory : FindingInventory) (cleaned : List CleanedDuplicate) (id : String) : Option String :=
  (cleanedTo cleaned id).or ((inventory.findings.get? id).bind InventoryFinding.aliasOf)

def canonicalKeys (inventory : FindingInventory) (cleaned : List CleanedDuplicate) : List String :=
  cleaned.map CleanedDuplicate.id ++ inventory.findings.rows.map Prod.fst

def canonicalAfterCleanup (inventory : FindingInventory) (cleaned : List CleanedDuplicate) (start : String) :
    Option String :=
  follow (nextCanonical inventory cleaned) ((canonicalKeys inventory cleaned).length + 1) [] start

-- An open finding that another one stands for.
def isOpenCopy (cleaned : List CleanedDuplicate) (finding : InventoryFinding) : Bool :=
  finding.state = .open && !isClosed cleaned finding.id && (finding.aliasOf.isSome || isCleaned cleaned finding.id)

def addCopySeverity (inventory : FindingInventory) (cleaned : List CleanedDuplicate) (severities : Table String HeldSeverity)
    (finding : InventoryFinding) : Table String HeldSeverity :=
  if !isOpenCopy cleaned finding then severities
  else match canonicalAfterCleanup inventory cleaned finding.id with
    | none => severities
    | some canonicalId =>
      severities.set canonicalId (higherSeverity ((severities.get? canonicalId).getD .unknown) finding.severity)

def openCopySeverities (inventory : FindingInventory) (cleaned : List CleanedDuplicate) : Table String HeldSeverity :=
  inventory.findings.values.foldl (addCopySeverity inventory cleaned) .empty

-- The cap of a finding reaffirmed this run and not posted by it; a later entry of an id replaces an earlier one.
def rowCap (outcomes : FindingRunOutcomes) (id : String) (held : Option InventoryFinding) : Option RunCap :=
  if outcomes.ledger.accepted.any fun accepted => accepted.findingId = id then none
  else
    (outcomes.ledger.reaffirmed.reverse.find? fun entry => entry.id = id).map fun entry =>
      { testsLens := entry.source = .specialist .tests
        anchorPath := entry.placement.finding.file
        heldPath := held.map InventoryFinding.path
        judged := entry.judged ≠ some false
        coverageGapCeiling := entry.coverageGapCeiling }

def withinCap (cap : Option RunCap) (severity : HeldSeverity) : HeldSeverity :=
  match cap, severity with
  | some cap, .known severity => .known (severityWithinRunCap cap severity)
  | _, severity => severity

def mergedSeverity (copySeverities : Table String HeldSeverity) (row : FindingViewRow) : HeldSeverity :=
  match copySeverities.get? row.id with
  | none => row.severity
  | some copySeverity => higherSeverity row.severity copySeverity

def finalRow (outcomes : FindingRunOutcomes) (copySeverities : Table String HeldSeverity) (row : FindingViewRow) :
    FindingViewRow :=
  let severity := withinCap (rowCap outcomes row.id row.held) (mergedSeverity copySeverities row)
  if severity = row.severity then row
  else viewRow threshold row.id row.status severity row.held row.observedThisRun

section Build

variable (localeCompare : LocaleCompare) (inventory : FindingInventory) (outcomes : FindingRunOutcomes)

def cleanedBy : List CleanedDuplicate := cleanedDuplicates inventory outcomes.duplicates

def observedRows : List FindingViewRow :=
  (if outcomes.isReviewed then runRows threshold inventory outcomes.ledger else []).filter fun row =>
    !isCleaned (cleanedBy inventory outcomes) row.id

def isCarried (finding : InventoryFinding) : Bool :=
  finding.state = .open && finding.aliasOf.isNone &&
    !((observedRows threshold inventory outcomes).any fun row => row.id = finding.id) &&
    !isCleaned (cleanedBy inventory outcomes) finding.id && (finding.source = .thread || !outcomes.isReviewed)

def carriedRows : List FindingViewRow :=
  ((inventory.findings.values.filter (isCarried threshold inventory outcomes)).mergeSort fun left right =>
    decide (compareCarried localeCompare left right ≤ 0)).map (carriedRow threshold)

def buildFindingView : BuiltFindingView :=
  let rows := (observedRows threshold inventory outcomes ++ carriedRows threshold localeCompare inventory outcomes).map
    (finalRow threshold outcomes (openCopySeverities inventory (cleanedBy inventory outcomes)))
  { completeness := inventory.completeness
    rows
    blockingCount := (rows.filter FindingViewRow.blocking).length
    suppressedDismissedCount := outcomes.ledger.suppressedDismissedCount
    duplicates := outcomes.duplicates }

end Build
end Views
end PrAgent
