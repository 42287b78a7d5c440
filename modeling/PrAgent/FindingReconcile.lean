import PrAgent.DuplicateCleanup
set_option autoImplicit false

namespace PrAgent

section MarkerEcho

def lowerAscii (c : Char) : Char := if 'A' ≤ c ∧ c ≤ 'Z' then Char.ofNat (c.toNat + 32) else c

-- A word of the pattern, without regard to case, before a character that is no word character.
def wordAt (word text : List Char) : Bool :=
  word.isPrefixOf (text.map lowerAscii) && !(text.drop word.length).head?.any fun c => c.isAlphanum || c = '_'

def echoWords : List (List Char) :=
  ["pr-agent:finding-row", "pr-agent:finding", "pr-agent:receipt", "pr-agent:objection-answer"].map String.toList

-- Each echo goes to the end of its line; `inside` says that the rest of the line belongs to one.
def neutralizeEchoes (inside : Bool) : List Char → List Char
  | [] => []
  | c :: rest =>
    if inside then if c = '\n' then c :: neutralizeEchoes false rest else neutralizeEchoes true rest
    else if echoWords.any fun word => wordAt word (c :: rest) then
      "[neutralized marker]".toList ++ neutralizeEchoes true rest
    else c :: neutralizeEchoes false rest

def neutralizeMarkerEcho (text : String) : String := String.ofList (neutralizeEchoes false text.toList)

end MarkerEcho

section Data

inductive FindingResolution
  | fixed | dismissed | duplicate
  deriving DecidableEq, Repr

structure ReconcileFinding extends InventoryFinding where
  title : String
  detail : Option String := none
  resolution : Option FindingResolution := none
  deriving DecidableEq, Repr

structure ReconcileInventory where
  completeness : InventoryCompleteness
  findings : Table String ReconcileFinding
  canonicalOf : String → Option String
  keyed : ∀ id finding, findings.get? id = some finding → finding.id = id

structure ReconcileObservation extends FindingSpan where
  severity : FindingSeverity
  title : String
  deriving DecidableEq, Repr

inductive ObservationRelation
  | new
  | continues (findingId : String)
  | distinctFrom (findingIds : List String) (reason : String)
  | uncertain (findingIds : List String)
  deriving DecidableEq, Repr

structure AcceptedThisRun where
  id : String
  path : String
  startLine : Nat
  endLine : Nat
  title : String
  detail : Option String := none
  url : String
  deriving DecidableEq, Repr

inductive CandidateState
  | «open» | resolved | acceptedThisRun
  deriving DecidableEq, Repr

structure OverlapCandidate where
  findingId : String
  path : String
  line : Option Nat
  title : String
  detail : Option String
  state : CandidateState
  url : String
  deriving DecidableEq, Repr

inductive UnsettledReason
  | inventoryIncomplete | unansweredOverlap
  deriving DecidableEq, Repr

inductive ReconcileOutcome
  | postThread (id : String) (reopens : Option String) (relatedLinks : List String)
  | reaffirm (id : String) (severity : FindingSeverity)
  | promote (id : String)
  | suppressedDismissed (id : String)
  | summaryOnly (id : String) (reason : UnsettledReason)
  deriving DecidableEq, Repr

inductive ReconcileStep
  | outcome (outcome : ReconcileOutcome)
  | question (candidates : List OverlapCandidate)
  | rejected (message : String)
  deriving DecidableEq, Repr

end Data

section Candidates

def nearestSameFileCandidates : Nat := 4

def rangeGap (observation : FindingSpan) (start stop : Nat) : Nat :=
  if observation.endLine < start then start - observation.endLine
  else if stop < observation.startLine then observation.startLine - stop
  else 0

def InventoryFinding.inFile (finding : InventoryFinding) (file : String) : Bool :=
  finding.path = file || finding.previousPath = some file

-- First and last line of a finding that has a line.
def InventoryFinding.lines (finding : InventoryFinding) (line : Nat) : Nat × Nat :=
  (min (finding.startLine.getD line) line, max (finding.startLine.getD line) line)

def FindingState.candidateState : FindingState → CandidateState
  | .open => .open
  | .resolved => .resolved

def inventoryCandidate (finding : ReconcileFinding) : OverlapCandidate where
  findingId := finding.id
  path := finding.path
  line := finding.line
  title := neutralizeMarkerEcho finding.title
  detail := finding.detail
  state := finding.state.candidateState
  url := finding.url

def acceptedCandidate (accepted : AcceptedThisRun) : OverlapCandidate where
  findingId := accepted.id
  path := accepted.path
  line := some accepted.startLine
  title := neutralizeMarkerEcho accepted.title
  detail := accepted.detail
  state := .acceptedThisRun
  url := accepted.url

def acceptedOverlaps (observation : FindingSpan) (accepted : AcceptedThisRun) : Bool :=
  accepted.path = observation.file && observation.rangesNear accepted.startLine accepted.endLine

structure RankedCandidate where
  candidate : OverlapCandidate
  gap : Nat
  line : Nat

-- The findings of the file that are open and neither overlap nor have lost their place.
def rankedFinding (observation : FindingSpan) (known : List String) (finding : ReconcileFinding) :
    Option RankedCandidate :=
  if finding.id ∈ known ∨ finding.state ≠ .open then none
  else if !finding.inFile observation.file then none
  else if finding.positionStale then none
  else finding.line.map fun line =>
    { candidate := inventoryCandidate finding
      gap := rangeGap observation (finding.lines line).1 (finding.lines line).2
      line := (finding.lines line).1 }

def rankedAccepted (observation : FindingSpan) (known : List String) (accepted : AcceptedThisRun) :
    Option RankedCandidate :=
  if accepted.id ∈ known ∨ accepted.path ≠ observation.file then none
  else some
    { candidate := acceptedCandidate accepted
      gap := rangeGap observation accepted.startLine accepted.endLine
      line := accepted.startLine }

-- `localeCompare` of the language, which depends on the locale.
variable (localeCompare : String → String → Int)

def RankedBefore (left right : RankedCandidate) : Prop :=
  left.gap < right.gap ∨ left.gap = right.gap ∧ (left.line < right.line ∨
    left.line = right.line ∧ localeCompare left.candidate.findingId right.candidate.findingId ≤ 0)

instance : DecidableRel (RankedBefore localeCompare) := fun _ _ => by
  delta RankedBefore
  infer_instance

variable (observation : FindingSpan) (inventory : ReconcileInventory) (acceptedThisRun : List AcceptedThisRun)

def overlappedFindings : List ReconcileFinding :=
  inventory.findings.values.filter fun finding => observation.overlaps finding.toInventoryFinding

def overlappedAccepted : List AcceptedThisRun :=
  acceptedThisRun.filter fun accepted =>
    accepted.id ∉ (overlappedFindings observation inventory).map (·.id) && acceptedOverlaps observation accepted

def retrievalCandidates : List OverlapCandidate :=
  let overlapped := overlappedFindings observation inventory
  let accepted := overlappedAccepted observation inventory acceptedThisRun
  let known := overlapped.map (·.id)
  let ranked := inventory.findings.values.filterMap (rankedFinding observation known) ++
    acceptedThisRun.filterMap (rankedAccepted observation (known ++ accepted.map (·.id)))
  overlapped.map inventoryCandidate ++ accepted.map acceptedCandidate ++
    ((ranked.insertionSort (RankedBefore localeCompare)).take nearestSameFileCandidates).map RankedCandidate.candidate

end Candidates

section Reconcile

def ObservationRelation.answeredIds : ObservationRelation → List String
  | .new => []
  | .continues findingId => [findingId]
  | .distinctFrom findingIds _ | .uncertain findingIds => findingIds

-- `minted` is what the call of `mint` gives, which is made at most once.
def continueFinding (target : String) (observation : ReconcileObservation) (inventory : ReconcileInventory)
    (acceptedThisRun : List AcceptedThisRun) (retrieved : List String) (complete : Bool) (minted : String) : ReconcileStep :=
  match inventory.findings.get? target with
  | none =>
    if acceptedThisRun.all fun entry => entry.id ≠ target then .rejected ("Unknown finding id " ++ target ++ ".")
    else if target ∉ retrieved then .rejected ("Finding " ++ target ++ " does not overlap this observation.")
    else .outcome (.reaffirm target observation.severity)
  | some _ =>
    if target ∉ retrieved then .rejected ("Finding " ++ target ++ " does not overlap this observation.")
    else
      match (inventory.canonicalOf target).bind inventory.findings.get? with
      | none => .rejected ("Finding " ++ target ++ " has no canonical finding.")
      | some canonical =>
        if canonical.state = .open then
          if canonical.source = .summary ∧ complete then .outcome (.promote canonical.id)
          else .outcome (.reaffirm canonical.id observation.severity)
        else if canonical.resolution = some .fixed then
          if complete then .outcome (.postThread minted (some canonical.id) [])
          else .outcome (.summaryOnly minted .inventoryIncomplete)
        else .outcome (.suppressedDismissed canonical.id)

variable (localeCompare : String → String → Int)

def relatedLinks (relation : ObservationRelation) (candidates : List OverlapCandidate) : List String :=
  match relation with
  | .uncertain findingIds =>
    (candidates.filter fun candidate => candidate.findingId ∈ findingIds && candidate.url ≠ "").map OverlapCandidate.url
  | .new | .continues _ | .distinctFrom _ _ => []

-- A relation other than `continues`.
def reconcileAnswered (relation : ObservationRelation) (inventory : ReconcileInventory)
    (acceptedThisRun : List AcceptedThisRun) (candidates : List OverlapCandidate) (overlapRoundsLeft : Nat)
    (minted : String) : ReconcileStep :=
  let known := inventory.findings.rows.map Prod.fst ++ acceptedThisRun.map AcceptedThisRun.id
  let unknown := (firsts id relation.answeredIds).filter fun findingId => findingId ∉ known
  let unanswered := candidates.filter fun candidate => candidate.findingId ∉ relation.answeredIds
  if unknown ≠ [] then .rejected ("Unknown finding ids " ++ ", ".intercalate unknown ++ ".")
  else if inventory.completeness ≠ .complete then .outcome (.summaryOnly minted .inventoryIncomplete)
  else if unanswered ≠ [] then
    if 0 < overlapRoundsLeft then .question unanswered else .outcome (.summaryOnly minted .unansweredOverlap)
  else .outcome (.postThread minted none (relatedLinks relation candidates))

def reconcileObservation (observation : ReconcileObservation) (relation : ObservationRelation)
    (inventory : ReconcileInventory) (acceptedThisRun : List AcceptedThisRun) (overlapRoundsLeft : Nat) (minted : String) :
    ReconcileStep :=
  let candidates := retrievalCandidates localeCompare observation.toFindingSpan inventory acceptedThisRun
  match relation with
  | .continues target =>
    continueFinding target observation inventory acceptedThisRun (candidates.map OverlapCandidate.findingId)
      (inventory.completeness = .complete) minted
  | .new | .distinctFrom _ _ | .uncertain _ =>
    reconcileAnswered relation inventory acceptedThisRun candidates overlapRoundsLeft minted

end Reconcile
end PrAgent
