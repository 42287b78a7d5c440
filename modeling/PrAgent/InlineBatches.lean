import PrAgent.VerdictReplay
import PrAgent.Firsts
set_option autoImplicit false

namespace PrAgent

inductive FindingSource
  | specialist (id : SpecialistId)
  | review
  deriving DecidableEq, Repr

def FindingSource.text : FindingSource → String
  | .specialist id => id.text
  | .review => "review"

def findingSources : List FindingSource :=
  [.specialist .correctness, .specialist .security, .specialist .quality, .specialist .tests, .review]

-- `isFindingSource`, with the source it recognises.
def findingSource? : Option JsonValue → Option FindingSource
  | some (.string text) => findingSources.find? fun source => source.text = text
  | _ => none

section Batches

variable (Finding : Type)

structure StoredPlacement where
  finding : Finding
  resolvedLine : Nat
  findingId : String

-- A batch that publishing records, without the counts and the list of ids, which no reader looks at.
structure StoredInlineBatch where
  batchId : String
  workItemId : WorkItemId
  specialist : FindingSource
  headSha : String
  reviewId : Nat
  reviewUrl : String
  placements : List (StoredPlacement Finding)
  reviewId_positive : 0 < reviewId

structure ParsedPlacement where
  finding : Finding
  resolvedLine : Nat
  findingId : Option String

-- Text of the values of a batch: the id of a work item is a UUID, and the placements are a JSON array of which
-- `parseStoredPlacement` accepts what `storedPlacement` wrote.
structure BatchText where
  workItem : WorkItemId → String
  workItem_injective : Function.Injective workItem
  placements : List (StoredPlacement Finding) → String
  parsePlacements : String → List (ParsedPlacement Finding)
  parse_placements : ∀ stored, parsePlacements (placements stored) =
    stored.map fun placement => ⟨placement.finding, placement.resolvedLine, some placement.findingId⟩

end Batches

variable {Finding : Type} (text : BatchText Finding)

def StoredInlineBatch.fields (batch : StoredInlineBatch Finding) : JsonFields :=
  JsonFields.put Table.empty "version" (some (.number 3))
    |>.put "batchId" (some (.string batch.batchId))
    |>.put "workItemId" (some (.string (text.workItem batch.workItemId)))
    |>.put "specialist" (some (.string batch.specialist.text))
    |>.put "headSha" (some (.string batch.headSha))
    |>.put "reviewId" (some (.number batch.reviewId))
    |>.put "reviewUrl" (some (.string batch.reviewUrl))
    |>.put "event" (some (.string "COMMENT"))
    |>.put "placements" (some (.other (text.placements batch.placements)))

structure StoredInlineBatchRef (Finding : Type) where
  workItemId : String
  reviewId : Option Nat
  source : Option FindingSource
  placements : List (ParsedPlacement Finding)

-- `Number(batch.reviewId)`: no batch is stored with another text or value than a number.
def storedReviewId : Option JsonValue → Option Nat
  | some (.number id) => if 0 < id then some id.toNat else none
  | _ => none

def storedPlacements : Option JsonValue → List (ParsedPlacement Finding)
  | some (.other placements) => text.parsePlacements placements
  | _ => []

def parseStoredInlineBatch (batch : PublishedBatch) : Option (StoredInlineBatchRef Finding) :=
  match batch.fields.get? "workItemId" with
  | some (.string workItemId) =>
    some ⟨workItemId, storedReviewId (batch.fields.get? "reviewId"), findingSource? (batch.fields.get? "specialist"),
      storedPlacements text (batch.fields.get? "placements")⟩
  | _ => none

def parseStoredInlineBatches (detail : StepDetail) : List (StoredInlineBatchRef Finding) :=
  (detail.batches.getD []).filterMap (parseStoredInlineBatch text)

structure ResumedPlacement (Finding : Type) where
  source : FindingSource
  finding : Finding
  inlineLine : Nat
  findingId : String
  reviewId : Nat

-- `derivedFindingId` of a work item's text and a finding, for a placement without an id.
variable (derivedFindingId : String → Finding → String)

def resumedPlacementsOf (batch : StoredInlineBatchRef Finding) : List (ResumedPlacement Finding) :=
  match batch.reviewId, batch.source with
  | some reviewId, some source =>
    batch.placements.map fun placement =>
      ⟨source, placement.finding, placement.resolvedLine,
        placement.findingId.getD (derivedFindingId batch.workItemId placement.finding), reviewId⟩
  | _, _ => []

structure ReviewPublishState where
  summaryPublished : Bool
  inlineReviewIds : List Nat
  threadCallCount : Nat

structure ReviewExecutorPublishContext (Finding : Type) where
  publishState : ReviewPublishState
  shouldLinkToSummary : Bool
  resumedPlacements : List (ResumedPlacement Finding)
  progressCommentGithubId : Option Nat

section Loading

variable (db : PublishDb) (workItemId : WorkItemId) (resourceKey : ResourceKey) (reviewLens : ReviewLens)

def inlineKey : SharedStepKey := ⟨resourceKey, .lens reviewLens, .inlineReview⟩

-- The completed row of a step that belongs to the work item: `current_publish`.
def ownRow (key : SharedStepKey) : Option SharedRecord :=
  (db.shared.get? key).filter fun row => row.workItemId = workItemId && row.status = .completed

def ownBatches : List (StoredInlineBatchRef Finding) :=
  (parseStoredInlineBatches text (((ownRow db workItemId (inlineKey resourceKey reviewLens)).map SharedRecord.detail).getD
    {})).filter fun batch => batch.workItemId = text.workItem workItemId

def parseReviewPublishStateRows : ReviewPublishState :=
  let inlineRow := ownRow db workItemId (inlineKey resourceKey reviewLens)
  let batches := parseStoredInlineBatches text ((inlineRow.map SharedRecord.detail).getD {})
  let own := ownBatches text db workItemId resourceKey reviewLens
  let legacy := if batches.isEmpty then ((inlineRow.bind SharedRecord.githubId).filter (0 < ·)).toList else []
  let inlineReviewIds := firsts id (own.filterMap StoredInlineBatchRef.reviewId ++ legacy)
  { summaryPublished := (ownRow db workItemId (summaryKey resourceKey reviewLens)).isSome
    inlineReviewIds
    threadCallCount :=
      if own.length ≠ 0 then own.length else if batches.isEmpty && !inlineReviewIds.isEmpty then 1 else 0 }

def parseResumedPlacements : List (ResumedPlacement Finding) :=
  firsts ResumedPlacement.findingId
    ((ownBatches text db workItemId resourceKey reviewLens).flatMap (resumedPlacementsOf derivedFindingId))

-- The newest completed comment of the resource and lens, whoever published it.
def latestProgressComment : Option Nat :=
  let completed := [SharedPublishStep.summaryComment, .progressComment].filterMap fun step =>
    ((db.shared.get? ⟨resourceKey, .lens reviewLens, step⟩).filter fun row => row.status = .completed).bind fun row =>
      row.githubId.map fun githubId => (row.updatedAt, githubId)
  match completed with
  | [] => none
  | [(_, githubId)] => some githubId
  | (first, firstId) :: (second, secondId) :: _ => some (if first < second then secondId else firstId)

def loadReviewExecutorPublishContext : ReviewExecutorPublishContext Finding where
  publishState := parseReviewPublishStateRows text db workItemId resourceKey reviewLens
  shouldLinkToSummary := (db.shared.get? (summaryKey resourceKey reviewLens)).any fun row =>
    row.status = .completed && row.workItemId ≠ workItemId
  resumedPlacements := parseResumedPlacements text derivedFindingId db workItemId resourceKey reviewLens
  progressCommentGithubId := latestProgressComment db resourceKey reviewLens

end Loading

section Fields

variable (batch : StoredInlineBatch Finding)

def StoredInlineBatch.published : PublishedBatch := ⟨batch.batchId, batch.fields text⟩

theorem findingSource_text (source : FindingSource) : findingSource? (some (.string source.text)) = some source := by
  cases source with
  | review => simp [findingSource?, findingSources, FindingSource.text, SpecialistId.text]
  | specialist id =>
      cases id with
      | correctness => simp [findingSource?, findingSources, FindingSource.text, SpecialistId.text]
      | security => simp [findingSource?, findingSources, FindingSource.text, SpecialistId.text]
      | quality => simp [findingSource?, findingSources, FindingSource.text, SpecialistId.text]
      | tests => simp [findingSource?, findingSources, FindingSource.text, SpecialistId.text]

def StoredInlineBatch.ref : StoredInlineBatchRef Finding :=
  ⟨text.workItem batch.workItemId, some batch.reviewId, some batch.specialist,
    batch.placements.map fun placement => ⟨placement.finding, placement.resolvedLine, some placement.findingId⟩⟩

-- A reader gets back what publishing stored.
theorem parse_published : parseStoredInlineBatch text (batch.published text) = some (batch.ref text) := by
  have workItem : (batch.fields text).get? "workItemId" = some (.string (text.workItem batch.workItemId)) := by
    simp [StoredInlineBatch.fields, get?_put]
  have review : (batch.fields text).get? "reviewId" = some (.number batch.reviewId) := by
    simp [StoredInlineBatch.fields, get?_put]
  have specialist : (batch.fields text).get? "specialist" = some (.string batch.specialist.text) := by
    simp [StoredInlineBatch.fields, get?_put]
  have placements : (batch.fields text).get? "placements" = some (.other (text.placements batch.placements)) := by
    simp [StoredInlineBatch.fields, get?_put]
  simp [parseStoredInlineBatch, StoredInlineBatch.published, workItem, review, specialist, placements, storedReviewId,
    storedPlacements, text.parse_placements, findingSource_text, StoredInlineBatch.ref, batch.reviewId_positive]

theorem publishStepDetail_batch :
    publishStepDetail .inlineReview (batch.fields text) = { batches := some [batch.published text] } := by
  have batchId : (batch.fields text).get? "batchId" = some (.string batch.batchId) := by
    simp [StoredInlineBatch.fields, get?_put]
  simp [publishStepDetail, SharedPublishStep.merge, batchId, StoredInlineBatch.published]

theorem mergedBatches_one (stored : List PublishedBatch) (new : PublishedBatch) :
    mergedBatches stored [new] = appendFirst PublishedBatch.batchId stored new := rfl

end Fields

end PrAgent
