import PrAgent.InlineBatches
import Mathlib.Logic.Equiv.List
set_option autoImplicit false

namespace PrAgent

variable {Finding : Type} (text : BatchText Finding) (leaseKeyOf : WorkItemId → LeaseKey) (resourceKey : ResourceKey)
  (reviewLens : ReviewLens)

-- The rows, with the batches that were recorded for the resource and lens, in order.
structure InlineHistory (Finding : Type) extends PublishDb where
  recorded : List (StoredInlineBatch Finding)

inductive InlineEvent (Finding : Type)
  | record (batch : StoredInlineBatch Finding) (leaseEpoch : Option Nat) (before after : LeaseState)
  | other (event : RecordEvent)

def recordBatch (batch : StoredInlineBatch Finding) (leaseEpoch : Option Nat) : FencedStatement :=
  recordPublishStep batch.workItemId leaseEpoch (inlineKey resourceKey reviewLens) (some batch.reviewId)
    (batch.fields text)

def recordedBatches (history : List (StoredInlineBatch Finding)) (batch : StoredInlineBatch Finding) :
    Except PublishWriteError Bool → List (StoredInlineBatch Finding)
  | .ok true => history ++ [batch]
  | _ => history

def inlineStep (h : InlineHistory Finding) : InlineEvent Finding → Option (InlineHistory Finding)
  | .record batch leaseEpoch before after =>
    let result := (recordBatch text resourceKey reviewLens batch leaseEpoch).run before after h.toPublishDb
    some ⟨result.2, recordedBatches h.recorded batch result.1⟩
  | .other event => (recordEventStep leaseKeyOf h.toPublishDb event).map fun db => ⟨db, h.recorded⟩

-- The id of a batch is a digest of its work item, head and findings. Whatever else happens, only `record` writes the
-- inline step of the resource and lens.
def InlineAllowed (h : InlineHistory Finding) : InlineEvent Finding → Prop
  | .record batch _ _ _ => ∀ old ∈ h.recorded, old.batchId = batch.batchId → old.workItemId = batch.workItemId
  | .other (.write write _ _) => write.recordsStep (inlineKey resourceKey reviewLens) = false
  | .other _ => True

def storedBatches (db : PublishDb) : List PublishedBatch :=
  ((db.shared.get? (inlineKey resourceKey reviewLens)).bind fun row => row.detail.batches).getD []

-- The row keeps the first batch of each id, and belongs to the work item that recorded last.
structure StoredAs (h : InlineHistory Finding) (last : StoredInlineBatch Finding) (row : SharedRecord) : Prop where
  status : row.status = .completed
  owner : row.workItemId = last.workItemId
  batches : row.detail.batches = some ((firsts StoredInlineBatch.batchId h.recorded).map (StoredInlineBatch.published text))

def InlineStored (h : InlineHistory Finding) : Prop :=
  match h.recorded.getLast? with
  | none => h.shared.get? (inlineKey resourceKey reviewLens) = none
  | some last => ∃ row, h.shared.get? (inlineKey resourceKey reviewLens) = some row ∧ StoredAs text h last row

-- Two recorded batches of one id are the same work item's.
def IdsApart (h : InlineHistory Finding) : Prop :=
  ∀ batch ∈ h.recorded, ∀ other ∈ h.recorded, batch.batchId = other.batchId → batch.workItemId = other.workItemId

section Steps

variable {text leaseKeyOf resourceKey reviewLens} {h t : InlineHistory Finding}

theorem inline_row_kept {event : RecordEvent} {db : PublishDb} (ok : InlineAllowed resourceKey reviewLens h (.other event))
    (moved : recordEventStep leaseKeyOf h.toPublishDb event = some db) :
    db.shared.get? (inlineKey resourceKey reviewLens) = h.shared.get? (inlineKey resourceKey reviewLens) := by
  cases event with
  | write write before after =>
      obtain rfl := Option.some.inj moved
      exact write_keeps_step (fun claim => by cases claim) ok before after h.toPublishDb
  | transferProgress otherKey otherLens row =>
      obtain rfl := Option.some.inj moved
      exact Table.get?_set_of_ne _ _ _ fun same => by cases same
  | elsewhere state asks checkRuns intents =>
      obtain rfl := Option.some.inj moved
      rfl

theorem recorded_of_ok (history : List (StoredInlineBatch Finding)) (batch : StoredInlineBatch Finding)
    (result : Except PublishWriteError Bool) :
    result = .ok true ∧ recordedBatches history batch result = history ++ [batch] ∨
      result ≠ .ok true ∧ recordedBatches history batch result = history := by
  cases result with
  | error error => exact .inr ⟨nofun, rfl⟩
  | ok written =>
      cases written with
      | false => exact .inr ⟨nofun, rfl⟩
      | true => exact .inl ⟨rfl, rfl⟩

-- A statement that reports anything but a written row has written none.
theorem run_unchanged_of_not_ok (statement : FencedStatement) (before after : LeaseState) (db : PublishDb)
    (failed : (statement.run before after db).1 ≠ .ok true) : (statement.run before after db).2 = db := by
  rcases run_cases statement before after db with unchanged | ⟨written, _⟩
  · exact unchanged
  · by_cases lost : (statement.before && !before.fenced statement.workItemId statement.leaseEpoch) = true
    · rw [FencedStatement.run, if_pos lost]
    · rw [FencedStatement.run, if_neg lost, if_pos written] at failed
      exact absurd rfl failed

theorem inline_stored_step {event : InlineEvent Finding} (stored : InlineStored text resourceKey reviewLens h)
    (ok : InlineAllowed resourceKey reviewLens h event)
    (moved : inlineStep text leaseKeyOf resourceKey reviewLens h event = some t) :
    InlineStored text resourceKey reviewLens t := by
  cases event with
  | other event =>
      obtain ⟨db, stepped, rfl⟩ := Option.map_eq_some_iff.mp moved
      have kept := inline_row_kept ok stepped
      simp only [InlineStored] at stored ⊢
      cases last : h.recorded.getLast? with
      | none =>
          rw [last] at stored
          exact kept.trans stored
      | some batch =>
          rw [last] at stored
          obtain ⟨row, found, as⟩ := stored
          exact ⟨row, kept.trans found, as.status, as.owner, as.batches⟩
  | record batch leaseEpoch before after =>
      obtain rfl := Option.some.inj moved
      generalize result : (recordBatch text resourceKey reviewLens batch leaseEpoch).run before after h.toPublishDb =
        outcome
      obtain ⟨told, db⟩ := outcome
      rcases recorded_of_ok h.recorded batch told with ⟨rfl, recorded⟩ | ⟨failed, recorded⟩
      · have written := written_of_ok (recordBatch text resourceKey reviewLens batch leaseEpoch) before after
          h.toPublishDb (by rw [result])
        rw [result] at written
        subst written
        simp only [InlineStored, recorded, List.getLast?_concat]
        refine ⟨_, Table.get?_set_self _ _ _, ?_⟩
        simp only [InlineStored] at stored
        cases last : h.recorded.getLast? with
        | none =>
            rw [last] at stored
            obtain empty := List.getLast?_eq_none_iff.mp last
            simp only [stored]
            refine ⟨rfl, rfl, ?_⟩
            simp only [inlineKey, publishStepDetail_batch, empty]
            rfl
        | some previous =>
            rw [last] at stored
            obtain ⟨row, found, as⟩ := stored
            simp only [found]
            refine ⟨rfl, rfl, ?_⟩
            simp only [inlineKey, publishStepDetail_batch, mergedStepDetail, as.batches, Option.getD_some,
              mergedBatches_one, firsts_append]
            have keeps : ∀ batch : StoredInlineBatch Finding, (batch.published text).batchId = batch.batchId :=
              fun _ => rfl
            rw [map_appendFirst (StoredInlineBatch.published text) PublishedBatch.batchId keeps]
      · have unchanged : db = h.toPublishDb := by
          have kept := run_unchanged_of_not_ok (recordBatch text resourceKey reviewLens batch leaseEpoch) before after
            h.toPublishDb (by rw [result]; exact failed)
          rw [result] at kept
          exact kept
        subst unchanged
        simp only [recorded]
        exact stored

theorem ids_apart_step {event : InlineEvent Finding} (apart : IdsApart h) (ok : InlineAllowed resourceKey reviewLens h event)
    (moved : inlineStep text leaseKeyOf resourceKey reviewLens h event = some t) : IdsApart t := by
  cases event with
  | other event =>
      obtain ⟨db, _, rfl⟩ := Option.map_eq_some_iff.mp moved
      exact apart
  | record batch leaseEpoch before after =>
      obtain rfl := Option.some.inj moved
      generalize ((recordBatch text resourceKey reviewLens batch leaseEpoch).run before after h.toPublishDb).1 = told
      rcases recorded_of_ok h.recorded batch told with ⟨_, recorded⟩ | ⟨_, recorded⟩
      · simp only [IdsApart, recorded, List.mem_append, List.mem_singleton]
        rintro first (before | rfl) second (before' | rfl) same
        · exact apart first before second before' same
        · exact ok first before same
        · exact (ok second before' same.symm).symm
        · rfl
      · simp only [IdsApart, recorded]
        exact apart

end Steps

-- The context of a work item holds its recorded batches: the review, the findings and the count of each.
structure SeesRecorded (workItemId : WorkItemId) (history : List (StoredInlineBatch Finding))
    (context : ReviewExecutorPublishContext Finding) : Prop where
  reviews : ∀ batch ∈ firsts StoredInlineBatch.batchId history, batch.workItemId = workItemId →
    batch.reviewId ∈ context.publishState.inlineReviewIds
  findings : ∀ batch ∈ firsts StoredInlineBatch.batchId history, batch.workItemId = workItemId →
    ∀ placement ∈ batch.placements, ∃ resumed ∈ context.resumedPlacements, resumed.findingId = placement.findingId
  count : context.publishState.threadCallCount =
    ((firsts StoredInlineBatch.batchId history).filter fun batch => batch.workItemId = workItemId).length

section Loading

variable {text resourceKey reviewLens} (derivedFindingId : String → Finding → String) {workItemId : WorkItemId}

theorem parse_batches (batches : List (StoredInlineBatch Finding)) (detail : StepDetail)
    (stored : detail.batches = some (batches.map (StoredInlineBatch.published text))) :
    parseStoredInlineBatches text detail = batches.map (StoredInlineBatch.ref text) := by
  rw [parseStoredInlineBatches, stored, Option.getD_some, List.filterMap_map]
  induction batches generalizing detail with
  | nil => rfl
  | cons batch rest ih =>
      have parsed : (parseStoredInlineBatch text ∘ StoredInlineBatch.published text) batch = some (batch.ref text) :=
        parse_published text batch
      rw [List.filterMap_cons_some parsed, List.map_cons, ih { batches := some (rest.map _) } rfl]

variable (workItemId) in
theorem own_row_of_last {h : InlineHistory Finding} {last : StoredInlineBatch Finding} {row : SharedRecord}
    (found : h.shared.get? (inlineKey resourceKey reviewLens) = some row) (as : StoredAs text h last row) :
    ownRow h.toPublishDb workItemId (inlineKey resourceKey reviewLens) =
      if last.workItemId = workItemId then some row else none := by
  by_cases own : last.workItemId = workItemId
  · simp [ownRow, found, as.status, as.owner, own]
  · simp [ownRow, found, as.status, as.owner, own]

theorem own_batches_of_row {h : InlineHistory Finding} {last : StoredInlineBatch Finding} {row : SharedRecord}
    (own : ownRow h.toPublishDb workItemId (inlineKey resourceKey reviewLens) = some row) (as : StoredAs text h last row) :
    ownBatches text h.toPublishDb workItemId resourceKey reviewLens =
      ((firsts StoredInlineBatch.batchId h.recorded).filter fun batch => batch.workItemId = workItemId).map
        (StoredInlineBatch.ref text) := by
  rw [ownBatches, own, Option.map_some, Option.getD_some, parse_batches _ _ as.batches, List.filter_map]
  congr 2
  funext batch
  simp [StoredInlineBatch.ref, text.workItem_injective.eq_iff]

theorem own_batches_of_no_row {db : PublishDb} (none_ : ownRow db workItemId (inlineKey resourceKey reviewLens) = none) :
    ownBatches text db workItemId resourceKey reviewLens = [] := by
  rw [ownBatches, none_]
  rfl

theorem count_of_no_row {db : PublishDb} (none_ : ownRow db workItemId (inlineKey resourceKey reviewLens) = none) :
    (loadReviewExecutorPublishContext text derivedFindingId db workItemId resourceKey
      reviewLens).publishState.threadCallCount = 0 := by
  simp [loadReviewExecutorPublishContext, parseReviewPublishStateRows, own_batches_of_no_row none_, none_,
    parseStoredInlineBatches, firsts]

theorem mem_resumed {db : PublishDb} {batch : StoredInlineBatch Finding}
    (own : batch.ref text ∈ ownBatches text db workItemId resourceKey reviewLens) {placement : StoredPlacement Finding}
    (listed : placement ∈ batch.placements) :
    ∃ resumed ∈ parseResumedPlacements text derivedFindingId db workItemId resourceKey reviewLens,
      resumed.findingId = placement.findingId := by
  have here : ⟨batch.specialist, placement.finding, placement.resolvedLine, placement.findingId, batch.reviewId⟩ ∈
      (ownBatches text db workItemId resourceKey reviewLens).flatMap (resumedPlacementsOf derivedFindingId) := by
    rw [List.mem_flatMap]
    refine ⟨_, own, ?_⟩
    simp only [resumedPlacementsOf, StoredInlineBatch.ref, List.map_map, List.mem_map]
    exact ⟨placement, listed, rfl⟩
  exact exists_first here

theorem mem_inline_reviews {db : PublishDb} {batch : StoredInlineBatch Finding}
    (own : batch.ref text ∈ ownBatches text db workItemId resourceKey reviewLens) :
    batch.reviewId ∈ (parseReviewPublishStateRows text db workItemId resourceKey reviewLens).inlineReviewIds := by
  have here : batch.reviewId ∈ (ownBatches text db workItemId resourceKey reviewLens).filterMap
      StoredInlineBatchRef.reviewId := List.mem_filterMap.mpr ⟨_, own, rfl⟩
  have listed : ∀ ids : List Nat, batch.reviewId ∈ ids → batch.reviewId ∈ firsts id ids := by
    intro ids mem
    obtain ⟨first, kept, same⟩ : ∃ first ∈ firsts id ids, id first = id batch.reviewId := exists_first mem
    rw [id, id] at same
    rwa [← same]
  exact listed _ (List.mem_append_left _ here)

theorem sees_of_own_row {h : InlineHistory Finding} {last : StoredInlineBatch Finding} {row : SharedRecord}
    (own : ownRow h.toPublishDb workItemId (inlineKey resourceKey reviewLens) = some row) (as : StoredAs text h last row)
    {one : StoredInlineBatch Finding} (first : one ∈ firsts StoredInlineBatch.batchId h.recorded)
    (mine : one.workItemId = workItemId) :
    SeesRecorded workItemId h.recorded
      (loadReviewExecutorPublishContext text derivedFindingId h.toPublishDb workItemId resourceKey reviewLens) := by
  have batches := own_batches_of_row own as
  have listed : ∀ batch ∈ firsts StoredInlineBatch.batchId h.recorded, batch.workItemId = workItemId →
      batch.ref text ∈ ownBatches text h.toPublishDb workItemId resourceKey reviewLens := by
    intro batch kept mine
    rw [batches]
    exact List.mem_map.mpr ⟨batch, List.mem_filter.mpr ⟨kept, decide_eq_true mine⟩, rfl⟩
  refine ⟨fun batch kept mine => mem_inline_reviews (listed batch kept mine), ?_, ?_⟩
  · intro batch kept mine placement placed
    exact mem_resumed derivedFindingId (listed batch kept mine) placed
  · have some_ : (ownBatches text h.toPublishDb workItemId resourceKey reviewLens).length ≠ 0 :=
      (List.length_pos_of_mem (listed one first mine)).ne'
    simp only [loadReviewExecutorPublishContext, parseReviewPublishStateRows, if_pos some_]
    rw [batches, List.length_map]

end Loading

section Runs

variable {text leaseKeyOf resourceKey reviewLens} {start : PublishDb} {h : InlineHistory Finding}
  (derivedFindingId : String → Finding → String)

theorem inline_stored_run (fresh : start.shared.get? (inlineKey resourceKey reviewLens) = none)
    (run : Reaches (inlineStep text leaseKeyOf resourceKey reviewLens) (InlineAllowed resourceKey reviewLens)
      ⟨start, []⟩ h) :
    InlineStored text resourceKey reviewLens h ∧ IdsApart h := by
  have empty : InlineStored text resourceKey reviewLens ⟨start, []⟩ := fresh
  refine run.invariant (fun h => InlineStored text resourceKey reviewLens h ∧ IdsApart h) ⟨empty, ?_⟩ ?_
  · intro batch listed
    cases listed
  · intro s event t ih ok moved
    exact ⟨inline_stored_step ih.1 ok moved, ids_apart_step ih.2 ok moved⟩

theorem stored_batches_of (stored : InlineStored text resourceKey reviewLens h) :
    storedBatches resourceKey reviewLens h.toPublishDb =
      (firsts StoredInlineBatch.batchId h.recorded).map (StoredInlineBatch.published text) := by
  unfold InlineStored at stored
  cases last : h.recorded.getLast? with
  | none =>
      rw [last] at stored
      rw [storedBatches, stored, List.getLast?_eq_none_iff.mp last]
      rfl
  | some batch =>
      rw [last] at stored
      obtain ⟨row, found, as⟩ := stored
      rw [storedBatches, found, Option.bind_some, as.batches, Option.getD_some]

variable {workItemId : WorkItemId}

theorem first_of_recorded {batch : StoredInlineBatch Finding} (apart : IdsApart h)
    (recorded : batch ∈ h.recorded) (mine : batch.workItemId = workItemId) :
    ∃ first ∈ firsts StoredInlineBatch.batchId h.recorded, first.workItemId = workItemId := by
  obtain ⟨first, kept, same⟩ : ∃ first ∈ firsts StoredInlineBatch.batchId h.recorded, first.batchId = batch.batchId :=
    exists_first recorded
  exact ⟨first, kept, (apart first (mem_of_mem_firsts kept) batch recorded same).trans mine⟩

theorem unseen_of_no_row (apart : IdsApart h) (none_ : ownRow h.toPublishDb workItemId (inlineKey resourceKey reviewLens) = none) :
    SeesRecorded workItemId h.recorded
        (loadReviewExecutorPublishContext text derivedFindingId h.toPublishDb workItemId resourceKey reviewLens) ↔
      ∀ batch ∈ h.recorded, batch.workItemId ≠ workItemId := by
  have zero : (loadReviewExecutorPublishContext text derivedFindingId h.toPublishDb workItemId resourceKey
      reviewLens).publishState.threadCallCount = 0 := count_of_no_row derivedFindingId none_
  constructor
  · intro sees batch recorded mine
    obtain ⟨first, kept, own⟩ := first_of_recorded apart recorded mine
    have counted := sees.count
    rw [zero] at counted
    have some_ : first ∈ (firsts StoredInlineBatch.batchId h.recorded).filter fun batch =>
        batch.workItemId = workItemId := List.mem_filter.mpr ⟨kept, decide_eq_true own⟩
    rw [List.eq_nil_of_length_eq_zero counted.symm] at some_
    cases some_
  · intro others
    have apartFirsts : ∀ batch ∈ firsts StoredInlineBatch.batchId h.recorded, batch.workItemId ≠ workItemId :=
      fun batch kept => others batch (mem_of_mem_firsts kept)
    refine ⟨fun batch kept mine => absurd mine (apartFirsts batch kept),
      fun batch kept mine => absurd mine (apartFirsts batch kept), ?_⟩
    rw [zero, List.filter_eq_nil_iff.mpr, List.length_nil]
    intro batch kept
    simpa using apartFirsts batch kept

theorem sees_iff (stored : InlineStored text resourceKey reviewLens h) (apart : IdsApart h) :
    SeesRecorded workItemId h.recorded
        (loadReviewExecutorPublishContext text derivedFindingId h.toPublishDb workItemId resourceKey reviewLens) ↔
      (∃ last, h.recorded.getLast? = some last ∧ last.workItemId = workItemId) ∨
        ∀ batch ∈ h.recorded, batch.workItemId ≠ workItemId := by
  unfold InlineStored at stored
  cases recorded : h.recorded.getLast? with
  | none =>
      rw [recorded] at stored
      have none_ : ownRow h.toPublishDb workItemId (inlineKey resourceKey reviewLens) = none := by
        rw [ownRow, stored, Option.filter_none]
      rw [unseen_of_no_row derivedFindingId apart none_]
      simp
  | some last =>
      rw [recorded] at stored
      obtain ⟨row, found, as⟩ := stored
      have own := own_row_of_last workItemId found as
      by_cases mine : last.workItemId = workItemId
      · rw [if_pos mine] at own
        obtain ⟨first, kept, owner⟩ := first_of_recorded apart (List.mem_of_getLast? recorded) mine
        constructor
        · intro _
          exact .inl ⟨last, rfl, mine⟩
        · intro _
          exact sees_of_own_row derivedFindingId own as kept owner
      · rw [if_neg mine] at own
        rw [unseen_of_no_row derivedFindingId apart own]
        constructor
        · exact .inr
        · rintro (⟨other, same, owner⟩ | others)
          · obtain rfl := Option.some.inj same
            exact absurd owner mine
          · exact others

end Runs

theorem inline_batches_loaded (derivedFindingId : String → Finding → String) (start : PublishDb)
    (fresh : start.shared.get? (inlineKey resourceKey reviewLens) = none) (h : InlineHistory Finding)
    (run : Reaches (inlineStep text leaseKeyOf resourceKey reviewLens) (InlineAllowed resourceKey reviewLens)
      ⟨start, []⟩ h) :
    ((storedBatches resourceKey reviewLens h.toPublishDb).map PublishedBatch.batchId).Nodup ∧
    (∀ batch ∈ h.recorded, ∃ stored ∈ storedBatches resourceKey reviewLens h.toPublishDb,
      stored.batchId = batch.batchId) ∧
    ∀ workItemId, SeesRecorded workItemId h.recorded
        (loadReviewExecutorPublishContext text derivedFindingId h.toPublishDb workItemId resourceKey reviewLens) ↔
      (∃ last, h.recorded.getLast? = some last ∧ last.workItemId = workItemId) ∨
        ∀ batch ∈ h.recorded, batch.workItemId ≠ workItemId := by
  obtain ⟨stored, apart⟩ := inline_stored_run fresh run
  rw [stored_batches_of stored]
  refine ⟨?_, ?_, fun workItemId => sees_iff derivedFindingId stored apart⟩
  · rw [List.map_map]
    exact nodup_firsts h.recorded
  · intro batch recorded
    obtain ⟨first, kept, same⟩ : ∃ first ∈ firsts StoredInlineBatch.batchId h.recorded, first.batchId = batch.batchId :=
      exists_first recorded
    exact ⟨first.published text, List.mem_map.mpr ⟨first, kept, rfl⟩, same⟩

section Histories

-- A text of placements whose findings are numbers.
def unaryText (n : Nat) : String := String.ofList (List.replicate n '1')

theorem unary_text_length (n : Nat) : (unaryText n).length = n := by simp [unaryText]

def numberedPlacement (placement : StoredPlacement Nat) : Nat × Nat × List Nat :=
  (placement.finding, placement.resolvedLine, placement.findingId.toList.map Char.toNat)

def placementOfNumbers (numbers : Nat × Nat × List Nat) : ParsedPlacement Nat :=
  ⟨numbers.1, numbers.2.1, some (String.ofList (numbers.2.2.map Char.ofNat))⟩

def numberedPlacements (code : Nat) : Option (List (Nat × Nat × List Nat)) := Encodable.decode code

def numberedBatchText : BatchText Nat where
  workItem := unaryText
  workItem_injective first second same := by
    have lengths := congrArg String.length same
    rwa [unary_text_length, unary_text_length] at lengths
  placements stored := unaryText (Encodable.encode (stored.map numberedPlacement))
  parsePlacements text := ((numberedPlacements text.length).getD []).map placementOfNumbers
  parse_placements stored := by
    rw [unary_text_length, numberedPlacements, Encodable.encodek, Option.getD_some, List.map_map]
    congr 1
    funext placement
    simp [placementOfNumbers, numberedPlacement, Function.comp_def]

-- One work item records a batch and ends; the next one takes the lease over and records its own.
def takenLease : LeaseState :=
  LeaseMove.apply reviewedSurface (LeaseMove.apply reviewedSurface heldLease (.release ⟨0, .review⟩ 1)) (.acquire 2 1 30)

def batchOf (workItemId : WorkItemId) : StoredInlineBatch Nat where
  batchId := if workItemId = 1 then "first" else "second"
  workItemId
  specialist := .review
  headSha := "head"
  reviewId := workItemId + 1
  reviewUrl := "url"
  placements := [⟨5, 10, "finding"⟩]
  reviewId_positive := Nat.succ_pos workItemId

def takeOver : InlineEvent Nat := .other (.elsewhere ⟨takenLease, Table.empty⟩ Table.empty Table.empty Table.empty)

def recordFirst : InlineEvent Nat := .record (batchOf 1) (some 1) heldLease heldLease

def recordSecond : InlineEvent Nat := .record (batchOf 2) (some 2) takenLease takenLease

def inlineHistory (events : List (InlineEvent Nat)) : InlineHistory Nat :=
  runTo (inlineStep numberedBatchText reviewLeaseKey 0 .review) (fun _ _ => true) events ⟨publishingDb, []⟩
    ⟨publishingDb, []⟩

theorem first_step : inlineStep numberedBatchText reviewLeaseKey 0 .review ⟨publishingDb, []⟩ recordFirst =
    some (inlineHistory [recordFirst]) := rfl

theorem take_over_step : inlineStep numberedBatchText reviewLeaseKey 0 .review (inlineHistory [recordFirst]) takeOver =
    some (inlineHistory [recordFirst, takeOver]) := rfl

theorem second_step :
    inlineStep numberedBatchText reviewLeaseKey 0 .review (inlineHistory [recordFirst, takeOver]) recordSecond =
      some (inlineHistory [recordFirst, takeOver, recordSecond]) := rfl

theorem both_record : Reaches (inlineStep numberedBatchText reviewLeaseKey 0 .review) (InlineAllowed 0 .review)
    ⟨publishingDb, []⟩ (inlineHistory [recordFirst, takeOver, recordSecond]) := by
  have first : InlineAllowed 0 .review ⟨publishingDb, []⟩ recordFirst := fun old recorded => by cases recorded
  have taken : InlineAllowed 0 .review (inlineHistory [recordFirst]) takeOver := trivial
  have second : InlineAllowed 0 .review (inlineHistory [recordFirst, takeOver]) recordSecond := by
    intro old recorded same
    obtain rfl := List.mem_singleton.mp recorded
    exact absurd same (by decide +kernel)
  exact .next (.next (.next .start first first_step) taken take_over_step) second second_step

theorem last_recorder_sees_batches :
    SeesRecorded 2 [batchOf 1, batchOf 2] (loadReviewExecutorPublishContext numberedBatchText (fun _ _ => "")
      (inlineHistory [recordFirst, takeOver, recordSecond]).toPublishDb 2 0 .review) :=
  ((inline_batches_loaded numberedBatchText reviewLeaseKey 0 .review (fun _ _ => "") publishingDb rfl _
    both_record).2.2 2).mpr (.inl ⟨batchOf 2, rfl, rfl⟩)

-- The retry of the first work item loads none of the batches that are still stored.
theorem earlier_recorder_sees_no_batch :
    Reaches (inlineStep numberedBatchText reviewLeaseKey 0 .review) (InlineAllowed 0 .review) ⟨publishingDb, []⟩
        (inlineHistory [recordFirst, takeOver, recordSecond]) ∧
      (inlineHistory [recordFirst, takeOver, recordSecond]).recorded = [batchOf 1, batchOf 2] ∧
      (let context := loadReviewExecutorPublishContext numberedBatchText (fun _ _ => "")
        (inlineHistory [recordFirst, takeOver, recordSecond]).toPublishDb 1 0 .review
      context.publishState.inlineReviewIds = [] ∧ context.publishState.threadCallCount = 0 ∧
        context.resumedPlacements = []) := by
  have none_ : ownRow (inlineHistory [recordFirst, takeOver, recordSecond]).toPublishDb 1 (inlineKey 0 .review) = none :=
    rfl
  have own : ownBatches numberedBatchText (inlineHistory [recordFirst, takeOver, recordSecond]).toPublishDb 1 0 .review =
      [] := own_batches_of_no_row none_
  refine ⟨both_record, rfl, ?_, count_of_no_row _ none_, ?_⟩
  · simp [loadReviewExecutorPublishContext, parseReviewPublishStateRows, own, none_, firsts]
  · simp [loadReviewExecutorPublishContext, parseResumedPlacements, own, firsts]

end Histories
end PrAgent
