import PrAgent.FindingView
set_option autoImplicit false

namespace PrAgent

section Caps

theorem looserRank_eq_max (left right : Nat) : looserRank left right = max left right := by
  unfold looserRank
  split <;> omega

theorem FindingSeverity.rank_le (severity : FindingSeverity) : severity.rank ≤ 3 := by
  cases severity <;> decide

theorem rank_getD {rank : Nat} (small : rank ≤ 3) (severity : FindingSeverity) :
    (reviewSeverities[rank]?.getD severity).rank = rank := by
  match rank, small with
  | 0, _ => rfl
  | 1, _ => rfl
  | 2, _ => rfl
  | 3, _ => rfl

-- A cap raises the rank to a floor that the severity does not change.
theorem cappedFindingSeverity_rank (cap : RunCap) (path : String) :
    ∃ floor, ∀ severity, (cappedFindingSeverity cap path severity).rank = max severity.rank floor := by
  have two : FindingSeverity.p2.rank = 2 := rfl
  have one : FindingSeverity.p1.rank = 1 := rfl
  unfold cappedFindingSeverity
  simp only [looserRank_eq_max, two, one]
  cases cap.coverageGapCeiling with
  | none =>
    refine ⟨max (max (if cap.testsLens then 2 else 0) (if isTestPath path then 2 else 0)) (if !cap.judged then 1 else 0),
      fun severity => ?_⟩
    have small := severity.rank_le
    rw [rank_getD]
    · simp only
      split <;> split <;> split <;> omega
    · simp only
      split <;> split <;> split <;> omega
  | some ceiling =>
    refine ⟨max ceiling.severity.rank (if !cap.judged then 1 else 0), fun severity => ?_⟩
    have small := severity.rank_le
    have low : ceiling.severity.rank ≤ 1 := by cases ceiling <;> decide
    rw [rank_getD]
    · simp only
      split <;> omega
    · simp only
      split <;> omega

theorem severityWithinRunCap_rank (cap : RunCap) :
    ∃ floor, ∀ severity, (severityWithinRunCap cap severity).rank = max severity.rank floor := by
  obtain ⟨floor, anchor⟩ := cappedFindingSeverity_rank cap cap.anchorPath
  unfold severityWithinRunCap
  cases cap.heldPath with
  | none => exact ⟨floor, anchor⟩
  | some heldPath =>
    by_cases same : heldPath = cap.anchorPath
    · exact ⟨floor, fun severity => by simpa only [if_pos same] using anchor severity⟩
    · obtain ⟨floor', held⟩ := cappedFindingSeverity_rank cap heldPath
      refine ⟨max floor floor', fun severity => ?_⟩
      simp only [if_neg same]
      rw [held, anchor, Nat.max_assoc]

theorem severityRank_higher (left right : HeldSeverity) :
    severityRank (higherSeverity left right) = min (severityRank left) (severityRank right) := by
  unfold higherSeverity
  split <;> omega

-- Within a cap a severity blocks when its rank and the floor of the cap reach the threshold.
theorem withinCap_blocking (cap : Option RunCap) (threshold : FindingSeverity) :
    ∃ floor, ∀ severity,
      (withinCap cap severity).blocking threshold = true ↔ max (severityRank severity) floor ≤ threshold.rank := by
  have small := threshold.rank_le
  have unknown (floor : Nat) : ¬max (severityRank .unknown) floor ≤ threshold.rank := by
    simp only [severityRank]
    omega
  cases cap with
  | none =>
    refine ⟨0, fun severity => ?_⟩
    cases severity with
    | unknown => exact ⟨nofun, fun within => absurd within (unknown 0)⟩
    | known severity => simp [withinCap, HeldSeverity.blocking, isCheckFailingSeverity, severityRank]
  | some cap =>
    obtain ⟨floor, capped⟩ := severityWithinRunCap_rank cap
    refine ⟨floor, fun severity => ?_⟩
    cases severity with
    | unknown => exact ⟨nofun, fun within => absurd within (unknown floor)⟩
    | known severity => simp [withinCap, HeldSeverity.blocking, isCheckFailingSeverity, severityRank, capped]

theorem withinCap_higher (cap : Option RunCap) (threshold : FindingSeverity) (left right : HeldSeverity) :
    (withinCap cap (higherSeverity left right)).blocking threshold =
      ((withinCap cap left).blocking threshold || (withinCap cap right).blocking threshold) := by
  obtain ⟨floor, blocks⟩ := withinCap_blocking cap threshold
  rw [Bool.eq_iff_iff, Bool.or_eq_true, blocks, blocks, blocks, severityRank_higher]
  omega

theorem withinCap_unknown (cap : Option RunCap) (threshold : FindingSeverity) :
    (withinCap cap .unknown).blocking threshold = false := by
  cases cap <;> rfl

end Caps

section Copies

variable {inventory : FindingInventory} {cleaned : List CleanedDuplicate}

theorem mem_findings {findings : Table String InventoryFinding} {finding : InventoryFinding} :
    finding ∈ findings.values ↔ ∃ id, findings.get? id = some finding := by
  simp only [Table.values, List.mem_map, Prod.exists, exists_eq_right, Table.get?_eq_some_iff]

theorem stored_of_value {finding : InventoryFinding} (listed : finding ∈ inventory.findings.values) :
    inventory.findings.get? finding.id = some finding := by
  obtain ⟨id, stored⟩ := mem_findings.mp listed
  rw [inventory.keyed id finding stored]
  exact stored

-- A copy counts under a canonical id.
def CountsFor (inventory : FindingInventory) (cleaned : List CleanedDuplicate) (id : String) (finding : InventoryFinding) :
    Prop :=
  isOpenCopy cleaned finding = true ∧ canonicalAfterCleanup inventory cleaned finding.id = some id

theorem addCopySeverity_get? (severities : Table String HeldSeverity) (finding : InventoryFinding) (id : String) :
    (CountsFor inventory cleaned id finding →
      (addCopySeverity inventory cleaned severities finding).get? id =
        some (higherSeverity ((severities.get? id).getD .unknown) finding.severity)) ∧
    (¬CountsFor inventory cleaned id finding →
      (addCopySeverity inventory cleaned severities finding).get? id = severities.get? id) := by
  unfold addCopySeverity CountsFor
  by_cases copy : isOpenCopy cleaned finding = true
  · cases canonical : canonicalAfterCleanup inventory cleaned finding.id with
    | none => simp [copy]
    | some canonicalId =>
      simp only [copy, Bool.not_true, Bool.false_eq_true, if_false, true_and]
      constructor
      · intro same
        obtain rfl := Option.some.inj same
        exact Table.get?_set_self ..
      · intro other
        exact Table.get?_set_of_ne _ _ _ fun same => other (by rw [same])
  · simp [copy]

-- What the copies of a finding add to its row, for a test that a maximum passes when one of its parts does.
theorem copySeverity_iff (test : HeldSeverity → Bool) (unknown : test .unknown = false)
    (higher : ∀ left right, test (higherSeverity left right) = (test left || test right)) (id : String) :
    (∃ severity, (openCopySeverities inventory cleaned).get? id = some severity ∧ test severity = true) ↔
      ∃ finding ∈ inventory.findings.values, CountsFor inventory cleaned id finding ∧ test finding.severity = true := by
  unfold openCopySeverities
  induction inventory.findings.values using List.reverseRecOn with
  | nil => simp
  | append_singleton findings finding ih =>
    rw [List.foldl_append, List.foldl_cons, List.foldl_nil]
    obtain ⟨counts, other⟩ := @addCopySeverity_get? inventory cleaned
      (findings.foldl (addCopySeverity inventory cleaned) .empty) finding id
    by_cases counted : CountsFor inventory cleaned id finding
    · rw [counts counted]
      have before : test (((findings.foldl (addCopySeverity inventory cleaned) .empty).get? id).getD .unknown) = true ↔
          ∃ finding ∈ findings, CountsFor inventory cleaned id finding ∧ test finding.severity = true := by
        rw [← ih]
        cases (findings.foldl (addCopySeverity inventory cleaned) .empty).get? id with
        | none => simp [unknown]
        | some severity => simp
      simp only [Option.some.injEq, exists_eq_left', higher, Bool.or_eq_true, before]
      constructor
      · rintro (⟨earlier, listed, holds⟩ | holds)
        · exact ⟨earlier, List.mem_append_left _ listed, holds⟩
        · exact ⟨finding, by simp, counted, holds⟩
      · rintro ⟨found, listed, countedFound, holds⟩
        rcases List.mem_append.mp listed with earlier | last
        · exact .inl ⟨found, earlier, countedFound, holds⟩
        · obtain rfl := List.mem_singleton.mp last
          exact .inr holds
    · rw [other counted, ih]
      constructor
      · rintro ⟨earlier, listed, holds⟩
        exact ⟨earlier, List.mem_append_left _ listed, holds⟩
      · rintro ⟨found, listed, countedFound, holds⟩
        rcases List.mem_append.mp listed with earlier | last
        · exact ⟨found, earlier, countedFound, holds⟩
        · obtain rfl := List.mem_singleton.mp last
          exact absurd countedFound counted

theorem canonicalAfterCleanup_iff (start id : String) :
    canonicalAfterCleanup inventory cleaned start = some id ↔
      Leads (nextCanonical inventory cleaned) start id ∧ nextCanonical inventory cleaned id = none := by
  refine follow_eq_some_iff (fun id points => ?_) start id
  rw [canonicalKeys, List.mem_append]
  cases cleanedId : cleanedTo cleaned id with
  | some canonicalId =>
    left
    obtain ⟨duplicate, found, _⟩ := Option.map_eq_some_iff.mp cleanedId
    have listed := List.mem_of_find?_eq_some found
    have named : duplicate.id = id := by simpa using List.find?_some found
    exact List.mem_map.mpr ⟨duplicate, List.mem_reverse.mp listed, named⟩
  | none =>
    right
    rw [nextCanonical, cleanedId, Option.none_or] at points
    cases stored : inventory.findings.get? id with
    | none =>
      rw [stored] at points
      exact absurd rfl points
    | some finding => exact List.mem_map.mpr ⟨(id, finding), (Table.get?_eq_some_iff _ _ _).mp stored, rfl⟩

end Copies

section Rows

variable (threshold : FindingSeverity) (inventory : FindingInventory) (outcomes : FindingRunOutcomes)

-- The rows that this run's ledger asks for, before those of one id are merged.
def candidateRows : List FindingViewRow :=
  if outcomes.isReviewed then
    outcomes.ledger.accepted.map (acceptedRow threshold) ++
      outcomes.ledger.reaffirmed.filterMap (reaffirmedRow threshold inventory)
  else []

def candidateRow (id : String) : Option FindingViewRow :=
  (candidateRows threshold inventory outcomes).find? fun row => row.id = id

-- An open finding that stands for itself keeps a row that no run has looked at.
def keepsRow (finding : InventoryFinding) : Bool :=
  finding.state = .open && finding.aliasOf.isNone && (finding.source = .thread || !outcomes.isReviewed)

-- The row of a finding id, before the severities of copies and the caps.
def standingRow (id : String) : Option FindingViewRow :=
  if isCleaned (cleanedBy inventory outcomes) id then none
  else
    (candidateRow threshold inventory outcomes id).or
      (((inventory.findings.get? id).filter (keepsRow outcomes)).map (carriedRow threshold))

variable {threshold inventory outcomes}

theorem runRows_eq_firsts (ledger : ReviewedLedger) :
    runRows threshold inventory ledger = firsts FindingViewRow.id (ledger.accepted.map (acceptedRow threshold) ++
      ledger.reaffirmed.filterMap (reaffirmedRow threshold inventory)) := by
  rw [firsts, List.foldl_append]
  rfl

variable {row : FindingViewRow}

theorem mem_observedRows :
    row ∈ observedRows threshold inventory outcomes ↔
      candidateRow threshold inventory outcomes row.id = some row ∧
        isCleaned (cleanedBy inventory outcomes) row.id = false := by
  unfold observedRows candidateRow candidateRows
  cases outcomes.isReviewed with
  | false => simp
  | true => simp [runRows_eq_firsts, mem_firsts_iff]

variable {id : String}

theorem candidateRow_id (found : candidateRow threshold inventory outcomes id = some row) :
    row.id = id := by
  rw [candidateRow] at found
  simpa using List.find?_some found

theorem mem_carriedRows {localeCompare : LocaleCompare} :
    row ∈ carriedRows threshold localeCompare inventory outcomes ↔
      ∃ finding, inventory.findings.get? finding.id = some finding ∧ isCarried threshold inventory outcomes finding = true ∧
        carriedRow threshold finding = row := by
  simp only [carriedRows, List.mem_map, List.mem_mergeSort, List.mem_filter]
  constructor
  · rintro ⟨finding, ⟨listed, carried⟩, rfl⟩
    exact ⟨finding, stored_of_value listed, carried, rfl⟩
  · rintro ⟨finding, stored, carried, rfl⟩
    exact ⟨finding, ⟨mem_findings.mpr ⟨_, stored⟩, carried⟩, rfl⟩

theorem isCarried_iff (finding : InventoryFinding) :
    isCarried threshold inventory outcomes finding = true ↔
      keepsRow outcomes finding = true ∧ candidateRow threshold inventory outcomes finding.id = none ∧
        isCleaned (cleanedBy inventory outcomes) finding.id = false := by
  have unobserved (clean : isCleaned (cleanedBy inventory outcomes) finding.id = false) :
      ((observedRows threshold inventory outcomes).any fun row => row.id = finding.id) = false ↔
        candidateRow threshold inventory outcomes finding.id = none := by
    rw [List.any_eq_false]
    constructor
    · intro absent
      cases found : candidateRow threshold inventory outcomes finding.id with
      | none => rfl
      | some row =>
        have named := candidateRow_id found
        refine absurd (decide_eq_true named) (absent row (mem_observedRows.mpr ?_))
        rw [named]
        exact ⟨found, clean⟩
    · intro absent row listed named
      have here := (mem_observedRows.mp listed).1
      rw [of_decide_eq_true named, absent] at here
      cases here
  unfold isCarried keepsRow
  cases clean : isCleaned (cleanedBy inventory outcomes) finding.id with
  | true => simp
  | false =>
    have same := unobserved clean
    cases observed : (observedRows threshold inventory outcomes).any fun row => row.id = finding.id with
    | true =>
      rw [observed] at same
      have present : candidateRow threshold inventory outcomes finding.id ≠ none := fun none => by
        have := same.mpr none
        cases this
      simp [present]
    | false =>
      rw [observed] at same
      simp [same.mp rfl, and_assoc]

-- The rows before copies and caps are the standing ones, one for each id.
theorem mem_baseRows {localeCompare : LocaleCompare} :
    row ∈ observedRows threshold inventory outcomes ++ carriedRows threshold localeCompare inventory outcomes ↔
      standingRow threshold inventory outcomes row.id = some row := by
  rw [List.mem_append, mem_observedRows, mem_carriedRows]
  unfold standingRow
  cases clean : isCleaned (cleanedBy inventory outcomes) row.id with
  | true =>
    simp only [Bool.true_eq_false, and_false, false_or, if_true, reduceCtorEq, iff_false]
    rintro ⟨finding, _, carried, rfl⟩
    have uncleaned := ((isCarried_iff finding).mp carried).2.2
    rw [show (carriedRow threshold finding).id = finding.id from rfl, uncleaned] at clean
    cases clean
  | false =>
    simp only [and_true, Bool.false_eq_true, if_false]
    cases found : candidateRow threshold inventory outcomes row.id with
    | some observed =>
      rw [Option.some_or]
      constructor
      · rintro (same | ⟨finding, _, carried, rfl⟩)
        · exact same
        · have absent := ((isCarried_iff finding).mp carried).2.1
          rw [show (carriedRow threshold finding).id = finding.id from rfl, absent] at found
          cases found
      · exact .inl
    | none =>
      simp only [reduceCtorEq, false_or, Option.none_or, Option.map_eq_some_iff, Option.filter_eq_some_iff]
      constructor
      · rintro ⟨finding, stored, carried, rfl⟩
        exact ⟨finding, ⟨stored, ((isCarried_iff finding).mp carried).1⟩, rfl⟩
      · rintro ⟨finding, ⟨stored, keeps⟩, same⟩
        have named : finding.id = row.id := inventory.keyed _ _ stored
        rw [← named] at stored clean found
        exact ⟨finding, stored, (isCarried_iff finding).mpr ⟨keeps, found, clean⟩, same⟩

theorem standingRow_id (standing : standingRow threshold inventory outcomes id = some row) :
    row.id = id := by
  unfold standingRow at standing
  split at standing
  · cases standing
  · rcases Option.or_eq_some_iff.mp standing with observed | ⟨_, carried⟩
    · exact candidateRow_id observed
    · obtain ⟨finding, kept, rfl⟩ := Option.map_eq_some_iff.mp carried
      exact inventory.keyed _ _ (Option.filter_eq_some_iff.mp kept).1

theorem candidateRow_cases (found : candidateRow threshold inventory outcomes id = some row) :
    row.blocking = row.severity.blocking threshold ∧
      ((outcomes.ledger.accepted.any fun accepted => accepted.findingId = id) = true ∨
        ∃ held entry, inventory.findings.get? id = some held ∧ row.held = some held ∧
          row.severity = higherSeverity held.severity (.known entry)) := by
  have named := candidateRow_id found
  unfold candidateRow candidateRows at found
  split at found
  · have listed := List.mem_of_find?_eq_some found
    rcases List.mem_append.mp listed with posted | reaffirmed
    · obtain ⟨accepted, member, rfl⟩ := List.mem_map.mp posted
      exact ⟨rfl, .inl (List.any_eq_true.mpr ⟨accepted, member, decide_eq_true named⟩)⟩
    · obtain ⟨entry, _, built⟩ := List.mem_filterMap.mp reaffirmed
      unfold reaffirmedRow at built
      split at built
      · cases built
      · next held stored =>
        split at built
        · cases built
        · obtain rfl := Option.some.inj built
          rw [← named]
          exact ⟨rfl, .inr ⟨held, entry.severity, stored, rfl, rfl⟩⟩
  · cases found

-- The cap that this run puts on the row of an id.
def capOf (inventory : FindingInventory) (outcomes : FindingRunOutcomes) (id : String) : Option RunCap :=
  rowCap outcomes id (inventory.findings.get? id)

def blocksAs (threshold : FindingSeverity) (inventory : FindingInventory) (outcomes : FindingRunOutcomes) (id : String)
    (severity : HeldSeverity) : Bool :=
  (withinCap (capOf inventory outcomes id) severity).blocking threshold

theorem standingRow_cap (standing : standingRow threshold inventory outcomes id = some row) :
    rowCap outcomes row.id row.held = capOf inventory outcomes id ∧ row.blocking = row.severity.blocking threshold := by
  have named := standingRow_id standing
  unfold standingRow at standing
  split at standing
  · cases standing
  · rcases Option.or_eq_some_iff.mp standing with observed | ⟨_, carried⟩
    · obtain ⟨blocks, posted | ⟨held, _, stored, same, _⟩⟩ := candidateRow_cases observed
      · rw [capOf, rowCap, rowCap, named, if_pos posted, if_pos posted]
        exact ⟨rfl, blocks⟩
      · rw [capOf, stored, named, same]
        exact ⟨rfl, blocks⟩
    · obtain ⟨finding, kept, rfl⟩ := Option.map_eq_some_iff.mp carried
      rw [capOf, (Option.filter_eq_some_iff.mp kept).1, named]
      exact ⟨rfl, rfl⟩

-- A row blocks when its own severity does or that of a copy counted under it, within the cap of the row.
def RowBlocks (threshold : FindingSeverity) (inventory : FindingInventory) (outcomes : FindingRunOutcomes) (id : String) :
    Prop :=
  ∃ row, standingRow threshold inventory outcomes id = some row ∧
    (blocksAs threshold inventory outcomes id row.severity = true ∨
      ∃ copy ∈ inventory.findings.values, CountsFor inventory (cleanedBy inventory outcomes) id copy ∧
        blocksAs threshold inventory outcomes id copy.severity = true)

theorem merged_blocks (named : row.id = id) :
    blocksAs threshold inventory outcomes id
        (mergedSeverity (openCopySeverities inventory (cleanedBy inventory outcomes)) row) = true ↔
      blocksAs threshold inventory outcomes id row.severity = true ∨
        ∃ copy ∈ inventory.findings.values, CountsFor inventory (cleanedBy inventory outcomes) id copy ∧
          blocksAs threshold inventory outcomes id copy.severity = true := by
  have higher (left right : HeldSeverity) : blocksAs threshold inventory outcomes id (higherSeverity left right) =
      (blocksAs threshold inventory outcomes id left || blocksAs threshold inventory outcomes id right) :=
    withinCap_higher _ threshold left right
  rw [← copySeverity_iff (blocksAs threshold inventory outcomes id) (withinCap_unknown _ threshold) higher, mergedSeverity,
    named]
  cases (openCopySeverities inventory (cleanedBy inventory outcomes)).get? id with
  | none => simp
  | some severity => simp [higher]

theorem finalRow_blocking (severities : Table String HeldSeverity) (blocks : row.blocking = row.severity.blocking threshold) :
    (finalRow threshold outcomes severities row).blocking =
      (withinCap (rowCap outcomes row.id row.held) (mergedSeverity severities row)).blocking threshold := by
  unfold finalRow
  simp only
  split
  · next same => rw [same, blocks]
  · rfl

theorem finalRow_id (severities : Table String HeldSeverity) (row : FindingViewRow) :
    (finalRow threshold outcomes severities row).id = row.id := by
  unfold finalRow
  simp only
  split <;> rfl

-- The view has a blocking row of an id exactly when the standing row blocks.
theorem view_blocks_iff (localeCompare : LocaleCompare) (id : String) :
    (∃ row ∈ (buildFindingView threshold localeCompare inventory outcomes).rows, row.id = id ∧ row.blocking = true) ↔
      RowBlocks threshold inventory outcomes id := by
  constructor
  · rintro ⟨_, listed, named, blocking⟩
    obtain ⟨row, base, rfl⟩ := List.mem_map.mp listed
    rw [finalRow_id] at named
    have standing := mem_baseRows.mp base
    rw [named] at standing
    obtain ⟨cap, blocks⟩ := standingRow_cap standing
    rw [finalRow_blocking _ blocks, cap] at blocking
    exact ⟨row, standing, (merged_blocks named).mp blocking⟩
  · rintro ⟨row, standing, severities⟩
    have named := standingRow_id standing
    obtain ⟨cap, blocks⟩ := standingRow_cap standing
    refine ⟨finalRow threshold outcomes _ row, List.mem_map_of_mem (mem_baseRows.mpr ?_), ?_, ?_⟩
    · rw [named]
      exact standing
    · rw [finalRow_id]
      exact named
    · rw [finalRow_blocking _ blocks, cap]
      exact (merged_blocks named).mpr severities

end Rows

section Blockers

variable (threshold : FindingSeverity) (localeCompare : LocaleCompare) (inventory : FindingInventory)
  (outcomes : FindingRunOutcomes)

-- A finding whose thread is open after this run's cleanup.
def OpenAfterCleanup (finding : InventoryFinding) : Prop :=
  inventory.findings.get? finding.id = some finding ∧ finding.source = .thread ∧ finding.state = .open ∧
    isClosed (cleanedBy inventory outcomes) finding.id = false

-- The finding that stands for it: itself, or for a copy the end of its chain of canonical findings.
def StandsFor (finding : InventoryFinding) (id : String) : Prop :=
  if isOpenCopy (cleanedBy inventory outcomes) finding then
    Leads (nextCanonical inventory (cleanedBy inventory outcomes)) finding.id id ∧
      nextCanonical inventory (cleanedBy inventory outcomes) id = none
  else id = finding.id

-- Its severity is at or above the threshold, within the cap that this run puts on a reaffirmed finding.
def IsBlocker (finding : InventoryFinding) : Prop :=
  finding.severity.blocking threshold = true ∧
    ∀ id, StandsFor inventory outcomes finding id → blocksAs threshold inventory outcomes id finding.severity = true

-- It contributes to a blocking row, as itself or through its canonical finding, and the check fails.
def Shown (finding : InventoryFinding) : Prop :=
  (∃ row ∈ (buildFindingView threshold localeCompare inventory outcomes).rows, row.blocking = true ∧
    (row.id = finding.id ∨ canonicalAfterCleanup inventory (cleanedBy inventory outcomes) finding.id = some row.id)) ∧
  ∀ bounded, checkConclusion ((buildFindingView threshold localeCompare inventory outcomes).read bounded) = .failure

-- No open blocker is lost: no finding, and no thread of `leftCopies`, the further threads of a finding id that are open.
structure LosesNoBlocker (leftCopies : List InventoryFinding) : Prop where
  findings : ∀ finding, OpenAfterCleanup inventory outcomes finding → IsBlocker threshold inventory outcomes finding →
    Shown threshold localeCompare inventory outcomes finding
  copies : ∀ copy ∈ leftCopies, copy.severity.blocking threshold = true →
    blocksAs threshold inventory outcomes copy.id copy.severity = true →
      Shown threshold localeCompare inventory outcomes copy

-- A row blocks for it under its own id or under that of the end of its chain.
def RowBlocksFor (finding : InventoryFinding) : Prop :=
  RowBlocks threshold inventory outcomes finding.id ∨
    ∃ id, Leads (nextCanonical inventory (cleanedBy inventory outcomes)) finding.id id ∧
      nextCanonical inventory (cleanedBy inventory outcomes) id = none ∧ RowBlocks threshold inventory outcomes id

structure CanonicalsHaveRows (leftCopies : List InventoryFinding) : Prop where
  copies : ∀ finding, OpenAfterCleanup inventory outcomes finding → IsBlocker threshold inventory outcomes finding →
    isOpenCopy (cleanedBy inventory outcomes) finding = true →
      (∃ id, StandsFor inventory outcomes finding id ∧ (standingRow threshold inventory outcomes id).isSome = true) ∨
        RowBlocks threshold inventory outcomes finding.id
  accepted : ∀ finding, OpenAfterCleanup inventory outcomes finding → IsBlocker threshold inventory outcomes finding →
    isOpenCopy (cleanedBy inventory outcomes) finding = false →
      (outcomes.ledger.accepted.any fun accepted => accepted.findingId = finding.id) = true →
        RowBlocks threshold inventory outcomes finding.id
  sameId : ∀ copy ∈ leftCopies, copy.severity.blocking threshold = true →
    blocksAs threshold inventory outcomes copy.id copy.severity = true →
      RowBlocksFor threshold inventory outcomes copy

variable {threshold localeCompare inventory outcomes}

theorem shown_iff (finding : InventoryFinding) :
    Shown threshold localeCompare inventory outcomes finding ↔ RowBlocksFor threshold inventory outcomes finding := by
  constructor
  · rintro ⟨⟨row, listed, blocks, own | canonical⟩, _⟩
    · exact .inl ((view_blocks_iff localeCompare finding.id).mp ⟨row, listed, own, blocks⟩)
    · obtain ⟨leads, last⟩ := (canonicalAfterCleanup_iff _ _).mp canonical
      exact .inr ⟨row.id, leads, last, (view_blocks_iff localeCompare row.id).mp ⟨row, listed, rfl, blocks⟩⟩
  · intro blocks
    have shown : ∃ row ∈ (buildFindingView threshold localeCompare inventory outcomes).rows, row.blocking = true ∧
        (row.id = finding.id ∨
          canonicalAfterCleanup inventory (cleanedBy inventory outcomes) finding.id = some row.id) := by
      rcases blocks with own | ⟨id, leads, last, canonical⟩
      · obtain ⟨row, listed, named, blocking⟩ := (view_blocks_iff localeCompare finding.id).mpr own
        exact ⟨row, listed, blocking, .inl named⟩
      · obtain ⟨row, listed, named, blocking⟩ := (view_blocks_iff localeCompare id).mpr canonical
        refine ⟨row, listed, blocking, .inr ?_⟩
        rw [named]
        exact (canonicalAfterCleanup_iff _ _).mpr ⟨leads, last⟩
    refine ⟨shown, fun bounded => ?_⟩
    obtain ⟨row, listed, blocking, _⟩ := shown
    have counted : 0 < (buildFindingView threshold localeCompare inventory outcomes).blockingCount :=
      List.length_pos_of_mem (List.mem_filter.mpr ⟨listed, blocking⟩)
    exact if_pos counted

-- An open finding that stands for itself and that the run did not post has a blocking row.
theorem own_row_blocks {finding : InventoryFinding} (held : OpenAfterCleanup inventory outcomes finding)
    (blocker : IsBlocker threshold inventory outcomes finding)
    (self : isOpenCopy (cleanedBy inventory outcomes) finding = false)
    (unposted : ¬(outcomes.ledger.accepted.any fun accepted => accepted.findingId = finding.id) = true) :
    RowBlocks threshold inventory outcomes finding.id := by
  obtain ⟨stored, source, «open», uncleared⟩ := held
  have stands : StandsFor inventory outcomes finding finding.id := by
    rw [StandsFor, self]
    rfl
  have blocks := blocker.2 finding.id stands
  simp only [isOpenCopy, «open», uncleared, decide_true, Bool.not_false, Bool.true_and, Bool.or_eq_false_iff] at self
  unfold RowBlocks standingRow
  rw [self.2]
  simp only [Bool.false_eq_true, if_false]
  cases found : candidateRow threshold inventory outcomes finding.id with
  | some row =>
    obtain ⟨_, posted | ⟨held, entry, stored', _, severity⟩⟩ := candidateRow_cases found
    · exact absurd posted unposted
    · obtain rfl := Option.some.inj (stored.symm.trans stored')
      refine ⟨row, rfl, .inl ?_⟩
      rw [severity, blocksAs, withinCap_higher, Bool.or_eq_true]
      exact .inl blocks
  | none =>
    have keeps : keepsRow outcomes finding = true := by
      simp only [keepsRow, «open», source, decide_true, Bool.true_and, Bool.true_or, Bool.and_true]
      simpa using self.1
    refine ⟨carriedRow threshold finding, ?_, .inl blocks⟩
    rw [Option.none_or, stored, Option.filter_some, if_pos keeps]
    rfl

-- The view loses no open blocker exactly when each copy that blocks has a row to count under.
theorem view_loses_no_blocker_iff (threshold : FindingSeverity) (localeCompare : LocaleCompare)
    (inventory : FindingInventory) (outcomes : FindingRunOutcomes) (leftCopies : List InventoryFinding) :
    LosesNoBlocker threshold localeCompare inventory outcomes leftCopies ↔
      CanonicalsHaveRows threshold inventory outcomes leftCopies := by
  constructor
  · intro loses
    refine ⟨?_, ?_, ?_⟩
    · intro finding held blocker copy
      rcases (shown_iff finding).mp (loses.findings finding held blocker) with own | ⟨id, leads, last, row, standing, _⟩
      · exact .inr own
      · refine .inl ⟨id, ?_, by rw [standing]; rfl⟩
        rw [StandsFor, if_pos copy]
        exact ⟨leads, last⟩
    · intro finding held blocker self posted
      rcases (shown_iff finding).mp (loses.findings finding held blocker) with own | ⟨id, leads, last, blocks⟩
      · exact own
      · obtain ⟨stored, _, «open», uncleared⟩ := held
        simp only [isOpenCopy, «open», uncleared, decide_true, Bool.not_false, Bool.true_and, Bool.or_eq_false_iff] at self
        have stays : nextCanonical inventory (cleanedBy inventory outcomes) finding.id = none := by
          have uncleaned : cleanedTo (cleanedBy inventory outcomes) finding.id = none := by
            rw [cleanedTo, Option.map_eq_none_iff, List.find?_eq_none]
            intro duplicate listed named
            have absent := self.2
            rw [isCleaned, List.any_eq_false] at absent
            exact absent duplicate (List.mem_reverse.mp listed) named
          have unaliased : finding.aliasOf = none := by simpa using self.1
          rw [nextCanonical, uncleaned, stored, Option.none_or]
          exact unaliased
        rw [leads_end_unique leads .refl last stays] at blocks
        exact blocks
    · intro copy listed blocks within
      exact (shown_iff copy).mp (loses.copies copy listed blocks within)
  · intro rows
    refine ⟨?_, ?_⟩
    · intro finding held blocker
      rw [shown_iff]
      cases copy : isOpenCopy (cleanedBy inventory outcomes) finding with
      | true =>
        rcases rows.copies finding held blocker copy with ⟨id, stands, standing⟩ | own
        · have blocks := blocker.2 id stands
          rw [StandsFor, if_pos copy] at stands
          obtain ⟨row, found⟩ := Option.isSome_iff_exists.mp standing
          refine .inr ⟨id, stands.1, stands.2, row, found, .inr ⟨finding, mem_findings.mpr ⟨_, held.1⟩, ?_, blocks⟩⟩
          exact ⟨copy, (canonicalAfterCleanup_iff _ _).mpr stands⟩
        · exact .inl own
      | false =>
        by_cases posted : (outcomes.ledger.accepted.any fun accepted => accepted.findingId = finding.id) = true
        · exact .inl (rows.accepted finding held blocker copy posted)
        · exact .inl (own_row_blocks held blocker copy posted)
    · intro copy listed blocks within
      rw [shown_iff]
      exact rows.sameId copy listed blocks within

def botLogin : String := "pr-agent[bot]"

def inventoryContext : InventoryContext := { renames := .empty, botLogin, legacyFindingId := id }

def botComment (id : String) (severity : FindingSeverity) : ReviewThreadComment :=
  { authorLogin := some "pr-agent", marker := some { id, severity } }

def humanReply : ReviewThreadComment := { authorLogin := some "alice" }

def duplicateReceiptReply (id canonical : String) : ReviewThreadComment :=
  { authorLogin := some "pr-agent", receipts := [.duplicate id canonical] }

def findingThread (threadNodeId : String) (rootCommentId : Nat) (isResolved : Bool) (comments : List ReviewThreadComment) :
    ReviewThreadSnapshot :=
  { threadNodeId, rootCommentId, isResolved, path := some "src/a.ts", line := some 3, comments }

-- A copy was left open because a human replied on it; later the canonical thread was resolved.
def resolvedCanonical : FindingInventory :=
  buildFindingInventory inventoryContext .complete
    { threads :=
        [findingThread "T1" 1 true [botComment "A" .p1],
          findingThread "T2" 2 false [botComment "B" .p1, humanReply, duplicateReceiptReply "B" "A"]]
      distinct := by decide }
    none

def emptyReview : FindingRunOutcomes := .reviewed {} []

def sameLocale : LocaleCompare := fun left right => if left < right then -1 else if right < left then 1 else 0

def openCopy : InventoryFinding :=
  { id := "B", source := .thread, threadId := some "T2", rootCommentId := some 2, url := "", path := "src/a.ts"
    startLine := some 3, line := some 3, positionStale := false, state := .open, aliasOf := some "A"
    severity := .known .p1, createdAt := "", hasHumanReplies := true, commentsComplete := true }

def closedCanonical : InventoryFinding :=
  { openCopy with
    id := "A", threadId := some "T1", rootCommentId := some 1, state := .resolved, aliasOf := none, hasHumanReplies := false }

theorem agent_is_bot : isBotAuthor (some "pr-agent") botLogin = true := by
  have bare : normalizedLogin "pr-agent" = "pr-agent" := by decide +kernel
  have marked : normalizedLogin botLogin = "pr-agent" := by decide +kernel
  simp only [isBotAuthor, Option.any_some, bare, marked, decide_true]

theorem alice_is_human : isBotAuthor (some "alice") botLogin = false := by
  have bare : normalizedLogin "alice" = "alice" := by decide +kernel
  have marked : normalizedLogin botLogin = "pr-agent" := by decide +kernel
  simp [isBotAuthor, bare, marked]

theorem closedCanonical_read :
    threadFinding inventoryContext (findingThread "T1" 1 true [botComment "A" .p1]) = some closedCanonical := by
  simp only [threadFinding, findingThread, inventoryContext, botComment, agent_is_bot, aliasIn, parseOwnedReceipts,
    hasHumanReplies, List.flatMap_cons, List.drop_succ_cons, List.drop_zero, Bool.not_true, Bool.false_eq_true, if_false,
    if_true]
  rfl

theorem openCopy_read :
    threadFinding inventoryContext
      (findingThread "T2" 2 false [botComment "B" .p1, humanReply, duplicateReceiptReply "B" "A"]) = some openCopy := by
  simp only [threadFinding, findingThread, inventoryContext, botComment, humanReply, duplicateReceiptReply, agent_is_bot,
    alice_is_human, aliasIn, parseOwnedReceipts, hasHumanReplies, List.flatMap_cons, List.drop_succ_cons, List.drop_zero,
    List.any_cons, Bool.not_true, Bool.not_false, Bool.true_or, Bool.false_eq_true, if_false, if_true]
  rfl

theorem readThreads_of_found {context : InventoryContext} {threads : List ReviewThreadSnapshot}
    {found : List InventoryFinding} (read : threads.filterMap (threadFinding context) = found) :
    readThreads context threads = found.foldl ReadThreads.add { findings := .empty, sameIdCopies := [] } := by
  rw [readThreads, read]

theorem findings_without_summary (context : InventoryContext) (completeness : InventoryCompleteness) (listing : ReviewThreadListing) :
    (buildFindingInventory context completeness listing none).findings = (readThreads context listing.threads).findings :=
  rfl

-- The two threads are read by their own lemmas: evaluating the logins inside the whole inventory is slow.
theorem resolvedCanonical_findings :
    resolvedCanonical.findings = (Table.empty.set "A" closedCanonical).set "B" openCopy := by
  have copy := List.filterMap_cons_some (l := []) openCopy_read
  have found := (List.filterMap_cons_some closedCanonical_read).trans (congrArg (closedCanonical :: ·) copy)
  unfold resolvedCanonical
  rw [findings_without_summary, readThreads_of_found found]
  rfl

theorem openCopy_stored : resolvedCanonical.findings.get? "B" = some openCopy := by
  rw [resolvedCanonical_findings]
  rfl

theorem view_of_resolvedCanonical : (buildFindingView .p2 sameLocale resolvedCanonical emptyReview).rows.isEmpty = true := by
  have values : resolvedCanonical.findings.values = [closedCanonical, openCopy] := by
    rw [resolvedCanonical_findings]
    rfl
  have carried : carriedRows .p2 sameLocale resolvedCanonical emptyReview = [] := by
    simp [carriedRows, values, isCarried, closedCanonical, openCopy]
  simp only [buildFindingView, carried]
  rfl

theorem view_hides_open_copy : ¬LosesNoBlocker .p2 sameLocale resolvedCanonical emptyReview [] := by
  intro loses
  have blocker : IsBlocker .p2 resolvedCanonical emptyReview openCopy := ⟨rfl, fun _ _ => rfl⟩
  have held : OpenAfterCleanup resolvedCanonical emptyReview openCopy := ⟨openCopy_stored, rfl, rfl, rfl⟩
  obtain ⟨⟨row, listed, _⟩, _⟩ := loses.findings openCopy held blocker
  rw [List.isEmpty_iff.mp view_of_resolvedCanonical] at listed
  cases listed

end Blockers
end PrAgent
