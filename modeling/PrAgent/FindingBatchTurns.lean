import PrAgent.FindingBatchScan
set_option autoImplicit false

namespace PrAgent.BatchCall

abbrev Turn := (BatchFinding × Except String ObservationRelation) × Nat

variable (collation : Collation) (minting : IdMinting) (call : BatchCall)

section Turns

-- The findings that are reconciled, in their order.
def turns : List Turn := (call.unrepeated collation).zipIdx

def keptTurns : List Turn := (call.turns collation).filter fun turn => call.hasEvidence turn.1.1

def step (turn : Turn) : ReconcileStep :=
  turnStep collation.localeCompare minting.draw minting.derivedFindingId call.inventory call.acceptedThisRun
    call.overlapRoundsLeft (call.reconcileInput collation) (submittedFinding turn.1) (call.calls + 2 * turn.2)

def turnResult (turn : Turn) : Option ReconcileOutcome :=
  turnOutcome collation.localeCompare minting.draw minting.derivedFindingId call.inventory call.acceptedThisRun
    call.overlapRoundsLeft (call.reconcileInput collation) (submittedFinding turn.1) (call.calls + 2 * turn.2)

end Turns

section Ids

-- The finding of the inventory that a finding is promoted to.
def promoted (turn : Turn) : Option String :=
  match call.step collation minting turn with
  | .outcome (.promote id) => some id
  | .outcome (.postThread _ _ _) | .outcome (.summaryOnly _ _) | .outcome (.reaffirm _ _) | .outcome (.suppressedDismissed _)
  | .question _ | .rejected _ => none

-- A finding that is held under an id of its own.
def mints (turn : Turn) : Bool :=
  match call.step collation minting turn with
  | .outcome (.postThread _ _ _) | .outcome (.summaryOnly _ _) | .question _ | .rejected _ => true
  | .outcome (.promote _) | .outcome (.reaffirm _ _) | .outcome (.suppressedDismissed _) => false

-- Without a thread call left, an unanswered finding gets its id from its placement.
def idKey (turn : Turn) : String :=
  if call.threadBudgetSpent && (call.step collation minting turn).unanswered then reviewFindingPlacementKey turn.1.1
  else reconciledFindingKey turn.1.1

-- Two findings are held under different ids.
structure Apart (first second : Turn) : Prop where
  promoted : ∀ id, call.promoted collation minting first = some id → call.promoted collation minting second ≠ some id
  minted : ∀ scope id, call.scope = some scope → call.promoted collation minting first = some id →
    call.mints collation minting second = true →
      minting.derivedFindingId (scope ++ [call.idKey collation minting second, "0"]) ≠ id
  minted' : ∀ scope id, call.scope = some scope → call.promoted collation minting second = some id →
    call.mints collation minting first = true →
      minting.derivedFindingId (scope ++ [call.idKey collation minting first, "0"]) ≠ id
  keys : call.scope ≠ none → call.mints collation minting first = true → call.mints collation minting second = true →
    call.idKey collation minting first ≠ call.idKey collation minting second

theorem Apart.symm {first second : Turn} (apart : call.Apart collation minting first second) :
    call.Apart collation minting second first where
  promoted := fun id here there => apart.promoted id there here
  minted := apart.minted'
  minted' := apart.minted
  keys := fun inScope here there => (apart.keys inScope there here).symm

end Ids

section Scan

variable {collation minting call}

theorem unrepeated_map (findings : List BatchFinding) (repeated : List Nat)
    (submitted : List (BatchFinding × Except String ObservationRelation)) (same : submitted.map Prod.fst = findings) :
    ((submitted.zipIdx.filter fun entry => entry.2 ∉ repeated).map Prod.fst).map Prod.fst =
      (findings.zipIdx.filter fun entry => entry.2 ∉ repeated).map Prod.fst := by
  rw [← same, List.zipIdx_map, List.filter_map, List.map_map, List.map_map]
  rfl

theorem unrepeated_distinct (collation : Collation) (call : BatchCall) :
    ((call.unrepeated collation).map fun entry => reviewFindingPlacementKey entry.1).Nodup := by
  have keys := unrepeated_keys collation (call.submitted.map Prod.fst)
  have same := unrepeated_map (call.submitted.map Prod.fst) (call.repeated collation) call.submitted rfl
  have split : (call.unrepeated collation).map (fun entry => reviewFindingPlacementKey entry.1) =
      (((call.submitted.map Prod.fst).zipIdx.filter fun entry => entry.2 ∉ call.repeated collation).map
        Prod.fst).map reviewFindingPlacementKey := by
    rw [← same, List.map_map]
    rfl
  rw [split, List.map_map]
  exact List.pairwise_map.mpr keys

theorem turn_keys (collation : Collation) (call : BatchCall) :
    ((call.turns collation).map fun turn => reviewFindingPlacementKey turn.1.1).Nodup := by
  have firsts : (call.turns collation).map Prod.fst = call.unrepeated collation := List.zipIdx_map_fst 0 _
  have distinct := unrepeated_distinct collation call
  rw [← firsts, List.map_map] at distinct
  exact distinct

theorem kept_keys (collation : Collation) (call : BatchCall) :
    ((call.keptTurns collation).map fun turn => reviewFindingPlacementKey turn.1.1).Nodup :=
  (turn_keys collation call).sublist (List.filter_sublist.map _)

theorem scanned (collation : Collation) (minting : IdMinting) (call : BatchCall) :
    BatchScan.Scanned collation.localeCompare minting.draw minting.derivedFindingId call.inventory call.acceptedThisRun
      call.overlapRoundsLeft (call.reconcileInput collation) { calls := call.calls } (call.scan collation minting)
      ((call.unrepeated collation).map submittedFinding) := by
  have entries : (((call.reconcileInput collation).submitted.zipIdx.filter fun entry =>
      entry.2 ∉ (call.reconcileInput collation).repeated).map Prod.fst) = (call.unrepeated collation).map submittedFinding := by
    change (((call.submitted.map submittedFinding).zipIdx.filter fun entry => entry.2 ∉ call.repeated collation).map Prod.fst) = _
    rw [List.zipIdx_map, List.filter_map, List.map_map, unrepeated, List.map_map]
    rfl
  rw [scan, scanBatch, foldl_unrepeated, ← entries]
  apply foldl_scanned
  · intro entry listed
    exact of_decide_eq_true (List.mem_filter.mp listed).2
  · have keys : (((call.reconcileInput collation).submitted.zipIdx.filter fun entry =>
        entry.2 ∉ (call.reconcileInput collation).repeated).map fun entry => entry.1.key) =
        (call.unrepeated collation).map fun entry => reconciledFindingKey entry.1 := by
      have whole := congrArg (List.map SubmittedFinding.key) entries
      rw [List.map_map, List.map_map] at whole
      exact whole
    rw [keys]
    apply List.pairwise_map.mpr
    exact (List.pairwise_map.mp (unrepeated_distinct collation call)).imp fun apart same => apart (placementKey_of_reconciledKey same)
  · intro entry _
    exact ⟨rfl, rfl⟩

theorem turn_listed {turn : Turn} (listed : turn ∈ call.turns collation) :
    (submittedFinding turn.1, turn.2) ∈ ((call.unrepeated collation).map submittedFinding).zipIdx := by
  rw [List.zipIdx_map]
  exact List.mem_map_of_mem listed

theorem turn_outcome {turn : Turn} (listed : turn ∈ call.turns collation) :
    (call.scan collation minting).outcomes.get? (reconciledFindingKey turn.1.1) = call.turnResult collation minting turn := by
  have turned := (scanned collation minting call).turns _ (turn_listed listed)
  dsimp only at turned
  rw [turnResult]
  exact turned

theorem turn_answered {turn : Turn} (listed : turn ∈ call.turns collation)
    (answered : (call.scan collation minting).isAnswered = true) (absent : call.turnResult collation minting turn = none) :
    (call.threadBudgetSpent && (call.step collation minting turn).unanswered) = true := by
  have dropped := ((scanned collation minting call).answered answered).2 _ (turn_listed listed)
  dsimp only at dropped
  rw [turnResult] at absent
  rw [step]
  exact dropped absent

theorem scan_calls (collation : Collation) (minting : IdMinting) (call : BatchCall) :
    (call.scan collation minting).calls = call.calls + 2 * (call.turns collation).length := by
  have counted := (scanned collation minting call).calls
  rw [List.length_map] at counted
  rw [counted, turns, List.length_zipIdx]

end Scan

section Results

variable {collation minting call}

variable {turn : Turn} {outcome : ReconcileOutcome}

-- The result of a turn, when it has one.
theorem result_of_step (found : call.turnResult collation minting turn = some outcome) :
    (call.threadBudgetSpent && (call.step collation minting turn).unanswered) = false ∧
      (call.step collation minting turn = .outcome outcome ∨
        (∀ other, call.step collation minting turn ≠ .outcome other) ∧ outcome = .summaryOnly
          ((mintOrigin call.scope (call.calls + 2 * turn.2 + 1) (reconciledFindingKey turn.1.1) 0).id minting.draw
            minting.derivedFindingId) .unansweredOverlap) := by
  have spent : (call.reconcileInput collation).threadBudgetSpent = call.threadBudgetSpent := rfl
  rw [turnResult, turnOutcome, spent] at found
  by_cases dropped : (call.threadBudgetSpent && (call.step collation minting turn).unanswered) = true
  · rw [step] at dropped
    rw [if_pos dropped] at found
    cases found
  · refine ⟨Bool.eq_false_iff.mpr dropped, ?_⟩
    rw [step] at dropped ⊢
    rw [if_neg dropped] at found
    generalize turnStep collation.localeCompare minting.draw minting.derivedFindingId call.inventory call.acceptedThisRun
      call.overlapRoundsLeft (call.reconcileInput collation) (submittedFinding turn.1) (call.calls + 2 * turn.2) = step at found ⊢
    cases step with
    | outcome other =>
        cases found
        exact .inl rfl
    | question candidates =>
        by_cases late : call.overlapRoundsLeft = 0
        · simp only [if_pos late] at found
          cases found
          exact .inr ⟨fun other => ReconcileStep.noConfusion, rfl⟩
        · simp only [if_neg late] at found
          cases found
    | rejected reason =>
        by_cases late : call.overlapRoundsLeft = 0
        · simp only [if_pos late] at found
          cases found
          exact .inr ⟨fun other => ReconcileStep.noConfusion, rfl⟩
        · simp only [if_neg late] at found
          cases found

theorem safe_of_step (found : call.step collation minting turn = .outcome outcome) :
    ∃ relation, turn.1.2 = .ok relation ∧
      outcome.Safe collation.localeCompare call.inventory call.acceptedThisRun (observation turn.1.1) relation
        ((mintOrigin call.scope (call.calls + 2 * turn.2) (reconciledFindingKey turn.1.1) 0).id minting.draw
          minting.derivedFindingId) := by
  rw [step, turnStep, SubmittedFinding.step] at found
  cases related : (submittedFinding turn.1).relation with
  | error complaint =>
      rw [related] at found
      cases found
  | ok relation =>
      rw [related] at found
      exact ⟨relation, related, reconcile_safe found⟩

-- The call number of the id of a turn; `planned` is the one of a placement without an outcome.
def heldNumber (collation : Collation) (minting : IdMinting) (call : BatchCall) (turn : Turn) (planned : Nat) : Nat :=
  if (call.turnResult collation minting turn).isNone then planned
  else
    match call.step collation minting turn with
    | .outcome _ => call.calls + 2 * turn.2
    | .question _ | .rejected _ => call.calls + 2 * turn.2 + 1

-- The id that the finding of a turn is held under, when it is held.
def heldId (collation : Collation) (minting : IdMinting) (call : BatchCall) (turn : Turn) (planned : Nat) : String :=
  match call.promoted collation minting turn with
  | some id => id
  | none => (mintOrigin call.scope (call.heldNumber collation minting turn planned) (call.idKey collation minting turn) 0).id
      minting.draw minting.derivedFindingId

structure Minted (collation : Collation) (minting : IdMinting) (call : BatchCall) (turn : Turn) : Prop where
  promoted : call.promoted collation minting turn = none
  mints : call.mints collation minting turn = true

theorem heldId_minted (minted : call.Minted collation minting turn) (planned : Nat) :
    call.heldId collation minting turn planned =
      (mintOrigin call.scope (call.heldNumber collation minting turn planned) (call.idKey collation minting turn) 0).id
        minting.draw minting.derivedFindingId := by
  rw [heldId, minted.promoted]

theorem idKey_answered (answered : (call.threadBudgetSpent && (call.step collation minting turn).unanswered) = false) :
    call.idKey collation minting turn = reconciledFindingKey turn.1.1 := by
  rw [idKey, if_neg (Bool.eq_false_iff.mp answered)]

variable {id : String}

theorem result_minted {reason : UnsettledReason} (planned : Nat)
    (found : call.turnResult collation minting turn = some (.summaryOnly id reason)) :
    call.Minted collation minting turn ∧ call.heldId collation minting turn planned = id := by
  obtain ⟨answered, shape⟩ := result_of_step found
  have some_ : (call.turnResult collation minting turn).isNone = false := by
    rw [found]
    rfl
  cases shape with
  | inl stepped =>
      obtain ⟨relation, _, safe⟩ := safe_of_step stepped
      have minted : call.Minted collation minting turn := ⟨by rw [promoted, stepped], by rw [mints, stepped]⟩
      refine ⟨minted, ?_⟩
      rw [heldId_minted minted, idKey_answered answered, heldNumber, some_, stepped]
      exact safe.1.symm
  | inr late =>
      obtain ⟨unanswered, same⟩ := late
      cases stepped : call.step collation minting turn with
      | outcome outcome => exact absurd stepped (unanswered outcome)
      | question candidates =>
          have minted : call.Minted collation minting turn := ⟨by rw [promoted, stepped], by rw [mints, stepped]⟩
          refine ⟨minted, ?_⟩
          rw [heldId_minted minted, idKey_answered answered, heldNumber, some_, stepped]
          cases same
          rfl
      | rejected candidates =>
          have minted : call.Minted collation minting turn := ⟨by rw [promoted, stepped], by rw [mints, stepped]⟩
          refine ⟨minted, ?_⟩
          rw [heldId_minted minted, idKey_answered answered, heldNumber, some_, stepped]
          cases same
          rfl

theorem step_of_result (found : call.turnResult collation minting turn = some outcome)
    (settled : ∀ id reason, outcome ≠ .summaryOnly id reason) : call.step collation minting turn = .outcome outcome := by
  cases (result_of_step found).2 with
  | inl stepped => exact stepped
  | inr late => exact absurd late.2 (settled _ _)

theorem result_posted {reopens : Option String} {links : List String} (planned : Nat)
    (found : call.turnResult collation minting turn = some (.postThread id reopens links)) :
    call.Minted collation minting turn ∧ call.heldId collation minting turn planned = id := by
  have stepped := step_of_result found fun _ _ => ReconcileOutcome.noConfusion
  have answered := (result_of_step found).1
  have some_ : (call.turnResult collation minting turn).isNone = false := by
    rw [found]
    rfl
  have minted : call.Minted collation minting turn := ⟨by rw [promoted, stepped], by rw [mints, stepped]⟩
  obtain ⟨relation, _, safe⟩ := safe_of_step stepped
  refine ⟨minted, ?_⟩
  rw [heldId_minted minted, idKey_answered answered, heldNumber, some_, stepped]
  cases reopens with
  | none => exact safe.1.symm
  | some reopened => exact safe.1.symm

theorem result_promoted (planned : Nat) (found : call.turnResult collation minting turn = some (.promote id)) :
    call.promoted collation minting turn = some id ∧ call.mints collation minting turn = false ∧
      call.heldId collation minting turn planned = id := by
  have stepped := step_of_result found fun _ _ => ReconcileOutcome.noConfusion
  have promotes : call.promoted collation minting turn = some id := by rw [promoted, stepped]
  exact ⟨promotes, by rw [mints, stepped], by rw [heldId, promotes]⟩

-- A finding is promoted when it continues an offered finding whose canonical finding the summary holds open.
theorem promoted_iff : call.promoted collation minting turn = some id ↔
    ∃ relation, turn.1.2 = .ok relation ∧ call.inventory.completeness = .complete ∧ ∃ canonical,
      ContinuesTo collation.localeCompare call.inventory call.acceptedThisRun (observation turn.1.1) relation canonical ∧
        canonical.id = id ∧ canonical.state = .open ∧ canonical.source = .summary := by
  constructor
  · intro promotes
    have stepped : call.step collation minting turn = .outcome (.promote id) := by
      rw [promoted] at promotes
      split at promotes
      · cases promotes
        assumption
      all_goals cases promotes
    obtain ⟨relation, related, safe⟩ := safe_of_step stepped
    exact ⟨relation, related, safe⟩
  · intro promotes
    obtain ⟨relation, related, complete, canonical, continues, same, opened, summary⟩ := promotes
    obtain ⟨target, rfl, offered, known, found⟩ := continues
    have stepped : call.step collation minting turn = .outcome (.promote id) := by
      have answered : (submittedFinding turn.1).relation = .ok (.continues target) := related
      obtain ⟨held, stored⟩ := Option.isSome_iff_exists.mp known
      rw [step, turnStep, SubmittedFinding.step, answered]
      simp only [reconcileObservation, continueFinding, stored]
      have retrieved : target ∈ (retrievalCandidates collation.localeCompare (submittedFinding turn.1).observation.toFindingSpan
          call.inventory call.acceptedThisRun).map OverlapCandidate.findingId := offered
      rw [if_neg (not_not.mpr retrieved), found]
      simp only [opened, summary, complete, decide_true, and_self, if_true]
      rw [same]
    rw [promoted, stepped]

-- A finding is promoted to one of the inventory.
theorem promoted_known (promotes : call.promoted collation minting turn = some id) :
    (call.inventory.findings.get? id).isSome = true := by
  obtain ⟨relation, _, _, canonical, continues, same, _⟩ := promoted_iff.mp promotes
  obtain ⟨target, _, _, _, found⟩ := continues
  obtain ⟨other, _, stored⟩ := Option.bind_eq_some_iff.mp found
  have own := call.inventory.keyed other canonical stored
  rw [← same, own, stored]
  rfl

-- Nothing is decided of a finding that is dropped for want of a thread call.
theorem result_absent (listed : turn ∈ call.turns collation) (answered : (call.scan collation minting).isAnswered = true)
    (absent : call.turnResult collation minting turn = none) :
    call.Minted collation minting turn ∧ call.idKey collation minting turn = reviewFindingPlacementKey turn.1.1 := by
  have dropped := turn_answered listed answered absent
  refine ⟨?_, by rw [idKey, if_pos dropped]⟩
  have unanswered : (call.step collation minting turn).unanswered = true := (Bool.and_eq_true_iff.mp dropped).2
  cases stepped : call.step collation minting turn with
  | question candidates => exact ⟨by rw [promoted, stepped], by rw [mints, stepped]⟩
  | rejected reason => exact ⟨by rw [promoted, stepped], by rw [mints, stepped]⟩
  | outcome outcome =>
      rw [stepped] at unanswered
      cases outcome with
      | summaryOnly id reason => exact ⟨by rw [promoted, stepped], by rw [mints, stepped]⟩
      | postThread id reopens links => cases unanswered
      | reaffirm id severity => cases unanswered
      | promote id => cases unanswered
      | suppressedDismissed id => cases unanswered

theorem result_neither (found : call.turnResult collation minting turn = some outcome)
    (ends : (∃ id severity, outcome = .reaffirm id severity) ∨ ∃ id, outcome = .suppressedDismissed id) :
    call.promoted collation minting turn = none ∧ call.mints collation minting turn = false := by
  have stepped : call.step collation minting turn = .outcome outcome := by
    apply step_of_result found
    intro id reason same
    subst same
    obtain ⟨_, _, other⟩ | ⟨_, other⟩ := ends <;> cases other
  obtain ⟨_, _, rfl⟩ | ⟨_, rfl⟩ := ends <;> exact ⟨by rw [promoted, stepped], by rw [mints, stepped]⟩

end Results

end PrAgent.BatchCall
