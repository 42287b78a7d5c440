import PrAgent.FindingBatchCall
set_option autoImplicit false

namespace PrAgent

section Turns

variable (localeCompare : String → String → Int) (draw : Nat → String) (derivedFindingId : List String → String)
  (inventory : ReconcileInventory) (accepted : List AcceptedThisRun) (overlapRoundsLeft : Nat) (batch : ReconcileBatch)

-- What the first finding of a key is answered, when the run has drawn `number` ids.
def turnStep (submitted : SubmittedFinding) (number : Nat) : ReconcileStep :=
  submitted.step localeCompare inventory accepted overlapRoundsLeft
    ((mintOrigin batch.scope number submitted.key 0).id draw derivedFindingId)

def turnOutcome (submitted : SubmittedFinding) (number : Nat) : Option ReconcileOutcome :=
  let step := turnStep localeCompare draw derivedFindingId inventory accepted overlapRoundsLeft batch submitted number
  if batch.threadBudgetSpent && step.unanswered then none
  else
    match step with
    | .outcome outcome => some outcome
    | .question _ | .rejected _ =>
      if overlapRoundsLeft = 0 then
        some (.summaryOnly ((mintOrigin batch.scope (number + 1) submitted.key 0).id draw derivedFindingId) .unansweredOverlap)
      else none

variable {localeCompare draw derivedFindingId inventory accepted overlapRoundsLeft batch}

structure BatchScan.Turned (scan after : BatchScan) (key : String) (outcome : Option ReconcileOutcome) (unanswered : Bool) :
    Prop where
  outcomes : after.outcomes = outcome.elim scan.outcomes (scan.outcomes.set key)
  occurrences : after.occurrences = scan.occurrences.set key 1
  calls : after.calls = scan.calls + 2
  answered : after.isAnswered = true → scan.isAnswered = true ∧ (outcome = none → unanswered = true)

theorem scanFinding_turned {scan : BatchScan} {submitted : SubmittedFinding} {index : Nat} (kept : index ∉ batch.repeated)
    (fresh : scan.occurrences.get? submitted.key = none) :
    scan.Turned (scanFinding localeCompare draw derivedFindingId inventory accepted overlapRoundsLeft batch scan (submitted, index))
      submitted.key (turnOutcome localeCompare draw derivedFindingId inventory accepted overlapRoundsLeft batch submitted scan.calls)
      (batch.threadBudgetSpent && (turnStep localeCompare draw derivedFindingId inventory accepted overlapRoundsLeft batch submitted
        scan.calls).unanswered) := by
  have first : (scan.occurrences.get? submitted.key).getD 0 = 0 := by
    rw [fresh]
    rfl
  unfold scanFinding turnOutcome turnStep
  dsimp only
  rw [if_neg kept, first]
  generalize submitted.step localeCompare inventory accepted overlapRoundsLeft
    ((mintOrigin batch.scope scan.calls submitted.key 0).id draw derivedFindingId) = step
  by_cases dropped : (batch.threadBudgetSpent && step.unanswered) = true
  · rw [if_pos dropped, if_pos dropped]
    exact ⟨rfl, rfl, rfl, fun answered => ⟨answered, fun _ => dropped⟩⟩
  · rw [if_neg dropped, if_neg dropped]
    cases step with
    | outcome outcome => exact ⟨rfl, rfl, rfl, fun answered => ⟨answered, fun absent => absurd absent (Option.some_ne_none _)⟩⟩
    | question candidates =>
        by_cases late : overlapRoundsLeft = 0
        · simp only [if_pos late]
          exact ⟨rfl, rfl, rfl, fun answered => ⟨answered, fun absent => absurd absent (Option.some_ne_none _)⟩⟩
        · simp only [if_neg late]
          refine ⟨rfl, rfl, rfl, ?_⟩
          intro answered
          simp [BatchScan.isAnswered] at answered
    | rejected reason =>
        by_cases late : overlapRoundsLeft = 0
        · simp only [if_pos late]
          exact ⟨rfl, rfl, rfl, fun answered => ⟨answered, fun absent => absurd absent (Option.some_ne_none _)⟩⟩
        · simp only [if_neg late]
          refine ⟨rfl, rfl, rfl, ?_⟩
          intro answered
          simp [BatchScan.isAnswered] at answered

theorem scanFinding_repeated {scan : BatchScan} {entry : SubmittedFinding × Nat} (repeated : entry.2 ∈ batch.repeated) :
    scanFinding localeCompare draw derivedFindingId inventory accepted overlapRoundsLeft batch scan entry = scan := by
  rw [scanFinding]
  exact if_pos repeated

theorem foldl_unrepeated (entries : List (SubmittedFinding × Nat)) (scan : BatchScan) :
    entries.foldl (scanFinding localeCompare draw derivedFindingId inventory accepted overlapRoundsLeft batch) scan =
      (entries.filter fun entry => entry.2 ∉ batch.repeated).foldl
        (scanFinding localeCompare draw derivedFindingId inventory accepted overlapRoundsLeft batch) scan := by
  induction entries generalizing scan with
  | nil => rfl
  | cons entry rest ih =>
      by_cases repeated : entry.2 ∈ batch.repeated
      · rw [List.foldl_cons, scanFinding_repeated repeated, List.filter_cons_of_neg (by simp [repeated]), ih]
      · rw [List.foldl_cons, List.filter_cons_of_pos (by simp [repeated]), List.foldl_cons, ih]

-- Every finding of a key of its own has the outcome of its turn.
structure BatchScan.Scanned (localeCompare : String → String → Int) (draw : Nat → String)
    (derivedFindingId : List String → String) (inventory : ReconcileInventory) (accepted : List AcceptedThisRun)
    (overlapRoundsLeft : Nat) (batch : ReconcileBatch) (scan after : BatchScan) (submitted : List SubmittedFinding) : Prop where
  turns : ∀ turn ∈ submitted.zipIdx, after.outcomes.get? turn.1.key =
    turnOutcome localeCompare draw derivedFindingId inventory accepted overlapRoundsLeft batch turn.1 (scan.calls + 2 * turn.2)
  others : ∀ key, (∀ finding ∈ submitted, finding.key ≠ key) → after.outcomes.get? key = scan.outcomes.get? key
  calls : after.calls = scan.calls + 2 * submitted.length
  answered : after.isAnswered = true → scan.isAnswered = true ∧ ∀ turn ∈ submitted.zipIdx,
    turnOutcome localeCompare draw derivedFindingId inventory accepted overlapRoundsLeft batch turn.1 (scan.calls + 2 * turn.2) = none →
      (batch.threadBudgetSpent && (turnStep localeCompare draw derivedFindingId inventory accepted overlapRoundsLeft batch turn.1
        (scan.calls + 2 * turn.2)).unanswered) = true

theorem foldl_scanned {entries : List (SubmittedFinding × Nat)} {scan : BatchScan}
    (kept : ∀ entry ∈ entries, entry.2 ∉ batch.repeated) (distinct : (entries.map fun entry => entry.1.key).Nodup)
    (fresh : ∀ entry ∈ entries, scan.occurrences.get? entry.1.key = none ∧ scan.outcomes.get? entry.1.key = none) :
    scan.Scanned localeCompare draw derivedFindingId inventory accepted overlapRoundsLeft batch
      (entries.foldl (scanFinding localeCompare draw derivedFindingId inventory accepted overlapRoundsLeft batch) scan)
      (entries.map Prod.fst) := by
  induction entries generalizing scan with
  | nil =>
      constructor
      · intro turn listed
        cases listed
      · intro key _
        rfl
      · rfl
      · intro answered
        refine ⟨answered, ?_⟩
        intro turn listed
        cases listed
  | cons entry rest ih =>
      obtain ⟨submitted, index⟩ := entry
      rw [List.map_cons, List.nodup_cons] at distinct
      obtain ⟨apart, distinct⟩ := distinct
      obtain ⟨unheld, unanswered⟩ := fresh (submitted, index) List.mem_cons_self
      have turned : scan.Turned
          (scanFinding localeCompare draw derivedFindingId inventory accepted overlapRoundsLeft batch scan (submitted, index))
          submitted.key
          (turnOutcome localeCompare draw derivedFindingId inventory accepted overlapRoundsLeft batch submitted scan.calls)
          (batch.threadBudgetSpent && (turnStep localeCompare draw derivedFindingId inventory accepted overlapRoundsLeft batch
            submitted scan.calls).unanswered) :=
        scanFinding_turned (kept (submitted, index) List.mem_cons_self) unheld
      rw [List.foldl_cons]
      generalize scanFinding localeCompare draw derivedFindingId inventory accepted overlapRoundsLeft batch scan
        (submitted, index) = next at turned ⊢
      have outcomes : ∀ key, key ≠ submitted.key → next.outcomes.get? key = scan.outcomes.get? key := by
        intro key other
        rw [turned.outcomes]
        cases turnOutcome localeCompare draw derivedFindingId inventory accepted overlapRoundsLeft batch submitted scan.calls with
        | none => rfl
        | some outcome => exact Table.get?_set_of_ne _ _ _ other
      have here : next.outcomes.get? submitted.key =
          turnOutcome localeCompare draw derivedFindingId inventory accepted overlapRoundsLeft batch submitted scan.calls := by
        rw [turned.outcomes]
        cases turnOutcome localeCompare draw derivedFindingId inventory accepted overlapRoundsLeft batch submitted scan.calls with
        | none => exact unanswered
        | some outcome => exact Table.get?_set_self _ _ _
      have fresh' : ∀ entry ∈ rest, next.occurrences.get? entry.1.key = none ∧ next.outcomes.get? entry.1.key = none := by
        intro entry later
        have other : entry.1.key ≠ submitted.key := by
          intro same
          exact apart (same ▸ List.mem_map_of_mem later)
        obtain ⟨unheld', unanswered'⟩ := fresh entry (List.mem_cons_of_mem _ later)
        rw [turned.occurrences, Table.get?_set_of_ne _ _ _ other, outcomes _ other]
        exact ⟨unheld', unanswered'⟩
      have scanned := ih (fun entry later => kept entry (List.mem_cons_of_mem _ later)) distinct fresh'
      have others : ∀ finding ∈ rest.map Prod.fst, finding.key ≠ submitted.key := by
        intro finding listed same
        obtain ⟨entry, later, rfl⟩ := List.mem_map.mp listed
        exact apart (same ▸ List.mem_map_of_mem later)
      have split : ∀ turn ∈ (((submitted, index) :: rest).map Prod.fst).zipIdx, turn = (submitted, 0) ∨
          ∃ later ∈ (rest.map Prod.fst).zipIdx, turn.1 = later.1 ∧ scan.calls + 2 * turn.2 = next.calls + 2 * later.2 := by
        intro turn listed
        rw [List.map_cons, List.zipIdx_cons, List.mem_cons] at listed
        cases listed with
        | inl head => exact .inl head
        | inr tail =>
            rw [Nat.zero_add, List.zipIdx_succ, List.mem_map] at tail
            obtain ⟨later, inside, rfl⟩ := tail
            refine .inr ⟨later, inside, rfl, ?_⟩
            change scan.calls + 2 * (later.2 + 1) = next.calls + 2 * later.2
            rw [turned.calls]
            omega
      constructor
      · intro turn listed
        cases split turn listed with
        | inl head =>
            subst head
            rw [scanned.others _ others, here]
            rfl
        | inr tail =>
            obtain ⟨later, inside, same, number⟩ := tail
            rw [same, number]
            exact scanned.turns later inside
      · intro key absent
        rw [scanned.others key (fun finding listed => absent finding (List.mem_cons_of_mem _ listed))]
        exact outcomes key (absent submitted List.mem_cons_self).symm
      · rw [scanned.calls, turned.calls, List.map_cons, List.length_cons]
        omega
      · intro answered
        obtain ⟨before, turns⟩ := scanned.answered answered
        obtain ⟨start, first⟩ := turned.answered before
        refine ⟨start, ?_⟩
        intro turn listed
        cases split turn listed with
        | inl head =>
            subst head
            exact first
        | inr tail =>
            obtain ⟨later, inside, same, number⟩ := tail
            rw [same, number]
            exact turns later inside

end Turns

end PrAgent
