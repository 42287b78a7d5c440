import PrAgent.FindingReconcileSafe
set_option autoImplicit false

namespace PrAgent

section Batches

-- Where an id comes from: a random draw, or the hash of a scope, a finding key and an occurrence.
inductive IdOrigin
  | drawn (call : Nat)
  | derived (material : List String)
  deriving DecidableEq, Repr

def IdOrigin.id (draw : Nat → String) (derivedFindingId : List String → String) : IdOrigin → String
  | .drawn call => draw call
  | .derived material => derivedFindingId material

def mintOrigin (scope : Option (List String)) (call : Nat) (key : String) (occurrence : Nat) : IdOrigin :=
  match scope with
  | none => .drawn call
  | some scope => .derived (scope ++ [key, toString occurrence])

-- A finding with its key and its relation, or the complaint about the ids of its relation.
structure SubmittedFinding where
  key : String
  observation : ReconcileObservation
  relation : Except String ObservationRelation

structure ReconcileBatch where
  scope : Option (List String)
  submitted : List SubmittedFinding
  repeated : List Nat := []
  threadBudgetSpent : Bool := false
  -- what its publication adds to the ledger
  posted : List AcceptedThisRun := []

structure OverlapQuestionReport where
  findingIndex : Nat
  observation : ReconcileObservation
  candidates : List OverlapCandidate

structure RejectedRelationReport where
  findingIndex : Nat
  title : String
  reason : String

-- An outcome with what it was decided on. It only records the run.
structure GivenOutcome where
  submitted : SubmittedFinding
  accepted : List AcceptedThisRun
  origin : IdOrigin
  outcome : ReconcileOutcome

structure BatchScan where
  occurrences : Table String Nat := .empty
  calls : Nat
  outcomes : Table String ReconcileOutcome := .empty
  questions : List OverlapQuestionReport := []
  rejected : List RejectedRelationReport := []
  given : List GivenOutcome := []

def BatchScan.give (scan : BatchScan) (given : GivenOutcome) : BatchScan :=
  { scan with outcomes := scan.outcomes.set given.submitted.key given.outcome, given := scan.given ++ [given] }

def ReconcileStep.unanswered : ReconcileStep → Bool
  | .outcome (.summaryOnly _ reason) => reason = .unansweredOverlap
  | .outcome _ => false
  | .question _ | .rejected _ => true

variable (localeCompare : String → String → Int) (draw : Nat → String) (derivedFindingId : List String → String)
  (inventory : ReconcileInventory) (accepted : List AcceptedThisRun) (overlapRoundsLeft : Nat) (batch : ReconcileBatch)

def SubmittedFinding.step (submitted : SubmittedFinding) (minted : String) : ReconcileStep :=
  match submitted.relation with
  | .error complaint => .rejected complaint
  | .ok relation => reconcileObservation localeCompare submitted.observation relation inventory accepted overlapRoundsLeft minted

-- One turn of the loop. A turn calls `mint` at most twice, the second time for an answer that came too late.
def scanFinding (scan : BatchScan) (entry : SubmittedFinding × Nat) : BatchScan :=
  let (submitted, findingIndex) := entry
  if findingIndex ∈ batch.repeated then scan
  else
    let occurrence := (scan.occurrences.get? submitted.key).getD 0
    let first := mintOrigin batch.scope scan.calls submitted.key occurrence
    let second := mintOrigin batch.scope (scan.calls + 1) submitted.key occurrence
    let late : GivenOutcome :=
      ⟨submitted, accepted, second, .summaryOnly (second.id draw derivedFindingId) .unansweredOverlap⟩
    let step := submitted.step localeCompare inventory accepted overlapRoundsLeft (first.id draw derivedFindingId)
    let counted : BatchScan :=
      { scan with occurrences := scan.occurrences.set submitted.key (occurrence + 1), calls := scan.calls + 2 }
    if batch.threadBudgetSpent && step.unanswered then counted
    else
      match step with
      | .outcome outcome => counted.give ⟨submitted, accepted, first, outcome⟩
      | .question candidates =>
        if overlapRoundsLeft = 0 then counted.give late
        else { counted with questions := counted.questions ++ [⟨findingIndex, submitted.observation, candidates⟩] }
      | .rejected reason =>
        if overlapRoundsLeft = 0 then counted.give late
        else { counted with rejected := counted.rejected ++ [⟨findingIndex, submitted.observation.title, reason⟩] }

def scanBatch (calls : Nat) : BatchScan :=
  batch.submitted.zipIdx.foldl (scanFinding localeCompare draw derivedFindingId inventory accepted overlapRoundsLeft batch)
    { calls }

end Batches

section Runs

def maxOverlapRounds : Nat := 1

-- A run of `publish_thread` calls over one inventory.
structure ReconcileRun where
  accepted : List AcceptedThisRun := []
  overlapRoundsUsed : Nat := 0
  calls : Nat := 0
  given : List GivenOutcome := []

inductive ReconcileEvent
  | setSource
  | publish (batch : ReconcileBatch)

variable (localeCompare : String → String → Int) (draw : Nat → String) (derivedFindingId : List String → String)
  (inventory : ReconcileInventory)

def ReconcileRun.scan (run : ReconcileRun) (batch : ReconcileBatch) : BatchScan :=
  scanBatch localeCompare draw derivedFindingId inventory run.accepted (maxOverlapRounds - run.overlapRoundsUsed) batch run.calls

-- A batch with questions or rejected relations is thrown back; otherwise its outcomes are published.
def reconcileRunStep (run : ReconcileRun) : ReconcileEvent → Option ReconcileRun
  | .setSource => some { run with overlapRoundsUsed := 0 }
  | .publish batch =>
    let scan := run.scan localeCompare draw derivedFindingId inventory batch
    if scan.questions.isEmpty && scan.rejected.isEmpty then
      some
        { run with
          accepted := run.accepted ++ batch.posted
          calls := scan.calls
          given := run.given ++ scan.given }
    else some { run with overlapRoundsUsed := run.overlapRoundsUsed + 1, calls := scan.calls }

end Runs

section Scan

variable {localeCompare : String → String → Int} {draw : Nat → String} {derivedFindingId : List String → String}
  {inventory : ReconcileInventory} {accepted : List AcceptedThisRun} {overlapRoundsLeft : Nat} {batch : ReconcileBatch}

-- An outcome is safe for its answer. An answer that came too late, or names no ids, goes to the summary.
def GivenOutcome.Safe (localeCompare : String → String → Int) (draw : Nat → String)
    (derivedFindingId : List String → String) (inventory : ReconcileInventory) (given : GivenOutcome) : Prop :=
  given.outcome = .summaryOnly (given.origin.id draw derivedFindingId) .unansweredOverlap ∨
    ∃ relation, given.submitted.relation = .ok relation ∧
      given.outcome.Safe localeCompare inventory given.accepted given.submitted.observation relation
        (given.origin.id draw derivedFindingId)

-- The origins of a batch: draws from the run's calls, or the scope with a key and an occurrence below its count.
def Counted (scope : Option (List String)) (calls : Nat) (occurrences : Table String Nat) (from' : Nat) : IdOrigin → Prop
  | .drawn call => scope = none ∧ from' ≤ call ∧ call < calls
  | .derived material => ∃ inside key occurrence, scope = some inside ∧ material = inside ++ [key, toString occurrence] ∧
      occurrence < (occurrences.get? key).getD 0

structure BatchScan.Sound (localeCompare : String → String → Int) (draw : Nat → String)
    (derivedFindingId : List String → String) (inventory : ReconcileInventory) (batch : ReconcileBatch) (from' : Nat)
    (scan : BatchScan) : Prop where
  safe : ∀ given ∈ scan.given, given.Safe localeCompare draw derivedFindingId inventory
  counted : ∀ given ∈ scan.given, Counted batch.scope scan.calls scan.occurrences from' given.origin
  distinct : (scan.given.map GivenOutcome.origin).Nodup
  published : ∀ key outcome, scan.outcomes.get? key = some outcome →
    ∃ given ∈ scan.given, given.submitted.key = key ∧ given.outcome = outcome
  later : from' ≤ scan.calls

theorem toString_nat_inj {n m : Nat} (same : toString n = toString m) : n = m := by
  have digits : Nat.toDigits 10 n = Nat.toDigits 10 m := String.ofList_injective same
  have values := congrArg (fun text => Nat.ofDigitChars 10 text 0) digits
  simpa only [Nat.ofDigitChars_toDigits (b := 10) (by decide) (by decide)] using values

variable {scope : Option (List String)} {occurrences : Table String Nat}

theorem mintOrigin_new {calls from' : Nat} {key : String}
    {call : Nat} (next : calls ≤ call) {origin : IdOrigin} (counted : Counted scope calls occurrences from' origin) :
    origin ≠ mintOrigin scope call key ((occurrences.get? key).getD 0) := by
  intro same
  cases scope with
  | none =>
    subst same
    obtain ⟨_, _, below⟩ := counted
    omega
  | some inside =>
    subst same
    obtain ⟨inside', key', occurrence, inScope, material, below⟩ := counted
    cases inScope
    have pair := List.append_cancel_left material
    simp only [List.cons.injEq, and_true] at pair
    obtain ⟨rfl, digits⟩ := pair
    have occurrenceSame := toString_nat_inj digits
    omega

theorem mintOrigin_counted {calls from' : Nat} (later : from' ≤ calls) {key : String}
    {call : Nat} (first : calls ≤ call) (second : call < calls + 2) :
    Counted scope (calls + 2) (occurrences.set key ((occurrences.get? key).getD 0 + 1)) from'
      (mintOrigin scope call key ((occurrences.get? key).getD 0)) := by
  cases scope with
  | none => exact ⟨rfl, by omega, second⟩
  | some inside => exact ⟨inside, key, _, rfl, rfl, by simp⟩

theorem counted_mono {calls from' : Nat} {key : String} {origin : IdOrigin} (counted : Counted scope calls occurrences from' origin) :
    Counted scope (calls + 2) (occurrences.set key ((occurrences.get? key).getD 0 + 1)) from' origin := by
  cases origin with
  | drawn call =>
    obtain ⟨none', above, below⟩ := counted
    exact ⟨none', above, by omega⟩
  | derived material =>
    obtain ⟨inside, key', occurrence, inScope, material', below⟩ := counted
    refine ⟨inside, key', occurrence, inScope, material', ?_⟩
    rw [Table.get?_set]
    by_cases same : key' = key
    · subst same
      rw [if_pos rfl, Option.getD_some]
      omega
    · rw [if_neg same]
      exact below

theorem give_sound {from' : Nat} {scan : BatchScan}
    (sound : scan.Sound localeCompare draw derivedFindingId inventory batch from') {submitted : SubmittedFinding}
    {call : Nat} (first : scan.calls ≤ call) (second : call < scan.calls + 2) {outcome : ReconcileOutcome}
    (safe : (GivenOutcome.mk submitted accepted
        (mintOrigin batch.scope call submitted.key ((scan.occurrences.get? submitted.key).getD 0)) outcome).Safe
      localeCompare draw derivedFindingId inventory) :
    (BatchScan.give
      { scan with
        occurrences := scan.occurrences.set submitted.key ((scan.occurrences.get? submitted.key).getD 0 + 1)
        calls := scan.calls + 2 }
      ⟨submitted, accepted, mintOrigin batch.scope call submitted.key ((scan.occurrences.get? submitted.key).getD 0),
        outcome⟩).Sound localeCompare draw derivedFindingId inventory batch from' where
  safe := by
    intro given listed
    cases List.mem_append.mp listed with
    | inl before => exact sound.safe given before
    | inr here =>
      have same := List.mem_singleton.mp here
      subst same
      exact safe
  counted := by
    intro given listed
    cases List.mem_append.mp listed with
    | inl before => exact counted_mono (sound.counted given before)
    | inr here =>
      have same := List.mem_singleton.mp here
      subst same
      exact mintOrigin_counted sound.later first second
  distinct := by
    rw [BatchScan.give, List.map_append, List.nodup_append]
    refine ⟨sound.distinct, List.nodup_singleton _, ?_⟩
    intro origin before origin' here
    obtain ⟨given, listed, rfl⟩ := List.mem_map.mp before
    rw [List.map_singleton, List.mem_singleton] at here
    subst here
    exact mintOrigin_new first (sound.counted given listed)
  published := by
    intro key found stored
    rcases Table.get?_set_cases stored with ⟨same, rfl⟩ | ⟨_, stored⟩
    · exact ⟨_, List.mem_append_right _ (List.mem_singleton_self _), same.symm, rfl⟩
    · obtain ⟨given, listed, rest⟩ := sound.published key found stored
      exact ⟨given, List.mem_append_left _ listed, rest⟩
  later := Nat.le_trans sound.later (Nat.le_add_right _ _)

-- A turn that gives no outcome only counts.
theorem count_sound {from' : Nat} {scan counted : BatchScan}
    (sound : scan.Sound localeCompare draw derivedFindingId inventory batch from') {key : String}
    (given : counted.given = scan.given) (outcomes : counted.outcomes = scan.outcomes) (calls : counted.calls = scan.calls + 2)
    (occurrences : counted.occurrences = scan.occurrences.set key ((scan.occurrences.get? key).getD 0 + 1)) :
    counted.Sound localeCompare draw derivedFindingId inventory batch from' where
  safe := given ▸ sound.safe
  counted := by
    intro entry listed
    rw [calls, occurrences]
    exact counted_mono (sound.counted entry (given ▸ listed))
  distinct := given ▸ sound.distinct
  published := by
    rw [given, outcomes]
    exact sound.published
  later := by
    rw [calls]
    exact Nat.le_trans sound.later (Nat.le_add_right _ _)

theorem scanFinding_sound {from' : Nat} {scan : BatchScan}
    (sound : scan.Sound localeCompare draw derivedFindingId inventory batch from') (entry : SubmittedFinding × Nat) :
    (scanFinding localeCompare draw derivedFindingId inventory accepted overlapRoundsLeft batch scan entry).Sound
      localeCompare draw derivedFindingId inventory batch from' := by
  obtain ⟨submitted, findingIndex⟩ := entry
  simp only [scanFinding]
  split
  · exact sound
  · generalize hstep : submitted.step localeCompare inventory accepted overlapRoundsLeft _ = step
    split
    · exact count_sound sound rfl rfl rfl rfl
    · cases step with
      | outcome outcome =>
        apply give_sound sound (Nat.le_refl _) (by omega)
        cases relation : submitted.relation with
        | error complaint =>
          rw [SubmittedFinding.step, relation] at hstep
          cases hstep
        | ok answer =>
          rw [SubmittedFinding.step, relation] at hstep
          exact .inr ⟨answer, relation, reconcile_safe hstep⟩
      | question candidates =>
        simp only
        split
        · exact give_sound sound (Nat.le_succ _) (by omega) (.inl rfl)
        · exact count_sound sound rfl rfl rfl rfl
      | rejected reason =>
        simp only
        split
        · exact give_sound sound (Nat.le_succ _) (by omega) (.inl rfl)
        · exact count_sound sound rfl rfl rfl rfl

theorem scanBatch_sound (calls : Nat) :
    (scanBatch localeCompare draw derivedFindingId inventory accepted overlapRoundsLeft batch calls).Sound
      localeCompare draw derivedFindingId inventory batch calls := by
  rw [scanBatch]
  have start : ({ calls } : BatchScan).Sound localeCompare draw derivedFindingId inventory batch calls := by
    constructor
    · simp
    · simp
    · simp
    · intro key outcome stored
      cases stored
    · exact Nat.le_refl _
  generalize ({ calls } : BatchScan) = scan at start
  induction batch.submitted.zipIdx generalizing scan with
  | nil => exact start
  | cons entry rest ih => exact ih _ (scanFinding_sound start entry)

end Scan

section Main

variable (localeCompare : String → String → Int) (draw : Nat → String) (derivedFindingId : List String → String)
  (inventory : ReconcileInventory)

-- What holds of the outcomes of one batch, published after those of the run.
structure BatchSafe (run : ReconcileRun) (batch : ReconcileBatch) : Prop where
  published : ∀ key outcome, (run.scan localeCompare draw derivedFindingId inventory batch).outcomes.get? key = some outcome →
    ∃ given ∈ (run.scan localeCompare draw derivedFindingId inventory batch).given,
      given.submitted.key = key ∧ given.outcome = outcome
  safe : ∀ given ∈ (run.scan localeCompare draw derivedFindingId inventory batch).given,
    given.Safe localeCompare draw derivedFindingId inventory
  distinct : ((run.scan localeCompare draw derivedFindingId inventory batch).given.map GivenOutcome.origin).Nodup
  -- a draw of the batch is none of the run so far
  undrawn : ∀ given ∈ (run.scan localeCompare draw derivedFindingId inventory batch).given, ∀ call,
    given.origin = .drawn call → ∀ earlier ∈ run.given, earlier.origin ≠ .drawn call

-- Fresh ids have one origin only for the same finding of the same source and head, submitted again in a later batch.
structure RunSafe (run : ReconcileRun) : Prop where
  safe : ∀ given ∈ run.given, given.Safe localeCompare draw derivedFindingId inventory
  origins : run.given.Pairwise fun given later =>
    given.origin = later.origin → ∃ scope key occurrence, given.origin = .derived (scope ++ [key, occurrence])
  batches : ∀ batch, BatchSafe localeCompare draw derivedFindingId inventory run batch

variable {localeCompare draw derivedFindingId inventory}

structure ReconcileRun.Counts (localeCompare : String → String → Int) (draw : Nat → String)
    (derivedFindingId : List String → String) (inventory : ReconcileInventory) (run : ReconcileRun) : Prop where
  safe : ∀ given ∈ run.given, given.Safe localeCompare draw derivedFindingId inventory
  origins : run.given.Pairwise fun given later =>
    given.origin = later.origin → ∃ scope key occurrence, given.origin = .derived (scope ++ [key, occurrence])
  drawn : ∀ given ∈ run.given, ∀ call, given.origin = .drawn call → call < run.calls

theorem counted_drawn {scope : Option (List String)} {calls from' call : Nat} {occurrences : Table String Nat}
    {origin : IdOrigin} (counted : Counted scope calls occurrences from' origin) (drawn : origin = .drawn call) :
    from' ≤ call ∧ call < calls := by
  subst drawn
  exact counted.2

theorem counted_derived {scope : Option (List String)} {calls from' : Nat} {occurrences : Table String Nat}
    {origin : IdOrigin} (counted : Counted scope calls occurrences from' origin) (derived : ∀ call, origin ≠ .drawn call) :
    ∃ inside key occurrence, origin = .derived (inside ++ [key, occurrence]) := by
  cases origin with
  | drawn call => exact absurd rfl (derived call)
  | derived material =>
    obtain ⟨inside, key, occurrence, _, rfl, _⟩ := counted
    exact ⟨inside, key, toString occurrence, rfl⟩

theorem run_counts {run : ReconcileRun}
    (reached : Reaches (reconcileRunStep localeCompare draw derivedFindingId inventory) (fun _ _ => True) {} run) :
    run.Counts localeCompare draw derivedFindingId inventory := by
  have initial : ({} : ReconcileRun).Counts localeCompare draw derivedFindingId inventory :=
    ⟨by simp, List.Pairwise.nil, by simp⟩
  apply reached.invariant (ReconcileRun.Counts localeCompare draw derivedFindingId inventory) initial
  intro run event next counts _ moved
  cases event with
  | setSource =>
    cases moved
    exact ⟨counts.safe, counts.origins, counts.drawn⟩
  | publish batch =>
    have sound : (run.scan localeCompare draw derivedFindingId inventory batch).Sound localeCompare draw derivedFindingId
        inventory batch run.calls := scanBatch_sound run.calls
    simp only [reconcileRunStep] at moved
    generalize run.scan localeCompare draw derivedFindingId inventory batch = scan at sound moved
    split at moved
    · cases moved
      constructor
      · intro given listed
        cases List.mem_append.mp listed with
        | inl before => exact counts.safe given before
        | inr here => exact sound.safe given here
      · apply List.pairwise_append.mpr
        have inside : scan.given.Pairwise fun given later =>
            given.origin = later.origin → ∃ scope key occurrence, given.origin = .derived (scope ++ [key, occurrence]) :=
          (List.pairwise_map.mp sound.distinct).imp fun apart same => absurd same apart
        refine ⟨counts.origins, inside, ?_⟩
        intro given before later here same
        have derived : ∀ call, later.origin ≠ .drawn call := by
          intro call drawn
          have old := counts.drawn given before call (same.trans drawn)
          have new := counted_drawn (sound.counted later here) drawn
          omega
        obtain ⟨scope, key, occurrence, origin⟩ := counted_derived (sound.counted later here) derived
        exact ⟨scope, key, occurrence, same.trans origin⟩
      · intro given listed call drawn
        cases List.mem_append.mp listed with
        | inl before =>
          have old := counts.drawn given before call drawn
          exact Nat.lt_of_lt_of_le old sound.later
        | inr here => exact (counted_drawn (sound.counted given here) drawn).2
    · cases moved
      refine ⟨counts.safe, counts.origins, ?_⟩
      intro given listed call drawn
      exact Nat.lt_of_lt_of_le (counts.drawn given listed call drawn) sound.later

theorem reconciled_runs_safe {run : ReconcileRun}
    (reached : Reaches (reconcileRunStep localeCompare draw derivedFindingId inventory) (fun _ _ => True) {} run) :
    RunSafe localeCompare draw derivedFindingId inventory run := by
  have counts := run_counts reached
  refine ⟨counts.safe, counts.origins, ?_⟩
  intro batch
  have sound : (run.scan localeCompare draw derivedFindingId inventory batch).Sound localeCompare draw derivedFindingId
      inventory batch run.calls := scanBatch_sound run.calls
  refine ⟨sound.published, sound.safe, sound.distinct, ?_⟩
  intro given listed call drawn earlier before same
  have old := counts.drawn earlier before call same
  have new := counted_drawn (sound.counted given listed) drawn
  omega

end Main

section Examples

def heldFinding (id path : String) (state : FindingState) (resolution : Option FindingResolution) : ReconcileFinding where
  id := id
  source := .thread
  url := "https://github.com/acme/api/pull/1#" ++ id
  path := path
  startLine := some 5
  line := some 5
  positionStale := false
  state := state
  resolution := resolution
  severity := .unknown
  createdAt := ""
  hasHumanReplies := false
  commentsComplete := true
  title := "Missing check"

def heldTable : List ReconcileFinding → Table String ReconcileFinding
  | [] => .empty
  | finding :: rest => (heldTable rest).set finding.id finding

theorem heldTable_keyed (findings : List ReconcileFinding) (id : String) (finding : ReconcileFinding)
    (stored : (heldTable findings).get? id = some finding) : finding.id = id := by
  induction findings with
  | nil => cases stored
  | cons first rest ih =>
    rcases Table.get?_set_cases stored with ⟨same, rfl⟩ | ⟨_, stored⟩
    · exact same.symm
    · exact ih stored

-- An open finding, a fixed one with a duplicate, and one of another file with a duplicate in the file.
def heldInventory : ReconcileInventory where
  completeness := .complete
  findings := heldTable [heldFinding "f_open" "a.ts" .open none, heldFinding "f_fixed" "b.ts" .resolved (some .fixed),
    heldFinding "f_twin" "b.ts" .resolved (some .duplicate), heldFinding "f_far" "d.ts" .open none,
    heldFinding "f_copy" "c.ts" .resolved (some .duplicate)]
  canonicalOf := fun id => if id = "f_twin" then some "f_fixed" else if id = "f_copy" then some "f_far" else some id
  keyed := heldTable_keyed _

def missingCheck (file : String) : ReconcileObservation := ⟨⟨file, 5, 5⟩, .p1, "Missing check"⟩

def byLength (left right : String) : Int := left.length - right.length

-- An uncertain answer is posted; a duplicate of a fixed finding is posted again; the finding that an answer reaffirms
-- was not offered; and an id that is minted again is the id of a finding of the inventory.
theorem uncertain_answer_is_posted :
    (∃ links, reconcileObservation byLength (missingCheck "a.ts") (.uncertain ["f_open"]) heldInventory [] 1 "f_new" =
      .outcome (.postThread "f_new" none links)) ∧
    reconcileObservation byLength (missingCheck "b.ts") (.continues "f_twin") heldInventory [] 1 "f_new" =
      .outcome (.postThread "f_new" (some "f_fixed") []) ∧
    (reconcileObservation byLength (missingCheck "c.ts") (.continues "f_copy") heldInventory [] 1 "f_new" =
        .outcome (.reaffirm "f_far" .p1) ∧
      "f_far" ∉ (retrievalCandidates byLength (missingCheck "c.ts").toFindingSpan heldInventory []).map OverlapCandidate.findingId) ∧
    reconcileObservation byLength (missingCheck "a.ts") (.distinctFrom ["f_open"] "other line") heldInventory [] 1 "f_open" =
      .outcome (.postThread "f_open" none []) := by
  refine ⟨⟨_, rfl⟩, ?_, ⟨?_, ?_⟩, ?_⟩ <;> decide +kernel

-- A finding is answered as distinct in one batch and continued in the next.
def twoBatches : List ReconcileEvent :=
  [.publish
    { scope := some ["w1", "c0ffee", "review"]
      submitted := [⟨"k1", missingCheck "a.ts", .ok (.distinctFrom ["f_open"] "other line")⟩]
      posted := [⟨"f_k1", "a.ts", 5, 5, "Missing check", none, ""⟩] },
    .publish { scope := some ["w1", "c0ffee", "review"], submitted := [⟨"k2", missingCheck "a.ts", .ok (.continues "f_open")⟩] }]

def twoBatchRun : ReconcileRun :=
  runTo (reconcileRunStep byLength (fun call => "f_" ++ toString call) (fun material => "f_" ++ " ".intercalate material)
    heldInventory) (fun _ _ => true) twoBatches {} {}

theorem two_batches_safe : RunSafe byLength (fun call => "f_" ++ toString call)
    (fun material => "f_" ++ " ".intercalate material) heldInventory twoBatchRun :=
  reconciled_runs_safe (reaches_runTo twoBatches _ _ (by decide +kernel))

end Examples
end PrAgent
