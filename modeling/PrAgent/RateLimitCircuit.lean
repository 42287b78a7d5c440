import PrAgent.Schedule
import PrAgent.Streaks
set_option autoImplicit false

namespace PrAgent

section Circuit

def rateLimitCircuitThreshold : Nat := 3

def sharedRateLimitCircuitCooldownMs : Nat := 60000

inductive RateLimitFailureClass where
  | primary
  | secondary
deriving DecidableEq

structure RateLimitCircuit where
  threshold : Nat
  consecutive : Nat
  opened : Bool
  openUntilMs : Option Nat

def createRateLimitCircuit (threshold : Nat) : RateLimitCircuit := ⟨threshold, 0, false, none⟩

namespace RateLimitCircuit

def clearExpiredSharedOpen (circuit : RateLimitCircuit) (now : Nat) : RateLimitCircuit × Bool :=
  match circuit.opened, circuit.openUntilMs with
  | true, some untilMs => if now < untilMs then (circuit, true) else (⟨circuit.threshold, 0, false, none⟩, false)
  | opened, _ => (circuit, opened)

def isOpen (circuit : RateLimitCircuit) (now : Nat) : Bool := (circuit.clearExpiredSharedOpen now).2

def recordSuccess (circuit : RateLimitCircuit) (now : Nat) : RateLimitCircuit :=
  match circuit.opened, circuit.openUntilMs with
  | true, some untilMs =>
    if untilMs ≤ now then ⟨circuit.threshold, 0, false, none⟩ else { circuit with consecutive := 0 }
  | _, _ => { circuit with consecutive := 0 }

-- The flag says that the failure opened the circuit; `onOpened` is called then.
def recordFailure (circuit : RateLimitCircuit) (now : Nat) : RateLimitCircuit × Bool :=
  let cleared := circuit.clearExpiredSharedOpen now
  if cleared.2 then (cleared.1, false)
  else
    let counted : RateLimitCircuit := { cleared.1 with consecutive := cleared.1.consecutive + 1 }
    if counted.consecutive < counted.threshold then (counted, false)
    else ({ counted with opened := true, openUntilMs := none }, true)

def hydrateOpenFromShared (circuit : RateLimitCircuit) (now : Nat) (openUntil : Option Nat) : RateLimitCircuit :=
  let untilMs := openUntil.getD (now + sharedRateLimitCircuitCooldownMs)
  if untilMs ≤ now then circuit
  else { circuit with opened := true, openUntilMs := some untilMs, consecutive := circuit.threshold }

end RateLimitCircuit

def essentialGithubToolNames : List String :=
  ["publish_thread", "publish_summary", "submit_specialist_brief", "submitVerification", "submitTriage",
    "submitDescription"]

def githubApiToolNames : List String := essentialGithubToolNames ++ ["searchCode"]

def shouldShortCircuitGithubTool (circuit : RateLimitCircuit) (now : Nat) (toolName : String) : Bool :=
  if !circuit.isOpen now then false
  else if toolName ∉ githubApiToolNames then false
  else if toolName ∈ essentialGithubToolNames then false
  else true

end Circuit

section Requests

-- What a request to GitHub came to: `failed` once its retries of a rate limit are exhausted.
inductive RequestOutcome where
  | success
  | failed (kind : RateLimitFailureClass)
deriving DecidableEq

def RequestOutcome.isFailure : RequestOutcome → Bool
  | .success => false
  | .failed _ => true

-- A circuit with its clock. `seen` and `announced` list what it was told and the failures for which it called
-- `onOpened`, the latest first, each with its time.
structure CircuitRun where
  circuit : RateLimitCircuit
  now : Nat
  seen : List (Nat × RequestOutcome)
  announced : List (Nat × RateLimitFailureClass)

-- The circuit of a run that found the circuit of the installation open until some time, or that found it closed.
def openCircuit (threshold start : Nat) (shared : Option Nat) : CircuitRun :=
  let created := createRateLimitCircuit threshold
  ⟨match shared with
    | some untilMs => created.hydrateOpenFromShared start (some untilMs)
    | none => created, start, [], []⟩

-- An outcome that comes some milliseconds after the one before it.
def circuitStep (run : CircuitRun) (event : Nat × RequestOutcome) : CircuitRun :=
  let now := run.now + event.1
  let seen := (now, event.2) :: run.seen
  match event.2 with
  | .success => ⟨run.circuit.recordSuccess now, now, seen, run.announced⟩
  | .failed kind =>
    let recorded := run.circuit.recordFailure now
    ⟨recorded.1, now, seen, if recorded.2 then (now, kind) :: run.announced else run.announced⟩

def isFailedOutcome (entry : Nat × RequestOutcome) : Bool := entry.2.isFailure

-- The outcomes that count: those that did not fall into the time for which the circuit was found open.
def countedOutcomes (shared : Option Nat) (seen : List (Nat × RequestOutcome)) : List (Nat × RequestOutcome) :=
  seen.filter fun entry => decide (∀ untilMs ∈ shared, untilMs ≤ entry.1)

end Requests

section Exact

variable {threshold start : Nat} {shared : Option Nat} {run : CircuitRun}

-- Where the circuit is: still in the time for which it was found open, closed, or opened by the run itself.
inductive CircuitPhase (threshold : Nat) (shared : Option Nat) (run : CircuitRun) : Prop where
  | honoured (untilMs : Nat) (found : shared = some untilMs)
      (circuit : ∃ consecutive, run.circuit = ⟨threshold, consecutive, true, some untilMs⟩)
      (none : countedOutcomes shared run.seen = []) (silent : run.announced = [])
  | closed (passed : ∀ untilMs ∈ shared, untilMs ≤ run.now)
      (circuit : run.circuit = ⟨threshold, streak isFailedOutcome (countedOutcomes shared run.seen), false, none⟩)
      (below : streak isFailedOutcome (countedOutcomes shared run.seen) < max threshold 1)
      (quiet : ¬ Burst isFailedOutcome (max threshold 1) (countedOutcomes shared run.seen)) (silent : run.announced = [])
  | opened (passed : ∀ untilMs ∈ shared, untilMs ≤ run.now)
      (circuit : ∃ consecutive, run.circuit = ⟨threshold, consecutive, true, none⟩)
      (burst : Burst isFailedOutcome (max threshold 1) (countedOutcomes shared run.seen))
      (once : run.announced.length = 1)

theorem max_threshold_pos (threshold : Nat) : 0 < max threshold 1 :=
  Nat.lt_of_lt_of_le Nat.zero_lt_one (Nat.le_max_right _ _)

theorem counted_passed {now : Nat} (seen : List (Nat × RequestOutcome)) (passed : ∀ untilMs ∈ shared, untilMs ≤ now)
    (outcome : RequestOutcome) :
    countedOutcomes shared ((now, outcome) :: seen) = (now, outcome) :: countedOutcomes shared seen := by
  rw [countedOutcomes, List.filter_cons_of_pos (by simpa using passed)]
  rfl

theorem counted_early {now untilMs : Nat} {seen : List (Nat × RequestOutcome)} (found : shared = some untilMs)
    (early : now < untilMs) (outcome : RequestOutcome) :
    countedOutcomes shared ((now, outcome) :: seen) = countedOutcomes shared seen := by
  rw [countedOutcomes, List.filter_cons_of_neg (by simpa [found] using early)]
  rfl

theorem openCircuit_phase (threshold start : Nat) (shared : Option Nat) :
    CircuitPhase threshold shared (openCircuit threshold start shared) := by
  have quiet : ¬ Burst isFailedOutcome (max threshold 1) (countedOutcomes shared []) := burst_nil (max_threshold_pos threshold)
  cases shared with
  | none => exact .closed (by simp) rfl (max_threshold_pos threshold) quiet rfl
  | some untilMs =>
    by_cases late : untilMs ≤ start
    · refine .closed (by simpa [openCircuit] using late) ?_ (max_threshold_pos threshold) quiet rfl
      simp [openCircuit, RateLimitCircuit.hydrateOpenFromShared, late, createRateLimitCircuit, countedOutcomes]
    · refine .honoured untilMs rfl ⟨threshold, ?_⟩ rfl rfl
      simp [openCircuit, RateLimitCircuit.hydrateOpenFromShared, late, createRateLimitCircuit]

-- A failure that is counted on a closed circuit.
theorem recordFailure_closed (consecutive now : Nat) :
    RateLimitCircuit.recordFailure ⟨threshold, consecutive, false, none⟩ now =
      if consecutive + 1 < threshold then (⟨threshold, consecutive + 1, false, none⟩, false)
      else (⟨threshold, consecutive + 1, true, none⟩, true) := rfl

variable {now : Nat} {counted seen : List (Nat × RequestOutcome)}

theorem success_phase (passed : ∀ untilMs ∈ shared, untilMs ≤ now) (same : countedOutcomes shared seen = (now, .success) :: counted)
    (quiet : ¬ Burst isFailedOutcome (max threshold 1) counted) :
    CircuitPhase threshold shared ⟨⟨threshold, 0, false, none⟩, now, seen, []⟩ := by
  have ended : streak isFailedOutcome ((now, .success) :: counted) = 0 := by
    rw [streak_cons]
    rfl
  refine .closed passed ?_ ?_ ?_ rfl
  · simp only [same, ended]
  · simp only [same, ended]
    exact max_threshold_pos threshold
  · simp only [same, burst_cons, ended]
    rintro (large | before)
    · exact Nat.not_lt_zero 0 (Nat.lt_of_lt_of_le (max_threshold_pos threshold) large)
    · exact quiet before

theorem failure_phase {kind : RateLimitFailureClass} (passed : ∀ untilMs ∈ shared, untilMs ≤ now)
    (same : countedOutcomes shared seen = (now, .failed kind) :: counted)
    (quiet : ¬ Burst isFailedOutcome (max threshold 1) counted)
    {recorded : RateLimitCircuit × Bool}
    (records : recorded = RateLimitCircuit.recordFailure ⟨threshold, streak isFailedOutcome counted, false, none⟩ now) :
    CircuitPhase threshold shared ⟨recorded.1, now, seen, if recorded.2 then [(now, kind)] else []⟩ := by
  have grown : streak isFailedOutcome ((now, .failed kind) :: counted) = streak isFailedOutcome counted + 1 := by
    rw [streak_cons]
    rfl
  subst records
  rw [recordFailure_closed]
  by_cases below : streak isFailedOutcome counted + 1 < threshold
  · rw [if_pos below]
    refine .closed passed ?_ ?_ ?_ rfl
    · simp only [same, grown]
    · simp only [same, grown]
      exact Nat.lt_of_lt_of_le below (Nat.le_max_left _ _)
    · simp only [same, burst_cons, grown]
      rintro (large | before)
      · exact absurd (Nat.le_trans (Nat.le_max_left _ _) large) (Nat.not_le.mpr below)
      · exact quiet before
  · rw [if_neg below]
    refine .opened passed ⟨_, rfl⟩ ?_ rfl
    simp only [same, burst_cons, grown]
    exact .inl (Nat.max_le.mpr ⟨Nat.le_of_not_lt below, Nat.le_add_left _ _⟩)

theorem circuitStep_phase (event : Nat × RequestOutcome) (phase : CircuitPhase threshold shared run) :
    CircuitPhase threshold shared (circuitStep run event) := by
  obtain ⟨elapsed, outcome⟩ := event
  have later : ∀ {bound : Option Nat}, (∀ untilMs ∈ bound, untilMs ≤ run.now) →
      ∀ untilMs ∈ bound, untilMs ≤ run.now + elapsed :=
    fun passed untilMs listed => Nat.le_add_right_of_le (passed untilMs listed)
  cases phase with
  | honoured untilMs found circuit none silent =>
    obtain ⟨consecutive, circuit⟩ := circuit
    by_cases early : run.now + elapsed < untilMs
    · have same : countedOutcomes shared ((run.now + elapsed, outcome) :: run.seen) = [] :=
        (counted_early found early outcome).trans none
      cases outcome with
      | success =>
        refine .honoured untilMs found ⟨0, ?_⟩ same silent
        simp [circuitStep, circuit, RateLimitCircuit.recordSuccess, Nat.not_le.mpr early]
      | failed kind =>
        refine .honoured untilMs found ⟨consecutive, ?_⟩ same ?_
        · simp [circuitStep, circuit, RateLimitCircuit.recordFailure, RateLimitCircuit.clearExpiredSharedOpen, early]
        · simp [circuitStep, circuit, RateLimitCircuit.recordFailure, RateLimitCircuit.clearExpiredSharedOpen, early,
            silent]
    · have passed : ∀ bound ∈ shared, bound ≤ run.now + elapsed := by
        simpa [found] using early
      have same := counted_passed run.seen passed outcome
      rw [none] at same
      cases outcome with
      | success =>
        simp only [circuitStep, circuit, RateLimitCircuit.recordSuccess, if_pos (Nat.le_of_not_lt early), silent]
        exact success_phase passed same (burst_nil (max_threshold_pos threshold))
      | failed kind =>
        have cleared : run.circuit.recordFailure (run.now + elapsed) =
            RateLimitCircuit.recordFailure ⟨threshold, 0, false, .none⟩ (run.now + elapsed) := by
          rw [circuit]
          simp [RateLimitCircuit.recordFailure, RateLimitCircuit.clearExpiredSharedOpen, early]
        simp only [circuitStep, silent]
        exact failure_phase passed same (burst_nil (max_threshold_pos threshold)) cleared
  | closed passed circuit below quiet silent =>
    have same := counted_passed run.seen (later passed) outcome
    cases outcome with
    | success =>
      simp only [circuitStep, circuit, RateLimitCircuit.recordSuccess, silent]
      exact success_phase (later passed) same quiet
    | failed kind =>
      simp only [circuitStep, silent]
      exact failure_phase (later passed) same quiet (by rw [circuit])
  | opened passed circuit burst once =>
    obtain ⟨consecutive, circuit⟩ := circuit
    have same := counted_passed run.seen (later passed) outcome
    have still : Burst isFailedOutcome (max threshold 1)
        (countedOutcomes shared ((run.now + elapsed, outcome) :: run.seen)) := by
      rw [same, burst_cons]
      exact .inr burst
    cases outcome with
    | success =>
      refine .opened (later passed) ⟨0, ?_⟩ still once
      simp [circuitStep, circuit, RateLimitCircuit.recordSuccess]
    | failed kind =>
      refine .opened (later passed) ⟨consecutive, ?_⟩ still ?_
      · simp [circuitStep, circuit, RateLimitCircuit.recordFailure, RateLimitCircuit.clearExpiredSharedOpen]
      · simp [circuitStep, circuit, RateLimitCircuit.recordFailure, RateLimitCircuit.clearExpiredSharedOpen, once]

theorem circuit_phase (threshold start : Nat) (shared : Option Nat) (events : List (Nat × RequestOutcome)) :
    CircuitPhase threshold shared (events.foldl circuitStep (openCircuit threshold start shared)) := by
  induction events using List.reverseRecOn with
  | nil => exact openCircuit_phase threshold start shared
  | append_singleton events event ih =>
    rw [List.foldl_append]
    exact circuitStep_phase event ih

theorem circuit_now_le (events : List (Nat × RequestOutcome)) (run : CircuitRun) :
    run.now ≤ (events.foldl circuitStep run).now := by
  induction events generalizing run with
  | nil => exact Nat.le_refl _
  | cons event rest ih =>
    refine Nat.le_trans ?_ (ih (circuitStep run event))
    obtain ⟨elapsed, outcome⟩ := event
    cases outcome with
    | success => exact Nat.le_add_right _ _
    | failed kind => exact Nat.le_add_right _ _

-- The circuit of a run is open exactly until the time for which it was found open, and from the first time on that as
-- many requests in a row have failed as the threshold says; it announces that once, and never closes again.
theorem circuit_open_exact (threshold start : Nat) (shared : Option Nat) (events : List (Nat × RequestOutcome)) :
    let run := events.foldl circuitStep (openCircuit threshold start shared)
    let counted := countedOutcomes shared run.seen
    (∀ wait, run.circuit.isOpen (run.now + wait) = true ↔
      (∃ untilMs ∈ shared, start < untilMs ∧ run.now + wait < untilMs) ∨ Burst isFailedOutcome (max threshold 1) counted) ∧
      (Burst isFailedOutcome (max threshold 1) counted → run.announced.length = 1) ∧
      (¬ Burst isFailedOutcome (max threshold 1) counted → run.announced = []) := by
  intro run counted
  have begun : start ≤ run.now := circuit_now_le events (openCircuit threshold start shared)
  cases circuit_phase threshold start shared events with
  | honoured untilMs found circuit none silent =>
    obtain ⟨consecutive, circuit⟩ := circuit
    have quiet : ¬ Burst isFailedOutcome (max threshold 1) counted := by
      simp only [counted, run, none]
      exact burst_nil (max_threshold_pos threshold)
    refine ⟨fun wait => ?_, fun burst => absurd burst quiet, fun _ => silent⟩
    have stays : run.circuit.isOpen (run.now + wait) = true ↔ run.now + wait < untilMs := by
      by_cases early : run.now + wait < untilMs
      · simp [run, circuit, RateLimitCircuit.isOpen, RateLimitCircuit.clearExpiredSharedOpen] at early ⊢
        simp [early]
      · simp [run, circuit, RateLimitCircuit.isOpen, RateLimitCircuit.clearExpiredSharedOpen] at early ⊢
        simp [Nat.not_lt.mpr early]
    rw [stays]
    constructor
    · exact fun early => .inl ⟨untilMs, found, by omega, early⟩
    · rintro (⟨bound, listed, -, early⟩ | burst)
      · obtain rfl : bound = untilMs := by simpa [found, eq_comm] using listed
        exact early
      · exact absurd burst quiet
  | closed passed circuit below quiet silent =>
    refine ⟨fun wait => ?_, fun burst => absurd burst quiet, fun _ => silent⟩
    have shut : run.circuit.isOpen (run.now + wait) = false := by
      simp [run, circuit, RateLimitCircuit.isOpen, RateLimitCircuit.clearExpiredSharedOpen]
    rw [shut]
    constructor
    · exact fun opened => Bool.noConfusion opened
    · rintro (⟨bound, listed, -, early⟩ | burst)
      · have before : bound ≤ run.now := passed bound listed
        omega
      · exact absurd burst quiet
  | opened passed circuit burst once =>
    obtain ⟨consecutive, circuit⟩ := circuit
    refine ⟨fun wait => ?_, fun _ => once, fun quiet => absurd burst quiet⟩
    have stays : run.circuit.isOpen (run.now + wait) = true := by
      simp [run, circuit, RateLimitCircuit.isOpen, RateLimitCircuit.clearExpiredSharedOpen]
    exact ⟨fun _ => .inr burst, fun _ => stays⟩

end Exact
end PrAgent
