import PrAgent.ReviewVerdict
import PrAgent.Schedule
import Mathlib.Data.List.Perm.Subperm
set_option autoImplicit false

namespace PrAgent

section Pump

variable {ρ ε : Type}

inductive SpecialistOutcome (ρ ε : Type) where
  | report (specialist : SpecialistId) (report : ρ) (durationMs : Nat)
  | empty (specialist : SpecialistId) (durationMs : Nat) (report : Option ρ)
  | error (specialist : SpecialistId) (error : ε) (durationMs : Nat)

-- Where the pump is between two of its steps: in the promise of `takeCompleted`, after that promise was resolved,
-- with an outcome that `takeCompleted` has returned, or in `onOutcome`.
inductive PumpPhase (ρ ε : Type) where
  | waiting
  | woken
  | taken (outcome : SpecialistOutcome ρ ε)
  | handling (outcome : SpecialistOutcome ρ ε)
  | done

-- `arrivals`, `handled` and `answers` record the settled promises, the calls of `onOutcome` and those of
-- `shouldContinue`, each in order.
structure PumpState (ρ ε : Type) where
  completed : List (SpecialistOutcome ρ ε)
  notifyCompletion : Bool
  outcomes : List (SpecialistOutcome ρ ε)
  consumeOutcomes : Bool
  phase : PumpPhase ρ ε
  arrivals : List (SpecialistId × SpecialistOutcome ρ ε)
  handled : List (SpecialistOutcome ρ ε)
  answers : List Bool

def takeCompleted (state : PumpState ρ ε) : PumpState ρ ε :=
  match state.completed with
  | outcome :: rest => { state with completed := rest, phase := .taken outcome }
  | [] => { state with notifyCompletion := true, phase := .waiting }

variable (pending : Table SpecialistId Unit)

def pumpLoop (state : PumpState ρ ε) : PumpState ρ ε :=
  if state.outcomes.length < pending.rows.length then takeCompleted state else { state with phase := .done }

-- The map of pending promises is known by its keys; a promise is known by its settlement.
def startPump : PumpState ρ ε := pumpLoop pending ⟨[], false, [], true, .done, [], [], []⟩

def completionOf (specialist : SpecialistId) : Except ε (SpecialistOutcome ρ ε) → SpecialistOutcome ρ ε
  | .ok outcome => outcome
  | .error error => .error specialist error 0

def PumpPhase.notified (phase : PumpPhase ρ ε) (notify : Bool) : PumpPhase ρ ε := if notify then .woken else phase

def settleSpecialist (state : PumpState ρ ε) (specialist : SpecialistId) (result : Except ε (SpecialistOutcome ρ ε)) :
    PumpState ρ ε :=
  { state with
    completed := state.completed ++ [completionOf specialist result]
    notifyCompletion := false
    phase := state.phase.notified state.notifyCompletion
    arrivals := state.arrivals ++ [(specialist, completionOf specialist result)] }

def receiveOutcome (state : PumpState ρ ε) (outcome : SpecialistOutcome ρ ε) (shouldContinue : Bool) : PumpState ρ ε :=
  let received := { state with outcomes := state.outcomes ++ [outcome] }
  if state.consumeOutcomes then
    if shouldContinue then
      { received with
        phase := .handling outcome
        handled := state.handled ++ [outcome]
        answers := state.answers ++ [true] }
    else pumpLoop pending { received with consumeOutcomes := false, answers := state.answers ++ [false] }
  else pumpLoop pending received

inductive PumpEvent (ρ ε : Type) where
  | settle (specialist : SpecialistId) (result : Except ε (SpecialistOutcome ρ ε))
  | wake
  | receive (shouldContinue : Bool)
  | handled (failure : Option ε)

-- A handler that fails is logged, and the pump goes on.
def pumpStep (state : PumpState ρ ε) : PumpEvent ρ ε → Option (PumpState ρ ε)
  | .settle specialist result =>
    if specialist ∈ pending.rows.map Prod.fst ∧ specialist ∉ state.arrivals.map Prod.fst then
      some (settleSpecialist state specialist result)
    else none
  | .wake =>
    match state.phase with
    | .woken => some (takeCompleted state)
    | _ => none
  | .receive shouldContinue =>
    match state.phase with
    | .taken outcome => some (receiveOutcome pending state outcome shouldContinue)
    | _ => none
  | .handled _ =>
    match state.phase with
    | .handling _ => some (pumpLoop pending state)
    | _ => none

end Pump

section Invariant

variable {ρ ε : Type} {pending : Table SpecialistId Unit} {state next : PumpState ρ ε}

def PumpPhase.inHand : PumpPhase ρ ε → List (SpecialistOutcome ρ ε)
  | .taken outcome => [outcome]
  | _ => []

-- Where the pump still has an outcome to take.
def PumpPhase.taking : PumpPhase ρ ε → Prop
  | .waiting | .woken | .taken _ => True
  | _ => False

-- What is left of the steps of a run: four for each promise at most.
def PumpPhase.weight : PumpPhase ρ ε → Nat
  | .taken _ => 2
  | .handling _ => 1
  | _ => 0

def pumpMeasure (pending : Table SpecialistId Unit) (state : PumpState ρ ε) : Nat :=
  4 * (pending.rows.length - state.arrivals.length) + 3 * state.completed.length + state.phase.weight

-- Who has settled, how many outcomes were taken, and what became of them; the queue and the phase aside.
structure PumpTally (pending : Table SpecialistId Unit) (state : PumpState ρ ε) : Prop where
  once : (state.arrivals.map Prod.fst).Nodup
  known : ∀ specialist ∈ state.arrivals.map Prod.fst, specialist ∈ pending.rows.map Prod.fst
  bound : state.outcomes.length ≤ pending.rows.length
  consuming : state.consumeOutcomes = true →
    state.handled = state.outcomes ∧ state.answers = List.replicate state.outcomes.length true
  latched : state.consumeOutcomes = false → ∃ n < state.outcomes.length,
    state.handled = state.outcomes.take n ∧ state.answers = List.replicate n true ++ [false]

structure PumpOk (pending : Table SpecialistId Unit) (state : PumpState ρ ε) : Prop extends PumpTally pending state where
  flow : state.outcomes ++ state.phase.inHand ++ state.completed = state.arrivals.map Prod.snd
  notify : state.notifyCompletion = true ↔ state.phase = .waiting
  waiting : state.phase = .waiting → state.completed = []
  woken : state.phase = .woken → state.completed ≠ []
  taking : state.phase.taking → state.outcomes.length < pending.rows.length
  done : state.phase = .done → state.outcomes.length = pending.rows.length

-- What holds where the pump is about to look for its next outcome, whatever it did before.
structure PumpLooking (pending : Table SpecialistId Unit) (state : PumpState ρ ε) : Prop extends PumpTally pending state where
  flow : state.outcomes ++ state.completed = state.arrivals.map Prod.snd
  silent : state.notifyCompletion = false

theorem PumpLooking.take (looking : PumpLooking pending state) (room : state.outcomes.length < pending.rows.length) :
    PumpOk pending (takeCompleted state) := by
  cases queue : state.completed with
  | nil =>
    simp only [takeCompleted, queue]
    constructor
    case toPumpTally => exact { looking with }
    case flow => simpa [PumpPhase.inHand, queue] using looking.flow
    case taking => exact fun _ => room
    all_goals simp
  | cons outcome rest =>
    simp only [takeCompleted, queue]
    constructor
    case toPumpTally => exact { looking with }
    case flow => simpa [PumpPhase.inHand, queue] using looking.flow
    case notify => simp [looking.silent]
    case taking => exact fun _ => room
    all_goals simp

theorem PumpLooking.loop (looking : PumpLooking pending state) : PumpOk pending (pumpLoop pending state) := by
  by_cases more : state.outcomes.length < pending.rows.length
  · rw [pumpLoop, if_pos more]
    exact looking.take more
  · rw [pumpLoop, if_neg more]
    have full : state.outcomes.length = pending.rows.length := Nat.le_antisymm looking.bound (Nat.le_of_not_lt more)
    constructor
    case toPumpTally => exact { looking with }
    case flow => simpa [PumpPhase.inHand] using looking.flow
    case notify => simp [looking.silent]
    case taking => exact fun phase => phase.elim
    case done => exact fun _ => full
    all_goals simp

theorem PumpOk.looking (ok : PumpOk pending state) (empty : state.phase.inHand = []) (moving : state.phase ≠ .waiting) :
    PumpLooking pending state := by
  refine ⟨ok.toPumpTally, ?_, ?_⟩
  · simpa [empty] using ok.flow
  · exact Bool.eq_false_iff.mpr fun notified => moving (ok.notify.mp notified)

theorem takeCompleted_measure (nonempty : state.completed ≠ []) :
    pumpMeasure pending (takeCompleted state) + 1 =
      4 * (pending.rows.length - state.arrivals.length) + 3 * state.completed.length := by
  cases queue : state.completed with
  | nil => exact absurd queue nonempty
  | cons outcome rest =>
    simp only [takeCompleted, queue, pumpMeasure, PumpPhase.weight, List.length_cons]
    omega

theorem pumpLoop_measure (state : PumpState ρ ε) :
    pumpMeasure pending (pumpLoop pending state) ≤
      4 * (pending.rows.length - state.arrivals.length) + 3 * state.completed.length := by
  by_cases more : state.outcomes.length < pending.rows.length
  · rw [pumpLoop, if_pos more]
    cases queue : state.completed with
    | nil => simp [takeCompleted, queue, pumpMeasure, PumpPhase.weight]
    | cons outcome rest =>
      have taken := @takeCompleted_measure ρ ε pending state (by simp [queue])
      rw [queue] at taken
      omega
  · rw [pumpLoop, if_neg more]
    simp [pumpMeasure, PumpPhase.weight]

theorem startPump_ok (pending : Table SpecialistId Unit) : PumpOk pending (startPump pending : PumpState ρ ε) := by
  refine PumpLooking.loop ⟨⟨List.nodup_nil, ?_, Nat.zero_le _, fun _ => ⟨rfl, rfl⟩, ?_⟩, rfl, rfl⟩
  · simp
  · simp

theorem startPump_measure (pending : Table SpecialistId Unit) :
    pumpMeasure pending (startPump pending : PumpState ρ ε) ≤ 4 * pending.rows.length := by
  rw [startPump]
  exact pumpLoop_measure ⟨[], false, [], true, .done, [], [], []⟩

section Ok

variable (ok : PumpOk pending state)
include ok

theorem PumpOk.arrived : state.arrivals.length ≤ pending.rows.length := by
  have within := (List.subperm_of_subset ok.once ok.known).length_le
  simpa using within

-- A settlement wakes the pump that waits, and leaves any other where it is.
theorem PumpOk.notified :
    (state.phase ≠ .waiting ∧ state.phase.notified state.notifyCompletion = state.phase) ∨
      (state.phase = .waiting ∧ state.phase.notified state.notifyCompletion = .woken) := by
  cases set : state.notifyCompletion with
  | false => exact .inl ⟨fun waiting => absurd (ok.notify.mpr waiting) (by simp [set]), rfl⟩
  | true => exact .inr ⟨ok.notify.mp set, rfl⟩

theorem PumpOk.settle {specialist : SpecialistId}
    (listed : specialist ∈ pending.rows.map Prod.fst) (fresh : specialist ∉ state.arrivals.map Prod.fst)
    (result : Except ε (SpecialistOutcome ρ ε)) : PumpOk pending (settleSpecialist state specialist result) := by
  have hand : (state.phase.notified state.notifyCompletion).inHand = state.phase.inHand := by
    rcases ok.notified with ⟨-, same⟩ | ⟨waiting, woken⟩
    · rw [same]
    · rw [woken, waiting]
      rfl
  have moved : state.phase.notified state.notifyCompletion ≠ .waiting := by
    rcases ok.notified with ⟨other, same⟩ | ⟨-, woken⟩
    · rwa [same]
    · simp [woken]
  constructor
  case toPumpTally =>
    refine ⟨?_, ?_, ok.bound, ok.consuming, ok.latched⟩
    · simp only [settleSpecialist, List.map_append, List.map_cons, List.map_nil]
      refine List.nodup_append.mpr ⟨ok.once, List.nodup_singleton _, ?_⟩
      rintro other before _ here rfl
      exact fresh (List.mem_singleton.mp here ▸ before)
    · intro other inside
      simp only [settleSpecialist, List.map_append, List.map_cons, List.map_nil, List.mem_append, List.mem_singleton] at inside
      cases inside with
      | inl before => exact ok.known other before
      | inr here => exact here ▸ listed
  case flow =>
    have before := ok.flow
    simp only [settleSpecialist, hand, List.map_append, List.map_cons, List.map_nil, ← before, List.append_assoc]
  case notify => exact ⟨fun set => Bool.noConfusion set, fun waiting => absurd waiting moved⟩
  case waiting => exact fun waiting => absurd waiting moved
  case woken => simp [settleSpecialist]
  case taking =>
    intro taking
    rcases ok.notified with ⟨-, same⟩ | ⟨waiting, -⟩
    · exact ok.taking (same ▸ taking)
    · exact ok.taking (by rw [waiting]; trivial)
  case done =>
    intro done
    rcases ok.notified with ⟨-, same⟩ | ⟨-, woken⟩
    · exact ok.done (same.symm.trans done)
    · exact absurd (woken.symm.trans done) (by simp)

theorem settle_measure {specialist : SpecialistId}
    (listed : specialist ∈ pending.rows.map Prod.fst) (fresh : specialist ∉ state.arrivals.map Prod.fst)
    (result : Except ε (SpecialistOutcome ρ ε)) :
    pumpMeasure pending (settleSpecialist state specialist result) < pumpMeasure pending state := by
  have later := (ok.settle listed fresh result).arrived
  have weight : (state.phase.notified state.notifyCompletion).weight = state.phase.weight := by
    rcases ok.notified with ⟨-, same⟩ | ⟨waiting, woken⟩
    · rw [same]
    · rw [woken, waiting]
      rfl
  simp only [settleSpecialist, List.length_append, List.length_singleton] at later
  simp only [pumpMeasure, settleSpecialist, weight, List.length_append, List.length_singleton]
  omega

theorem PumpOk.receive {outcome : SpecialistOutcome ρ ε} (taken : state.phase = .taken outcome)
    (shouldContinue : Bool) :
    PumpOk pending (receiveOutcome pending state outcome shouldContinue) ∧
      pumpMeasure pending (receiveOutcome pending state outcome shouldContinue) < pumpMeasure pending state := by
  have room : state.outcomes.length < pending.rows.length := ok.taking (by rw [taken]; trivial)
  have silent : state.notifyCompletion = false :=
    Bool.eq_false_iff.mpr fun notified => absurd (taken.symm.trans (ok.notify.mp notified)) (by simp)
  have flow : (state.outcomes ++ [outcome]) ++ state.completed = state.arrivals.map Prod.snd := by
    simpa [taken, PumpPhase.inHand] using ok.flow
  have grown : (state.outcomes ++ [outcome]).length = state.outcomes.length + 1 := by simp
  have measured : pumpMeasure pending state =
      4 * (pending.rows.length - state.arrivals.length) + 3 * state.completed.length + 2 := by
    rw [pumpMeasure, taken]
    rfl
  cases consume : state.consumeOutcomes with
  | true =>
    obtain ⟨handled, answers⟩ := ok.consuming consume
    cases shouldContinue with
    | true =>
      simp only [receiveOutcome, consume, if_true]
      constructor
      · constructor
        case toPumpTally =>
          refine ⟨ok.once, ok.known, grown ▸ room, fun _ => ?_, by simp⟩
          exact ⟨congrArg (· ++ [outcome]) handled, by simp [answers, List.replicate_succ']⟩
        case flow => simpa [PumpPhase.inHand] using flow
        case notify => simp [silent]
        case taking => exact fun phase => phase.elim
        all_goals simp
      · rw [measured]
        exact Nat.lt_succ_self _
    | false =>
      simp only [receiveOutcome, consume, if_true, Bool.false_eq_true, if_false]
      constructor
      · refine PumpLooking.loop ⟨⟨ok.once, ok.known, grown ▸ room, ?_, ?_⟩, flow, silent⟩
        · exact fun consuming => Bool.noConfusion consuming
        · refine fun _ => ⟨state.outcomes.length, by simp, ?_, ?_⟩
          · simp [handled]
          · simp [answers]
      · rw [measured]
        exact Nat.lt_of_le_of_lt (pumpLoop_measure _) (by simp)
  | false =>
    simp only [receiveOutcome, consume, Bool.false_eq_true, if_false]
    obtain ⟨n, less, handled, answers⟩ := ok.latched consume
    constructor
    · refine PumpLooking.loop ⟨⟨ok.once, ok.known, grown ▸ room, ?_, ?_⟩, flow, silent⟩
      · simp
      · refine fun _ => ⟨n, by rw [grown]; omega, ?_, answers⟩
        rw [List.take_append_of_le_length (Nat.le_of_lt less)]
        exact handled
    · rw [measured]
      exact Nat.lt_of_le_of_lt (pumpLoop_measure _) (by simp)

end Ok

theorem pumpStep_ok (event : PumpEvent ρ ε) (ok : PumpOk pending state) (moved : pumpStep pending state event = some next) :
    PumpOk pending next ∧ pumpMeasure pending next < pumpMeasure pending state := by
  cases event with
  | settle specialist result =>
    by_cases fresh : specialist ∈ pending.rows.map Prod.fst ∧ specialist ∉ state.arrivals.map Prod.fst
    · rw [pumpStep, if_pos fresh, Option.some.injEq] at moved
      exact moved ▸ ⟨ok.settle fresh.1 fresh.2 result, settle_measure ok fresh.1 fresh.2 result⟩
    · rw [pumpStep, if_neg fresh] at moved
      cases moved
  | wake =>
    cases phase : state.phase with
    | woken =>
      simp only [pumpStep, phase, Option.some.injEq] at moved
      have looking := ok.looking (by rw [phase]; rfl) (by simp [phase])
      have measure := @takeCompleted_measure ρ ε pending state (ok.woken phase)
      refine moved ▸ ⟨looking.take (ok.taking (by rw [phase]; trivial)), ?_⟩
      have weight : state.phase.weight = 0 := by rw [phase]; rfl
      rw [pumpMeasure.eq_def pending state, weight]
      omega
    | waiting => simp [pumpStep, phase] at moved
    | taken outcome => simp [pumpStep, phase] at moved
    | handling outcome => simp [pumpStep, phase] at moved
    | done => simp [pumpStep, phase] at moved
  | receive shouldContinue =>
    cases phase : state.phase with
    | taken outcome =>
      simp only [pumpStep, phase, Option.some.injEq] at moved
      exact moved ▸ ok.receive phase shouldContinue
    | waiting => simp [pumpStep, phase] at moved
    | woken => simp [pumpStep, phase] at moved
    | handling outcome => simp [pumpStep, phase] at moved
    | done => simp [pumpStep, phase] at moved
  | handled failure =>
    cases phase : state.phase with
    | handling outcome =>
      simp only [pumpStep, phase, Option.some.injEq] at moved
      have looking := ok.looking (by rw [phase]; rfl) (by simp [phase])
      have measure := @pumpLoop_measure ρ ε pending state
      refine moved ▸ ⟨looking.loop, ?_⟩
      have weight : state.phase.weight = 1 := by rw [phase]; rfl
      rw [pumpMeasure.eq_def pending state, weight]
      omega
    | waiting => simp [pumpStep, phase] at moved
    | woken => simp [pumpStep, phase] at moved
    | taken outcome => simp [pumpStep, phase] at moved
    | done => simp [pumpStep, phase] at moved

theorem pumpOk_schedule (pending : Table SpecialistId Unit) (events : List (PumpEvent ρ ε)) :
    PumpOk pending (schedule (pumpStep pending) (startPump pending) events) :=
  schedule_invariant (PumpOk pending) (fun _ event _ ok moved => (pumpStep_ok event ok moved).1) events (startPump_ok pending)

-- A pump that can take no step, with every promise settled, is done.
theorem PumpOk.finished (ok : PumpOk pending state) (stuck : ∀ event : PumpEvent ρ ε, pumpStep pending state event = none)
    (settled : ∀ specialist ∈ pending.rows.map Prod.fst, specialist ∈ state.arrivals.map Prod.fst) : state.phase = .done := by
  cases phase : state.phase with
  | done => rfl
  | woken => exact absurd (stuck .wake) (by simp [pumpStep, phase])
  | taken outcome => exact absurd (stuck (.receive true)) (by simp [pumpStep, phase])
  | handling outcome => exact absurd (stuck (.handled none)) (by simp [pumpStep, phase])
  | waiting =>
    have all := (List.subperm_of_subset pending.unique settled).length_le
    have short := ok.taking (by rw [phase]; trivial)
    have flow := congrArg List.length ok.flow
    rw [phase, ok.waiting phase] at flow
    simp only [PumpPhase.inHand, List.append_nil, List.length_map] at flow
    simp only [List.length_map] at all
    omega

end Invariant

section Runs

variable {ρ ε : Type}

-- No schedule loses a wake-up: the pump takes at most four steps for each specialist, and where it can take no more it
-- has returned the outcome of every specialist once, in the order in which they came.
theorem pump_returns_every_outcome (pending : Table SpecialistId Unit) (events : List (PumpEvent ρ ε)) :
    let state := schedule (pumpStep pending) (startPump pending) events
    happened (pumpStep pending) (startPump pending) events ≤ 4 * pending.rows.length ∧
      state.outcomes <+: state.arrivals.map Prod.snd ∧
      ((∀ event, pumpStep pending state event = none) →
        state.phase = .done ∧ state.outcomes = state.arrivals.map Prod.snd ∧
          (state.arrivals.map Prod.fst).Perm (pending.rows.map Prod.fst)) := by
  intro state
  have ok : PumpOk pending state := pumpOk_schedule pending events
  refine ⟨?_, ?_, fun stuck => ?_⟩
  · have used := happened_add_le (PumpOk pending) (pumpMeasure pending)
      (fun _ event _ before moved => (pumpStep_ok event before moved).1)
      (fun _ event _ before moved => (pumpStep_ok event before moved).2) events (startPump_ok pending)
    exact Nat.le_trans (Nat.le_of_add_right_le used) (startPump_measure pending)
  · rw [← ok.flow, List.append_assoc]
    exact List.prefix_append _ _
  · have settled : ∀ specialist ∈ pending.rows.map Prod.fst, specialist ∈ state.arrivals.map Prod.fst := by
      intro specialist listed
      by_contra fresh
      have none := stuck (.settle specialist (.ok (.empty specialist 0 none)))
      rw [pumpStep, if_pos ⟨listed, fresh⟩] at none
      cases none
    have done := ok.finished stuck settled
    have perm : (state.arrivals.map Prod.fst).Perm (pending.rows.map Prod.fst) :=
      (List.subperm_of_subset ok.once ok.known).antisymm (List.subperm_of_subset pending.unique settled)
    have flow := ok.flow
    have length := congrArg List.length flow
    have count := perm.length_eq
    simp only [done, PumpPhase.inHand, List.append_nil, List.length_append, List.length_map] at length count flow
    have empty : state.completed = [] := List.eq_nil_of_length_eq_zero (by have := ok.done done; omega)
    exact ⟨done, by simpa [empty] using flow, perm⟩

-- The handler sees the outcomes in order, each once, up to the first one at which the run was not to go on; from then
-- on the pump asks no more.
theorem pump_handles_until_stopped (pending : Table SpecialistId Unit) (events : List (PumpEvent ρ ε)) :
    let state := schedule (pumpStep pending) (startPump pending) events
    ∃ n ≤ state.outcomes.length, state.handled = state.outcomes.take n ∧
      state.answers = List.replicate n true ++ if n < state.outcomes.length then [false] else [] := by
  intro state
  have ok : PumpOk pending state := pumpOk_schedule pending events
  cases consume : state.consumeOutcomes with
  | true =>
    obtain ⟨handled, answers⟩ := ok.consuming consume
    exact ⟨state.outcomes.length, Nat.le_refl _, by simp [handled], by simp [answers]⟩
  | false =>
    obtain ⟨n, less, handled, answers⟩ := ok.latched consume
    exact ⟨n, Nat.le_of_lt less, handled, by rw [if_pos less]; exact answers⟩

end Runs
end PrAgent
