import PrAgent.ExecutorPool
set_option autoImplicit false

namespace PrAgent

section Gate

def codeModeHostInFlight : Nat := 4

def codeModeMaxToolCalls : Nat := 25

-- A waiter is the call whose promise its closure resolves; a call whose promise is rejected has thrown.
structure GateState where
  aborted : Bool
  admittedCalls : Nat
  inFlight : Nat
  waiters : List Nat
  woken : List Nat
  running : List Nat
  started : List Nat
  thrown : List Nat

def GateState.idle : GateState := ⟨false, 0, 0, [], [], [], [], []⟩

def GateState.throw (state : GateState) (call : Nat) : GateState := { state with thrown := call :: state.thrown }

-- `acquireInFlight` up to its next await.
def acquireInFlight (state : GateState) (call : Nat) : GateState :=
  if codeModeHostInFlight ≤ state.inFlight then
    if state.aborted then state.throw call else { state with waiters := state.waiters ++ [call] }
  else { state with inFlight := state.inFlight + 1, running := call :: state.running }

-- The closure of a call that has thrown resolves nothing.
def releaseInFlight (state : GateState) : GateState :=
  match state.waiters with
  | [] => { state with inFlight := state.inFlight - 1 }
  | first :: rest =>
    { state with
      inFlight := state.inFlight - 1
      waiters := rest
      woken := if first ∈ state.thrown then state.woken else state.woken ++ [first] }

-- `available` says whether there is a capability of the name.
def invokeHostCall (state : GateState) (call : Nat) (available : Bool) : GateState :=
  let begun := { state with started := call :: state.started }
  if state.aborted then begun.throw call
  else if !available then begun.throw call
  else if codeModeMaxToolCalls ≤ state.admittedCalls then begun.throw call
  else acquireInFlight { begun with admittedCalls := state.admittedCalls + 1 } call

inductive GateEvent where
  | invoke (call : Nat) (available : Bool)
  | resume (call : Nat)
  | abort
  | finish (call : Nat)

-- The calls of one bridge have one signal; its abort rejects the promise of every waiter.
def gateStep (state : GateState) : GateEvent → Option GateState
  | .invoke call available => if call ∈ state.started then none else some (invokeHostCall state call available)
  | .resume call =>
    if call ∈ state.woken then some (acquireInFlight { state with woken := state.woken.erase call } call) else none
  | .abort => if state.aborted then none else some { state with aborted := true, thrown := state.waiters ++ state.thrown }
  | .finish call =>
    if call ∈ state.running then some (releaseInFlight { state with running := state.running.erase call }) else none

end Gate

section Invariant

variable {state next : GateState}

structure GateOk (state : GateState) : Prop where
  count : state.running.length = state.inFlight
  bound : state.inFlight ≤ codeModeHostInFlight
  known : ∀ call ∈ state.waiters ++ state.woken, call ∈ state.started
  begun : ∀ call ∈ state.thrown, call ∈ state.started
  pending : state.aborted = false → ∀ call ∈ state.waiters ++ state.woken, call ∉ state.thrown
  dead : state.aborted = true → ∀ call ∈ state.waiters, call ∈ state.thrown
  busy : state.aborted = false → state.waiters ≠ [] → codeModeHostInFlight ≤ state.inFlight + state.woken.length

theorem gateOk_idle : GateOk .idle := by
  constructor <;> simp [GateState.idle]

-- What holds where a call looks at the gate: one that was woken has left one place of the count.
structure Looking (state : GateState) (call : Nat) : Prop where
  count : state.running.length = state.inFlight
  bound : state.inFlight ≤ codeModeHostInFlight
  known : ∀ other ∈ state.waiters ++ state.woken, other ∈ state.started
  begun : ∀ other ∈ state.thrown, other ∈ state.started
  pending : state.aborted = false → ∀ other ∈ state.waiters ++ state.woken, other ∉ state.thrown
  dead : state.aborted = true → ∀ other ∈ state.waiters, other ∈ state.thrown
  busy : state.aborted = false → state.waiters ≠ [] → codeModeHostInFlight ≤ state.inFlight + state.woken.length + 1
  listed : call ∈ state.started
  unsettled : state.aborted = false → call ∉ state.thrown

theorem Looking.acquireInFlight {call : Nat} (looking : Looking state call) : GateOk (acquireInFlight state call) := by
  rw [PrAgent.acquireInFlight]
  by_cases full : codeModeHostInFlight ≤ state.inFlight
  · rw [if_pos full]
    by_cases aborted : state.aborted = true
    · rw [if_pos aborted]
      constructor
      · exact looking.count
      · exact looking.bound
      · exact looking.known
      · intro other inside
        cases List.mem_cons.mp inside with
        | inl here => exact here ▸ looking.listed
        | inr before => exact looking.begun other before
      · intro live
        exact absurd (aborted.symm.trans live) (by simp)
      · intro _ other inside
        exact List.mem_cons_of_mem _ (looking.dead aborted other inside)
      · intro live
        exact absurd (aborted.symm.trans live) (by simp)
    · rw [if_neg aborted]
      have live : state.aborted = false := by simpa using aborted
      have moved : ∀ other ∈ (state.waiters ++ [call]) ++ state.woken, other = call ∨ other ∈ state.waiters ++ state.woken := by
        intro other inside
        simp only [List.mem_append, List.mem_singleton] at inside ⊢
        rcases inside with (before | here) | after
        · exact .inr (.inl before)
        · exact .inl here
        · exact .inr (.inr after)
      constructor
      · exact looking.count
      · exact looking.bound
      · intro other inside
        cases moved other inside with
        | inl here => exact here ▸ looking.listed
        | inr before => exact looking.known other before
      · exact looking.begun
      · intro _ other inside
        cases moved other inside with
        | inl here => exact here ▸ looking.unsettled live
        | inr before => exact looking.pending live other before
      · intro stopped
        exact absurd stopped aborted
      · intro _ _
        exact Nat.le_trans full (Nat.le_add_right _ _)
  · rw [if_neg full]
    constructor
    · exact congrArg (· + 1) looking.count
    · exact Nat.lt_of_not_le full
    · exact looking.known
    · exact looking.begun
    · exact looking.pending
    · exact looking.dead
    · intro live filled
      have busy := looking.busy live filled
      simp only
      omega

theorem GateOk.invoke (ok : GateOk state) {call : Nat} (fresh : call ∉ state.started) (available : Bool) :
    GateOk (invokeHostCall state call available) := by
  have apart : ∀ other ∈ state.waiters ++ state.woken, other ≠ call := by
    intro other inside same
    exact fresh (same ▸ ok.known other inside)
  -- A call that throws before it looks at the gate is not in it.
  have thrown : GateOk ({ state with started := call :: state.started }.throw call) := by
    constructor
    · exact ok.count
    · exact ok.bound
    · intro other inside
      exact List.mem_cons_of_mem _ (ok.known other inside)
    · intro other inside
      cases List.mem_cons.mp inside with
      | inl here =>
          rw [here]
          exact List.mem_cons_self
      | inr before => exact List.mem_cons_of_mem _ (ok.begun other before)
    · intro live other inside within
      cases List.mem_cons.mp within with
      | inl here => exact apart other inside here
      | inr before => exact ok.pending live other inside before
    · intro stopped other inside
      exact List.mem_cons_of_mem _ (ok.dead stopped other inside)
    · exact ok.busy
  rw [invokeHostCall]
  by_cases aborted : state.aborted = true
  · rw [if_pos aborted]
    exact thrown
  rw [if_neg aborted]
  by_cases absent : (!available) = true
  · rw [if_pos absent]
    exact thrown
  rw [if_neg absent]
  by_cases spent : codeModeMaxToolCalls ≤ state.admittedCalls
  · rw [if_pos spent]
    exact thrown
  rw [if_neg spent]
  apply Looking.acquireInFlight
  constructor
  · exact ok.count
  · exact ok.bound
  · intro other inside
    exact List.mem_cons_of_mem _ (ok.known other inside)
  · intro other inside
    exact List.mem_cons_of_mem _ (ok.begun other inside)
  · exact ok.pending
  · exact ok.dead
  · intro live filled
    exact Nat.le_succ_of_le (ok.busy live filled)
  · exact List.mem_cons_self
  · intro _ inside
    exact fresh (ok.begun call inside)

theorem GateOk.resume (ok : GateOk state) {call : Nat} (awake : call ∈ state.woken) :
    GateOk (acquireInFlight { state with woken := state.woken.erase call } call) := by
  have fewer : ∀ other ∈ state.waiters ++ state.woken.erase call, other ∈ state.waiters ++ state.woken := by
    intro other inside
    cases List.mem_append.mp inside with
    | inl before => exact List.mem_append_left _ before
    | inr after => exact List.mem_append_right _ (List.mem_of_mem_erase after)
  apply Looking.acquireInFlight
  constructor
  · exact ok.count
  · exact ok.bound
  · intro other inside
    exact ok.known other (fewer other inside)
  · exact ok.begun
  · intro live other inside
    exact ok.pending live other (fewer other inside)
  · exact ok.dead
  · intro live filled
    have busy := ok.busy live filled
    have less : (state.woken.erase call).length = state.woken.length - 1 := List.length_erase_of_mem awake
    have awake_length : 0 < state.woken.length := List.length_pos_of_mem awake
    simp only
    omega
  · exact ok.known call (List.mem_append_right _ awake)
  · intro live
    exact ok.pending live call (List.mem_append_right _ awake)

theorem GateOk.abort (ok : GateOk state) : GateOk { state with aborted := true, thrown := state.waiters ++ state.thrown } := by
  constructor
  · exact ok.count
  · exact ok.bound
  · exact ok.known
  · intro other inside
    cases List.mem_append.mp inside with
    | inl queued => exact ok.known other (List.mem_append_left _ queued)
    | inr before => exact ok.begun other before
  · intro live
    cases live
  · intro _ other inside
    exact List.mem_append_left _ inside
  · intro live
    cases live

theorem GateOk.release (ok : GateOk state) {call : Nat} (runs : call ∈ state.running) :
    GateOk (releaseInFlight { state with running := state.running.erase call }) := by
  have less : (state.running.erase call).length = state.running.length - 1 := List.length_erase_of_mem runs
  have some_runs : 0 < state.running.length := List.length_pos_of_mem runs
  have count := ok.count
  have bound := ok.bound
  rw [releaseInFlight]
  cases waiting : state.waiters with
  | nil =>
      have known := ok.known
      have pending := ok.pending
      rw [waiting] at known pending
      constructor
      · simp only
        omega
      · simp only
        omega
      · exact known
      · exact ok.begun
      · exact pending
      · intro _ other inside
        cases inside
      · intro _ filled
        exact absurd rfl filled
  | cons first rest =>
      have busy := ok.busy
      have dead := ok.dead
      rw [waiting] at busy dead
      have moved : ∀ other ∈ rest ++ (if first ∈ state.thrown then state.woken else state.woken ++ [first]),
          other ∈ state.waiters ++ state.woken := by
        intro other inside
        rw [waiting]
        by_cases gone : first ∈ state.thrown
        · rw [if_pos gone] at inside
          exact List.mem_cons_of_mem _ inside
        · rw [if_neg gone] at inside
          rcases List.mem_append.mp inside with before | later
          · exact List.mem_cons_of_mem _ (List.mem_append_left _ before)
          rcases List.mem_append.mp later with after | here
          · exact List.mem_append_right _ after
          · rw [List.mem_singleton.mp here]
            exact List.mem_cons_self
      constructor
      · simp only
        omega
      · simp only
        omega
      · intro other inside
        exact ok.known other (moved other inside)
      · exact ok.begun
      · intro live other inside
        exact ok.pending live other (moved other inside)
      · intro stopped other inside
        exact dead stopped other (List.mem_cons_of_mem _ inside)
      · intro live _
        have enough := busy live (List.cons_ne_nil _ _)
        have awake : first ∉ state.thrown := ok.pending live first (by simp [waiting])
        simp only [if_neg awake, List.length_append, List.length_singleton]
        omega

theorem gate_step (ok : GateOk state) (event : GateEvent) (moved : gateStep state event = some next) : GateOk next := by
  cases event with
  | invoke call available =>
      obtain ⟨fresh, made⟩ := Option.ite_none_left_eq_some.mp moved
      cases made
      exact ok.invoke fresh available
  | resume call =>
      obtain ⟨awake, made⟩ := Option.ite_none_right_eq_some.mp moved
      cases made
      exact ok.resume awake
  | abort =>
      obtain ⟨_, made⟩ := Option.ite_none_left_eq_some.mp moved
      cases made
      exact ok.abort
  | finish call =>
      obtain ⟨runs, made⟩ := Option.ite_none_right_eq_some.mp moved
      cases made
      exact ok.release runs

abbrev GateRun : GateState → GateState → Prop := Reaches gateStep fun _ _ => True

theorem gateOk_run (reached : GateRun .idle state) : GateOk state :=
  reached.invariant GateOk gateOk_idle fun _ event _ ok _ moved => gate_step ok event moved

-- A waiter whose promise is not rejected.
def GateState.Waits (state : GateState) (call : Nat) : Prop := call ∈ state.waiters ∧ call ∉ state.thrown

theorem GateOk.live (ok : GateOk state) {call : Nat} (waits : state.Waits call) : state.aborted = false := by
  cases aborted : state.aborted with
  | false => rfl
  | true => exact absurd (ok.dead aborted call waits.1) waits.2

-- What holds of the slots of the gate.
structure GateSafe (state : GateState) : Prop where
  running : state.running.length = state.inFlight
  within : state.inFlight ≤ codeModeHostInFlight
  notLost : ∀ call, state.Waits call → codeModeHostInFlight ≤ state.inFlight + state.woken.length
  wakes : ∀ call, state.Waits call → ∀ done after, gateStep state (.finish done) = some after → after.woken ≠ []
  afterRelease : ∀ done after, gateStep state (.finish done) = some after → ∀ call, after.Waits call → 0 < after.inFlight ∨ after.woken ≠ []

theorem release_wakes (ok : GateOk state) {call done : Nat} (waits : state.Waits call)
    (moved : gateStep state (.finish done) = some next) : next.woken ≠ [] := by
  obtain ⟨_, made⟩ := Option.ite_none_right_eq_some.mp moved
  cases made
  rw [releaseInFlight]
  cases waiting : state.waiters with
  | nil =>
      have inside := waits.1
      rw [waiting] at inside
      cases inside
  | cons first rest =>
      have awake : first ∉ state.thrown := ok.pending (ok.live waits) first (by simp [waiting])
      simp [awake]

theorem gateSafe_run (reached : GateRun .idle state) : GateSafe state := by
  have ok := gateOk_run reached
  have notLost {s : GateState} (ok : GateOk s) {call : Nat} (waits : s.Waits call) :
      codeModeHostInFlight ≤ s.inFlight + s.woken.length :=
    ok.busy (ok.live waits) (List.ne_nil_of_mem waits.1)
  constructor
  · exact ok.count
  · exact ok.bound
  · intro call waits
    exact notLost ok waits
  · intro call waits done after moved
    exact release_wakes ok waits moved
  · intro done after moved call waits
    have enough := notLost (gate_step ok _ moved) waits
    by_cases idle : after.woken = []
    · rw [idle] at enough
      exact .inl (Nat.lt_of_lt_of_le (Nat.succ_pos 3) enough)
    · exact .inr idle

end Invariant

-- Slots are neither leaked nor granted twice, in the pool and in the gate.
theorem executor_and_host_call_slots :
    (∀ state, PoolRun .idle state → PoolSafe state) ∧ ∀ state, GateRun .idle state → GateSafe state :=
  ⟨fun _ reached => poolSafe_run reached, fun _ reached => gateSafe_run reached⟩

-- Both slots are taken, one waiter gives up, and a release hands its slot to the other.
def handOver : List ExecutorEvent :=
  [.acquire 1 .inProcess false, .acquire 2 .inProcess false, .acquire 3 .workerThreads false, .acquire 4 .inProcess false, .timeout 3,
    .release ⟨0, 1, .inProcess⟩]

-- Five calls for four slots, and the one that waits is woken.
def wakeUp : List GateEvent := [.invoke 1 true, .invoke 2 true, .invoke 3 true, .invoke 4 true, .invoke 5 true, .finish 2, .resume 5]

theorem handed_over_slots :
    (∃ state, PoolSafe state ∧ state.created.length = 3) ∧ ∃ state, GateSafe state ∧ state.inFlight = 4 := by
  have pool : PoolRun .idle (runTo poolStep (fun _ _ => decide True) handOver .idle .idle) := reaches_runTo _ _ _ (by decide +kernel)
  have gate : GateRun .idle (runTo gateStep (fun _ _ => decide True) wakeUp .idle .idle) := reaches_runTo _ _ _ (by decide +kernel)
  exact ⟨⟨_, executor_and_host_call_slots.1 _ pool, by decide +kernel⟩, ⟨_, executor_and_host_call_slots.2 _ gate, by decide +kernel⟩⟩

end PrAgent
