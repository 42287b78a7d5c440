import PrAgent.CiSummaryCell
set_option autoImplicit false

namespace PrAgent

section Halts

inductive CodeModeErrorCode where
  | syntaxError
  | executionBudgetExceeded
  | timeout
  | cancelled
  | limitExceeded
  | toolFailure
  | executionError
  deriving DecidableEq

inductive CodeModeCapReason where
  | workspaceCalls
  | poolQueue
  | poolWait
  | cellWall
  | guestCpu
  | sourceBytes
  | stateBytes
  | allocation
  deriving DecidableEq

structure CodeModeHostHalt where
  code : CodeModeErrorCode
  message : Text
  reason : Option CodeModeCapReason
  deriving DecidableEq

def hostCancelHalt : CodeModeHostHalt := ⟨.cancelled, text "Code Mode cancelled by host signal", none⟩

def poolQueueHalt : CodeModeHostHalt := ⟨.limitExceeded, text "Executor pool queue is full", some .poolQueue⟩

def poolWaitHalt : CodeModeHostHalt := ⟨.timeout, text "Timed out waiting for an executor", some .poolWait⟩

end Halts

section Pool

def codeModeExecutorPoolSize : Nat := 2

def codeModeExecutorQueueLength : Nat := 8

inductive CodeModeExecutorKind where
  | workerThreads
  | inProcess
  deriving DecidableEq

-- A waiter has the promise of one call.
structure Waiter where
  call : Nat
  kind : CodeModeExecutorKind
  deriving DecidableEq

-- Leases are told apart by the order in which they are created.
structure ExecutorLease where
  number : Nat
  call : Nat
  kind : CodeModeExecutorKind
  deriving DecidableEq

inductive Acquired where
  | lease (lease : ExecutorLease)
  | halted (halt : CodeModeHostHalt)
  deriving DecidableEq

structure PoolState where
  active : Nat
  waiters : List Waiter
  timers : List Nat
  listeners : List Nat
  settled : Nat → Option Acquired
  created : List ExecutorLease
  live : List ExecutorLease

def PoolState.idle : PoolState := ⟨0, [], [], [], fun _ => none, [], []⟩

-- A promise keeps its first result.
def PoolState.settle (state : PoolState) (call : Nat) (result : Acquired) : PoolState :=
  { state with settled := fun other => if other = call then (state.settled call).or (some result) else state.settled other }

def PoolState.createLease (state : PoolState) (call : Nat) (kind : CodeModeExecutorKind) : PoolState :=
  let lease : ExecutorLease := ⟨state.created.length, call, kind⟩
  { state with created := state.created ++ [lease], live := state.live ++ [lease] }.settle call (.lease lease)

def PoolState.unqueue (state : PoolState) (call : Nat) : PoolState :=
  { state with waiters := state.waiters.filter fun waiter => waiter.call ≠ call }

def PoolState.clear (state : PoolState) (call : Nat) : PoolState :=
  { state with timers := state.timers.filter fun other => other ≠ call, listeners := state.listeners.filter fun other => other ≠ call }

def releaseSlot (state : PoolState) : PoolState :=
  match state.waiters with
  | next :: rest => ({ state with waiters := rest }.clear next.call).createLease next.call next.kind
  | [] => { state with active := state.active - 1 }

def acquireExecutor (state : PoolState) (call : Nat) (kind : CodeModeExecutorKind) (aborted : Bool) : PoolState :=
  if aborted then state.settle call (.halted hostCancelHalt)
  else if state.active < codeModeExecutorPoolSize then { state with active := state.active + 1 }.createLease call kind
  else if codeModeExecutorQueueLength ≤ state.waiters.length then state.settle call (.halted poolQueueHalt)
  else
    { state with
      waiters := state.waiters ++ [⟨call, kind⟩]
      timers := call :: state.timers
      listeners := call :: state.listeners }

inductive ExecutorEvent where
  | acquire (call : Nat) (kind : CodeModeExecutorKind) (aborted : Bool)
  | timeout (call : Nat)
  | abort (call : Nat)
  | release (lease : ExecutorLease)

def PoolState.unused (state : PoolState) (call : Nat) : Prop := state.settled call = none ∧ call ∉ state.waiters.map Waiter.call

instance (state : PoolState) (call : Nat) : Decidable (state.unused call) := by
  delta PoolState.unused
  infer_instance

-- A timer that fires is no longer set, a listener is called once, and a lease is released once.
def poolStep (state : PoolState) : ExecutorEvent → Option PoolState
  | .acquire call kind aborted => if state.unused call then some (acquireExecutor state call kind aborted) else none
  | .timeout call =>
    if call ∈ state.timers then
      some (({ state with timers := state.timers.filter fun other => other ≠ call }.unqueue call).settle call (.halted poolWaitHalt))
    else none
  | .abort call =>
    if call ∈ state.listeners then some (((state.unqueue call).clear call).settle call (.halted hostCancelHalt)) else none
  | .release lease => if lease ∈ state.live then some (releaseSlot { state with live := state.live.erase lease }) else none

end Pool

section Invariant

variable {state next : PoolState}

-- The counts while `promised` of the taken slots are still without their leases.
structure PoolOk (state : PoolState) (promised : Nat) : Prop where
  count : state.live.length + promised = state.active
  bound : state.active ≤ codeModeExecutorPoolSize
  busy : state.waiters ≠ [] → state.active = codeModeExecutorPoolSize
  queued : (state.waiters.map Waiter.call).Nodup
  pending : ∀ waiter ∈ state.waiters, state.settled waiter.call = none
  holder : ∀ lease ∈ state.created, state.settled lease.call = some (.lease lease)
  once : (state.created.map ExecutorLease.call).Nodup

theorem poolOk_idle : PoolOk .idle 0 := by
  constructor <;> simp [PoolState.idle]

theorem settle_settled (call other : Nat) (result : Acquired) :
    (state.settle call result).settled other = if other = call then (state.settled call).or (some result) else state.settled other := rfl

theorem settle_keeps {call other : Nat} {result known : Acquired} (here : state.settled other = some known) :
    (state.settle call result).settled other = some known := by
  rw [settle_settled]
  by_cases same : other = call
  · subst same
    rw [if_pos rfl, here]
    rfl
  · rw [if_neg same]
    exact here

-- The call of a result is not in the queue any more.
theorem PoolOk.settle (ok : PoolOk state 0) {call : Nat} (absent : call ∉ state.waiters.map Waiter.call) (result : Acquired) :
    PoolOk (state.settle call result) 0 := by
  constructor
  · exact ok.count
  · exact ok.bound
  · exact ok.busy
  · exact ok.queued
  · intro waiter inside
    rw [settle_settled, if_neg, ok.pending waiter inside]
    intro same
    exact absent (List.mem_map.mpr ⟨waiter, inside, same⟩)
  · intro lease inside
    exact settle_keeps (ok.holder lease inside)
  · exact ok.once

theorem PoolOk.unqueue (ok : PoolOk state 0) (call : Nat) : PoolOk (state.unqueue call) 0 := by
  constructor
  · exact ok.count
  · exact ok.bound
  · intro filled
    apply ok.busy
    intro empty
    simp [PoolState.unqueue, empty] at filled
  · exact ok.queued.sublist (List.filter_sublist.map _)
  · intro waiter inside
    exact ok.pending waiter (List.mem_filter.mp inside).1
  · exact ok.holder
  · exact ok.once

theorem not_queued (state : PoolState) (call : Nat) : call ∉ (state.unqueue call).waiters.map Waiter.call := by
  intro inside
  obtain ⟨waiter, listed, same⟩ := List.mem_map.mp inside
  exact absurd same (of_decide_eq_true (List.mem_filter.mp listed).2)

-- One more slot is taken than there are leases, by the call that gets the lease.
structure Promised (state : PoolState) (call : Nat) : Prop extends PoolOk state 1 where
  unused : state.unused call

theorem Promised.createLease {call : Nat} (promised : Promised state call) (kind : CodeModeExecutorKind) :
    PoolOk (state.createLease call kind) 0 := by
  constructor
  · have count := promised.count
    simp only [PoolState.createLease, PoolState.settle, List.length_append, List.length_singleton]
    exact count
  · exact promised.bound
  · exact promised.busy
  · exact promised.queued
  · intro waiter inside
    rw [PoolState.createLease, settle_settled, if_neg, promised.pending waiter inside]
    intro same
    exact promised.unused.2 (List.mem_map.mpr ⟨waiter, inside, same⟩)
  · intro lease inside
    cases List.mem_append.mp inside with
    | inl before => exact settle_keeps (promised.holder lease before)
    | inr here =>
        obtain rfl := List.mem_singleton.mp here
        rw [PoolState.createLease, settle_settled, if_pos rfl, promised.unused.1]
        rfl
  · simp only [PoolState.createLease, PoolState.settle, List.map_append, List.map_cons, List.map_nil]
    rw [List.nodup_append]
    refine ⟨promised.once, List.nodup_singleton _, ?_⟩
    intro other before call' here same
    obtain ⟨lease, listed, rfl⟩ := List.mem_map.mp before
    have held := promised.holder lease listed
    rw [same, List.mem_singleton.mp here, promised.unused.1] at held
    cases held

theorem PoolOk.acquireExecutor (ok : PoolOk state 0) {call : Nat} (unused : state.unused call) (kind : CodeModeExecutorKind)
    (aborted : Bool) : PoolOk (acquireExecutor state call kind aborted) 0 := by
  rw [PrAgent.acquireExecutor]
  by_cases stopped : aborted = true
  · rw [if_pos stopped]
    exact ok.settle unused.2 _
  rw [if_neg stopped]
  by_cases free : state.active < codeModeExecutorPoolSize
  · rw [if_pos free]
    apply Promised.createLease
    refine ⟨?_, unused⟩
    constructor
    · exact congrArg (· + 1) ok.count
    · exact free
    · intro filled
      have full := ok.busy filled
      omega
    · exact ok.queued
    · exact ok.pending
    · exact ok.holder
    · exact ok.once
  rw [if_neg free]
  by_cases long : codeModeExecutorQueueLength ≤ state.waiters.length
  · rw [if_pos long]
    exact ok.settle unused.2 _
  · rw [if_neg long]
    constructor
    · exact ok.count
    · exact ok.bound
    · intro _
      exact Nat.le_antisymm ok.bound (Nat.le_of_not_lt free)
    · simp only [List.map_append, List.map_cons, List.map_nil]
      rw [List.nodup_append]
      refine ⟨ok.queued, List.nodup_singleton _, ?_⟩
      intro other before last here same
      rw [List.mem_singleton.mp here] at same
      exact unused.2 (same ▸ before)
    · intro waiter inside
      cases List.mem_append.mp inside with
      | inl before => exact ok.pending waiter before
      | inr here =>
          rw [List.mem_singleton.mp here]
          exact unused.1
    · exact ok.holder
    · exact ok.once

theorem PoolOk.release (ok : PoolOk state 0) {lease : ExecutorLease} (live : lease ∈ state.live) :
    PoolOk (releaseSlot { state with live := state.live.erase lease }) 0 := by
  have less : (state.live.erase lease).length = state.live.length - 1 := List.length_erase_of_mem live
  have some_live : 0 < state.live.length := List.length_pos_of_mem live
  have count := ok.count
  have bound := ok.bound
  rw [releaseSlot]
  cases waiting : state.waiters with
  | nil =>
      simp only
      constructor
      · simp only
        omega
      · simp only
        omega
      · intro filled
        exact absurd rfl filled
      · exact List.nodup_nil
      · intro waiter inside
        cases inside
      · exact ok.holder
      · exact ok.once
  | cons next rest =>
      simp only
      have queued := ok.queued
      rw [waiting, List.map_cons, List.nodup_cons] at queued
      have within : ∀ waiter ∈ next :: rest, state.settled waiter.call = none := waiting ▸ ok.pending
      apply Promised.createLease
      refine ⟨?_, within next List.mem_cons_self, queued.1⟩
      constructor
      · simp only [PoolState.clear]
        omega
      · exact bound
      · intro _
        apply ok.busy
        rw [waiting]
        exact List.cons_ne_nil _ _
      · exact queued.2
      · intro waiter inside
        exact within waiter (List.mem_cons_of_mem _ inside)
      · exact ok.holder
      · exact ok.once

-- What one event does keeps the counts.
theorem pool_step (ok : PoolOk state 0) (event : ExecutorEvent) (moved : poolStep state event = some next) : PoolOk next 0 := by
  cases event with
  | acquire call kind aborted =>
      obtain ⟨unused, made⟩ := Option.ite_none_right_eq_some.mp moved
      cases made
      exact ok.acquireExecutor unused kind aborted
  | timeout call =>
      obtain ⟨_, made⟩ := Option.ite_none_right_eq_some.mp moved
      cases made
      have ok' : PoolOk { state with timers := state.timers.filter fun other => other ≠ call } 0 :=
        ⟨ok.count, ok.bound, ok.busy, ok.queued, ok.pending, ok.holder, ok.once⟩
      exact (ok'.unqueue call).settle (not_queued _ call) _
  | abort call =>
      obtain ⟨_, made⟩ := Option.ite_none_right_eq_some.mp moved
      cases made
      have ok' := ok.unqueue call
      have cleared : PoolOk ((state.unqueue call).clear call) 0 :=
        ⟨ok'.count, ok'.bound, ok'.busy, ok'.queued, ok'.pending, ok'.holder, ok'.once⟩
      exact cleared.settle (not_queued state call) _
  | release lease =>
      obtain ⟨live, made⟩ := Option.ite_none_right_eq_some.mp moved
      cases made
      exact ok.release live

-- A promise keeps its result in every step.
theorem settled_step {call : Nat} {known : Acquired} (here : state.settled call = some known) (event : ExecutorEvent)
    (moved : poolStep state event = some next) : next.settled call = some known := by
  cases event with
  | acquire other kind aborted =>
      obtain ⟨_, made⟩ := Option.ite_none_right_eq_some.mp moved
      cases made
      rw [acquireExecutor]
      by_cases stopped : aborted = true
      · rw [if_pos stopped]
        exact settle_keeps here
      rw [if_neg stopped]
      by_cases free : state.active < codeModeExecutorPoolSize
      · rw [if_pos free]
        exact settle_keeps here
      rw [if_neg free]
      by_cases long : codeModeExecutorQueueLength ≤ state.waiters.length
      · rw [if_pos long]
        exact settle_keeps here
      · rw [if_neg long]
        exact here
  | timeout other =>
      obtain ⟨_, made⟩ := Option.ite_none_right_eq_some.mp moved
      cases made
      exact settle_keeps here
  | abort other =>
      obtain ⟨_, made⟩ := Option.ite_none_right_eq_some.mp moved
      cases made
      exact settle_keeps here
  | release lease =>
      obtain ⟨_, made⟩ := Option.ite_none_right_eq_some.mp moved
      cases made
      rw [releaseSlot]
      cases waiting : state.waiters with
      | nil => exact here
      | cons first rest => exact settle_keeps here

abbrev PoolRun : PoolState → PoolState → Prop := Reaches poolStep fun _ _ => True

theorem poolOk_run (reached : PoolRun .idle state) : PoolOk state 0 :=
  reached.invariant (PoolOk · 0) poolOk_idle fun _ event _ ok _ moved => pool_step ok event moved

theorem settled_run {call : Nat} {known : Acquired} (here : state.settled call = some known) (reached : PoolRun state next) :
    next.settled call = some known :=
  reached.invariant (fun s => s.settled call = some known) here fun _ event _ here' _ moved => settled_step here' event moved

-- What holds of the slots of the pool.
structure PoolSafe (state : PoolState) : Prop where
  live : state.live.length = state.active
  within : state.active ≤ codeModeExecutorPoolSize
  delivered : ∀ lease ∈ state.created, state.settled lease.call = some (.lease lease)
  atMostOne : ∀ call, (state.created.filter fun lease => lease.call = call).length ≤ 1
  noneRejected : ∀ call halt, state.settled call = some (.halted halt) →
    ∀ later, PoolRun state later → ∀ lease ∈ later.created, lease.call ≠ call
  noneIdle : state.waiters ≠ [] → state.active = codeModeExecutorPoolSize

theorem poolSafe_run (reached : PoolRun .idle state) : PoolSafe state := by
  have ok := poolOk_run reached
  constructor
  · exact ok.count
  · exact ok.bound
  · exact ok.holder
  · intro call
    have nodup : (((state.created.filter fun lease => lease.call = call).map ExecutorLease.call)).Nodup :=
      ok.once.sublist (List.filter_sublist.map _)
    have alike : ∀ other ∈ (state.created.filter fun lease => lease.call = call).map ExecutorLease.call, other = call := by
      intro other inside
      obtain ⟨lease, listed, rfl⟩ := List.mem_map.mp inside
      exact of_decide_eq_true (List.mem_filter.mp listed).2
    have short := List.nodup_iff_count_le_one.mp nodup call
    rw [List.eq_replicate_of_mem alike, List.count_replicate_self, List.length_map] at short
    exact short
  · intro call halt rejected later after lease inside same
    have held := (poolOk_run (reached.trans after)).holder lease inside
    rw [same, settled_run rejected after] at held
    cases held
  · exact ok.busy

end Invariant
end PrAgent
