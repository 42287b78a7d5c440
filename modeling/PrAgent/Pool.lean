import PrAgent.Program
import PrAgent.Run
import PrAgent.Table
set_option autoImplicit false

namespace PrAgent

-- A task together with what is left to run of its program.
structure Running (I : Interface) (Task α : Type) where
  task : Task
  rest : Program I α

-- Threads over one shared world. A thread without a row is idle: never started, finished or crashed.
structure Pool (ι : Type) (I : Interface) (σ Task α : Type) where
  world : σ
  threads : Table ι (Running I Task α)

inductive PoolEvent (ι Task Reply Move : Type) : Type
  | start (thread : ι) (task : Task)
  | step (thread : ι) (reply : Reply)
  | finish (thread : ι)
  | crash (thread : ι)
  | move (move : Move)

-- What a pool runs. `act` answers an operation as the environment's reply directs; `move` is a step of
-- the surroundings; `ends` records the outcome of a finished thread.
structure System (ι : Type) (I : Interface) (σ Task Reply Move α : Type) where
  program : Task → Program I α
  starts : σ → ι → Task → Bool
  act : ι → (op : I.Op) → Reply → σ → Option (Except I.Err (I.Ans op) × σ)
  ends : ι → Except I.Err α → σ → σ
  move : Move → σ → Option σ

section Pools

variable {ι : Type} [DecidableEq ι] {I : Interface} {σ Task Reply Move α : Type}

namespace Pool

def setThread (pool : Pool ι I σ Task α) (thread : ι) (running : Option (Running I Task α)) : Pool ι I σ Task α :=
  { pool with
    threads := match running with
      | some running => pool.threads.set thread running
      | none => pool.threads.erase thread }

@[simp] theorem setThread_world (pool : Pool ι I σ Task α) (thread : ι) (running : Option (Running I Task α)) :
    (pool.setThread thread running).world = pool.world := rfl

theorem setThread_threads (pool : Pool ι I σ Task α) (thread other : ι) (running : Option (Running I Task α)) :
    (pool.setThread thread running).threads.get? other =
      if other = thread then running else pool.threads.get? other := by
  cases running with
  | some running => exact Table.get?_set pool.threads thread running other
  | none => exact Table.get?_erase pool.threads thread other

end Pool

namespace System

def step (sys : System ι I σ Task Reply Move α) (pool : Pool ι I σ Task α) :
    PoolEvent ι Task Reply Move → Option (Pool ι I σ Task α)
  | .start thread task =>
    if (pool.threads.get? thread).isNone && sys.starts pool.world thread task then
      some (pool.setThread thread (some ⟨task, sys.program task⟩))
    else none
  | .step thread reply =>
    match pool.threads.get? thread with
    | some ⟨task, .call op next⟩ =>
      (sys.act thread op reply pool.world).map fun (answer, world) =>
        { pool with world }.setThread thread (some ⟨task, next answer⟩)
    | _ => none
  | .finish thread =>
    match pool.threads.get? thread with
    | some ⟨_, .done value⟩ => some ({ pool with world := sys.ends thread (.ok value) pool.world }.setThread thread none)
    | some ⟨_, .raise error⟩ => some ({ pool with world := sys.ends thread (.error error) pool.world }.setThread thread none)
    | _ => none
  | .crash thread => some (pool.setThread thread none)
  | .move move => (sys.move move pool.world).map fun world => { pool with world }

theorem setThread_running {pool : Pool ι I σ Task α} {thread other : ι} {running : Option (Running I Task α)}
    {after : Running I Task α} (found : (pool.setThread thread running).threads.get? other = some after) :
    (other = thread ∧ running = some after) ∨ pool.threads.get? other = some after := by
  rw [Pool.setThread_threads] at found
  split at found
  · next same => exact .inl ⟨same, found⟩
  · exact .inr found

-- A running thread was already at its task, unless this very event started it.
theorem step_running (sys : System ι I σ Task Reply Move α) {pool pool' : Pool ι I σ Task α}
    {event : PoolEvent ι Task Reply Move} (moved : sys.step pool event = some pool') {thread : ι}
    {running : Running I Task α} (found : pool'.threads.get? thread = some running) :
    (∃ before, pool.threads.get? thread = some before ∧ before.task = running.task) ∨
      (event = .start thread running.task ∧ sys.starts pool.world thread running.task = true) := by
  have kept : ∀ before, pool.threads.get? thread = some before → before.task = running.task →
      (∃ before, pool.threads.get? thread = some before ∧ before.task = running.task) ∨
        (event = .start thread running.task ∧ sys.starts pool.world thread running.task = true) :=
    fun before at_before same => .inl ⟨before, at_before, same⟩
  cases event with
  | start started task =>
    simp only [System.step, Bool.and_eq_true, Option.ite_none_right_eq_some, Option.some.injEq] at moved
    obtain ⟨⟨_, starts⟩, rfl⟩ := moved
    rcases setThread_running found with ⟨rfl, same⟩ | found
    · obtain rfl := Option.some.inj same
      exact .inr ⟨rfl, starts⟩
    · exact kept _ found rfl
  | step stepped reply =>
    simp only [System.step] at moved
    split at moved
    · next task op next at_op =>
      obtain ⟨⟨answer, world⟩, _, rfl⟩ := Option.map_eq_some_iff.mp moved
      rcases setThread_running found with ⟨rfl, same⟩ | found
      · exact kept _ at_op (by rw [← Option.some.inj same])
      · exact kept _ found rfl
    · cases moved
  | finish finished =>
    simp only [System.step] at moved
    split at moved
    · obtain rfl := Option.some.inj moved
      exact (setThread_running found).elim (fun same => nomatch same.2) fun found => kept _ found rfl
    · obtain rfl := Option.some.inj moved
      exact (setThread_running found).elim (fun same => nomatch same.2) fun found => kept _ found rfl
    · cases moved
  | crash crashed =>
    obtain rfl := Option.some.inj moved
    exact (setThread_running found).elim (fun same => nomatch same.2) fun found => kept _ found rfl
  | move move =>
    simp only [System.step, Option.map_eq_some_iff] at moved
    obtain ⟨world, _, rfl⟩ := moved
    exact kept _ found rfl

-- The side conditions under which per-thread contracts compose. `apart` says which two threads may live
-- at once, and `allowed` restricts the runs the contracts speak about.
structure Obeys (sys : System ι I σ Task Reply Move α) (contract : ι → Task → Contract I σ) (inv : σ → Prop)
    (apart : ι → ι → Prop) (normal : ι → Task → α → σ → Prop) (exceptional : ι → I.Err → σ → Prop)
    (allowed : Pool ι I σ Task α → PoolEvent ι Task Reply Move → Prop) : Prop where
  inv_eq : ∀ thread task, (contract thread task).inv = inv
  normal_stable : ∀ thread task value, Stable (contract thread task) (normal thread task value)
  exceptional_stable : ∀ thread task error, Stable (contract thread task) (exceptional thread error)
  start : ∀ pool thread task, inv pool.world → allowed pool (.start thread task) →
    sys.starts pool.world thread task = true →
    Safe (contract thread task) (normal thread task) (exceptional thread) (sys.program task) pool.world ∧
      ∀ other, other ≠ thread → (pool.threads.get? other).isSome → apart thread other ∧ apart other thread
  act : ∀ pool thread reply task op next answer world, allowed pool (.step thread reply) →
    pool.threads.get? thread = some ⟨task, .call op next⟩ → sys.act thread op reply pool.world = some (answer, world) →
    (contract thread task).act op pool.world answer world
  keeps : ∀ thread task s t, inv s → (contract thread task).guarantee s t → inv t
  interferes : ∀ thread other task otherTask s t, thread ≠ other → apart thread other → inv s →
    (contract thread task).guarantee s t → (contract other otherTask).rely s t
  ends : ∀ thread task outcome s, inv s →
    (match outcome with | .ok value => normal thread task value s | .error error => exceptional thread error s) →
    inv (sys.ends thread outcome s) ∧
      ∀ other otherTask, other ≠ thread → (contract other otherTask).rely s (sys.ends thread outcome s)
  move : ∀ move s t, inv s → sys.move move s = some t → inv t ∧ ∀ thread task, (contract thread task).rely s t

structure PoolSafe (contract : ι → Task → Contract I σ) (inv : σ → Prop) (apart : ι → ι → Prop)
    (normal : ι → Task → α → σ → Prop) (exceptional : ι → I.Err → σ → Prop) (pool : Pool ι I σ Task α) : Prop where
  inv : inv pool.world
  threads : ∀ thread running, pool.threads.get? thread = some running →
    Safe (contract thread running.task) (normal thread running.task) (exceptional thread) running.rest pool.world
  apart : ∀ thread other, thread ≠ other → (pool.threads.get? thread).isSome → (pool.threads.get? other).isSome →
    apart thread other

variable {sys : System ι I σ Task Reply Move α} {contract : ι → Task → Contract I σ} {inv : σ → Prop}
  {apart : ι → ι → Prop} {normal : ι → Task → α → σ → Prop} {exceptional : ι → I.Err → σ → Prop}
  {allowed : Pool ι I σ Task α → PoolEvent ι Task Reply Move → Prop}

variable (obeys : Obeys sys contract inv apart normal exceptional allowed)
include obeys

-- Retiring a thread keeps the others safe when the world moved within their relies.
theorem PoolSafe.retire {pool : Pool ι I σ Task α}
    (safe : PoolSafe contract inv apart normal exceptional pool) (thread : ι) (world : σ) (kept : inv world)
    (relies : ∀ other task, other ≠ thread → (contract other task).rely pool.world world) :
    PoolSafe contract inv apart normal exceptional ({ pool with world }.setThread thread none) := by
  refine ⟨kept, ?_, ?_⟩
  · intro other running live
    rw [Pool.setThread_threads] at live
    split at live
    · cases live
    · next ne =>
      have kept' : (contract other running.task).inv world := obeys.inv_eq other _ ▸ kept
      exact Safe.rely (obeys.normal_stable other _) (obeys.exceptional_stable other _)
        (safe.threads other running live) (relies other _ ne) kept'
  · intro first second ne liveFirst liveSecond
    rw [Pool.setThread_threads] at liveFirst liveSecond
    split at liveFirst
    · cases liveFirst
    · split at liveSecond
      · cases liveSecond
      · exact safe.apart first second ne liveFirst liveSecond

-- One operation of a safe thread: it keeps the guarantee, and the continuation is safe where it left the world.
theorem PoolSafe.operation {pool : Pool ι I σ Task α}
    (safe : PoolSafe contract inv apart normal exceptional pool) {thread : ι} {reply : Reply}
    (ok : allowed pool (.step thread reply)) {task : Task} {op : I.Op} {next : Except I.Err (I.Ans op) → Program I α}
    (at_op : pool.threads.get? thread = some ⟨task, .call op next⟩) {answer : Except I.Err (I.Ans op)} {world : σ}
    (acted : sys.act thread op reply pool.world = some (answer, world)) :
    (contract thread task).guarantee pool.world world ∧
      Safe (contract thread task) (normal thread task) (exceptional thread) (next answer) world :=
  safe.threads thread _ at_op pool.world ((contract thread task).rely_refl _) (obeys.inv_eq thread task ▸ safe.inv) answer world
    (obeys.act pool thread reply task op next answer world ok at_op acted)

theorem PoolSafe.step {pool pool' : Pool ι I σ Task α}
    {event : PoolEvent ι Task Reply Move} (safe : PoolSafe contract inv apart normal exceptional pool)
    (ok : allowed pool event) (moved : sys.step pool event = some pool') :
    PoolSafe contract inv apart normal exceptional pool' := by
  cases event with
  | start thread task =>
    simp only [System.step, Bool.and_eq_true, Option.ite_none_right_eq_some, Option.some.injEq] at moved
    obtain ⟨⟨_, starts⟩, rfl⟩ := moved
    obtain ⟨started, separate⟩ := obeys.start pool thread task safe.inv ok starts
    refine ⟨safe.inv, ?_, ?_⟩
    · intro other running live
      rw [Pool.setThread_threads] at live
      split at live
      · next same =>
        obtain rfl := same
        obtain rfl : (⟨task, sys.program task⟩ : Running I Task α) = running := by simpa using live
        exact started
      · exact safe.threads other running live
    · intro first second ne liveFirst liveSecond
      rw [Pool.setThread_threads] at liveFirst liveSecond
      by_cases isFirst : first = thread
      · subst isFirst
        rw [if_neg ne.symm] at liveSecond
        exact (separate second ne.symm liveSecond).1
      · rw [if_neg isFirst] at liveFirst
        by_cases isSecond : second = thread
        · subst isSecond
          exact (separate first isFirst liveFirst).2
        · rw [if_neg isSecond] at liveSecond
          exact safe.apart first second ne liveFirst liveSecond
  | step thread reply =>
    simp only [System.step] at moved
    split at moved
    · next task op next at_op =>
      obtain ⟨⟨answer, world⟩, acted, rfl⟩ := Option.map_eq_some_iff.mp moved
      obtain ⟨kept, rest⟩ := safe.operation obeys ok at_op acted
      have inv' := obeys.keeps thread task _ _ safe.inv kept
      have live : (pool.threads.get? thread).isSome := by rw [at_op]; rfl
      refine ⟨inv', ?_, ?_⟩
      · intro other running live'
        rw [Pool.setThread_threads] at live'
        split at live'
        · next same =>
          obtain rfl := same
          obtain rfl : (⟨task, next answer⟩ : Running I Task α) = running := by simpa using live'
          exact rest
        · next ne =>
          have others : apart thread other :=
            safe.apart thread other (Ne.symm ne) live (by rw [show pool.threads.get? other = _ from live']; rfl)
          exact Safe.rely (obeys.normal_stable other _) (obeys.exceptional_stable other _)
            (safe.threads other running live')
            (obeys.interferes thread other _ _ _ _ (Ne.symm ne) others safe.inv kept)
            (obeys.inv_eq other _ ▸ inv')
      · intro first second ne liveFirst liveSecond
        rw [Pool.setThread_threads] at liveFirst liveSecond
        refine safe.apart first second ne ?_ ?_
        · split at liveFirst
          · next same => rw [same]; exact live
          · exact liveFirst
        · split at liveSecond
          · next same => rw [same]; exact live
          · exact liveSecond
    · cases moved
  | finish thread =>
    simp only [System.step] at moved
    split at moved
    · next task value at_end =>
      obtain rfl := Option.some.inj moved
      have outcome : normal thread task value pool.world := safe.threads thread _ at_end
      obtain ⟨kept, relies⟩ := obeys.ends thread task (.ok value) pool.world safe.inv outcome
      exact safe.retire obeys thread _ kept relies
    · next task error at_end =>
      obtain rfl := Option.some.inj moved
      have outcome : exceptional thread error pool.world := safe.threads thread _ at_end
      obtain ⟨kept, relies⟩ := obeys.ends thread task (.error error) pool.world safe.inv outcome
      exact safe.retire obeys thread _ kept relies
    · cases moved
  | crash thread =>
    obtain rfl := Option.some.inj moved
    exact safe.retire obeys thread pool.world safe.inv fun other task _ => (contract other task).rely_refl _
  | move move =>
    obtain ⟨world, stepped, rfl⟩ := Option.map_eq_some_iff.mp moved
    obtain ⟨kept, relies⟩ := obeys.move move pool.world world safe.inv stepped
    exact ⟨kept, fun other running live => Safe.rely (obeys.normal_stable other _) (obeys.exceptional_stable other _)
      (safe.threads other running live) (relies other _) (obeys.inv_eq other _ ▸ kept), safe.apart⟩

-- Every pool reached by allowed events from an idle one is safe.
theorem reaches_safe {start pool : Pool ι I σ Task α}
    (initial : inv start.world) (idle : ∀ thread, start.threads.get? thread = none)
    (reached : Reaches sys.step allowed start pool) : PoolSafe contract inv apart normal exceptional pool := by
  refine reached.invariant _ ⟨initial, ?_, ?_⟩ fun s event t safe ok moved => safe.step obeys ok moved
  · intro thread program live
    rw [idle thread] at live
    cases live
  · intro first second _ live
    rw [idle first] at live
    cases live

end System
end Pools
end PrAgent
