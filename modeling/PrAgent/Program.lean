import Mathlib.Logic.Basic
set_option autoImplicit false

namespace PrAgent

-- The atomic operations a program may ask for, the answer each one gives, and the errors it may raise.
structure Interface where
  Op : Type
  Ans : Op → Type
  Err : Type

-- A program suspended at its next operation; other parties may act at every `call`.
inductive Program (I : Interface) (α : Type) : Type
  | done (value : α)
  | raise (error : I.Err)
  | call (op : I.Op) (next : Except I.Err (I.Ans op) → Program I α)

namespace Program

variable {I : Interface} {α β : Type}

def bind : Program I α → (α → Program I β) → Program I β
  | .done value, f => f value
  | .raise error, _ => .raise error
  | .call op next, f => .call op fun answer => bind (next answer) f

def catchError : Program I α → (I.Err → Program I α) → Program I α
  | .done value, _ => .done value
  | .raise error, handler => handler error
  | .call op next, handler => .call op fun answer => catchError (next answer) handler

-- The outcome of a program as a value: what a `try` block hands to the code after it.
def attempt : Program I α → Program I (Except I.Err α)
  | .done value => .done (.ok value)
  | .raise error => .done (.error error)
  | .call op next => .call op fun answer => attempt (next answer)

def ofExcept : Except I.Err α → Program I α
  | .ok value => .done value
  | .error error => .raise error

def perform (op : I.Op) : Program I (I.Ans op) := .call op ofExcept

instance : Monad (Program I) where
  pure := .done
  bind := bind

instance : MonadExceptOf I.Err (Program I) where
  throw := .raise
  tryCatch := catchError

end Program

-- What a thread may rely on and must guarantee, around operations with semantics `act`.
-- `inv` is a global invariant: it may be assumed before each operation.
structure Contract (I : Interface) (σ : Type) where
  act : (op : I.Op) → σ → Except I.Err (I.Ans op) → σ → Prop
  inv : σ → Prop
  rely : σ → σ → Prop
  guarantee : σ → σ → Prop
  rely_refl : ∀ s, rely s s
  rely_trans : ∀ {s t u}, rely s t → rely t u → rely s u

section Reasoning

variable {I : Interface} {σ α β : Type} (c : Contract I σ)

-- Under interference, every operation of the program keeps the guarantee and the outcome satisfies the postcondition.
def Safe (normal : α → σ → Prop) (exceptional : I.Err → σ → Prop) : Program I α → σ → Prop
  | .done value, s => normal value s
  | .raise error, s => exceptional error s
  | .call op next, s => ∀ t, c.rely s t → c.inv t → ∀ answer u, c.act op t answer u →
      c.guarantee t u ∧ Safe normal exceptional (next answer) u

def Stable (assertion : σ → Prop) : Prop :=
  ∀ s t, assertion s → c.rely s t → c.inv t → assertion t

def Triple (before : σ → Prop) (program : Program I α) (normal : α → σ → Prop)
    (exceptional : I.Err → σ → Prop) : Prop :=
  ∀ s, before s → Safe c normal exceptional program s

variable {c}

variable {exceptional : I.Err → σ → Prop} {program : Program I α}

theorem Safe.rely {normal : α → σ → Prop}
    (normalStable : ∀ value, Stable c (normal value)) (exceptionalStable : ∀ error, Stable c (exceptional error))
    {s t : σ} (safe : Safe c normal exceptional program s) (step : c.rely s t)
    (inv : c.inv t) : Safe c normal exceptional program t := by
  cases program with
  | done value => exact normalStable value s t safe step inv
  | raise error => exact exceptionalStable error s t safe step inv
  | call op next => exact fun u later => safe u (c.rely_trans step later)

theorem Safe.conseq {normal normal' : α → σ → Prop} {exceptional exceptional' : I.Err → σ → Prop}
    (weaker : ∀ value s, normal value s → normal' value s)
    (weakerError : ∀ error s, exceptional error s → exceptional' error s) (program : Program I α) :
    ∀ s, Safe c normal exceptional program s → Safe c normal' exceptional' program s := by
  induction program with
  | done value => exact weaker value
  | raise error => exact weakerError error
  | call op next ih =>
    intro s safe t step inv answer u act
    obtain ⟨kept, rest⟩ := safe t step inv answer u act
    exact ⟨kept, ih answer u rest⟩

theorem Safe.bind {middle : α → σ → Prop} {normal : β → σ → Prop}
    {f : α → Program I β} (rest : ∀ value s, middle value s → Safe c normal exceptional (f value) s)
    (program : Program I α) :
    ∀ s, Safe c middle exceptional program s → Safe c normal exceptional (program.bind f) s := by
  induction program with
  | done value => exact rest value
  | raise error => exact fun _ safe => safe
  | call op next ih =>
    intro s safe t step inv answer u act
    obtain ⟨kept, safe⟩ := safe t step inv answer u act
    exact ⟨kept, ih answer u safe⟩

theorem Safe.attempt {middle : Except I.Err α → σ → Prop} (program : Program I α) :
    ∀ s, Safe c (fun value => middle (.ok value)) (fun error => middle (.error error)) program s →
      Safe c middle exceptional program.attempt s := by
  induction program with
  | done value => exact fun _ safe => safe
  | raise error => exact fun _ safe => safe
  | call op next ih =>
    intro s safe t step inv answer u act
    obtain ⟨kept, safe⟩ := safe t step inv answer u act
    exact ⟨kept, ih answer u safe⟩

-- A fact that neither the thread's own steps nor those of the others undo holds at the end if it held at the start.
theorem Safe.frame {normal : α → σ → Prop} {fact : σ → Prop}
    (relies : ∀ s t, fact s → c.rely s t → fact t) (keeps : ∀ s t, fact s → c.guarantee s t → fact t)
    (program : Program I α) : ∀ s, fact s → Safe c normal exceptional program s →
      Safe c (fun value s => normal value s ∧ fact s) (fun error s => exceptional error s ∧ fact s) program s := by
  induction program with
  | done value => exact fun s holds safe => ⟨safe, holds⟩
  | raise error => exact fun s holds safe => ⟨safe, holds⟩
  | call op next ih =>
    intro s holds safe t step inv answer u act
    obtain ⟨kept, rest⟩ := safe t step inv answer u act
    exact ⟨kept, ih answer u (keeps t u (relies s t holds step) kept) rest⟩

namespace Triple

variable {p p' : σ → Prop} {normal normal' : α → σ → Prop} {exceptional exceptional' : I.Err → σ → Prop}

theorem pure {value : α} (post : ∀ s, p s → normal value s) :
    Triple c p (Pure.pure value : Program I α) normal exceptional := post

theorem throw {error : I.Err} (post : ∀ s, p s → exceptional error s) :
    Triple c p (throw error : Program I α) normal exceptional := post

theorem perform {op : I.Op} {normal : I.Ans op → σ → Prop} (stable : Stable c p)
    (post : ∀ s answer t, p s → c.inv s → c.act op s answer t → c.guarantee s t ∧
      (match answer with | .ok value => normal value t | .error error => exceptional error t)) :
    Triple c p (Program.perform op) normal exceptional := by
  intro s holds t step inv answer u act
  obtain ⟨kept, after⟩ := post t answer u (stable s t holds step inv) inv act
  refine ⟨kept, ?_⟩
  cases answer with
  | ok value => exact after
  | error error => exact after

theorem bind {m : α → σ → Prop} {normal : β → σ → Prop} {f : α → Program I β} (first : Triple c p program m exceptional)
    (rest : ∀ value, Triple c (m value) (f value) normal exceptional) :
    Triple c p (program >>= f) normal exceptional :=
  fun s holds => Safe.bind rest program s (first s holds)

theorem attempt {m : Except I.Err α → σ → Prop} (body : Triple c p program (fun value => m (.ok value)) (fun error => m (.error error))) :
    Triple c p program.attempt m exceptional :=
  fun s holds => Safe.attempt program s (body s holds)

theorem conseq (body : Triple c p program normal exceptional)
    (stronger : ∀ s, p' s → p s) (weaker : ∀ value s, normal value s → normal' value s)
    (weakerError : ∀ error s, exceptional error s → exceptional' error s) :
    Triple c p' program normal' exceptional' :=
  fun s holds => Safe.conseq weaker weakerError program s (body s (stronger s holds))

theorem weaken (body : Triple c p program normal exceptional) (weaker : ∀ value s, normal value s → normal' value s)
    (weakerError : ∀ error s, exceptional error s → exceptional' error s) : Triple c p program normal' exceptional' :=
  body.conseq (fun _ holds => holds) weaker weakerError

theorem weakenError (body : Triple c p program normal exceptional)
    (weakerError : ∀ error s, exceptional error s → exceptional' error s) : Triple c p program normal exceptional' :=
  body.weaken (fun _ _ holds => holds) weakerError

theorem strengthen (body : Triple c p program normal exceptional) (stronger : ∀ s, p' s → p s) : Triple c p' program normal exceptional :=
  fun s holds => body s (stronger s holds)

theorem ite {condition : Prop} [Decidable condition] {yes no : Program I α} (whenTrue : condition → Triple c p yes normal exceptional)
    (whenFalse : ¬condition → Triple c p no normal exceptional) :
    Triple c p (if condition then yes else no) normal exceptional := by
  by_cases holds : condition
  · rw [if_pos holds]
    exact whenTrue holds
  · rw [if_neg holds]
    exact whenFalse holds

theorem ofExcept_bind {result : Except I.Err α} {rest : α → Program I β} {normal : β → σ → Prop}
    (raises : ∀ error s, result = .error error → p s → exceptional error s)
    (continues : ∀ value, result = .ok value → Triple c p (rest value) normal exceptional) :
    Triple c p (Program.ofExcept result >>= rest) normal exceptional := by
  cases result with
  | ok value => exact continues value rfl
  | error error => exact fun s holds => raises error s rfl holds

theorem frame {fact : σ → Prop} (relies : ∀ s t, fact s → c.rely s t → fact t)
    (keeps : ∀ s t, fact s → c.guarantee s t → fact t) (body : Triple c p program normal exceptional) :
    Triple c (fun s => p s ∧ fact s) program (fun value s => normal value s ∧ fact s)
      (fun error s => exceptional error s ∧ fact s) :=
  fun s holds => Safe.frame relies keeps program s holds.2 (body s holds.1)

theorem pull {fact : Prop} (body : fact → Triple c p program normal exceptional) :
    Triple c (fun s => fact ∧ p s) program normal exceptional :=
  fun s holds => body holds.1 s holds.2

end Triple
end Reasoning
end PrAgent
