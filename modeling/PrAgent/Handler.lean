import PrAgent.Program
set_option autoImplicit false

namespace PrAgent

section Handlers

variable {I J : Interface} {α β : Type}

-- A program whose operations are carried out by programs over another interface.
def Program.handle (h : (op : I.Op) → Program J (Except I.Err (I.Ans op))) : Program I α → Program J (Except I.Err α)
  | .done value => .done (.ok value)
  | .raise error => .done (.error error)
  | .call op next => (h op).bind fun answer => handle h (next answer)

variable {σ : Type} (c : Contract J σ) (h : (op : I.Op) → Program J (Except I.Err (I.Ans op)))

-- A triple of the handled program: its errors are outcomes, and the handlers themselves raise none.
def Handled (before : σ → Prop) (program : Program I α) (normal : α → σ → Prop) (exceptional : I.Err → σ → Prop) : Prop :=
  Triple c before (program.handle h)
    (fun outcome s => match outcome with | .ok value => normal value s | .error error => exceptional error s)
    (fun _ _ => False)

variable {c h}

theorem handle_bind (f : α → Program I β) (program : Program I α) :
    (program.bind f).handle h = (program.handle h).bind fun outcome => match outcome with
      | .ok value => (f value).handle h
      | .error error => .done (.error error) := by
  induction program with
  | done value => rfl
  | raise error => rfl
  | call op next ih =>
    simp only [Program.bind, Program.handle]
    generalize h op = handler
    induction handler with
    | done answer => exact ih answer
    | raise error => rfl
    | call op' next' ih' => simp only [Program.bind, ih']

theorem handle_attempt (program : Program I α) :
    program.attempt.handle h = (program.handle h).bind fun outcome => .done (.ok outcome) := by
  induction program with
  | done value => rfl
  | raise error => rfl
  | call op next ih =>
    simp only [Program.attempt, Program.handle]
    generalize h op = handler
    induction handler with
    | done answer => exact ih answer
    | raise error => rfl
    | call op' next' ih' => simp only [Program.bind, ih']

namespace Handled

variable {p p' : σ → Prop} {normal normal' : α → σ → Prop} {exceptional exceptional' : I.Err → σ → Prop}

theorem pure {value : α} (post : ∀ s, p s → normal value s) :
    Handled c h p (Pure.pure value : Program I α) normal exceptional := post

theorem throw {error : I.Err} (post : ∀ s, p s → exceptional error s) :
    Handled c h p (throw error : Program I α) normal exceptional := post

theorem perform {op : I.Op} {normal : I.Ans op → σ → Prop} (body : Triple c p (h op)
      (fun outcome s => match outcome with | .ok value => normal value s | .error error => exceptional error s)
      (fun _ _ => False)) : Handled c h p (Program.perform op) normal exceptional := by
  intro s holds
  refine Safe.bind ?_ (h op) s (body s holds)
  intro outcome t after
  cases outcome with
  | ok value => exact after
  | error error => exact after

variable {program : Program I α}

theorem bind {m : α → σ → Prop} {normal : β → σ → Prop} {f : α → Program I β} (first : Handled c h p program m exceptional)
    (rest : ∀ value, Handled c h (m value) (f value) normal exceptional) :
    Handled c h p (program >>= f) normal exceptional := by
  intro s holds
  have split : (program >>= f).handle h = _ := handle_bind f program
  rw [split]
  refine Safe.bind ?_ (program.handle h) s (first s holds)
  intro outcome t after
  cases outcome with
  | ok value => exact rest value t after
  | error error => exact after

theorem attempt {m : Except I.Err α → σ → Prop}
    (body : Handled c h p program (fun value => m (.ok value)) (fun error => m (.error error))) :
    Handled c h p program.attempt m exceptional := by
  intro s holds
  rw [handle_attempt]
  refine Safe.bind ?_ (program.handle h) s (body s holds)
  intro outcome t after
  cases outcome with
  | ok value => exact after
  | error error => exact after

theorem conseq (body : Handled c h p program normal exceptional)
    (stronger : ∀ s, p' s → p s) (weaker : ∀ value s, normal value s → normal' value s)
    (weakerError : ∀ error s, exceptional error s → exceptional' error s) :
    Handled c h p' program normal' exceptional' := by
  refine Triple.conseq body stronger ?_ fun _ _ none => none
  intro outcome s after
  cases outcome with
  | ok value => exact weaker value s after
  | error error => exact weakerError error s after

theorem weaken (body : Handled c h p program normal exceptional)
    (weaker : ∀ value s, normal value s → normal' value s) (weakerError : ∀ error s, exceptional error s → exceptional' error s) :
    Handled c h p program normal' exceptional' := body.conseq (fun _ holds => holds) weaker weakerError

theorem strengthen (body : Handled c h p program normal exceptional)
    (stronger : ∀ s, p' s → p s) : Handled c h p' program normal exceptional :=
  fun s holds => body s (stronger s holds)

theorem ofExcept_bind {result : Except I.Err α} {rest : α → Program I β} {normal : β → σ → Prop}
    (raises : ∀ error s, result = .error error → p s → exceptional error s)
    (continues : ∀ value, result = .ok value → Handled c h p (rest value) normal exceptional) :
    Handled c h p (Program.ofExcept result >>= rest) normal exceptional := by
  cases result with
  | ok value => exact continues value rfl
  | error error => exact fun s holds => raises error s rfl holds

theorem ite {condition : Prop} [Decidable condition] {yes no : Program I α} (whenTrue : condition → Handled c h p yes normal exceptional)
    (whenFalse : ¬condition → Handled c h p no normal exceptional) :
    Handled c h p (if condition then yes else no) normal exceptional := by
  by_cases holds : condition
  · rw [if_pos holds]
    exact whenTrue holds
  · rw [if_neg holds]
    exact whenFalse holds

end Handled
end Handlers
end PrAgent
