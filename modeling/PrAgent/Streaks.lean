import Mathlib.Data.List.Infix
set_option autoImplicit false

namespace PrAgent

section Streaks

variable {α : Type} (p : α → Bool)

-- How many of the latest events in a row are of a kind. The latest event comes first.
def streak (events : List α) : Nat := (events.takeWhile p).length

-- At some time so many events in a row were of the kind.
def Burst (size : Nat) (events : List α) : Prop := List.replicate size true <:+: events.map p

variable {p}

@[simp] theorem streak_nil : streak p [] = 0 := rfl

theorem streak_cons (event : α) (events : List α) :
    streak p (event :: events) = if p event then streak p events + 1 else 0 := by
  cases kind : p event with
  | true => simp [streak, kind]
  | false => simp [streak, kind]

theorem replicate_prefix_iff (size : Nat) (events : List α) :
    List.replicate size true <+: events.map p ↔ size ≤ streak p events := by
  induction events generalizing size with
  | nil =>
    cases size with
    | zero => simp
    | succ size => simp [List.replicate_succ]
  | cons event events ih =>
    cases size with
    | zero => simp
    | succ size =>
      rw [List.map_cons, List.replicate_succ, List.cons_prefix_cons, ih size, streak_cons]
      cases kind : p event with
      | true => simp
      | false => simp

theorem burst_nil {size : Nat} (positive : 0 < size) : ¬ Burst p size [] := by
  intro burst
  have none := List.infix_nil.mp burst
  rw [List.replicate_eq_nil_iff] at none
  omega

theorem burst_cons (size : Nat) (event : α) (events : List α) :
    Burst p size (event :: events) ↔ size ≤ streak p (event :: events) ∨ Burst p size events := by
  rw [Burst, List.map_cons, List.infix_cons_iff, ← List.map_cons, replicate_prefix_iff]
  rfl

end Streaks
end PrAgent
