import Mathlib.Logic.Basic
set_option autoImplicit false

namespace PrAgent

section Schedules

variable {σ ε : Type} (step : σ → ε → Option σ)

-- Events in the order in which they are tried. One that cannot happen where it comes changes nothing.
def schedule (start : σ) (events : List ε) : σ := events.foldl (fun s event => (step s event).getD s) start

variable {step}

@[simp] theorem schedule_nil (start : σ) : schedule step start [] = start := rfl

theorem schedule_cons (start : σ) (event : ε) (rest : List ε) :
    schedule step start (event :: rest) = schedule step ((step start event).getD start) rest := rfl

theorem schedule_append (start : σ) (first second : List ε) :
    schedule step start (first ++ second) = schedule step (schedule step start first) second :=
  List.foldl_append

theorem schedule_invariant (inv : σ → Prop) (keeps : ∀ s event t, inv s → step s event = some t → inv t)
    (events : List ε) {start : σ} (initial : inv start) : inv (schedule step start events) := by
  induction events generalizing start with
  | nil => exact initial
  | cons event rest ih =>
    rw [schedule_cons]
    cases moved : step start event with
    | none => exact ih initial
    | some next => exact ih (keeps start event next initial moved)

variable (step)

-- How many of the events did happen.
def happened (start : σ) : List ε → Nat
  | [] => 0
  | event :: rest =>
    match step start event with
    | some next => happened next rest + 1
    | none => happened start rest

variable {step}

-- Where every event that happens uses up some of a measure, a schedule has no more of them than there was at the start.
theorem happened_add_le (inv : σ → Prop) (measure : σ → Nat)
    (keeps : ∀ s event t, inv s → step s event = some t → inv t)
    (less : ∀ s event t, inv s → step s event = some t → measure t < measure s) (events : List ε) {start : σ}
    (initial : inv start) : happened step start events + measure (schedule step start events) ≤ measure start := by
  induction events generalizing start with
  | nil => simp [happened]
  | cons event rest ih =>
    cases moved : step start event with
    | none =>
      have later := ih initial
      simpa only [happened, schedule_cons, moved, Option.getD_none] using later
    | some next =>
      have later := ih (keeps start event next initial moved)
      have used := less start event next initial moved
      simp only [happened, schedule_cons, moved, Option.getD_some]
      omega

end Schedules
end PrAgent
