import Mathlib.Logic.Basic
set_option autoImplicit false

namespace PrAgent

section Runs

variable {σ ε : Type} (step : σ → ε → Option σ)

-- A run on given events, cut off at the first one that is not allowed.
def runEvents (allowed : σ → ε → Bool) : List ε → σ → Option σ
  | [], s => some s
  | event :: rest, s => if allowed s event then (step s event).bind (runEvents allowed rest) else none

-- Where a run ends, or `stuck` when it is cut off.
def runTo (allowed : σ → ε → Bool) (events : List ε) (s stuck : σ) : σ :=
  (runEvents step allowed events s).getD stuck

-- The states reached by events that were each allowed where they happened.
inductive Reaches (allowed : σ → ε → Prop) (start : σ) : σ → Prop
  | start : Reaches allowed start start
  | next {s t : σ} {event : ε} (before : Reaches allowed start s) (ok : allowed s event)
      (moved : step s event = some t) : Reaches allowed start t

variable {step}

variable {allowed : σ → ε → Prop}

theorem Reaches.invariant {start s : σ} (inv : σ → Prop) (initial : inv start)
    (keeps : ∀ s event t, inv s → allowed s event → step s event = some t → inv t)
    (reached : Reaches step allowed start s) : inv s := by
  induction reached with
  | start => exact initial
  | next _ ok moved ih => exact keeps _ _ _ ih ok moved

-- An invariant of the run may be added to what is allowed at each of its steps.
theorem Reaches.restrict {allowed allowed' : σ → ε → Prop} {start s : σ} (inv : σ → Prop) (initial : inv start)
    (keeps : ∀ s event t, inv s → allowed s event → step s event = some t → inv t)
    (stronger : ∀ s event, inv s → allowed s event → allowed' s event) (reached : Reaches step allowed start s) :
    Reaches step allowed' start s ∧ inv s := by
  induction reached with
  | start => exact ⟨.start, initial⟩
  | next _ ok moved ih => exact ⟨.next ih.1 (stronger _ _ ih.2 ok) moved, keeps _ _ _ ih.2 ok moved⟩

theorem Reaches.trans {s t u : σ} (first : Reaches step allowed s t) (second : Reaches step allowed t u) : Reaches step allowed s u := by
  induction second with
  | start => exact first
  | next _ ok moved ih => exact .next ih ok moved

theorem reaches_of_run [∀ s event, Decidable (allowed s event)] (events : List ε) {s t : σ}
    (run : runEvents step (fun s event => decide (allowed s event)) events s = some t) : Reaches step allowed s t := by
  induction events generalizing s with
  | nil =>
    obtain rfl : s = t := by simpa [runEvents] using run
    exact .start
  | cons event rest ih =>
    obtain ⟨ok, u, moved, run⟩ : allowed s event ∧ ∃ u, step s event = some u ∧
        runEvents step (fun s event => decide (allowed s event)) rest u = some t := by
      simpa [runEvents, Option.bind_eq_some_iff] using run
    exact Reaches.trans (.next .start ok moved) (ih run)

theorem reaches_runTo [∀ s event, Decidable (allowed s event)] (events : List ε) (s stuck : σ)
    (completes : (runEvents step (fun s event => decide (allowed s event)) events s).isSome = true) :
    Reaches step allowed s (runTo step (fun s event => decide (allowed s event)) events s stuck) := by
  obtain ⟨t, run⟩ := Option.isSome_iff_exists.mp completes
  rw [runTo, run]
  exact reaches_of_run events run

end Runs
end PrAgent
