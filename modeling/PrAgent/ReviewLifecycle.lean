import PrAgent.Table
import Mathlib.Data.Int.ConditionallyCompleteOrder
import Mathlib.Data.List.MinMax
import Mathlib.Order.ConditionallyCompleteLattice.Basic
import Mathlib.Data.Prod.Lex
set_option autoImplicit false

namespace PrAgent

inductive ReviewState
  | «open» | closed | merged
  deriving DecidableEq, Repr

-- `observedAt` is the instant in microseconds that a `timestamptz` holds.
structure ReviewLifecycleObservation where
  state : ReviewState
  observedAt : Int
  deriving DecidableEq, Repr

structure ReviewLifecycle extends ReviewLifecycleObservation where
  webhookEventId : String
  deriving DecidableEq, Repr

-- `pr_review_lifecycle`, by its resource key.
abbrev ReviewLifecycles := Table String ReviewLifecycle

section Queries

def loadReviewLifecycle (lifecycles : ReviewLifecycles) (resourceKey : String) : Option ReviewState :=
  (lifecycles.get? resourceKey).map fun row => row.state

-- `SELECT NOT EXISTS (SELECT 1 … WHERE resource_key = $1 AND NOT (…))`.
def reviewLifecycleObservationAccepted (lifecycles : ReviewLifecycles) (resourceKey : String)
    (observation : ReviewLifecycleObservation) : Bool :=
  !lifecycles.any fun key row =>
    key = resourceKey &&
      !(row.state ≠ .merged &&
        (observation.observedAt > row.observedAt ||
          (observation.observedAt = row.observedAt &&
            (observation.state = .merged || (observation.state = .closed && row.state = .open)))))

-- `INSERT … ON CONFLICT (resource_key) DO UPDATE … WHERE … RETURNING state`.
def recordReviewLifecycleObservation (lifecycles : ReviewLifecycles) (resourceKey : String)
    (observation : ReviewLifecycleObservation) (webhookEventId : String) : Bool × ReviewLifecycles :=
  let excluded : ReviewLifecycle := { toReviewLifecycleObservation := observation, webhookEventId }
  match lifecycles.get? resourceKey with
  | none => (true, lifecycles.set resourceKey excluded)
  | some row =>
    if row.state ≠ .merged ∧
        (excluded.observedAt > row.observedAt ∨
          (excluded.observedAt = row.observedAt ∧
            (excluded.state = .merged ∨ (excluded.state = .closed ∧ row.state = .open)))) then
      (true, lifecycles.set resourceKey excluded)
    else (false, lifecycles)

end Queries

section Order

def ReviewState.rank : ReviewState → Nat
  | .open => 0
  | .closed => 1
  | .merged => 2

-- Observations in the order of time, and those of one time from open to merged.
def ReviewLifecycleObservation.position (observation : ReviewLifecycleObservation) : Int ×ₗ Nat :=
  toLex (observation.observedAt, observation.state.rank)

theorem ReviewState.rank_injective {left right : ReviewState} (same : left.rank = right.rank) : left = right := by
  cases left <;> cases right <;> first | rfl | cases same

theorem position_injective {left right : ReviewLifecycleObservation} (same : left.position = right.position) :
    left = right := by
  obtain ⟨times, ranks⟩ := Prod.mk.inj (toLex_inj.mp same)
  cases left
  cases right
  simp only at times ranks
  rw [times, ReviewState.rank_injective ranks]

theorem position_lt_iff (left right : ReviewLifecycleObservation) :
    left.position < right.position ↔ left.observedAt < right.observedAt ∨
      (left.observedAt = right.observedAt ∧ left.state.rank < right.state.rank) := by
  rw [ReviewLifecycleObservation.position, ReviewLifecycleObservation.position, Prod.Lex.toLex_lt_toLex]

-- The condition of the upsert on a row and an observation.
def Advances (row observation : ReviewLifecycleObservation) : Prop :=
  row.state ≠ .merged ∧ row.position < observation.position

theorem advances_iff (row observation : ReviewLifecycleObservation) :
    Advances row observation ↔ row.state ≠ .merged ∧
      (observation.observedAt > row.observedAt ∨
        (observation.observedAt = row.observedAt ∧
          (observation.state = .merged ∨ (observation.state = .closed ∧ row.state = .open)))) := by
  rw [Advances, position_lt_iff]
  constructor
  · rintro ⟨unmerged, later | ⟨same, rank⟩⟩
    · exact ⟨unmerged, .inl later⟩
    · refine ⟨unmerged, .inr ⟨same.symm, ?_⟩⟩
      cases before : row.state <;> cases after : observation.state <;>
        simp [before, after, ReviewState.rank] at unmerged rank ⊢
  · rintro ⟨unmerged, later | ⟨same, tie⟩⟩
    · exact ⟨unmerged, .inl later⟩
    · refine ⟨unmerged, .inr ⟨same.symm, ?_⟩⟩
      cases before : row.state <;> cases after : observation.state <;>
        simp [before, after, ReviewState.rank] at unmerged tie ⊢

variable (lifecycles : ReviewLifecycles) (resourceKey : String) (observation : ReviewLifecycleObservation)
  (webhookEventId : String)

theorem observation_accepted_iff :
    reviewLifecycleObservationAccepted lifecycles resourceKey observation = true ↔
      ∀ row, lifecycles.get? resourceKey = some row → Advances row.toReviewLifecycleObservation observation := by
  have test (row : ReviewLifecycle) : (decide (row.state ≠ .merged) &&
      (decide (observation.observedAt > row.observedAt) ||
        (decide (observation.observedAt = row.observedAt) && (decide (observation.state = .merged) ||
          (decide (observation.state = .closed) && decide (row.state = .open)))))) = true ↔
      Advances row.toReviewLifecycleObservation observation := by
    rw [advances_iff]
    simp
  rw [reviewLifecycleObservationAccepted, Bool.not_eq_true', ← Bool.not_eq_true, Table.any_iff]
  simp only [Bool.and_eq_true, Bool.not_eq_true', ← Bool.not_eq_true, test, decide_eq_true_eq]
  constructor
  · intro absent row stored
    by_contra behind
    exact absent ⟨resourceKey, row, stored, rfl, behind⟩
  · rintro ahead ⟨key, row, stored, rfl, behind⟩
    exact behind (ahead row stored)

theorem recorded_iff :
    (recordReviewLifecycleObservation lifecycles resourceKey observation webhookEventId).1 = true ↔
      ∀ row, lifecycles.get? resourceKey = some row → Advances row.toReviewLifecycleObservation observation := by
  unfold recordReviewLifecycleObservation
  cases stored : lifecycles.get? resourceKey with
  | none => simp
  | some row =>
    simp only [Option.some.injEq, forall_eq', advances_iff]
    split <;> simp_all

theorem recorded_table :
    (recordReviewLifecycleObservation lifecycles resourceKey observation webhookEventId).2 =
      if (recordReviewLifecycleObservation lifecycles resourceKey observation webhookEventId).1 then
        lifecycles.set resourceKey { toReviewLifecycleObservation := observation, webhookEventId }
      else lifecycles := by
  unfold recordReviewLifecycleObservation
  cases lifecycles.get? resourceKey with
  | none => rfl
  | some row =>
    simp only
    split <;> rfl

end Order

section Convergence

-- An observation of a pull request with the event that brought it.
abbrev ObservedEvent := ReviewLifecycleObservation × String

def recordObservation (resourceKey : String) (lifecycles : ReviewLifecycles) (event : ObservedEvent) : ReviewLifecycles :=
  (recordReviewLifecycleObservation lifecycles resourceKey event.1 event.2).2

def recordObservations (lifecycles : ReviewLifecycles) (resourceKey : String) (history : List ObservedEvent) :
    ReviewLifecycles :=
  history.foldl (recordObservation resourceKey) lifecycles

def storedObservation (lifecycles : ReviewLifecycles) (resourceKey : String) : Option ReviewLifecycleObservation :=
  (lifecycles.get? resourceKey).map ReviewLifecycle.toReviewLifecycleObservation

def NoneAfterMerged (observations : List ReviewLifecycleObservation) : Prop :=
  ∀ merged ∈ observations, merged.state = .merged → ∀ other ∈ observations, other.observedAt ≤ merged.observedAt

def positions (history : List ObservedEvent) : List (Int ×ₗ Nat) :=
  history.map fun event => event.1.position

variable {lifecycles : ReviewLifecycles} {resourceKey : String}

theorem stored_after (event : ObservedEvent) :
    storedObservation (recordObservation resourceKey lifecycles event) resourceKey =
      if reviewLifecycleObservationAccepted lifecycles resourceKey event.1 then some event.1
      else storedObservation lifecycles resourceKey := by
  have same : reviewLifecycleObservationAccepted lifecycles resourceKey event.1 =
      (recordReviewLifecycleObservation lifecycles resourceKey event.1 event.2).1 := by
    rw [Bool.eq_iff_iff, observation_accepted_iff, recorded_iff]
  rw [recordObservation, recorded_table, ← same]
  split
  · rw [storedObservation, Table.get?_set_self]
    rfl
  · rfl

-- A row that is merged is as late as every observation of the history.
theorem position_le_of_merged {observations : List ReviewLifecycleObservation} (none : NoneAfterMerged observations)
    {merged other : ReviewLifecycleObservation} (listed : merged ∈ observations) (state : merged.state = .merged)
    (listed' : other ∈ observations) : other.position ≤ merged.position := by
  by_contra behind
  rcases (position_lt_iff merged other).mp (not_le.mp behind) with later | ⟨_, rank⟩
  · exact absurd (none merged listed state other listed') (not_le.mpr later)
  · rw [state] at rank
    cases after : other.state <;> simp [after, ReviewState.rank] at rank

-- The stored observation is the last one of the history in the order of observations.
theorem stored_maximum (fresh : lifecycles.get? resourceKey = none) (history : List ObservedEvent)
    (none : NoneAfterMerged (history.map Prod.fst)) :
    (storedObservation (recordObservations lifecycles resourceKey history) resourceKey).map
        ReviewLifecycleObservation.position = (positions history).maximum := by
  induction history using List.reverseRecOn with
  | nil =>
    rw [recordObservations, List.foldl_nil, storedObservation, fresh]
    rfl
  | append_singleton history event ih =>
    have before : NoneAfterMerged (history.map Prod.fst) := by
      intro merged listed state other listed'
      refine none merged ?_ state other ?_ <;> simp_all
    have stored := ih before
    rw [recordObservations, List.foldl_append, List.foldl_cons, List.foldl_nil, stored_after]
    rw [positions, List.map_append, List.map_singleton, List.maximum_concat]
    change _ = max (positions history).maximum _
    rw [← stored]
    change Option.map _ (if reviewLifecycleObservationAccepted (recordObservations lifecycles resourceKey history)
      resourceKey event.1 then _ else _) = _
    cases held : (recordObservations lifecycles resourceKey history).get? resourceKey with
    | none =>
      have accepts : reviewLifecycleObservationAccepted (recordObservations lifecycles resourceKey history) resourceKey
          event.1 = true := (observation_accepted_iff _ _ _).mpr fun row other => by rw [held] at other; cases other
      rw [if_pos accepts, storedObservation, held]
      rfl
    | some row =>
      have here : storedObservation (recordObservations lifecycles resourceKey history) resourceKey =
          some row.toReviewLifecycleObservation := by rw [storedObservation, held]; rfl
      rw [here] at stored ⊢
      have maximum : (positions history).maximum = (row.toReviewLifecycleObservation.position : WithBot _) := stored.symm
      obtain ⟨earlier, listed, same⟩ := List.mem_map.mp (List.maximum_mem maximum)
      have row_listed : row.toReviewLifecycleObservation ∈ (history ++ [event]).map Prod.fst := by
        rw [← position_injective same]
        exact List.mem_map_of_mem (List.mem_append_left _ listed)
      have event_listed : event.1 ∈ (history ++ [event]).map Prod.fst := List.mem_map_of_mem (by simp)
      by_cases ahead : row.toReviewLifecycleObservation.position < event.1.position
      · have unmerged : row.state ≠ .merged := fun state =>
          absurd (position_le_of_merged none row_listed state event_listed) (not_le.mpr ahead)
        have accepts : reviewLifecycleObservationAccepted (recordObservations lifecycles resourceKey history) resourceKey
            event.1 = true := by
          refine (observation_accepted_iff _ _ _).mpr fun other stored' => ?_
          rw [held] at stored'
          obtain rfl := Option.some.inj stored'
          exact ⟨unmerged, ahead⟩
        rw [if_pos accepts]
        exact (max_eq_right (WithBot.coe_le_coe.mpr ahead.le)).symm
      · have refuses : ¬reviewLifecycleObservationAccepted (recordObservations lifecycles resourceKey history) resourceKey
            event.1 = true := fun accepts => ahead ((observation_accepted_iff _ _ _).mp accepts row held).2
        rw [if_neg refuses]
        change Option.map _ (storedObservation (recordObservations lifecycles resourceKey history) resourceKey) = _
        rw [here]
        exact (max_eq_left (WithBot.coe_le_coe.mpr (not_lt.mp ahead))).symm

theorem maximum_perm {positions positions' : List (Int ×ₗ Nat)} (same : positions.Perm positions') :
    positions.maximum = positions'.maximum :=
  le_antisymm (List.maximum_mono same.subset) (List.maximum_mono same.symm.subset)

-- The order in which the observations come does not matter.
theorem stored_perm (fresh : lifecycles.get? resourceKey = none) {history history' : List ObservedEvent}
    (none : NoneAfterMerged (history.map Prod.fst)) (same : history.Perm history') :
    storedObservation (recordObservations lifecycles resourceKey history') resourceKey =
      storedObservation (recordObservations lifecycles resourceKey history) resourceKey := by
  have none' : NoneAfterMerged (history'.map Prod.fst) := by
    intro merged listed state other listed'
    exact none merged ((same.map Prod.fst).mem_iff.mpr listed) state other ((same.map Prod.fst).mem_iff.mpr listed')
  have first := stored_maximum fresh history none
  have second := stored_maximum fresh history' none'
  have positions_same : (positions history).maximum = (positions history').maximum :=
    maximum_perm (List.Perm.map _ same)
  rw [← positions_same, ← first] at second
  exact Option.map_injective (fun _ _ => position_injective) second

end Convergence
end PrAgent
