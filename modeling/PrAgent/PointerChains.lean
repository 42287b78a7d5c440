import Mathlib.Data.List.Basic
import Mathlib.Logic.Relation
set_option autoImplicit false

namespace PrAgent

section Chains

variable {α : Type}

-- Each node points at no more than one other.
def PointsTo (next : α → Option α) (a b : α) : Prop := next a = some b

def Leads (next : α → Option α) : α → α → Prop := Relation.ReflTransGen (PointsTo next)

def Acyclic (edge : α → α → Prop) : Prop := ∀ a, ¬Relation.TransGen edge a a

variable {next : α → Option α}

theorem returns_of_pointsTo {a b : α} (returns : Relation.TransGen (PointsTo next) a a) (points : PointsTo next a b) :
    Relation.TransGen (PointsTo next) b b := by
  obtain ⟨c, first, rest⟩ := Relation.TransGen.head'_iff.mp returns
  obtain rfl : b = c := Option.some.inj (points.symm.trans first)
  exact Relation.TransGen.tail' rest points

-- A chain that returns to its start has no end.
theorem no_end_of_returns {a r : α} (leads : Leads next a r) (returns : Relation.TransGen (PointsTo next) a a) :
    next r ≠ none := by
  induction leads using Relation.ReflTransGen.head_induction_on with
  | refl =>
    obtain ⟨c, first, _⟩ := Relation.TransGen.head'_iff.mp returns
    rw [first]
    exact Option.some_ne_none c
  | head points _ ih => exact ih (returns_of_pointsTo returns points)

theorem leads_end_unique {a r r' : α} (leads : Leads next a r) (leads' : Leads next a r') (last : next r = none)
    (last' : next r' = none) : r = r' := by
  induction leads using Relation.ReflTransGen.head_induction_on with
  | refl =>
    rcases Relation.ReflTransGen.cases_head leads' with same | ⟨b, points, _⟩
    · exact same
    · rw [PointsTo, last] at points
      cases points
  | head points _ ih =>
    rcases Relation.ReflTransGen.cases_head leads' with same | ⟨b, points', rest⟩
    · subst same
      rw [PointsTo, last'] at points
      cases points
    · obtain rfl := Option.some.inj (points.symm.trans points')
      exact ih rest

theorem leads_of_end {a b : α} (leads : Leads next a b) (last : next a = none) : b = a := by
  rcases Relation.ReflTransGen.cases_head leads with same | ⟨c, points, _⟩
  · exact same.symm
  · rw [PointsTo, last] at points
    cases points

section Follow

variable [DecidableEq α]

-- Follows the pointers to the end of the chain; `none` when it comes back to a node.
def follow (next : α → Option α) : Nat → List α → α → Option α
  | 0, _, _ => none
  | fuel + 1, seen, current =>
    if current ∈ seen then none
    else match next current with
      | none => some current
      | some pointed => follow next fuel (current :: seen) pointed

theorem follow_end {fuel : Nat} {seen : List α} {a r : α} (found : follow next fuel seen a = some r) :
    Leads next a r ∧ next r = none := by
  induction fuel generalizing seen a with
  | zero => cases found
  | succ fuel ih =>
    unfold follow at found
    split at found
    · cases found
    · split at found
      · next last =>
        obtain rfl := Option.some.inj found
        exact ⟨.refl, last⟩
      · next pointed points =>
        obtain ⟨leads, last⟩ := ih found
        exact ⟨.head points leads, last⟩

-- With a unit of fuel for each node that points, and one more, the end of every chain is found.
theorem follow_complete {keys : List α} (covers : ∀ a, next a ≠ none → a ∈ keys) {fuel : Nat} {seen : List α} {a r : α}
    (leads : Leads next a r) (last : next r = none) (behind : ∀ s ∈ seen, Relation.TransGen (PointsTo next) s a)
    (enough : (keys.filter (· ∉ seen)).length < fuel) : follow next fuel seen a = some r := by
  induction fuel generalizing seen a with
  | zero => omega
  | succ fuel ih =>
    have new : a ∉ seen := fun listed => no_end_of_returns leads (behind a listed) last
    rw [follow, if_neg new]
    rcases Relation.ReflTransGen.cases_head leads with same | ⟨b, points, rest⟩
    · subst same
      rw [last]
    · have pointed : next a = some b := points
      rw [pointed]
      refine ih rest ?_ ?_
      · intro s listed
        rcases List.mem_cons.mp listed with rfl | before
        · exact .single points
        · exact (behind s before).tail points
      · have here : a ∈ keys.filter (· ∉ seen) := by
          rw [List.mem_filter]
          exact ⟨covers a (by rw [pointed]; exact Option.some_ne_none b), decide_eq_true new⟩
        have fewer : (keys.filter (· ∉ a :: seen)).length < (keys.filter (· ∉ seen)).length := by
          have split : keys.filter (· ∉ a :: seen) = (keys.filter (· ∉ seen)).filter (· ≠ a) := by
            rw [List.filter_filter]
            congr 1
            funext s
            simp [List.mem_cons]
          rw [split]
          exact List.length_filter_lt_length_iff_exists.mpr ⟨a, here, by simp⟩
        omega

theorem follow_eq_some_iff {keys : List α} (covers : ∀ a, next a ≠ none → a ∈ keys) (a r : α) :
    follow next (keys.length + 1) [] a = some r ↔ Leads next a r ∧ next r = none := by
  constructor
  · exact follow_end
  · rintro ⟨leads, last⟩
    refine follow_complete covers leads last ?_ ?_
    · intro s listed
      cases listed
    · exact Nat.lt_succ_of_le (List.length_filter_le _ _)

end Follow

section Edges

variable {edge edge' : α → α → Prop}

-- A new edge closes a cycle only when its target leads back to its source.
theorem acyclic_of_new_edge {source target : α} (acyclic : Acyclic edge)
    (only : ∀ {a b}, edge' a b → edge a b ∨ (a = source ∧ b = target))
    (apart : ¬Relation.ReflTransGen edge target source) : Acyclic edge' := by
  have old : ∀ {a b}, Relation.TransGen edge' a b →
      Relation.TransGen edge a b ∨ (Relation.ReflTransGen edge a source ∧ Relation.ReflTransGen edge target b) := by
    intro a b path
    induction path with
    | single step =>
      rcases only step with known | ⟨rfl, rfl⟩
      · exact .inl (.single known)
      · exact .inr ⟨.refl, .refl⟩
    | tail before step ih =>
      rcases only step with known | ⟨rfl, rfl⟩
      · rcases ih with path | ⟨first, second⟩
        · exact .inl (path.tail known)
        · exact .inr ⟨first, second.tail known⟩
      · rcases ih with path | ⟨_, back⟩
        · exact .inr ⟨path.to_reflTransGen, .refl⟩
        · exact absurd back apart
  intro a returns
  rcases old returns with cycle | ⟨first, second⟩
  · exact acyclic a cycle
  · exact apart (second.trans first)

theorem acyclic_mono (acyclic : Acyclic edge) (only : ∀ {a b}, edge' a b → edge a b) : Acyclic edge' := by
  intro a returns
  exact acyclic a (returns.lift id fun _ _ => only)

end Edges
end Chains
end PrAgent
