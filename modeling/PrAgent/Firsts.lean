import Mathlib.Data.List.Nodup
import Mathlib.Data.List.Induction
set_option autoImplicit false

namespace PrAgent

section Firsts

variable {α κ : Type} [DecidableEq κ] (key : α → κ)

-- A list in which the first element of a key stays, and later ones of the key are dropped.
def appendFirst (kept : List α) (new : α) : List α :=
  if kept.any fun old => key old = key new then kept else kept ++ [new]

def firsts (history : List α) : List α := history.foldl (appendFirst key) []

theorem firsts_append (history : List α) (new : α) : firsts key (history ++ [new]) = appendFirst key (firsts key history) new := by
  rw [firsts, List.foldl_append]
  rfl

variable {key}

theorem mem_keys_appendFirst (kept : List α) (new : α) (k : κ) :
    k ∈ (appendFirst key kept new).map key ↔ k ∈ kept.map key ∨ k = key new := by
  unfold appendFirst
  by_cases known : (kept.any fun old => key old = key new) = true
  · rw [if_pos known]
    obtain ⟨old, listed, same⟩ := List.any_eq_true.mp known
    have here : key new ∈ kept.map key := List.mem_map.mpr ⟨old, listed, of_decide_eq_true same⟩
    constructor
    · exact .inl
    · rintro (before | rfl)
      · exact before
      · exact here
  · rw [if_neg known]
    simp

theorem nodup_appendFirst {kept : List α} (nodup : (kept.map key).Nodup) (new : α) :
    ((appendFirst key kept new).map key).Nodup := by
  unfold appendFirst
  by_cases known : (kept.any fun old => key old = key new) = true
  · rw [if_pos known]
    exact nodup
  · rw [if_neg known, List.map_append, List.nodup_append]
    refine ⟨nodup, List.nodup_singleton _, ?_⟩
    intro k before k' after same
    obtain ⟨old, listed, keyed⟩ := List.mem_map.mp before
    apply known
    refine List.any_eq_true.mpr ⟨old, listed, ?_⟩
    rw [List.map_singleton, List.mem_singleton] at after
    simp [keyed, same, after]

theorem mem_of_mem_appendFirst {kept : List α} {new element : α} (listed : element ∈ appendFirst key kept new) :
    element ∈ kept ∨ element = new := by
  unfold appendFirst at listed
  by_cases known : (kept.any fun old => key old = key new) = true
  · rw [if_pos known] at listed
    exact .inl listed
  · rw [if_neg known, List.mem_append, List.mem_singleton] at listed
    exact listed

theorem mem_keys_firsts (history : List α) (k : κ) : k ∈ (firsts key history).map key ↔ k ∈ history.map key := by
  induction history using List.reverseRecOn with
  | nil => rfl
  | append_singleton history new ih =>
      rw [firsts_append, mem_keys_appendFirst, ih, List.map_append, List.mem_append, List.map_singleton,
        List.mem_singleton]

theorem nodup_firsts (history : List α) : ((firsts key history).map key).Nodup := by
  induction history using List.reverseRecOn with
  | nil => exact List.nodup_nil
  | append_singleton history new ih =>
      rw [firsts_append]
      exact nodup_appendFirst ih new

theorem mem_of_mem_firsts {history : List α} {element : α} (listed : element ∈ firsts key history) : element ∈ history := by
  induction history using List.reverseRecOn with
  | nil => exact listed
  | append_singleton history new ih =>
      rw [firsts_append] at listed
      rw [List.mem_append, List.mem_singleton]
      exact (mem_of_mem_appendFirst listed).imp_left ih

-- Every element has the first one of its key.
theorem exists_first {history : List α} {element : α} (listed : element ∈ history) :
    ∃ first ∈ firsts key history, key first = key element := by
  have keyed : key element ∈ (firsts key history).map key :=
    (mem_keys_firsts history _).mpr (List.mem_map.mpr ⟨element, listed, rfl⟩)
  exact List.mem_map.mp keyed

-- What is kept is what a search for its key finds first.
theorem mem_firsts_iff {history : List α} {element : α} :
    element ∈ firsts key history ↔ (history.find? fun e => key e = key element) = some element := by
  induction history using List.reverseRecOn with
  | nil => simp [firsts]
  | append_singleton history new ih =>
    rw [firsts_append, List.find?_append]
    unfold appendFirst
    by_cases known : ((firsts key history).any fun old => key old = key new) = true
    · rw [if_pos known, ih]
      cases found : history.find? fun e => key e = key element with
      | some first => simp
      | none =>
        have other : ¬key new = key element := by
          intro same
          obtain ⟨old, listed, keyed⟩ := List.any_eq_true.mp known
          have absent := List.find?_eq_none.mp found old (mem_of_mem_firsts listed)
          rw [of_decide_eq_true keyed, same] at absent
          exact absent (decide_eq_true rfl)
        simp [other]
    · rw [if_neg known, List.mem_append, List.mem_singleton, ih]
      have fresh : ∀ old ∈ history, key old ≠ key new := by
        intro old listed same
        obtain ⟨first, kept, keyed⟩ : ∃ first ∈ firsts key history, key first = key old := exists_first listed
        exact known (List.any_eq_true.mpr ⟨first, kept, decide_eq_true (keyed.trans same)⟩)
      cases found : history.find? fun e => key e = key element with
      | some first =>
        have keyed : key first = key element := by simpa using List.find?_some found
        have other : element ≠ new := by
          rintro rfl
          exact fresh first (List.mem_of_find?_eq_some found) keyed
        simp [other]
      | none =>
        by_cases same : element = new
        · subst same
          simp
        · have other : ¬new = element := fun swapped => same swapped.symm
          by_cases keyed : key new = key element
          · simp [same, keyed, other]
          · simp [same, keyed]

theorem map_appendFirst {β : Type} (f : α → β) (keyOf : β → κ) (same : ∀ element, keyOf (f element) = key element)
    (kept : List α) (new : α) :
    (appendFirst key kept new).map f = appendFirst keyOf (kept.map f) (f new) := by
  have any : (kept.map f).any (fun old => decide (keyOf old = keyOf (f new))) =
      kept.any fun old => decide (key old = key new) := by
    rw [List.any_map]
    congr 1
    funext old
    simp [same]
  unfold appendFirst
  rw [any]
  by_cases known : (kept.any fun old => key old = key new) = true
  · rw [if_pos known, if_pos known]
  · rw [if_neg known, if_neg known, List.map_append]
    rfl

end Firsts
end PrAgent
