import Mathlib.Data.List.Basic
set_option autoImplicit false

namespace PrAgent

section Versioned

variable {α : Type}

-- A value that several writers read and replace. A copy of the store is what one of them saw of it.
structure Versioned (α : Type) where
  generation : Nat
  revision : Nat
  data : α

namespace Versioned

def replace (store : Versioned α) (next : α) : Versioned α := ⟨store.generation, store.revision + 1, next⟩

def fence (store : Versioned α) : Versioned α := ⟨store.generation + 1, store.revision, store.data⟩

-- What a copy that was taken before still says of the store.
structure Earlier (seen store : Versioned α) : Prop where
  generation : seen.generation ≤ store.generation
  revision : seen.revision ≤ store.revision
  data : seen.revision = store.revision → seen.data = store.data

theorem Earlier.refl (store : Versioned α) : Earlier store store := ⟨Nat.le_refl _, Nat.le_refl _, fun _ => rfl⟩

variable {seen store : Versioned α}

theorem Earlier.replace (earlier : Earlier seen store) (next : α) : Earlier seen (store.replace next) := by
  have older : seen.revision < store.revision + 1 := Nat.lt_succ_of_le earlier.revision
  exact ⟨earlier.generation, Nat.le_of_lt older, fun same => absurd same (Nat.ne_of_lt older)⟩

theorem Earlier.fence (earlier : Earlier seen store) : Earlier seen store.fence :=
  ⟨Nat.le_succ_of_le earlier.generation, earlier.revision, earlier.data⟩

end Versioned

-- The replacements of a value, the last one first: each the value it was made from and the value it put.
def Chained (initial : α) : List (α × α) → α → Prop
  | [], last => last = initial
  | (basis, next) :: before, last => last = next ∧ Chained initial before basis

theorem Chained.push {initial last : α} {links : List (α × α)} (chained : Chained initial links last) (next : α) :
    Chained initial ((last, next) :: links) next := ⟨rfl, chained⟩

-- Where each replacement is a function of what it was made from, the writers might as well have run one by one.
theorem Chained.serial {ι : Type} (effect : ι → α → α) {initial : α} (writers : List (ι × α × α)) {last : α}
    (chained : Chained initial (writers.map Prod.snd) last)
    (made : ∀ writer ∈ writers, writer.2.2 = effect writer.1 writer.2.1) :
    last = (writers.map Prod.fst).foldr effect initial := by
  induction writers generalizing last with
  | nil => exact chained
  | cons writer before ih =>
    obtain ⟨rfl, older⟩ : last = writer.2.2 ∧ Chained initial (before.map Prod.snd) writer.2.1 := chained
    have basis := ih older fun other inside => made other (List.mem_cons_of_mem _ inside)
    rw [made writer List.mem_cons_self, basis]
    rfl

end Versioned
end PrAgent
