import Mathlib.Data.Int.Order.Basic
set_option autoImplicit false

namespace PrAgent

section Search

variable {β : Type}

-- `while (lo <= hi)` over the limits; what fits is kept until a larger one fits.
def searchFit (render : Int → β) (fits : β → Bool) (lo hi : Int) (best : Option β) : Option β :=
  if lo ≤ hi then
    if fits (render ((lo + hi) / 2)) then searchFit render fits ((lo + hi) / 2 + 1) hi (some (render ((lo + hi) / 2)))
    else searchFit render fits lo ((lo + hi) / 2 - 1) best
  else best
termination_by (hi + 1 - lo).toNat

variable {render : Int → β} {fits : β → Bool} {lo hi : Int} {best : Option β}

-- What fits at a limit fits at the smaller ones.
def FitsBelow (render : Int → β) (fits : β → Bool) (lo hi : Int) : Prop :=
  ∀ i j, lo ≤ i → i ≤ j → j ≤ hi → fits (render j) = true → fits (render i) = true

structure LastFit (render : Int → β) (fits : β → Bool) (lo hi limit : Int) : Prop where
  least : lo ≤ limit
  most : limit ≤ hi
  fit : fits (render limit) = true
  last : ∀ j, limit < j → j ≤ hi → fits (render j) = false

theorem searchFit_empty (passed : hi < lo) : searchFit render fits lo hi best = best := by
  rw [searchFit, if_neg (by omega)]

theorem searchFit_up (inside : lo ≤ hi) (fit : fits (render ((lo + hi) / 2)) = true) :
    searchFit render fits lo hi best = searchFit render fits ((lo + hi) / 2 + 1) hi (some (render ((lo + hi) / 2))) := by
  rw [searchFit, if_pos inside, if_pos fit]

theorem searchFit_down (inside : lo ≤ hi) (missed : fits (render ((lo + hi) / 2)) = false) :
    searchFit render fits lo hi best = searchFit render fits lo ((lo + hi) / 2 - 1) best := by
  rw [searchFit, if_pos inside, if_neg (by rw [missed]; decide)]

theorem FitsBelow.inner (below : FitsBelow render fits lo hi) {lo' hi' : Int} (least : lo ≤ lo') (most : hi' ≤ hi) : FitsBelow render fits lo' hi' :=
  fun i j above order under fit => below i j (by omega) order (by omega) fit

-- The search ends at the last limit that fits, or nothing fits.
theorem searchFit_last (below : FitsBelow render fits lo hi) :
    (∃ limit, LastFit render fits lo hi limit ∧ searchFit render fits lo hi best = some (render limit)) ∨
      (searchFit render fits lo hi best = best ∧ ∀ j, lo ≤ j → j ≤ hi → fits (render j) = false) := by
  induction size : (hi + 1 - lo).toNat using Nat.strongRecOn generalizing lo hi best with
  | _ size ih =>
      by_cases inside : lo ≤ hi
      · have middle : lo ≤ (lo + hi) / 2 ∧ (lo + hi) / 2 ≤ hi := by omega
        cases fit : fits (render ((lo + hi) / 2)) with
        | true =>
            rw [searchFit_up inside fit]
            rcases ih (hi + 1 - ((lo + hi) / 2 + 1)).toNat (by omega) (below.inner (by omega) (Int.le_refl hi)) rfl with
              ⟨limit, found, same⟩ | ⟨same, none_fit⟩
            · exact .inl ⟨limit, ⟨by have least := found.least; omega, found.most, found.fit, found.last⟩, same⟩
            · exact .inl ⟨(lo + hi) / 2, ⟨middle.1, middle.2, fit, fun j above under => none_fit j (by omega) under⟩, same⟩
        | false =>
            have above : ∀ j, (lo + hi) / 2 ≤ j → j ≤ hi → fits (render j) = false := by
              intro j order under
              cases at_j : fits (render j) with
              | false => rfl
              | true =>
                  have smaller := below ((lo + hi) / 2) j middle.1 order under at_j
                  rw [fit] at smaller
                  cases smaller
            rw [searchFit_down inside fit]
            rcases ih ((lo + hi) / 2 - 1 + 1 - lo).toNat (by omega) (below.inner (Int.le_refl lo) (by omega)) rfl with
              ⟨limit, found, same⟩ | ⟨same, none_fit⟩
            · have last : ∀ j, limit < j → j ≤ hi → fits (render j) = false := by
                intro j order under
                by_cases lower : j ≤ (lo + hi) / 2 - 1
                · exact found.last j order lower
                · exact above j (by omega) under
              exact .inl ⟨limit, ⟨found.least, by have most := found.most; omega, found.fit, last⟩, same⟩
            · right
              constructor
              · exact same
              · intro j order under
                by_cases lower : j ≤ (lo + hi) / 2 - 1
                · exact none_fit j order lower
                · exact above j (by omega) under
      · right
        constructor
        · exact searchFit_empty (by omega)
        · intro j order under
          omega

end Search
end PrAgent
