import PrAgent.PatternCaptures
set_option autoImplicit false

namespace PrAgent

variable {α γ : Type}

section Global

variable (find : List α → Option (γ × List α))

-- The matches of a global expression with what stands before each, and what stands after the last one.
def globalMatches : Nat → List α → List (List α × γ) × List α
  | 0, s => ([], s)
  | fuel + 1, s =>
    match leftmost find s with
    | none => ([], s)
    | some (before, found, after) => ((before, found) :: (globalMatches fuel after).1, (globalMatches fuel after).2)

def matchAll (s : List α) : List γ := (globalMatches find s.length s).1.map Prod.snd

-- The text between the matches.
def stretches (s : List α) : List (List α) :=
  (globalMatches find s.length s).1.map Prod.fst ++ [(globalMatches find s.length s).2]

-- `s.replace(find, "")`.
def withoutMatches (s : List α) : List α := (stretches find s).flatten

-- A match is never empty.
def Consumes : Prop := ∀ s found after, find s = some (found, after) → after.length < s.length

end Global

section Matches

variable {find : List α → Option (γ × List α)} {s before after : List α} {found : γ}

theorem leftmost_shorter (consumes : Consumes find) (here : leftmost find s = some (before, found, after)) :
    before.length + after.length < s.length := by
  obtain ⟨rest, rfl, first, _⟩ := leftmost_eq_some_iff.mp here
  have shorter := consumes rest found after first
  rw [List.length_append]
  omega

theorem globalMatches_fuel (consumes : Consumes find) (fuel fuel' : Nat) (s : List α) (enough : s.length ≤ fuel)
    (enough' : s.length ≤ fuel') : globalMatches find fuel s = globalMatches find fuel' s := by
  induction fuel generalizing fuel' s with
  | zero =>
      cases fuel' with
      | zero => rfl
      | succ fuel' =>
          have empty : s = [] := List.length_eq_zero_iff.mp (by omega)
          cases here : leftmost find s with
          | none => simp [globalMatches, here]
          | some result =>
              have shorter := leftmost_shorter consumes here
              rw [empty] at shorter
              exact absurd shorter (Nat.not_lt_zero _)
  | succ fuel ih =>
      cases here : leftmost find s with
      | none => cases fuel' <;> simp [globalMatches, here]
      | some result =>
          obtain ⟨before, found, after⟩ := result
          have shorter := leftmost_shorter consumes here
          cases fuel' with
          | zero => omega
          | succ fuel' => simp only [globalMatches, here, ih fuel' after (by omega) (by omega)]

theorem matchAll_none (nowhere : leftmost find s = none) : matchAll find s = [] := by
  cases length : s.length <;> simp [matchAll, length, globalMatches, nowhere]

theorem matchAll_some (consumes : Consumes find) (here : leftmost find s = some (before, found, after)) :
    matchAll find s = found :: matchAll find after := by
  have shorter := leftmost_shorter consumes here
  obtain ⟨fuel, length⟩ : ∃ fuel, s.length = fuel + 1 := ⟨s.length - 1, by omega⟩
  have rest := globalMatches_fuel consumes fuel after.length after (by omega) (Nat.le_refl _)
  simp only [matchAll, length, globalMatches, here, rest, List.map_cons]

-- No match starts in a stretch.
theorem stretches_fail (consumes : Consumes find) (s : List α) :
    ∀ stretch ∈ stretches find s, ∃ rest, FailsBefore find stretch rest := by
  have all : ∀ fuel s, s.length ≤ fuel →
      ∀ stretch ∈ (globalMatches find fuel s).1.map Prod.fst ++ [(globalMatches find fuel s).2],
        ∃ rest, FailsBefore find stretch rest := by
    intro fuel
    induction fuel with
    | zero =>
        intro s short stretch listed
        have empty : s = [] := List.length_eq_zero_iff.mp (by omega)
        obtain rfl : stretch = [] := by simpa [globalMatches, empty] using listed
        exact ⟨[], failsBefore_nil []⟩
    | succ fuel ih =>
        intro s short stretch listed
        cases here : leftmost find s with
        | none =>
            obtain rfl : stretch = s := by simpa [globalMatches, here] using listed
            refine ⟨[], fun x y split _ => ?_⟩
            rw [List.append_nil]
            exact leftmost_eq_none_iff.mp here x y split
        | some result =>
            obtain ⟨before, found, after⟩ := result
            have shorter := leftmost_shorter consumes here
            obtain ⟨rest, _, _, fails⟩ := leftmost_eq_some_iff.mp here
            simp only [globalMatches, here, List.map_cons, List.cons_append, List.mem_cons] at listed
            rcases listed with first | later
            · exact ⟨rest, first ▸ fails⟩
            · exact ih after (by omega) stretch later
  exact all s.length s (Nat.le_refl _)

section Append

variable {t r : List α}

def extended (r : List α) (result : γ × List α) : γ × List α := (result.1, result.2 ++ r)

theorem leftmost_append (fails : FailsBefore find t r) :
    leftmost find (t ++ r) = (leftmost find r).map fun result => (t ++ result.1, result.2) := by
  induction t with
  | nil => simp
  | cons c t ih =>
      obtain ⟨here, later⟩ := failsBefore_cons.mp fails
      simp only [List.cons_append, leftmost, here, ih later, Option.map_map]
      rfl

-- Where what follows changes no match of a text, the matches follow each other.
theorem matchAll_append (consumes : Consumes find) (extends' : ∀ v, v ≠ [] → find (v ++ r) = (find v).map (extended r))
    (t : List α) : matchAll find (t ++ r) = matchAll find t ++ matchAll find r := by
  induction length : t.length using Nat.strongRecOn generalizing t with
  | ind n ih =>
      cases here : leftmost find t with
      | none =>
          have fails : FailsBefore find t r := by
            intro x y split nonempty
            rw [extends' y nonempty, leftmost_eq_none_iff.mp here x y split]
            rfl
          have whole := leftmost_append fails
          rw [matchAll_none here, List.nil_append]
          cases later : leftmost find r with
          | none => rw [matchAll_none later, matchAll_none (by rw [whole, later]; rfl)]
          | some result =>
              obtain ⟨before, found, after⟩ := result
              rw [later] at whole
              rw [matchAll_some consumes later, matchAll_some consumes whole]
      | some result =>
          obtain ⟨before, found, after⟩ := result
          have shorter := leftmost_shorter consumes here
          obtain ⟨rest, split, first, fails⟩ := leftmost_eq_some_iff.mp here
          have nonempty : rest ≠ [] := by
            intro empty
            have consumed := consumes rest found after first
            rw [empty] at consumed
            exact Nat.not_lt_zero _ consumed
          have whole : leftmost find (t ++ r) = some (before, found, after ++ r) := by
            apply leftmost_eq_some_iff.mpr
            refine ⟨rest ++ r, by rw [split, List.append_assoc], by rw [extends' rest nonempty, first]; rfl, ?_⟩
            intro x y parts nonempty'
            rw [← List.append_assoc, extends' (y ++ rest) (by simp [nonempty']), fails x y parts nonempty']
            rfl
          rw [matchAll_some consumes here, matchAll_some consumes whole, ih after.length (by omega) after rfl,
            List.cons_append]

end Append

end Matches

section Spread

-- `m` starts in one of the parts and ends in a later one.
def Spread (m : List α) (parts : List (List α)) : Prop :=
  ∃ front first between last back x y, parts = front ++ first :: (between ++ last :: back) ∧
    x ≠ [] ∧ x <:+ first ∧ y ≠ [] ∧ y <+: last ∧ m = x ++ (between.flatten ++ y)

variable {m x y part : List α} {parts : List (List α)}

theorem starts_flatten (nonempty : y ≠ []) (starts : y <+: parts.flatten) :
    ∃ between last back z, parts = between ++ last :: back ∧ z ≠ [] ∧ z <+: last ∧ y = between.flatten ++ z := by
  induction parts generalizing y with
  | nil => exact absurd (List.prefix_nil.mp starts) nonempty
  | cons part parts ih =>
      obtain ⟨rest, split⟩ := starts
      rw [List.flatten_cons] at split
      rcases List.append_eq_append_iff.mp split with ⟨z, inside, _⟩ | ⟨z, longer, later⟩
      · exact ⟨[], part, parts, y, rfl, nonempty, ⟨z, inside.symm⟩, rfl⟩
      · by_cases empty : z = []
        · refine ⟨[], part, parts, y, rfl, nonempty, ?_, rfl⟩
          rw [longer, empty, List.append_nil]
        · obtain ⟨between, last, back, w, listed, nonempty', starts', same⟩ := ih empty ⟨rest, later.symm⟩
          refine ⟨part :: between, last, back, w, by rw [listed, List.cons_append], nonempty', starts', ?_⟩
          rw [longer, same, List.flatten_cons, List.append_assoc]

theorem Spread.cons (part : List α) (spread : Spread m parts) : Spread m (part :: parts) := by
  obtain ⟨front, first, between, last, back, x, y, listed, rest⟩ := spread
  exact ⟨part :: front, first, between, last, back, x, y, by rw [listed, List.cons_append], rest⟩

theorem infix_flatten_iff (m : List α) (parts : List (List α)) (nonempty : m ≠ []) :
    m <:+: parts.flatten ↔ (∃ part ∈ parts, m <:+: part) ∨ Spread m parts := by
  constructor
  · intro inside
    induction parts with
    | nil => exact absurd (List.infix_nil.mp inside) nonempty
    | cons part parts ih =>
        obtain ⟨u, v, split⟩ := inside
        rw [List.flatten_cons, List.append_assoc] at split
        rcases List.append_eq_append_iff.mp split with ⟨w, inside, rest⟩ | ⟨w, _, rest⟩
        · rcases List.append_eq_append_iff.mp rest with ⟨z, inside', _⟩ | ⟨y, longer, later⟩
          · exact .inl ⟨part, List.mem_cons_self, u, z, by rw [inside, inside', List.append_assoc]⟩
          · by_cases empty : y = []
            · refine .inl ⟨part, List.mem_cons_self, u, [], ?_⟩
              rw [inside, longer, empty, List.append_nil, List.append_nil]
            · by_cases empty' : w = []
              · have later' : m <:+: parts.flatten := ⟨[], v, by rw [longer, empty', later]; simp⟩
                rcases ih later' with ⟨other, listed, inside⟩ | spread
                · exact .inl ⟨other, List.mem_cons_of_mem _ listed, inside⟩
                · exact .inr (spread.cons part)
              · obtain ⟨between, last, back, z, listed, nonempty', starts, same⟩ := starts_flatten empty ⟨v, later.symm⟩
                refine .inr ⟨[], part, between, last, back, w, z, by rw [listed]; rfl, empty', ⟨u, inside.symm⟩, nonempty',
                  starts, ?_⟩
                rw [longer, same]
        · rcases ih ⟨w, v, by rw [rest, List.append_assoc]⟩ with ⟨other, listed, inside⟩ | spread
          · exact .inl ⟨other, List.mem_cons_of_mem _ listed, inside⟩
          · exact .inr (spread.cons part)
  · rintro (⟨part, listed, inside⟩ | ⟨front, first, between, last, back, x, y, rfl, _, ⟨u, rfl⟩, _, ⟨v, rfl⟩, rfl⟩)
    · exact inside.trans (List.infix_of_mem_flatten listed)
    · exact ⟨front.flatten ++ u, v ++ back.flatten, by simp⟩

end Spread
end PrAgent
