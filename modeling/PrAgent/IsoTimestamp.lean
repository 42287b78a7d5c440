import Mathlib.Data.String.Basic
set_option autoImplicit false

namespace PrAgent

-- A UTC instant of the years 0000 to 9999, to the millisecond.
@[ext] structure UtcTime where
  year : Nat
  month : Nat
  day : Nat
  hour : Nat
  minute : Nat
  second : Nat
  millisecond : Nat
  year_le : year ≤ 9999
  month_le : month ≤ 12
  day_le : day ≤ 31
  hour_le : hour ≤ 23
  minute_le : minute ≤ 59
  second_le : second ≤ 59
  millisecond_le : millisecond ≤ 999
  deriving DecidableEq

namespace UtcTime

def fields (t : UtcTime) : List Nat := [t.year, t.month, t.day, t.hour, t.minute, t.second, t.millisecond]

theorem fields_injective : Function.Injective fields := by
  intro s t same
  simp only [fields, List.cons.injEq, and_true] at same
  obtain ⟨year, month, day, hour, minute, second, millisecond⟩ := same
  exact UtcTime.ext year month day hour minute second millisecond

-- Instants in chronological order: the fields from the largest unit to the smallest.
instance : LinearOrder UtcTime := LinearOrder.lift' fields fields_injective

theorem lt_iff_fields (s t : UtcTime) : s < t ↔ s.fields < t.fields := Iff.rfl

end UtcTime

def digitChar (digit : Nat) : Char := Char.ofNat (48 + digit)

-- A number printed with leading zeros to the width.
def padded : Nat → Nat → List Char
  | 0, _ => []
  | width + 1, n => padded width (n / 10) ++ [digitChar (n % 10)]

-- `Date.prototype.toISOString`.
def UtcTime.toISOString (t : UtcTime) : String :=
  String.ofList (padded 4 t.year ++ ('-' :: (padded 2 t.month ++ ('-' :: (padded 2 t.day ++ ('T' ::
    (padded 2 t.hour ++ (':' :: (padded 2 t.minute ++ (':' :: (padded 2 t.second ++ ('.' ::
      (padded 3 t.millisecond ++ ['Z'])))))))))))))

section Order

variable {α : Type} [LinearOrder α]

-- Sequences with heads of one length compare by the heads first.
theorem append_lt_append_iff {head head' : List α} (tail tail' : List α) (length : head.length = head'.length) :
    head ++ tail < head' ++ tail' ↔ head < head' ∨ (head = head' ∧ tail < tail') := by
  induction head generalizing head' with
  | nil =>
    obtain rfl := List.eq_nil_of_length_eq_zero length.symm
    simp
  | cons a head ih =>
    cases head' with
    | nil => simp at length
    | cons b head' =>
      have shorter : head.length = head'.length := Nat.succ.inj length
      simp only [List.cons_append, List.cons_lt_cons_iff, ih shorter, List.cons.injEq]
      tauto

theorem padded_length (width n : Nat) : (padded width n).length = width := by
  induction width generalizing n with
  | zero => rfl
  | succ width ih => simp [padded, ih]

theorem digitChar_lt_iff {d e : Nat} (small : d < 10) (small' : e < 10) : digitChar d < digitChar e ↔ d < e := by
  have digits : ∀ d : Fin 10, ∀ e : Fin 10, digitChar d < digitChar e ↔ d.val < e.val := by decide
  exact digits ⟨d, small⟩ ⟨e, small'⟩

theorem padded_injective {width n m : Nat} (bound : n < 10 ^ width) (bound' : m < 10 ^ width)
    (same : padded width n = padded width m) : n = m := by
  induction width generalizing n m with
  | zero => omega
  | succ width ih =>
    obtain ⟨heads, digits⟩ := List.append_inj' same rfl
    have quotient := ih (Nat.div_lt_of_lt_mul (by rw [Nat.pow_succ] at bound; omega))
      (Nat.div_lt_of_lt_mul (by rw [Nat.pow_succ] at bound'; omega)) heads
    have digit : ¬n % 10 < m % 10 ∧ ¬m % 10 < n % 10 := by
      have last : digitChar (n % 10) = digitChar (m % 10) := List.cons.inj digits |>.1
      rw [← digitChar_lt_iff (by omega) (by omega), ← digitChar_lt_iff (d := m % 10) (by omega) (by omega), last]
      exact ⟨lt_irrefl _, lt_irrefl _⟩
    omega

theorem padded_lt_iff {width n m : Nat} (bound : n < 10 ^ width) (bound' : m < 10 ^ width) :
    padded width n < padded width m ↔ n < m := by
  induction width generalizing n m with
  | zero =>
    have none : n = 0 ∧ m = 0 := by omega
    rw [none.1, none.2]
    simp [padded]
  | succ width ih =>
    have small : n / 10 < 10 ^ width := Nat.div_lt_of_lt_mul (by rw [Nat.pow_succ] at bound; omega)
    have small' : m / 10 < 10 ^ width := Nat.div_lt_of_lt_mul (by rw [Nat.pow_succ] at bound'; omega)
    have lengths : (padded width (n / 10)).length = (padded width (m / 10)).length := by
      rw [padded_length, padded_length]
    rw [padded, padded, append_lt_append_iff _ _ lengths, ih small small']
    have digit : [digitChar (n % 10)] < [digitChar (m % 10)] ↔ n % 10 < m % 10 := by
      rw [List.cons_lt_cons_iff, digitChar_lt_iff (by omega) (by omega)]
      simp
    rw [digit]
    constructor
    · rintro (less | ⟨same, less⟩)
      · omega
      · have quotient := padded_injective small small' same
        omega
    · intro less
      by_cases quotient : n / 10 < m / 10
      · exact .inl quotient
      · have same : n / 10 = m / 10 := by omega
        exact .inr ⟨by rw [same], by omega⟩

-- One field of a fixed width, then a separator.
theorem field_lt_iff {width n m : Nat} (separator : Char) (rest rest' : List Char) (bound : n < 10 ^ width)
    (bound' : m < 10 ^ width) :
    padded width n ++ separator :: rest < padded width m ++ separator :: rest' ↔ n < m ∨ (n = m ∧ rest < rest') := by
  have lengths : (padded width n).length = (padded width m).length := by rw [padded_length, padded_length]
  rw [append_lt_append_iff _ _ lengths, padded_lt_iff bound bound', List.cons_lt_cons_iff]
  constructor
  · rintro (less | ⟨same, less | ⟨_, less⟩⟩)
    · exact .inl less
    · exact absurd less (lt_irrefl _)
    · exact .inr ⟨padded_injective bound bound' same, less⟩
  · rintro (less | ⟨rfl, less⟩)
    · exact .inl less
    · exact .inr ⟨rfl, .inr ⟨rfl, less⟩⟩

-- The printed forms compare as the instants do.
theorem toISOString_lt_iff (s t : UtcTime) : s.toISOString < t.toISOString ↔ s < t := by
  have year : s.year < 10 ^ 4 ∧ t.year < 10 ^ 4 := ⟨by have := s.year_le; omega, by have := t.year_le; omega⟩
  have month : s.month < 10 ^ 2 ∧ t.month < 10 ^ 2 := ⟨by have := s.month_le; omega, by have := t.month_le; omega⟩
  have day : s.day < 10 ^ 2 ∧ t.day < 10 ^ 2 := ⟨by have := s.day_le; omega, by have := t.day_le; omega⟩
  have hour : s.hour < 10 ^ 2 ∧ t.hour < 10 ^ 2 := ⟨by have := s.hour_le; omega, by have := t.hour_le; omega⟩
  have minute : s.minute < 10 ^ 2 ∧ t.minute < 10 ^ 2 := ⟨by have := s.minute_le; omega, by have := t.minute_le; omega⟩
  have second : s.second < 10 ^ 2 ∧ t.second < 10 ^ 2 := ⟨by have := s.second_le; omega, by have := t.second_le; omega⟩
  have millisecond : s.millisecond < 10 ^ 3 ∧ t.millisecond < 10 ^ 3 :=
    ⟨by have := s.millisecond_le; omega, by have := t.millisecond_le; omega⟩
  rw [String.lt_iff, UtcTime.toISOString, UtcTime.toISOString, String.toList_ofList, String.toList_ofList,
    field_lt_iff _ _ _ year.1 year.2, field_lt_iff _ _ _ month.1 month.2, field_lt_iff _ _ _ day.1 day.2,
    field_lt_iff _ _ _ hour.1 hour.2, field_lt_iff _ _ _ minute.1 minute.2, field_lt_iff _ _ _ second.1 second.2,
    field_lt_iff _ _ _ millisecond.1 millisecond.2, UtcTime.lt_iff_fields]
  simp only [UtcTime.fields, List.cons_lt_cons_iff, lt_irrefl, and_false, or_false]

theorem toISOString_le_iff (s t : UtcTime) : s.toISOString ≤ t.toISOString ↔ s ≤ t := by
  rw [← not_lt, ← not_lt, toISOString_lt_iff]

end Order
end PrAgent
