import Mathlib.Data.Rat.Floor
import Mathlib.Data.List.TakeWhile
import Mathlib.Algebra.Order.Floor.Ring
import Mathlib.Tactic.Positivity
import Mathlib.Tactic.Linarith
import Mathlib.Tactic.NormNum
set_option autoImplicit false

namespace PrAgent

section Literals

-- The digits of a number in a base, all of the text.
def digitValue? (c : Char) : Option Nat :=
  if c.isDigit then some (c.toNat - 48)
  else if 'a' ≤ c ∧ c ≤ 'z' then some (c.toNat - 87)
  else if 'A' ≤ c ∧ c ≤ 'Z' then some (c.toNat - 55)
  else none

def baseLiteral (base : Nat) (digits : List Char) : Option Rat :=
  if digits ≠ [] ∧ digits.all fun c => (digitValue? c).any fun value => value < base then
    some (digits.foldl (fun value c => base * value + (digitValue? c).getD 0) 0 : Nat)
  else none

def decimalDigits (digits : List Char) : Nat := Nat.ofDigitChars 10 digits 0

def exponentPart : List Char → Option Int
  | [] => some 0
  | c :: rest =>
    if c = 'e' ∨ c = 'E' then
      let (sign, digits) := match rest with
        | '-' :: digits => (-1, digits)
        | '+' :: digits => (1, digits)
        | digits => ((1 : Int), digits)
      if digits ≠ [] ∧ digits.all Char.isDigit then some (sign * decimalDigits digits) else none
    else none

def unsignedDecimal (text : List Char) : Option Rat :=
  let whole := text.takeWhile Char.isDigit
  let (fraction, rest) := match text.dropWhile Char.isDigit with
    | '.' :: rest => (rest.takeWhile Char.isDigit, rest.dropWhile Char.isDigit)
    | rest => ([], rest)
  if whole = [] ∧ fraction = [] then none
  else (exponentPart rest).map fun exponent => decimalDigits (whole ++ fraction) * (10 : Rat) ^ (exponent - (fraction.length : Int))

-- The finite value of a numeric literal without blanks, before it is rounded to a double.
def numericLiteral : List Char → Option Rat
  | [] => some 0
  | '-' :: text => (unsignedDecimal text).map fun value => -value
  | '+' :: text => unsignedDecimal text
  | '0' :: 'x' :: digits | '0' :: 'X' :: digits => baseLiteral 16 digits
  | '0' :: 'o' :: digits | '0' :: 'O' :: digits => baseLiteral 8 digits
  | '0' :: 'b' :: digits | '0' :: 'B' :: digits => baseLiteral 2 digits
  | text => unsignedDecimal text

end Literals

section Rounding

-- Whether the double nearest to `value` is the integer `n`, ties to the even significand.
def roundsToNat (value : Rat) (n : Nat) : Bool :=
  if n = 0 then value ≤ 1 / 2 ^ 1075
  else
    let unit : Rat := 2 ^ n.log2 / 2 ^ 52
    let below : Rat := if n = 2 ^ n.log2 then unit / 2 else unit
    let even : Bool := n.log2 < 52 || n % 2 = 0
    if (n : Rat) ≤ value then value - n < unit / 2 || (even && value - n = unit / 2)
    else n - value < below / 2 || (even && n - value = below / 2)

def maxSafe : Nat := 2 ^ 53 - 1

-- `Number` of a natural number: the nearest double, ties to the even significand.
def nearestDouble (n : Nat) : Nat :=
  if n ≤ maxSafe then n
  else
    let unit := 2 ^ (n.log2 - 52)
    let below := n / unit
    let rest := n % unit
    (if unit < 2 * rest || (unit = 2 * rest && below % 2 = 1) then below + 1 else below) * unit

theorem nearestDouble_of_safe {n : Nat} (safe : n ≤ maxSafe) : nearestDouble n = n := if_pos safe

theorem nearestDouble_unsafe {n : Nat} (large : maxSafe < n) : maxSafe < nearestDouble n := by
  have least : 2 ^ 53 ≤ n := by
    simp only [maxSafe] at large
    omega
  have log : 53 ≤ n.log2 := (Nat.le_log2 (by omega)).mpr least
  have split : 2 ^ 52 * 2 ^ (n.log2 - 52) ≤ n := by
    rw [← pow_add, show 52 + (n.log2 - 52) = n.log2 by omega]
    exact Nat.log2_self_le (by omega)
  have below : 2 ^ 52 ≤ n / 2 ^ (n.log2 - 52) := (Nat.le_div_iff_mul_le (Nat.two_pow_pos _)).mpr split
  have unit : 2 ^ 1 ≤ 2 ^ (n.log2 - 52) := Nat.pow_le_pow_right (by omega) (by omega)
  have rounded : ∀ count, 2 ^ 52 ≤ count → maxSafe < count * 2 ^ (n.log2 - 52) := by
    intro count enough
    have product := Nat.mul_le_mul enough unit
    simp only [maxSafe]
    omega
  rw [nearestDouble, if_neg (by omega)]
  dsimp only
  split
  · exact rounded _ (by omega)
  · exact rounded _ below

theorem nearestDouble_eq_safe {n epoch : Nat} (same : nearestDouble n = epoch) (safe : epoch ≤ maxSafe) : n = epoch := by
  by_cases small : n ≤ maxSafe
  · rw [← same, nearestDouble_of_safe small]
  · have large := nearestDouble_unsafe (Nat.lt_of_not_le small)
    omega

-- `Number.isSafeInteger` of the double of a value, with that integer.
def safeIntegerOf (value : Rat) : Option Int :=
  let size := |value|
  let found := [size.floor.toNat, size.floor.toNat + 1].find? fun n => n ≤ maxSafe && roundsToNat size n
  found.map fun n => if value < 0 then -(n : Int) else n

-- `Number(text)` where it is a safe integer.
def safeNumber (text : List Char) : Option Int := (numericLiteral text).bind safeIntegerOf

-- `String(n)` of an integer.
def integerText : Int → List Char
  | .ofNat n => Nat.toDigits 10 n
  | .negSucc n => '-' :: Nat.toDigits 10 (n + 1)

end Rounding

section RoundTrip

theorem toDigits_isDigit {n : Nat} {c : Char} (listed : c ∈ Nat.toDigits 10 n) : c.isDigit = true :=
  Nat.isDigit_of_mem_toDigits (by decide) (by decide) listed

theorem digits_not_zero {n : Nat} (positive : 0 < n) : (Nat.toDigits 10 n).head? ≠ some '0' := by
  induction n using Nat.strongRecOn with
  | _ n ih =>
      by_cases small : n < 10
      · rw [Nat.toDigits_of_lt_base small]
        have all : ∀ m < 10, 0 < m → Nat.digitChar m ≠ '0' := by decide
        intro zero
        exact all n small positive (Option.some.inj zero)
      · have shorter := ih (n / 10) (by omega) (by omega)
        rw [Nat.toDigits_of_base_le (by decide) (by omega), List.head?_append_of_ne_nil _ Nat.toDigits_ne_nil]
        exact shorter

theorem unsignedDecimal_toDigits (n : Nat) : unsignedDecimal (Nat.toDigits 10 n) = some (n : Rat) := by
  have all : ∀ c ∈ Nat.toDigits 10 n, c.isDigit = true := fun c listed => toDigits_isDigit listed
  have whole : (Nat.toDigits 10 n).takeWhile Char.isDigit = Nat.toDigits 10 n := List.takeWhile_eq_self_iff.mpr all
  have rest : (Nat.toDigits 10 n).dropWhile Char.isDigit = [] := List.dropWhile_eq_nil_iff.mpr all
  have value : decimalDigits (Nat.toDigits 10 n) = n := Nat.ofDigitChars_toDigits (by decide) (by decide)
  simp [unsignedDecimal, whole, rest, exponentPart, Nat.toDigits_ne_nil, value]

theorem roundsToNat_self (n : Nat) : roundsToNat n n = true := by
  unfold roundsToNat
  by_cases zero : n = 0
  · subst zero
    simp
  · have unit : (0 : Rat) < 2 ^ n.log2 / 2 ^ 52 / 2 := by positivity
    simp [zero, unit]

theorem safeIntegerOf_nat {n : Nat} (safe : n ≤ maxSafe) : safeIntegerOf (n : Rat) = some (n : Int) := by
  have size : |(n : Rat)| = n := abs_of_nonneg (Nat.cast_nonneg n)
  have whole : ((n : Rat).floor).toNat = n := congrArg Int.toNat (Rat.floor_intCast n)
  have here : ¬(n : Rat) < 0 := by simp
  simp only [safeIntegerOf, size, whole]
  rw [List.find?_cons_of_pos (by simp [safe, roundsToNat_self])]
  simp

theorem safeIntegerOf_neg {n : Nat} (positive : 0 < n) (safe : n ≤ maxSafe) :
    safeIntegerOf (-(n : Rat)) = some (-(n : Int)) := by
  have size : |(-(n : Rat))| = n := by rw [abs_neg, abs_of_nonneg (Nat.cast_nonneg n)]
  have whole : ((n : Rat).floor).toNat = n := congrArg Int.toNat (Rat.floor_intCast n)
  have here : -(n : Rat) < 0 := by simpa using positive
  simp only [safeIntegerOf, size, whole]
  rw [List.find?_cons_of_pos (by simp [safe, roundsToNat_self])]
  simp [positive]

theorem numericLiteral_toDigits (n : Nat) : numericLiteral (Nat.toDigits 10 n) = some (n : Rat) := by
  have digits : ∀ c ∈ Nat.toDigits 10 n, c.isDigit = true := fun c listed => toDigits_isDigit listed
  have value := unsignedDecimal_toDigits n
  generalize text : Nat.toDigits 10 n = chars at digits value
  unfold numericLiteral
  split
  · rw [← value]
    exact absurd text (Nat.toDigits_ne_nil)
  · exact absurd (digits '-' List.mem_cons_self) (by decide)
  · exact absurd (digits '+' List.mem_cons_self) (by decide)
  · exact absurd (digits 'x' (by simp)) (by decide)
  · exact absurd (digits 'X' (by simp)) (by decide)
  · exact absurd (digits 'o' (by simp)) (by decide)
  · exact absurd (digits 'O' (by simp)) (by decide)
  · exact absurd (digits 'b' (by simp)) (by decide)
  · exact absurd (digits 'B' (by simp)) (by decide)
  · exact value

theorem safeNumber_integerText {n : Int} (safe : n.natAbs ≤ maxSafe) : safeNumber (integerText n) = some n := by
  cases n with
  | ofNat n =>
    simp only [integerText, safeNumber, numericLiteral_toDigits, Option.bind_some]
    exact safeIntegerOf_nat safe
  | negSucc n =>
    simp only [integerText, safeNumber, numericLiteral, unsignedDecimal_toDigits, Option.map_some, Option.bind_some]
    exact safeIntegerOf_neg (Nat.succ_pos n) safe

end RoundTrip
end PrAgent
