import PrAgent.JsonQuote
set_option autoImplicit false

namespace PrAgent

section Classes

variable {α : Type} {holds : α → Bool} {a b r s : List α}

-- A text that does not go on with a class of characters.
def StopsAt (holds : α → Bool) (r : List α) : Prop := ∀ c, r.head? = some c → holds c = false

theorem stopsAt_nil (holds : α → Bool) : StopsAt holds [] := by
  intro c here
  cases here

theorem stopsAt_cons {c : α} (not : holds c = false) (r : List α) : StopsAt holds (c :: r) := by
  intro d here
  rw [← Option.some.inj here]
  exact not

theorem append_inj_class (first : ∀ c ∈ a, holds c = true) (second : ∀ c ∈ b, holds c = true) (stops : StopsAt holds r)
    (stops' : StopsAt holds s) (same : a ++ r = b ++ s) : a = b ∧ r = s := by
  induction a generalizing b with
  | nil =>
      cases b with
      | nil => exact ⟨rfl, same⟩
      | cons c b =>
          have goes := stops c (by rw [show r = c :: (b ++ s) from same]; rfl)
          rw [second c List.mem_cons_self] at goes
          cases goes
  | cons c a ih =>
      cases b with
      | nil =>
          have goes := stops' c (by rw [show s = c :: (a ++ r) from same.symm]; rfl)
          rw [first c List.mem_cons_self] at goes
          cases goes
      | cons d b =>
          obtain ⟨rfl, tail⟩ := List.cons.inj same
          obtain ⟨rfl, after⟩ := ih (fun e listed => first e (List.mem_cons_of_mem _ listed))
            (fun e listed => second e (List.mem_cons_of_mem _ listed)) tail
          exact ⟨rfl, after⟩

end Classes

section Numbers

-- The shortest decimal that stands for a finite number: 0.d₁d₂… times ten to the power `point`.
structure JsDecimal where
  digits : List (Fin 10)
  point : Int
  nonempty : digits ≠ []
  leading : digits.head? ≠ some 0
  trailing : digits.getLast? ≠ some 0
  deriving DecidableEq

inductive JsNumber
  | nan
  | infinite (negative : Bool)
  | zero (negative : Bool)
  | finite (negative : Bool) (decimal : JsDecimal)
  deriving DecidableEq

def digitUnit (d : Fin 10) : CodeUnit := unit (Nat.digitChar d.val)

def digitUnits (digits : List (Fin 10)) : JsString := digits.map digitUnit

def naturalUnits (n : Nat) : JsString := (Nat.toDigits 10 n).map unit

def zeros (n : Nat) : List (Fin 10) := List.replicate n 0

-- `Number::toString` of a positive finite number.
def JsDecimal.text (decimal : JsDecimal) : JsString :=
  let count := decimal.digits.length
  let point := decimal.point
  if -5 ≤ point ∧ point ≤ 21 then
    if count ≤ point then digitUnits (decimal.digits ++ zeros (point - count).toNat)
    else if 0 < point then
      digitUnits (decimal.digits.take point.toNat) ++ unit '.' :: digitUnits (decimal.digits.drop point.toNat)
    else unit '0' :: unit '.' :: digitUnits (zeros (-point).toNat ++ decimal.digits)
  else
    let exponent := unit 'e' :: unit (if point < 0 then '-' else '+') :: naturalUnits (point - 1).natAbs
    if count = 1 then digitUnits decimal.digits ++ exponent
    else digitUnits (decimal.digits.take 1) ++ (unit '.' :: digitUnits (decimal.digits.drop 1) ++ exponent)

def signUnits (negative : Bool) : JsString := if negative then [unit '-'] else []

-- `String(value)` of a number.
def JsNumber.text : JsNumber → JsString
  | .nan => units "NaN"
  | .infinite negative => signUnits negative ++ units "Infinity"
  | .zero _ => units "0"
  | .finite negative decimal => signUnits negative ++ decimal.text

end Numbers

section Parts

variable {digits : List (Fin 10)} {p q : List (Fin 10) × List (Fin 10) × Option (Bool × Nat)}

-- The digits before and after the point, and the exponent with its sign.
abbrev NumberParts := List (Fin 10) × List (Fin 10) × Option (Bool × Nat)

def exponentUnits : Option (Bool × Nat) → JsString
  | none => []
  | some (negative, n) => unit 'e' :: unit (if negative then '-' else '+') :: naturalUnits n

def fractionUnits (digits : List (Fin 10)) : JsString := if digits = [] then [] else unit '.' :: digitUnits digits

def partsText (parts : NumberParts) : JsString :=
  digitUnits parts.1 ++ (fractionUnits parts.2.1 ++ exponentUnits parts.2.2)

def JsDecimal.parts (decimal : JsDecimal) : NumberParts :=
  let count := decimal.digits.length
  let point := decimal.point
  if -5 ≤ point ∧ point ≤ 21 then
    if count ≤ point then (decimal.digits ++ zeros (point - count).toNat, [], none)
    else if 0 < point then (decimal.digits.take point.toNat, decimal.digits.drop point.toNat, none)
    else ([0], zeros (-point).toNat ++ decimal.digits, none)
  else (decimal.digits.take 1, decimal.digits.drop 1, some (decide (point < 0), (point - 1).natAbs))

def isDigitUnit (u : CodeUnit) : Bool := 48 ≤ u.val && u.val ≤ 57

theorem digitUnit_isDigit (d : Fin 10) : isDigitUnit (digitUnit d) = true := by
  revert d
  decide

theorem digitUnit_inj {d e : Fin 10} (same : digitUnit d = digitUnit e) : d = e := by
  revert d e
  decide

theorem digitUnits_class (digits : List (Fin 10)) : ∀ c ∈ digitUnits digits, isDigitUnit c = true := by
  intro c listed
  obtain ⟨d, _, rfl⟩ := List.mem_map.mp listed
  exact digitUnit_isDigit d

theorem digitUnits_inj {digits other : List (Fin 10)} (same : digitUnits digits = digitUnits other) : digits = other :=
  List.map_injective_iff.mpr (fun _ _ => digitUnit_inj) same

theorem naturalUnits_back (n : Nat) : (naturalUnits n).map (fun u => Char.ofNat u.val) = Nat.toDigits 10 n := by
  have each : ∀ c ∈ Nat.toDigits 10 n, Char.ofNat (unit c).val = c := by
    intro c listed
    have digit := Nat.isDigit_of_mem_toDigits (by decide) (by decide) listed
    simp only [Char.isDigit, Bool.and_eq_true, decide_eq_true_eq] at digit
    have le : c.val.toNat ≤ 57 := digit.2
    have small : c.toNat < 65536 := by
      have val : c.toNat = c.val.toNat := rfl
      omega
    rw [unit, Fin.val_ofNat, Nat.mod_eq_of_lt small, Char.ofNat_toNat]
  rw [naturalUnits, List.map_map]
  exact (List.map_congr_left each).trans (List.map_id _)

theorem naturalUnits_inj {m n : Nat} (same : naturalUnits m = naturalUnits n) : m = n := by
  have digits : Nat.toDigits 10 m = Nat.toDigits 10 n := by
    rw [← naturalUnits_back m, ← naturalUnits_back n, same]
  calc
    m = Nat.ofDigitChars 10 (Nat.toDigits 10 m) 0 := Nat.ofDigitChars_ten_toDigits.symm
    _ = Nat.ofDigitChars 10 (Nat.toDigits 10 n) 0 := by rw [digits]
    _ = n := Nat.ofDigitChars_ten_toDigits

theorem text_eq_parts (decimal : JsDecimal) : decimal.text = partsText decimal.parts := by
  have units : ∀ a b : List (Fin 10), digitUnits (a ++ b) = digitUnits a ++ digitUnits b := fun a b => List.map_append
  rw [JsDecimal.text, JsDecimal.parts]
  by_cases fixed : -5 ≤ decimal.point ∧ decimal.point ≤ 21
  · simp only [if_pos fixed]
    by_cases whole : (decimal.digits.length : Int) ≤ decimal.point
    · simp [whole, partsText, fractionUnits, exponentUnits]
    · simp only [if_neg whole]
      by_cases positive : 0 < decimal.point
      · have left : decimal.digits.drop decimal.point.toNat ≠ [] := by
          intro empty
          have short := List.drop_eq_nil_iff.mp empty
          omega
        simp [positive, partsText, fractionUnits, exponentUnits, left]
      · have left : zeros (-decimal.point).toNat ++ decimal.digits ≠ [] := by
          intro empty
          exact decimal.nonempty (List.append_eq_nil_iff.mp empty).2
        have zero : digitUnits [0] = [unit '0'] := by decide
        simp [positive, partsText, fractionUnits, exponentUnits, left, zero]
  · simp only [if_neg fixed]
    obtain ⟨d, rest, digits⟩ := List.exists_cons_of_ne_nil decimal.nonempty
    rw [digits]
    cases rest with
    | nil => simp [partsText, fractionUnits, exponentUnits]
    | cons e rest => simp [partsText, fractionUnits, exponentUnits]

theorem stops_at_point (r : JsString) : StopsAt isDigitUnit (unit '.' :: r) := stopsAt_cons (by decide) r

theorem stops_at_exponent (r : JsString) : StopsAt isDigitUnit (unit 'e' :: r) := stopsAt_cons (by decide) r

theorem exponentUnits_stops (exponent : Option (Bool × Nat)) : StopsAt isDigitUnit (exponentUnits exponent) := by
  cases exponent with
  | none => exact stopsAt_nil _
  | some exponent => exact stops_at_exponent _

theorem exponentUnits_inj {e f : Option (Bool × Nat)} (same : exponentUnits e = exponentUnits f) : e = f := by
  cases e with
  | none =>
      cases f with
      | none => rfl
      | some f => cases same
  | some e =>
      cases f with
      | none => cases same
      | some f =>
          obtain ⟨sign, digits⟩ := List.cons.inj (List.cons.inj same).2
          have number := naturalUnits_inj digits
          have negative : e.1 = f.1 := by
            cases first : e.1 with
            | true =>
                cases second : f.1 with
                | true => rfl
                | false =>
                    rw [first, second] at sign
                    exact absurd sign (by decide)
            | false =>
                cases second : f.1 with
                | false => rfl
                | true =>
                    rw [first, second] at sign
                    exact absurd sign (by decide)
          rw [Prod.ext negative number]

theorem partsText_inj (same : partsText p = partsText q) : p = q := by
  have stops : ∀ parts : NumberParts, StopsAt isDigitUnit (fractionUnits parts.2.1 ++ exponentUnits parts.2.2) := by
    intro parts
    rw [fractionUnits]
    by_cases empty : parts.2.1 = []
    · rw [if_pos empty]
      exact exponentUnits_stops _
    · rw [if_neg empty]
      exact stops_at_point _
  obtain ⟨whole, rest⟩ := append_inj_class (digitUnits_class p.1) (digitUnits_class q.1) (stops p) (stops q) same
  have tail : p.2.1 = q.2.1 ∧ exponentUnits p.2.2 = exponentUnits q.2.2 := by
    have crossing : ∀ {e : Option (Bool × Nat)} {r : JsString}, exponentUnits e ≠ unit '.' :: r := by
      intro e r wrong
      cases e with
      | none => cases wrong
      | some e => exact absurd (List.cons.inj wrong).1 (by decide)
    rw [fractionUnits, fractionUnits] at rest
    by_cases none : p.2.1 = []
    · by_cases none' : q.2.1 = []
      · rw [if_pos none, if_pos none'] at rest
        exact ⟨none.trans none'.symm, rest⟩
      · rw [if_pos none, if_neg none'] at rest
        exact absurd rest crossing
    · by_cases none' : q.2.1 = []
      · rw [if_neg none, if_pos none'] at rest
        exact absurd rest.symm crossing
      · rw [if_neg none, if_neg none'] at rest
        obtain ⟨fraction, exponent⟩ := append_inj_class (digitUnits_class p.2.1) (digitUnits_class q.2.1)
          (exponentUnits_stops _) (exponentUnits_stops _) (List.cons.inj rest).2
        exact ⟨digitUnits_inj fraction, exponent⟩
  exact Prod.ext (digitUnits_inj whole) (Prod.ext tail.1 (exponentUnits_inj tail.2))

end Parts

section Shortest

variable {digits : List (Fin 10)}

def isZeroDigit (d : Fin 10) : Bool := d = 0

-- The digits without the zeros around them.
def stripZeros (digits : List (Fin 10)) : List (Fin 10) :=
  ((digits.dropWhile isZeroDigit).reverse.dropWhile isZeroDigit).reverse

-- Where the point stands before the digits without zeros.
def partsPoint (parts : NumberParts) : Int :=
  parts.1.length - ((parts.1 ++ parts.2.1).takeWhile isZeroDigit).length +
    match parts.2.2 with
    | none => 0
    | some (negative, n) => if negative then -(n : Int) else n

theorem zeros_succ (n : Nat) : zeros (n + 1) = 0 :: zeros n := List.replicate_succ

theorem dropWhile_zeros (leading : digits.head? ≠ some 0) (n : Nat) : (zeros n ++ digits).dropWhile isZeroDigit = digits := by
  induction n with
  | zero =>
      cases digits with
      | nil => rfl
      | cons d rest =>
          have other : isZeroDigit d = false := by simpa [isZeroDigit] using leading
          rw [zeros, List.replicate_zero, List.nil_append, List.dropWhile_cons_of_neg (by simp [other])]
  | succ n ih => rw [zeros_succ, List.cons_append, List.dropWhile_cons_of_pos (by decide), ih]

theorem takeWhile_zeros (leading : digits.head? ≠ some 0) (n : Nat) :
    ((zeros n ++ digits).takeWhile isZeroDigit).length = n := by
  induction n with
  | zero =>
      cases digits with
      | nil => rfl
      | cons d rest =>
          have other : isZeroDigit d = false := by simpa [isZeroDigit] using leading
          rw [zeros, List.replicate_zero, List.nil_append, List.takeWhile_cons_of_neg (by simp [other]), List.length_nil]
  | succ n ih => rw [zeros_succ, List.cons_append, List.takeWhile_cons_of_pos (by decide), List.length_cons, ih]

theorem head_append_zeros (nonempty : digits ≠ []) (leading : digits.head? ≠ some 0) (n : Nat) :
    (digits ++ zeros n).head? ≠ some 0 := by
  obtain ⟨d, rest, rfl⟩ := List.exists_cons_of_ne_nil nonempty
  exact leading

theorem stripZeros_around (decimal : JsDecimal) (m n : Nat) :
    stripZeros (zeros m ++ (decimal.digits ++ zeros n)) = decimal.digits := by
  have back : (decimal.digits ++ zeros n).reverse = zeros n ++ decimal.digits.reverse := by simp [zeros]
  have trailing : decimal.digits.reverse.head? ≠ some 0 := by simpa using decimal.trailing
  rw [stripZeros, dropWhile_zeros (head_append_zeros decimal.nonempty decimal.leading n), back, dropWhile_zeros trailing,
    List.reverse_reverse]

-- The digits of the parts of a number, and what its point is counted from.
structure PartsOf (decimal : JsDecimal) (parts : NumberParts) : Prop where
  digits : ∃ m n, parts.1 ++ parts.2.1 = zeros m ++ (decimal.digits ++ zeros n)
  point : partsPoint parts = decimal.point

theorem partsPoint_of (decimal : JsDecimal) {whole fraction : List (Fin 10)} {exponent : Option (Bool × Nat)} {m n : Nat}
    (around : whole ++ fraction = zeros m ++ (decimal.digits ++ zeros n)) :
    partsPoint (whole, fraction, exponent) = whole.length - (m : Int) + match exponent with
      | none => 0
      | some (negative, n) => if negative then -(n : Int) else n := by
  rw [partsPoint, around, takeWhile_zeros (head_append_zeros decimal.nonempty decimal.leading n)]

theorem partsOf_parts (decimal : JsDecimal) : PartsOf decimal decimal.parts := by
  have some_ : 0 < decimal.digits.length := List.length_pos_iff.mpr decimal.nonempty
  rw [JsDecimal.parts]
  by_cases fixed : -5 ≤ decimal.point ∧ decimal.point ≤ 21
  · simp only [if_pos fixed]
    by_cases whole : (decimal.digits.length : Int) ≤ decimal.point
    · have around : (decimal.digits ++ zeros (decimal.point - decimal.digits.length).toNat) ++ [] =
          zeros 0 ++ (decimal.digits ++ zeros (decimal.point - decimal.digits.length).toNat) := by simp [zeros]
      simp only [if_pos whole]
      refine ⟨⟨_, _, around⟩, (partsPoint_of decimal around).trans ?_⟩
      simp only [List.length_append, zeros, List.length_replicate]
      omega
    · simp only [if_neg whole]
      by_cases positive : 0 < decimal.point
      · have around : decimal.digits.take decimal.point.toNat ++ decimal.digits.drop decimal.point.toNat =
            zeros 0 ++ (decimal.digits ++ zeros 0) := by simp [zeros]
        simp only [if_pos positive]
        refine ⟨⟨_, _, around⟩, (partsPoint_of decimal around).trans ?_⟩
        simp only [List.length_take]
        omega
      · have around : [0] ++ (zeros (-decimal.point).toNat ++ decimal.digits) =
            zeros ((-decimal.point).toNat + 1) ++ (decimal.digits ++ zeros 0) := by simp [zeros, List.replicate_succ]
        simp only [if_neg positive]
        refine ⟨⟨_, _, around⟩, (partsPoint_of decimal around).trans ?_⟩
        simp only [List.length_singleton]
        omega
  · have around : decimal.digits.take 1 ++ decimal.digits.drop 1 = zeros 0 ++ (decimal.digits ++ zeros 0) := by
      rw [List.take_append_drop]
      simp [zeros]
    simp only [if_neg fixed]
    refine ⟨⟨_, _, around⟩, (partsPoint_of decimal around).trans ?_⟩
    simp only [List.length_take]
    by_cases negative : decimal.point < 0
    · simp only [negative, decide_true, if_true]
      omega
    · simp only [negative, decide_false]
      rw [if_neg Bool.false_ne_true]
      omega

-- A decimal is read back from its text.
theorem decimal_text_inj {d e : JsDecimal} (same : d.text = e.text) : d = e := by
  have parts : d.parts = e.parts := by
    rw [text_eq_parts, text_eq_parts] at same
    exact partsText_inj same
  obtain ⟨⟨m, n, around⟩, point⟩ := partsOf_parts d
  obtain ⟨⟨m', n', around'⟩, point'⟩ := partsOf_parts e
  have digits : d.digits = e.digits := by
    rw [← stripZeros_around d m n, ← stripZeros_around e m' n', ← around, ← around', parts]
  have points : d.point = e.point := by rw [← point, ← point', parts]
  cases d
  cases e
  obtain rfl : _ = _ := digits
  obtain rfl : _ = _ := points
  rfl

theorem decimal_text_head (decimal : JsDecimal) : ∃ d rest, decimal.text = digitUnit d :: rest := by
  have some_ : decimal.parts.1 ≠ [] := by
    rw [JsDecimal.parts]
    by_cases fixed : -5 ≤ decimal.point ∧ decimal.point ≤ 21
    · simp only [if_pos fixed]
      by_cases whole : (decimal.digits.length : Int) ≤ decimal.point
      · simp [whole, decimal.nonempty]
      · by_cases positive : 0 < decimal.point
        · simp only [if_neg whole, if_pos positive]
          intro empty
          rcases List.take_eq_nil_iff.mp empty with zero | none
          · omega
          · exact decimal.nonempty none
        · simp [whole, positive]
    · simp only [if_neg fixed]
      intro empty
      rcases List.take_eq_nil_iff.mp empty with zero | none
      · cases zero
      · exact decimal.nonempty none
  obtain ⟨d, whole, same⟩ := List.exists_cons_of_ne_nil some_
  refine ⟨d, digitUnits whole ++ (fractionUnits decimal.parts.2.1 ++ exponentUnits decimal.parts.2.2), ?_⟩
  rw [text_eq_parts, partsText, same]
  rfl

theorem decimal_text_ne_zero (decimal : JsDecimal) : decimal.text ≠ units "0" := by
  intro zero
  have same : decimal.parts = ([0], [], none) := by
    refine partsText_inj ?_
    rw [← text_eq_parts, zero]
    decide
  obtain ⟨⟨m, n, around⟩, _⟩ := partsOf_parts decimal
  have digits := stripZeros_around decimal m n
  rw [← around, same] at digits
  exact decimal.nonempty digits.symm

end Shortest
end PrAgent
