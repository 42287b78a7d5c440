import Mathlib.Algebra.GroupWithZero.Nat
import Mathlib.Data.Fin.Basic
import Mathlib.Data.List.Basic
set_option autoImplicit false

namespace PrAgent

abbrev CodeUnit := Fin 65536

instance code_units_nonempty : NeZero (65536 : Nat) := ⟨by decide⟩

-- A string as its UTF-16 code units, surrogates without a partner included.
abbrev JsString := List CodeUnit

def unit (c : Char) : CodeUnit := Fin.ofNat 65536 c.toNat

def units (literal : String) : JsString := literal.toList.map unit

section Quote

def isHighSurrogate (u : CodeUnit) : Bool := 0xD800 ≤ u.val && u.val ≤ 0xDBFF

def isLowSurrogate (u : CodeUnit) : Bool := 0xDC00 ≤ u.val && u.val ≤ 0xDFFF

-- The letter that stands for a unit after a backslash.
def escapeLetter (u : CodeUnit) : Option Char :=
  if u.val = 8 then some 'b'
  else if u.val = 9 then some 't'
  else if u.val = 10 then some 'n'
  else if u.val = 12 then some 'f'
  else if u.val = 13 then some 'r'
  else if u.val = 34 then some '"'
  else if u.val = 92 then some '\\'
  else none

def hexUnit (n : Nat) : CodeUnit := unit (Nat.digitChar (n % 16))

def unicodeEscape (u : CodeUnit) : JsString :=
  [unit '\\', unit 'u', hexUnit (u.val / 4096), hexUnit (u.val / 256), hexUnit (u.val / 16), hexUnit u.val]

-- A unit outside of a surrogate pair.
def quoteUnit (u : CodeUnit) : JsString :=
  match escapeLetter u with
  | some c => [unit '\\', unit c]
  | none => if u.val < 32 || isHighSurrogate u || isLowSurrogate u then unicodeEscape u else [u]

def quoteUnits : JsString → JsString
  | [] => []
  | [u] => quoteUnit u
  | u :: v :: rest =>
    if isHighSurrogate u && isLowSurrogate v then u :: v :: quoteUnits rest else quoteUnit u ++ quoteUnits (v :: rest)

-- `JSON.stringify` of a string.
def jsonQuote (value : JsString) : JsString := unit '"' :: (quoteUnits value ++ [unit '"'])

end Quote

section Read

def hexValue (c : CodeUnit) : Option Nat := (List.range 16).find? fun n => hexUnit n = c

def letterUnit (c : CodeUnit) : Option CodeUnit :=
  ([8, 9, 10, 12, 13, 34, 92] : List Nat).findSome? fun n =>
    if (escapeLetter (Fin.ofNat 65536 n)).map unit = some c then some (Fin.ofNat 65536 n) else none

def readHex : JsString → Option (CodeUnit × JsString)
  | a :: b :: c :: d :: rest =>
    match hexValue a, hexValue b, hexValue c, hexValue d with
    | some w, some x, some y, some z => some (Fin.ofNat 65536 (w * 4096 + x * 256 + y * 16 + z), rest)
    | _, _, _, _ => none
  | _ => none

-- The unit that a quoted text starts with, and the text after it.
def readUnit : JsString → Option (CodeUnit × JsString)
  | [] => none
  | c :: rest =>
    if c = unit '\\' then
      match rest with
      | [] => none
      | e :: rest => if e = unit 'u' then readHex rest else (letterUnit e).map fun u => (u, rest)
    else some (c, rest)

theorem hexValue_hexUnit (n : Nat) : hexValue (hexUnit n) = some (n % 16) := by
  have all : ∀ m < 16, hexValue (hexUnit m) = some m := by decide +kernel
  have same : hexUnit n = hexUnit (n % 16) := by simp [hexUnit]
  rw [same, all (n % 16) (Nat.mod_lt n (by decide))]

theorem readHex_digits (u : CodeUnit) (rest : JsString) :
    readHex (hexUnit (u.val / 4096) :: hexUnit (u.val / 256) :: hexUnit (u.val / 16) :: hexUnit u.val :: rest) = some (u, rest) := by
  have small := u.isLt
  have value : u.val / 4096 % 16 * 4096 + u.val / 256 % 16 * 256 + u.val / 16 % 16 * 16 + u.val % 16 = u.val := by omega
  simp only [readHex, hexValue_hexUnit]
  rw [value]
  simp

theorem letterUnit_escapeLetter {u : CodeUnit} {c : Char} (escaped : escapeLetter u = some c) :
    letterUnit (unit c) = some u ∧ unit c ≠ unit 'u' := by
  have all : (([8, 9, 10, 12, 13, 34, 92] : List Nat).all fun n => (escapeLetter (Fin.ofNat 65536 n)).all fun c =>
      letterUnit (unit c) = some (Fin.ofNat 65536 n) && unit c ≠ unit 'u') = true := by decide +kernel
  have listed : u.val ∈ ([8, 9, 10, 12, 13, 34, 92] : List Nat) := by
    simp only [List.mem_cons, List.not_mem_nil, or_false]
    by_contra other
    simp only [not_or] at other
    obtain ⟨b, t, n, f, r, quote, slash⟩ := other
    rw [escapeLetter, if_neg b, if_neg t, if_neg n, if_neg f, if_neg r, if_neg quote, if_neg slash] at escaped
    cases escaped
  have same : Fin.ofNat 65536 u.val = u := by simp
  have found := List.all_eq_true.mp all u.val listed
  rw [same, escaped] at found
  simpa using found

theorem readUnit_plain {u : CodeUnit} (plain : u ≠ unit '\\') (rest : JsString) : readUnit (u :: rest) = some (u, rest) := by
  simp only [readUnit, if_neg plain]

theorem escapeLetter_backslash : escapeLetter (unit '\\') = some '\\' := by decide

theorem readUnit_quoteUnit (u : CodeUnit) (rest : JsString) : readUnit (quoteUnit u ++ rest) = some (u, rest) := by
  rw [quoteUnit]
  cases escaped : escapeLetter u with
  | some c =>
      obtain ⟨letter, other⟩ := letterUnit_escapeLetter escaped
      simp [readUnit, letter, other]
  | none =>
      by_cases special : (u.val < 32 || isHighSurrogate u || isLowSurrogate u) = true
      · simp only [if_pos special, unicodeEscape, List.cons_append, List.nil_append, readUnit, if_true]
        exact readHex_digits u rest
      · simp only [if_neg special]
        refine readUnit_plain ?_ rest
        intro slash
        rw [slash, escapeLetter_backslash] at escaped
        cases escaped

end Read

section Unique

variable {value other s t x rest rest' : JsString} {u : CodeUnit}

-- A text that is read back as the units of a string and does not end in between.
inductive Spells : JsString → JsString → Prop
  | nil : Spells [] []
  | cons {u : CodeUnit} {s t x : JsString} (read : ∀ rest, readUnit (x ++ rest) = some (u, rest)) (goes : x.head? ≠ some (unit '"'))
    (nonempty : x ≠ []) (later : Spells s t) : Spells (u :: s) (x ++ t)

theorem surrogate_plain (surrogate : isHighSurrogate u = true ∨ isLowSurrogate u = true) : u ≠ unit '\\' ∧ u ≠ unit '"' := by
  have large : 0xD800 ≤ u.val := by
    simp only [isHighSurrogate, isLowSurrogate, Bool.and_eq_true, decide_eq_true_eq] at surrogate
    omega
  have slash : (unit '\\').val = 92 := by decide
  have quote : (unit '"').val = 34 := by decide
  constructor
  · rintro rfl
    omega
  · rintro rfl
    omega

theorem quoteUnit_head (u : CodeUnit) : (quoteUnit u).head? ≠ some (unit '"') := by
  rw [quoteUnit]
  cases escaped : escapeLetter u with
  | some c => simp only [List.head?_cons]; decide
  | none =>
      by_cases special : (u.val < 32 || isHighSurrogate u || isLowSurrogate u) = true
      · simp only [if_pos special, unicodeEscape, List.head?_cons]
        decide
      · simp only [if_neg special, List.head?_cons]
        intro quote
        rw [Option.some.inj quote] at escaped
        exact absurd escaped (by decide)

theorem quoteUnit_ne_nil (u : CodeUnit) : quoteUnit u ≠ [] := by
  intro empty
  have read := readUnit_quoteUnit u []
  rw [empty] at read
  cases read

theorem spells_quoteUnits (value : JsString) : Spells value (quoteUnits value) := by
  fun_induction quoteUnits value with
  | case1 => exact .nil
  | case2 u => exact List.append_nil (quoteUnit u) ▸ .cons (readUnit_quoteUnit u) (quoteUnit_head u) (quoteUnit_ne_nil u) .nil
  | case3 u v rest pair ih =>
      rw [Bool.and_eq_true] at pair
      obtain ⟨slash, quote⟩ := surrogate_plain (.inl pair.1)
      obtain ⟨slash', quote'⟩ := surrogate_plain (.inr pair.2)
      exact .cons (x := [u]) (readUnit_plain slash) (by simpa using quote) (by simp)
        (.cons (x := [v]) (readUnit_plain slash') (by simpa using quote') (by simp) ih)
  | case4 u v rest _ ih => exact .cons (readUnit_quoteUnit u) (quoteUnit_head u) (quoteUnit_ne_nil u) ih

theorem spells_unique (first : Spells value s) (second : Spells other t)
    (same : s ++ unit '"' :: rest = t ++ unit '"' :: rest') : value = other ∧ rest = rest' := by
  induction first generalizing other t with
  | nil =>
      cases second with
      | nil => exact ⟨rfl, (List.cons.inj same).2⟩
      | @cons u s t x read goes nonempty later =>
          obtain ⟨c, x, rfl⟩ := List.exists_cons_of_ne_nil nonempty
          rw [← (List.cons.inj same).1] at goes
          exact absurd rfl goes
  | @cons u s t x read goes nonempty later ih =>
      cases second with
      | nil =>
          obtain ⟨c, x, rfl⟩ := List.exists_cons_of_ne_nil nonempty
          rw [(List.cons.inj same).1] at goes
          exact absurd rfl goes
      | @cons v s' t' y read' goes' nonempty' later' =>
          rw [List.append_assoc, List.append_assoc] at same
          have units := congrArg readUnit same
          rw [read, read'] at units
          obtain ⟨rfl, after⟩ := Prod.mk.inj (Option.some.inj units)
          obtain ⟨rfl, after⟩ := ih later' after
          exact ⟨rfl, after⟩

-- A quoted string ends where its text says.
theorem jsonQuote_unique (same : jsonQuote value ++ rest = jsonQuote other ++ rest') : value = other ∧ rest = rest' := by
  refine spells_unique (spells_quoteUnits value) (spells_quoteUnits other) ?_
  simpa [jsonQuote] using same

end Unique
end PrAgent
