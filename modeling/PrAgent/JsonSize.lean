import Mathlib.Data.Nat.Digits.Defs
set_option autoImplicit false

namespace PrAgent

-- Code units of a string, as `length` counts them.
def utf16Units (c : Char) : Nat := if c.toNat < 0x10000 then 1 else 2

def unitLength (content : List Char) : Nat := (content.map utf16Units).sum

def utf16Length (text : String) : Nat := (text.toList.map utf16Units).sum

-- Bytes that `JSON.stringify` and UTF-8 make of one character of a string.
def jsonCharBytes (c : Char) : Nat :=
  if c = '"' ∨ c = '\\' ∨ c = '\n' ∨ c = '\r' ∨ c = '\t' ∨ c.toNat = 8 ∨ c.toNat = 12 then 2
  else if c.toNat < 0x20 then 6
  else c.utf8Size

def jsonStringBytes (text : String) : Nat := 2 + (text.toList.map jsonCharBytes).sum

def decimalLength (n : Nat) : Nat := (Nat.repr n).length

-- `canonical` is a part of which only the text is known.
inductive Json
  | number (value : Nat)
  | string (value : String)
  | canonical (text : String)
  | object (fields : List (String × Json))

mutual

def Json.bytes : Json → Nat
  | .number value => decimalLength value
  | .string value => jsonStringBytes value
  | .canonical text => text.utf8ByteSize
  | .object [] => 2
  | .object (field :: rest) => 1 + Json.fieldsBytes (field :: rest)

-- Each field is followed by a comma or by the closing brace.
def Json.fieldsBytes : List (String × Json) → Nat
  | [] => 0
  | (key, value) :: rest => jsonStringBytes key + 1 + value.bytes + 1 + Json.fieldsBytes rest

end

theorem json_char_bytes_le (c : Char) : jsonCharBytes c ≤ 6 * utf16Units c := by
  have unit : 1 ≤ utf16Units c := by
    unfold utf16Units
    split <;> omega
  unfold jsonCharBytes
  split
  · omega
  · split
    · omega
    · have size := c.utf8Size_le_four
      omega

theorem json_chars_le (chars : List Char) : (chars.map jsonCharBytes).sum ≤ 6 * (chars.map utf16Units).sum := by
  induction chars with
  | nil => simp
  | cons c rest ih =>
      have one := json_char_bytes_le c
      simp only [List.map_cons, List.sum_cons]
      omega

-- No character takes more than the six bytes of an escape for each code unit.
theorem json_string_bytes_le (text : String) : jsonStringBytes text ≤ 2 + 6 * utf16Length text := by
  have chars := json_chars_le text.toList
  unfold jsonStringBytes utf16Length
  omega

theorem json_plain_chars (chars : List Char) (plain : ∀ c ∈ chars, jsonCharBytes c = 1) :
    (chars.map jsonCharBytes).sum = chars.length := by
  induction chars with
  | nil => rfl
  | cons c rest ih =>
      have one := plain c List.mem_cons_self
      have others := ih fun c listed => plain c (List.mem_cons_of_mem _ listed)
      simp only [List.map_cons, List.sum_cons, List.length_cons]
      omega

theorem length_le_utf16 (chars : List Char) : chars.length ≤ (chars.map utf16Units).sum := by
  induction chars with
  | nil => simp
  | cons c rest ih =>
      have unit : 1 ≤ utf16Units c := by
        unfold utf16Units
        split <;> omega
      simp only [List.map_cons, List.sum_cons, List.length_cons]
      omega

theorem json_plain_bytes_le (text : String) (plain : ∀ c ∈ text.toList, jsonCharBytes c = 1) :
    jsonStringBytes text ≤ 2 + utf16Length text := by
  have chars := json_plain_chars text.toList plain
  have units := length_le_utf16 text.toList
  unfold jsonStringBytes utf16Length
  omega

theorem decimal_length_le {n k : Nat} (positive : 0 < k) (bound : n < 10 ^ k) : decimalLength n ≤ k :=
  (Nat.length_repr_le_iff positive).mpr bound

-- A check of the ASCII characters decides a class of characters that lies in ASCII.
theorem plain_of_ascii {allowed : Char → Bool} (ascii : ∀ c, allowed c = true → c.toNat < 128)
    (plain : ∀ n < 128, allowed (Char.ofNat n) = true → jsonCharBytes (Char.ofNat n) = 1) (c : Char)
    (here : allowed c = true) : jsonCharBytes c = 1 := by
  have known := plain c.toNat (ascii c here)
  rw [Char.ofNat_toNat] at known
  exact known here

theorem digit_ascii (c : Char) (digit : c.isDigit = true) : c.toNat < 128 := by
  simp only [Char.isDigit, Bool.and_eq_true, decide_eq_true_eq, UInt32.le_iff_toNat_le] at digit
  exact lt_of_le_of_lt digit.2 (by decide)

theorem json_decimal_bytes (n : Nat) : jsonStringBytes (Nat.repr n) = 2 + decimalLength n := by
  have plain : ∀ c ∈ (Nat.repr n).toList, jsonCharBytes c = 1 := by
    intro c listed
    rw [Nat.toList_repr] at listed
    exact plain_of_ascii digit_ascii (by decide +kernel) c
      (Nat.isDigit_of_mem_toDigits (by decide) (by decide) listed)
  rw [jsonStringBytes, json_plain_chars _ plain]
  rfl

theorem json_string_append (first second : String) :
    jsonStringBytes (first ++ second) + 2 = jsonStringBytes first + jsonStringBytes second := by
  simp only [jsonStringBytes, String.toList_append, List.map_append, List.sum_append]
  omega

example : jsonStringBytes "decisionId" = 12 := by decide +kernel

end PrAgent
