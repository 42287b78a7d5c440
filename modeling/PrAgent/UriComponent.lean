import Mathlib.Data.List.Basic
set_option autoImplicit false

namespace PrAgent

section Escapes

-- What `encodeURIComponent` leaves as it is: letters, digits and nine marks.
def isUnreserved (c : Char) : Bool := c.isAlphanum || [33, 39, 40, 41, 42, 45, 46, 95, 126].contains c.toNat

def upperHex (n : Nat) : Char := if n < 10 then Char.ofNat (48 + n) else Char.ofNat (55 + n)

def upperHexValue (c : Char) : Option Nat := (List.range 16).find? fun n => c = upperHex n

-- Both cases of a digit are read.
def hexCharValue (c : Char) : Option Nat := upperHexValue c.toUpper

def escapedByte (byte : UInt8) : List Char := ['%', upperHex (byte.toNat / 16), upperHex (byte.toNat % 16)]

def encodeURIComponentChar (c : Char) : List Char :=
  if isUnreserved c then [c] else (String.utf8EncodeChar c).flatMap escapedByte

def encodeURIComponent (value : List Char) : List Char := value.flatMap encodeURIComponentChar

-- The bytes of the escapes that a text starts with.
def escapedBytes : List Char → List UInt8
  | percent :: high :: low :: rest =>
    if percent = '%' then
      match hexCharValue high, hexCharValue low with
      | some x, some y => UInt8.ofNat (16 * x + y) :: escapedBytes rest
      | _, _ => []
    else []
  | _ => []

-- The escapes of one character are read at its first one, and the other ones are passed over.
def decodeAfter : Nat → List Char → Option (List Char)
  | _, [] => some []
  | passed + 1, _ :: rest => decodeAfter passed rest
  | 0, c :: rest =>
    if c = '%' then
      match (escapedBytes (c :: rest)).toByteArray.utf8DecodeChar? 0 with
      | some decoded => (decodeAfter (3 * decoded.utf8Size - 1) rest).map fun later => decoded :: later
      | none => none
    else (decodeAfter 0 rest).map fun later => c :: later

-- `none` is the URIError of a malformed text.
def decodeURIComponent (value : List Char) : Option (List Char) := decodeAfter 0 value

end Escapes

section RoundTrip

variable {c : Char} {value rest : List Char}

theorem hexCharValue_upperHex {n : Nat} (small : n < 16) : hexCharValue (upperHex n) = some n := by
  have all : ∀ n < 16, hexCharValue (upperHex n) = some n := by decide
  exact all n small

theorem escapedBytes_escapedByte (byte : UInt8) : escapedBytes (escapedByte byte ++ rest) = byte :: escapedBytes rest := by
  have size : byte.toNat < 256 := byte.toNat_lt
  have high := hexCharValue_upperHex (show byte.toNat / 16 < 16 by omega)
  have low := hexCharValue_upperHex (show byte.toNat % 16 < 16 by omega)
  have whole : UInt8.ofNat (16 * (byte.toNat / 16) + byte.toNat % 16) = byte := by
    rw [Nat.div_add_mod]
    exact UInt8.ofNat_toNat
  simp [escapedByte, escapedBytes, high, low, whole]

theorem escapedBytes_flatMap (bytes : List UInt8) (rest : List Char) :
    escapedBytes (bytes.flatMap escapedByte ++ rest) = bytes ++ escapedBytes rest := by
  induction bytes with
  | nil => rfl
  | cons byte bytes ih => rw [List.flatMap_cons, List.append_assoc, escapedBytes_escapedByte, ih, List.cons_append]

theorem escaped_length (bytes : List UInt8) : (bytes.flatMap escapedByte).length = 3 * bytes.length := by
  induction bytes with
  | nil => rfl
  | cons byte bytes ih =>
      rw [List.flatMap_cons, List.length_append, ih, List.length_cons]
      simp only [escapedByte, List.length_cons, List.length_nil]
      omega

theorem decodeAfter_append (passed : List Char) : decodeAfter passed.length (passed ++ rest) = decodeAfter 0 rest := by
  induction passed with
  | nil => rfl
  | cons c passed ih => rw [List.length_cons, List.cons_append, decodeAfter, ih]

theorem unreserved_ne_percent (unreserved : isUnreserved c = true) : c ≠ '%' := by
  intro same
  rw [same] at unreserved
  exact absurd unreserved (by decide)

theorem decodeURIComponent_cons :
    decodeURIComponent (encodeURIComponentChar c ++ rest) = (decodeURIComponent rest).map fun later => c :: later := by
  rw [encodeURIComponentChar]
  by_cases unreserved : isUnreserved c = true
  · rw [if_pos unreserved, List.singleton_append, decodeURIComponent, decodeAfter,
      if_neg (unreserved_ne_percent unreserved)]
    rfl
  · rw [if_neg unreserved]
    have bytes := escapedBytes_flatMap (String.utf8EncodeChar c) rest
    have length := escaped_length (String.utf8EncodeChar c)
    rw [String.length_utf8EncodeChar] at length
    have positive := c.utf8Size_pos
    obtain ⟨first, others, split⟩ : ∃ first others, String.utf8EncodeChar c = first :: others := by
      cases encoded : String.utf8EncodeChar c with
      | nil =>
          rw [encoded] at length
          simp only [List.flatMap_nil, List.length_nil] at length
          omega
      | cons first others => exact ⟨first, others, rfl⟩
    obtain ⟨tail, escaped⟩ : ∃ tail, (String.utf8EncodeChar c).flatMap escapedByte = '%' :: tail := by
      rw [split, List.flatMap_cons]
      exact ⟨_, rfl⟩
    rw [escaped, List.cons_append] at bytes ⊢
    rw [escaped, List.length_cons] at length
    have decoded : (escapedBytes ('%' :: (tail ++ rest))).toByteArray.utf8DecodeChar? 0 = some c := by
      rw [bytes, List.toByteArray_append]
      exact ByteArray.utf8DecodeChar?_utf8EncodeChar_append
    rw [decodeURIComponent, decodeAfter, if_pos rfl, decoded]
    simp only []
    rw [show 3 * c.utf8Size - 1 = tail.length by omega, decodeAfter_append]
    rfl

theorem decode_encode (value : List Char) : decodeURIComponent (encodeURIComponent value) = some value := by
  induction value with
  | nil => rfl
  | cons c value ih =>
      rw [encodeURIComponent, List.flatMap_cons, decodeURIComponent_cons]
      rw [encodeURIComponent] at ih
      rw [ih]
      rfl

end RoundTrip

section Characters

-- What an encoded text is made of.
def isEncoded (c : Char) : Bool := isUnreserved c || c = '%'

theorem upperHex_encoded {n : Nat} (small : n < 16) : isEncoded (upperHex n) = true := by
  have all : ∀ n < 16, isEncoded (upperHex n) = true := by decide
  exact all n small

theorem encodeURIComponent_encoded {value : List Char} {d : Char} (listed : d ∈ encodeURIComponent value) :
    isEncoded d = true := by
  obtain ⟨c, _, inside⟩ := List.mem_flatMap.mp listed
  rw [encodeURIComponentChar] at inside
  by_cases unreserved : isUnreserved c = true
  · rw [if_pos unreserved] at inside
    obtain rfl := List.mem_singleton.mp inside
    rw [isEncoded, unreserved, Bool.true_or]
  · rw [if_neg unreserved] at inside
    obtain ⟨byte, _, inside⟩ := List.mem_flatMap.mp inside
    have size : byte.toNat < 256 := byte.toNat_lt
    simp only [escapedByte, List.mem_cons, List.not_mem_nil, or_false] at inside
    rcases inside with rfl | rfl | rfl
    · decide
    · exact upperHex_encoded (by omega)
    · exact upperHex_encoded (by omega)

theorem encodeURIComponent_ne_nil {value : List Char} (nonempty : value ≠ []) : encodeURIComponent value ≠ [] := by
  intro empty
  have decoded := decode_encode value
  rw [empty] at decoded
  exact nonempty (Option.some.inj decoded).symm

end Characters
end PrAgent
