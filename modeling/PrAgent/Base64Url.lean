import PrAgent.CiSummaryCell
set_option autoImplicit false

namespace PrAgent

section Codec

def base64UrlAlphabet : Text := text "ABCDEFGHIJKLMNOPQRSTUVWXYZabcdefghijklmnopqrstuvwxyz0123456789-_"

def sextetChar (n : Nat) : Char := base64UrlAlphabet.getD (n % 64) 'A'

-- The decoder takes the signs of plain base64 as well.
def sextet? (c : Char) : Option Nat :=
  if c = '+' then some 62 else if c = '/' then some 63 else base64UrlAlphabet.findIdx? fun other => other = c

-- Without padding.
def sextets : List UInt8 → List Nat
  | [] => []
  | [a] => [a.toNat / 4, a.toNat % 4 * 16]
  | [a, b] => [a.toNat / 4, a.toNat % 4 * 16 + b.toNat / 16, b.toNat % 16 * 4]
  | a :: b :: c :: rest =>
    a.toNat / 4 :: (a.toNat % 4 * 16 + b.toNat / 16) :: (b.toNat % 16 * 4 + c.toNat / 64) :: c.toNat % 64 :: sextets rest

def octets : List Nat → List UInt8
  | a :: b :: c :: d :: rest =>
    UInt8.ofNat (a * 4 + b / 16) :: UInt8.ofNat (b % 16 * 16 + c / 4) :: UInt8.ofNat (c % 4 * 64 + d) :: octets rest
  | [a, b, c] => [UInt8.ofNat (a * 4 + b / 16), UInt8.ofNat (b % 16 * 16 + c / 4)]
  | [a, b] => [UInt8.ofNat (a * 4 + b / 16)]
  | _ => []

def toBase64Url (bytes : List UInt8) : Text := (sextets bytes).map sextetChar

-- Characters outside of the alphabet are passed over.
def fromBase64Url (value : Text) : List UInt8 := octets (value.filterMap sextet?)

end Codec

section RoundTrip

theorem sextet_char {n : Nat} (small : n < 64) : sextet? (sextetChar n) = some n := by
  have all : ∀ m < 64, sextet? (sextetChar m) = some m := by decide +kernel
  exact all n small

theorem sextets_small (bytes : List UInt8) : ∀ n ∈ sextets bytes, n < 64 := by
  fun_induction sextets bytes with
  | case1 => simp
  | case2 a =>
      have := a.toNat_lt
      intro n listed
      simp at listed
      omega
  | case3 a b =>
      have := a.toNat_lt
      have := b.toNat_lt
      intro n listed
      simp at listed
      omega
  | case4 a b c rest ih =>
      have := a.toNat_lt
      have := b.toNat_lt
      have := c.toNat_lt
      intro n listed
      simp at listed
      rcases listed with h | h | h | h | h
      · omega
      · omega
      · omega
      · omega
      · exact ih n h

theorem byte_back (byte : UInt8) {n : Nat} (same : n = byte.toNat) : UInt8.ofNat n = byte := by
  rw [same, UInt8.ofNat_toNat]

theorem octets_sextets (bytes : List UInt8) : octets (sextets bytes) = bytes := by
  fun_induction sextets bytes with
  | case1 => rfl
  | case2 a => rw [octets, byte_back a (by omega)]
  | case3 a b =>
      have := b.toNat_lt
      rw [octets, byte_back a (by omega), byte_back b (by omega)]
  | case4 a b c rest ih =>
      have := b.toNat_lt
      have := c.toNat_lt
      rw [octets, byte_back a (by omega), byte_back b (by omega), byte_back c (by omega), ih]

-- Bytes that are written are read back.
theorem from_toBase64Url (bytes : List UInt8) : fromBase64Url (toBase64Url bytes) = bytes := by
  have back : ((sextets bytes).map sextetChar).filterMap sextet? = sextets bytes := by
    rw [List.filterMap_map, ← List.filterMap_some (l := sextets bytes), List.filterMap_filterMap]
    apply List.filterMap_congr
    intro n listed
    exact sextet_char (sextets_small bytes n (by simpa using listed))
  rw [fromBase64Url, toBase64Url, back, octets_sextets]

end RoundTrip
end PrAgent
