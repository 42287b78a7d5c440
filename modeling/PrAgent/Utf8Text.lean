import PrAgent.CiSummaryCell
set_option autoImplicit false

namespace PrAgent

section Decoder

def isContinuation (byte : UInt8) : Bool := 0x80 ≤ byte && byte ≤ 0xBF

-- The second bytes that a sequence of three or four bytes allows.
def allowsSecond (lead second : UInt8) : Bool :=
  if lead = 0xE0 then 0xA0 ≤ second && second ≤ 0xBF
  else if lead = 0xED then 0x80 ≤ second && second ≤ 0x9F
  else if lead = 0xF0 then 0x90 ≤ second && second ≤ 0xBF
  else if lead = 0xF4 then 0x80 ≤ second && second ≤ 0x8F
  else 0xE1 ≤ lead && lead ≤ 0xF3 && isContinuation second

-- The length of the longest start of a sequence that no sequence goes on from.
def brokenLength : List UInt8 → Nat
  | lead :: second :: third :: _ =>
    if !allowsSecond lead second then 1 else if 0xF0 ≤ lead && isContinuation third then 3 else 2
  | [lead, second] => if allowsSecond lead second then 2 else 1
  | _ => 1

def decodeUtf8 : Nat → List UInt8 → Text
  | 0, _ => []
  | _ + 1, [] => []
  | fuel + 1, byte :: bytes =>
    match (byte :: bytes).toByteArray.utf8DecodeChar? 0 with
    | some c => c :: decodeUtf8 fuel ((byte :: bytes).drop c.utf8Size)
    | none => Char.ofNat 0xFFFD :: decodeUtf8 fuel ((byte :: bytes).drop (brokenLength (byte :: bytes)))

-- `readFile(path, "utf8")`: what does not decode is read as U+FFFD.
def readUtf8 (bytes : List UInt8) : Text := decodeUtf8 bytes.length bytes

def writeUtf8 (value : Text) : List UInt8 := value.flatMap String.utf8EncodeChar

end Decoder

section RoundTrip

theorem writeUtf8_append (x y : Text) : writeUtf8 (x ++ y) = writeUtf8 x ++ writeUtf8 y := List.flatMap_append

theorem decode_writeUtf8 (value : Text) (fuel : Nat) (enough : (writeUtf8 value).length ≤ fuel) :
    decodeUtf8 fuel (writeUtf8 value) = value := by
  induction value generalizing fuel with
  | nil => cases fuel <;> rfl
  | cons c value ih =>
      have bytes : writeUtf8 (c :: value) = String.utf8EncodeChar c ++ writeUtf8 value := rfl
      have size : (String.utf8EncodeChar c).length = c.utf8Size := String.length_utf8EncodeChar c
      have positive := c.utf8Size_pos
      have decoded : (String.utf8EncodeChar c ++ writeUtf8 value).toByteArray.utf8DecodeChar? 0 = some c := by
        rw [List.toByteArray_append]
        exact ByteArray.utf8DecodeChar?_utf8EncodeChar_append
      rw [bytes] at enough ⊢
      rw [List.length_append, size] at enough
      obtain ⟨first, others, split⟩ : ∃ first others, String.utf8EncodeChar c = first :: others := by
        apply List.exists_cons_of_ne_nil
        intro empty
        rw [empty, List.length_nil] at size
        omega
      obtain ⟨fuel, rfl⟩ : ∃ n, fuel = n + 1 := ⟨fuel - 1, by omega⟩
      rw [split, List.cons_append] at decoded ⊢
      rw [decodeUtf8, decoded]
      simp only
      rw [← List.cons_append, ← split, List.drop_left' size, ih fuel (by omega)]

-- A text that is written is read back.
theorem read_writeUtf8 (value : Text) : readUtf8 (writeUtf8 value) = value := decode_writeUtf8 value _ (Nat.le_refl _)

end RoundTrip
end PrAgent
