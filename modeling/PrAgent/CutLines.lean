import PrAgent.SplitPieces
import PrAgent.ToolOutputBudget
set_option autoImplicit false

namespace PrAgent

section Bytes

theorem trail_low (x : UInt8) : isTrailByte (x &&& 0x3f ||| 0x80) = true := by
  have all : ∀ n < 256, isTrailByte (UInt8.ofNat n &&& 0x3f ||| 0x80) = true := by decide +kernel
  have here := all x.toNat x.toNat_lt
  rw [UInt8.ofNat_toNat] at here
  exact here

theorem first_not_trail {byte : UInt8} (first : byte.IsUTF8FirstByte) : isTrailByte byte = false := by
  have all : ∀ n < 256, (UInt8.ofNat n).IsUTF8FirstByte → isTrailByte (UInt8.ofNat n) = false := by decide +kernel
  have here := all byte.toNat byte.toNat_lt
  rw [UInt8.ofNat_toNat] at here
  exact here first

theorem encoded_trails (c : Char) : ∃ first trails, String.utf8EncodeChar c = first :: trails ∧ isTrailByte first = false ∧
    ∀ byte ∈ trails, isTrailByte byte = true := by
  have leads {first : UInt8} {trails : List UInt8} (encoded : String.utf8EncodeChar c = first :: trails) : isTrailByte first = false := by
    apply first_not_trail
    have zero := @UInt8.isUTF8FirstByte_getElem_zero_utf8EncodeChar c
    simp only [encoded, List.getElem_cons_zero] at zero
    exact zero
  have low := c.utf8Size_pos
  have high := c.utf8Size_le_four
  obtain size | size | size | size : c.utf8Size = 1 ∨ c.utf8Size = 2 ∨ c.utf8Size = 3 ∨ c.utf8Size = 4 := by omega
  · have encoded := String.utf8EncodeChar_eq_singleton size
    exact ⟨_, _, encoded, leads encoded, by simp⟩
  · have encoded := String.utf8EncodeChar_eq_cons_cons size
    exact ⟨_, _, encoded, leads encoded, by simp [trail_low]⟩
  · have encoded := String.utf8EncodeChar_eq_cons_cons_cons size
    exact ⟨_, _, encoded, leads encoded, by simp [trail_low]⟩
  · have encoded := String.utf8EncodeChar_eq_cons_cons_cons_cons size
    exact ⟨_, _, encoded, leads encoded, by simp [trail_low]⟩

theorem written_head (value : Text) : (writeUtf8 value)[0]?.any isTrailByte = false := by
  cases value with
  | nil => rfl
  | cons c rest =>
      obtain ⟨first, trails, encoded, leads, _⟩ := encoded_trails c
      have bytes : writeUtf8 (c :: rest) = first :: (trails ++ writeUtf8 rest) := by
        rw [← List.cons_append, ← encoded]
        rfl
      rw [bytes, List.getElem?_cons_zero, Option.any_some, leads]

theorem cutEnd_inside (first : UInt8) {trails : List UInt8} (trail : ∀ byte ∈ trails, isTrailByte byte = true) (more : List UInt8) {n : Nat}
    (inside : n ≤ trails.length) : cutEnd (first :: (trails ++ more)) n = 0 := by
  induction n with
  | zero => rfl
  | succ n ih =>
      have here : (first :: (trails ++ more))[n + 1]? = some trails[n] := by
        rw [List.getElem?_cons_succ, List.getElem?_append_left inside, List.getElem?_eq_getElem inside]
      rw [cutEnd, here, Option.any_some, trail _ (List.getElem_mem inside), if_pos rfl, ih (by omega)]

theorem cutEnd_behind (lead : UInt8) (before : List UInt8) {after : List UInt8} (starts : after[0]?.any isTrailByte = false) (m : Nat) :
    cutEnd (lead :: (before ++ after)) (before.length + 1 + m) = before.length + 1 + cutEnd after m := by
  have here (k : Nat) : (lead :: (before ++ after))[before.length + k + 1]? = after[k]? := by
    rw [List.getElem?_cons_succ, List.getElem?_append_right (Nat.le_add_right _ _), Nat.add_sub_cancel_left]
  induction m with
  | zero =>
      have stays : cutEnd (lead :: (before ++ after)) (before.length + 1) =
          if (lead :: (before ++ after))[before.length + 0 + 1]?.any isTrailByte then cutEnd (lead :: (before ++ after)) before.length
          else before.length + 1 := rfl
      rw [Nat.add_zero, stays, here 0, starts]
      rfl
  | succ m ih =>
      have same : before.length + 1 + (m + 1) = before.length + (m + 1) + 1 := by omega
      have next := here (m + 1)
      rw [same, cutEnd, next, cutEnd]
      by_cases trail : after[m + 1]?.any isTrailByte = true
      · rw [if_pos trail, if_pos trail, ← ih]
        congr 1
        omega
      · rw [if_neg trail, if_neg trail]
        omega

-- The cut falls between two characters.
theorem cutEnd_take (value : Text) (n : Nat) : (writeUtf8 value).take (cutEnd (writeUtf8 value) n) = writeUtf8 (takeBytes n value) := by
  induction value generalizing n with
  | nil => simp [takeBytes, writeUtf8]
  | cons c rest ih =>
      obtain ⟨first, trails, encoded, leads, trail⟩ := encoded_trails c
      have size : trails.length + 1 = c.utf8Size := by
        rw [← String.length_utf8EncodeChar c, encoded]
        rfl
      have bytes (more : Text) : writeUtf8 (c :: more) = first :: (trails ++ writeUtf8 more) := by
        rw [← List.cons_append, ← encoded]
        rfl
      rw [bytes, takeBytes]
      by_cases fits : c.utf8Size ≤ n
      · obtain ⟨m, rfl⟩ : ∃ m, n = trails.length + 1 + m := ⟨n - (trails.length + 1), by omega⟩
        have room : trails.length + 1 + m - c.utf8Size = m := by omega
        have split : trails.length + 1 + cutEnd (writeUtf8 rest) m = (first :: trails).length + cutEnd (writeUtf8 rest) m := rfl
        rw [if_pos fits, cutEnd_behind first trails (written_head rest), room, bytes, split, ← List.cons_append, List.take_length_add_append, ih]
        rfl
      · rw [if_neg fits, cutEnd_inside first trail _ (by omega)]
        rfl

theorem capTextOutput_cut {value : Text} {maxBytes : Nat} (large : ¬textBytes value ≤ maxBytes) (reason : Text) :
    capTextOutput value maxBytes reason = ⟨takeBytes maxBytes value, true, textBytes (takeBytes maxBytes value), some reason⟩ := by
  rw [capTextOutput, if_neg large]
  simp only [cutEnd_take, read_writeUtf8]

theorem takeBytes_split (room : Nat) (value : Text) : ∃ rest, value = takeBytes room value ++ rest := by
  induction value generalizing room with
  | nil => exact ⟨[], rfl⟩
  | cons c rest ih =>
      rw [takeBytes]
      by_cases fits : c.utf8Size ≤ room
      · obtain ⟨more, split⟩ := ih (room - c.utf8Size)
        rw [if_pos fits]
        exact ⟨more, congrArg (List.cons c) split⟩
      · rw [if_neg fits]
        exact ⟨c :: rest, rfl⟩

theorem takeBytes_append (x y : Text) {room : Nat} (fits : textBytes x ≤ room) :
    takeBytes room (x ++ y) = x ++ takeBytes (room - textBytes x) y := by
  induction x generalizing room with
  | nil => rfl
  | cons c x ih =>
      rw [textBytes_cons] at fits ⊢
      rw [List.cons_append, takeBytes, if_pos (by omega), ih (by omega), Nat.sub_sub]
      rfl

theorem takeBytes_whole {room : Nat} {value : Text} (fits : textBytes value ≤ room) : takeBytes room value = value := by
  have taken := takeBytes_append value [] fits
  have nothing : takeBytes (room - textBytes value) [] = [] := by cases room - textBytes value <;> rfl
  rw [List.append_nil, nothing, List.append_nil] at taken
  exact taken

theorem textBytes_append (x y : Text) : textBytes (x ++ y) = textBytes x + textBytes y := by
  rw [textBytes, writeUtf8_append, List.length_append]
  rfl

theorem textBytes_length (value : Text) : textBytes value ≤ 4 * value.length := by
  induction value with
  | nil => exact Nat.le_refl 0
  | cons c rest ih =>
      have size := c.utf8Size_le_four
      rw [textBytes_cons, List.length_cons]
      omega

-- A code unit has at most three bytes.
theorem textBytes_units (value : Text) : textBytes value ≤ 3 * unitLength value := by
  induction value with
  | nil => exact Nat.le_refl 0
  | cons c rest ih =>
      have units : unitLength (c :: rest) = utf16Units c + unitLength rest := rfl
      have size : c.utf8Size ≤ 3 * utf16Units c := by
        rw [utf16Units]
        by_cases basic : c.toNat < 0x10000
        · rw [if_pos basic]
          have below : c.utf8Size ≠ 4 := by
            intro four
            have beyond := Char.utf8Size_eq_four_iff.mp four
            rw [UInt32.lt_iff_toNat_lt] at beyond
            have value : c.toNat = c.val.toNat := rfl
            have limit : (0xffff : UInt32).toNat = 0xffff := rfl
            omega
          have four := c.utf8Size_le_four
          omega
        · rw [if_neg basic]
          have four := c.utf8Size_le_four
          omega
      rw [textBytes_cons, units]
      omega

theorem length_units (value : Text) : value.length ≤ unitLength value := by
  induction value with
  | nil => exact Nat.le_refl 0
  | cons c rest ih =>
      have units : unitLength (c :: rest) = utf16Units c + unitLength rest := rfl
      have one : 1 ≤ utf16Units c := by
        rw [utf16Units]
        by_cases basic : c.toNat < 0x10000
        · rw [if_pos basic]
        · rw [if_neg basic]
          omega
      rw [units, List.length_cons]
      omega

end Bytes

section Lines

theorem splitOn_units (value line : Text) (listed : line ∈ value.splitOn '\n') : unitLength line ≤ unitLength value := by
  obtain ⟨before, after, whole⟩ := (splitOn_piece listed).2
  have units : unitLength value = unitLength before + unitLength line + unitLength after := by
    rw [← whole]
    simp only [unitLength, List.map_append, List.sum_append]
  omega

-- What `splitLines` leaves out is the empty text behind the last line feed.
def lastPiece (value : Text) : List Text := if endsWithLineFeed value then [[]] else []

theorem splitLines_split {value : Text} (filled : value ≠ []) : value.splitOn '\n' = splitLines value ++ lastPiece value := by
  rw [splitLines, if_neg filled, lastPiece]
  by_cases ends : endsWithLineFeed value = true
  · have last : value.getLast? = some '\n' := of_decide_eq_true ends
    obtain ⟨before, split⟩ := List.getLast?_eq_some_iff.mp last
    have pieces : value.splitOn '\n' = before.splitOn '\n' ++ [[]] := by
      rw [split, List.splitOn_append_cons_self]
      rfl
    have positive := List.length_pos_of_ne_nil (List.splitOn_ne_nil '\n' before)
    have many : 1 < (value.splitOn '\n').length ∧ (value.splitOn '\n').getLast? = some [] := by
      rw [pieces]
      constructor
      · rw [List.length_append, List.length_singleton]
        omega
      · rw [List.getLast?_concat]
    rw [if_pos ends]
    simp only [if_pos many]
    rw [pieces, List.dropLast_concat]
  · have open_ : value.getLast? ≠ some '\n' := fun last => ends (decide_eq_true last)
    rw [if_neg ends, List.append_nil, if_neg]
    intro both
    exact last_piece filled open_ both.2

theorem splitLines_filled {value : Text} (filled : value ≠ []) : splitLines value ≠ [] := by
  intro empty
  have split := splitLines_split filled
  have back : ['\n'].intercalate (value.splitOn '\n') = value := List.intercalate_splitOn '\n'
  rw [empty, lastPiece] at split
  by_cases ends : endsWithLineFeed value = true
  · rw [if_pos ends] at split
    rw [split] at back
    exact filled back.symm
  · rw [if_neg ends] at split
    exact List.splitOn_ne_nil '\n' value split

theorem splitLines_mem {value line : Text} (filled : value ≠ []) (listed : line ∈ splitLines value) : line ∈ value.splitOn '\n' := by
  rw [splitLines_split filled]
  exact List.mem_append_left _ listed

theorem splitLines_length {value : Text} (filled : value ≠ []) : (splitLines value).length ≤ unitLength value + 1 := by
  have counted := splitOn_count '\n' value
  have fewer : value.count '\n' ≤ value.length := List.count_le_length
  have units := length_units value
  rw [splitLines_split filled, List.length_append] at counted
  omega

end Lines
end PrAgent
