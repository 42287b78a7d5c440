import PrAgent.JsonDocument
import PrAgent.JsonSize
import PrAgent.Utf8Text
set_option autoImplicit false

namespace PrAgent

section Bound

structure TruncationInfo where
  reason : Text
  omittedCount : Option Nat
  omittedBytes : Option Nat
  fileContentTruncated : Bool

structure MarshalOptions where
  maxDepth : Nat
  maxArrayLength : Nat
  maxStringBytes : Nat
  maxTransferBytes : Nat

def codeModeMarshal : MarshalOptions := ⟨8, 100, 32 * 1024, 256 * 1024⟩

def textBytes (value : Text) : Nat := (writeUtf8 value).length

-- The whole characters within a number of bytes.
def takeBytes : Nat → Text → Text
  | _, [] => []
  | room, c :: rest => if c.utf8Size ≤ room then c :: takeBytes (room - c.utf8Size) rest else []

-- The text, and the bytes that it leaves out.
def truncateUtf8 (value : Text) (maxBytes : Nat) : Text × Nat :=
  if textBytes value ≤ maxBytes then (value, 0)
  else (takeBytes maxBytes value, textBytes value - textBytes (takeBytes maxBytes value))

def cutTree (reason : Text) : JsonTree := .object [(text "truncated", .bool true), (text "reason", .string reason)]

def isReservedName (name : Text) : Bool := name = text "__proto__" || name = text "constructor" || name = text "prototype"

variable (options : MarshalOptions)

mutual

-- The value with what was cut so far. A value that is not a tree of distinct objects is not modelled.
def boundInner (depth : Nat) : JsonTree → Option TruncationInfo → JsonTree × Option TruncationInfo
  | .null, truncation => (.null, truncation)
  | .bool value, truncation => (.bool value, truncation)
  | .number literal, truncation => (.number literal, truncation)
  | .string value, truncation =>
    let capped := truncateUtf8 value options.maxStringBytes
    let before := (truncation.bind TruncationInfo.omittedBytes).getD 0
    (.string capped.1, if 0 < capped.2 then some ⟨text "string_byte_limit", none, some (before + capped.2), false⟩ else truncation)
  | .array items, truncation =>
    if options.maxDepth ≤ depth then (cutTree (text "max_depth"), some ⟨text "max_depth", none, none, false⟩)
    else
      let omittedCount := items.length - options.maxArrayLength
      let bounded := boundItems (depth + 1) options.maxArrayLength items truncation
      if omittedCount = 0 then (.array bounded.1, bounded.2)
      else
        let before := (bounded.2.bind TruncationInfo.omittedCount).getD 0
        (.object
          [(text "truncated", .bool true), (text "omittedCount", .number (Nat.toDigits 10 omittedCount)),
            (text "reason", .string (text "array_length_limit")), (text "value", .array bounded.1)],
          some ⟨text "array_length_limit", some (before + omittedCount), none, false⟩)
  | .object fields, truncation =>
    if options.maxDepth ≤ depth then (cutTree (text "max_depth"), some ⟨text "max_depth", none, none, false⟩)
    else
      let bounded := boundFields (depth + 1) fields truncation
      (.object bounded.1, bounded.2)

def boundItems (depth : Nat) : Nat → List JsonTree → Option TruncationInfo → List JsonTree × Option TruncationInfo
  | 0, _, truncation => ([], truncation)
  | _ + 1, [], truncation => ([], truncation)
  | limit + 1, item :: rest, truncation =>
    let first := boundInner depth item truncation
    let later := boundItems depth limit rest first.2
    (first.1 :: later.1, later.2)

def boundFields (depth : Nat) : List (Text × JsonTree) → Option TruncationInfo → List (Text × JsonTree) × Option TruncationInfo
  | [], truncation => ([], truncation)
  | (name, value) :: rest, truncation =>
    if isReservedName name then boundFields depth rest truncation
    else
      let first := boundInner depth value truncation
      let later := boundFields depth rest first.2
      ((name, first.1) :: later.1, later.2)

end

structure BoundedValue where
  value : JsonTree
  truncation : Option TruncationInfo

def utf8ByteLength : JsonTree → Nat
  | .null => 0
  | .string value => textBytes value
  | value => textBytes value.stringify

def contentOf : JsonTree → Option Text
  | .object fields =>
    match JsonTree.field fields (text "content") with
    | some (.string content) => some content
    | _ => none
  | _ => none

def contentCut (value bounded : JsonTree) : Bool :=
  match contentOf value, contentOf bounded with
  | some before, some after => unitLength after < unitLength before
  | _, _ => false

def boundJsonValue (value : JsonTree) : BoundedValue :=
  let bounded := boundInner options 0 value none
  if options.maxTransferBytes < utf8ByteLength bounded.1 then
    ⟨cutTree (text "transfer_byte_limit"), some ⟨text "transfer_byte_limit", none, none, false⟩⟩
  else ⟨bounded.1, bounded.2.map fun truncation => { truncation with fileContentTruncated := contentCut value bounded.1 }⟩

end Bound

section Whole

mutual

-- No field has a name that is left out.
def JsonTree.ordinary : JsonTree → Bool
  | .array items => JsonTree.ordinaryItems items
  | .object fields => JsonTree.ordinaryFields fields
  | _ => true

def JsonTree.ordinaryItems : List JsonTree → Bool
  | [] => true
  | item :: rest => item.ordinary && JsonTree.ordinaryItems rest

def JsonTree.ordinaryFields : List (Text × JsonTree) → Bool
  | [] => true
  | (name, value) :: rest => !isReservedName name && (value.ordinary && JsonTree.ordinaryFields rest)

end

variable {options : MarshalOptions}

theorem textBytes_cons (c : Char) (value : Text) : textBytes (c :: value) = c.utf8Size + textBytes value := by
  have bytes : writeUtf8 (c :: value) = String.utf8EncodeChar c ++ writeUtf8 value := rfl
  rw [textBytes, bytes, List.length_append, String.length_utf8EncodeChar]
  rfl

theorem takeBytes_le (room : Nat) (value : Text) : textBytes (takeBytes room value) ≤ room := by
  induction value generalizing room with
  | nil => exact Nat.zero_le _
  | cons c rest ih =>
      rw [takeBytes]
      by_cases fits : c.utf8Size ≤ room
      · rw [if_pos fits, textBytes_cons]
        have later := ih (room - c.utf8Size)
        omega
      · rw [if_neg fits]
        exact Nat.zero_le _

theorem truncateUtf8_whole {value : Text} {maxBytes : Nat} (whole : ¬0 < (truncateUtf8 value maxBytes).2) :
    (truncateUtf8 value maxBytes).1 = value := by
  rw [truncateUtf8] at whole ⊢
  by_cases short : textBytes value ≤ maxBytes
  · rw [if_pos short]
  · rw [if_neg short] at whole
    simp only at whole
    have less := takeBytes_le maxBytes value
    omega

mutual

-- What is not cut is the value itself.
theorem boundInner_whole (depth : Nat) (tree value : JsonTree) (truncation : Option TruncationInfo) (ordinary : tree.ordinary = true)
    (whole : boundInner options depth tree truncation = (value, none)) : truncation = none ∧ value = tree := by
  cases tree with
  | null =>
      rw [boundInner] at whole
      cases whole
      exact ⟨rfl, rfl⟩
  | bool b =>
      rw [boundInner] at whole
      cases whole
      exact ⟨rfl, rfl⟩
  | number literal =>
      rw [boundInner] at whole
      cases whole
      exact ⟨rfl, rfl⟩
  | string content =>
      rw [boundInner] at whole
      simp only [Prod.mk.injEq] at whole
      obtain ⟨made, uncut⟩ := whole
      by_cases cut : 0 < (truncateUtf8 content options.maxStringBytes).2
      · rw [if_pos cut] at uncut
        cases uncut
      · rw [if_neg cut] at uncut
        exact ⟨uncut, by rw [← made, truncateUtf8_whole cut]⟩
  | array items =>
      rw [boundInner] at whole
      by_cases deep : options.maxDepth ≤ depth
      · rw [if_pos deep] at whole
        cases whole
      · rw [if_neg deep] at whole
        simp only at whole
        by_cases short : items.length - options.maxArrayLength = 0
        · rw [if_pos short] at whole
          simp only [Prod.mk.injEq] at whole
          obtain ⟨made, uncut⟩ := whole
          rw [JsonTree.ordinary] at ordinary
          have inner := boundItems_whole (depth + 1) options.maxArrayLength items _ truncation ordinary (by omega)
            (Prod.ext rfl uncut : boundItems options (depth + 1) options.maxArrayLength items truncation = (_, none))
          exact ⟨inner.1, made.symm.trans (congrArg JsonTree.array inner.2)⟩
        · rw [if_neg short] at whole
          cases whole
  | object fields =>
      rw [boundInner] at whole
      by_cases deep : options.maxDepth ≤ depth
      · rw [if_pos deep] at whole
        cases whole
      · rw [if_neg deep] at whole
        simp only [Prod.mk.injEq] at whole
        obtain ⟨made, uncut⟩ := whole
        rw [JsonTree.ordinary] at ordinary
        have inner := boundFields_whole (depth + 1) fields _ truncation ordinary
          (Prod.ext rfl uncut : boundFields options (depth + 1) fields truncation = (_, none))
        exact ⟨inner.1, made.symm.trans (congrArg JsonTree.object inner.2)⟩

theorem boundItems_whole (depth limit : Nat) (items out : List JsonTree) (truncation : Option TruncationInfo)
    (ordinary : JsonTree.ordinaryItems items = true) (short : items.length ≤ limit)
    (whole : boundItems options depth limit items truncation = (out, none)) : truncation = none ∧ out = items := by
  cases items with
  | nil =>
      cases limit <;> (rw [boundItems] at whole; cases whole; exact ⟨rfl, rfl⟩)
  | cons item rest =>
      cases limit with
      | zero => simp at short
      | succ limit =>
          rw [boundItems] at whole
          simp only [Prod.mk.injEq] at whole
          obtain ⟨made, uncut⟩ := whole
          rw [JsonTree.ordinaryItems, Bool.and_eq_true] at ordinary
          have later := boundItems_whole depth limit rest _ _ ordinary.2 (by simpa using short) (Prod.ext rfl uncut)
          have first := boundInner_whole depth item _ truncation ordinary.1 (Prod.ext rfl later.1)
          exact ⟨first.1, made.symm.trans (congrArg₂ List.cons first.2 later.2)⟩

theorem boundFields_whole (depth : Nat) (fields out : List (Text × JsonTree)) (truncation : Option TruncationInfo)
    (ordinary : JsonTree.ordinaryFields fields = true)
    (whole : boundFields options depth fields truncation = (out, none)) : truncation = none ∧ out = fields := by
  cases fields with
  | nil =>
      rw [boundFields] at whole
      cases whole
      exact ⟨rfl, rfl⟩
  | cons entry rest =>
      obtain ⟨name, value⟩ := entry
      rw [JsonTree.ordinaryFields, Bool.and_eq_true, Bool.and_eq_true, Bool.not_eq_true'] at ordinary
      rw [boundFields, if_neg (by simp [ordinary.1])] at whole
      simp only [Prod.mk.injEq] at whole
      obtain ⟨made, uncut⟩ := whole
      have later := boundFields_whole depth rest _ _ ordinary.2.2 (Prod.ext rfl uncut)
      have first := boundInner_whole depth value _ truncation ordinary.2.1 (Prod.ext rfl later.1)
      exact ⟨first.1, made.symm.trans (congrArg₂ List.cons (congrArg (Prod.mk name) first.2) later.2)⟩

end

end Whole
end PrAgent
