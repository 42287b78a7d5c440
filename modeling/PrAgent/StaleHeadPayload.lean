import PrAgent.WorkItem
set_option autoImplicit false

namespace PrAgent

section RawJson

structure JsonNumber where
  negative : Bool
  whole : Nat
  fraction : List (Fin 10)
  deriving DecidableEq, Repr

inductive RawJson
  | null
  | bool (value : Bool)
  | number (value : JsonNumber)
  | string (value : String)
  | array (elements : List RawJson)
  | object (members : List (String × RawJson))

abbrev JsonObject := List (String × RawJson)

def JsonNumber.text (number : JsonNumber) : String :=
  (if number.negative then "-" else "") ++ toString number.whole ++
    (if number.fraction = [] then "" else "." ++ String.join (number.fraction.map toString))

-- How a string is written in the text of a document.
def escapedJsonChar (c : Char) : String :=
  if c = '"' then "\\\""
  else if c = '\\' then "\\\\"
  else if c.toNat = 8 then "\\b"
  else if c.toNat = 12 then "\\f"
  else if c = '\n' then "\\n"
  else if c = '\r' then "\\r"
  else if c = '\t' then "\\t"
  else if c.toNat < 32 then "\\u00" ++ (if c.toNat < 16 then "0" else "1") ++ String.singleton (Nat.digitChar (c.toNat % 16))
  else String.singleton c

def quotedJson (value : String) : String := "\"" ++ String.join (value.toList.map escapedJsonChar) ++ "\""

mutual
-- `value::text` of a `jsonb` value.
def jsonText : RawJson → String
  | .null => "null"
  | .bool value => if value then "true" else "false"
  | .number value => value.text
  | .string value => quotedJson value
  | .array elements => "[" ++ ", ".intercalate (elementTexts elements) ++ "]"
  | .object members => "\x7b" ++ ", ".intercalate (memberTexts members) ++ "\x7d"
def elementTexts : List RawJson → List String
  | [] => []
  | element :: elements => jsonText element :: elementTexts elements
def memberTexts : List (String × RawJson) → List String
  | [] => []
  | (key, value) :: members => (quotedJson key ++ ": " ++ jsonText value) :: memberTexts members
end

-- `value -> 'key'`.
def RawJson.member : RawJson → String → Option RawJson
  | .object members, key => members.lookup key
  | _, _ => none

-- The text that `->>` makes of what a key holds.
def sqlText : Option RawJson → Option String
  | none | some .null => none
  | some (.string found) => some found
  | some found => some (jsonText found)

-- `value ->> 'key'`.
def RawJson.memberText (value : RawJson) (key : String) : Option String := sqlText (value.member key)

def nullIf (value : Option String) (other : String) : Option String :=
  if value = some other then none else value

end RawJson

section Readers

def staleHeadReplacementIdSql (payload : JsonObject) : Option String :=
  (((RawJson.object payload).member "staleHeadReplacement").bind fun nested => nested.memberText "replacementWorkItemId").or
    (nullIf ((RawJson.object payload).memberText "staleHeadReplacementWorkItemId") "")

def nonEmptyString : Option RawJson → Option String
  | some (.string value) => if value.length > 0 then some value else none
  | _ => none

def asReplacementState : Option RawJson → Option ReplacementState
  | some (.string value) =>
    if value = "pending-enqueue" then some .pendingEnqueue else if value = "enqueued" then some .enqueued else none
  | _ => none

-- A `StaleHeadReplacement` with the id as it stands in the payload.
structure PayloadReplacement where
  replacementWorkItemId : String
  state : ReplacementState
  deriving DecidableEq, Repr

-- `value === true`.
def isTrueJson : Option RawJson → Bool
  | some (.bool true) => true
  | _ => false

def isRecord : RawJson → Bool
  | .object _ => true
  | _ => false

def normalizeStaleHeadReplacement (raw : JsonObject) : Option PayloadReplacement :=
  let nested := (raw.lookup "staleHeadReplacement").filter isRecord
  let nestedId := nonEmptyString (nested.bind fun nested => nested.member "replacementWorkItemId")
  let legacyId := nonEmptyString (raw.lookup "staleHeadReplacementWorkItemId")
  let replacementWorkItemId := nestedId.or (if isTrueJson (raw.lookup "staleHeadRescheduled") then none else legacyId)
  replacementWorkItemId.map fun replacementWorkItemId =>
    { replacementWorkItemId
      state := (asReplacementState (nested.bind fun nested => nested.member "state")).getD
        (if isTrueJson (raw.lookup "staleHeadReplacementEnqueued") then .enqueued else .pendingEnqueue) }

end Readers

section Agreement

variable {payload : JsonObject}

def nestedReplacementId (payload : JsonObject) : Option RawJson :=
  (payload.lookup "staleHeadReplacement").bind fun nested => nested.member "replacementWorkItemId"

def legacyReplacementId (payload : JsonObject) : Option RawJson := payload.lookup "staleHeadReplacementWorkItemId"

def rescheduled (payload : JsonObject) : Bool := isTrueJson (payload.lookup "staleHeadRescheduled")

-- The legacy id is read alike where no nested id counts.
def LegacyAgrees (legacy : Option RawJson) (rescheduled : Bool) : Prop :=
  match legacy with
  | none | some .null => True
  | some (.string id) => id = "" ∨ rescheduled = false
  | some _ => False

def IdsAgree (nested legacy : Option RawJson) (rescheduled : Bool) : Prop :=
  match nested with
  | none | some .null => LegacyAgrees legacy rescheduled
  | some (.string id) => id ≠ ""
  | some other => rescheduled = false ∧ legacy = some (.string (jsonText other))

theorem jsonText_ne_empty (value : RawJson) : jsonText value ≠ "" := by
  have wrapped : ∀ opening inner close : String, opening ≠ "" → opening ++ inner ++ close ≠ "" := by
    intro opening inner close nonempty empty
    rw [String.append_assoc, String.append_eq_empty_iff] at empty
    exact nonempty empty.1
  cases value with
  | null => simp [jsonText]
  | bool value => cases value <;> simp [jsonText]
  | number value => simp [jsonText, JsonNumber.text]
  | string value => exact wrapped _ _ _ (by simp)
  | array elements => exact wrapped _ _ _ (by simp)
  | object members => exact wrapped _ _ _ (by simp)

theorem nonEmptyString_string (id : String) : nonEmptyString (some (.string id)) = if id = "" then none else some id := by
  by_cases empty : id = ""
  · simp [nonEmptyString, empty]
  · have long : id.length > 0 := Nat.pos_of_ne_zero fun zero => empty (String.length_eq_zero_iff.mp zero)
    simp only [nonEmptyString, if_pos long, if_neg empty]

theorem nonEmptyString_eq_some {legacy : Option RawJson} {id : String} (nonempty : id ≠ "") :
    nonEmptyString legacy = some id ↔ legacy = some (.string id) := by
  cases legacy with
  | none => simp [nonEmptyString]
  | some value =>
      cases value with
      | string other =>
          rw [nonEmptyString_string]
          by_cases empty : other = ""
          · simp [empty, Ne.symm nonempty]
          · simp [empty]
      | null => simp [nonEmptyString]
      | bool value => simp [nonEmptyString]
      | number value => simp [nonEmptyString]
      | array elements => simp [nonEmptyString]
      | object members => simp [nonEmptyString]

theorem nonEmptyString_ne_empty (legacy : Option RawJson) : nonEmptyString legacy ≠ some "" := by
  intro empty
  cases legacy with
  | none => cases empty
  | some value =>
      cases value with
      | string id =>
          rw [nonEmptyString_string] at empty
          by_cases none : id = ""
          · simp [none] at empty
          · simp [none] at empty
      | null => cases empty
      | bool value => cases empty
      | number value => cases empty
      | array elements => cases empty
      | object members => cases empty

theorem legacy_agrees_iff (legacy : Option RawJson) (rescheduled : Bool) :
    nullIf (sqlText legacy) "" = (if rescheduled then none else nonEmptyString legacy) ↔ LegacyAgrees legacy rescheduled := by
  cases legacy with
  | none => simp [sqlText, nullIf, nonEmptyString, LegacyAgrees]
  | some value =>
      cases value with
      | null => simp [sqlText, nullIf, nonEmptyString, LegacyAgrees]
      | string id =>
          rw [nonEmptyString_string, LegacyAgrees, sqlText, nullIf]
          by_cases empty : id = ""
          · simp [empty]
          · cases rescheduled <;> simp [empty]
      | bool value => simp [sqlText, nullIf, nonEmptyString, LegacyAgrees, jsonText_ne_empty]
      | number value => simp [sqlText, nullIf, nonEmptyString, LegacyAgrees, jsonText_ne_empty]
      | array elements => simp [sqlText, nullIf, nonEmptyString, LegacyAgrees, jsonText_ne_empty]
      | object members => simp [sqlText, nullIf, nonEmptyString, LegacyAgrees, jsonText_ne_empty]

-- A nested id that is no text is one in SQL only.
theorem other_agrees_iff {text : String} (nonempty : text ≠ "") (legacy : Option RawJson) (rescheduled : Bool) :
    some text = (if rescheduled then none else nonEmptyString legacy) ↔ rescheduled = false ∧ legacy = some (.string text) := by
  cases rescheduled with
  | true => simp
  | false =>
      rw [if_neg Bool.false_ne_true, eq_comm, nonEmptyString_eq_some nonempty]
      simp

theorem ids_agree_iff (nested legacy : Option RawJson) (rescheduled : Bool) :
    (sqlText nested).or (nullIf (sqlText legacy) "") =
      (nonEmptyString nested).or (if rescheduled then none else nonEmptyString legacy) ↔ IdsAgree nested legacy rescheduled := by
  have other : ∀ value : RawJson, nonEmptyString (some value) = none → sqlText (some value) = some (jsonText value) →
      ((sqlText (some value)).or (nullIf (sqlText legacy) "") =
        (nonEmptyString (some value)).or (if rescheduled then none else nonEmptyString legacy) ↔
          rescheduled = false ∧ legacy = some (.string (jsonText value))) := by
    intro value none text
    rw [none, text, Option.none_or, Option.some_or]
    exact other_agrees_iff (jsonText_ne_empty value) legacy rescheduled
  cases nested with
  | none => exact legacy_agrees_iff legacy rescheduled
  | some value =>
      cases value with
      | null => exact legacy_agrees_iff legacy rescheduled
      | string id =>
          rw [nonEmptyString_string]
          by_cases empty : id = ""
          · have unread : some "" ≠ if rescheduled then none else nonEmptyString legacy := by
              cases rescheduled with
              | true => simp
              | false => exact Ne.symm (nonEmptyString_ne_empty legacy)
            simpa [sqlText, empty, IdsAgree] using unread
          · simp [sqlText, empty, IdsAgree]
      | bool value => exact other _ rfl rfl
      | number value => exact other _ rfl rfl
      | array elements => exact other _ rfl rfl
      | object members => exact other _ rfl rfl

theorem normalized_id (payload : JsonObject) :
    (normalizeStaleHeadReplacement payload).map PayloadReplacement.replacementWorkItemId =
      (nonEmptyString (nestedReplacementId payload)).or
        (if rescheduled payload then none else nonEmptyString (legacyReplacementId payload)) := by
  have records : ((payload.lookup "staleHeadReplacement").filter isRecord).bind
      (fun nested => nested.member "replacementWorkItemId") = nestedReplacementId payload := by
    rw [nestedReplacementId]
    cases payload.lookup "staleHeadReplacement" with
    | none => rfl
    | some nested => cases nested <;> rfl
  rw [normalizeStaleHeadReplacement, Option.map_map, records]
  exact congrFun Option.map_id _

theorem sql_reader_id (payload : JsonObject) : staleHeadReplacementIdSql payload =
    (sqlText (nestedReplacementId payload)).or (nullIf (sqlText (legacyReplacementId payload)) "") := by
  have nested : ((RawJson.object payload).member "staleHeadReplacement").bind
      (fun nested => nested.memberText "replacementWorkItemId") = sqlText (nestedReplacementId payload) := by
    rw [nestedReplacementId, RawJson.member]
    cases payload.lookup "staleHeadReplacement" with
    | none => rfl
    | some nested => rfl
  rw [staleHeadReplacementIdSql, nested]
  rfl

-- The two readers name one replacement exactly on the shapes that agree.
theorem stale_head_readers_agree_iff (payload : JsonObject) :
    staleHeadReplacementIdSql payload = (normalizeStaleHeadReplacement payload).map PayloadReplacement.replacementWorkItemId ↔
      IdsAgree (nestedReplacementId payload) (legacyReplacementId payload) (rescheduled payload) := by
  rw [normalized_id, sql_reader_id]
  exact ids_agree_iff _ _ _

-- A replacement row that copied the legacy id of its parent.
def copiedLegacyId : JsonObject :=
  [("staleHeadRescheduled", .bool true), ("staleHeadReplacementWorkItemId", .string "rep-1")]

theorem copied_legacy_id_read_twice : ¬∀ payload : JsonObject, staleHeadReplacementIdSql payload =
    (normalizeStaleHeadReplacement payload).map PayloadReplacement.replacementWorkItemId := by
  intro claimed
  have sql : staleHeadReplacementIdSql copiedLegacyId = some "rep-1" := by decide +kernel
  have code : normalizeStaleHeadReplacement copiedLegacyId = none := by decide +kernel
  have same := claimed copiedLegacyId
  rw [sql, code] at same
  cases same

end Agreement
end PrAgent
