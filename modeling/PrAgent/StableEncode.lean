import PrAgent.JsNumber
import Mathlib.Data.List.Sort
import Mathlib.Data.List.Perm.Subperm
import Mathlib.Order.Fin.Basic
import Mathlib.Data.List.Lex
set_option autoImplicit false

namespace PrAgent

section Values

-- The values that a JSON text can hold, with `undefined` in an array or under a key.
inductive JsValue
  | null
  | undefined
  | bool (value : Bool)
  | number (value : JsNumber)
  | string (value : JsString)
  | array (items : List JsValue)
  | object (fields : List (JsString × JsValue))

def encodedNumber : JsNumber → JsString
  | .nan => units "number:NaN"
  | .infinite false => units "number:Infinity"
  | .infinite true => units "number:-Infinity"
  | .zero true => units "number:-0"
  | value => units "number:" ++ value.text

def joined (texts : List JsString) : JsString := [unit ','].intercalate texts

-- `Object.keys(value).toSorted()`.
def sortedKeys (keys : List JsString) : List JsString := keys.insertionSort fun a b => a ≤ b

def entryText (fields : List (JsString × JsString)) (key : JsString) : JsString :=
  jsonQuote key ++ unit ':' :: (fields.lookup key).getD []

mutual
def stableEncode : JsValue → JsString
  | .null => units "null"
  | .undefined => units "undefined"
  | .bool value => units (if value then "true" else "false")
  | .number value => encodedNumber value
  | .string value => jsonQuote value
  | .array items => unit '[' :: (joined (encodeItems items) ++ [unit ']'])
  | .object fields =>
    unit '{' :: (joined ((sortedKeys (fields.map Prod.fst)).map (entryText (encodeFields fields))) ++ [unit '}'])
def encodeItems : List JsValue → List JsString
  | [] => []
  | item :: items => stableEncode item :: encodeItems items
def encodeFields : List (JsString × JsValue) → List (JsString × JsString)
  | [] => []
  | (key, value) :: fields => (key, stableEncode value) :: encodeFields fields
end

end Values

section Sameness

mutual
-- Equal up to the order of the keys of an object.
def JsValue.Same : JsValue → JsValue → Prop
  | .null, .null => True
  | .undefined, .undefined => True
  | .bool value, .bool other => value = other
  | .number value, .number other => value = other
  | .string value, .string other => value = other
  | .array items, .array others => SameItems items others
  | .object fields, .object others => fields.length = others.length ∧ SameFields fields others
  | _, _ => False
def SameItems : List JsValue → List JsValue → Prop
  | [], [] => True
  | item :: items, other :: others => item.Same other ∧ SameItems items others
  | _, _ => False
def SameFields : List (JsString × JsValue) → List (JsString × JsValue) → Prop
  | [], _ => True
  | (key, value) :: fields, others => (∃ other, others.lookup key = some other ∧ value.Same other) ∧ SameFields fields others
end

mutual
-- No object has a key twice.
def JsValue.KeysDistinct : JsValue → Prop
  | .array items => ItemsDistinct items
  | .object fields => (fields.map Prod.fst).Nodup ∧ FieldsDistinct fields
  | _ => True
def ItemsDistinct : List JsValue → Prop
  | [] => True
  | item :: items => item.KeysDistinct ∧ ItemsDistinct items
def FieldsDistinct : List (JsString × JsValue) → Prop
  | [] => True
  | (_, value) :: fields => value.KeysDistinct ∧ FieldsDistinct fields
end

mutual
theorem JsValue.induct {P : JsValue → Prop} (null : P .null) (undefined : P .undefined) (bool : ∀ value, P (.bool value))
    (number : ∀ value, P (.number value)) (string : ∀ value, P (.string value))
    (array : ∀ items, (∀ item ∈ items, P item) → P (.array items))
    (object : ∀ fields, (∀ field ∈ fields, P field.2) → P (.object fields)) : ∀ value, P value
  | .null => null
  | .undefined => undefined
  | .bool value => bool value
  | .number value => number value
  | .string value => string value
  | .array items => array items (items_induct null undefined bool number string array object items)
  | .object fields => object fields (fields_induct null undefined bool number string array object fields)
theorem items_induct {P : JsValue → Prop} (null : P .null) (undefined : P .undefined) (bool : ∀ value, P (.bool value))
    (number : ∀ value, P (.number value)) (string : ∀ value, P (.string value))
    (array : ∀ items, (∀ item ∈ items, P item) → P (.array items))
    (object : ∀ fields, (∀ field ∈ fields, P field.2) → P (.object fields)) : ∀ items : List JsValue, ∀ item ∈ items, P item
  | first :: items, item, listed =>
    (List.mem_cons.mp listed).elim
      (fun same => same ▸ JsValue.induct null undefined bool number string array object first)
      (items_induct null undefined bool number string array object items item)
theorem fields_induct {P : JsValue → Prop} (null : P .null) (undefined : P .undefined) (bool : ∀ value, P (.bool value))
    (number : ∀ value, P (.number value)) (string : ∀ value, P (.string value))
    (array : ∀ items, (∀ item ∈ items, P item) → P (.array items))
    (object : ∀ fields, (∀ field ∈ fields, P field.2) → P (.object fields)) :
    ∀ fields : List (JsString × JsValue), ∀ field ∈ fields, P field.2
  | (_, value) :: fields, field, listed =>
    (List.mem_cons.mp listed).elim
      (fun same => same ▸ JsValue.induct null undefined bool number string array object value)
      (fields_induct null undefined bool number string array object fields field)
end

theorem itemsDistinct_iff {items : List JsValue} : ItemsDistinct items ↔ ∀ item ∈ items, item.KeysDistinct := by
  induction items with
  | nil => simp [ItemsDistinct]
  | cons item items ih => simp [ItemsDistinct, ih]

theorem fieldsDistinct_iff {fields : List (JsString × JsValue)} :
    FieldsDistinct fields ↔ ∀ field ∈ fields, field.2.KeysDistinct := by
  induction fields with
  | nil => simp [FieldsDistinct]
  | cons field fields ih => simp [FieldsDistinct, ih]

theorem sameFields_iff {fields others : List (JsString × JsValue)} : SameFields fields others ↔
    ∀ field ∈ fields, ∃ other, others.lookup field.1 = some other ∧ field.2.Same other := by
  induction fields with
  | nil => simp [SameFields]
  | cons field fields ih => simp [SameFields, ih]

theorem encodeItems_eq (items : List JsValue) : encodeItems items = items.map stableEncode := by
  induction items with
  | nil => rfl
  | cons item items ih => rw [encodeItems, ih, List.map_cons]

theorem lookup_encodeFields (fields : List (JsString × JsValue)) (key : JsString) :
    (encodeFields fields).lookup key = (fields.lookup key).map stableEncode := by
  induction fields with
  | nil => rfl
  | cons field fields ih =>
      rw [encodeFields, List.lookup_cons, List.lookup_cons]
      cases key == field.1 with
      | true => rfl
      | false => exact ih

end Sameness

section Numbers

def numberSign : JsNumber → Bool
  | .nan => false
  | .infinite negative | .zero negative | .finite negative _ => negative

def numberBody : JsNumber → JsString
  | .nan => units "NaN"
  | .infinite _ => units "Infinity"
  | .zero _ => units "0"
  | .finite _ decimal => decimal.text

theorem encodedNumber_eq (value : JsNumber) :
    encodedNumber value = units "number:" ++ (signUnits (numberSign value) ++ numberBody value) := by
  cases value with
  | nan => decide
  | infinite negative => cases negative <;> decide
  | zero negative => cases negative <;> decide
  | finite negative decimal => rfl

theorem numberBody_head (value : JsNumber) : ∃ c rest, numberBody value = c :: rest ∧ c ≠ unit '-' := by
  cases value with
  | nan => exact ⟨unit 'N', _, rfl, by decide⟩
  | infinite negative => exact ⟨unit 'I', _, rfl, by decide⟩
  | zero negative => exact ⟨unit '0', _, rfl, by decide⟩
  | finite negative decimal =>
      obtain ⟨d, rest, text⟩ := decimal_text_head decimal
      refine ⟨digitUnit d, rest, text, ?_⟩
      intro minus
      have digit := digitUnit_isDigit d
      rw [minus] at digit
      exact absurd digit (by decide)

theorem signUnits_inj {negative other : Bool} {value body : JsNumber}
    (same : signUnits negative ++ numberBody value = signUnits other ++ numberBody body) :
    negative = other ∧ numberBody value = numberBody body := by
  obtain ⟨c, rest, first, plain⟩ := numberBody_head value
  obtain ⟨d, rest', second, plain'⟩ := numberBody_head body
  cases negative with
  | false =>
      cases other with
      | false => exact ⟨rfl, same⟩
      | true =>
          rw [first] at same
          exact absurd (List.cons.inj same).1 plain
  | true =>
      cases other with
      | true => exact ⟨rfl, (List.cons.inj same).2⟩
      | false =>
          rw [second] at same
          exact absurd (List.cons.inj same).1.symm plain'

theorem numberBody_inj {value other : JsNumber} (sign : numberSign value = numberSign other)
    (same : numberBody value = numberBody other) : value = other := by
  have letters : ∀ {decimal : JsDecimal} {c : CodeUnit} {rest : JsString}, decimal.text = c :: rest → isDigitUnit c = true := by
    intro decimal c rest text
    obtain ⟨d, rest', start⟩ := decimal_text_head decimal
    rw [start] at text
    rw [← (List.cons.inj text).1]
    exact digitUnit_isDigit d
  cases value with
  | nan =>
      cases other with
      | nan => rfl
      | infinite negative => exact absurd same (show units "NaN" ≠ units "Infinity" by decide)
      | zero negative => exact absurd same (show units "NaN" ≠ units "0" by decide)
      | finite negative decimal => exact absurd (letters same.symm) (by decide)
  | infinite negative =>
      cases other with
      | nan => exact absurd same (show units "Infinity" ≠ units "NaN" by decide)
      | infinite other => rw [show negative = other from sign]
      | zero other => exact absurd same (show units "Infinity" ≠ units "0" by decide)
      | finite other decimal => exact absurd (letters same.symm) (by decide)
  | zero negative =>
      cases other with
      | nan => exact absurd same (show units "0" ≠ units "NaN" by decide)
      | infinite other => exact absurd same (show units "0" ≠ units "Infinity" by decide)
      | zero other => rw [show negative = other from sign]
      | finite other decimal => exact absurd same.symm (decimal_text_ne_zero decimal)
  | finite negative decimal =>
      cases other with
      | nan => exact absurd (letters same) (by decide)
      | infinite other => exact absurd (letters same) (by decide)
      | zero other => exact absurd same (decimal_text_ne_zero decimal)
      | finite other decimal' => rw [show negative = other from sign, decimal_text_inj same]

theorem encodedNumber_inj {value other : JsNumber} (same : encodedNumber value = encodedNumber other) : value = other := by
  rw [encodedNumber_eq, encodedNumber_eq] at same
  obtain ⟨sign, body⟩ := signUnits_inj (List.append_cancel_left same)
  exact numberBody_inj sign body

-- What can follow a value: the end of the text, or what separates it from the next one.
def isInside (u : CodeUnit) : Bool := u ≠ unit ',' && u ≠ unit ']' && u ≠ unit '}'

theorem digit_inside {u : CodeUnit} (digit : isDigitUnit u = true) : isInside u = true := by
  have comma : (unit ',').val = 44 := by decide
  have bracket : (unit ']').val = 93 := by decide
  have brace : (unit '}').val = 125 := by decide
  simp only [isDigitUnit, Bool.and_eq_true, decide_eq_true_eq] at digit
  simp only [isInside, Bool.and_eq_true, decide_eq_true_eq]
  refine ⟨⟨?_, ?_⟩, ?_⟩
  · rintro rfl
    omega
  · rintro rfl
    omega
  · rintro rfl
    omega

theorem naturalUnits_inside (n : Nat) : ∀ c ∈ naturalUnits n, isInside c = true := by
  intro c listed
  obtain ⟨d, digits, rfl⟩ := List.mem_map.mp listed
  have digit := Nat.isDigit_of_mem_toDigits (by decide) (by decide) digits
  simp only [Char.isDigit, Bool.and_eq_true, decide_eq_true_eq] at digit
  have low : 48 ≤ d.val.toNat := digit.1
  have high : d.val.toNat ≤ 57 := digit.2
  have val : d.toNat = d.val.toNat := rfl
  refine digit_inside ?_
  rw [isDigitUnit, unit, Fin.val_ofNat, Nat.mod_eq_of_lt (by omega)]
  simp only [Bool.and_eq_true, decide_eq_true_eq]
  omega

theorem partsText_inside (parts : NumberParts) : ∀ c ∈ partsText parts, isInside c = true := by
  have digits : ∀ ds : List (Fin 10), ∀ c ∈ digitUnits ds, isInside c = true := fun ds c listed =>
    digit_inside (digitUnits_class ds c listed)
  intro c listed
  rw [partsText, List.mem_append, List.mem_append] at listed
  rcases listed with whole | fraction | exponent
  · exact digits _ c whole
  · rw [fractionUnits] at fraction
    obtain ⟨_, fraction⟩ := List.mem_ite_nil_left.mp fraction
    rcases List.mem_cons.mp fraction with rfl | fraction
    · decide
    · exact digits _ c fraction
  · cases given : parts.2.2 with
    | none =>
        rw [given] at exponent
        cases exponent
    | some value =>
        rw [given, exponentUnits] at exponent
        rcases List.mem_cons.mp exponent with rfl | exponent
        · decide
        · rcases List.mem_cons.mp exponent with rfl | exponent
          · cases value.1 <;> decide
          · exact naturalUnits_inside _ c exponent

theorem encodedNumber_inside (value : JsNumber) : ∀ c ∈ encodedNumber value, isInside c = true := by
  have closed : ∀ text : JsString, text.all isInside = true → ∀ c ∈ text, isInside c = true := fun text all => List.all_eq_true.mp all
  intro c listed
  rw [encodedNumber_eq, List.mem_append, List.mem_append] at listed
  rcases listed with label | sign | body
  · exact closed (units "number:") (by decide) c label
  · cases negative : numberSign value with
    | false =>
        rw [negative] at sign
        cases sign
    | true =>
        rw [negative] at sign
        exact closed [unit '-'] (by decide) c sign
  · cases value with
    | nan => exact closed (units "NaN") (by decide) c body
    | infinite negative => exact closed (units "Infinity") (by decide) c body
    | zero negative => exact closed (units "0") (by decide) c body
    | finite negative decimal =>
        rw [numberBody, text_eq_parts] at body
        exact partsText_inside _ c body

theorem encodedNumber_unique {value other : JsNumber} {r r' : JsString} (stops : StopsAt isInside r) (stops' : StopsAt isInside r')
    (same : encodedNumber value ++ r = encodedNumber other ++ r') : value = other ∧ r = r' := by
  obtain ⟨text, rest⟩ := append_inj_class (encodedNumber_inside value) (encodedNumber_inside other) stops stops' same
  exact ⟨encodedNumber_inj text, rest⟩

end Numbers
end PrAgent
