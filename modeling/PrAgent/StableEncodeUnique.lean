import PrAgent.StableEncode
set_option autoImplicit false

namespace PrAgent

section Joined

variable {r r' : JsString}

theorem joined_cons (text : JsString) (texts : List JsString) :
    joined (text :: texts) = text ++ texts.flatMap fun other => unit ',' :: other := by
  induction texts generalizing text with
  | nil => simp [joined, List.intercalate]
  | cons second texts ih =>
      have rest : joined (text :: second :: texts) = text ++ ([unit ','] ++ joined (second :: texts)) := by
        simp [joined, List.intercalate]
      rw [rest, ih, List.flatMap_cons]
      simp

def tails (texts : List JsString) : JsString := texts.flatMap fun other => unit ',' :: other

theorem tails_cons (text : JsString) (texts : List JsString) : tails (text :: texts) = unit ',' :: (text ++ tails texts) := by
  simp [tails]

theorem tails_stops (texts : List JsString) {close : CodeUnit} (outside : isInside close = false) (r : JsString) :
    StopsAt isInside (tails texts ++ close :: r) := by
  cases texts with
  | nil => exact stopsAt_cons outside r
  | cons text texts =>
      rw [tails_cons]
      exact stopsAt_cons (by decide) _

end Joined

section Kinds

variable {value other : JsValue} {r r' : JsString}

inductive JsKind
  | null | undefined | true_ | false_ | number | string | array | object
  deriving DecidableEq, Repr

def JsValue.kind : JsValue → JsKind
  | .null => .null
  | .undefined => .undefined
  | .bool value => if value then .true_ else .false_
  | .number _ => .number
  | .string _ => .string
  | .array _ => .array
  | .object _ => .object

-- The kind of value that a text starts with.
def readKind : JsString → Option JsKind
  | [] => none
  | c :: rest =>
    if c = unit '"' then some .string
    else if c = unit '[' then some .array
    else if c = unit '{' then some .object
    else if c = unit 'u' then some .undefined
    else if c = unit 't' then some .true_
    else if c = unit 'f' then some .false_
    else if c = unit 'n' then if rest.drop 1 |>.head? |>.any fun d => d = unit 'm' then some .number else some .null
    else none

theorem readKind_encode (value : JsValue) (r : JsString) : readKind (stableEncode value ++ r) = some value.kind := by
  cases value with
  | null => rfl
  | undefined => rfl
  | bool value => cases value <;> rfl
  | number value =>
      rw [stableEncode, encodedNumber_eq]
      rfl
  | string value => rfl
  | array items => rfl
  | object fields => rfl

theorem kind_of_encode (same : stableEncode value ++ r = stableEncode other ++ r') : value.kind = other.kind := by
  have kinds := congrArg readKind same
  rw [readKind_encode, readKind_encode] at kinds
  exact Option.some.inj kinds

theorem encode_head (value : JsValue) : ∃ c rest, stableEncode value = c :: rest ∧ isInside c = true := by
  cases value with
  | null => exact ⟨unit 'n', _, rfl, by decide⟩
  | undefined => exact ⟨unit 'u', _, rfl, by decide⟩
  | bool value =>
      cases value with
      | true => exact ⟨unit 't', _, rfl, by decide⟩
      | false => exact ⟨unit 'f', _, rfl, by decide⟩
  | number value =>
      refine ⟨unit 'n', units "umber:" ++ (signUnits (numberSign value) ++ numberBody value), ?_, by decide⟩
      rw [stableEncode, encodedNumber_eq]
      rfl
  | string value => exact ⟨unit '"', _, rfl, by decide⟩
  | array items => exact ⟨unit '[', _, rfl, by decide⟩
  | object fields => exact ⟨unit '{', _, rfl, by decide⟩

end Kinds

section Unique

variable {value other : JsValue} {items others : List JsValue} {r r' : JsString}

-- The text of the value shows which value it is and where it ends.
def UniqueText (value : JsValue) : Prop :=
  value.KeysDistinct → ∀ (other : JsValue) (r r' : JsString), other.KeysDistinct → StopsAt isInside r → StopsAt isInside r' →
    stableEncode value ++ r = stableEncode other ++ r' → value.Same other ∧ r = r'

theorem tails_unique (unique : ∀ item ∈ items, UniqueText item) (distinct : ∀ item ∈ items, item.KeysDistinct)
    (distinct' : ∀ item ∈ others, item.KeysDistinct)
    (same : tails (items.map stableEncode) ++ unit ']' :: r = tails (others.map stableEncode) ++ unit ']' :: r') :
    SameItems items others ∧ r = r' := by
  induction items generalizing others with
  | nil =>
      cases others with
      | nil => exact ⟨trivial, (List.cons.inj same).2⟩
      | cons other others =>
          rw [List.map_cons, tails_cons] at same
          exact absurd (List.cons.inj same).1 (by decide)
  | cons item items ih =>
      cases others with
      | nil =>
          rw [List.map_cons, tails_cons] at same
          exact absurd (List.cons.inj same).1 (by decide)
      | cons other others =>
          simp only [List.map_cons, tails_cons, List.cons_append, List.append_assoc] at same
          obtain ⟨first, rest⟩ := unique item List.mem_cons_self (distinct item List.mem_cons_self) other _ _
            (distinct' other List.mem_cons_self) (tails_stops _ (by decide) r) (tails_stops _ (by decide) r') (List.cons.inj same).2
          obtain ⟨later, after⟩ := ih (fun x listed => unique x (List.mem_cons_of_mem _ listed))
            (fun x listed => distinct x (List.mem_cons_of_mem _ listed))
            (fun x listed => distinct' x (List.mem_cons_of_mem _ listed)) rest
          exact ⟨⟨first, later⟩, after⟩

theorem array_unique (unique : ∀ item ∈ items, UniqueText item) (distinct : ∀ item ∈ items, item.KeysDistinct)
    (distinct' : ∀ item ∈ others, item.KeysDistinct)
    (same : joined (items.map stableEncode) ++ unit ']' :: r = joined (others.map stableEncode) ++ unit ']' :: r') :
    SameItems items others ∧ r = r' := by
  cases items with
  | nil =>
      cases others with
      | nil => exact ⟨trivial, (List.cons.inj same).2⟩
      | cons other others =>
          obtain ⟨c, rest, start, inside⟩ := encode_head other
          rw [List.map_cons, joined_cons, start] at same
          rw [← (List.cons.inj same).1] at inside
          exact absurd inside (by decide)
  | cons item items =>
      cases others with
      | nil =>
          obtain ⟨c, rest, start, inside⟩ := encode_head item
          rw [List.map_cons, joined_cons, start] at same
          rw [(List.cons.inj same).1] at inside
          exact absurd inside (by decide)
      | cons other others =>
          refine tails_unique unique distinct distinct' ?_
          rw [List.map_cons, List.map_cons, joined_cons, joined_cons] at same
          rw [List.map_cons, List.map_cons, tails_cons, tails_cons, List.cons_append, List.cons_append]
          exact congrArg _ same

-- The keys with the texts under them.
theorem entries_unique {keys keys' : List JsString} {text text' : JsString → JsString} {Agrees : JsString → Prop}
    (unique : ∀ key ∈ keys, key ∈ keys' → ∀ r r' : JsString, StopsAt isInside r → StopsAt isInside r' →
      text key ++ r = text' key ++ r' → Agrees key ∧ r = r')
    (same : tails (keys.map fun key => jsonQuote key ++ unit ':' :: text key) ++ unit '}' :: r =
      tails (keys'.map fun key => jsonQuote key ++ unit ':' :: text' key) ++ unit '}' :: r') :
    keys = keys' ∧ (∀ key ∈ keys, Agrees key) ∧ r = r' := by
  induction keys generalizing keys' with
  | nil =>
      cases keys' with
      | nil => exact ⟨rfl, fun key listed => absurd listed List.not_mem_nil, (List.cons.inj same).2⟩
      | cons key keys' =>
          rw [List.map_cons, tails_cons] at same
          exact absurd (List.cons.inj same).1 (by decide)
  | cons key keys ih =>
      cases keys' with
      | nil =>
          rw [List.map_cons, tails_cons] at same
          exact absurd (List.cons.inj same).1 (by decide)
      | cons key' keys' =>
          simp only [List.map_cons, tails_cons, List.cons_append, List.append_assoc] at same
          obtain ⟨rfl, rest⟩ := jsonQuote_unique (List.cons.inj same).2
          obtain ⟨agrees, rest'⟩ := unique key List.mem_cons_self List.mem_cons_self _ _ (tails_stops _ (by decide) r)
            (tails_stops _ (by decide) r') (List.cons.inj rest).2
          obtain ⟨rfl, later, after⟩ := ih (fun k listed listed' => unique k (List.mem_cons_of_mem _ listed)
            (List.mem_cons_of_mem _ listed')) rest'
          refine ⟨rfl, fun k listed => ?_, after⟩
          rcases List.mem_cons.mp listed with rfl | listed
          · exact agrees
          · exact later k listed

theorem joined_entries_unique {keys keys' : List JsString} {text text' : JsString → JsString} {Agrees : JsString → Prop}
    (unique : ∀ key ∈ keys, key ∈ keys' → ∀ r r' : JsString, StopsAt isInside r → StopsAt isInside r' →
      text key ++ r = text' key ++ r' → Agrees key ∧ r = r')
    (same : joined (keys.map fun key => jsonQuote key ++ unit ':' :: text key) ++ unit '}' :: r =
      joined (keys'.map fun key => jsonQuote key ++ unit ':' :: text' key) ++ unit '}' :: r') :
    keys = keys' ∧ (∀ key ∈ keys, Agrees key) ∧ r = r' := by
  cases keys with
  | nil =>
      cases keys' with
      | nil => exact ⟨rfl, fun key listed => absurd listed List.not_mem_nil, (List.cons.inj same).2⟩
      | cons key keys' =>
          rw [List.map_cons, joined_cons] at same
          exact absurd (List.cons.inj same).1 (by decide)
  | cons key keys =>
      cases keys' with
      | nil =>
          rw [List.map_cons, joined_cons] at same
          exact absurd (List.cons.inj same).1 (by decide)
      | cons key' keys' =>
          refine entries_unique unique ?_
          rw [List.map_cons, List.map_cons, joined_cons, joined_cons] at same
          rw [List.map_cons, List.map_cons, tails_cons, tails_cons, List.cons_append, List.cons_append]
          exact congrArg _ same

end Unique

section Objects

variable {fields others : List (JsString × JsValue)} {key : JsString} {r r' : JsString}

theorem lookup_of_mem {value : JsValue} (distinct : (fields.map Prod.fst).Nodup) (listed : (key, value) ∈ fields) :
    fields.lookup key = some value := by
  induction fields with
  | nil => cases listed
  | cons field fields ih =>
      rw [List.map_cons, List.nodup_cons] at distinct
      rcases List.mem_cons.mp listed with rfl | later
      · exact List.lookup_cons_self
      · have other : (key == field.1) = false := by
          refine beq_eq_false_iff_ne.mpr ?_
          rintro rfl
          exact distinct.1 (List.mem_map.mpr ⟨(field.1, value), later, rfl⟩)
        rw [List.lookup_cons, other]
        exact ih distinct.2 later

theorem mem_of_lookup {value : JsValue} (found : fields.lookup key = some value) : (key, value) ∈ fields := by
  induction fields with
  | nil => cases found
  | cons field fields ih =>
      rw [List.lookup_cons] at found
      cases same : key == field.1 with
      | true =>
          rw [same] at found
          obtain rfl := Option.some.inj found
          rw [eq_of_beq same]
          exact List.mem_cons_self
      | false =>
          rw [same] at found
          exact List.mem_cons_of_mem _ (ih found)

theorem exists_lookup (listed : key ∈ fields.map Prod.fst) : ∃ value, fields.lookup key = some value := by
  cases found : fields.lookup key with
  | some value => exact ⟨value, rfl⟩
  | none =>
      obtain ⟨field, inFields, rfl⟩ := List.mem_map.mp listed
      have absent := List.lookup_eq_none_iff.mp found field inFields
      simp at absent

theorem sortedKeys_perm (keys : List JsString) : (sortedKeys keys).Perm keys := List.perm_insertionSort _ keys

theorem sortedKeys_congr {keys keys' : List JsString} (perm : keys.Perm keys') : sortedKeys keys = sortedKeys keys' := by
  have sorted : ∀ ks : List JsString, (sortedKeys ks).Pairwise fun a b => a ≤ b := fun ks => List.pairwise_insertionSort _ ks
  exact List.Perm.eq_of_pairwise (fun a b _ _ le le' => le_antisymm le le') (sorted keys) (sorted keys')
    ((sortedKeys_perm keys).trans (perm.trans (sortedKeys_perm keys').symm))

theorem mem_sortedKeys {keys : List JsString} : key ∈ sortedKeys keys ↔ key ∈ keys := (sortedKeys_perm keys).mem_iff

def fieldText (fields : List (JsString × JsValue)) (key : JsString) : JsString := ((encodeFields fields).lookup key).getD []

theorem fieldText_of_lookup {value : JsValue} (found : fields.lookup key = some value) : fieldText fields key = stableEncode value := by
  rw [fieldText, lookup_encodeFields, found]
  rfl

theorem object_unique (unique : ∀ field ∈ fields, UniqueText field.2) (keys : (fields.map Prod.fst).Nodup)
    (distinct : ∀ field ∈ fields, field.2.KeysDistinct) (distinct' : ∀ field ∈ others, field.2.KeysDistinct)
    (same : stableEncode (.object fields) ++ r = stableEncode (.object others) ++ r') :
    (JsValue.object fields).Same (.object others) ∧ r = r' := by
  have entries : joined ((sortedKeys (fields.map Prod.fst)).map fun key => jsonQuote key ++ unit ':' :: fieldText fields key) ++
      unit '}' :: r = joined ((sortedKeys (others.map Prod.fst)).map fun key => jsonQuote key ++ unit ':' :: fieldText others key) ++
        unit '}' :: r' := by
    rw [stableEncode, stableEncode] at same
    simp only [List.cons_append, List.append_assoc] at same
    exact (List.cons.inj same).2
  have agrees := @joined_entries_unique r r' _ _ (fieldText fields) (fieldText others)
    (fun key => ∃ value other, fields.lookup key = some value ∧ others.lookup key = some other ∧ value.Same other)
    (fun key listed listed' r r' stops stops' texts => by
      obtain ⟨value, found⟩ := exists_lookup (mem_sortedKeys.mp listed)
      obtain ⟨other, found'⟩ := exists_lookup (mem_sortedKeys.mp listed')
      rw [fieldText_of_lookup found, fieldText_of_lookup found'] at texts
      obtain ⟨same, rest⟩ := unique _ (mem_of_lookup found) (distinct _ (mem_of_lookup found)) other r r'
        (distinct' _ (mem_of_lookup found')) stops stops' texts
      exact ⟨⟨value, other, found, found', same⟩, rest⟩) entries
  obtain ⟨sorted, agrees, rest⟩ := agrees
  have lengths : fields.length = others.length := by
    have first := (sortedKeys_perm (fields.map Prod.fst)).length_eq
    have second := (sortedKeys_perm (others.map Prod.fst)).length_eq
    rw [sorted, second, List.length_map, List.length_map] at first
    exact first.symm
  refine ⟨⟨lengths, sameFields_iff.mpr fun field listed => ?_⟩, rest⟩
  obtain ⟨value, other, found, found', same⟩ := agrees field.1 (mem_sortedKeys.mpr (List.mem_map_of_mem listed))
  rw [lookup_of_mem keys listed] at found
  obtain rfl := Option.some.inj found
  exact ⟨other, found', same⟩

theorem uniqueText (value : JsValue) : UniqueText value := by
  induction value using JsValue.induct with
  | null =>
      intro _ other r r' _ _ _ same
      have kinds := kind_of_encode same
      cases other with
      | null => exact ⟨trivial, List.append_cancel_left same⟩
      | bool other => cases other <;> cases kinds
      | _ => cases kinds
  | undefined =>
      intro _ other r r' _ _ _ same
      have kinds := kind_of_encode same
      cases other with
      | undefined => exact ⟨trivial, List.append_cancel_left same⟩
      | bool other => cases other <;> cases kinds
      | _ => cases kinds
  | bool value =>
      intro _ other r r' _ _ _ same
      have kinds := kind_of_encode same
      cases other with
      | bool other =>
          have equal : value = other := by
            cases value with
            | true => cases other with
              | true => rfl
              | false => cases kinds
            | false => cases other with
              | true => cases kinds
              | false => rfl
          subst equal
          exact ⟨rfl, List.append_cancel_left same⟩
      | _ => cases value <;> cases kinds
  | number value =>
      intro _ other r r' _ stops stops' same
      have kinds := kind_of_encode same
      cases other with
      | number other => exact encodedNumber_unique stops stops' same
      | bool other => cases other <;> cases kinds
      | _ => cases kinds
  | string value =>
      intro _ other r r' _ _ _ same
      have kinds := kind_of_encode same
      cases other with
      | string other => exact jsonQuote_unique same
      | bool other => cases other <;> cases kinds
      | _ => cases kinds
  | array items ih =>
      intro distinct other r r' distinct' _ _ same
      have kinds := kind_of_encode same
      cases other with
      | array others =>
          refine array_unique ih (itemsDistinct_iff.mp distinct) (itemsDistinct_iff.mp distinct') ?_
          rw [stableEncode, stableEncode, encodeItems_eq, encodeItems_eq] at same
          simp only [List.cons_append, List.append_assoc] at same
          exact (List.cons.inj same).2
      | bool other => cases other <;> cases kinds
      | _ => cases kinds
  | object fields ih =>
      intro distinct other r r' distinct' _ _ same
      have kinds := kind_of_encode same
      cases other with
      | object others => exact object_unique ih distinct.1 (fieldsDistinct_iff.mp distinct.2) (fieldsDistinct_iff.mp distinct'.2) same
      | bool other => cases other <;> cases kinds
      | _ => cases kinds

end Objects

section Equal

variable {value other : JsValue} {fields others : List (JsString × JsValue)}

theorem sameItems_encode {items others : List JsValue} (ih : ∀ item ∈ items, ∀ other : JsValue, item.KeysDistinct →
    other.KeysDistinct → item.Same other → stableEncode item = stableEncode other) (distinct : ∀ item ∈ items, item.KeysDistinct)
    (distinct' : ∀ item ∈ others, item.KeysDistinct) (same : SameItems items others) : encodeItems items = encodeItems others := by
  induction items generalizing others with
  | nil =>
      cases others with
      | nil => rfl
      | cons other others => exact absurd same id
  | cons item items rest =>
      cases others with
      | nil => exact absurd same id
      | cons other others =>
          rw [encodeItems, encodeItems, ih item List.mem_cons_self other (distinct item List.mem_cons_self)
            (distinct' other List.mem_cons_self) same.1]
          rw [rest (fun x listed => ih x (List.mem_cons_of_mem _ listed)) (fun x listed => distinct x (List.mem_cons_of_mem _ listed))
            (fun x listed => distinct' x (List.mem_cons_of_mem _ listed)) same.2]

theorem keys_perm (keys : (fields.map Prod.fst).Nodup) (lengths : fields.length = others.length)
    (same : SameFields fields others) : (fields.map Prod.fst).Perm (others.map Prod.fst) := by
  have within : fields.map Prod.fst ⊆ others.map Prod.fst := by
    intro key listed
    obtain ⟨field, inFields, rfl⟩ := List.mem_map.mp listed
    obtain ⟨other, found, _⟩ := sameFields_iff.mp same field inFields
    exact List.mem_map.mpr ⟨_, mem_of_lookup found, rfl⟩
  refine (List.subperm_of_subset keys within).perm_of_length_le ?_
  rw [List.length_map, List.length_map, lengths]

theorem sameFields_encode (ih : ∀ field ∈ fields, ∀ other : JsValue, field.2.KeysDistinct → other.KeysDistinct →
    field.2.Same other → stableEncode field.2 = stableEncode other) (keys : (fields.map Prod.fst).Nodup)
    (distinct : ∀ field ∈ fields, field.2.KeysDistinct) (distinct' : ∀ field ∈ others, field.2.KeysDistinct)
    (same : (JsValue.object fields).Same (.object others)) : stableEncode (.object fields) = stableEncode (.object others) := by
  have texts : ∀ key ∈ sortedKeys (fields.map Prod.fst),
      entryText (encodeFields fields) key = entryText (encodeFields others) key := by
    intro key listed
    obtain ⟨field, inFields, rfl⟩ := List.mem_map.mp (mem_sortedKeys.mp listed)
    obtain ⟨other, found, agrees⟩ := sameFields_iff.mp same.2 field inFields
    have text := ih field inFields other (distinct field inFields) (distinct' _ (mem_of_lookup found)) agrees
    rw [entryText, entryText, lookup_encodeFields, lookup_encodeFields, found, lookup_of_mem keys inFields]
    simp [text]
  rw [stableEncode, stableEncode, ← sortedKeys_congr (keys_perm keys same.1 same.2), List.map_congr_left texts]

theorem encode_of_same (value other : JsValue) (distinct : value.KeysDistinct) (distinct' : other.KeysDistinct)
    (same : value.Same other) : stableEncode value = stableEncode other := by
  induction value using JsValue.induct generalizing other with
  | null =>
      cases other with
      | null => rfl
      | _ => cases same
  | undefined =>
      cases other with
      | undefined => rfl
      | _ => cases same
  | bool value =>
      cases other with
      | bool other => rw [show value = other from same]
      | _ => cases same
  | number value =>
      cases other with
      | number other => rw [show value = other from same]
      | _ => cases same
  | string value =>
      cases other with
      | string other => rw [show value = other from same]
      | _ => cases same
  | array items ih =>
      cases other with
      | array others =>
          rw [stableEncode, stableEncode, sameItems_encode (fun item listed other first second agrees =>
            ih item listed other first second agrees) (itemsDistinct_iff.mp distinct) (itemsDistinct_iff.mp distinct') same]
      | _ => cases same
  | object fields ih =>
      cases other with
      | object others =>
          exact sameFields_encode (fun field listed other first second agrees => ih field listed other first second agrees)
            distinct.1 (fieldsDistinct_iff.mp distinct.2) (fieldsDistinct_iff.mp distinct'.2) same
      | _ => cases same

end Equal

section Mutations

-- An input of a mutation: no object of it has a key twice.
structure JsInput where
  value : JsValue
  distinct : value.KeysDistinct

inductive PrSurfaceMutationMethod
  | setAcknowledgementReaction | replyAt | upsertProgressComment | editComment | setReviewCommitStatus | publishThreadBatch
  | resolveInlineReviewThread | setLabels | startReviewCheck | finishReviewCheck | editReviewComment | updatePullRequest
  deriving DecidableEq, Repr

def prSurfaceWireName : PrSurfaceMutationMethod → JsString
  | .setAcknowledgementReaction => units "setAcknowledgementReaction"
  | .replyAt => units "replyAt"
  | .upsertProgressComment => units "upsertProgressComment"
  | .editComment => units "editComment"
  | .setReviewCommitStatus => units "setReviewCommitStatus"
  | .publishThreadBatch => units "publishThreadBatch"
  | .resolveInlineReviewThread => units "resolveInlineReviewThread"
  | .setLabels => units "setLabels"
  | .startReviewCheck => units "startReviewCheck"
  | .finishReviewCheck => units "finishReviewCheck"
  | .editReviewComment => units "editReviewComment"
  | .updatePullRequest => units "publishDescription"

-- A mutation of a work item, with the operation intent it runs in.
structure PrSurfaceMutation where
  parentKey : Option JsString
  method : PrSurfaceMutationMethod
  input : JsInput

variable (hexDigest : JsString → JsString)

def inputHash (input : JsInput) : JsString := hexDigest (stableEncode input.value)

def operationKey (mutation : PrSurfaceMutation) : JsString :=
  match mutation.parentKey with
  | some parentKey =>
    parentKey ++ units ":surface:" ++ prSurfaceWireName mutation.method ++ unit ':' :: inputHash hexDigest mutation.input
  | none => units "pr-surface:" ++ prSurfaceWireName mutation.method ++ unit ':' :: inputHash hexDigest mutation.input

-- The digits that a digest is written with.
def isHexUnit (u : CodeUnit) : Bool := (List.range 16).any fun n => hexUnit n = u

theorem wireName_noColon (method : PrSurfaceMutationMethod) : unit ':' ∉ prSurfaceWireName method := by
  cases method <;> decide

theorem wireName_inj {method other : PrSurfaceMutationMethod} (same : prSurfaceWireName method = prSurfaceWireName other) :
    method = other := by
  revert same
  cases method <;> cases other <;> decide

-- What stands after the last occurrence of a character.
theorem last_split {α : Type} {a b x y : List α} {c : α} (absent : c ∉ x) (absent' : c ∉ y) (same : a ++ c :: x = b ++ c :: y) :
    a = b ∧ x = y := by
  rcases List.append_eq_append_iff.mp same with ⟨b', rfl, rest⟩ | ⟨a', rfl, rest⟩
  · cases b' with
    | nil => exact ⟨by simp, (List.cons.inj rest).2⟩
    | cons d b' =>
        obtain ⟨rfl, inside⟩ := List.cons.inj rest
        exact absurd (inside ▸ List.mem_append_right b' List.mem_cons_self) absent
  · cases a' with
    | nil => exact ⟨by simp, (List.cons.inj rest).2.symm⟩
    | cons d a' =>
        obtain ⟨rfl, inside⟩ := List.cons.inj rest
        exact absurd (inside ▸ List.mem_append_right a' List.mem_cons_self) absent'

theorem surface_split {a b x y : JsString} (absent : unit ':' ∉ x) (absent' : unit ':' ∉ y)
    (same : a ++ units ":surface:" ++ x = b ++ units ":surface:" ++ y) : a = b ∧ x = y := by
  have label : units ":surface:" = units ":surface" ++ [unit ':'] := by decide
  have same : (a ++ units ":surface") ++ unit ':' :: x = (b ++ units ":surface") ++ unit ':' :: y := by
    rw [label] at same
    simpa using same
  obtain ⟨parents, rest⟩ := last_split absent absent' same
  exact ⟨List.append_cancel_right parents, rest⟩

-- No key under an intent is one outside.
theorem surface_outside {a x y : JsString} (absent : unit ':' ∉ x) (absent' : unit ':' ∉ y) :
    a ++ units ":surface:" ++ x ≠ units "pr-surface:" ++ y := by
  have label : units ":surface:" = units ":surface" ++ [unit ':'] := by decide
  have label' : units "pr-surface:" = units "pr-surface" ++ [unit ':'] := by decide
  intro same
  have same : (a ++ units ":surface") ++ unit ':' :: x = units "pr-surface" ++ unit ':' :: y := by
    rw [label, label'] at same
    simpa using same
  obtain ⟨parents, _⟩ := last_split absent absent' same
  have colon : unit ':' ∈ units "pr-surface" := by
    rw [← parents]
    exact List.mem_append_right a (by decide)
  exact absurd colon (by decide)

theorem stableEncode_inj_iff (input other : JsInput) :
    stableEncode input.value = stableEncode other.value ↔ input.value.Same other.value := by
  constructor
  · intro same
    have stops := stopsAt_nil isInside
    exact (uniqueText input.value input.distinct other.value [] [] other.distinct stops stops (by rw [same])).1
  · exact encode_of_same input.value other.value input.distinct other.distinct

theorem operationKey_parts (plain : ∀ input : JsInput, unit ':' ∉ inputHash hexDigest input) {mutation other : PrSurfaceMutation}
    (same : operationKey hexDigest mutation = operationKey hexDigest other) :
    mutation.parentKey = other.parentKey ∧ mutation.method = other.method ∧
      inputHash hexDigest mutation.input = inputHash hexDigest other.input := by
  have wire := wireName_noColon mutation.method
  have wire' := wireName_noColon other.method
  rw [operationKey, operationKey] at same
  cases parent : mutation.parentKey with
  | some key =>
      cases parent' : other.parentKey with
      | some key' =>
          simp only [parent, parent'] at same
          obtain ⟨names, hashes⟩ := last_split (plain _) (plain _) same
          obtain ⟨keys, methods⟩ := surface_split wire wire' names
          exact ⟨by rw [keys], wireName_inj methods, hashes⟩
      | none =>
          simp only [parent, parent'] at same
          obtain ⟨names, _⟩ := last_split (plain _) (plain _) same
          exact absurd names (surface_outside wire wire')
  | none =>
      cases parent' : other.parentKey with
      | some key' =>
          simp only [parent, parent'] at same
          obtain ⟨names, _⟩ := last_split (plain _) (plain _) same
          exact absurd names.symm (surface_outside wire' wire)
      | none =>
          simp only [parent, parent'] at same
          obtain ⟨names, hashes⟩ := last_split (plain _) (plain _) same
          exact ⟨rfl, wireName_inj (List.append_cancel_left names), hashes⟩

-- Equal keys come from equal mutations, if the digest does not collide on their inputs.
theorem operation_keys_collision_free (hex : ∀ text, ∀ u ∈ hexDigest text, isHexUnit u = true) :
    (∀ input other : JsInput, stableEncode input.value = stableEncode other.value ↔ input.value.Same other.value) ∧
      ∀ mutation other : PrSurfaceMutation,
        (hexDigest (stableEncode mutation.input.value) = hexDigest (stableEncode other.input.value) →
          stableEncode mutation.input.value = stableEncode other.input.value) →
        operationKey hexDigest mutation = operationKey hexDigest other →
          mutation.parentKey = other.parentKey ∧ mutation.method = other.method ∧
            mutation.input.value.Same other.input.value := by
  have plain : ∀ input : JsInput, unit ':' ∉ inputHash hexDigest input := fun input listed =>
    absurd (hex _ _ listed) (by decide)
  refine ⟨stableEncode_inj_iff, fun mutation other collides same => ?_⟩
  obtain ⟨parents, methods, hashes⟩ := operationKey_parts hexDigest plain same
  exact ⟨parents, methods, (stableEncode_inj_iff mutation.input other.input).mp (collides hashes)⟩

end Mutations

section Example

def bugDigest : JsString := units "8b57b319b96aff121c96cdf1e2b04361c8a4135bc42bd63daf857f80f298302e"

def docsDigest : JsString := units "f4f60dcab1926f3f8981a049c0549978c89a974e608ddf2171d53aa92e523f08"

-- The digests of the two inputs below.
def labelDigest (text : JsString) : JsString := if text = units "[[\"bug\"]]" then bugDigest else docsDigest

def labelled (label : String) : PrSurfaceMutation where
  parentKey := some (units "review:7")
  method := .setLabels
  input := ⟨.array [.array [.string (units label)]], ⟨trivial, trivial⟩, trivial⟩

theorem label_keys_collision_free :
    operationKey labelDigest (labelled "bug") ≠ operationKey labelDigest (labelled "docs") := by
  have hex : ∀ text, ∀ u ∈ labelDigest text, isHexUnit u = true := by
    intro text
    rw [labelDigest]
    by_cases bug : text = units "[[\"bug\"]]"
    · rw [if_pos bug]
      exact List.all_eq_true.mp (by decide +kernel)
    · rw [if_neg bug]
      exact List.all_eq_true.mp (by decide +kernel)
  intro same
  have digests : labelDigest (stableEncode (labelled "bug").input.value) ≠
      labelDigest (stableEncode (labelled "docs").input.value) := by decide +kernel
  have inputs := ((operation_keys_collision_free labelDigest hex).2 (labelled "bug") (labelled "docs")
    (fun collision => absurd collision digests) same).2.2
  have labels : units "bug" = units "docs" := inputs.1.1
  exact absurd labels (by decide)

end Example
end PrAgent
