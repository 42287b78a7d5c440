import PrAgent.ChangedFilePageRuns
import PrAgent.CutLines
import PrAgent.WorkspaceTools
set_option autoImplicit false

namespace PrAgent

section Fields

variable {fields : List (Text × JsonTree)} {name other : Text} {value : JsonTree}

theorem field_cons (other name : Text) (value : JsonTree) (fields : List (Text × JsonTree)) :
    JsonTree.field ((other, value) :: fields) name = if other = name then some value else JsonTree.field fields name := by
  by_cases same : other = name
  · rw [if_pos same, JsonTree.field, List.find?_cons_of_pos (by simpa using same)]
    rfl
  · rw [if_neg same, JsonTree.field, List.find?_cons_of_neg (by simpa using same)]
    rfl

theorem field_append (left right : List (Text × JsonTree)) (name : Text) :
    JsonTree.field (left ++ right) name = (JsonTree.field left name).or (JsonTree.field right name) := by
  rw [JsonTree.field, List.find?_append, JsonTree.field, JsonTree.field]
  cases left.find? fun entry => entry.1 = name <;> rfl

theorem field_none (others : ∀ entry ∈ fields, entry.1 ≠ name) : JsonTree.field fields name = none := by
  rw [JsonTree.field, List.find?_eq_none.mpr fun entry listed => by simpa using others entry listed]
  rfl

theorem field_set_other (different : other ≠ name) : JsonTree.field (setField fields other value) name = JsonTree.field fields name := by
  rw [setField]
  by_cases there : (fields.any fun entry => entry.1 = other) = true
  · rw [if_pos there]
    clear there
    induction fields with
    | nil => rfl
    | cons entry fields ih =>
        obtain ⟨first, tree⟩ := entry
        rw [List.map_cons, field_cons]
        by_cases same : first = other
        · rw [if_pos same, field_cons, if_neg different, if_neg (same ▸ different), ih]
        · rw [if_neg same, field_cons, ih]
  · rw [if_neg there, field_append, field_cons, if_neg different]
    exact Option.or_none

theorem field_set_same : JsonTree.field (setField fields name value) name = some value := by
  rw [setField]
  by_cases there : (fields.any fun entry => entry.1 = name) = true
  · rw [if_pos there]
    induction fields with
    | nil => cases there
    | cons entry fields ih =>
        obtain ⟨first, tree⟩ := entry
        rw [List.map_cons]
        by_cases same : first = name
        · rw [if_pos same, field_cons, if_pos rfl]
        · rw [List.any_cons, Bool.or_eq_true, decide_eq_true_iff] at there
          rw [if_neg same, field_cons, if_neg same]
          exact ih (there.resolve_left same)
  · have absent : JsonTree.field fields name = none := by
      apply field_none
      intro entry listed same
      exact there (List.any_eq_true.mpr ⟨entry, listed, decide_eq_true same⟩)
    rw [if_neg there, field_append, absent, field_cons, if_pos rfl]
    rfl

end Fields

section Bound

variable {options : MarshalOptions}

mutual

-- What was cut once stays cut.
theorem boundInner_stays (depth : Nat) (tree : JsonTree) (info : TruncationInfo) : (boundInner options depth tree (some info)).2.isSome = true := by
  cases tree with
  | null | bool | number =>
      rw [boundInner]
      rfl
  | string value =>
      rw [boundInner]
      simp only
      by_cases cut : 0 < (truncateUtf8 value options.maxStringBytes).2
      · rw [if_pos cut]
        rfl
      · rw [if_neg cut]
        rfl
  | array items =>
      rw [boundInner]
      by_cases deep : options.maxDepth ≤ depth
      · rw [if_pos deep]
        rfl
      · rw [if_neg deep]
        simp only
        by_cases short : items.length - options.maxArrayLength = 0
        · rw [if_pos short]
          exact boundItems_stays (depth + 1) options.maxArrayLength items info
        · rw [if_neg short]
          rfl
  | object fields =>
      rw [boundInner]
      by_cases deep : options.maxDepth ≤ depth
      · rw [if_pos deep]
        rfl
      · rw [if_neg deep]
        exact boundFields_stays (depth + 1) fields info

theorem boundItems_stays (depth limit : Nat) (items : List JsonTree) (info : TruncationInfo) :
    (boundItems options depth limit items (some info)).2.isSome = true := by
  cases items with
  | nil => cases limit <;> (rw [boundItems]; rfl)
  | cons item rest =>
      cases limit with
      | zero =>
          rw [boundItems]
          rfl
      | succ limit =>
          obtain ⟨next, cut⟩ := Option.isSome_iff_exists.mp (boundInner_stays depth item info)
          rw [boundItems]
          simp only [cut]
          exact boundItems_stays depth limit rest next

theorem boundFields_stays (depth : Nat) (fields : List (Text × JsonTree)) (info : TruncationInfo) :
    (boundFields options depth fields (some info)).2.isSome = true := by
  cases fields with
  | nil =>
      rw [boundFields]
      rfl
  | cons entry rest =>
      obtain ⟨name, value⟩ := entry
      rw [boundFields]
      by_cases reserved : isReservedName name = true
      · rw [if_pos reserved]
        exact boundFields_stays depth rest info
      · obtain ⟨next, cut⟩ := Option.isSome_iff_exists.mp (boundInner_stays depth value info)
        rw [if_neg reserved]
        simp only [cut]
        exact boundFields_stays depth rest next

end

-- A field of the bounded object is the bounded field.
theorem bound_field {name : Text} (plain : isReservedName name = false) (depth : Nat) (fields : List (Text × JsonTree))
    (truncation : Option TruncationInfo) :
    (JsonTree.field fields name = none ∧ JsonTree.field (boundFields options depth fields truncation).1 name = none) ∨
      ∃ value before, JsonTree.field fields name = some value ∧
        JsonTree.field (boundFields options depth fields truncation).1 name = some (boundInner options depth value before).1 ∧
        ((boundInner options depth value before).2.isSome = true → (boundFields options depth fields truncation).2.isSome = true) := by
  induction fields generalizing truncation with
  | nil =>
      rw [boundFields]
      exact .inl ⟨rfl, rfl⟩
  | cons entry rest ih =>
      obtain ⟨first, value⟩ := entry
      rw [boundFields]
      by_cases reserved : isReservedName first = true
      · have other : first ≠ name := by
          intro same
          rw [same, plain] at reserved
          cases reserved
        rw [if_pos reserved, field_cons, if_neg other]
        exact ih truncation
      · rw [if_neg reserved, field_cons]
        simp only [field_cons]
        by_cases same : first = name
        · rw [if_pos same, if_pos same]
          refine .inr ⟨value, truncation, rfl, rfl, ?_⟩
          intro cut
          obtain ⟨next, made⟩ := Option.isSome_iff_exists.mp cut
          rw [made]
          exact boundFields_stays depth rest next
        · rw [if_neg same, if_neg same]
          exact ih _

theorem truncateUtf8_take (value : Text) (maxBytes : Nat) : (truncateUtf8 value maxBytes).1 = takeBytes maxBytes value := by
  rw [truncateUtf8]
  by_cases short : textBytes value ≤ maxBytes
  · rw [if_pos short, takeBytes_whole short]
  · rw [if_neg short]

theorem bound_string (depth : Nat) (value : Text) (before : Option TruncationInfo) :
    (boundInner options depth (.string value) before).1 = .string (takeBytes options.maxStringBytes value) := by
  rw [boundInner]
  exact congrArg JsonTree.string (truncateUtf8_take value options.maxStringBytes)

-- A text that does not fit is noted as cut.
theorem bound_string_cut (depth : Nat) {value : Text} (before : Option TruncationInfo) (cut : takeBytes options.maxStringBytes value ≠ value) :
    (boundInner options depth (.string value) before).2.isSome = true := by
  have left_out : 0 < (truncateUtf8 value options.maxStringBytes).2 := by
    apply Nat.pos_of_ne_zero
    intro nothing
    have whole := @truncateUtf8_whole value options.maxStringBytes (by omega)
    exact cut ((truncateUtf8_take value options.maxStringBytes).symm.trans whole)
  rw [boundInner]
  simp only [if_pos left_out]
  rfl

theorem bound_number (depth : Nat) (literal : Text) (before : Option TruncationInfo) :
    boundInner options depth (.number literal) before = (.number literal, before) := by rw [boundInner]

theorem bound_numbers (depth limit : Nat) {items : List JsonTree} (numbers : ∀ item ∈ items, ∃ literal, item = .number literal)
    (short : items.length ≤ limit) (before : Option TruncationInfo) : boundItems options depth limit items before = (items, before) := by
  induction items generalizing limit with
  | nil => cases limit <;> rw [boundItems]
  | cons item rest ih =>
      cases limit with
      | zero => simp at short
      | succ limit =>
          obtain ⟨literal, rfl⟩ := numbers item List.mem_cons_self
          have later := ih limit (fun other listed => numbers other (List.mem_cons_of_mem _ listed)) (by simpa using short)
          rw [boundItems, bound_number]
          simp only [later]

-- What is no text is bounded to something that is no text.
theorem bound_other (depth : Nat) {tree : JsonTree} (other : ∀ value, tree ≠ .string value) (before : Option TruncationInfo) :
    ∀ value, (boundInner options depth tree before).1 ≠ .string value := by
  intro value same
  cases tree with
  | null | bool | number =>
      rw [boundInner] at same
      cases same
  | string content => exact other content rfl
  | array items =>
      rw [boundInner] at same
      by_cases deep : options.maxDepth ≤ depth
      · rw [if_pos deep] at same
        cases same
      · rw [if_neg deep] at same
        simp only at same
        by_cases short : items.length - options.maxArrayLength = 0
        · rw [if_pos short] at same
          cases same
        · rw [if_neg short] at same
          cases same
  | object fields =>
      rw [boundInner] at same
      by_cases deep : options.maxDepth ≤ depth
      · rw [if_pos deep] at same
        cases same
      · rw [if_neg deep] at same
        cases same

end Bound

section Guest

def TruncationInfo.tree (info : TruncationInfo) : JsonTree :=
  .object ([(text "truncated", .bool true), (text "reason", .string info.reason)] ++
    (info.omittedCount.toList.map fun count => (text "omittedCount", naturalTree count)) ++
    (info.omittedBytes.toList.map fun bytes => (text "omittedBytes", naturalTree bytes)) ++
    if info.fileContentTruncated then [(text "fileContentTruncated", .bool true)] else [])

def toGuestCapabilityResult (bounded : JsonTree) (truncation : Option TruncationInfo) (coverage : Option JsonTree) : List (Text × JsonTree) :=
  let fields :=
    match bounded with
    | .object fields => fields
    | value => [(text "value", value)]
  let covered := coverage.elim fields fun coverage => setField fields (text "coverage") coverage
  setField covered (text "truncation") (truncation.elim .null TruncationInfo.tree)

-- `{ ...output, failureKind }` where the output says that it is truncated.
def markTruncated (tool : Text) : JsonTree → JsonTree
  | .object fields =>
    if tool ≠ text "listChangedFiles" ∧ isFlag (JsonTree.field fields (text "truncated")) true = true then
      .object (setField fields (text "failureKind") (.string (text "SEARCH_TRUNCATED")))
    else .object fields
  | output => output

def coverageOf : JsonTree → Option JsonTree
  | .object fields => JsonTree.field fields (text "coverage")
  | _ => none

-- What a script gets for a host call, from the output of the tool.
def guestResult (tool : Text) (output : JsonTree) : List (Text × JsonTree) :=
  let raw := markTruncated tool output
  let bounded := boundJsonValue codeModeMarshal raw
  toGuestCapabilityResult bounded.value bounded.truncation (coverageOf raw)

-- The line numbers that the tools return are natural.
def lineNumber : Option JsonTree → Option Nat
  | some (.number literal) => naturalLiteral literal
  | _ => none

def contentWasCut (row : List (Text × JsonTree)) : Bool :=
  match JsonTree.field row (text "truncation") with
  | some (.object truncation) => isFlag (JsonTree.field truncation (text "fileContentTruncated")) true
  | _ => false

def deliveredRow (headSha path content : Text) (row : List (Text × JsonTree)) (clampedLines : List Nat) : DeliveredFileRead :=
  let startLine := (lineNumber (JsonTree.field row (text "startLine"))).getD 1
  let lineCount := (content.splitOn '\n').length
  let computedEnd := startLine + max lineCount 1 - 1
  { path := path
    headSha := headSha
    startLine := startLine
    endLine := (lineNumber (JsonTree.field row (text "endLine"))).elim computedEnd fun endLine => min endLine computedEnd
    content := content
    clampedLines := if contentWasCut row then clampedLines ++ [computedEnd] else clampedLines }

def recordContent (ledger : EvidenceLedger) (headSha path content : Text) (row : List (Text × JsonTree)) : EvidenceLedger :=
  if content = [] then ledger
  else
    match JsonTree.field row (text "clampedLines") with
    | some (.array items) =>
      recordDeliveredFileRead ledger (deliveredRow headSha path content row (items.filterMap fun item => lineNumber (some item)))
    | some .null | none => recordDeliveredFileRead ledger (deliveredRow headSha path content row [])
    | some _ => ledger

def recordMarshalledEvidence (ledger : EvidenceLedger) (headSha : Text) (row : List (Text × JsonTree)) : EvidenceLedger :=
  if headSha = [] then ledger
  else
    match JsonTree.field row (text "path"), JsonTree.field row (text "content"), JsonTree.field row (text "diff") with
    | some (.string path), some (.string content), _ => recordContent (ledger.noteOpened path) headSha path content row
    | some (.string path), _, some (.string diff) =>
      if diff = [] then ledger else recordDiffEvidence (ledger.noteOpened path) path headSha diff
    | _, _, _ => ledger

theorem naturalTree_read (n : Nat) : lineNumber (some (naturalTree n)) = some n := naturalLiteral_decimal n

theorem marked_fields (tool : Text) (fields : List (Text × JsonTree)) : ∃ raw, markTruncated tool (.object fields) = .object raw ∧
    ∀ name, name ≠ text "failureKind" → JsonTree.field raw name = JsonTree.field fields name := by
  rw [markTruncated]
  by_cases marked : tool ≠ text "listChangedFiles" ∧ isFlag (JsonTree.field fields (text "truncated")) true = true
  · exact ⟨_, if_pos marked, fun name other => field_set_other (Ne.symm other)⟩
  · exact ⟨fields, if_neg marked, fun name other => rfl⟩

theorem guest_field (fields : List (Text × JsonTree)) (truncation : Option TruncationInfo) (coverage : Option JsonTree) {name : Text}
    (uncovered : name ≠ text "coverage") (other : name ≠ text "truncation") :
    JsonTree.field (toGuestCapabilityResult (.object fields) truncation coverage) name = JsonTree.field fields name := by
  rw [toGuestCapabilityResult, field_set_other (Ne.symm other)]
  cases coverage with
  | none => rfl
  | some coverage => exact field_set_other (Ne.symm uncovered)

theorem guest_cut (bounded : JsonTree) (truncation : Option TruncationInfo) (coverage : Option JsonTree) :
    contentWasCut (toGuestCapabilityResult bounded truncation coverage) = truncation.any TruncationInfo.fileContentTruncated := by
  unfold toGuestCapabilityResult
  simp only [contentWasCut, field_set_same]
  cases truncation with
  | none => rfl
  | some info =>
      have omitted : text "omittedCount" ≠ text "fileContentTruncated" ∧ text "omittedBytes" ≠ text "fileContentTruncated" := by decide
      simp only [Option.elim_some, TruncationInfo.tree, Option.any_some]
      have counted : JsonTree.field (info.omittedCount.toList.map fun count => (text "omittedCount", naturalTree count))
          (text "fileContentTruncated") = none := by
        apply field_none
        intro entry listed
        obtain ⟨count, _, rfl⟩ := List.mem_map.mp listed
        exact omitted.1
      have sized : JsonTree.field (info.omittedBytes.toList.map fun bytes => (text "omittedBytes", naturalTree bytes))
          (text "fileContentTruncated") = none := by
        apply field_none
        intro entry listed
        obtain ⟨bytes, _, rfl⟩ := List.mem_map.mp listed
        exact omitted.2
      have first : JsonTree.field [(text "truncated", .bool true), (text "reason", .string info.reason)] (text "fileContentTruncated") = none := by
        rw [field_cons, if_neg (by decide), field_cons, if_neg (by decide)]
        rfl
      rw [field_append, field_append, field_append, counted, sized, first]
      cases info.fileContentTruncated <;> rfl

theorem units_taken {room : Nat} {value : Text} (cut : takeBytes room value ≠ value) : unitLength (takeBytes room value) < unitLength value := by
  obtain ⟨rest, split⟩ := takeBytes_split room value
  have filled : rest ≠ [] := by
    rintro rfl
    rw [List.append_nil] at split
    exact cut split.symm
  have some_left := List.length_pos_of_ne_nil filled
  have units := length_units rest
  have total : unitLength (takeBytes room value ++ rest) = unitLength (takeBytes room value) + unitLength rest := by
    simp only [unitLength, List.map_append, List.sum_append]
  rw [← split] at total
  omega

-- A name that no step between the tool and the script gives a meaning of its own.
def isKeptName (name : Text) : Bool :=
  !isReservedName name && (name ≠ text "failureKind" && (name ≠ text "coverage" && name ≠ text "truncation"))

-- What a script is shown of a text.
def shownText (value : Text) : Text := takeBytes codeModeMarshal.maxStringBytes value

-- The row has the bounded fields, and says where its content was cut.
structure BoundedRow (fields row : List (Text × JsonTree)) : Prop where
  kept : ∀ name value, isKeptName name = true → JsonTree.field fields name = some value →
    ∃ before, JsonTree.field row name = some (boundInner codeModeMarshal 1 value before).1
  absent : ∀ name, isKeptName name = true → JsonTree.field fields name = none → JsonTree.field row name = none
  cut : ∀ content, JsonTree.field fields (text "content") = some (.string content) → shownText content ≠ content → contentWasCut row = true

theorem kept_name {name : Text} (kept : isKeptName name = true) :
    isReservedName name = false ∧ name ≠ text "failureKind" ∧ name ≠ text "coverage" ∧ name ≠ text "truncation" := by
  simpa [isKeptName] using kept

-- A host call gives the bounded fields of the output, or nothing of them.
theorem guest_row (tool : Text) (fields : List (Text × JsonTree)) :
    JsonTree.field (guestResult tool (.object fields)) (text "path") = none ∨ BoundedRow fields (guestResult tool (.object fields)) := by
  obtain ⟨raw, marked, same⟩ := marked_fields tool fields
  have inner : boundInner codeModeMarshal 0 (.object raw) none =
      (.object (boundFields codeModeMarshal 1 raw none).1, (boundFields codeModeMarshal 1 raw none).2) := by
    rw [boundInner, if_neg (by decide)]
  rw [guestResult, marked]
  simp only [boundJsonValue, inner]
  by_cases large : codeModeMarshal.maxTransferBytes < utf8ByteLength (.object (boundFields codeModeMarshal 1 raw none).1)
  · apply Or.inl
    rw [if_pos large]
    simp only [cutTree]
    rw [guest_field _ _ _ (by decide) (by decide)]
    rfl
  · apply Or.inr
    rw [if_neg large]
    constructor
    · intro name value kept there
      obtain ⟨plain, unmarked, uncovered, other⟩ := kept_name kept
      rw [guest_field _ _ _ uncovered other]
      rw [← same name unmarked] at there
      rcases @bound_field codeModeMarshal name plain 1 raw none with absent | ⟨found, before, listed, bounded, _⟩
      · rw [there] at absent
        cases absent.1
      · rw [there] at listed
        cases listed
        exact ⟨before, bounded⟩
    · intro name kept missing
      obtain ⟨plain, unmarked, uncovered, other⟩ := kept_name kept
      rw [guest_field _ _ _ uncovered other]
      rw [← same name unmarked] at missing
      rcases @bound_field codeModeMarshal name plain 1 raw none with absent | ⟨found, before, listed, _⟩
      · exact absent.2
      · rw [missing] at listed
        cases listed
    · intro content there cut
      rw [← same (text "content") (by decide)] at there
      rcases @bound_field codeModeMarshal (text "content") (by decide) 1 raw none with absent | ⟨found, before, listed, bounded, noted⟩
      · rw [there] at absent
        cases absent.1
      · rw [there] at listed
        cases listed
        obtain ⟨info, current⟩ := Option.isSome_iff_exists.mp (noted (bound_string_cut 1 before cut))
        rw [bound_string] at bounded
        have less : contentCut (.object raw) (.object (boundFields codeModeMarshal 1 raw none).1) = true := by
          simp only [contentCut, contentOf, there, bounded]
          exact decide_eq_true (units_taken cut)
        rw [guest_cut, current]
        exact less

end Guest
end PrAgent
