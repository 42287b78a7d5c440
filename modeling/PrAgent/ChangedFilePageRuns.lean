import PrAgent.Base64Url
import PrAgent.Marshal
set_option autoImplicit false

namespace PrAgent

section Pages

structure ChangedFileRecord where
  path : Text
  oldPath : Option Text
  status : Text
  presentInCheckout : Bool
  deriving DecidableEq

structure ChangedFilePage where
  files : List ChangedFileRecord
  total : Nat
  truncated : Bool
  headSha : Text
  continuation : Option Text
  warning : Option Text
  deriving DecidableEq

inductive ChangedFilePageFailure where
  | malformed
  | headMismatch
  | offset
  | undeliverable
  deriving DecidableEq

structure PageToken where
  head : Text
  offset : Nat
  deriving DecidableEq

-- The changed files of a head, with the budget of a response; `toLowerCase` is that of strings.
structure ChangedFileList where
  files : List ChangedFileRecord
  headSha : Text
  truncated : Bool
  warning : Option Text
  toLowerCase : Text → Text
  options : MarshalOptions

def tokenTree (head : Text) (offset : Nat) : JsonTree :=
  .object [(text "v", .number (text "1")), (text "head", .string head), (text "offset", .number (Nat.toDigits 10 offset))]

-- `head` is in lower case.
def encodeContinuation (head : Text) (offset : Nat) : Text :=
  text "cf1." ++ toBase64Url (writeUtf8 (tokenTree head offset).stringify)

-- A whole number that is not negative, read exactly.
def naturalLiteral (literal : Text) : Option Nat :=
  ((numericLiteral literal).filter fun value => value.den = 1 ∧ 0 ≤ value).map fun value => value.num.toNat

def decodeToken (fields : List (Text × JsonTree)) : Option PageToken :=
  if fields.length = 3 ∧ fields.all fun entry => entry.1 = text "v" || entry.1 = text "head" || entry.1 = text "offset" then
    match JsonTree.field fields (text "v"), JsonTree.field fields (text "head"), JsonTree.field fields (text "offset") with
    | some (.number version), some (.string head), some (.number offset) =>
      if numericLiteral version = some 1 ∧ head ≠ [] then (naturalLiteral offset).map fun offset => ⟨head, offset⟩ else none
    | _, _, _ => none
  else none

def decodeContinuation (token : Text) : Option PageToken :=
  if text "cf1." <+: token then
    match parseJson (readUtf8 (fromBase64Url (token.drop 4))) with
    | some (.object fields) => decodeToken fields
    | _ => none
  else none

def ChangedFileRecord.tree (file : ChangedFileRecord) : JsonTree :=
  .object ([(text "path", .string file.path), (text "status", .string file.status), (text "presentInCheckout", .bool file.presentInCheckout)] ++
    file.oldPath.toList.map fun oldPath => (text "oldPath", .string oldPath))

def ChangedFilePage.tree (page : ChangedFilePage) : JsonTree :=
  .object ([(text "files", .array (page.files.map ChangedFileRecord.tree)), (text "total", .number (Nat.toDigits 10 page.total)),
    (text "truncated", .bool page.truncated), (text "headSha", .string page.headSha),
    (text "continuation", page.continuation.elim .null .string)] ++ page.warning.toList.map fun warning => (text "warning", .string warning))

def isText (tree : Option JsonTree) (value : Text) : Bool :=
  match tree with
  | some (.string content) => content = value
  | _ => false

def isFlag (tree : Option JsonTree) (value : Bool) : Bool :=
  match tree with
  | some (.bool flag) => flag = value
  | _ => false

def sameEntry (left : ChangedFileRecord) : JsonTree → Bool
  | .object fields =>
    isText (JsonTree.field fields (text "path")) left.path && isText (JsonTree.field fields (text "status")) left.status &&
      isFlag (JsonTree.field fields (text "presentInCheckout")) left.presentInCheckout &&
      match left.oldPath with
      | none => (JsonTree.field fields (text "oldPath")).isNone
      | some oldPath => isText (JsonTree.field fields (text "oldPath")) oldPath
  | _ => false

def pageFits (options : MarshalOptions) (page : ChangedFilePage) : Bool :=
  let bounded := boundJsonValue options page.tree
  bounded.truncation.isNone &&
    match bounded.value with
    | .object fields =>
      match JsonTree.field fields (text "files") with
      | some (.array files) =>
        files.length = page.files.length && (page.files.zip files).all fun entry => sameEntry entry.1 entry.2
      | _ => false
    | _ => false

variable (input : ChangedFileList)

def payloadFor (start count : Nat) : ChangedFilePage :=
  let next := if start + count < input.files.length then some (encodeContinuation (input.toLowerCase input.headSha) (start + count)) else none
  ⟨(input.files.drop start).take count, input.files.length, input.truncated, input.headSha, next, input.warning⟩

-- The search between `low` and `high` for the largest count that fits; the first argument bounds its rounds.
def searchPage (fits : Nat → Bool) : Nat → Nat → Nat → Option Nat → Option Nat
  | 0, _, _, fitted => fitted
  | rounds + 1, low, high, fitted =>
    if low ≤ high then
      let mid := (low + high) / 2
      if fits mid then searchPage fits rounds (mid + 1) high (some mid) else searchPage fits rounds low (mid - 1) fitted
    else fitted

def codeModeSerializeMaxArrayLength : Nat := 100

def pageFrom (start : Nat) : Except ChangedFilePageFailure ChangedFilePage :=
  if start = input.files.length then .ok (payloadFor input start 0)
  else
    let limit := min codeModeSerializeMaxArrayLength (input.files.length - start)
    match searchPage (fun count => pageFits input.options (payloadFor input start count)) (limit + 1) 1 limit none with
    | none => .error .undeliverable
    | some count => .ok (payloadFor input start count)

def pageChangedFiles (continuation : Option Text) : Except ChangedFilePageFailure ChangedFilePage :=
  match continuation with
  | none => pageFrom input 0
  | some token =>
    match decodeContinuation token with
    | none => .error .malformed
    | some decoded =>
      if decoded.head ≠ input.toLowerCase input.headSha then .error .headMismatch
      else if input.files.length < decoded.offset ∨ decoded.offset = input.files.length ∧ 0 < decoded.offset then .error .offset
      else pageFrom input decoded.offset

-- The pages that the continuations lead through, and the failure at the end; `none` where the fuel does not reach it.
def followPages : Nat → Option Text → Option (List ChangedFilePage × Option ChangedFilePageFailure)
  | 0, _ => none
  | fuel + 1, continuation =>
    match pageChangedFiles input continuation with
    | .error reason => some ([], some reason)
    | .ok page =>
      match page.continuation with
      | none => some ([page], none)
      | some next => (followPages fuel (some next)).map fun later => (page :: later.1, later.2)

end Pages

section Tokens

theorem naturalLiteral_decimal (n : Nat) : naturalLiteral (Nat.toDigits 10 n) = some n := by
  rw [naturalLiteral, numericLiteral_toDigits]
  simp

theorem parse_token (head : Text) (offset : Nat) : parseJson (tokenTree head offset).stringify = some (tokenTree head offset) := by
  have shape : (tokenTree head offset).stringify =
      '\x7b' :: (quoteText (text "v") ++ ':' :: (Nat.toDigits 10 1 ++ ',' :: (quoteText (text "head") ++ ':' :: (quoteText head ++
        ',' :: (quoteText (text "offset") ++ ':' :: (Nat.toDigits 10 offset ++ ['\x7d'])))))) := by
    have one : Nat.toDigits 10 1 = text "1" := by decide
    rw [one]
    simp [tokenTree, JsonTree.stringify, JsonTree.joinFields, text]
  have last (fuel : Nat) : parseFields (fuel + 2) [(text "v", .number (text "1")), (text "head", .string head)]
      (quoteText (text "offset") ++ ':' :: (Nat.toDigits 10 offset ++ ['\x7d'])) = some (tokenTree head offset, []) := by
    rw [parseFields_field _ _ (parseValue_decimal fuel offset [] (.inr rfl)) (.inr rfl)]
    rfl
  have middle (fuel : Nat) : parseFields (fuel + 3) [(text "v", .number (text "1"))]
      (quoteText (text "head") ++ ':' :: (quoteText head ++ ',' :: (quoteText (text "offset") ++ ':' :: (Nat.toDigits 10 offset ++ ['\x7d'])))) =
        some (tokenTree head offset, []) := by
    rw [parseFields_field _ _ (parseValue_string (fuel + 1) head _) (.inl rfl), if_pos rfl]
    exact last fuel
  have long : 4 ≤ (tokenTree head offset).stringify.length := by
    rw [shape]
    simp [quoteText]
    omega
  obtain ⟨fuel, length⟩ : ∃ fuel, (tokenTree head offset).stringify.length = fuel + 4 := ⟨_, (Nat.sub_add_cancel long).symm⟩
  have opens (rest : Text) : skipBlank ('\x7b' :: rest) = '\x7b' :: rest := List.dropWhile_cons_of_neg (by decide)
  have filled (rest : Text) : (skipBlank (quoteText (text "v") ++ rest)).head? ≠ some '\x7d' := by
    rw [quoteText, List.cons_append, skipBlank, List.dropWhile_cons_of_neg (by decide)]
    simp
  rw [parseJson, length, shape, parseValue, opens]
  simp only
  rw [if_neg (by decide), if_pos trivial, if_neg (filled _), parseFields_field _ _ (parseValue_decimal (fuel + 2) 1 _ (.inl rfl)) (.inl rfl),
    if_pos rfl]
  have one : setField [] (text "v") (.number (Nat.toDigits 10 1)) = [(text "v", .number (text "1"))] := rfl
  rw [one, middle fuel]
  rfl

theorem decodeToken_fields {fields : List (Text × JsonTree)} {head : Text} {offset : Nat} (three : fields.length = 3)
    (names : (fields.all fun entry => entry.1 = text "v" || entry.1 = text "head" || entry.1 = text "offset") = true)
    (v : JsonTree.field fields (text "v") = some (.number (text "1"))) (h : JsonTree.field fields (text "head") = some (.string head))
    (o : JsonTree.field fields (text "offset") = some (.number (Nat.toDigits 10 offset))) :
    decodeToken fields = if head = [] then none else some ⟨head, offset⟩ := by
  have version : numericLiteral (text "1") = some 1 := numericLiteral_toDigits 1
  rw [decodeToken, if_pos ⟨three, names⟩, v, h, o]
  simp only [version, naturalLiteral_decimal]
  by_cases empty : head = []
  · rw [if_pos empty, if_neg (fun both => both.2 empty)]
  · rw [if_neg empty, if_pos ⟨trivial, empty⟩]
    rfl

-- A token is read back, unless its head is empty.
theorem decode_token (head : Text) (offset : Nat) :
    decodeContinuation (encodeContinuation head offset) = if head = [] then none else some ⟨head, offset⟩ := by
  have starts : text "cf1." <+: encodeContinuation head offset := List.prefix_append _ _
  have body : (encodeContinuation head offset).drop 4 = toBase64Url (writeUtf8 (tokenTree head offset).stringify) :=
    List.drop_left' rfl
  rw [decodeContinuation, if_pos starts, body, from_toBase64Url, read_writeUtf8, parse_token]
  exact decodeToken_fields rfl rfl rfl rfl rfl

end Tokens
section Fit

variable {options : MarshalOptions}

theorem file_ordinary (file : ChangedFileRecord) : file.tree.ordinary = true := by
  cases hasOld : file.oldPath with
  | none =>
      rw [ChangedFileRecord.tree, hasOld]
      rfl
  | some oldPath =>
      rw [ChangedFileRecord.tree, hasOld]
      rfl

theorem files_ordinary (files : List ChangedFileRecord) : JsonTree.ordinaryItems (files.map ChangedFileRecord.tree) = true := by
  induction files with
  | nil => rfl
  | cons file rest ih => rw [List.map_cons, JsonTree.ordinaryItems, file_ordinary, ih, Bool.and_self]

theorem page_ordinary (page : ChangedFilePage) : page.tree.ordinary = true := by
  have names : isReservedName (text "files") = false ∧ isReservedName (text "total") = false ∧ isReservedName (text "truncated") = false ∧
      isReservedName (text "headSha") = false ∧ isReservedName (text "continuation") = false ∧ isReservedName (text "warning") = false := by
    decide
  cases warned : page.warning <;> cases next : page.continuation <;>
    simp [ChangedFilePage.tree, warned, next, JsonTree.ordinary, JsonTree.ordinaryFields, files_ordinary, names]

theorem sameEntry_own (file : ChangedFileRecord) : sameEntry file file.tree = true := by
  cases hasOld : file.oldPath with
  | none => simp [sameEntry, ChangedFileRecord.tree, hasOld, JsonTree.field, isText, isFlag, text]
  | some oldPath => simp [sameEntry, ChangedFileRecord.tree, hasOld, JsonTree.field, isText, isFlag, text]

theorem sameEntry_all (files : List ChangedFileRecord) :
    ((files.zip (files.map ChangedFileRecord.tree)).all fun entry => sameEntry entry.1 entry.2) = true := by
  induction files with
  | nil => rfl
  | cons file rest ih => rw [List.map_cons, List.zip_cons_cons, List.all_cons, sameEntry_own, ih, Bool.and_self]

theorem uncut_value {page : ChangedFilePage} (uncut : (boundJsonValue options page.tree).truncation = none) :
    (boundJsonValue options page.tree).value = page.tree ∧ textBytes page.tree.stringify ≤ options.maxTransferBytes := by
  rw [boundJsonValue] at uncut ⊢
  by_cases large : options.maxTransferBytes < utf8ByteLength (boundInner options 0 page.tree none).1
  · rw [if_pos large] at uncut
    cases uncut
  · rw [if_neg large] at uncut ⊢
    have same : (boundInner options 0 page.tree none).1 = page.tree :=
      (boundInner_whole 0 page.tree _ none (page_ordinary page) (Prod.ext rfl (Option.map_eq_none_iff.mp uncut))).2
    rw [same] at large ⊢
    exact ⟨rfl, Nat.le_of_not_lt large⟩

-- A page fits where nothing of it is cut.
theorem pageFits_iff (page : ChangedFilePage) : pageFits options page = true ↔ (boundJsonValue options page.tree).truncation = none := by
  constructor
  · intro fits
    rw [pageFits, Bool.and_eq_true] at fits
    exact Option.isNone_iff_eq_none.mp fits.1
  · intro uncut
    have value := (uncut_value uncut).1
    rw [pageFits]
    have files (rest : List (Text × JsonTree)) :
        JsonTree.field ((text "files", .array (page.files.map ChangedFileRecord.tree)) :: rest) (text "files") =
          some (.array (page.files.map ChangedFileRecord.tree)) := rfl
    simp only [uncut, value]
    rw [ChangedFilePage.tree, List.cons_append]
    simp only [files, List.length_map, sameEntry_all, decide_true, Bool.and_self, Option.isNone_none]

end Fit

section Search

variable {fits : Nat → Bool}

theorem searchPage_found {rounds low high n : Nat} {fitted : Option Nat} (positive : 1 ≤ low)
    (found : searchPage fits rounds low high fitted = some n) : fitted = some n ∨ fits n = true ∧ low ≤ n ∧ n ≤ high := by
  induction rounds generalizing low high fitted with
  | zero => exact .inl found
  | succ rounds ih =>
      rw [searchPage] at found
      by_cases open_ : low ≤ high
      · rw [if_pos open_] at found
        simp only at found
        by_cases fit : fits ((low + high) / 2) = true
        · rw [if_pos fit] at found
          rcases ih (by omega) found with same | ⟨later, above, below⟩
          · cases same
            exact .inr ⟨fit, by omega, by omega⟩
          · exact .inr ⟨later, by omega, by omega⟩
        · rw [if_neg fit] at found
          rcases ih positive found with same | ⟨later, above, below⟩
          · exact .inl same
          · exact .inr ⟨later, above, by omega⟩
      · rw [if_neg open_] at found
        exact .inl found

-- Nothing is found only where the least count does not fit.
theorem searchPage_none {rounds low high : Nat} {fitted : Option Nat} (positive : 1 ≤ low) (enough : high < low + rounds)
    (missed : searchPage fits rounds low high fitted = none) : fitted = none ∧ (low ≤ high → fits low = false) := by
  induction rounds generalizing low high fitted with
  | zero => exact ⟨missed, fun open_ => absurd open_ (by omega)⟩
  | succ rounds ih =>
      rw [searchPage] at missed
      by_cases open_ : low ≤ high
      · rw [if_pos open_] at missed
        simp only at missed
        by_cases fit : fits ((low + high) / 2) = true
        · rw [if_pos fit] at missed
          cases (ih (by omega) (by omega) missed).1
        · rw [if_neg fit] at missed
          obtain ⟨empty, least⟩ := ih positive (by omega) missed
          refine ⟨empty, fun _ => ?_⟩
          by_cases more : low ≤ (low + high) / 2 - 1
          · exact least more
          · have same : (low + high) / 2 = low := by omega
            rw [same] at fit
            simpa using fit
      · rw [if_neg open_] at missed
        exact ⟨missed, fun closed => absurd closed open_⟩

end Search
end PrAgent
