import PrAgent.CiSummaryCell
set_option autoImplicit false

namespace PrAgent

section Trees

-- A number is kept as its literal.
inductive JsonTree where
  | null
  | bool (value : Bool)
  | number (literal : Text)
  | string (value : Text)
  | array (items : List JsonTree)
  | object (fields : List (Text × JsonTree))

def jsonHexDigit (n : Nat) : Char := Nat.digitChar (n % 16)

def quoteLetter (c : Char) : Option Char :=
  if c = '"' ∨ c = '\\' then some c
  else if c.toNat = 8 then some 'b'
  else if c.toNat = 9 then some 't'
  else if c.toNat = 10 then some 'n'
  else if c.toNat = 12 then some 'f'
  else if c.toNat = 13 then some 'r'
  else none

def quoteChar (c : Char) : Text :=
  match quoteLetter c with
  | some letter => ['\\', letter]
  | none => if c.toNat < 32 then ['\\', 'u', '0', '0', jsonHexDigit (c.toNat / 16), jsonHexDigit c.toNat] else [c]

-- `JSON.stringify` of a string.
def quoteText (value : Text) : Text := '"' :: (value.flatMap quoteChar ++ ['"'])

mutual

-- `JSON.stringify`.
def JsonTree.stringify : JsonTree → Text
  | .null => text "null"
  | .bool value => if value then text "true" else text "false"
  | .number literal => literal
  | .string value => quoteText value
  | .array items => '[' :: (JsonTree.joinItems items ++ [']'])
  | .object fields => '\x7b' :: (JsonTree.joinFields fields ++ ['\x7d'])

def JsonTree.joinItems : List JsonTree → Text
  | [] => []
  | [item] => item.stringify
  | item :: next :: rest => item.stringify ++ ',' :: JsonTree.joinItems (next :: rest)

def JsonTree.joinFields : List (Text × JsonTree) → Text
  | [] => []
  | [(name, value)] => quoteText name ++ ':' :: value.stringify
  | (name, value) :: next :: rest => quoteText name ++ ':' :: (value.stringify ++ ',' :: JsonTree.joinFields (next :: rest))

end

def JsonTree.field (fields : List (Text × JsonTree)) (name : Text) : Option JsonTree :=
  (fields.find? fun entry => entry.1 = name).map Prod.snd

end Trees

section Parse

def isJsonBlank (c : Char) : Bool := c = ' ' || c = '\t' || c = '\n' || c = '\r'

def skipBlank (s : Text) : Text := s.dropWhile isJsonBlank

def hexCode? (c : Char) : Option Nat :=
  if c.isDigit then some (c.toNat - 48)
  else if 'a' ≤ c ∧ c ≤ 'f' then some (c.toNat - 87)
  else if 'A' ≤ c ∧ c ≤ 'F' then some (c.toNat - 55)
  else none

def readHex4 : Text → Option (Nat × Text)
  | a :: b :: c :: d :: rest => do
    let a ← hexCode? a
    let b ← hexCode? b
    let c ← hexCode? c
    let d ← hexCode? d
    some (a * 4096 + b * 256 + c * 16 + d, rest)
  | _ => none

-- The second half of a surrogate pair.
def readLowSurrogate : Text → Option (Nat × Text)
  | '\\' :: 'u' :: rest => (readHex4 rest).filter fun found => 0xDC00 ≤ found.1 && found.1 ≤ 0xDFFF
  | _ => none

-- A text has no lone surrogates: U+FFFD stands for one.
def readEscapedCode (s : Text) : Option (Char × Text) :=
  (readHex4 s).map fun (code, rest) =>
    if 0xD800 ≤ code && code ≤ 0xDBFF then
      match readLowSurrogate rest with
      | some (low, rest) => (Char.ofNat (0x10000 + (code - 0xD800) * 0x400 + (low - 0xDC00)), rest)
      | none => (Char.ofNat 0xFFFD, rest)
    else if 0xDC00 ≤ code && code ≤ 0xDFFF then (Char.ofNat 0xFFFD, rest)
    else (Char.ofNat code, rest)

def escapedLetter (c : Char) : Option Char :=
  if c = '"' ∨ c = '\\' ∨ c = '/' then some c
  else if c = 'b' then some (Char.ofNat 8)
  else if c = 't' then some '\t'
  else if c = 'n' then some '\n'
  else if c = 'f' then some (Char.ofNat 12)
  else if c = 'r' then some '\r'
  else none

def readStringChar : Text → Option (Char × Text)
  | [] => none
  | c :: rest =>
    if c = '\\' then
      match rest with
      | [] => none
      | e :: rest => if e = 'u' then readEscapedCode rest else (escapedLetter e).map fun letter => (letter, rest)
    else if c.toNat < 32 then none
    else some (c, rest)

-- The text up to the closing quote.
def readString : Nat → Text → Option (Text × Text)
  | 0, _ => none
  | fuel + 1, s =>
    if s.head? = some '"' then some ([], s.drop 1)
    else (readStringChar s).bind fun found => (readString fuel found.2).map fun read => (found.1 :: read.1, read.2)

def readDigits (s : Text) : Text × Text := (s.takeWhile Char.isDigit, s.dropWhile Char.isDigit)

def readFraction : Text → Option (Text × Text)
  | '.' :: rest => if (readDigits rest).1 = [] then none else some ('.' :: (readDigits rest).1, (readDigits rest).2)
  | s => some ([], s)

def readExponent : Text → Option (Text × Text)
  | [] => some ([], [])
  | c :: rest =>
    if c = 'e' ∨ c = 'E' then
      let sign := (rest.take 1).filter fun c => c = '+' || c = '-'
      let digits := readDigits (rest.drop sign.length)
      if digits.1 = [] then none else some (c :: (sign ++ digits.1), digits.2)
    else some ([], c :: rest)

def readNumber (s : Text) : Option (Text × Text) :=
  let sign := (s.take 1).filter fun c => c = '-'
  let whole := readDigits (s.drop sign.length)
  if whole.1 = [] ∨ whole.1.head? = some '0' ∧ whole.1 ≠ ['0'] then none
  else do
    let fraction ← readFraction whole.2
    let exponent ← readExponent fraction.2
    some (sign ++ (whole.1 ++ (fraction.1 ++ exponent.1)), exponent.2)

def readLiteral (s : Text) : Option (JsonTree × Text) :=
  if text "null" <+: s then some (.null, s.drop 4)
  else if text "true" <+: s then some (.bool true, s.drop 4)
  else if text "false" <+: s then some (.bool false, s.drop 5)
  else (readNumber s).map fun found => (.number found.1, found.2)

-- A later field of a name takes the place of the earlier one.
def setField (fields : List (Text × JsonTree)) (name : Text) (value : JsonTree) : List (Text × JsonTree) :=
  if fields.any fun entry => entry.1 = name then fields.map fun entry => if entry.1 = name then (name, value) else entry
  else fields ++ [(name, value)]

mutual

def parseValue : Nat → Text → Option (JsonTree × Text)
  | 0, _ => none
  | fuel + 1, s =>
    match skipBlank s with
    | [] => none
    | c :: rest =>
      if c = '"' then (readString (rest.length + 1) rest).map fun found => (.string found.1, found.2)
      else if c = '\x7b' then
        if (skipBlank rest).head? = some '\x7d' then some (.object [], (skipBlank rest).drop 1) else parseFields fuel [] rest
      else if c = '[' then
        if (skipBlank rest).head? = some ']' then some (.array [], (skipBlank rest).drop 1) else parseItems fuel [] rest
      else readLiteral (c :: rest)

def parseItems : Nat → List JsonTree → Text → Option (JsonTree × Text)
  | 0, _, _ => none
  | fuel + 1, items, s =>
    (parseValue fuel s).bind fun found =>
      match skipBlank found.2 with
      | [] => none
      | c :: rest =>
        if c = ',' then parseItems fuel (items ++ [found.1]) rest
        else if c = ']' then some (.array (items ++ [found.1]), rest)
        else none

def parseFields : Nat → List (Text × JsonTree) → Text → Option (JsonTree × Text)
  | 0, _, _ => none
  | fuel + 1, fields, s =>
    match skipBlank s with
    | [] => none
    | quote :: rest =>
      if quote = '"' then
        (readString (rest.length + 1) rest).bind fun name =>
          match skipBlank name.2 with
          | [] => none
          | colon :: rest =>
            if colon = ':' then
              (parseValue fuel rest).bind fun found =>
                match skipBlank found.2 with
                | [] => none
                | c :: rest =>
                  if c = ',' then parseFields fuel (setField fields name.1 found.1) rest
                  else if c = '\x7d' then some (.object (setField fields name.1 found.1), rest)
                  else none
            else none
      else none

end

-- `JSON.parse`; `none` where it throws.
def parseJson (s : Text) : Option JsonTree :=
  (parseValue (s.length + 1) s).bind fun found => if skipBlank found.2 = [] then some found.1 else none

end Parse

section RoundTrip

theorem hexCode_digit (n : Nat) : hexCode? (jsonHexDigit n) = some (n % 16) := by
  have all : ∀ m < 16, hexCode? (jsonHexDigit m) = some m := by decide
  have same : jsonHexDigit n = jsonHexDigit (n % 16) := by simp [jsonHexDigit]
  rw [same, all (n % 16) (Nat.mod_lt n (by decide))]

theorem escapedLetter_quoteLetter {c letter : Char} (quoted : quoteLetter c = some letter) :
    escapedLetter letter = some c ∧ letter ≠ 'u' := by
  have sized {n : Nat} (same : c.toNat = n) : c = Char.ofNat n := by rw [← same, Char.ofNat_toNat]
  rw [quoteLetter] at quoted
  by_cases own : c = '"' ∨ c = '\\'
  · rw [if_pos own] at quoted
    cases quoted
    rcases own with rfl | rfl <;> decide
  rw [if_neg own] at quoted
  by_cases b : c.toNat = 8
  · rw [if_pos b] at quoted
    cases quoted
    rw [sized b]
    decide
  rw [if_neg b] at quoted
  by_cases t : c.toNat = 9
  · rw [if_pos t] at quoted
    cases quoted
    rw [sized t]
    decide
  rw [if_neg t] at quoted
  by_cases n : c.toNat = 10
  · rw [if_pos n] at quoted
    cases quoted
    rw [sized n]
    decide
  rw [if_neg n] at quoted
  by_cases f : c.toNat = 12
  · rw [if_pos f] at quoted
    cases quoted
    rw [sized f]
    decide
  rw [if_neg f] at quoted
  obtain ⟨r, quoted⟩ := Option.ite_none_right_eq_some.mp quoted
  cases quoted
  rw [sized r]
  decide

theorem quoteLetter_none {c : Char} (plain : quoteLetter c = none) : c ≠ '"' ∧ c ≠ '\\' := by
  constructor
  · intro same
    rw [same] at plain
    exact absurd plain (by decide)
  · intro same
    rw [same] at plain
    exact absurd plain (by decide)

theorem readStringChar_quoteChar (c : Char) (rest : Text) : readStringChar (quoteChar c ++ rest) = some (c, rest) := by
  rw [quoteChar]
  cases quoted : quoteLetter c with
  | some letter =>
      obtain ⟨back, other⟩ := escapedLetter_quoteLetter quoted
      simp [readStringChar, back, other]
  | none =>
      obtain ⟨_, slash⟩ := quoteLetter_none quoted
      by_cases control : c.toNat < 32
      · have zero : hexCode? '0' = some 0 := by decide
        have value : c.toNat / 16 % 16 * 16 + c.toNat % 16 = c.toNat := by omega
        have high : ¬0xD800 ≤ c.toNat := by omega
        have low : ¬0xDC00 ≤ c.toNat := by omega
        simp [control, readStringChar, readEscapedCode, readHex4, zero, hexCode_digit, value, high, low]
      · simp [control, readStringChar, slash]

theorem quoteChar_head (c : Char) (rest : Text) : (quoteChar c ++ rest).head? ≠ some '"' := by
  rw [quoteChar]
  cases quoted : quoteLetter c with
  | some letter => simp
  | none =>
      obtain ⟨quote, _⟩ := quoteLetter_none quoted
      by_cases control : c.toNat < 32
      · simp [control]
      · simp [control, quote]

theorem readString_quoted (value rest : Text) (fuel : Nat) (enough : value.length < fuel) :
    readString fuel (value.flatMap quoteChar ++ '"' :: rest) = some (value, rest) := by
  induction value generalizing fuel with
  | nil =>
      obtain ⟨fuel, rfl⟩ : ∃ n, fuel = n + 1 := ⟨fuel - 1, by simp at enough; omega⟩
      simp [readString]
  | cons c value ih =>
      obtain ⟨fuel, rfl⟩ : ∃ n, fuel = n + 1 := ⟨fuel - 1, by simp at enough; omega⟩
      have later := ih fuel (by simp at enough; omega)
      rw [List.flatMap_cons, List.append_assoc, readString, if_neg (quoteChar_head c _), readStringChar_quoteChar, Option.bind_some, later]
      rfl

theorem quoted_length (value : Text) : value.length ≤ (value.flatMap quoteChar).length := by
  induction value with
  | nil => exact Nat.le_refl 0
  | cons c value ih =>
      have one : 1 ≤ (quoteChar c).length := by
        rw [quoteChar]
        cases quoteLetter c with
        | some letter => simp
        | none => by_cases control : c.toNat < 32 <;> simp [control]
      rw [List.flatMap_cons, List.length_append, List.length_cons]
      omega

theorem readDigits_decimal (n : Nat) {rest : Text} (stops : ∀ c, rest.head? = some c → c.isDigit = false) :
    readDigits (Nat.toDigits 10 n ++ rest) = (Nat.toDigits 10 n, rest) := by
  have all : ∀ c ∈ Nat.toDigits 10 n, c.isDigit = true := fun c listed => toDigits_isDigit listed
  have none_after : rest.takeWhile Char.isDigit = [] ∧ rest.dropWhile Char.isDigit = rest := by
    cases rest with
    | nil => exact ⟨rfl, rfl⟩
    | cons c rest => simp [stops c rfl]
  rw [readDigits, List.takeWhile_append_of_pos all, List.dropWhile_append_of_pos all, none_after.1, none_after.2, List.append_nil]

-- The decimal of a natural number is read whole before a character that goes on no number.
theorem readNumber_decimal (n : Nat) {c : Char} (rest : Text) (digit : c.isDigit = false) (point : c ≠ '.') (small : c ≠ 'e') (large : c ≠ 'E') :
    readNumber (Nat.toDigits 10 n ++ c :: rest) = some (Nat.toDigits 10 n, c :: rest) := by
  have digits : readDigits (Nat.toDigits 10 n ++ c :: rest) = (Nat.toDigits 10 n, c :: rest) := by
    apply readDigits_decimal
    intro d head
    cases head
    exact digit
  obtain ⟨first, more, shape⟩ := List.exists_cons_of_ne_nil (Nat.toDigits_ne_nil (n := n) (b := 10))
  have leads : first.isDigit = true := toDigits_isDigit (n := n) (by rw [shape]; exact List.mem_cons_self)
  have minus : first ≠ '-' := by
    intro same
    rw [same] at leads
    exact absurd leads (by decide)
  have unsigned : ((Nat.toDigits 10 n ++ c :: rest).take 1).filter (fun c => c = '-') = [] := by
    rw [shape]
    simp [minus]
  have no_zero : ¬((Nat.toDigits 10 n) = [] ∨ (Nat.toDigits 10 n).head? = some '0' ∧ (Nat.toDigits 10 n) ≠ ['0']) := by
    intro bad
    rcases bad with empty | ⟨zero, other⟩
    · exact Nat.toDigits_ne_nil empty
    · by_cases positive : 0 < n
      · exact digits_not_zero positive zero
      · have none_left : n = 0 := by omega
        subst none_left
        exact other rfl
  have fraction : readFraction (c :: rest) = some ([], c :: rest) := by
    rw [readFraction]
    intro rest' same
    exact point (List.cons.inj same).1
  have exponent : readExponent (c :: rest) = some ([], c :: rest) := by
    rw [readExponent, if_neg]
    intro either
    exact either.elim small large
  rw [readNumber]
  simp only [unsigned, List.length_nil, List.drop_zero, digits, if_neg no_zero, fraction]
  simp [exponent]

theorem parseValue_string (fuel : Nat) (value rest : Text) :
    parseValue (fuel + 1) (quoteText value ++ rest) = some (.string value, rest) := by
  have shape : quoteText value ++ rest = '"' :: (value.flatMap quoteChar ++ '"' :: rest) := by simp [quoteText]
  have start : skipBlank ('"' :: (value.flatMap quoteChar ++ '"' :: rest)) = '"' :: (value.flatMap quoteChar ++ '"' :: rest) :=
    List.dropWhile_cons_of_neg (by decide)
  have enough := quoted_length value
  rw [shape, parseValue, start]
  simp only [if_true]
  rw [readString_quoted value rest _ (by rw [List.length_append]; omega)]
  rfl

theorem parseValue_decimal (fuel n : Nat) {c : Char} (rest : Text) (ends : c = ',' ∨ c = '\x7d') :
    parseValue (fuel + 1) (Nat.toDigits 10 n ++ c :: rest) = some (.number (Nat.toDigits 10 n), c :: rest) := by
  obtain ⟨first, more, shape⟩ := List.exists_cons_of_ne_nil (Nat.toDigits_ne_nil (n := n) (b := 10))
  have leads : first.isDigit = true := toDigits_isDigit (n := n) (by rw [shape]; exact List.mem_cons_self)
  have other {d : Char} (letter : d.isDigit = false) : first ≠ d := by
    intro same
    rw [same, letter] at leads
    cases leads
  have start : skipBlank (first :: (more ++ c :: rest)) = first :: (more ++ c :: rest) := by
    apply List.dropWhile_cons_of_neg
    simp [isJsonBlank, other (d := ' ') (by decide), other (d := '\t') (by decide), other (d := '\n') (by decide), other (d := '\r') (by decide)]
  have number : readNumber (first :: (more ++ c :: rest)) = some (first :: more, c :: rest) := by
    have read := readNumber_decimal n (c := c) rest (by rcases ends with rfl | rfl <;> decide) (by rcases ends with rfl | rfl <;> decide)
      (by rcases ends with rfl | rfl <;> decide) (by rcases ends with rfl | rfl <;> decide)
    rw [shape] at read
    exact read
  have word (literal tail : Text) (d : Char) (spelled : literal = d :: tail) (letter : d.isDigit = false) :
      ¬literal <+: first :: (more ++ c :: rest) := by
    intro ⟨after, split⟩
    rw [spelled] at split
    exact other letter (List.cons.inj split).1.symm
  rw [shape, List.cons_append, parseValue, start]
  simp only
  rw [if_neg (other (by decide)), if_neg (other (by decide)), if_neg (other (by decide)), readLiteral,
    if_neg (word (text "null") (text "ull") 'n' (by decide) (by decide)),
    if_neg (word (text "true") (text "rue") 't' (by decide) (by decide)),
    if_neg (word (text "false") (text "alse") 'f' (by decide) (by decide)), number]
  rfl

-- One field of an object, with what stands after it.
theorem parseFields_field {fuel : Nat} (fields : List (Text × JsonTree)) (name : Text) {rest more : Text} {value : JsonTree} {c : Char}
    (parsed : parseValue fuel rest = some (value, c :: more)) (ends : c = ',' ∨ c = '\x7d') :
    parseFields (fuel + 1) fields (quoteText name ++ ':' :: rest) =
      if c = ',' then parseFields fuel (setField fields name value) more else some (.object (setField fields name value), more) := by
  have shape : quoteText name ++ ':' :: rest = '"' :: (name.flatMap quoteChar ++ '"' :: ':' :: rest) := by simp [quoteText]
  have start : skipBlank ('"' :: (name.flatMap quoteChar ++ '"' :: ':' :: rest)) = '"' :: (name.flatMap quoteChar ++ '"' :: ':' :: rest) :=
    List.dropWhile_cons_of_neg (by decide)
  have colon : skipBlank (':' :: rest) = ':' :: rest := List.dropWhile_cons_of_neg (by decide)
  have after : skipBlank (c :: more) = c :: more := by
    apply List.dropWhile_cons_of_neg
    rcases ends with rfl | rfl <;> decide
  have enough := quoted_length name
  rw [shape, parseFields, start]
  simp only [if_true]
  rw [readString_quoted name (':' :: rest) _ (by rw [List.length_append]; omega)]
  simp only [Option.bind_some, colon, if_true, parsed, after]
  rcases ends with rfl | rfl
  · simp
  · simp

end RoundTrip
end PrAgent
