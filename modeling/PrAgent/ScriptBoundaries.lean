import PrAgent.ScriptScan
set_option autoImplicit false

namespace PrAgent.ReturnInjection

section Boundaries

-- The places behind the parts at which the loop starts a statement, in their order.
def boundariesFrom (reading : Reading) (index : Nat) : List ScriptPart → List Nat
  | [] => []
  | part :: rest =>
    (if part.splits reading (partsText rest) then [index + part.text.length + part.skips (partsText rest)] else []) ++
      boundariesFrom (part.read reading) (index + part.text.length) rest

def boundaries (parts : List ScriptPart) : List Nat := boundariesFrom .first 0 parts

-- The last statement that the loop sees starts at the place.
structure LastBoundary (parts : List ScriptPart) (place : Nat) : Prop where
  starts : place = 0 ∨ place ∈ boundaries parts
  last : ∀ other ∈ boundaries parts, other ≤ place

theorem partsText_cons (part : ScriptPart) (rest : List ScriptPart) : partsText (part :: rest) = part.text ++ partsText rest := rfl

theorem apart_cons {part : ScriptPart} {rest : List ScriptPart} (apart : Apart (part :: rest) = true) :
    part.meets (partsText rest).head? = true ∧ Apart rest = true := by
  rw [Apart, Bool.and_eq_true] at apart
  exact apart

theorem scan_boundaries {parts : List ScriptPart} {reading : Reading} {index start : Nat} (apart : Apart parts = true) :
    (scan 0 index (reading.state start) (partsText parts)).lastStmtStart = (boundariesFrom reading index parts).getLast?.getD start := by
  induction parts generalizing reading index start with
  | nil => rfl
  | cons part rest ih =>
      obtain ⟨meets, apart⟩ := apart_cons apart
      rw [partsText_cons, scan_part part meets, ih apart, boundariesFrom, splitBehind]
      by_cases splits : part.splits reading (partsText rest) = true
      · rw [if_pos splits, if_pos splits, List.singleton_append, List.getLast?_cons]
        rfl
      · rw [if_neg splits, if_neg splits, List.nil_append]

end Boundaries

section Order

variable {reading : Reading} {index place : Nat} {parts : List ScriptPart}

theorem identifier_solid {c : Char} (own : isIdentifierChar c = true) : isBlank c = false := by
  have space := identifier_apart own ' ' (by decide)
  have tab := identifier_apart own '\t' (by decide)
  rw [isBlank, decide_eq_false space, decide_eq_false tab]
  rfl

theorem sign_solid {c : Char} (own : isSign c = true) : isBlank c = false := by
  have marks := (sign_apart own).2.1
  cases blank : isBlank c with
  | false => rfl
  | true =>
      rw [isBlank, Bool.or_eq_true, decide_eq_true_iff, decide_eq_true_iff] at blank
      rcases blank with rfl | rfl
      · cases marks
      · cases marks

-- A part is a blank or starts with none.
theorem part_head (part : ScriptPart) : (∃ tab, part = .blank tab) ∨ ∃ c tail, part.text = c :: tail ∧ isBlank c = false := by
  cases part with
  | blank tab => exact .inl ⟨tab, rfl⟩
  | lineBreak kind =>
      right
      cases kind with
      | lf => exact ⟨'\n', [], rfl, rfl⟩
      | cr => exact ⟨'\r', [], rfl, rfl⟩
      | crlf => exact ⟨'\r', ['\n'], rfl, rfl⟩
  | word first letters own all => exact .inr ⟨first, letters, rfl, identifier_solid own⟩
  | sign c own => exact .inr ⟨c, [], rfl, sign_solid own⟩
  | twin minus => exact .inr ⟨twinChar minus, [twinChar minus], rfl, by cases minus <;> rfl⟩
  | quoted quote body closed => exact .inr ⟨quote.char, _, rfl, by cases quote <;> rfl⟩
  | openQuoted quote body inner => exact .inr ⟨quote.char, body, rfl, by cases quote <;> rfl⟩
  | opener bracket => exact .inr ⟨bracket.opens, [], rfl, by cases bracket <;> rfl⟩
  | closer bracket => exact .inr ⟨bracket.closes, [], rfl, by cases bracket <;> rfl⟩
  | _ => exact .inr ⟨_, _, rfl, rfl⟩

theorem blank_reads (tab : Bool) (rest : Text) :
    (((ScriptPart.blank tab).text ++ rest).takeWhile isBlank).length = (rest.takeWhile isBlank).length + 1 := by
  cases tab with
  | true => rfl
  | false => rfl

-- The loop starts no statement within the blanks that it skips.
theorem boundary_behind (inside : place ∈ boundariesFrom reading index parts) : index + ((partsText parts).takeWhile isBlank).length < place := by
  induction parts generalizing reading index with
  | nil => cases inside
  | cons part rest ih =>
      rw [partsText_cons]
      rcases part_head part with ⟨tab, rfl⟩ | ⟨c, tail, shape, solid⟩
      · have behind := ih inside
        have one : (ScriptPart.blank tab).text.length = 1 := rfl
        rw [blank_reads]
        omega
      · have none_skipped : (part.text ++ partsText rest).takeWhile isBlank = [] := by
          rw [shape, List.cons_append, List.takeWhile_cons_of_neg (by simp [solid])]
        have some_text : 0 < part.text.length := by
          rw [shape]
          exact Nat.succ_pos _
        rw [none_skipped]
        rcases List.mem_append.mp inside with here | behind
        · by_cases splits : part.splits reading (partsText rest) = true
          · rw [if_pos splits, List.mem_singleton] at here
            rw [here, List.length_nil]
            omega
          · rw [if_neg splits] at here
            cases here
        · have further := ih behind
          rw [List.length_nil]
          omega

theorem skips_bound (part : ScriptPart) (next : Text) : part.skips next ≤ (next.takeWhile isBlank).length := by
  cases part with
  | lineBreak kind => exact Nat.le_refl _
  | _ => exact Nat.zero_le _

theorem boundary_last (inside : place ∈ boundariesFrom reading index parts) (start : Nat) :
    place ≤ (boundariesFrom reading index parts).getLast?.getD start := by
  induction parts generalizing reading index start with
  | nil => cases inside
  | cons part rest ih =>
      rw [boundariesFrom] at inside ⊢
      by_cases splits : part.splits reading (partsText rest) = true
      · rw [if_pos splits, List.singleton_append] at inside ⊢
        rw [List.getLast?_cons, Option.getD_some]
        rcases List.mem_cons.mp inside with rfl | behind
        · cases found : (boundariesFrom (part.read reading) (index + part.text.length) rest).getLast? with
          | none => exact Nat.le_refl _
          | some q =>
              have order := boundary_behind (List.mem_of_getLast? found)
              have few := skips_bound part (partsText rest)
              rw [Option.getD_some]
              omega
        · exact ih behind _
      · rw [if_neg splits, List.nil_append] at inside ⊢
        exact ih inside start

theorem last_boundary (parts : List ScriptPart) : LastBoundary parts ((boundaries parts).getLast?.getD 0) where
  starts := by
    cases found : (boundaries parts).getLast? with
    | none => exact .inl rfl
    | some q => exact .inr (List.mem_of_getLast? found)
  last _ inside := boundary_last inside 0

theorem LastBoundary.unique {p q : Nat} (one : LastBoundary parts p) (two : LastBoundary parts q) : p = q := by
  have low : p ≤ q := by
    rcases one.starts with rfl | inside
    · exact Nat.zero_le q
    · exact two.last p inside
  have high : q ≤ p := by
    rcases two.starts with rfl | inside
    · exact Nat.zero_le p
    · exact one.last q inside
  omega

-- The loop finds the last boundary.
theorem last_statement_start (apart : Apart parts = true) (q : Nat) : LastBoundary parts q ↔ lastTopLevelStatementStart (partsText parts) = q := by
  have found : lastTopLevelStatementStart (partsText parts) = (boundaries parts).getLast?.getD 0 :=
    @scan_boundaries parts .first 0 0 apart
  rw [found]
  constructor
  · intro last
    exact (last_boundary parts).unique last
  · intro same
    rw [← same]
    exact last_boundary parts

end Order

section Totality

def Parted (code : Text) : Prop := ∃ parts, Apart parts = true ∧ partsText parts = code

theorem parts_behind {part : ScriptPart} {tail : Text} (meets : part.meets tail.head? = true) (behind : Parted tail) : Parted (part.text ++ tail) := by
  obtain ⟨parts, apart, rfl⟩ := behind
  exact ⟨part :: parts, by rw [Apart, meets, apart]; rfl, rfl⟩

-- A part that runs to the end.
theorem part_alone {part : ScriptPart} (meets : part.meets none = true) : Parted part.text :=
  ⟨[part], by rw [Apart, Apart, Bool.and_true]; exact meets, List.append_nil _⟩

theorem line_comment_ends (body : Text) : lineBody body = true ∨ ∃ comment rest, body = comment ++ '\n' :: rest ∧ lineBody comment = true := by
  induction body with
  | nil => exact .inl rfl
  | cons c body ih =>
      by_cases line : c = '\n'
      · subst line
        exact .inr ⟨[], body, rfl, rfl⟩
      · have own : decide (c ≠ '\n') = true := decide_eq_true line
        rcases ih with open_ | ⟨comment, rest, rfl, inner⟩
        · exact .inl (by rw [lineBody, List.all_cons, own]; exact open_)
        · exact .inr ⟨c :: comment, rest, rfl, by rw [lineBody, List.all_cons, own]; exact inner⟩

theorem block_comment_ends (body : Text) :
    blockBody body = true ∨ ∃ comment rest, body = comment ++ '*' :: '/' :: rest ∧ blockBody (comment ++ ['*']) = true := by
  induction body with
  | nil => exact .inl rfl
  | cons c body ih =>
      by_cases ends : (decide (c = '*') && decide (body.head? = some '/')) = true
      · rw [Bool.and_eq_true, decide_eq_true_iff, decide_eq_true_iff] at ends
        obtain ⟨rest, rfl⟩ := List.head?_eq_some_iff.mp ends.2
        rw [ends.1]
        exact .inr ⟨[], rest, rfl, rfl⟩
      · rw [Bool.not_eq_true] at ends
        rcases ih with open_ | ⟨comment, rest, rfl, inner⟩
        · exact .inl (by rw [blockBody, ends, open_]; rfl)
        · have head : (comment ++ '*' :: '/' :: rest).head? = (comment ++ ['*']).head? := by
            cases comment with
            | nil => rfl
            | cons d comment => rfl
          rw [head] at ends
          exact .inr ⟨c :: comment, rest, rfl, by rw [List.cons_append, blockBody, ends, inner]; rfl⟩

theorem literal_ends (quote : Char) (body : Text) :
    openBody quote body = true ∨ ∃ literal rest, body = literal ++ quote :: rest ∧ quotedBody quote literal = true := by
  induction body using openBody.induct with
  | case1 => exact .inl rfl
  | case2 => exact .inl (by simp [openBody])
  | case3 d more ih =>
      rcases ih with open_ | ⟨literal, rest, rfl, closed⟩
      · exact .inl (by rw [openBody, if_pos rfl]; exact open_)
      · exact .inr ⟨'\\' :: d :: literal, rest, rfl, by rw [quotedBody, if_pos rfl]; exact closed⟩
  | case4 c body char ih =>
      by_cases ends : c = quote
      · subst ends
        exact .inr ⟨[], body, rfl, rfl⟩
      · have other : decide (c ≠ quote) = true := decide_eq_true ends
        rcases ih with open_ | ⟨literal, rest, rfl, closed⟩
        · left
          rw [openBody.eq_def]
          simp only [if_neg char, other, open_, Bool.and_self]
        · right
          refine ⟨c :: literal, rest, rfl, ?_⟩
          rw [quotedBody.eq_def]
          simp only [if_neg char, other, closed, Bool.and_self]

variable {body : Text}

theorem line_comment_parted (shorter : ∀ tail : Text, tail.length < body.length → Parted tail) : Parted ('/' :: '/' :: body) := by
  rcases line_comment_ends body with inner | ⟨comment, rest, rfl, inner⟩
  · exact @part_alone (.openComment body inner) rfl
  · have behind := shorter rest (by simp only [List.length_append, List.length_cons]; omega)
    have parted := @parts_behind (.lineComment comment inner) rest rfl behind
    have shape : (ScriptPart.lineComment comment inner).text ++ rest = '/' :: '/' :: (comment ++ '\n' :: rest) := by simp [ScriptPart.text]
    rw [shape] at parted
    exact parted

theorem block_comment_parted (shorter : ∀ tail : Text, tail.length < body.length → Parted tail) : Parted ('/' :: '*' :: body) := by
  rcases block_comment_ends body with inner | ⟨comment, rest, rfl, inner⟩
  · exact @part_alone (.openBlock body inner) rfl
  · have behind := shorter rest (by simp only [List.length_append, List.length_cons]; omega)
    have parted := @parts_behind (.blockComment comment inner) rest rfl behind
    have shape : (ScriptPart.blockComment comment inner).text ++ rest = '/' :: '*' :: (comment ++ '*' :: '/' :: rest) := by simp [ScriptPart.text]
    rw [shape] at parted
    exact parted

theorem literal_parted (quote : Quote) (shorter : ∀ tail : Text, tail.length < body.length → Parted tail) : Parted (quote.char :: body) := by
  rcases literal_ends quote.char body with inner | ⟨literal, rest, rfl, closed⟩
  · exact @part_alone (.openQuoted quote body inner) rfl
  · have behind := shorter rest (by simp only [List.length_append, List.length_cons]; omega)
    have parted := @parts_behind (.quoted quote literal closed) rest rfl behind
    have shape : (ScriptPart.quoted quote literal closed).text ++ rest = quote.char :: (literal ++ quote.char :: rest) := by simp [ScriptPart.text]
    rw [shape] at parted
    exact parted

theorem return_parted (shorter : ∀ tail : Text, tail.length ≤ body.length → Parted tail) : Parted ('\r' :: body) := by
  by_cases pair : body.head? = some '\n'
  · obtain ⟨rest, rfl⟩ := List.head?_eq_some_iff.mp pair
    exact @parts_behind (.lineBreak .crlf) rest rfl (shorter rest (by rw [List.length_cons]; omega))
  · exact @parts_behind (.lineBreak .cr) body (decide_eq_true pair) (shorter body (Nat.le_refl _))

theorem twin_parted (minus : Bool) (shorter : ∀ tail : Text, tail.length ≤ body.length → Parted tail) :
    Parted (twinChar minus :: twinChar minus :: body) :=
  @parts_behind (.twin minus) body rfl (shorter body (Nat.le_refl _))

-- A character that is a part by itself.
theorem char_parted {c : Char} (shorter : ∀ tail : Text, tail.length ≤ body.length → Parted tail)
    (line : (decide (c = '/') && (decide (body.head? = some '/') || decide (body.head? = some '*'))) = false)
    (plus : (decide (c = '+') && decide (body.head? = some '+')) = false) (minus : (decide (c = '-') && decide (body.head? = some '-')) = false)
    (single : c ≠ Quote.single.char) (backtick : c ≠ Quote.backtick.char) (double : c ≠ Quote.double.char) (cr : c ≠ '\r') : Parted (c :: body) := by
  have behind := shorter body (Nat.le_refl _)
  have alone (part : ScriptPart) (shape : part.text = [c]) (meets : part.meets body.head? = true) : Parted (c :: body) := by
    have parted := parts_behind meets behind
    rw [shape] at parted
    exact parted
  by_cases letter : isIdentifierChar c = true
  · exact alone (.word c [] letter rfl) rfl rfl
  by_cases mark : c ∈ text "\"();[]\x7b\x7d \t\n\r"
  · have spelled : text "\"();[]\x7b\x7d \t\n\r" = ['"', '(', ')', ';', '[', ']', '\x7b', '\x7d', ' ', '\t', '\n', '\r'] := rfl
    rw [spelled] at mark
    simp only [List.mem_cons, List.not_mem_nil, or_false] at mark
    rcases mark with same | rfl | rfl | rfl | rfl | rfl | rfl | rfl | rfl | rfl | rfl | same
    · exact absurd same double
    · exact alone (.opener .round) rfl rfl
    · exact alone (.closer .round) rfl rfl
    · exact alone .semicolon rfl rfl
    · exact alone (.opener .square) rfl rfl
    · exact alone (.closer .square) rfl rfl
    · exact alone (.opener .curly) rfl rfl
    · exact alone (.closer .curly) rfl rfl
    · exact alone (.blank false) rfl rfl
    · exact alone (.blank true) rfl rfl
    · exact alone (.lineBreak .lf) rfl rfl
    · exact absurd same cr
  · have own : isSign c = true := by
      have quote : c.toNat ≠ 39 := fun same => single (char_of_toNat same)
      have tick : c.toNat ≠ 96 := fun same => backtick (char_of_toNat same)
      rw [isSign, Bool.eq_false_iff.mpr letter, List.contains_eq_mem, decide_eq_false mark, decide_eq_true quote, decide_eq_true tick]
      rfl
    exact alone (.sign c own) rfl (by rw [ScriptPart.meets, line, plus, minus]; rfl)

-- What the first character of a text, with the one behind it, starts.
theorem parts_cons (c : Char) (rest : Text) (shorter : ∀ tail : Text, tail.length ≤ rest.length → Parted tail) : Parted (c :: rest) := by
  have behind_one {d : Char} {body : Text} (shape : rest = d :: body) : ∀ tail : Text, tail.length ≤ body.length → Parted tail := by
    intro tail short
    exact shorter tail (by rw [shape, List.length_cons]; omega)
  have strictly {body : Text} (shape : ∃ d, rest = d :: body) : ∀ tail : Text, tail.length < body.length → Parted tail := by
    intro tail short
    obtain ⟨d, shape⟩ := shape
    exact behind_one shape tail (Nat.le_of_lt short)
  by_cases quote : ∃ quote : Quote, c = quote.char
  · obtain ⟨quote, rfl⟩ := quote
    exact literal_parted quote fun tail short => shorter tail (Nat.le_of_lt short)
  by_cases cr : c = '\r'
  · subst cr
    exact return_parted shorter
  by_cases line : c = '/' ∧ rest.head? = some '/'
  · obtain ⟨body, shape⟩ := List.head?_eq_some_iff.mp line.2
    rw [line.1, shape]
    exact line_comment_parted (strictly ⟨'/', shape⟩)
  by_cases block : c = '/' ∧ rest.head? = some '*'
  · obtain ⟨body, shape⟩ := List.head?_eq_some_iff.mp block.2
    rw [block.1, shape]
    exact block_comment_parted (strictly ⟨'*', shape⟩)
  by_cases plus : c = '+' ∧ rest.head? = some '+'
  · obtain ⟨body, shape⟩ := List.head?_eq_some_iff.mp plus.2
    rw [plus.1, shape]
    exact twin_parted false (behind_one shape)
  by_cases minus : c = '-' ∧ rest.head? = some '-'
  · obtain ⟨body, shape⟩ := List.head?_eq_some_iff.mp minus.2
    rw [minus.1, shape]
    exact twin_parted true (behind_one shape)
  have other (kind : Quote) : c ≠ kind.char := fun same => quote ⟨kind, same⟩
  refine char_parted shorter ?_ ?_ ?_ (other .single) (other .backtick) (other .double) cr
  · rw [Bool.and_or_distrib_left, ← Bool.decide_and, ← Bool.decide_and, decide_eq_false line, decide_eq_false block]
    rfl
  · rw [← Bool.decide_and, decide_eq_false plus]
  · rw [← Bool.decide_and, decide_eq_false minus]

-- Every text has its parts.
theorem parts_of_text (code : Text) : Parted code := by
  induction bound : code.length using Nat.strong_induction_on generalizing code with
  | _ n ih =>
      cases code with
      | nil => exact ⟨[], rfl, rfl⟩
      | cons c rest =>
          refine parts_cons c rest fun tail short => ih tail.length ?_ tail rfl
          rw [← bound, List.length_cons]
          omega

end Totality
end PrAgent.ReturnInjection
