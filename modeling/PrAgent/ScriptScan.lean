import PrAgent.ScriptParts
set_option autoImplicit false

namespace PrAgent.ReturnInjection

section Turns

variable {state : ScanState} {reading : Reading} {i start : Nat} {c d : Char} {rest : Text}

theorem scan_turn {next : ScanState} (turn : scanStep state i c rest = (next, 0)) : scan 0 i state (c :: rest) = scan 0 (i + 1) next rest := by
  rw [scan, turn]

theorem scan_turn_two {next : ScanState} (turn : scanStep state i c (d :: rest) = (next, 1)) :
    scan 0 i state (c :: d :: rest) = scan 0 (i + 2) next rest := by
  rw [scan, turn, scan]

theorem scan_line_comment {body : Text} (single : lineBody body = true) :
    scan 0 i { state with inLineComment := true } (body ++ '\n' :: rest) = scan 0 (i + body.length + 1) { state with inLineComment := false } rest := by
  induction body generalizing i with
  | nil => rfl
  | cons c body ih =>
      rw [lineBody, List.all_cons, Bool.and_eq_true] at single
      have other : c ≠ '\n' := of_decide_eq_true single.1
      have turn : scanStep { state with inLineComment := true } i c (body ++ '\n' :: rest) = ({ state with inLineComment := true }, 0) := by
        simp [scanStep, other]
      rw [List.cons_append, scan_turn turn, ih single.2, List.length_cons]
      congr 1
      omega

theorem scan_open_comment {body : Text} (single : lineBody body = true) :
    scan 0 i { state with inLineComment := true } body = { state with inLineComment := true } := by
  induction body generalizing i with
  | nil => rfl
  | cons c body ih =>
      rw [lineBody, List.all_cons, Bool.and_eq_true] at single
      have other : c ≠ '\n' := of_decide_eq_true single.1
      have turn : scanStep { state with inLineComment := true } i c body = ({ state with inLineComment := true }, 0) := by
        simp [scanStep, other]
      rw [scan_turn turn, ih single.2]

theorem scan_block_comment {body : Text} (code : state.inLineComment = false) (inner : blockBody (body ++ ['*']) = true) :
    scan 0 i { state with inBlockComment := true } (body ++ '*' :: '/' :: rest) =
      scan 0 (i + body.length + 2) { state with inBlockComment := false } rest := by
  induction body generalizing i with
  | nil =>
      have turn : scanStep { state with inBlockComment := true } i '*' ('/' :: rest) = ({ state with inBlockComment := false }, 1) := by
        simp [scanStep, code]
      rw [List.nil_append, scan_turn_two turn]
      rfl
  | cons c body ih =>
      rw [List.cons_append, blockBody, Bool.and_eq_true, Bool.not_eq_true'] at inner
      have head : (body ++ '*' :: '/' :: rest).head? = (body ++ ['*']).head? := by
        cases body with
        | nil => rfl
        | cons d body => rfl
      have turn : scanStep { state with inBlockComment := true } i c (body ++ '*' :: '/' :: rest) = ({ state with inBlockComment := true }, 0) := by
        simp only [scanStep, code, head, inner.1]
        rfl
      rw [List.cons_append, scan_turn turn, ih inner.2, List.length_cons]
      congr 1
      omega

theorem scan_open_block {body : Text} (code : state.inLineComment = false) (inner : blockBody body = true) :
    scan 0 i { state with inBlockComment := true } body = { state with inBlockComment := true } := by
  induction body generalizing i with
  | nil => rfl
  | cons c body ih =>
      rw [blockBody, Bool.and_eq_true, Bool.not_eq_true'] at inner
      have turn : scanStep { state with inBlockComment := true } i c body = ({ state with inBlockComment := true }, 0) := by
        simp only [scanStep, code, inner.1]
        rfl
      rw [scan_turn turn, ih inner.2]

-- Neither a backslash nor the quote.
theorem scanStep_quoted {quote : Char} (code : state.inLineComment = false) (code' : state.inBlockComment = false) (other : c ≠ quote) (char : c ≠ '\\') :
    scanStep { state with inStr := some quote } i c rest = ({ state with inStr := some quote }, 0) := by
  simp [scanStep, code, code', other, char]

theorem scanStep_escape {quote : Char} (code : state.inLineComment = false) (code' : state.inBlockComment = false) :
    scanStep { state with inStr := some quote } i '\\' rest = ({ state with inStr := some quote }, 1) := by
  simp [scanStep, code, code']

theorem scan_quoted {quote : Char} (code : state.inLineComment = false) (code' : state.inBlockComment = false) (plain : quote ≠ '\\') (body : Text)
    (closed : quotedBody quote body = true) :
    scan 0 i { state with inStr := some quote } (body ++ quote :: rest) =
      scan 0 (i + body.length + 1) { state with inStr := none, lastCanEnd := true, lastWord := [], word := [] } rest := by
  induction body using quotedBody.induct generalizing i with
  | case1 =>
      have turn : scanStep { state with inStr := some quote } i quote rest =
          ({ state with inStr := none, lastCanEnd := true, lastWord := [], word := [] }, 0) := by
        simp [scanStep, code, code', plain]
      rw [List.nil_append, scan_turn turn]
      rfl
  | case2 => exact absurd closed (by simp [quotedBody])
  | case3 d more ih =>
      rw [quotedBody, if_pos rfl] at closed
      rw [List.cons_append, List.cons_append, scan_turn_two (scanStep_escape code code'), ih closed, List.length_cons, List.length_cons]
      congr 1
      omega
  | case4 c body char ih =>
      have own : quotedBody quote (c :: body) = (decide (c ≠ quote) && quotedBody quote body) := by
        rw [quotedBody.eq_def]
        exact if_neg char
      rw [own, Bool.and_eq_true, decide_eq_true_iff] at closed
      rw [List.cons_append, scan_turn (scanStep_quoted code code' closed.1 char), ih closed.2, List.length_cons]
      congr 1
      omega

theorem scan_open_quoted {quote : Char} (code : state.inLineComment = false) (code' : state.inBlockComment = false) (body : Text)
    (inner : openBody quote body = true) :
    scan 0 i { state with inStr := some quote } body = { state with inStr := some quote } := by
  induction body using openBody.induct generalizing i with
  | case1 => rfl
  | case2 =>
      rw [scan, scanStep_escape code code']
      rfl
  | case3 d more ih =>
      rw [openBody, if_pos rfl] at inner
      rw [scan_turn_two (scanStep_escape code code'), ih inner]
  | case4 c body char ih =>
      have own : openBody quote (c :: body) = (decide (c ≠ quote) && openBody quote body) := by
        rw [openBody.eq_def]
        exact if_neg char
      rw [own, Bool.and_eq_true, decide_eq_true_iff] at inner
      rw [scan_turn (scanStep_quoted code code' inner.1 char), ih inner.2]

end Turns

section PartTurns

variable {reading : Reading} {i start : Nat} {rest : Text}

-- Outside of comments and strings.
theorem scanStep_code (c : Char) : scanStep (reading.state start) i c rest =
    if c = '/' && rest.head? = some '/' then ({ reading.state start with inLineComment := true }, 1)
    else if c = '/' && rest.head? = some '*' then ({ reading.state start with inBlockComment := true }, 1)
    else if c = '"' || c.toNat = 39 || c.toNat = 96 then ({ reading.state start with inStr := some c, word := [] }, 0)
    else if c = '\x7b' || c = '(' || c = '[' then
      ({ reading.state start with depth := reading.depth + 1, lastCanEnd := false, lastWord := [], word := [] }, 0)
    else if c = '\x7d' || c = ')' || c = ']' then
      ({ reading.state start with depth := reading.depth - 1, lastCanEnd := true, lastWord := [], word := [] }, 0)
    else if reading.depth = 0 && c = ';' then
      ({ reading.state start with lastStmtStart := i + 1, lastCanEnd := false, lastWord := [], word := [] }, 0)
    else if reading.depth = 0 && (c = '\n' || c = '\r') then
      ({ reading.state start with lastStmtStart := breakStart (reading.state start) i c rest }, 0)
    else if c = ' ' || c = '\t' then ({ reading.state start with word := [] }, 0)
    else if isIdentifierChar c then
      ({ reading.state start with word := reading.word ++ [c], lastWord := reading.word ++ [c],
                                  lastCanEnd := !continuationWords.contains (reading.word ++ [c]) }, 0)
    else if c = '+' && rest.head? = some '+' then ({ reading.state start with word := [], lastWord := [], lastCanEnd := true }, 1)
    else if c = '-' && rest.head? = some '-' then ({ reading.state start with word := [], lastWord := [], lastCanEnd := true }, 1)
    else ({ reading.state start with word := [], lastWord := [], lastCanEnd := !cannotEndChars.contains c }, 0) := rfl

theorem scan_blank (tab : Bool) : scan 0 i (reading.state start) ((ScriptPart.blank tab).text ++ rest) =
    scan 0 (i + 1) (((ScriptPart.blank tab).read reading).state start) rest := by
  cases tab with
  | true =>
      have turn : scanStep (reading.state start) i '\t' rest = (((ScriptPart.blank true).read reading).state start, 0) := by
        rw [scanStep_code]
        simp [ScriptPart.read, Reading.state]
      exact scan_turn turn
  | false =>
      have turn : scanStep (reading.state start) i ' ' rest = (((ScriptPart.blank false).read reading).state start, 0) := by
        rw [scanStep_code]
        simp [ScriptPart.read, Reading.state]
      exact scan_turn turn

theorem scan_opener (bracket : Bracket) : scan 0 i (reading.state start) ((ScriptPart.opener bracket).text ++ rest) =
    scan 0 (i + 1) (((ScriptPart.opener bracket).read reading).state start) rest := by
  have turn : scanStep (reading.state start) i bracket.opens rest = (((ScriptPart.opener bracket).read reading).state start, 0) := by
    rw [scanStep_code]
    cases bracket with
    | curly => simp [Bracket.opens, ScriptPart.read, Reading.state]
    | round => simp [Bracket.opens, ScriptPart.read, Reading.state]
    | square => simp [Bracket.opens, ScriptPart.read, Reading.state]
  exact scan_turn turn

theorem scan_closer (bracket : Bracket) : scan 0 i (reading.state start) ((ScriptPart.closer bracket).text ++ rest) =
    scan 0 (i + 1) (((ScriptPart.closer bracket).read reading).state start) rest := by
  have turn : scanStep (reading.state start) i bracket.closes rest = (((ScriptPart.closer bracket).read reading).state start, 0) := by
    rw [scanStep_code]
    cases bracket with
    | curly => simp [Bracket.closes, ScriptPart.read, Reading.state]
    | round => simp [Bracket.closes, ScriptPart.read, Reading.state]
    | square => simp [Bracket.closes, ScriptPart.read, Reading.state]
  exact scan_turn turn

theorem scan_twin (minus : Bool) : scan 0 i (reading.state start) ((ScriptPart.twin minus).text ++ rest) =
    scan 0 (i + 2) (((ScriptPart.twin minus).read reading).state start) rest := by
  cases minus with
  | true =>
      have turn : scanStep (reading.state start) i '-' ('-' :: rest) = (((ScriptPart.twin true).read reading).state start, 1) := by
        rw [scanStep_code]
        simp [ScriptPart.read, Reading.state, Reading.other, isIdentifierChar, isWord]
      exact scan_turn_two turn
  | false =>
      have turn : scanStep (reading.state start) i '+' ('+' :: rest) = (((ScriptPart.twin false).read reading).state start, 1) := by
        rw [scanStep_code]
        simp [ScriptPart.read, Reading.state, Reading.other, isIdentifierChar, isWord]
      exact scan_turn_two turn

theorem scan_semicolon : scan 0 i (reading.state start) (ScriptPart.semicolon.text ++ rest) =
    scan 0 (i + 1) ((ScriptPart.semicolon.read reading).state (splitBehind reading .semicolon rest i start)) rest := by
  have turn : scanStep (reading.state start) i ';' rest =
      ((ScriptPart.semicolon.read reading).state (splitBehind reading .semicolon rest i start), 0) := by
    rw [scanStep_code]
    by_cases top : reading.depth = 0
    · simp [ScriptPart.read, Reading.state, Reading.other, splitBehind, ScriptPart.splits, ScriptPart.skips, ScriptPart.text, top]
    · have ends : ';' ∉ cannotEndChars := by decide
      have plain : isIdentifierChar ';' = false := by decide
      simp [ScriptPart.read, Reading.state, Reading.other, splitBehind, ScriptPart.splits, top, plain, ends]
  exact scan_turn turn

variable {c : Char}

theorem char_of_toNat {n : Nat} (same : c.toNat = n) : c = Char.ofNat n := by
  rw [← same]
  exact (Char.ofNat_toNat c).symm

-- A letter of an identifier is none of the characters that are looked at before.
theorem identifier_apart (own : isIdentifierChar c = true) (d : Char) (other : isIdentifierChar d = false) : c ≠ d := by
  rintro rfl
  rw [own] at other
  cases other

theorem scan_letter (own : isIdentifierChar c = true) : scan 0 i (reading.state start) (c :: rest) =
    scan 0 (i + 1) (((ScriptPart.word c [] own rfl).read reading).state start) rest := by
  have apart := identifier_apart own
  have single : c.toNat ≠ 39 := fun same => apart (Char.ofNat 39) (by decide) (char_of_toNat same)
  have backtick : c.toNat ≠ 96 := fun same => apart (Char.ofNat 96) (by decide) (char_of_toNat same)
  have turn : scanStep (reading.state start) i c rest = (((ScriptPart.word c [] own rfl).read reading).state start, 0) := by
    rw [scanStep_code]
    simp only [apart '/' (by decide), apart '"' (by decide), single, backtick, apart '\x7b' (by decide), apart '(' (by decide), apart '[' (by decide),
      apart '\x7d' (by decide), apart ')' (by decide), apart ']' (by decide), apart ';' (by decide), apart '\n' (by decide), apart '\r' (by decide),
      apart ' ' (by decide), apart '\t' (by decide), own, decide_false, Bool.false_and, Bool.and_false, Bool.or_false, Bool.false_eq_true, if_false, if_true]
    rfl
  exact scan_turn turn

theorem scan_word {letters : Text} {first : Char} (own : isIdentifierChar first = true) (all : letters.all isIdentifierChar = true) :
    scan 0 i (reading.state start) (first :: (letters ++ rest)) =
      scan 0 (i + letters.length + 1) (((ScriptPart.word first letters own all).read reading).state start) rest := by
  induction letters generalizing first reading i with
  | nil => exact scan_letter own
  | cons d letters ih =>
      rw [List.all_cons, Bool.and_eq_true] at all
      have joined : (ScriptPart.word d letters all.1 all.2).read ((ScriptPart.word first [] own rfl).read reading) =
          (ScriptPart.word first (d :: letters) own (by rw [List.all_cons, all.1, all.2]; rfl)).read reading := by
        simp only [ScriptPart.read, List.append_assoc]
        rfl
      rw [List.cons_append, scan_letter own, ih all.1 all.2, joined, List.length_cons]
      congr 1
      omega

theorem sign_apart (own : isSign c = true) :
    isIdentifierChar c = false ∧ (text "\"();[]\x7b\x7d \t\n\r").contains c = false ∧ c.toNat ≠ 39 ∧ c.toNat ≠ 96 := by
  simp only [isSign, Bool.and_eq_true, Bool.not_eq_true', decide_eq_true_iff] at own
  exact ⟨own.1.1.1, own.1.1.2, own.1.2, own.2⟩

theorem scan_sign (own : isSign c = true) (meets : (ScriptPart.sign c own).meets rest.head? = true) :
    scan 0 i (reading.state start) (c :: rest) = scan 0 (i + 1) (((ScriptPart.sign c own).read reading).state start) rest := by
  obtain ⟨letter, marks, single, backtick⟩ := sign_apart own
  have mark (d : Char) (listed : (text "\"();[]\x7b\x7d \t\n\r").contains d = true) : c ≠ d := by
    rintro rfl
    rw [marks] at listed
    cases listed
  simp only [ScriptPart.meets, Bool.and_eq_true, Bool.not_eq_true'] at meets
  have line : (decide (c = '/') && decide (rest.head? = some '/')) = false := by
    cases slash : decide (c = '/') with
    | false => rfl
    | true =>
        have both := meets.1.1
        rw [slash, Bool.true_and, Bool.or_eq_false_iff] at both
        exact both.1
  have block : (decide (c = '/') && decide (rest.head? = some '*')) = false := by
    cases slash : decide (c = '/') with
    | false => rfl
    | true =>
        have both := meets.1.1
        rw [slash, Bool.true_and, Bool.or_eq_false_iff] at both
        exact both.2
  have turn : scanStep (reading.state start) i c rest = (((ScriptPart.sign c own).read reading).state start, 0) := by
    rw [scanStep_code]
    simp only [line, block, meets.1.2, meets.2, single, backtick, letter, mark '"' (by decide), mark '\x7b' (by decide), mark '(' (by decide),
      mark '[' (by decide), mark '\x7d' (by decide), mark ')' (by decide), mark ']' (by decide), mark ';' (by decide), mark '\n' (by decide),
      mark '\r' (by decide), mark ' ' (by decide), mark '\t' (by decide), decide_false, Bool.and_false, Bool.or_false, Bool.false_eq_true, if_false]
    rfl
  exact scan_turn turn

variable {body : Text}

theorem scan_comment (single : lineBody body = true) :
    scan 0 i (reading.state start) ('/' :: '/' :: (body ++ '\n' :: rest)) = scan 0 (i + (body.length + 3)) (reading.state start) rest := by
  have turn : scanStep (reading.state start) i '/' ('/' :: (body ++ '\n' :: rest)) = ({ reading.state start with inLineComment := true }, 1) := by
    rw [scanStep_code]
    simp
  rw [scan_turn_two turn, scan_line_comment single]
  congr 1
  omega

theorem scan_comment_open (single : lineBody body = true) :
    scan 0 i (reading.state start) ('/' :: '/' :: body) = { reading.state start with inLineComment := true } := by
  have turn : scanStep (reading.state start) i '/' ('/' :: body) = ({ reading.state start with inLineComment := true }, 1) := by
    rw [scanStep_code]
    simp
  rw [scan_turn_two turn, scan_open_comment single]

theorem scan_block_open (inner : blockBody body = true) :
    scan 0 i (reading.state start) ('/' :: '*' :: body) = { reading.state start with inBlockComment := true } := by
  have turn : scanStep (reading.state start) i '/' ('*' :: body) = ({ reading.state start with inBlockComment := true }, 1) := by
    rw [scanStep_code]
    simp
  have kept := @scan_open_block (reading.state start) (i + 2) body rfl inner
  rw [scan_turn_two turn, kept]

theorem scan_block (inner : blockBody (body ++ ['*']) = true) :
    scan 0 i (reading.state start) ('/' :: '*' :: (body ++ '*' :: '/' :: rest)) = scan 0 (i + (body.length + 4)) (reading.state start) rest := by
  have turn : scanStep (reading.state start) i '/' ('*' :: (body ++ '*' :: '/' :: rest)) = ({ reading.state start with inBlockComment := true }, 1) := by
    rw [scanStep_code]
    simp
  have closes := @scan_block_comment (reading.state start) (i + 2) rest body rfl inner
  rw [scan_turn_two turn, closes]
  congr 1
  omega

theorem scanStep_quote (quote : Quote) :
    scanStep (reading.state start) i quote.char rest = ({ reading.state start with inStr := some quote.char, word := [] }, 0) := by
  rw [scanStep_code]
  cases quote with
  | double => rfl
  | single => rfl
  | backtick => rfl

theorem scan_literal_open {quote : Quote} (inner : openBody quote.char body = true) :
    scan 0 i (reading.state start) (quote.char :: body) = { reading.state start with inStr := some quote.char, word := [] } := by
  have kept := @scan_open_quoted { reading.state start with word := [] } (i + 1) quote.char rfl rfl body inner
  rw [scan_turn (scanStep_quote quote)]
  exact kept

theorem scan_literal {quote : Quote} (closed : quotedBody quote.char body = true) :
    scan 0 i (reading.state start) (quote.char :: (body ++ quote.char :: rest)) =
      scan 0 (i + (body.length + 2)) (((ScriptPart.quoted quote body closed).read reading).state start) rest := by
  have plain : quote.char ≠ '\\' := by cases quote <;> decide
  have closes := @scan_quoted { reading.state start with word := [] } (i + 1) rest quote.char rfl rfl plain body closed
  rw [scan_turn (scanStep_quote quote)]
  have same : scan 0 (i + 1) { reading.state start with inStr := some quote.char, word := [] } (body ++ quote.char :: rest) =
      scan 0 (i + 1) { ({ reading.state start with word := [] } : ScanState) with inStr := some quote.char } (body ++ quote.char :: rest) := rfl
  rw [same, closes]
  have count : i + 1 + body.length + 1 = i + (body.length + 2) := by omega
  rw [count]
  rfl

-- The start that a line break gives, with the index and the code behind it.
def startBehind (reading : Reading) (index : Nat) (code : Text) (start : Nat) : Nat :=
  if reading.canEnd && !restrictedAsi.contains reading.lastWord && !(code.dropWhile isBlank).isEmpty && canStartStatement (code.dropWhile isBlank) then
    index + (code.takeWhile isBlank).length
  else start

theorem breakStart_line (line : (decide (c = '\r') && decide (rest.head? = some '\n')) = false) :
    breakStart (reading.state start) i c rest = startBehind reading (i + 1) rest start := by
  rw [breakStart, startBehind]
  simp only [line, behindBlanks, Reading.state, Bool.false_eq_true, if_false]
  cases reading.canEnd && !restrictedAsi.contains reading.lastWord with
  | true => rfl
  | false => rfl

theorem breakStart_pair : breakStart (reading.state start) i '\r' ('\n' :: rest) = startBehind reading (i + 2) rest start := by
  rw [breakStart, startBehind]
  simp only [List.head?_cons, List.drop_one, List.tail_cons, behindBlanks, Reading.state, decide_true, Bool.and_self, if_true]
  cases reading.canEnd && !restrictedAsi.contains reading.lastWord with
  | true => rfl
  | false => rfl

theorem startBehind_twice (index : Nat) (code : Text) :
    startBehind reading index code (startBehind reading index code start) = startBehind reading index code start := by
  simp only [startBehind]
  by_cases starts : (reading.canEnd && !restrictedAsi.contains reading.lastWord && !(code.dropWhile isBlank).isEmpty &&
      canStartStatement (code.dropWhile isBlank)) = true
  · rw [if_pos starts, if_pos starts]
  · rw [if_neg starts, if_neg starts]

theorem startBehind_split {kind : Break} (top : reading.depth = 0) :
    startBehind reading (i + kind.text.length) rest start = splitBehind reading (.lineBreak kind) rest i start := by
  rw [startBehind, splitBehind, ScriptPart.splits, top]
  rfl

theorem break_top (top : reading.depth = 0) (line : c = '\n' ∨ c = '\r') :
    scanStep (reading.state start) i c rest = (reading.state (breakStart (reading.state start) i c rest), 0) := by
  rw [scanStep_code]
  rcases line with rfl | rfl
  · simp [top, Reading.state]
  · simp [top, Reading.state]

theorem break_inside (inside : reading.depth ≠ 0) (line : c = '\n' ∨ c = '\r') :
    scanStep (reading.state start) i c rest = ((reading.other true).state start, 0) := by
  have ends : '\n' ∉ cannotEndChars ∧ '\r' ∉ cannotEndChars := by decide
  have plain : isIdentifierChar '\n' = false ∧ isIdentifierChar '\r' = false := by decide
  rw [scanStep_code]
  rcases line with rfl | rfl
  · simp [inside, Reading.state, Reading.other, ends.1, plain.1]
  · simp [inside, Reading.state, Reading.other, ends.2, plain.2]

theorem scan_break {kind : Break} (meets : (ScriptPart.lineBreak kind).meets rest.head? = true) :
    scan 0 i (reading.state start) (kind.text ++ rest) =
      scan 0 (i + kind.text.length) (((ScriptPart.lineBreak kind).read reading).state (splitBehind reading (.lineBreak kind) rest i start)) rest := by
  by_cases top : reading.depth = 0
  · have kept : (ScriptPart.lineBreak kind).read reading = reading := by rw [ScriptPart.read, if_pos top]
    rw [kept, ← startBehind_split top]
    cases kind with
    | lf =>
        have turn : scanStep (reading.state start) i '\n' rest = (reading.state (startBehind reading (i + 1) rest start), 0) := by
          have start_at := @breakStart_line reading i start rest '\n' rfl
          rw [break_top top (.inl rfl), start_at]
        exact scan_turn turn
    | cr =>
        have line : (decide ('\r' = '\r') && decide (rest.head? = some '\n')) = false := by
          have other : ¬rest.head? = some '\n' := of_decide_eq_true meets
          rw [decide_eq_false other, Bool.and_false]
        have turn : scanStep (reading.state start) i '\r' rest = (reading.state (startBehind reading (i + 1) rest start), 0) := by
          have start_at := @breakStart_line reading i start rest '\r' line
          rw [break_top top (.inr rfl), start_at]
        exact scan_turn turn
    | crlf =>
        have first : scanStep (reading.state start) i '\r' ('\n' :: rest) = (reading.state (startBehind reading (i + 2) rest start), 0) := by
          rw [break_top top (.inr rfl), breakStart_pair]
        have second : scanStep (reading.state (startBehind reading (i + 2) rest start)) (i + 1) '\n' rest =
            (reading.state (startBehind reading (i + 2) rest start), 0) := by
          have start_at := @breakStart_line reading (i + 1) (startBehind reading (i + 2) rest start) rest '\n' rfl
          rw [break_top top (.inl rfl), start_at, startBehind_twice]
        have shape : Break.crlf.text ++ rest = '\r' :: '\n' :: rest := rfl
        rw [shape, scan_turn first, scan_turn second]
        rfl
  · have inner : (ScriptPart.lineBreak kind).read reading = reading.other true := by rw [ScriptPart.read, if_neg top]
    have none_split : splitBehind reading (.lineBreak kind) rest i start = start := by
      rw [splitBehind, ScriptPart.splits, decide_eq_false top]
      rfl
    have inside : (reading.other true).depth ≠ 0 := top
    rw [inner, none_split]
    cases kind with
    | lf => exact scan_turn (break_inside top (.inl rfl))
    | cr => exact scan_turn (break_inside top (.inr rfl))
    | crlf =>
        have shape : Break.crlf.text ++ rest = '\r' :: '\n' :: rest := rfl
        rw [shape, scan_turn (break_inside top (.inr rfl)), scan_turn (break_inside inside (.inl rfl))]
        rfl

-- One part, wherever it stands.
theorem scan_part (part : ScriptPart) (meets : part.meets rest.head? = true) :
    (scan 0 i (reading.state start) (part.text ++ rest)).lastStmtStart =
      (scan 0 (i + part.text.length) ((part.read reading).state (splitBehind reading part rest i start)) rest).lastStmtStart := by
  cases part with
  | blank tab => exact congrArg ScanState.lastStmtStart (scan_blank tab)
  | lineBreak kind => exact congrArg ScanState.lastStmtStart (scan_break meets)
  | lineComment body single =>
      have text : (ScriptPart.lineComment body single).text ++ rest = '/' :: '/' :: (body ++ '\n' :: rest) := by simp [ScriptPart.text]
      have count : (ScriptPart.lineComment body single).text.length = body.length + 3 := by simp [ScriptPart.text]
      rw [text, count]
      exact congrArg ScanState.lastStmtStart (scan_comment single)
  | openComment body single =>
      have ends : rest = [] := List.head?_eq_none_iff.mp (of_decide_eq_true meets)
      rw [ends, List.append_nil, ScriptPart.text, scan_comment_open single]
      rfl
  | openBlock body inner =>
      have ends : rest = [] := List.head?_eq_none_iff.mp (of_decide_eq_true meets)
      rw [ends, List.append_nil, ScriptPart.text, scan_block_open inner]
      rfl
  | openQuoted quote body inner =>
      have ends : rest = [] := List.head?_eq_none_iff.mp (of_decide_eq_true meets)
      rw [ends, List.append_nil, ScriptPart.text, scan_literal_open inner]
      rfl
  | blockComment body inner =>
      have text : (ScriptPart.blockComment body inner).text ++ rest = '/' :: '*' :: (body ++ '*' :: '/' :: rest) := by simp [ScriptPart.text]
      have count : (ScriptPart.blockComment body inner).text.length = body.length + 4 := by simp [ScriptPart.text]
      rw [text, count]
      exact congrArg ScanState.lastStmtStart (scan_block inner)
  | semicolon => exact congrArg ScanState.lastStmtStart scan_semicolon
  | word first letters own all =>
      exact congrArg ScanState.lastStmtStart (scan_word own all)
  | sign c own => exact congrArg ScanState.lastStmtStart (scan_sign own meets)
  | twin minus => exact congrArg ScanState.lastStmtStart (scan_twin minus)
  | quoted quote body closed =>
      have text : (ScriptPart.quoted quote body closed).text ++ rest = quote.char :: (body ++ quote.char :: rest) := by simp [ScriptPart.text]
      have count : (ScriptPart.quoted quote body closed).text.length = body.length + 2 := by simp [ScriptPart.text]
      rw [text, count]
      exact congrArg ScanState.lastStmtStart (scan_literal closed)
  | opener bracket => exact congrArg ScanState.lastStmtStart (scan_opener bracket)
  | closer bracket => exact congrArg ScanState.lastStmtStart (scan_closer bracket)

end PartTurns
end PrAgent.ReturnInjection
