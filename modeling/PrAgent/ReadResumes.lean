import PrAgent.CutLines
set_option autoImplicit false

namespace PrAgent

-- The most bytes of a line that is not clamped.
def maxLineBytes : Nat := 3 * localWorkspaceReadMaxLineCharacters

section Cut

variable {shown : List Text} {maxBytes : Nat}

-- Lines that go into a response.
structure Fit (shown : List Text) : Prop where
  filled : shown ≠ []
  single : ∀ line ∈ shown, '\n' ∉ line
  small : ∀ line ∈ shown, textBytes line ≤ maxLineBytes

theorem Fit.split (fit : Fit shown) : (['\n'].intercalate shown).splitOn '\n' = shown := List.splitOn_intercalate '\n' fit.single fit.filled

theorem Fit.count (fit : Fit shown) : (['\n'].intercalate shown).count '\n' + 1 = shown.length := by
  rw [← splitOn_count, fit.split]

theorem endLine_after {first more : Text} {c : Char} : 2 ≤ endLineForText (first ++ '\n' :: c :: more) := by
  have filled : first ++ '\n' :: c :: more ≠ [] := by simp
  have counted : (first ++ '\n' :: c :: more).count '\n' = first.count '\n' + 1 + (c :: more).count '\n' := by
    rw [List.count_append, List.count_cons_self]
    omega
  rw [endLineForText, if_neg filled]
  by_cases ends : endsWithLineFeed (first ++ '\n' :: c :: more) = true
  · have last : (c :: more).getLast? = some '\n' := by
      rw [endsWithLineFeed, decide_eq_true_iff, List.getLast?_append, List.getLast?_cons_cons] at ends
      simpa using ends
    have positive : 0 < (c :: more).count '\n' := List.count_pos_iff.mpr (List.mem_of_getLast? last)
    rw [if_pos ends]
    omega
  · rw [if_neg ends]
    omega

theorem endLine_count (value : Text) : endLineForText value ≤ value.count '\n' + 1 := by
  rw [endLineForText]
  by_cases empty : value = []
  · rw [if_pos empty]
    omega
  · rw [if_neg empty]
    by_cases ends : endsWithLineFeed value = true
    · rw [if_pos ends]
      omega
    · rw [if_neg ends]
      omega

-- A cut is behind the first line, and every line before the one of the cut is whole.
structure CutBehind (shown : List Text) (content : Text) (endLine : Nat) : Prop where
  progress : 2 ≤ endLine
  within : endLine ≤ shown.length
  whole : ∀ i, i + 1 < endLine → (content.splitOn '\n')[i]? = shown[i]?

theorem Fit.cut (fit : Fit shown) (budget : 2 * maxLineBytes ≤ maxBytes) (large : ¬textBytes (['\n'].intercalate shown) ≤ maxBytes) :
    CutBehind shown (takeBytes maxBytes (['\n'].intercalate shown)) (endLineForText (takeBytes maxBytes (['\n'].intercalate shown))) := by
  obtain ⟨rest, split⟩ := takeBytes_split maxBytes (['\n'].intercalate shown)
  have counted : (takeBytes maxBytes (['\n'].intercalate shown)).count '\n' + rest.count '\n' + 1 = shown.length := by
    rw [← List.count_append, ← split, fit.count]
  have bounded := endLine_count (takeBytes maxBytes (['\n'].intercalate shown))
  have line_size : maxLineBytes = 6000 := rfl
  constructor
  · cases shown with
    | nil => exact absurd rfl fit.filled
    | cons first others =>
        have small := fit.small first List.mem_cons_self
        cases others with
        | nil =>
            rw [List.intercalate_singleton] at large
            omega
        | cons second others =>
            have joined : ['\n'].intercalate (first :: second :: others) = (first ++ ['\n']) ++ ['\n'].intercalate (second :: others) := by
              rw [List.intercalate_cons_cons]
            have head : textBytes (first ++ ['\n']) = textBytes first + 1 := textBytes_append first ['\n']
            rw [joined, textBytes_append, head] at large
            rw [joined, takeBytes_append _ _ (by omega), head]
            cases tail : ['\n'].intercalate (second :: others) with
            | nil =>
                rw [tail] at large
                have none_left : textBytes [] = 0 := rfl
                omega
            | cons c more =>
                have four := c.utf8Size_le_four
                rw [takeBytes, if_pos (by omega), List.append_assoc]
                exact endLine_after
  · omega
  · intro i before
    have part := splitOn_part '\n' (takeBytes maxBytes (['\n'].intercalate shown)) rest (i := i) (by omega)
    rw [part, ← split, fit.split]

end Cut
section Clamp

def budgetedLines (lines : List Text) : List Text := (clampLongLines lines).elim lines Prod.fst

def clampedNumbers (lines : List Text) : List Nat := (clampLongLines lines).elim [] Prod.snd

theorem clamp_none {lines : List Text} (short : lines.any isLongLine ≠ true) : clampLongLines lines = none := if_neg short

theorem budgeted_long {lines : List Text} (long : lines.any isLongLine = true) :
    budgetedLines lines = lines.mapIdx (fun index line => if isLongLine line then clampMarker (index + 1) line else line) ∧
      clampedNumbers lines = (lines.zipIdx 1).filterMap fun entry => if isLongLine entry.1 then some entry.2 else none := by
  rw [budgetedLines, clampedNumbers, clampLongLines, if_pos long]
  exact ⟨rfl, rfl⟩

theorem budgeted_short {lines : List Text} (short : lines.any isLongLine ≠ true) : budgetedLines lines = lines := by
  rw [budgetedLines, clamp_none short]
  rfl

theorem budgeted_length (lines : List Text) : (budgetedLines lines).length = lines.length := by
  by_cases long : lines.any isLongLine = true
  · rw [(budgeted_long long).1, List.length_mapIdx]
  · rw [budgeted_short long]

-- A line is shown as it is, or its number is listed.
theorem budgeted_line (lines : List Text) {i : Nat} (inside : i < lines.length) :
    (budgetedLines lines)[i]? = lines[i]? ∨ i + 1 ∈ clampedNumbers lines := by
  by_cases long : lines.any isLongLine = true
  · obtain ⟨shown, numbers⟩ := budgeted_long long
    rw [shown, numbers, List.getElem?_mapIdx, List.getElem?_eq_getElem inside]
    by_cases here : isLongLine lines[i] = true
    · apply Or.inr
      apply List.mem_filterMap.mpr
      refine ⟨(lines[i], i + 1), ?_, if_pos here⟩
      apply List.mk_mem_zipIdx_iff_le_and_getElem?_sub.mpr
      exact ⟨by omega, by rw [Nat.add_sub_cancel, List.getElem?_eq_getElem inside]⟩
    · apply Or.inl
      rw [Option.map_some, if_neg here]
  · rw [budgeted_short long]
    exact .inl rfl

theorem decimal_plain (n : Nat) : '\n' ∉ decimal n := by
  intro listed
  have digit := toDigits_isDigit listed
  exact absurd digit (by decide)

theorem decimal_short {n : Nat} (small : n < 10 ^ 16) : (decimal n).length ≤ 16 := Nat.toDigits_length 10 n 16 (by decide) small

theorem clampMarker_plain (number : Nat) (line : Text) : '\n' ∉ clampMarker number line := by
  have parts : '\n' ∉ text "[line " ∧ '\n' ∉ text " clamped: " ∧ '\n' ∉ text " characters elided]" := by decide
  rw [clampMarker, List.mem_append, List.mem_append, List.mem_append, List.mem_append]
  intro listed
  rcases listed with h | h | h | h | h
  · exact parts.1 h
  · exact decimal_plain number h
  · exact parts.2.1 h
  · exact decimal_plain _ h
  · exact parts.2.2 h

theorem clampMarker_small {number : Nat} {line : Text} (numbered : number < 10 ^ 16) (long : unitLength line < 10 ^ 16) :
    textBytes (clampMarker number line) ≤ maxLineBytes := by
  have bytes := textBytes_length (clampMarker number line)
  have first := decimal_short numbered
  have second := decimal_short long
  have sizes : (text "[line ").length = 6 ∧ (text " clamped: ").length = 10 ∧ (text " characters elided]").length = 19 := by decide
  have limit : maxLineBytes = 6000 := rfl
  have size : (clampMarker number line).length = 6 + ((decimal number).length + (10 + ((decimal (unitLength line)).length + 19))) := by
    rw [clampMarker, List.length_append, List.length_append, List.length_append, List.length_append, sizes.1, sizes.2.1, sizes.2.2]
  omega

variable {value : Text}

-- A string has less than 2^53 code units.
theorem budgeted_fit (filled : value ≠ []) (bounded : unitLength value < 2 ^ 53) {line : Text} (listed : line ∈ budgetedLines (splitLines value)) :
    '\n' ∉ line ∧ textBytes line ≤ maxLineBytes := by
  have own {line : Text} (listed : line ∈ splitLines value) (short : isLongLine line ≠ true) : '\n' ∉ line ∧ textBytes line ≤ maxLineBytes := by
    have units := textBytes_units line
    have limit : maxLineBytes = 6000 := rfl
    have few : unitLength line ≤ 2000 := Nat.le_of_not_lt fun more => short (decide_eq_true more)
    exact ⟨(splitOn_piece (splitLines_mem filled listed)).1, by omega⟩
  by_cases long : (splitLines value).any isLongLine = true
  · rw [(budgeted_long long).1] at listed
    obtain ⟨i, inside, same⟩ := List.mem_mapIdx.mp listed
    have here := List.getElem_mem inside
    by_cases clamped : isLongLine (splitLines value)[i] = true
    · rw [if_pos clamped] at same
      have few := splitLines_length filled
      have units := splitOn_units value _ (splitLines_mem filled here)
      rw [← same]
      exact ⟨clampMarker_plain _ _, clampMarker_small (by omega) (by omega)⟩
    · rw [if_neg clamped] at same
      rw [← same]
      exact own here clamped
  · rw [budgeted_short long] at listed
    apply own listed
    intro clamped
    exact long (List.any_eq_true.mpr ⟨line, listed, clamped⟩)

end Clamp
section Reads

def Shows (lines : List Text) (output : FileReadOutput) (n : Nat) : Prop :=
  ∃ line, lines[n - 1]? = some line ∧ output.startLine ≤ n ∧ (output.content.splitOn '\n')[n - output.startLine]? = some line

-- A line is delivered at its number in the piece, or listed as clamped.
def Delivers (lines : List Text) (output : FileReadOutput) (n : Nat) : Prop := Shows lines output n ∨ n ∈ output.clampedLines

-- What a read does for the lines from its start on.
structure ReadStep (lines : List Text) (start : Nat) (output : FileReadOutput) : Prop where
  ended : output.resumeStartLine = none → ∀ n, start ≤ n → n ≤ lines.length → Delivers lines output n
  resumed : ∀ next, output.resumeStartLine = some next → start < next ∧ output.startLine < next ∧ next ≤ lines.length + 1 ∧
    ∀ n, start ≤ n → n < next → n ≤ lines.length → Delivers lines output n

-- A line of the response, as the lines with the markers have it.
theorem delivers_budgeted {lines : List Text} {output : FileReadOutput} {n : Nat} (positive : 1 ≤ output.startLine) (after : output.startLine ≤ n)
    (within : n ≤ lines.length) (shown : (output.content.splitOn '\n')[n - output.startLine]? = (budgetedLines lines)[n - 1]?)
    (listed : ∀ number ∈ clampedNumbers lines, number = n → number ∈ output.clampedLines) : Delivers lines output n := by
  have inside : n - 1 < lines.length := by omega
  rcases budgeted_line lines inside with same | clamped
  · rw [same, List.getElem?_eq_getElem inside] at shown
    exact .inl ⟨lines[n - 1], List.getElem?_eq_getElem inside, after, shown⟩
  · have number : n - 1 + 1 = n := by omega
    exact .inr (number ▸ listed _ clamped number)

variable {value : Text} {maxBytes : Nat}

theorem whole_body (filled : value ≠ []) :
    (clampLongLines (splitLines value)).elim value (fun clamped => ['\n'].intercalate clamped.1 ++ if endsWithLineFeed value then ['\n'] else []) =
      ['\n'].intercalate (budgetedLines (splitLines value) ++ lastPiece value) := by
  cases clamped : clampLongLines (splitLines value) with
  | none =>
      have back : ['\n'].intercalate (value.splitOn '\n') = value := List.intercalate_splitOn '\n'
      rw [splitLines_split filled] at back
      rw [budgetedLines, clamped]
      exact back.symm
  | some found =>
      have length := budgeted_length (splitLines value)
      have some_line := splitLines_filled filled
      rw [budgetedLines, clamped, lastPiece] at *
      by_cases ends : endsWithLineFeed value = true
      · rw [if_pos ends, if_pos ends]
        have lines_filled : found.1 ≠ [] := by
          intro empty
          rw [Option.elim_some, empty] at length
          exact some_line (List.eq_nil_of_length_eq_zero length.symm)
        exact (intercalate_concat lines_filled).symm
      · rw [if_neg ends, if_neg ends, List.append_nil]
        exact List.append_nil _

theorem fit_lines (filled : value ≠ []) (bounded : unitLength value < 2 ^ 53) {shown : List Text} (some_line : shown ≠ [])
    (listed : ∀ line ∈ shown, line ∈ budgetedLines (splitLines value) ∨ line = []) : Fit shown where
  filled := some_line
  single := by
    intro line inside
    rcases listed line inside with own | rfl
    · exact (budgeted_fit filled bounded own).1
    · exact List.not_mem_nil
  small := by
    intro line inside
    rcases listed line inside with own | rfl
    · exact (budgeted_fit filled bounded own).2
    · exact Nat.zero_le _

theorem budgeted_empty {lines : List Text} {i : Nat} (empty : (budgetedLines lines)[i]? = some []) : lines[i]? = some [] := by
  by_cases long : lines.any isLongLine = true
  · rw [(budgeted_long long).1, List.getElem?_mapIdx] at empty
    obtain ⟨line, here, made⟩ := Option.map_eq_some_iff.mp empty
    by_cases clamped : isLongLine line = true
    · rw [if_pos clamped] at made
      cases made
    · rw [if_neg clamped] at made
      rw [here, made]
  · rw [budgeted_short long] at empty
    exact empty

theorem lastPiece_length (value : Text) : (lastPiece value).length = if endsWithLineFeed value then 1 else 0 := by
  rw [lastPiece]
  by_cases ends : endsWithLineFeed value = true
  · rw [if_pos ends, if_pos ends]
    rfl
  · rw [if_neg ends, if_neg ends]
    rfl

theorem ends_split {shown : Text} (ends : shown = [] ∨ endsWithLineFeed shown = true) : (shown.splitOn '\n').getLast? = some [] := by
  rcases ends with rfl | ends
  · rfl
  · obtain ⟨before, split⟩ := List.getLast?_eq_some_iff.mp (of_decide_eq_true ends)
    have last : before.splitOn '\n' ++ List.splitOn '\n' [] = before.splitOn '\n' ++ [[]] := rfl
    rw [split, List.splitOn_append_cons_self, last, List.getLast?_concat]

-- The last line of a response that is not cut is the last of the file.
theorem endLine_whole (filled : value ≠ []) (fit : Fit (budgetedLines (splitLines value) ++ lastPiece value)) :
    (splitLines value).length ≤ endLineForText (['\n'].intercalate (budgetedLines (splitLines value) ++ lastPiece value)) := by
  have counted := fit.count
  have positive := List.length_pos_of_ne_nil (splitLines_filled filled)
  rw [List.length_append, budgeted_length, lastPiece_length] at counted
  rw [endLineForText]
  by_cases ends : endsWithLineFeed value = true
  · rw [if_pos ends] at counted
    have some_text : ['\n'].intercalate (budgetedLines (splitLines value) ++ lastPiece value) ≠ [] := by
      intro empty
      rw [empty, List.count_nil] at counted
      omega
    rw [if_neg some_text]
    by_cases shown : endsWithLineFeed (['\n'].intercalate (budgetedLines (splitLines value) ++ lastPiece value)) = true
    · rw [if_pos shown]
      omega
    · rw [if_neg shown]
      omega
  · rw [if_neg ends] at counted
    have open_ : ¬(['\n'].intercalate (budgetedLines (splitLines value) ++ lastPiece value) = [] ∨
        endsWithLineFeed (['\n'].intercalate (budgetedLines (splitLines value) ++ lastPiece value)) = true) := by
      intro shown
      have last := ends_split shown
      have no_piece : lastPiece value = [] := if_neg ends
      rw [fit.split, no_piece, List.append_nil, List.getLast?_eq_getElem?, budgeted_length] at last
      have empty := budgeted_empty last
      rw [← List.getLast?_eq_getElem?] at empty
      have whole := splitLines_split filled
      rw [no_piece, List.append_nil] at whole
      rw [← whole] at empty
      exact last_piece filled (fun feed => ends (decide_eq_true feed)) empty
    rw [if_neg (fun empty => open_ (.inl empty)), if_neg (fun feed => open_ (.inr feed))]
    omega

theorem readWholeText_step (filled : value ≠ []) (bounded : unitLength value < 2 ^ 53) (budget : 2 * maxLineBytes ≤ maxBytes) :
    ReadStep (splitLines value) 1 (readWholeText value maxBytes) := by
  have fit : Fit (budgetedLines (splitLines value) ++ lastPiece value) := by
    apply fit_lines filled bounded
    · intro empty
      have length := budgeted_length (splitLines value)
      rw [(List.append_eq_nil_iff.mp empty).1] at length
      exact splitLines_filled filled (List.eq_nil_of_length_eq_zero length.symm)
    · intro line listed
      rcases List.mem_append.mp listed with own | last
      · exact .inl own
      · rw [lastPiece] at last
        obtain ⟨_, last⟩ := List.mem_ite_nil_right.mp last
        exact .inr (List.mem_singleton.mp last)
  have length := budgeted_length (splitLines value)
  have pieces : (lastPiece value).length ≤ 1 := by
    rw [lastPiece_length]
    by_cases ends : endsWithLineFeed value = true
    · rw [if_pos ends]
    · rw [if_neg ends]
      omega
  have own {n : Nat} (positive : 1 ≤ n) (within : n ≤ (splitLines value).length) :
      (budgetedLines (splitLines value) ++ lastPiece value)[n - 1]? = (budgetedLines (splitLines value))[n - 1]? :=
    List.getElem?_append_left (by omega)
  have numbers {endLine n : Nat} (before : n ≤ endLine) : ∀ number ∈ clampedNumbers (splitLines value), number = n →
      number ∈ ((clampLongLines (splitLines value)).elim [] Prod.snd).filter fun line => line ≤ endLine := by
    intro number listed same
    exact List.mem_filter.mpr ⟨listed, decide_eq_true (same ▸ before)⟩
  rw [readWholeText]
  simp only [whole_body filled]
  by_cases large : textBytes (['\n'].intercalate (budgetedLines (splitLines value) ++ lastPiece value)) ≤ maxBytes
  · have last := endLine_whole filled fit
    rw [capTextOutput, if_pos large]
    constructor
    · intro _ n positive within
      apply delivers_budgeted (Nat.le_refl 1) positive within
      · simp only [fit.split]
        exact own positive within
      · exact numbers (Nat.le_trans within last)
    · intro next resumed
      cases resumed
  · have cut := fit.cut budget large
    have within := cut.within
    rw [List.length_append] at within
    rw [capTextOutput_cut large]
    constructor
    · intro resumed
      cases resumed
    · intro next resumed
      cases resumed
      refine ⟨cut.progress, cut.progress, Nat.le_trans within (by omega), ?_⟩
      intro n positive before inside
      have earlier : n - 1 + 1 < endLineForText (takeBytes maxBytes (['\n'].intercalate (budgetedLines (splitLines value) ++ lastPiece value))) := by
        rw [Nat.sub_add_cancel positive]
        exact before
      apply delivers_budgeted (Nat.le_refl 1) positive inside
      · simp only
        rw [cut.whole (n - 1) earlier, own positive inside]
      · exact numbers (Nat.le_of_lt before)

end Reads

section Windows

variable {value : Text} {maxBytes : Nat} {window : FileReadWindowParams}

def firstLine (window : FileReadWindowParams) : Nat := max 1 (window.startLine.getD 1)

def windowStart (window : FileReadWindowParams) (lines : List Text) : Nat := min (budgetedLines lines).length (window.startLine.getD 1 - 1)

def windowEnd (window : FileReadWindowParams) (lines : List Text) : Nat :=
  window.maxLines.elim (budgetedLines lines).length fun maxLines => min (budgetedLines lines).length (windowStart window lines + maxLines)

def selectedLines (window : FileReadWindowParams) (lines : List Text) : List Text :=
  ((budgetedLines lines).take (windowEnd window lines)).drop (windowStart window lines)

-- What the tools promise of a window.
def FileReadWindowParams.promised (window : FileReadWindowParams) : Prop := ∀ maxLines, window.maxLines = some maxLines → 1 ≤ maxLines

-- The lines of a window that starts in the file.
structure Selected (window : FileReadWindowParams) (lines : List Text) : Prop where
  start : windowStart window lines + 1 = firstLine window
  before : windowStart window lines < windowEnd window lines
  within : windowEnd window lines ≤ lines.length
  length : windowStart window lines + (selectedLines window lines).length = windowEnd window lines
  own : ∀ i, i < (selectedLines window lines).length → (selectedLines window lines)[i]? = (budgetedLines lines)[windowStart window lines + i]?

theorem selected_inside {lines : List Text} (filled : lines ≠ []) (promised : window.promised)
    (inside : (window.startLine.any fun startLine => lines.length < startLine) ≠ true) : Selected window lines := by
  have positive := List.length_pos_of_ne_nil filled
  have length := budgeted_length lines
  have start : windowStart window lines + 1 = firstLine window := by
    rw [windowStart, firstLine, length]
    cases given : window.startLine with
    | none =>
        simp only [Option.getD_none]
        omega
    | some first =>
        have low : first ≤ lines.length := by
          apply Nat.le_of_not_lt
          intro beyond
          rw [given] at inside
          exact inside (decide_eq_true beyond)
        simp only [Option.getD_some]
        omega
  have below : windowStart window lines < lines.length := by
    rw [firstLine] at start
    cases given : window.startLine with
    | none =>
        rw [given, Option.getD_none] at start
        omega
    | some first =>
        have low : first ≤ lines.length := by
          apply Nat.le_of_not_lt
          intro beyond
          rw [given] at inside
          exact inside (decide_eq_true beyond)
        rw [given, Option.getD_some] at start
        omega
  have ends : windowStart window lines < windowEnd window lines ∧ windowEnd window lines ≤ lines.length := by
    rw [windowEnd, length]
    cases limit : window.maxLines with
    | none => exact ⟨below, Nat.le_refl _⟩
    | some maxLines =>
        have some_lines := promised maxLines limit
        simp only [Option.elim_some]
        omega
  have selected : (selectedLines window lines).length = windowEnd window lines - windowStart window lines := by
    rw [selectedLines, List.length_drop, List.length_take, length]
    omega
  refine ⟨start, ends.1, ends.2, by omega, ?_⟩
  intro i before
  rw [selectedLines, List.getElem?_drop, List.getElem?_take_of_lt (by omega)]

variable {lines : List Text}

theorem Selected.filled (selected : Selected window lines) : selectedLines window lines ≠ [] := by
  intro empty
  have length := selected.length
  have before := selected.before
  rw [empty, List.length_nil] at length
  omega

theorem Selected.line (selected : Selected window lines) {n : Nat} (after : windowStart window lines + 1 ≤ n) (limit : n ≤ windowEnd window lines) :
    (selectedLines window lines)[n - (windowStart window lines + 1)]? = (budgetedLines lines)[n - 1]? := by
  have length := selected.length
  have same : windowStart window lines + (n - (windowStart window lines + 1)) = n - 1 := by omega
  rw [selected.own _ (by omega), same]

theorem clamped_within {endLine n : Nat} (after : windowStart window lines + 1 ≤ n) (limit : n ≤ endLine) :
    ∀ number ∈ clampedNumbers lines, number = n →
      number ∈ (clampedNumbers lines).filter fun line => windowStart window lines + 1 ≤ line && line ≤ endLine := by
  intro number listed same
  apply List.mem_filter.mpr
  rw [Bool.and_eq_true, decide_eq_true_iff, decide_eq_true_iff, same]
  exact ⟨same ▸ listed, after, limit⟩

-- A read within the file, from its capped text.
def windowOutput (value : Text) (window : FileReadWindowParams) (capped : CappedTextOutput) : FileReadOutput :=
  let lines := splitLines value
  let startIdx := windowStart window lines
  let lineWindowTruncated := windowEnd window lines < lines.length
  let endLine :=
    if capped.truncated ∧ selectedLines window lines ≠ [] then startIdx + 1 + endLineForText capped.content - 1
    else startIdx + (selectedLines window lines).length
  { content := capped.content
    size := textBytes value
    startLine := startIdx + 1
    endLine := endLine
    truncated := capped.truncated || lineWindowTruncated
    returnedBytes := capped.returnedBytes
    truncationReason := capped.truncationReason.or (if lineWindowTruncated then some lineWindowTruncationReason else none)
    resumeStartLine := if capped.truncated then some endLine else if lineWindowTruncated then some (endLine + 1) else none
    clampedLines := (clampedNumbers lines).filter fun line => startIdx + 1 ≤ line && line ≤ endLine
    note :=
      if capped.truncated then some (byteBudgetNote endLine lines.length)
      else if lineWindowTruncated then some (lineWindowNote endLine lines.length) else none }

theorem readTextWindow_inside (inside : (window.startLine.any fun startLine => (splitLines value).length < startLine) ≠ true) :
    readTextWindow value maxBytes window = windowOutput value window
      (capTextOutput (['\n'].intercalate (selectedLines window (splitLines value))) maxBytes responseByteBudgetTruncationReason) := by
  rw [readTextWindow, if_neg inside]
  rfl

def responseText (window : FileReadWindowParams) (lines : List Text) : Text := ['\n'].intercalate (selectedLines window lines)

theorem uncut_step (selected : Selected window (splitLines value)) (fit : Fit (selectedLines window (splitLines value))) (returnedBytes : Nat) :
    ReadStep (splitLines value) (firstLine window) (windowOutput value window ⟨responseText window (splitLines value), false, returnedBytes, none⟩) := by
  have within := selected.within
  have length := selected.length
  have before := selected.before
  have delivered {n : Nat} (after : windowStart window (splitLines value) + 1 ≤ n) (limit : n ≤ windowEnd window (splitLines value)) :
      Delivers (splitLines value) (windowOutput value window ⟨responseText window (splitLines value), false, returnedBytes, none⟩) n := by
    apply delivers_budgeted (Nat.le_add_left 1 _) after (Nat.le_trans limit within)
    · simp only [windowOutput, responseText, fit.split]
      exact selected.line after limit
    · exact clamped_within after (Nat.le_trans limit (Nat.le_of_eq length.symm))
  have resume : (windowOutput value window ⟨responseText window (splitLines value), false, returnedBytes, none⟩).resumeStartLine =
      if windowEnd window (splitLines value) < (splitLines value).length then
        some (windowStart window (splitLines value) + (selectedLines window (splitLines value)).length + 1) else none := rfl
  rw [← selected.start]
  by_cases more : windowEnd window (splitLines value) < (splitLines value).length
  · rw [if_pos more] at resume
    constructor
    · intro ended
      rw [resume] at ended
      cases ended
    · intro next resumed
      rw [resume] at resumed
      cases resumed
      have first : windowStart window (splitLines value) + 1 < windowStart window (splitLines value) +
          (selectedLines window (splitLines value)).length + 1 := by omega
      refine ⟨first, first, by omega, ?_⟩
      intro n after earlier _
      exact delivered after (by omega)
  · rw [if_neg more] at resume
    constructor
    · intro _ n after inside
      exact delivered after (by omega)
    · intro next resumed
      rw [resume] at resumed
      cases resumed

theorem cut_step (selected : Selected window (splitLines value)) {content : Text} (cut : CutBehind (selectedLines window (splitLines value)) content (endLineForText content))
    (returnedBytes : Nat) (reason : Option Text) :
    ReadStep (splitLines value) (firstLine window) (windowOutput value window ⟨content, true, returnedBytes, reason⟩) := by
  have within := selected.within
  have length := selected.length
  have progress := cut.progress
  have limit := cut.within
  have endLine : (windowOutput value window ⟨content, true, returnedBytes, reason⟩).endLine =
      windowStart window (splitLines value) + 1 + endLineForText content - 1 := if_pos ⟨rfl, selected.filled⟩
  rw [← selected.start]
  constructor
  · intro ended
    cases ended
  · intro next resumed
    have same : next = windowStart window (splitLines value) + 1 + endLineForText content - 1 := by
      rw [← endLine]
      exact (Option.some.inj resumed).symm
    have first : windowStart window (splitLines value) + 1 < next := by omega
    refine ⟨first, first, by omega, ?_⟩
    intro n after earlier inside
    apply delivers_budgeted (Nat.le_add_left 1 _) after inside
    · have whole := cut.whole (n - (windowStart window (splitLines value) + 1)) (by omega)
      exact whole.trans (selected.line after (by omega))
    · have limited : n ≤ (windowOutput value window ⟨content, true, returnedBytes, reason⟩).endLine := by
        rw [endLine]
        omega
      exact clamped_within after limited

theorem readTextWindow_step (filled : value ≠ []) (bounded : unitLength value < 2 ^ 53) (budget : 2 * maxLineBytes ≤ maxBytes)
    (promised : window.promised) : ReadStep (splitLines value) (firstLine window) (readTextWindow value maxBytes window) := by
  by_cases beyond : (window.startLine.any fun startLine => (splitLines value).length < startLine) = true
  · rw [readTextWindow, if_pos beyond]
    constructor
    · intro _ n after within
      cases given : window.startLine with
      | none =>
          rw [given] at beyond
          cases beyond
      | some first =>
          rw [given] at beyond
          have more : (splitLines value).length < first := of_decide_eq_true beyond
          rw [firstLine, given, Option.getD_some] at after
          omega
    · intro next resumed
      cases resumed
  · have selected := selected_inside (splitLines_filled filled) promised beyond
    have fit : Fit (selectedLines window (splitLines value)) :=
      fit_lines filled bounded selected.filled fun line listed => .inl (List.mem_of_mem_take (List.mem_of_mem_drop listed))
    rw [readTextWindow_inside beyond]
    by_cases small : textBytes (['\n'].intercalate (selectedLines window (splitLines value))) ≤ maxBytes
    · rw [capTextOutput, if_pos small]
      exact uncut_step selected fit _
    · rw [capTextOutput_cut small]
      exact cut_step selected (fit.cut budget small) _ _

-- The lines of a file; an empty file has none.
def fileLines (value : Text) : List Text := if value = [] then [] else splitLines value

theorem readText_step (bounded : unitLength value < 2 ^ 53) (budget : 2 * maxLineBytes ≤ maxBytes) (promised : window.promised) :
    ReadStep (fileLines value) (firstLine window) (readTextWithOutputBudget value maxBytes window) := by
  rw [readTextWithOutputBudget]
  by_cases empty : value = []
  · subst empty
    constructor
    · intro _ n after within
      have positive : 1 ≤ firstLine window := Nat.le_max_left _ _
      have none_there : (fileLines []).length = 0 := rfl
      omega
    · intro next resumed
      cases resumed
  · have some_bytes : textBytes value ≠ 0 := by
      obtain ⟨c, rest, rfl⟩ := List.exists_cons_of_ne_nil empty
      have positive := c.utf8Size_pos
      rw [textBytes_cons]
      omega
    rw [if_neg some_bytes, fileLines, if_neg empty]
    by_cases whole : (window.startLine.isNone && window.maxLines.isNone) = true
    · rw [if_pos whole]
      rw [Bool.and_eq_true, Option.isNone_iff_eq_none] at whole
      have first : firstLine window = 1 := by
        rw [firstLine, whole.1]
        rfl
      rw [first]
      exact readWholeText_step empty bounded budget
    · rw [if_neg whole]
      exact readTextWindow_step empty bounded budget promised

end Windows

section Runs

variable {value : Text} {maxBytes : Nat} {read : FileReadWindowParams → BudgetedRead}

-- The pieces of reads that follow one another from a line on.
structure Resumed (lines : List Text) (start : Nat) (pieces : List FileReadOutput) (stop : Option BudgetedRead) : Prop where
  progress : ∀ piece ∈ pieces, ∀ next, piece.resumeStartLine = some next → piece.startLine < next
  covers : stop = none → ∀ n, start ≤ n → n ≤ lines.length → ∃ piece ∈ pieces, Delivers lines piece n

theorem Resumed.last {lines : List Text} {start : Nat} {output : FileReadOutput} (step : ReadStep lines start output)
    (ended : output.resumeStartLine = none) : Resumed lines start [output] none where
  progress := by
    intro piece listed next resumed
    rw [List.mem_singleton.mp listed, ended] at resumed
    cases resumed
  covers := fun _ n after within => ⟨output, List.mem_singleton_self _, step.ended ended n after within⟩

theorem Resumed.cons {lines : List Text} {start next : Nat} {output : FileReadOutput} {pieces : List FileReadOutput} {stop : Option BudgetedRead}
    (step : ReadStep lines start output) (resumed : output.resumeStartLine = some next) (later : Resumed lines next pieces stop) :
    Resumed lines start (output :: pieces) stop where
  progress := by
    intro piece listed other again
    rcases List.mem_cons.mp listed with rfl | listed
    · exact (step.resumed other again).2.1
    · exact later.progress piece listed other again
  covers := by
    intro whole n after within
    by_cases before : n < next
    · exact ⟨output, List.mem_cons_self, (step.resumed next resumed).2.2.2 n after before within⟩
    · obtain ⟨piece, listed, delivered⟩ := later.covers whole n (Nat.le_of_not_lt before) within
      exact ⟨piece, List.mem_cons_of_mem _ listed, delivered⟩

-- Each read starts behind the one before it, so that the fuel is the number of lines that are left.
theorem followReads_resumed (steps : ∀ window output, window.promised → read window = .read output → ReadStep (fileLines value) (firstLine window) output)
    (fuel : Nat) (window : FileReadWindowParams) (promised : window.promised) (enough : (fileLines value).length + 1 - firstLine window < fuel) :
    ∃ pieces stop, followReads read fuel window = some (pieces, stop) ∧ Resumed (fileLines value) (firstLine window) pieces stop ∧
      ∀ result, stop = some result → ∃ window, read window = result ∧ ∀ output, result ≠ .read output := by
  induction fuel generalizing window with
  | zero => omega
  | succ fuel ih =>
      rw [followReads]
      cases done : read window with
      | refused kind reason =>
          refine ⟨[], some (.refused kind reason), rfl, ⟨fun piece listed => absurd listed List.not_mem_nil, fun whole => by cases whole⟩, ?_⟩
          intro result stopped
          cases stopped
          exact ⟨window, done, fun output same => by cases same⟩
      | spilled content =>
          refine ⟨[], some (.spilled content), rfl, ⟨fun piece listed => absurd listed List.not_mem_nil, fun whole => by cases whole⟩, ?_⟩
          intro result stopped
          cases stopped
          exact ⟨window, done, fun output same => by cases same⟩
      | read output =>
          have step := steps window output promised done
          cases resume : output.resumeStartLine with
          | none => exact ⟨[output], none, by simp only [resume], .last step resume, fun result stopped => by cases stopped⟩
          | some next =>
              obtain ⟨forward, _, within, _⟩ := step.resumed next resume
              have first : firstLine { window with startLine := some next } = next := by
                rw [firstLine, Option.getD_some]
                omega
              obtain ⟨pieces, stop, followed, resumed, stopped⟩ := ih { window with startLine := some next } promised (by omega)
              rw [first] at resumed
              exact ⟨output :: pieces, stop, by simp only [resume, followed, Option.map_some], .cons step resume resumed, stopped⟩

end Runs
end PrAgent
