import PrAgent.ReadResumesExact
set_option autoImplicit false

namespace PrAgent

section Cut

variable {budget : Nat} {body : Text}

-- The index of the line that a budget ends in, where a part of the line is shown and a part is not.
def cutLine (budget : Nat) (body : Text) : Option Nat :=
  let shown := takeBytes budget body
  if shown = [] ∨ endsWithLineFeed shown = true ∨ ((body.drop shown.length).head?.all fun c => c = '\n') = true then none
  else some (shown.count '\n')

theorem capTextOutput_content (value : Text) (maxBytes : Nat) (reason : Text) :
    (capTextOutput value maxBytes reason).content = takeBytes maxBytes value := by
  by_cases small : textBytes value ≤ maxBytes
  · rw [capTextOutput, if_pos small]
    exact (takeBytes_whole small).symm
  · rw [capTextOutput_cut small]

theorem whole_before_cut {rest : Text} {i : Nat} (split : body = takeBytes budget body ++ rest) (before : i < (takeBytes budget body).count '\n') :
    ((takeBytes budget body).splitOn '\n')[i]? = (body.splitOn '\n')[i]? := by
  have part := splitOn_part '\n' (takeBytes budget body) rest before
  rw [← split] at part
  exact part

-- A line of the shown text is a line of the text, but for the one that the budget ends in.
theorem shown_line {i : Nat} (inside : i ≤ (takeBytes budget body).count '\n') (filled : takeBytes budget body ≠ [])
    (last : endsWithLineFeed (takeBytes budget body) = true → i < (takeBytes budget body).count '\n') (uncut : cutLine budget body ≠ some i) :
    ((takeBytes budget body).splitOn '\n')[i]? = (body.splitOn '\n')[i]? := by
  obtain ⟨rest, split⟩ := takeBytes_split budget body
  by_cases before : i < (takeBytes budget body).count '\n'
  · exact whole_before_cut split before
  · have here : i = (takeBytes budget body).count '\n' := by omega
    have open_ : endsWithLineFeed (takeBytes budget body) ≠ true := fun ends => before (last ends)
    have hidden : body.drop (takeBytes budget body).length = rest := (congrArg (List.drop _) split).trans List.drop_left
    cases rest with
    | nil =>
        rw [List.append_nil] at split
        rw [← split]
    | cons c rest =>
        have feed : c = '\n' := by
          apply Classical.byContradiction
          intro other
          apply uncut
          rw [cutLine, hidden]
          simp only [List.head?_cons, Option.all_some, decide_eq_true_iff]
          rw [if_neg (by simp [filled, open_, other]), here]
        have pieces : (takeBytes budget body ++ '\n' :: rest).splitOn '\n' = (takeBytes budget body).splitOn '\n' ++ rest.splitOn '\n' :=
          List.splitOn_append_cons_self ..
        have counted := splitOn_count '\n' (takeBytes budget body)
        conv_rhs => rw [split, feed, pieces]
        rw [List.getElem?_append_left (by omega)]

end Cut

section Body

variable {value : Text} {budget : Nat} {window : FileReadWindowParams}

def readsWhole (window : FileReadWindowParams) : Bool := window.startLine.isNone && window.maxLines.isNone

-- The lines of a read before the byte budget, and the number of the first one.
def bodyLines (value : Text) (window : FileReadWindowParams) : List Text :=
  if readsWhole window then budgetedLines (splitLines value) ++ lastPiece value else selectedLines window (splitLines value)

def bodyStart (value : Text) (window : FileReadWindowParams) : Nat := if readsWhole window then 1 else windowStart window (splitLines value) + 1

def readBody (value : Text) (window : FileReadWindowParams) : Text := ['\n'].intercalate (bodyLines value window)

-- The budget ends in no line, or in one that is clamped.
def cutsNoLine (budget : Nat) (value : Text) (window : FileReadWindowParams) : Bool :=
  (cutLine budget (readBody value window)).all fun i => (clampedNumbers (splitLines value)).contains (bodyStart value window + i)

theorem budgeted_single (filled : value ≠ []) {line : Text} (listed : line ∈ budgetedLines (splitLines value)) : '\n' ∉ line := by
  have own {line : Text} (listed : line ∈ splitLines value) : '\n' ∉ line := (splitOn_piece (splitLines_mem filled listed)).1
  by_cases long : (splitLines value).any isLongLine = true
  · rw [(budgeted_long long).1] at listed
    obtain ⟨i, inside, same⟩ := List.mem_mapIdx.mp listed
    rw [← same]
    by_cases clamped : isLongLine (splitLines value)[i] = true
    · rw [if_pos clamped]
      exact clampMarker_plain _ _
    · rw [if_neg clamped]
      exact own (List.getElem_mem inside)
  · rw [budgeted_short long] at listed
    exact own listed

theorem body_single (filled : value ≠ []) {line : Text} (listed : line ∈ bodyLines value window) : '\n' ∉ line := by
  rw [bodyLines] at listed
  by_cases whole : readsWhole window = true
  · rw [if_pos whole] at listed
    rcases List.mem_append.mp listed with own | last
    · exact budgeted_single filled own
    · rw [lastPiece] at last
      obtain ⟨_, last⟩ := List.mem_ite_nil_right.mp last
      rw [List.mem_singleton.mp last]
      exact List.not_mem_nil
  · rw [if_neg whole] at listed
    exact budgeted_single filled (List.mem_of_mem_take (List.mem_of_mem_drop listed))

theorem body_split (filled : value ≠ []) (some_line : bodyLines value window ≠ []) :
    (readBody value window).splitOn '\n' = bodyLines value window :=
  List.splitOn_intercalate '\n' (fun _ listed => body_single filled listed) some_line

theorem selected_length (window : FileReadWindowParams) (lines : List Text) :
    windowStart window lines + (selectedLines window lines).length ≤ lines.length := by
  have length := budgeted_length lines
  have start : windowStart window lines ≤ lines.length := by
    rw [windowStart, length]
    exact Nat.min_le_left _ _
  rw [selectedLines, List.length_drop, List.length_take, length]
  omega

-- The lines of the body are those of the file, with the markers.
theorem body_line {n : Nat} (after : bodyStart value window ≤ n) (within : n ≤ (splitLines value).length)
    (inside : n - bodyStart value window < (bodyLines value window).length) :
    (bodyLines value window)[n - bodyStart value window]? = (budgetedLines (splitLines value))[n - 1]? := by
  have length := budgeted_length (splitLines value)
  rw [bodyLines] at inside ⊢
  rw [bodyStart] at after inside ⊢
  by_cases whole : readsWhole window = true
  · rw [if_pos whole] at after
    rw [if_pos whole, if_pos whole, List.getElem?_append_left (by omega)]
  · rw [if_neg whole] at after
    rw [if_neg whole, if_neg whole, selectedLines] at inside
    rw [if_neg whole, if_neg whole, selectedLines, List.getElem?_drop]
    rw [List.length_drop, List.length_take] at inside
    rw [List.getElem?_take_of_lt (by omega)]
    congr 1
    omega

end Body

section Reads

variable {value : Text} {budget : Nat} {window : FileReadWindowParams} {output : FileReadOutput}

-- What a read gives of its body.
structure BodyRead (value : Text) (window : FileReadWindowParams) (budget : Nat) (output : FileReadOutput) : Prop where
  content : output.content = takeBytes budget (readBody value window)
  start : output.startLine = bodyStart value window
  within : output.endLine ≤ (splitLines value).length
  inside : output.endLine < output.startLine + (output.content.splitOn '\n').length
  last : endsWithLineFeed output.content = true → output.content ≠ readBody value window →
    output.endLine < output.startLine + output.content.count '\n'
  clamped : ∀ number ∈ clampedNumbers (splitLines value), output.startLine ≤ number → number ≤ output.endLine → number ∈ output.clampedLines

theorem endLine_feed {shown : Text} (ends : endsWithLineFeed shown = true) : endLineForText shown = shown.count '\n' := by
  have last : shown.getLast? = some '\n' := of_decide_eq_true ends
  have positive : 0 < shown.count '\n' := List.count_pos_iff.mpr (List.mem_of_getLast? last)
  have filled : shown ≠ [] := by
    rintro rfl
    cases last
  rw [endLineForText, if_neg filled, if_pos ends]
  omega

-- The last line of the text that is shown is one of the file.
theorem endLine_within (filled : value ≠ []) {shown rest : Text}
    (split : ['\n'].intercalate (budgetedLines (splitLines value) ++ lastPiece value) = shown ++ rest) :
    endLineForText shown ≤ (splitLines value).length := by
  have length := budgeted_length (splitLines value)
  have positive := List.length_pos_of_ne_nil (splitLines_filled filled)
  have some_line : budgetedLines (splitLines value) ≠ [] := by
    intro empty
    rw [empty] at length
    exact splitLines_filled filled (List.eq_nil_of_length_eq_zero length.symm)
  have counted : shown.count '\n' + rest.count '\n' + 1 = (splitLines value).length + (lastPiece value).length := by
    have pieces := splitOn_count '\n' (['\n'].intercalate (budgetedLines (splitLines value) ++ lastPiece value))
    have whole : (['\n'].intercalate (budgetedLines (splitLines value) ++ lastPiece value)).splitOn '\n' =
        budgetedLines (splitLines value) ++ lastPiece value := @body_split value ⟨none, none⟩ filled (by
      have both : readsWhole ⟨none, none⟩ = true := rfl
      rw [bodyLines, if_pos both]
      exact fun empty => some_line (List.append_eq_nil_iff.mp empty).1)
    rw [whole, split, List.count_append, List.length_append, length] at pieces
    omega
  by_cases ends : endsWithLineFeed shown = true
  · have piece : (lastPiece value).length ≤ 1 := by
      rw [lastPiece_length]
      by_cases feed : endsWithLineFeed value = true
      · rw [if_pos feed]
      · rw [if_neg feed]
        omega
    rw [endLine_feed ends]
    omega
  · have limit := endLine_count shown
    rw [lastPiece_length] at counted
    by_cases feed : endsWithLineFeed value = true
    · rw [if_pos feed] at counted
      rw [lastPiece, if_pos feed, intercalate_concat some_line] at split
      have some_rest : rest ≠ [] := by
        rintro rfl
        rw [List.append_nil] at split
        apply ends
        rw [← split, endsWithLineFeed, List.getLast?_concat]
        rfl
      have last : rest.getLast? = some '\n' := by
        have whole := congrArg List.getLast? split
        rw [List.getLast?_concat, List.getLast?_append_of_ne_nil _ some_rest] at whole
        exact whole.symm
      have more : 0 < rest.count '\n' := List.count_pos_iff.mpr (List.mem_of_getLast? last)
      omega
    · rw [if_neg feed] at counted
      omega

theorem whole_read (filled : value ≠ []) (whole : readsWhole window = true) :
    BodyRead value window budget (readWholeText value budget) := by
  have body : readBody value window = ['\n'].intercalate (budgetedLines (splitLines value) ++ lastPiece value) := by
    rw [readBody, bodyLines, if_pos whole]
  have content : (readWholeText value budget).content = takeBytes budget (readBody value window) := by
    rw [readWholeText, body]
    simp only [whole_body filled, capTextOutput_content]
  have endLine : (readWholeText value budget).endLine = endLineForText (readWholeText value budget).content := rfl
  have startLine : (readWholeText value budget).startLine = 1 := rfl
  have limit := endLine_count (readWholeText value budget).content
  have pieces := splitOn_count '\n' (readWholeText value budget).content
  obtain ⟨rest, split⟩ := takeBytes_split budget (readBody value window)
  constructor
  · exact content
  · rw [startLine, bodyStart, if_pos whole]
  · rw [endLine]
    apply @endLine_within value filled _ rest
    rw [content, ← split, body]
  · omega
  · intro ends _
    rw [endLine, endLine_feed ends]
    omega
  · intro number listed _ before
    exact List.mem_filter.mpr ⟨listed, decide_eq_true before⟩

theorem window_read (filled : value ≠ []) (partial_ : readsWhole window ≠ true) (some_text : (readTextWindow value budget window).content ≠ []) :
    BodyRead value window budget (readTextWindow value budget window) := by
  have body : readBody value window = ['\n'].intercalate (selectedLines window (splitLines value)) := by
    rw [readBody, bodyLines, if_neg partial_]
  by_cases beyond : (window.startLine.any fun startLine => (splitLines value).length < startLine) = true
  · rw [readTextWindow, if_pos beyond] at some_text
    exact absurd rfl some_text
  · rw [readTextWindow_inside beyond] at some_text ⊢
    rw [← body] at some_text ⊢
    have content : (windowOutput value window (capTextOutput (readBody value window) budget responseByteBudgetTruncationReason)).content =
        takeBytes budget (readBody value window) := capTextOutput_content _ _ _
    have some_line : selectedLines window (splitLines value) ≠ [] := by
      intro empty
      rw [content, body, empty] at some_text
      exact some_text (by cases budget <;> rfl)
    have length := selected_length window (splitLines value)
    have counted : (readBody value window).count '\n' + 1 = (selectedLines window (splitLines value)).length := by
      have lines : bodyLines value window = selectedLines window (splitLines value) := if_neg partial_
      rw [← splitOn_count, body_split filled (lines ▸ some_line), lines]
    have limit := endLine_count (takeBytes budget (readBody value window))
    have pieces := splitOn_count '\n' (takeBytes budget (readBody value window))
    obtain ⟨rest, split⟩ := takeBytes_split budget (readBody value window)
    have fewer : (takeBytes budget (readBody value window)).count '\n' ≤ (readBody value window).count '\n' := by
      conv_rhs => rw [split]
      rw [List.count_append]
      omega
    have startLine : (windowOutput value window (capTextOutput (readBody value window) budget responseByteBudgetTruncationReason)).startLine =
        windowStart window (splitLines value) + 1 := rfl
    have clamped {number : Nat} (listed : number ∈ clampedNumbers (splitLines value)) :=
      @clamped_within window (splitLines value)
        (windowOutput value window (capTextOutput (readBody value window) budget responseByteBudgetTruncationReason)).endLine number
    by_cases small : textBytes (readBody value window) ≤ budget
    · have whole := takeBytes_whole small
      have endLine : (windowOutput value window (capTextOutput (readBody value window) budget responseByteBudgetTruncationReason)).endLine =
          windowStart window (splitLines value) + (selectedLines window (splitLines value)).length := by
        have uncut : ¬(false = true ∧ selectedLines window (splitLines value) ≠ []) := fun cut => Bool.false_ne_true cut.1
        rw [capTextOutput, if_pos small]
        simp only [windowOutput]
        rw [if_neg uncut]
      constructor
      · exact content
      · rw [startLine, bodyStart, if_neg partial_]
      · omega
      · rw [content, endLine, startLine, pieces, whole]
        omega
      · intro _ other
        exact absurd (content.trans whole) other
      · intro number listed after before
        exact clamped listed after before number listed rfl
    · have endLine : (windowOutput value window (capTextOutput (readBody value window) budget responseByteBudgetTruncationReason)).endLine =
          windowStart window (splitLines value) + 1 + endLineForText (takeBytes budget (readBody value window)) - 1 := by
        rw [capTextOutput_cut small]
        exact if_pos ⟨rfl, some_line⟩
      constructor
      · exact content
      · rw [startLine, bodyStart, if_neg partial_]
      · omega
      · rw [content]
        omega
      · intro ends _
        rw [content] at ends ⊢
        have feed := endLine_feed ends
        omega
      · intro number listed after before
        exact clamped listed after before number listed rfl

theorem read_body (some_text : (readTextWithOutputBudget value budget window).content ≠ []) :
    value ≠ [] ∧ BodyRead value window budget (readTextWithOutputBudget value budget window) := by
  rw [readTextWithOutputBudget] at some_text ⊢
  by_cases empty : textBytes value = 0
  · rw [if_pos empty] at some_text
    exact absurd rfl some_text
  · have filled : value ≠ [] := by
      rintro rfl
      exact empty rfl
    rw [if_neg empty] at some_text ⊢
    refine ⟨filled, ?_⟩
    by_cases whole : (window.startLine.isNone && window.maxLines.isNone) = true
    · rw [if_pos whole]
      exact whole_read filled whole
    · rw [if_neg whole] at some_text ⊢
      exact window_read filled whole some_text

variable {shown : Text} {n : Nat}

theorem bodyStart_positive (value : Text) (window : FileReadWindowParams) : 0 < bodyStart value window := by
  rw [bodyStart]
  by_cases whole : readsWhole window = true
  · rw [if_pos whole]
    exact Nat.one_pos
  · rw [if_neg whole]
    exact Nat.succ_pos _

-- A line that is whole in the body and not clamped is a line of the file.
theorem BodyRead.own (read : BodyRead value window budget output) (filled : value ≠ []) (some_text : output.content ≠ [])
    (after : output.startLine ≤ n) (before : n ≤ output.endLine) (unclamped : n ∉ output.clampedLines)
    (inside : n - output.startLine < (shown.splitOn '\n').length)
    (whole : (shown.splitOn '\n')[n - output.startLine]? = ((readBody value window).splitOn '\n')[n - output.startLine]?) :
    ∃ line, (splitLines value)[n - 1]? = some line ∧ (shown.splitOn '\n')[n - output.startLine]? = some line := by
  have positive := bodyStart_positive value window
  have within := Nat.le_trans before read.within
  have some_line : bodyLines value window ≠ [] := by
    intro empty
    rw [read.content, readBody, empty] at some_text
    exact some_text (by cases budget <;> rfl)
  have start := read.start
  obtain ⟨line, found⟩ : ∃ line, (shown.splitOn '\n')[n - output.startLine]? = some line := ⟨_, List.getElem?_eq_getElem inside⟩
  refine ⟨line, ?_, found⟩
  rw [found, body_split filled some_line] at whole
  obtain ⟨room, _⟩ := List.getElem?_eq_some_iff.mp whole.symm
  rw [start] at after room whole
  rw [body_line after within room] at whole
  have listed : n - 1 < (splitLines value).length := by omega
  rcases budgeted_line (splitLines value) listed with same | clamped
  · rw [same] at whole
    exact whole.symm
  · have number : n - 1 + 1 = n := by omega
    rw [number] at clamped
    exact absurd (read.clamped n clamped (start ▸ after) before) unclamped

theorem BodyRead.line (read : BodyRead value window budget output) (filled : value ≠ []) (some_text : output.content ≠ [])
    (cuts : cutsNoLine budget value window = true) (after : output.startLine ≤ n) (before : n ≤ output.endLine)
    (unclamped : n ∉ output.clampedLines) :
    ∃ line, (splitLines value)[n - 1]? = some line ∧ (output.content.splitOn '\n')[n - output.startLine]? = some line := by
  have pieces := splitOn_count '\n' output.content
  have limit := read.inside
  apply read.own filled some_text after before unclamped (by omega)
  by_cases whole : output.content = readBody value window
  · rw [whole]
  · rw [read.content] at some_text pieces limit ⊢
    apply shown_line (by omega) some_text
    · intro ends
      rw [← read.content] at ends ⊢
      have last := read.last ends whole
      omega
    · intro cut
      rw [cutsNoLine, cut, Option.all_some] at cuts
      have clamped := List.contains_iff_mem.mp cuts
      have number : bodyStart value window + (n - output.startLine) = n := by
        have start := read.start
        omega
      rw [number] at clamped
      exact unclamped (read.clamped n clamped after before)

-- Where a text is cut again, the lines before the one of the cut are whole.
theorem BodyRead.line_cut {room : Nat} (read : BodyRead value window budget output) (filled : value ≠ []) (some_text : output.content ≠ [])
    (after : output.startLine ≤ n) (before : n ≤ output.endLine) (unclamped : n ∉ output.clampedLines)
    (whole : n + 1 < output.startLine + ((takeBytes room output.content).splitOn '\n').length) :
    ∃ line, (splitLines value)[n - 1]? = some line ∧
      ((takeBytes room output.content).splitOn '\n')[n - output.startLine]? = some line := by
  have pieces := splitOn_count '\n' (takeBytes room output.content)
  obtain ⟨rest, split⟩ := takeBytes_split room output.content
  obtain ⟨more, parts⟩ := takeBytes_split budget (readBody value window)
  have fewer : (takeBytes room output.content).count '\n' ≤ output.content.count '\n' := by
    conv_rhs => rw [split]
    rw [List.count_append]
    omega
  apply read.own filled some_text after before unclamped (by omega)
  have low : n - output.startLine < output.content.count '\n' := by omega
  rw [whole_before_cut split (by omega)]
  rw [read.content] at low ⊢
  exact whole_before_cut parts low

end Reads
end PrAgent
