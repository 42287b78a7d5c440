import PrAgent.WorkspaceTools
set_option autoImplicit false

namespace PrAgent

section Take

theorem rightFrom_mem {n m : Nat} {lines : List DiffLine} (listed : n ∈ rightFrom m lines) :
    ∃ body line after, lines = body ++ line :: after ∧ line.right = true ∧ n = m + body.countP DiffLine.right := by
  induction lines generalizing m with
  | nil => cases listed
  | cons line lines ih =>
      rw [rightFrom] at listed
      cases right : line.right with
      | false =>
          rw [right, if_neg Bool.false_ne_true] at listed
          obtain ⟨body, found, after, rfl, side, same⟩ := ih listed
          refine ⟨line :: body, found, after, rfl, side, ?_⟩
          rw [List.countP_cons_of_neg (by simp [right]), same]
      | true =>
          rw [right, if_pos rfl] at listed
          rcases List.mem_cons.mp listed with rfl | listed
          · exact ⟨[], line, lines, rfl, right, rfl⟩
          · obtain ⟨body, found, after, rfl, side, same⟩ := ih listed
            refine ⟨line :: body, found, after, rfl, side, ?_⟩
            rw [List.countP_cons_of_pos right, same]
            omega

theorem rightEntries_mem (m : Nat) (body after : List DiffLine) {line : DiffLine} (right : line.right = true) :
    (m + body.countP DiffLine.right, line.content) ∈ rightEntries m (body ++ line :: after) := by
  induction body generalizing m with
  | nil =>
      rw [List.nil_append, rightEntries, right, if_pos rfl]
      exact List.mem_cons_self
  | cons first body ih =>
      rw [List.cons_append, rightEntries]
      cases side : first.right with
      | false =>
          rw [if_neg Bool.false_ne_true, List.countP_cons_of_neg (by simp [side])]
          exact ih m
      | true =>
          have number : m + (first :: body).countP DiffLine.right = m + 1 + body.countP DiffLine.right := by
            rw [List.countP_cons_of_pos side]
            omega
          rw [if_pos rfl, number]
          exact List.mem_cons_of_mem _ (ih (m + 1))

-- A number that is added stands for a line of a hunk, which is among the lines that are scanned.
theorem readTake_mem {n k : Nat} {hunks : List Hunk} (listed : n ∈ readTake k hunks) :
    ∃ hunk ∈ hunks, ∃ (before : List Text) (body : List DiffLine) (line : DiffLine) (after : List Text), (hunks.flatMap Hunk.textLines).take k = before ++ hunk.header :: (body.map DiffLine.text ++ line.text :: after) ∧
      line.right = true ∧ n = hunk.newStart + body.countP DiffLine.right ∧ (n, line.content) ∈ rightEntries hunk.newStart hunk.lines := by
  induction hunks generalizing k with
  | nil => cases k <;> cases listed
  | cons hunk rest ih =>
      cases k with
      | zero => cases listed
      | succ k =>
          rw [readTake] at listed
          rw [List.flatMap_cons, textLines_take]
          rcases List.mem_append.mp listed with here | later
          · obtain ⟨body, line, after, read, right, number⟩ := rightFrom_mem here
            obtain ⟨unread, taken⟩ : readLines (hunk.lines.take k) <+: hunk.lines.take k := List.takeWhile_prefix _
            have whole : hunk.lines = body ++ line :: (after ++ (unread ++ hunk.lines.drop k)) := by
              conv_lhs => rw [← List.take_append_drop k hunk.lines, ← taken, read]
              simp only [List.append_assoc, List.cons_append]
            have entry := rightEntries_mem hunk.newStart body (after ++ (unread ++ hunk.lines.drop k)) right
            rw [← whole, ← number] at entry
            refine ⟨hunk, List.mem_cons_self, [], body, line,
              (after ++ unread).map DiffLine.text ++ (rest.flatMap Hunk.textLines).take (k - hunk.lines.length), ?_, right, number, entry⟩
            rw [← taken, read]
            simp only [List.map_append, List.map_cons, List.append_assoc, List.cons_append, List.nil_append]
          · cases stopped : (hunk.lines.take k).any DiffLine.stops with
            | true =>
                rw [stopped, if_pos rfl] at later
                cases later
            | false =>
                rw [stopped, if_neg Bool.false_ne_true] at later
                obtain ⟨found, inside, before, body, line, after, split, right, number, entry⟩ := ih later
                refine ⟨found, List.mem_cons_of_mem hunk inside, hunk.header :: ((hunk.lines.take k).map DiffLine.text ++ before), body, line, after,
                  ?_, right, number, entry⟩
                rw [split]
                simp only [List.append_assoc, List.cons_append]

end Take

section Common

-- The first lines of two texts, as long as they are the same.
def commonLines : List Text → List Text → List Text
  | left :: lefts, right :: rights => if left = right then left :: commonLines lefts rights else []
  | _, _ => []

theorem commonLines_left (lefts rights : List Text) : commonLines lefts rights <+: lefts := by
  induction lefts generalizing rights with
  | nil => exact List.prefix_rfl
  | cons left lefts ih =>
      cases rights with
      | nil => exact List.nil_prefix
      | cons right rights =>
          rw [commonLines]
          by_cases same : left = right
          · rw [if_pos same]
            exact (List.prefix_cons_inj left).mpr (ih rights)
          · rw [if_neg same]
            exact List.nil_prefix

theorem commonLines_right (lefts rights : List Text) : commonLines lefts rights <+: rights := by
  induction lefts generalizing rights with
  | nil => exact List.nil_prefix
  | cons left lefts ih =>
      cases rights with
      | nil => exact List.nil_prefix
      | cons right rights =>
          rw [commonLines]
          by_cases same : left = right
          · rw [if_pos same, same]
            exact (List.prefix_cons_inj right).mpr (ih rights)
          · rw [if_neg same]
            exact List.nil_prefix

end Common

section Diffs

-- What a shown diff has behind the lines that it shows whole adds no range.
def addsNoLine (patch : FilePatch) (diff : Text) : Bool :=
  scanPatch {} (patchLines diff) = scanPatch {} (commonLines (patchLines diff) patch.textLines)

-- The diff shows the line of a number on its right side, counted from the header of its hunk on.
def DiffShows (diff : Text) (n : Nat) (content : Text) : Prop :=
  ∃ (before : List Text) (header : Text) (start : Nat) (count : Option Nat) (body : List DiffLine) (line : DiffLine) (after : List Text),
    diff.splitOn '\n' = before ++ header :: (body.map DiffLine.text ++ line.text :: after) ∧ matchHunkHeader header = some (start, count) ∧
      line.right = true ∧ line.content = content ∧ n = start + body.countP DiffLine.right

theorem patchLines_first (diff : Text) : patchLines diff <+: diff.splitOn '\n' := ⟨_, (splitOn_patchLines diff).symm⟩

theorem parse_lines {diff : Text} {range : LineRange} (listed : range ∈ parseCommentableRightLineRanges diff) :
    range ∈ scanPatch {} (patchLines diff) := by
  rw [parseCommentableRightLineRanges] at listed
  obtain ⟨_, listed⟩ := List.mem_ite_nil_left.mp listed
  exact listed

-- A number that a shown diff is read to have on its right side is that of a line it shows whole.
theorem diff_shows {patch : FilePatch} {diff : Text} (adds : addsNoLine patch diff = true) {range : LineRange}
    (listed : range ∈ parseCommentableRightLineRanges diff) {n : Nat} (after : range.1 ≤ n) (before : n ≤ range.2) :
    ∃ hunk ∈ patch.hunks, ∃ content, DiffShows diff n content ∧ (n, content) ∈ rightEntries hunk.newStart hunk.lines := by
  have scanned := parse_lines listed
  have same : scanPatch {} (patchLines diff) = scanPatch {} (commonLines (patchLines diff) patch.textLines) := of_decide_eq_true adds
  have common := List.prefix_iff_eq_take.mp (commonLines_right (patchLines diff) patch.textLines)
  obtain ⟨rest, shown⟩ := (commonLines_left (patchLines diff) patch.textLines).trans (patchLines_first diff)
  rw [common] at shown
  rw [same, common] at scanned
  generalize (commonLines (patchLines diff) patch.textLines).length = k at shown scanned
  have added := ((scan_first_lines patch _).union n).mp ⟨range, scanned, after, before⟩
  obtain ⟨hunk, inside, leading, body, line, trailing, split, right, number, entry⟩ := readTake_mem added
  refine ⟨hunk, inside, line.content, ?_, entry⟩
  refine ⟨patch.preamble.take k ++ leading, hunk.header, hunk.newStart, _, body, line,
    trailing ++ rest, ?_, matchHunkHeader_header hunk, right, rfl, number⟩
  rw [← shown, FilePatch.textLines, List.take_append, split]
  simp only [List.append_assoc, List.cons_append]

end Diffs
end PrAgent
