import PrAgent.ReviewDiffIndex
set_option autoImplicit false

namespace PrAgent

-- Ascending ranges with a gap between any two, which hold the given numbers and no others.
structure ExactRanges (lines : List Nat) (ranges : List LineRange) : Prop where
  ordered : ∀ range ∈ ranges, range.1 ≤ range.2
  apart : ranges.Pairwise fun range later => range.2 + 1 < later.1
  union : ∀ n, (∃ range ∈ ranges, range.1 ≤ n ∧ n ≤ range.2) ↔ n ∈ lines

section Scan

-- The open range ends at the last line that was added.
structure RangeScan.Holds (scan : RangeScan) (lines : List Nat) : Prop where
  exact : ExactRanges lines scan.finishRanges
  last : scan.range.map Prod.snd = lines.getLast?

theorem scan_empty : ({} : RangeScan).Holds [] := by
  constructor
  · constructor
    · intro range listed
      cases listed
    · exact List.Pairwise.nil
    · intro n
      simp [RangeScan.finishRanges]
  · rfl

theorem scan_first {scan : RangeScan} {lines : List Nat} (holds : scan.Holds lines) (closed : scan.range = none) :
    lines = [] ∧ scan.ranges = [] := by
  have none' : lines.getLast? = none := by rw [← holds.last, closed]; rfl
  have empty : lines = [] := List.getLast?_eq_none_iff.mp none'
  subst empty
  cases ranges : scan.ranges with
  | nil => exact ⟨rfl, rfl⟩
  | cons range rest =>
    have listed : range ∈ scan.finishRanges := by simp [RangeScan.finishRanges, ranges]
    have inside := (holds.exact.union range.1).mp ⟨range, listed, Nat.le_refl _, holds.exact.ordered range listed⟩
    cases inside

theorem scan_add {scan : RangeScan} {lines : List Nat} {line : Nat} (holds : scan.Holds lines)
    (above : ∀ n ∈ lines, n < line) (safe : line ≤ maxSafe) : (scan.addCommentableLine line).Holds (lines ++ [line]) := by
  have holding := holds
  obtain ⟨⟨ordered, apart, union⟩, last⟩ := holds
  rw [RangeScan.addCommentableLine]
  cases opened : scan.range with
  | none =>
    obtain ⟨rfl, ranges⟩ := scan_first holding opened
    constructor
    · constructor
      · simp [RangeScan.finishRanges, ranges]
      · simp [RangeScan.finishRanges, ranges]
      · intro n
        simp [RangeScan.finishRanges, ranges]
        omega
    · simp
  | some range =>
    obtain ⟨start, stop⟩ := range
    simp only [RangeScan.finishRanges, opened, Option.toList_some] at ordered apart union
    have stopIn : stop ∈ lines := by
      rw [opened] at last
      exact List.mem_of_getLast? last.symm
    have below : stop < line := above stop stopIn
    have next : nearestDouble (stop + 1) = stop + 1 := nearestDouble_of_safe (by omega)
    obtain ⟨earlier, _, closed⟩ := List.pairwise_append.mp apart
    have startStop : start ≤ stop := ordered (start, stop) (by simp)
    simp only [next]
    by_cases continues : line = stop + 1
    · rw [if_pos continues]
      constructor
      · constructor
        · intro range listed
          cases List.mem_append.mp listed with
          | inl before => exact ordered range (List.mem_append_left _ before)
          | inr here =>
            obtain rfl := List.mem_singleton.mp here
            show start ≤ line
            omega
        · apply List.pairwise_append.mpr
          have gap : ∀ range ∈ scan.ranges, ∀ later ∈ [(start, line)], range.2 + 1 < later.1 := by
            intro range before later here
            obtain rfl := List.mem_singleton.mp here
            exact closed range before (start, stop) (by simp)
          exact ⟨earlier, List.pairwise_singleton _ _, gap⟩
        · intro n
          have old := union n
          simp only [RangeScan.finishRanges, Option.toList_some, List.mem_append, List.mem_singleton, or_and_right,
            exists_or, exists_eq_left] at old ⊢
          rw [← old]
          constructor
          · intro inside
            rcases inside with before | here
            · exact .inl (.inl before)
            · by_cases new : n = line
              · exact .inr new
              · exact .inl (.inr (by omega))
          · intro inside
            rcases inside with (before | here) | new
            · exact .inl before
            · exact .inr (by omega)
            · exact .inr (by omega)
      · simp
    · rw [if_neg continues]
      constructor
      · constructor
        · intro range listed
          simp only [RangeScan.finishRanges, Option.toList_some] at listed
          cases List.mem_append.mp listed with
          | inl before => exact ordered range before
          | inr here =>
            obtain rfl := List.mem_singleton.mp here
            exact Nat.le_refl line
        · apply List.pairwise_append.mpr
          have gap : ∀ range ∈ scan.ranges ++ [(start, stop)], ∀ later ∈ [(line, line)], range.2 + 1 < later.1 := by
            intro range before later here
            obtain rfl := List.mem_singleton.mp here
            cases List.mem_append.mp before with
            | inl old =>
              have first := closed range old (start, stop) (by simp)
              dsimp only at first ⊢
              omega
            | inr open' =>
              obtain rfl := List.mem_singleton.mp open'
              dsimp only
              omega
          exact ⟨apart, List.pairwise_singleton _ _, gap⟩
        · intro n
          have old := union n
          simp only [RangeScan.finishRanges, Option.toList_some, List.mem_append, List.mem_singleton, or_and_right,
            exists_or, exists_eq_left] at old ⊢
          rw [← old]
          constructor
          · intro inside
            rcases inside with before | here
            · exact .inl before
            · exact .inr (by omega)
          · intro inside
            rcases inside with before | new
            · exact .inl before
            · exact .inr (by omega)
      · simp

theorem scan_all {lines : List Nat} (ascending : lines.Pairwise (· < ·)) (safe : ∀ n ∈ lines, n ≤ maxSafe) :
    (lines.foldl RangeScan.addCommentableLine {}).Holds lines := by
  induction lines using List.reverseRecOn with
  | nil => exact scan_empty
  | append_singleton lines line ih =>
    obtain ⟨before, _, above⟩ := List.pairwise_append.mp ascending
    rw [List.foldl_append]
    have held := ih before fun n listed => safe n (List.mem_append_left _ listed)
    exact scan_add held (fun n listed => above n listed line List.mem_cons_self) (safe line (by simp))

-- Ranges hold one set of numbers only.
theorem ExactRanges.lines_subset {lines lines' : List Nat} {ranges : List LineRange} (exact : ExactRanges lines ranges)
    (exact' : ExactRanges lines' ranges) : lines ⊆ lines' :=
  fun n listed => (exact'.union n).mp ((exact.union n).mpr listed)

end Scan

section Anchors

-- What `resolveInlineAnchorLine` answers for a span: the first of the lines in it.
def IsAnchor (commentable : Nat → Prop) (lo hi : Int) : Option Int → Prop
  | none => ∀ n, commentable n → ¬(lo ≤ n ∧ (n : Int) ≤ hi)
  | some anchor => (∃ n, commentable n ∧ anchor = n) ∧ lo ≤ anchor ∧ anchor ≤ hi ∧
      ∀ n, commentable n → lo ≤ n → (n : Int) ≤ hi → anchor ≤ n

theorem anchor_closer {lo hi : Int} (span : lo ≤ hi) {commentable : Nat → Prop} {range : LineRange}
    (ordered : range.1 ≤ range.2) {anchor : Option Int} (before : IsAnchor commentable lo hi anchor) :
    IsAnchor (fun n => commentable n ∨ range.1 ≤ n ∧ n ≤ range.2) lo hi (closerAnchor lo hi anchor range) := by
  rw [closerAnchor]
  by_cases outside : (range.2 : Int) < lo ∨ hi < range.1
  · rw [if_pos outside]
    cases anchor with
    | none =>
      intro n listed inside
      cases listed with
      | inl old => exact before n old inside
      | inr here => omega
    | some anchor =>
      obtain ⟨⟨a, listed, same⟩, low, high, least⟩ := before
      refine ⟨⟨a, .inl listed, same⟩, low, high, ?_⟩
      intro n listed' inLow inHigh
      cases listed' with
      | inl old => exact least n old inLow inHigh
      | inr here => omega
  · rw [if_neg outside]
    obtain ⟨candidate, isMax⟩ : ∃ c : Nat, max lo (range.1 : Int) = c := ⟨(max lo (range.1 : Int)).toNat, by omega⟩
    have here : range.1 ≤ candidate ∧ candidate ≤ range.2 := by omega
    have low : lo ≤ candidate := by omega
    have high : (candidate : Int) ≤ hi := by omega
    simp only [isMax]
    cases anchor with
    | none =>
      refine ⟨⟨candidate, .inr here, rfl⟩, low, high, ?_⟩
      intro n listed inLow inHigh
      cases listed with
      | inl old => exact absurd ⟨inLow, inHigh⟩ (before n old)
      | inr within => omega
    | some best =>
      obtain ⟨⟨a, listed, same⟩, bestLow, bestHigh, least⟩ := before
      by_cases closer : (candidate : Int) < best
      · simp only [if_pos closer]
        refine ⟨⟨candidate, .inr here, rfl⟩, low, high, ?_⟩
        intro n listed inLow inHigh
        cases listed with
        | inl old =>
          have bound := least n old inLow inHigh
          omega
        | inr within => omega
      · simp only [if_neg closer]
        refine ⟨⟨a, .inl listed, same⟩, bestLow, bestHigh, ?_⟩
        intro n listed inLow inHigh
        cases listed with
        | inl old => exact least n old inLow inHigh
        | inr within => omega

def InRanges (ranges : List LineRange) (n : Nat) : Prop := ∃ range ∈ ranges, range.1 ≤ n ∧ n ≤ range.2

theorem anchor_fold {lo hi : Int} (span : lo ≤ hi) (ranges : List LineRange)
    (ordered : ∀ range ∈ ranges, range.1 ≤ range.2) :
    IsAnchor (InRanges ranges) lo hi (ranges.foldl (closerAnchor lo hi) none) := by
  induction ranges using List.reverseRecOn with
  | nil =>
    intro n listed
    obtain ⟨range, listed, _⟩ := listed
    cases listed
  | append_singleton ranges range ih =>
    have before := ih fun range listed => ordered range (List.mem_append_left _ listed)
    have step := anchor_closer span (ordered range (by simp)) before
    have same : InRanges (ranges ++ [range]) = fun n => InRanges ranges n ∨ range.1 ≤ n ∧ n ≤ range.2 := by
      funext n
      simp [InRanges, or_and_right, exists_or]
    rw [List.foldl_append, same]
    exact step

theorem resolve_anchor {index : CachedPrDiffIndex} {file : String} {entry : CachedPrFileDiff} {lines : List Nat}
    (stored : index.files.get? file = some entry) (delivered : entry.patchOmitted = false)
    (exact' : ExactRanges lines entry.commentableRightLineRanges) (startLine endLine : Int) :
    IsAnchor (· ∈ lines) (min startLine endLine) (max startLine endLine)
      (resolveInlineAnchorLine (some index) file startLine endLine) := by
  have span : min startLine endLine ≤ max startLine endLine := by omega
  have same : InRanges entry.commentableRightLineRanges = (· ∈ lines) := by
    funext n
    exact propext (exact'.union n)
  have folded := anchor_fold span _ exact'.ordered
  rw [same] at folded
  rw [resolveInlineAnchorLine, Option.bind_some, stored]
  by_cases empty : entry.commentableRightLineRanges = []
  · simp only [empty, delivered, decide_true, Bool.or_true, if_true]
    rw [empty] at folded
    exact folded
  · simp only [empty, delivered, decide_false, Bool.or_false]
    exact folded

end Anchors
end PrAgent
