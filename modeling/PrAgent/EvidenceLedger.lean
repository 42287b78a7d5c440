import PrAgent.CiSummaryCell
import PrAgent.ReviewDiffIndex
set_option autoImplicit false

namespace PrAgent

section Paths

-- `path.replace(/\\/g, "/")`.
def forwardSlashes (path : Text) : Text := path.map fun c => if c = '\\' then '/' else c

def normalizeEvidencePath (path : Text) : Text :=
  if (text "./").isPrefixOf (forwardSlashes path) then (forwardSlashes path).drop 2 else forwardSlashes path

theorem forwardSlashes_plain {path : Text} (plain : '\\' ∉ path) : forwardSlashes path = path := by
  have same : ∀ c ∈ path, (if c = '\\' then '/' else c) = id c := by
    intro c listed
    have other : c ≠ '\\' := fun back => plain (back ▸ listed)
    rw [if_neg other]
    rfl
  rw [forwardSlashes, List.map_congr_left same, List.map_id]

theorem forwardSlashes_absent (path : Text) : '\\' ∉ forwardSlashes path := by
  intro listed
  obtain ⟨c, _, same⟩ := List.mem_map.mp listed
  by_cases back : c = '\\'
  · rw [if_pos back] at same
    exact absurd same (by decide)
  · rw [if_neg back] at same
    exact back same

theorem normalized_absent (path : Text) : '\\' ∉ normalizeEvidencePath path := by
  rw [normalizeEvidencePath]
  by_cases dotted : (text "./").isPrefixOf (forwardSlashes path) = true
  · rw [if_pos dotted]
    exact fun listed => forwardSlashes_absent path (List.mem_of_mem_drop listed)
  · rw [if_neg dotted]
    exact forwardSlashes_absent path

theorem normalized_plain {path : Text} (plain : '\\' ∉ path) (undotted : (text "./").isPrefixOf path = false) :
    normalizeEvidencePath path = path := by
  rw [normalizeEvidencePath, forwardSlashes_plain plain, undotted, if_neg Bool.false_ne_true]

end Paths

section Segments

-- The loop over the excluded lines, from `cur` on.
def segmentsFrom (endLine : Nat) : Nat → List Nat → List LineRange
  | cur, [] => if cur ≤ endLine then [(cur, endLine)] else []
  | cur, line :: rest => (if cur < line then [(cur, line - 1)] else []) ++ segmentsFrom endLine (line + 1) rest

def segmentsExcluding (startLine endLine : Nat) (excluded : List Nat) : List LineRange :=
  if excluded = [] then [(startLine, endLine)]
  else
    segmentsFrom endLine startLine
      ((excluded.dedup.filter fun line => startLine ≤ line && line ≤ endLine).mergeSort fun left right => left ≤ right)

theorem segmentsFrom_apart {endLine cur : Nat} {sorted : List Nat} (ascending : sorted.Pairwise (· < ·))
    (later : ∀ line ∈ sorted, cur ≤ line) (within : ∀ line ∈ sorted, line ≤ endLine) {segment : LineRange}
    (listed : segment ∈ segmentsFrom endLine cur sorted) {n : Nat} (after : segment.1 ≤ n) (before : n ≤ segment.2) :
    cur ≤ n ∧ n ≤ endLine ∧ n ∉ sorted := by
  induction sorted generalizing cur with
  | nil =>
      rw [segmentsFrom] at listed
      obtain ⟨_, listed⟩ := List.mem_ite_nil_right.mp listed
      cases List.mem_singleton.mp listed
      exact ⟨after, before, List.not_mem_nil⟩
  | cons line rest ih =>
      obtain ⟨first, ascending⟩ := List.pairwise_cons.mp ascending
      have here := later line List.mem_cons_self
      have limit := within line List.mem_cons_self
      rw [segmentsFrom] at listed
      rcases List.mem_append.mp listed with gap | listed
      · by_cases room : cur < line
        · rw [if_pos room] at gap
          cases List.mem_singleton.mp gap
          simp only at after before
          refine ⟨after, by omega, ?_⟩
          intro inside
          rcases List.mem_cons.mp inside with rfl | inside
          · omega
          · have apart := first n inside
            omega
        · rw [if_neg room] at gap
          cases gap
      · obtain ⟨start, stop, apart⟩ := ih ascending (fun other inside => first other inside)
          (fun other inside => within other (List.mem_cons_of_mem line inside)) listed
        refine ⟨by omega, stop, ?_⟩
        intro inside
        rcases List.mem_cons.mp inside with rfl | inside
        · omega
        · exact apart inside

-- The segments hold lines of the range that are not excluded.
theorem segments_apart {startLine endLine : Nat} {excluded : List Nat} {segment : LineRange}
    (listed : segment ∈ segmentsExcluding startLine endLine excluded) {n : Nat} (after : segment.1 ≤ n) (before : n ≤ segment.2) :
    startLine ≤ n ∧ n ≤ endLine ∧ n ∉ excluded := by
  rw [segmentsExcluding] at listed
  by_cases none_ : excluded = []
  · rw [if_pos none_] at listed
    cases List.mem_singleton.mp listed
    exact ⟨after, before, by rw [none_]; exact List.not_mem_nil⟩
  · rw [if_neg none_] at listed
    have kept : ∀ line, line ∈ (excluded.dedup.filter fun line => startLine ≤ line && line ≤ endLine).mergeSort
        (fun left right => left ≤ right) ↔ line ∈ excluded ∧ startLine ≤ line ∧ line ≤ endLine := by
      intro line
      simp [List.mem_filter]
    have ascending : ((excluded.dedup.filter fun line => startLine ≤ line && line ≤ endLine).mergeSort
        fun left right => left ≤ right).Pairwise (· < ·) := by
      have sorted := @List.pairwise_mergeSort Nat (fun left right => decide (left ≤ right)) (by simp; omega) (by simp; omega)
        (excluded.dedup.filter fun line => startLine ≤ line && line ≤ endLine)
      have distinct := (List.mergeSort_perm (excluded.dedup.filter fun line => startLine ≤ line && line ≤ endLine)
        fun left right => left ≤ right).nodup_iff.mpr ((List.nodup_dedup excluded).filter _)
      refine (sorted.and distinct).imp ?_
      rintro left right ⟨ordered, other⟩
      have least : left ≤ right := of_decide_eq_true ordered
      omega
    obtain ⟨start, stop, apart⟩ := segmentsFrom_apart ascending (fun line inside => ((kept line).mp inside).2.1)
      (fun line inside => ((kept line).mp inside).2.2) listed after before
    exact ⟨start, stop, fun inside => apart ((kept n).mpr ⟨inside, start, stop⟩)⟩

end Segments

section Ledger

-- The hashes, the tool, the time and the descriptor of a read are of no account for what the ledger covers.
structure EvidenceRead where
  path : Text
  startLine : Option Nat
  endLine : Option Nat
  headSha : Text
  deriving DecidableEq

structure EvidenceLedger where
  headSha : Text
  reads : List EvidenceRead
  opened : List Text
  deriving DecidableEq

def createEvidenceLedger (headSha : Text) : EvidenceLedger := ⟨headSha, [], []⟩

def EvidenceLedger.noteOpened (ledger : EvidenceLedger) (path : Text) : EvidenceLedger :=
  { ledger with opened := ledger.opened.insert (normalizeEvidencePath path) }

def EvidenceLedger.record (ledger : EvidenceLedger) (read : EvidenceRead) : EvidenceLedger :=
  { ledger.noteOpened read.path with reads := ledger.reads ++ [{ read with path := normalizeEvidencePath read.path }] }

def EvidenceLedger.hasOpened (ledger : EvidenceLedger) (path : Text) : Bool := ledger.opened.contains (normalizeEvidencePath path)

def lineRangeCovers (evidenceStart evidenceEnd findingStart findingEnd : Nat) : Bool :=
  evidenceStart ≤ findingStart && findingEnd ≤ evidenceEnd

def EvidenceLedger.covers (ledger : EvidenceLedger) (path : Text) (startLine endLine : Nat) : Bool :=
  ledger.reads.any fun read =>
    read.headSha = ledger.headSha && read.path = normalizeEvidencePath path &&
      lineRangeCovers (read.startLine.getD 1) (read.endLine.getD (read.startLine.getD 1)) startLine endLine

-- The ranges that one result is recorded with.
def EvidenceLedger.recordRanges (ledger : EvidenceLedger) (path headSha : Text) (ranges : List LineRange) : EvidenceLedger :=
  ranges.foldl (fun ledger range => ledger.record ⟨path, some range.1, some range.2, headSha⟩) ledger

structure DeliveredFileRead where
  path : Text
  headSha : Text
  startLine : Nat
  endLine : Nat
  content : Text
  clampedLines : List Nat

def recordDeliveredFileRead (ledger : EvidenceLedger) (delivered : DeliveredFileRead) : EvidenceLedger :=
  if delivered.content = [] ∨ delivered.startLine = 0 ∨ delivered.endLine = 0 then ledger
  else
    ledger.recordRanges delivered.path delivered.headSha
      (segmentsExcluding delivered.startLine delivered.endLine delivered.clampedLines)

def recordDiffEvidence (ledger : EvidenceLedger) (path headSha diff : Text) : EvidenceLedger :=
  ledger.recordRanges path headSha (parseCommentableRightLineRanges diff)

variable {ledger : EvidenceLedger}

@[simp] theorem noteOpened_reads (path : Text) : (ledger.noteOpened path).reads = ledger.reads := rfl

@[simp] theorem noteOpened_headSha (path : Text) : (ledger.noteOpened path).headSha = ledger.headSha := rfl

theorem recordRanges_spec (path headSha : Text) (ranges : List LineRange) :
    (ledger.recordRanges path headSha ranges).headSha = ledger.headSha ∧
      (ledger.recordRanges path headSha ranges).reads =
        ledger.reads ++ ranges.map fun range => ⟨normalizeEvidencePath path, some range.1, some range.2, headSha⟩ := by
  induction ranges generalizing ledger with
  | nil => exact ⟨rfl, (List.append_nil _).symm⟩
  | cons range ranges ih =>
      obtain ⟨head, reads⟩ := @ih (ledger.record ⟨path, some range.1, some range.2, headSha⟩)
      refine ⟨head, reads.trans ?_⟩
      simp [EvidenceLedger.record]

-- A result adds ranges of lines of which each holds.
structure EvidenceLedger.Adds (ledger after : EvidenceLedger) (path headSha : Text) (holds : Nat → Prop) : Prop where
  head : after.headSha = ledger.headSha
  reads : ∃ ranges : List LineRange,
    after.reads = ledger.reads ++ ranges.map (fun range => ⟨normalizeEvidencePath path, some range.1, some range.2, headSha⟩) ∧
      ∀ range ∈ ranges, ∀ n, range.1 ≤ n → n ≤ range.2 → holds n

variable {path headSha : Text} {holds holds' : Nat → Prop} {after : EvidenceLedger}

theorem EvidenceLedger.Adds.nothing (head : after.headSha = ledger.headSha) (same : after.reads = ledger.reads) :
    ledger.Adds after path headSha holds := by
  refine ⟨head, [], ?_, fun range listed => absurd listed List.not_mem_nil⟩
  rw [List.map_nil, List.append_nil, same]

theorem EvidenceLedger.Adds.imp (adds : ledger.Adds after path headSha holds) (weaker : ∀ n, holds n → holds' n) :
    ledger.Adds after path headSha holds' := by
  obtain ⟨ranges, reads, lines⟩ := adds.reads
  exact ⟨adds.head, ranges, reads, fun range listed n start stop => weaker n (lines range listed n start stop)⟩

theorem recordDelivered_adds (ledger : EvidenceLedger) (delivered : DeliveredFileRead) :
    ledger.Adds (recordDeliveredFileRead ledger delivered) delivered.path delivered.headSha fun n =>
      delivered.content ≠ [] ∧ 0 < delivered.startLine ∧ delivered.startLine ≤ n ∧ n ≤ delivered.endLine ∧ n ∉ delivered.clampedLines := by
  rw [recordDeliveredFileRead]
  by_cases empty : delivered.content = [] ∨ delivered.startLine = 0 ∨ delivered.endLine = 0
  · rw [if_pos empty]
    exact .nothing rfl rfl
  · rw [if_neg empty]
    obtain ⟨head, reads⟩ := @recordRanges_spec ledger delivered.path delivered.headSha
      (segmentsExcluding delivered.startLine delivered.endLine delivered.clampedLines)
    refine ⟨head, _, reads, ?_⟩
    intro segment listed n start stop
    obtain ⟨first, last, apart⟩ := segments_apart listed start stop
    exact ⟨fun none_ => empty (.inl none_), Nat.pos_of_ne_zero fun zero => empty (.inr (.inl zero)), first, last, apart⟩

theorem recordDiff_adds (ledger : EvidenceLedger) (path headSha diff : Text) :
    ledger.Adds (recordDiffEvidence ledger path headSha diff) path headSha
      fun n => ∃ range ∈ parseCommentableRightLineRanges diff, range.1 ≤ n ∧ n ≤ range.2 := by
  obtain ⟨head, reads⟩ := @recordRanges_spec ledger path headSha (parseCommentableRightLineRanges diff)
  exact ⟨head, _, reads, fun range listed n start stop => ⟨range, listed, start, stop⟩⟩

end Ledger
end PrAgent
