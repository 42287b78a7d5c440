import PrAgent.MarshalledEvidence
set_option autoImplicit false

namespace PrAgent

section Records

variable {fields : List (Text × JsonTree)} {path content diff : Text} {start stop : Nat} {clamped : List Nat}

-- The fields of a read that the recorder looks at.
structure ReadFields (fields : List (Text × JsonTree)) (file value : Text) (start stop : Nat) (clamped : List Nat) : Prop where
  path : JsonTree.field fields (text "path") = some (.string file)
  content : JsonTree.field fields (text "content") = some (.string value)
  startLine : JsonTree.field fields (text "startLine") = some (naturalTree start)
  endLine : JsonTree.field fields (text "endLine") = some (naturalTree stop)
  clampedLines : JsonTree.field fields (text "clampedLines") = if clamped = [] then none else some (.array (clamped.map naturalTree))

structure DiffFields (fields : List (Text × JsonTree)) (file value : Text) : Prop where
  path : JsonTree.field fields (text "path") = some (.string file)
  content : JsonTree.field fields (text "content") = none
  diff : JsonTree.field fields (text "diff") = some (.string value)

-- No text of a file and no diff.
structure Silent (fields : List (Text × JsonTree)) : Prop where
  content : ∀ value, JsonTree.field fields (text "content") ≠ some (.string value)
  diff : ∀ value, JsonTree.field fields (text "diff") ≠ some (.string value)

structure ShownLine (row : List (Text × JsonTree)) (file value : Text) (start stop : Nat) (clamped : List Nat) (n : Nat) : Prop where
  path : JsonTree.field row (text "path") = some (.string file)
  content : JsonTree.field row (text "content") = some (.string (shownText value))
  startLine : JsonTree.field row (text "startLine") = some (naturalTree start)
  positive : 0 < start
  after : start ≤ n
  before : n ≤ stop
  inside : n < start + ((shownText value).splitOn '\n').length
  whole : shownText value ≠ value → n + 1 < start + ((shownText value).splitOn '\n').length
  unclamped : n ∉ clamped
  filled : shownText value ≠ []

structure ShownDiffLine (row : List (Text × JsonTree)) (file value : Text) (n : Nat) : Prop where
  path : JsonTree.field row (text "path") = some (.string file)
  diff : JsonTree.field row (text "diff") = some (.string (shownText value))
  listed : ∃ range ∈ parseCommentableRightLineRanges (shownText value), range.1 ≤ n ∧ n ≤ range.2

variable {ledger : EvidenceLedger} {headSha : Text} {row : List (Text × JsonTree)}

theorem unnamed_adds {holds : Nat → Prop} (unnamed : JsonTree.field row (text "path") = none) :
    ledger.Adds (recordMarshalledEvidence ledger headSha row) path headSha holds := by
  rw [recordMarshalledEvidence, unnamed]
  by_cases headless : headSha = []
  · rw [if_pos headless]
    exact .nothing rfl rfl
  · rw [if_neg headless]
    exact .nothing rfl rfl

section Bounded

variable (bounded : BoundedRow fields row)
include bounded

theorem BoundedRow.string {name value : Text} (kept : isKeptName name = true)
    (there : JsonTree.field fields name = some (.string value)) : JsonTree.field row name = some (.string (shownText value)) := by
  obtain ⟨before, made⟩ := bounded.kept name _ kept there
  rw [made, bound_string]
  rfl

theorem BoundedRow.natural {name : Text} {n : Nat} (kept : isKeptName name = true)
    (there : JsonTree.field fields name = some (naturalTree n)) : JsonTree.field row name = some (naturalTree n) := by
  obtain ⟨before, made⟩ := bounded.kept name _ kept there
  rw [made, naturalTree, bound_number]

theorem BoundedRow.no_text {name : Text} (kept : isKeptName name = true)
    (other : ∀ value, JsonTree.field fields name ≠ some (.string value)) : ∀ value, JsonTree.field row name ≠ some (.string value) := by
  intro value same
  cases there : JsonTree.field fields name with
  | none =>
      rw [bounded.absent name kept there] at same
      cases same
  | some tree =>
      obtain ⟨before, made⟩ := bounded.kept name tree kept there
      rw [made] at same
      exact bound_other 1 (fun text same => other text (there.trans (congrArg some same))) before value (Option.some.inj same)

-- A list that is too long is no list any more.
theorem BoundedRow.naturals {name : Text} {numbers : List Nat} (kept : isKeptName name = true)
    (there : JsonTree.field fields name = some (.array (numbers.map naturalTree))) :
    JsonTree.field row name = some (.array (numbers.map naturalTree)) ∨ ∃ out, JsonTree.field row name = some (.object out) := by
  obtain ⟨before, made⟩ := bounded.kept name _ kept there
  have literals : ∀ item ∈ numbers.map naturalTree, ∃ literal, item = .number literal := by
    intro item listed
    obtain ⟨n, _, rfl⟩ := List.mem_map.mp listed
    exact ⟨_, rfl⟩
  rw [boundInner, if_neg (by decide)] at made
  simp only at made
  by_cases short : (numbers.map naturalTree).length - codeModeMarshal.maxArrayLength = 0
  · rw [if_pos short, bound_numbers 2 _ literals (by omega)] at made
    exact .inl made
  · rw [if_neg short] at made
    exact .inr ⟨_, made⟩

theorem deliveredRow_shown (given : ReadFields fields path content start stop clamped)
    (short : shownText path = path) {n : Nat}
    (recorded : let delivered := deliveredRow headSha path (shownText content) row clamped
      delivered.content ≠ [] ∧ 0 < delivered.startLine ∧ delivered.startLine ≤ n ∧ n ≤ delivered.endLine ∧ n ∉ delivered.clampedLines) :
    ShownLine row path content start stop clamped n := by
  have startLine := bounded.natural (by decide) given.startLine
  have endLine := bounded.natural (by decide) given.endLine
  have some_line := List.length_pos_of_ne_nil (List.splitOn_ne_nil '\n' (shownText content))
  have most : max ((shownText content).splitOn '\n').length 1 = ((shownText content).splitOn '\n').length := by omega
  simp only [deliveredRow, startLine, endLine, naturalTree_read, Option.getD_some, Option.elim_some, most] at recorded
  obtain ⟨filled, positive, after, before, apart⟩ := recorded
  have own : n ∉ clamped := by
    intro listed
    cases cut : contentWasCut row with
    | false =>
        rw [cut, if_neg Bool.false_ne_true] at apart
        exact apart listed
    | true =>
        rw [cut, if_pos rfl] at apart
        exact apart (List.mem_append_left _ listed)
  refine ⟨?_, bounded.string (by decide) given.content, startLine, positive, after, by omega, by omega, ?_, own, filled⟩
  · rw [bounded.string (by decide) given.path, short]
  · intro cut
    rw [bounded.cut content given.content cut, if_pos rfl] at apart
    have other : n ≠ start + ((shownText content).splitOn '\n').length - 1 :=
      fun last => apart (List.mem_append_right _ (List.mem_singleton.mpr last))
    omega

theorem recordContent_adds (given : ReadFields fields path content start stop clamped)
    (short : shownText path = path) :
    ledger.Adds (recordContent ledger headSha path (shownText content) row) path headSha (ShownLine row path content start stop clamped) := by
  have recorded := (recordDelivered_adds ledger (deliveredRow headSha path (shownText content) row clamped)).imp
    fun n recorded => deliveredRow_shown bounded given short recorded
  have listed := given.clampedLines
  rw [recordContent]
  by_cases empty : shownText content = []
  · rw [if_pos empty]
    exact .nothing rfl rfl
  · rw [if_neg empty]
    by_cases unclamped : clamped = []
    · rw [if_pos unclamped] at listed
      rw [bounded.absent _ (by decide) listed, ← unclamped]
      exact recorded
    · rw [if_neg unclamped] at listed
      rcases bounded.naturals (by decide) listed with same | ⟨out, cut⟩
      · have numbers : (clamped.map naturalTree).filterMap (fun item => lineNumber (some item)) = clamped := by
          rw [List.filterMap_map]
          exact (List.filterMap_congr fun n _ => naturalTree_read n).trans List.filterMap_some
        rw [same]
        simp only [numbers]
        exact recorded
      · rw [cut]
        exact .nothing rfl rfl

end Bounded

theorem marshalled_read (given : ReadFields fields path content start stop clamped) (short : shownText path = path) (tool : Text) :
    ledger.Adds (recordMarshalledEvidence ledger headSha (guestResult tool (.object fields))) path headSha
      (ShownLine (guestResult tool (.object fields)) path content start stop clamped) := by
  rcases guest_row tool fields with unnamed | bounded
  · exact unnamed_adds unnamed
  · have recorded := @recordContent_adds fields path content start stop clamped (ledger.noteOpened path) headSha _ bounded given short
    rw [recordMarshalledEvidence, bounded.string (by decide) given.path, bounded.string (by decide) given.content, short]
    by_cases headless : headSha = []
    · rw [if_pos headless]
      exact .nothing rfl rfl
    · rw [if_neg headless]
      exact ⟨recorded.head, recorded.reads⟩

theorem marshalled_diff (given : DiffFields fields path diff) (tool : Text) :
    ledger.Adds (recordMarshalledEvidence ledger headSha (guestResult tool (.object fields))) (shownText path) headSha
      (ShownDiffLine (guestResult tool (.object fields)) (shownText path) diff) := by
  rcases guest_row tool fields with unnamed | bounded
  · exact unnamed_adds unnamed
  · have named := bounded.string (by decide) given.path
    have shown := bounded.string (by decide) given.diff
    have recorded := (recordDiff_adds (ledger.noteOpened (shownText path)) (shownText path) headSha (shownText diff)).imp
      fun n listed => (⟨named, shown, listed⟩ : ShownDiffLine (guestResult tool (.object fields)) (shownText path) diff n)
    rw [recordMarshalledEvidence, named, bounded.absent _ (by decide) given.content, shown]
    by_cases headless : headSha = []
    · rw [if_pos headless]
      exact .nothing rfl rfl
    · rw [if_neg headless]
      simp only
      by_cases empty : shownText diff = []
      · rw [if_pos empty]
        exact .nothing rfl rfl
      · rw [if_neg empty]
        exact ⟨recorded.head, recorded.reads⟩

theorem silent_row (content : ∀ value, JsonTree.field row (text "content") ≠ some (.string value))
    (diff : ∀ value, JsonTree.field row (text "diff") ≠ some (.string value)) : recordMarshalledEvidence ledger headSha row = ledger := by
  rw [recordMarshalledEvidence]
  by_cases headless : headSha = []
  · rw [if_pos headless]
  · rw [if_neg headless]
    split
    next _ there => exact absurd there (content _)
    next there _ => exact absurd there (diff _)
    next => rfl

theorem marshalled_silent (silent : Silent fields) (tool : Text) :
    recordMarshalledEvidence ledger headSha (guestResult tool (.object fields)) = ledger := by
  rcases guest_row tool fields with unnamed | bounded
  · rw [recordMarshalledEvidence, unnamed]
    by_cases headless : headSha = []
    · rw [if_pos headless]
    · rw [if_neg headless]
  · exact silent_row (bounded.no_text (by decide) silent.content) (bounded.no_text (by decide) silent.diff)

end Records
end PrAgent
