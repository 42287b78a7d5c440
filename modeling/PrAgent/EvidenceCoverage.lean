import PrAgent.WorkspaceReads
set_option autoImplicit false

namespace PrAgent

section System

-- A call that a script makes. `other` is a call of one of the other tools, with the fields that it returns.
inductive HostCall
  | read (call : ReadCall)
  | diff (call : DiffCall)
  | other (tool : Text) (fields : List (Text × JsonTree))

inductive EvidenceCall
  | read (call : ReadCall)
  | diff (call : DiffCall)
  | host (call : HostCall)

-- The ledger, and the results that the calls have returned.
structure EvidenceRun where
  ledger : EvidenceLedger
  results : List (List (Text × JsonTree))

variable (reader : PinnedRepositoryReader) (headSha : Text)

def startRun : EvidenceRun := ⟨createEvidenceLedger headSha, []⟩

def recordRead (ledger : EvidenceLedger) : Option (Text × FileReadOutput) → EvidenceLedger
  | some (path, output) =>
    if headSha = [] then ledger
    else recordDeliveredFileRead ledger ⟨path, headSha, output.startLine, output.endLine, output.content, output.clampedLines⟩
  | none => ledger

def recordDiff (ledger : EvidenceLedger) (path diff : Text) : EvidenceLedger :=
  if headSha = [] ∨ diff = [] then ledger else recordDiffEvidence ledger path headSha diff

def HostCall.tool : HostCall → Text
  | .read _ => text "readWorkspaceFile"
  | .diff _ => text "getWorkspaceDiff"
  | .other tool _ => tool

-- The tools that a script calls have no ledger of their own.
def HostCall.output : HostCall → Option (List (Text × JsonTree))
  | .read call => (readWorkspaceFile reader call).map Prod.fst
  | .diff call => (getWorkspaceDiff reader call).map Prod.fst
  | .other _ fields => some fields

-- A call that throws returns no result and records nothing.
def evidenceStep (s : EvidenceRun) : EvidenceCall → Option EvidenceRun
  | .read call => some ((readWorkspaceFile reader call).elim s fun made =>
      ⟨recordRead headSha s.ledger made.2, s.results ++ [made.1]⟩)
  | .diff call => some ((getWorkspaceDiff reader call).elim s fun made =>
      ⟨recordDiff headSha s.ledger made.2.1 made.2.2, s.results ++ [made.1]⟩)
  | .host call => some ((call.output reader).elim s fun fields =>
      ⟨recordMarshalledEvidence s.ledger headSha (guestResult call.tool (.object fields)), s.results ++ [guestResult call.tool (.object fields)]⟩)

-- The other tools return neither the text of a file nor a diff.
def EvidenceCall.possible : EvidenceCall → Prop
  | .host (.other _ fields) => Silent fields
  | _ => True

-- A result has a line of the file at a path in full: in the text of the file from a first line on, or on the right side of a diff.
inductive ContainsLine (path : Text) (n : Nat) (row : List (Text × JsonTree)) : Prop
  | file {content line : Text} {start : Nat} (named : JsonTree.field row (text "path") = some (.string path))
      (given : JsonTree.field row (text "content") = some (.string content))
      (first : lineNumber (JsonTree.field row (text "startLine")) = some start) (numbered : 0 < n ∧ start ≤ n)
      (own : (fileLines (reader.files path).text)[n - 1]? = some line) (shown : (content.splitOn '\n')[n - start]? = some line)
  | diff {diff line : Text} (named : JsonTree.field row (text "path") = some (.string path))
      (given : JsonTree.field row (text "diff") = some (.string diff)) (own : lineAt (reader.headText path) n = some line)
      (shown : DiffShows diff n line)

-- What the ledger covers was in full in one result.
def CoverageSound (s : EvidenceRun) : Prop :=
  ∀ path startLine endLine, s.ledger.covers path startLine endLine = true →
    ∃ row ∈ s.results, ∀ n, startLine ≤ n → n ≤ endLine → ContainsLine reader (normalizeEvidencePath path) n row

end System

section Whole

variable (reader : PinnedRepositoryReader)

-- The file that a read delivers the text of.
def deliveredFile (call : ReadCall) : Option Text :=
  (readTarget reader call.path).filter fun path => (readBudgetedWorkspaceTextFile (reader.files path) call.options call.window).output?.isSome

-- The byte budget of the tool ends in no line that is not clamped.
def ReadCall.whole (call : ReadCall) : Bool :=
  (deliveredFile reader call).all fun path => cutsNoLine call.options.maxResponseBytes (reader.files path).text call.window

def fitsScript (value : Text) : Bool := textBytes value ≤ codeModeMarshal.maxStringBytes

-- For a script the text is cut once more, and the line of that cut is not counted.
def ReadCall.wholeForScript (call : ReadCall) : Bool :=
  (deliveredFile reader call).all fun path =>
    fitsScript path &&
      (cutsNoLine call.options.maxResponseBytes (reader.files path).text call.window ||
        !fitsScript (takeBytes call.options.maxResponseBytes (readBody (reader.files path).text call.window)))

-- What the budget leaves of a diff counts no line behind those that it leaves whole.
def DiffCall.whole (call : DiffCall) : Bool :=
  (patchOf reader call.path).all fun patch => addsNoLine patch (takeBytes call.diffResponseBytes (diffOf reader call.path))

def DiffCall.wholeForScript (call : DiffCall) : Bool :=
  (patchOf reader call.path).all fun patch =>
    fitsScript (normalizeEvidencePath call.path) &&
      addsNoLine patch (shownText (takeBytes call.diffResponseBytes (diffOf reader call.path)))

def EvidenceCall.whole : EvidenceCall → Bool
  | .read call => call.whole reader
  | .diff call => call.whole reader
  | .host (.read call) => call.wholeForScript reader
  | .host (.diff call) => call.wholeForScript reader
  | .host (.other _ _) => true

end Whole

section Backed

variable {reader : PinnedRepositoryReader} {headSha : Text} {s : EvidenceRun} {row : List (Text × JsonTree)}

-- Each range of the ledger stands for lines of one result.
def Backed (reader : PinnedRepositoryReader) (s : EvidenceRun) : Prop :=
  ∀ read ∈ s.ledger.reads, ∃ row ∈ s.results,
    ∀ n, read.startLine.getD 1 ≤ n → n ≤ read.endLine.getD (read.startLine.getD 1) → ContainsLine reader read.path n row

theorem backed_start : Backed reader (startRun headSha) := fun _ listed => absurd listed List.not_mem_nil

variable {path : Text}

theorem Backed.adds (backed : Backed reader s) {after : EvidenceLedger} {holds : Nat → Prop}
    (adds : s.ledger.Adds after path headSha holds) (contains : ∀ n, holds n → ContainsLine reader (normalizeEvidencePath path) n row) :
    Backed reader ⟨after, s.results ++ [row]⟩ := by
  obtain ⟨ranges, reads, lines⟩ := adds.reads
  intro read listed
  simp only [reads] at listed
  rcases List.mem_append.mp listed with earlier | new
  · obtain ⟨found, inside, whole⟩ := backed read earlier
    exact ⟨found, List.mem_append_left _ inside, whole⟩
  · obtain ⟨range, inside, rfl⟩ := List.mem_map.mp new
    exact ⟨row, List.mem_append_right _ (List.mem_singleton_self row), fun n start stop => contains n (lines range inside n start stop)⟩

theorem Backed.returned (backed : Backed reader s) (row : List (Text × JsonTree)) : Backed reader ⟨s.ledger, s.results ++ [row]⟩ := by
  intro read listed
  obtain ⟨found, inside, whole⟩ := backed read listed
  exact ⟨found, List.mem_append_left _ inside, whole⟩

theorem Backed.covered (backed : Backed reader s) : CoverageSound reader s := by
  intro path startLine endLine covered
  obtain ⟨read, listed, matches_⟩ := List.any_eq_true.mp covered
  simp only [Bool.and_eq_true, decide_eq_true_iff, lineRangeCovers] at matches_
  obtain ⟨⟨_, named⟩, first, last⟩ := matches_
  obtain ⟨row, inside, whole⟩ := backed read listed
  refine ⟨row, inside, ?_⟩
  intro n after before
  rw [← named]
  exact whole n (Nat.le_trans first after) (Nat.le_trans before last)

theorem recordRead_adds (headSha : Text) (ledger : EvidenceLedger) (path : Text) (output : FileReadOutput) :
    ledger.Adds (recordRead headSha ledger (some (path, output))) path headSha fun n => output.content ≠ [] ∧ 0 < output.startLine ∧
      output.startLine ≤ n ∧ n ≤ output.endLine ∧ n ∉ output.clampedLines := by
  rw [recordRead]
  by_cases headless : headSha = []
  · rw [if_pos headless]
    exact .nothing rfl rfl
  · rw [if_neg headless]
    exact recordDelivered_adds _ _

theorem recordDiff_ranges (headSha : Text) (ledger : EvidenceLedger) (path diff : Text) :
    ledger.Adds (recordDiff headSha ledger path diff) path headSha
      fun n => ∃ range ∈ parseCommentableRightLineRanges diff, range.1 ≤ n ∧ n ≤ range.2 := by
  rw [recordDiff]
  by_cases unrecorded : headSha = [] ∨ diff = []
  · rw [if_pos unrecorded]
    exact .nothing rfl rfl
  · rw [if_neg unrecorded]
    exact recordDiff_adds _ _ _ _

theorem fitsScript_shown {value : Text} (fits : fitsScript value = true) : shownText value = value := takeBytes_whole (of_decide_eq_true fits)

variable {call : ReadCall} {output : FileReadOutput}

theorem delivered_target (delivered : FileDelivered reader call row path output) :
    deliveredFile reader call = some path := by
  rw [deliveredFile, delivered.target, Option.filter_some, delivered.read]
  rfl

-- What a read gives is the text of the file within the budget.
theorem delivered_body (delivered : FileDelivered reader call row path output)
    (filled : output.content ≠ []) : (reader.files path).text ≠ [] ∧
      BodyRead (reader.files path).text call.window call.options.maxResponseBytes output := by
  obtain ⟨note, made⟩ := budgeted_read delivered.read
  rw [made] at filled ⊢
  obtain ⟨some_text, body⟩ := read_body filled
  exact ⟨some_text, body.content, body.start, body.within, body.inside, body.last, body.clamped⟩

theorem read_contains (delivered : FileDelivered reader call row path output) (whole : call.whole reader = true) {n : Nat}
    (recorded : output.content ≠ [] ∧ 0 < output.startLine ∧ output.startLine ≤ n ∧ n ≤ output.endLine ∧ n ∉ output.clampedLines) :
    ContainsLine reader (normalizeEvidencePath path) n row := by
  obtain ⟨filled, positive, after, before, unclamped⟩ := recorded
  obtain ⟨some_text, body⟩ := delivered_body delivered filled
  rw [ReadCall.whole, delivered_target delivered, Option.all_some] at whole
  obtain ⟨line, own, shown⟩ := body.line some_text filled whole after before unclamped
  rw [target_plain delivered.target]
  refine .file delivered.fields.path delivered.fields.content ?_ ⟨Nat.lt_of_lt_of_le positive after, after⟩ ?_ shown
  · rw [delivered.fields.startLine, naturalTree_read]
  · rw [fileLines, if_neg some_text]
    exact own

theorem shown_contains {fields : List (Text × JsonTree)}
    (delivered : FileDelivered reader call fields path output) (whole : call.wholeForScript reader = true) {n : Nat}
    (line : ShownLine row path output.content output.startLine output.endLine output.clampedLines n) :
    ContainsLine reader (normalizeEvidencePath path) n row := by
  have filled : output.content ≠ [] := by
    intro empty
    have nothing := line.filled
    rw [empty] at nothing
    exact nothing rfl
  obtain ⟨some_text, body⟩ := delivered_body delivered filled
  rw [ReadCall.wholeForScript, delivered_target delivered, Option.all_some, Bool.and_eq_true, Bool.or_eq_true, Bool.not_eq_true',
    ← body.content] at whole
  have found : ∃ text, (splitLines (reader.files path).text)[n - 1]? = some text ∧
      ((shownText output.content).splitOn '\n')[n - output.startLine]? = some text := by
    by_cases uncut : shownText output.content = output.content
    · have fits : fitsScript output.content = true := by
        rw [fitsScript, decide_eq_true_iff, ← uncut]
        exact takeBytes_le _ _
      have kept := whole.2.resolve_right fun large => Bool.false_ne_true (large.symm.trans fits)
      rw [uncut]
      exact body.line some_text filled kept line.after line.before line.unclamped
    · exact body.line_cut some_text filled line.after line.before line.unclamped (line.whole uncut)
  obtain ⟨text, own, shown⟩ := found
  rw [target_plain delivered.target]
  refine .file line.path line.content ?_ ⟨Nat.lt_of_lt_of_le line.positive line.after, line.after⟩ ?_ shown
  · rw [line.startLine, naturalTree_read]
  · rw [fileLines, if_neg some_text]
    exact own

-- A line that a shown diff is recorded with, where the rest of the diff counts none.
theorem diff_contains {path diff : Text} {patch : FilePatch} (patched : patchOf reader path = some patch)
    (named : JsonTree.field row (text "path") = some (.string (normalizeEvidencePath path)))
    (given : JsonTree.field row (text "diff") = some (.string diff)) (whole : addsNoLine patch diff = true) {n : Nat}
    (recorded : ∃ range ∈ parseCommentableRightLineRanges diff, range.1 ≤ n ∧ n ≤ range.2) :
    ContainsLine reader (normalizeEvidencePath (normalizeEvidencePath path)) n row := by
  obtain ⟨range, listed, after, before⟩ := recorded
  obtain ⟨hunk, inside, content, found, entry⟩ := diff_shows whole listed after before
  obtain ⟨there, _⟩ := Option.filter_eq_some_iff.mp patched
  rw [patched_plain patched]
  exact .diff named given (reader.patched _ patch there hunk inside _ entry) found

theorem unpatched_shown {path diff : Text} (unpatched : patchOf reader path = none) (shown : diff <+: diffOf reader path) :
    parseCommentableRightLineRanges diff = [] := no_ranges fun inside => unpatched_diff unpatched (shown.subset inside)

theorem takeBytes_first (room : Nat) (value : Text) : takeBytes room value <+: value := by
  obtain ⟨rest, split⟩ := takeBytes_split room value
  exact ⟨rest, split.symm⟩

theorem shownText_first (value : Text) : shownText value <+: value := takeBytes_first _ value

variable {t : EvidenceRun}

theorem read_backed (backed : Backed reader s) (whole : call.whole reader = true)
    (moved : evidenceStep reader headSha s (.read call) = some t) : Backed reader t := by
  rw [evidenceStep] at moved
  cases made : readWorkspaceFile reader call with
  | none =>
      rw [made] at moved
      cases moved
      exact backed
  | some result =>
      obtain ⟨row, delivered⟩ := result
      rw [made] at moved
      cases moved
      cases readWorkspaceFile_gives made with
      | silent _ => exact backed.returned row
      | file delivered => exact backed.adds (recordRead_adds headSha s.ledger _ _) fun n recorded => read_contains delivered whole recorded

theorem diff_backed {call : DiffCall} (backed : Backed reader s) (whole : call.whole reader = true)
    (moved : evidenceStep reader headSha s (.diff call) = some t) : Backed reader t := by
  rw [evidenceStep] at moved
  cases made : getWorkspaceDiff reader call with
  | none =>
      rw [made] at moved
      cases moved
      exact backed
  | some result =>
      obtain ⟨row, path, diff⟩ := result
      rw [made] at moved
      cases moved
      obtain ⟨rfl, rfl, fields⟩ := getWorkspaceDiff_gives made
      apply backed.adds (recordDiff_ranges headSha s.ledger _ _)
      intro n recorded
      rw [DiffCall.whole] at whole
      cases patched : patchOf reader call.path with
      | none =>
          rw [unpatched_shown patched (takeBytes_first _ _)] at recorded
          obtain ⟨range, listed, _⟩ := recorded
          cases listed
      | some patch =>
          rw [patched, Option.all_some] at whole
          exact diff_contains patched fields.path fields.diff whole recorded

theorem host_backed {call : HostCall} (backed : Backed reader s) (possible : (EvidenceCall.host call).possible)
    (whole : (EvidenceCall.host call).whole reader = true) (moved : evidenceStep reader headSha s (.host call) = some t) : Backed reader t := by
  rw [evidenceStep] at moved
  cases call with
  | read call =>
      rw [EvidenceCall.whole] at whole
      cases made : readWorkspaceFile reader call with
      | none =>
          rw [HostCall.output, made] at moved
          cases moved
          exact backed
      | some result =>
          obtain ⟨fields, delivered⟩ := result
          rw [HostCall.output, made] at moved
          cases moved
          cases readWorkspaceFile_gives made with
          | silent silent =>
              have unrecorded := @marshalled_silent fields s.ledger headSha silent (text "readWorkspaceFile")
              simp only [Option.map_some, Option.elim_some, HostCall.tool]
              rw [unrecorded]
              exact backed.returned _
          | file delivered =>
              have short := whole
              rw [ReadCall.wholeForScript, delivered_target delivered, Option.all_some, Bool.and_eq_true] at short
              exact backed.adds (marshalled_read delivered.fields (fitsScript_shown short.1) _) fun n line => shown_contains delivered whole line
  | diff call =>
      rw [EvidenceCall.whole, DiffCall.wholeForScript] at whole
      cases made : getWorkspaceDiff reader call with
      | none =>
          rw [HostCall.output, made] at moved
          cases moved
          exact backed
      | some result =>
          obtain ⟨fields, path, diff⟩ := result
          rw [HostCall.output, made] at moved
          cases moved
          obtain ⟨rfl, rfl, given⟩ := getWorkspaceDiff_gives made
          apply backed.adds (marshalled_diff given _)
          intro n line
          cases patched : patchOf reader call.path with
          | none =>
              have recorded := line.listed
              rw [unpatched_shown patched ((shownText_first _).trans (takeBytes_first _ _))] at recorded
              obtain ⟨range, listed, _⟩ := recorded
              cases listed
          | some patch =>
              rw [patched, Option.all_some, Bool.and_eq_true] at whole
              have named := line.path
              rw [fitsScript_shown whole.1] at named ⊢
              exact diff_contains patched named line.diff whole.2 line.listed
  | other tool fields =>
      cases moved
      have unrecorded := @marshalled_silent fields s.ledger headSha possible tool
      simp only [HostCall.output, Option.elim_some, HostCall.tool]
      rw [unrecorded]
      exact backed.returned _

theorem step_backed {call : EvidenceCall} (backed : Backed reader s) (possible : call.possible)
    (whole : call.whole reader = true) (moved : evidenceStep reader headSha s call = some t) : Backed reader t := by
  cases call with
  | read call => exact read_backed backed whole moved
  | diff call => exact diff_backed backed whole moved
  | host call => exact host_backed backed possible whole moved

end Backed

section Main

-- Over every run of calls of which none is cut within a line that it counts.
theorem evidence_coverage_sound (reader : PinnedRepositoryReader) (headSha : Text) {s : EvidenceRun}
    (reached : Reaches (evidenceStep reader headSha) (fun _ call => call.possible ∧ call.whole reader = true) (startRun headSha) s) :
    CoverageSound reader s := by
  have backed : Backed reader s := reached.invariant (Backed reader) backed_start
    fun s call t backed ok moved => step_backed backed ok.1 ok.2 moved
  exact backed.covered

-- A checkout of one file with two lines.
def twoLines : PinnedRepositoryReader where
  sortedCheckoutPaths := [text "a.txt"]
  changedFiles := []
  patchByPath := fun _ => none
  patchOmittedByCapPaths := []
  changeSetTruncated := false
  files := fun path => if path = text "a.txt" then .regular (writeUtf8 (text "one\ntwo\n")) else .missing
  headText := fun path => if path = text "a.txt" then text "one\ntwo\n" else []
  assertDiff := fun _ => true
  allows := fun _ => true
  coverage := .object []
  suggestSimilarPaths := fun _ => []
  nfc := id
  nfc_backslash := fun _ => Iff.rfl
  undottedPaths := by decide
  undottedChanges := by decide
  patched := by
    intro path patch found
    cases found

def readWithin (maxResponseBytes : Nat) : ReadCall where
  path := text "a.txt"
  window := ⟨none, none⟩
  options := ⟨1000, maxResponseBytes, false⟩
  spillPath := []
  reviewThreads := none

def afterToolCall (s : EvidenceRun) (call : EvidenceCall) : EvidenceRun := (evidenceStep twoLines (text "h") s call).getD s

theorem next_reached {allowed : EvidenceRun → EvidenceCall → Prop} {start s : EvidenceRun} (call : EvidenceCall)
    (reached : Reaches (evidenceStep twoLines (text "h")) allowed start s) (ok : allowed s call) :
    Reaches (evidenceStep twoLines (text "h")) allowed start (afterToolCall s call) := by
  have moved : evidenceStep twoLines (text "h") s call = some (afterToolCall s call) := by cases call <;> rfl
  exact .next reached ok moved

def afterWholeReads : EvidenceRun := afterToolCall (afterToolCall (startRun (text "h")) (.read (readWithin 100))) (.host (.read (readWithin 7)))

theorem whole_reads_sound : afterWholeReads.ledger.covers (text "./a.txt") 1 2 = true ∧ CoverageSound twoLines afterWholeReads := by
  refine ⟨by decide +kernel, evidence_coverage_sound twoLines (text "h") ?_⟩
  apply next_reached
  · apply next_reached
    · exact .start
    · exact ⟨trivial, by decide +kernel⟩
  · exact ⟨trivial, by decide +kernel⟩

def cutRead : ReadCall := readWithin 5

-- What the read returns: the text, its first line and no diff.
theorem cutRead_row : (readWorkspaceFile twoLines cutRead).map (fun made =>
    ((JsonTree.field made.1 (text "diff")).isNone, contentOf (.object made.1), lineNumber (JsonTree.field made.1 (text "startLine")))) =
      some (true, some (text "one\nt"), some 1) := by decide +kernel

-- A budget of five bytes ends in the second line, which the ledger covers.
theorem cut_line_covered : ¬∀ (reader : PinnedRepositoryReader) (headSha : Text) (s : EvidenceRun),
    Reaches (evidenceStep reader headSha) (fun _ call => call.possible) (startRun headSha) s → CoverageSound reader s := by
  intro always
  have reached : Reaches (evidenceStep twoLines (text "h")) (fun _ call => call.possible) (startRun (text "h"))
      (afterToolCall (startRun (text "h")) (.read cutRead)) := next_reached (.read cutRead) .start trivial
  obtain ⟨row, listed, contains⟩ := always twoLines (text "h") _ reached (text "a.txt") 2 2 (by decide +kernel)
  have facts := cutRead_row
  cases made : readWorkspaceFile twoLines cutRead with
  | none =>
      rw [made] at facts
      cases facts
  | some result =>
      have only : (afterToolCall (startRun (text "h")) (.read cutRead)).results = [result.1] := by
        rw [afterToolCall, evidenceStep, made]
        rfl
      rw [only] at listed
      cases List.mem_singleton.mp listed
      rw [made, Option.map_some, Option.some.injEq, Prod.mk.injEq, Prod.mk.injEq] at facts
      obtain ⟨no_diff, content, start⟩ := facts
      cases contains 2 (Nat.le_refl 2) (Nat.le_refl 2) with
      | file named given first numbered own shown =>
          rw [contentOf, given] at content
          cases content
          rw [start] at first
          cases first
          have second : (fileLines (twoLines.files (normalizeEvidencePath (text "a.txt"))).text)[2 - 1]? = some (text "two") := by decide +kernel
          have part : ((text "one\nt").splitOn '\n')[2 - 1]? = some (text "t") := by decide +kernel
          rw [second] at own
          rw [part] at shown
          exact absurd (own.trans shown.symm) (by decide)
      | diff named given own shown =>
          rw [given] at no_diff
          cases no_diff

end Main
end PrAgent
