import PrAgent.DeliveredDiffs
import PrAgent.DeliveredLines
import PrAgent.GuestRows
set_option autoImplicit false

namespace PrAgent

section Rows

variable {fields : List (Text × JsonTree)} {path : Text}

theorem field_optional {β : Type} (given : Option β) (other name : Text) (tree : β → JsonTree) (different : other ≠ name) :
    JsonTree.field (given.toList.map fun value => (other, tree value)) name = none := by
  apply field_none
  intro entry listed
  obtain ⟨value, _, rfl⟩ := List.mem_map.mp listed
  exact different

theorem output_fields (path : Text) (output : FileReadOutput) (reviewThreads : Option JsonTree) :
    ReadFields (withReviewThreads reviewThreads ((text "path", .string path) :: output.fields)) path output.content output.startLine output.endLine
      output.clampedLines where
  path := by rw [withReviewThreads, List.cons_append, field_cons, if_pos rfl]
  content := by
    rw [withReviewThreads, List.cons_append, field_cons, if_neg (by decide)]
    rfl
  startLine := by
    rw [withReviewThreads, List.cons_append, field_cons, if_neg (by decide)]
    rfl
  endLine := by
    rw [withReviewThreads, List.cons_append, field_cons, if_neg (by decide)]
    rfl
  clampedLines := by
    have first : JsonTree.field [(text "content", .string output.content), (text "size", naturalTree output.size),
        (text "startLine", naturalTree output.startLine), (text "endLine", naturalTree output.endLine),
        (text "truncated", .bool output.truncated), (text "returnedBytes", naturalTree output.returnedBytes)] (text "clampedLines") = none := by
      apply field_none
      simp only [List.forall_mem_cons, List.not_mem_nil, false_implies, implies_true, and_true]
      decide
    have annotated : JsonTree.field (reviewThreads.toList.map fun threads => (text "reviewThreads", threads)) (text "clampedLines") = none :=
      field_optional _ _ _ (fun threads => threads) (by decide)
    rw [withReviewThreads, List.cons_append, field_cons, if_neg (by decide), FileReadOutput.fields]
    simp only [field_append]
    rw [first, field_optional _ _ _ JsonTree.string (by decide), field_optional _ _ _ naturalTree (by decide),
      field_optional _ _ _ JsonTree.string (by decide), annotated]
    by_cases unclamped : output.clampedLines = []
    · rw [if_pos unclamped, if_pos unclamped]
      rfl
    · rw [if_neg unclamped, if_neg unclamped, field_cons, if_pos rfl]
      rfl

-- Fields without a text of a file and without a diff.
def TextFree (fields : List (Text × JsonTree)) : Prop := ∀ entry ∈ fields, entry.1 ≠ text "diff" ∧ (entry.1 = text "content" → entry.2 = .null)

theorem TextFree.nil : TextFree [] := fun _ listed => absurd listed List.not_mem_nil

theorem TextFree.cons {name : Text} (tree : JsonTree) (other : name ≠ text "diff" ∧ name ≠ text "content") (free : TextFree fields) :
    TextFree ((name, tree) :: fields) := by
  intro entry listed
  rcases List.mem_cons.mp listed with rfl | later
  · exact ⟨other.1, fun same => absurd same other.2⟩
  · exact free entry later

theorem TextFree.append {more : List (Text × JsonTree)} (free : TextFree fields) (later : TextFree more) : TextFree (fields ++ more) :=
  fun entry listed => (List.mem_append.mp listed).elim (free entry) (later entry)

theorem TextFree.optional {β : Type} {name : Text} (given : Option β) (tree : β → JsonTree) (other : name ≠ text "diff" ∧ name ≠ text "content") :
    TextFree (given.toList.map fun value => (name, tree value)) := by
  intro entry listed
  obtain ⟨value, _, rfl⟩ := List.mem_map.mp listed
  exact ⟨other.1, fun same => absurd same other.2⟩

theorem TextFree.silent (free : TextFree fields) (reviewThreads : Option JsonTree) : Silent (withReviewThreads reviewThreads fields) := by
  have all : TextFree (withReviewThreads reviewThreads fields) := free.append (.optional reviewThreads (fun threads => threads) (by decide))
  constructor
  · intro value same
    obtain ⟨entry, found, made⟩ := Option.map_eq_some_iff.mp same
    have named : entry.1 = text "content" := by simpa using List.find?_some found
    rw [(all entry (List.mem_of_find?_eq_some found)).2 named] at made
    cases made
  · intro value same
    rw [field_none fun entry listed => (all entry listed).1] at same
    cases same

end Rows

section Names

variable {reader : PinnedRepositoryReader} {path resolved : Text}

theorem canonical_backslash (name : Text) : '\\' ∈ canonicalizeFilename reader name ↔ '\\' ∈ name := by
  rw [← reader.nfc_backslash name, canonicalizeFilename, List.mem_map]
  constructor
  · rintro ⟨c, listed, same⟩
    by_cases blank : c.toNat = 0x202f ∨ c.toNat = 0x00a0
    · rw [if_pos blank] at same
      exact absurd same (by decide)
    · rw [if_neg blank] at same
      by_cases quote : c.toNat = 0x2019 ∨ c.toNat = 0x2018
      · rw [if_pos quote] at same
        exact absurd same (by decide)
      · rw [if_neg quote] at same
        exact same ▸ listed
  · intro listed
    exact ⟨'\\', listed, by decide⟩

theorem equivalent_path (plain : '\\' ∉ path) (found : findUnicodeEquivalentPath reader path = some resolved) :
    resolved ∈ reader.sortedCheckoutPaths ∧ '\\' ∉ resolved := by
  rw [findUnicodeEquivalentPath] at found
  obtain ⟨_, found⟩ := Option.ite_none_left_eq_some.mp found
  split at found
  next single =>
    cases found
    have listed : resolved ∈ [resolved] := List.mem_singleton_self resolved
    rw [← single, List.mem_filter, sameDirEntries, List.mem_filter] at listed
    simp only [Bool.and_eq_true, decide_eq_true_iff, Bool.not_eq_true'] at listed
    obtain ⟨⟨there, ⟨leads, _⟩, flat⟩, _, canonical⟩ := listed
    refine ⟨there, ?_⟩
    obtain ⟨rest, split⟩ := List.isPrefixOf_iff_prefix.mp leads
    have tail : resolved.drop (dirOf path).length = rest := by rw [← split, List.drop_left]
    rw [tail] at flat
    have short : ∀ c ∈ rest, decide (c ≠ '/') = true := by
      intro c listed
      apply decide_eq_true
      rintro rfl
      rw [List.contains_iff_mem.mpr listed] at flat
      cases flat
    have within : ∀ c ∈ rest, c ∈ basenameOf resolved := by
      intro c listed
      rw [basenameOf, ← split, List.reverse_append,
        List.takeWhile_append_of_pos fun c listed => short c (List.mem_reverse.mp listed), List.reverse_append, List.reverse_reverse]
      exact List.mem_append_right _ listed
    have basePlain : '\\' ∉ basenameOf resolved := by
      rw [← @canonical_backslash reader, canonical, canonical_backslash]
      exact fun listed => plain (List.mem_reverse.mp ((List.takeWhile_sublist _).subset (List.mem_reverse.mp listed)))
    intro listed
    rw [← split] at listed
    rcases List.mem_append.mp listed with inside | inside
    · exact plain (List.mem_of_mem_take inside)
    · exact basePlain (within _ inside)
  next => cases found

def WorkspaceFile.isMissing : WorkspaceFile → Bool
  | .missing => true
  | _ => false

-- The path of the file that a read of a path goes to.
def readTarget (reader : PinnedRepositoryReader) (path : Text) : Option Text :=
  let normalized := normalizeEvidencePath path
  if isPathInCheckout reader normalized && !(reader.files normalized).isMissing then some normalized
  else (findUnicodeEquivalentPath reader normalized).filter reader.allows

theorem target_plain (target : readTarget reader path = some resolved) : normalizeEvidencePath resolved = resolved := by
  have plain := normalized_absent path
  rw [readTarget] at target
  by_cases there : (isPathInCheckout reader (normalizeEvidencePath path) && !(reader.files (normalizeEvidencePath path)).isMissing) = true
  · rw [if_pos there] at target
    cases target
    rw [Bool.and_eq_true, isPathInCheckout, forwardSlashes_plain plain] at there
    exact normalized_plain plain (reader.undottedPaths _ (List.contains_iff_mem.mp there.1))
  · rw [if_neg there] at target
    obtain ⟨found, _⟩ := Option.filter_eq_some_iff.mp target
    obtain ⟨listed, absent⟩ := equivalent_path plain found
    exact normalized_plain absent (reader.undottedPaths _ listed)

end Names

section Reads

variable {reader : PinnedRepositoryReader} {call : ReadCall} {row : List (Text × JsonTree)} {delivered : Option (Text × FileReadOutput)}

-- What a read that does not throw gives.
structure FileDelivered (reader : PinnedRepositoryReader) (call : ReadCall) (row : List (Text × JsonTree)) (path : Text) (output : FileReadOutput) :
    Prop where
  target : readTarget reader call.path = some path
  read : readBudgetedWorkspaceTextFile (reader.files path) call.options call.window = .read output
  fields : ReadFields row path output.content output.startLine output.endLine output.clampedLines

inductive ReadGives (reader : PinnedRepositoryReader) (call : ReadCall) (row : List (Text × JsonTree)) : Option (Text × FileReadOutput) → Prop
  | silent (silent : Silent row) : ReadGives reader call row none
  | file {path : Text} {output : FileReadOutput} (delivered : FileDelivered reader call row path output) :
      ReadGives reader call row (some (path, output))

theorem responded_gives {readPath : Text} {note : Option Text} {result : BudgetedRead} (target : readTarget reader call.path = some readPath)
    (read : readBudgetedWorkspaceTextFile (reader.files readPath) call.options call.window = result)
    (made : respondWithRead reader call readPath note result = (row, delivered)) : ReadGives reader call row delivered := by
  cases result with
  | refused kind reason =>
      cases made
      have free : TextFree (readResponse reader call readPath note (.refused kind reason)) :=
        .append (.cons _ (by decide) (.cons _ (by decide) (.cons _ (by decide) (.cons _ (by decide) .nil)))) (.optional note JsonTree.string (by decide))
      exact .silent (free.silent call.reviewThreads)
  | spilled content =>
      cases made
      have free : TextFree (readResponse reader call readPath note (.spilled content)) :=
        .append (.cons _ (by decide) (.cons _ (by decide) (.cons _ (by decide) (.cons _ (by decide) (.cons _ (by decide) (.cons _ (by decide) .nil))))))
          (.optional _ JsonTree.string (by decide))
      exact .silent (free.silent call.reviewThreads)
  | read output =>
      cases made
      exact .file ⟨target, read, output_fields readPath _ call.reviewThreads⟩

theorem missing_gives {normalized : Text} (target : readTarget reader call.path = (findUnicodeEquivalentPath reader normalized).filter reader.allows)
    (made : respondToMissing reader call normalized = some (row, delivered)) : ReadGives reader call row delivered := by
  rw [respondToMissing] at made
  cases found : (findUnicodeEquivalentPath reader normalized).filter reader.allows with
  | none =>
      rw [found] at made
      cases made
      apply ReadGives.silent
      apply TextFree.silent
      refine .append (.cons _ (by decide) (.cons _ (by decide) (.cons _ (by decide) (.cons _ (by decide) .nil)))) ?_
      by_cases none_ : reader.suggestSimilarPaths normalized = []
      · rw [if_pos none_]
        exact .nil
      · rw [if_neg none_]
        exact .cons _ (by decide) .nil
  | some resolved =>
      rw [found] at made target
      simp only [readerReadFile] at made
      by_cases open_ : reader.assertDiff resolved = true
      · rw [if_pos open_] at made
        exact responded_gives target rfl (Option.some.inj made)
      · rw [if_neg open_] at made
        cases made

theorem missing_only {file : WorkspaceFile} {opts : BudgetedReadOptions} {window : FileReadWindowParams} {reason : Text}
    (refused : readBudgetedWorkspaceTextFile file opts window = .refused .missing reason) : file.isMissing = true := by
  cases file with
  | missing => rfl
  | special kind => cases refused
  | regular bytes =>
      rw [readBudgetedWorkspaceTextFile] at refused
      by_cases large : opts.maxFileBytes < bytes.length
      · rw [if_pos large] at refused
        cases refused
      · rw [if_neg large] at refused
        simp only at refused
        split at refused
        · cases refused
        · split at refused
          · cases refused
          · cases refused

theorem readWorkspaceFile_gives (made : readWorkspaceFile reader call = some (row, delivered)) : ReadGives reader call row delivered := by
  rw [readWorkspaceFile] at made
  obtain ⟨open_, made⟩ := Option.ite_none_right_eq_some.mp made
  by_cases deleted : ((changedFileByPath reader (normalizeEvidencePath call.path)).any fun file => file.status = .deleted) = true
  · rw [if_pos deleted] at made
    cases made
    apply ReadGives.silent
    apply TextFree.silent
    refine .cons _ (by decide) (.cons _ (by decide) ?_)
    intro entry listed
    rw [List.mem_singleton.mp listed]
    exact ⟨by decide, fun _ => rfl⟩
  · rw [if_neg deleted] at made
    by_cases there : isPathInCheckout reader (normalizeEvidencePath call.path) = true
    · rw [if_pos there, readerReadFile, if_pos open_] at made
      by_cases missing : (reader.files (normalizeEvidencePath call.path)).isMissing = true
      · have target : readTarget reader call.path = (findUnicodeEquivalentPath reader (normalizeEvidencePath call.path)).filter reader.allows := by
          rw [readTarget, missing]
          simp
        cases file : reader.files (normalizeEvidencePath call.path) with
        | missing =>
            rw [file] at made
            exact missing_gives target made
        | special kind =>
            rw [file] at missing
            cases missing
        | regular bytes =>
            rw [file] at missing
            cases missing
      · have target : readTarget reader call.path = some (normalizeEvidencePath call.path) := by
          rw [readTarget, there, Bool.eq_false_iff.mpr missing]
          rfl
        split at made
        next refused => exact absurd (missing_only (Option.some.inj refused)) missing
        next => exact responded_gives target rfl (Option.some.inj made)
    · rw [if_neg there] at made
      apply missing_gives _ made
      rw [readTarget, Bool.eq_false_iff.mpr there]
      rfl

end Reads

section Diffs

variable {reader : PinnedRepositoryReader} {call : DiffCall} {row : List (Text × JsonTree)} {path diff : Text}

-- The diff of a path, before the budgets.
def diffOf (reader : PinnedRepositoryReader) (path : Text) : Text := (classifyPinnedPrDiff reader (normalizeEvidencePath path)).diff

-- The patch that the diff of a path is taken from.
def patchOf (reader : PinnedRepositoryReader) (path : Text) : Option FilePatch :=
  (reader.patchByPath (normalizeEvidencePath path)).filter fun _ =>
    (classifyPinnedPrDiff reader (normalizeEvidencePath path)).availability = .available

theorem diffFields_content (evidence : WorkspacePathDiff) (shown : Text) : JsonTree.field (evidence.fields shown) (text "content") = none := by
  rw [WorkspacePathDiff.fields, field_append, field_cons, if_neg (by decide), field_cons, if_neg (by decide), field_cons, if_neg (by decide),
    field_optional _ _ _ JsonTree.string (by decide)]
  rfl

theorem getWorkspaceDiff_gives (made : getWorkspaceDiff reader call = some (row, (path, diff))) :
    path = normalizeEvidencePath call.path ∧ diff = takeBytes call.diffResponseBytes (diffOf reader call.path) ∧ DiffFields row path diff := by
  rw [getWorkspaceDiff] at made
  obtain ⟨_, made⟩ := Option.ite_none_right_eq_some.mp made
  cases made
  refine ⟨rfl, capTextOutput_content _ _ _, ?_, ?_, ?_⟩
  · rw [withReviewThreads, List.cons_append, field_cons, if_pos rfl]
  · have own := diffFields_content (classifyPinnedPrDiff reader (normalizeEvidencePath call.path))
      (capTextOutput (diffOf reader call.path) call.diffResponseBytes responseByteBudgetTruncationReason).content
    have annotated : JsonTree.field (call.reviewThreads.toList.map fun threads => (text "reviewThreads", threads)) (text "content") = none :=
      field_optional _ _ _ (fun threads => threads) (by decide)
    have counts (truncated : Bool) (returnedBytes : Nat) : JsonTree.field [(text "truncated", .bool truncated),
        (text "returnedBytes", naturalTree returnedBytes)] (text "content") = none := by
      rw [field_cons, if_neg (by decide), field_cons, if_neg (by decide)]
      rfl
    rw [withReviewThreads, List.cons_append, field_cons, if_neg (by decide), field_append, field_append, field_append, counts,
      field_optional _ _ _ JsonTree.string (by decide), annotated]
    exact (Option.or_none.trans (Option.or_none.trans Option.or_none)).trans own
  · rw [withReviewThreads, List.cons_append, field_cons, if_neg (by decide)]
    rfl

theorem classified {normalized : Text} (plain : '\\' ∉ normalized) : '@' ∉ (classifyPinnedPrDiff reader normalized).diff ∨
    ∃ patch, reader.patchByPath normalized = some patch ∧ (classifyPinnedPrDiff reader normalized).availability = .available := by
  rw [classifyPinnedPrDiff, forwardSlashes_plain plain]
  by_cases changed : (changedFileByPath reader normalized).isSome = true
  · rw [if_pos changed]
    by_cases omitted : reader.patchOmittedByCapPaths.contains normalized = true
    · rw [if_pos omitted]
      exact .inl (by decide)
    · rw [if_neg omitted]
      cases reader.patchByPath normalized with
      | none => exact .inl List.not_mem_nil
      | some patch =>
          simp only
          by_cases empty : patch.text = []
          · rw [if_pos empty]
            exact .inl List.not_mem_nil
          · rw [if_neg empty]
            refine .inr ⟨patch, rfl, ?_⟩
            by_cases long : localWorkspaceMaxDiffBytes < unitLength patch.text
            · rw [if_pos long]
            · rw [if_neg long]
  · rw [if_neg changed]
    split
    · exact .inl List.not_mem_nil
    · split
      · exact .inl List.not_mem_nil
      · exact .inl List.not_mem_nil

theorem unpatched_diff (unpatched : patchOf reader path = none) : '@' ∉ diffOf reader path := by
  rcases @classified reader _ (normalized_absent path) with absent | ⟨patch, found, available⟩
  · exact absent
  · rw [patchOf, found, Option.filter_some, if_pos (decide_eq_true available)] at unpatched
    cases unpatched

-- Without a hunk there is no line to comment on.
theorem no_ranges (plain : '@' ∉ diff) : parseCommentableRightLineRanges diff = [] := by
  have lines : ∀ line ∈ patchLines diff, ¬['@', '@'].isPrefixOf line := by
    intro line listed opens
    have inside : '@' ∈ line := (List.isPrefixOf_iff_prefix.mp opens).subset List.mem_cons_self
    obtain ⟨before, after, whole⟩ := (splitOn_piece ((patchLines_first diff).subset listed)).2
    exact plain (whole ▸ List.mem_append_left _ (List.mem_append_right _ inside))
  have scanned := scan_preamble (patchLines diff) [] lines
  rw [List.append_nil] at scanned
  rw [parseCommentableRightLineRanges]
  by_cases empty : diff = []
  · rw [if_pos empty]
  · rw [if_neg empty]
    exact scanned

theorem patched_plain {patch : FilePatch} (patched : patchOf reader path = some patch) :
    normalizeEvidencePath (normalizeEvidencePath path) = normalizeEvidencePath path := by
  have plain := normalized_absent path
  obtain ⟨_, available⟩ := Option.filter_eq_some_iff.mp patched
  generalize normalizeEvidencePath path = normalized at plain available ⊢
  rw [classifyPinnedPrDiff] at available
  by_cases changed : (changedFileByPath reader (forwardSlashes normalized)).isSome = true
  · obtain ⟨file, found⟩ := Option.isSome_iff_exists.mp changed
    have listed : file ∈ reader.changedFiles := List.mem_reverse.mp (List.mem_of_find?_eq_some found)
    have named : file.path = forwardSlashes normalized := by simpa using List.find?_some found
    rw [forwardSlashes_plain plain] at named
    exact normalized_plain plain (named ▸ reader.undottedChanges file listed)
  · rw [if_neg changed] at available
    split at available
    · cases (of_decide_eq_true available : DiffAvailability.unavailable = .available)
    · split at available
      · cases (of_decide_eq_true available : DiffAvailability.unavailable = .available)
      · cases (of_decide_eq_true available : DiffAvailability.unchanged = .available)

end Diffs
end PrAgent
