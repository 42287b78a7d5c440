import PrAgent.PreviewReplay
set_option autoImplicit false

namespace PrAgent

variable {Path Blob : Type} {git : Git Path Blob} {policy : CommitPolicy}

section Property

variable (git)

-- Each commit is what the diff of its hunk makes of the commit before it, within the limit on lines.
structure ReplayExact (start : FileTree Path Blob) (s : Replay Path Blob) : Prop where
  chain : Chain start s.checkout.history s.checkout.head
  applied : List.Forall₂ (fun hunk commit => git.apply commit.parent hunk.diff = some commit.tree) s.committed s.checkout.history
  within : ∀ commit ∈ s.checkout.history, lineChanges (git.diff commit.parent commit.tree) ≤
    triageMaxCommitDiffLines + hiddenChanges (git.diff commit.parent commit.tree)

-- An attempt that may fail after it has created a file fails when the file is staged.
structure Recoverable (start : FileTree Path Blob) (s : Replay Path Blob) (luck : ReplayLuck) : Prop where
  reset : luck.reset = true
  answered : luck.commit ≠ some .revParse
  created : ∀ hunk todo, s.todo = hunk :: todo → ∀ patched, git.apply s.checkout.head hunk.diff = some patched →
    (∃ path, s.checkout.head path = none ∧ patched path ≠ none) →
      luck.apply ≠ some .after ∧ luck.commit ≠ some .reset ∧ luck.commit ≠ some .add ∧
      lineChanges (git.diff s.checkout.head patched) ≤ triageMaxCommitDiffLines ∧
      ∀ path, s.checkout.head path = none → patched path ≠ none → git.Unignored start patched path

variable (policy)

def Previewed (start : FileTree Path Blob) (hunk : TriagePreviewHunk) : Prop :=
  ∃ commit, Replayable git policy start commit ∧ Recorded git policy hunk commit

structure ReplayInvariant (start : FileTree Path Blob) (s : Replay Path Blob) : Prop extends ReplayExact git start s where
  clean : Clean git start s.checkout
  previewed : ∀ hunk ∈ s.todo, Previewed git policy start hunk

end Property

section Steps

variable {start : FileTree Path Blob} {s : Replay Path Blob} {hunk : TriagePreviewHunk} {todo : List TriagePreviewHunk}
  {commit : Commit Path Blob}

theorem changedLineCount_le (files : List FileDiff) : changedLineCount (diffText files) ≤ lineChanges files := by
  have total := changedLineCount_add files
  omega

-- A hunk that fails, when what it leaves is known to git.
theorem refuse_exact (inv : ReplayInvariant git policy start s) (todo_ : s.todo = hunk :: todo) (luck : ReplayLuck)
    (reset : luck.reset = true) (checkout : Checkout Path Blob) (history : checkout.history = s.checkout.history)
    (head : checkout.head = s.checkout.head)
    (left : ∀ path, checkout.index path = none → checkout.head path = none → checkout.work path = none ∨ git.Link start path) :
    ReplayInvariant git policy start ((Replay.refuse { s with todo } luck hunk checkout)) := by
  have after : (Replay.refuse { s with todo } luck hunk checkout).checkout = checkout.resetUncommitted := if_pos reset
  have history_ : (Replay.refuse { s with todo } luck hunk checkout).checkout.history = s.checkout.history := by
    rw [after]
    exact history
  have head_ : (Replay.refuse { s with todo } luck hunk checkout).checkout.head = s.checkout.head := by
    rw [after]
    exact head
  constructor
  · constructor
    · rw [history_, head_]
      exact inv.chain
    · rw [history_]
      exact inv.applied
    · rw [history_]
      exact inv.within
  · rw [after]
    exact reset_clean left
  · intro other listed
    exact inv.previewed other (by rw [todo_]; exact List.mem_cons_of_mem _ listed)

theorem tree_present (replayable : Replayable git policy start commit) {path : Path}
    (changed : commit.parent path ≠ commit.tree path) : commit.tree path ≠ none := by
  by_cases new : commit.parent path = none
  · intro absent
    exact changed (by rw [new, absent])
  · exact replayable.kept path new

-- Git finds each path of the diff.
theorem add_finds (sound : git.Sound) (replayable : Replayable git policy start commit) {work patched head : FileTree Path Blob}
    (applied : git.apply work (diffText (git.diff commit.parent commit.tree)) = some patched)
    (unignored : ∀ path, commit.parent path ≠ commit.tree path → head path = none → git.ignores patched path = false) :
    ∃ staged, git.add (pathsFromUnifiedDiff (diffText (git.diff commit.parent commit.tree))) head patched = some staged := by
  apply sound.add_exists
  intro file listed
  obtain ⟨path, changed, same⟩ := (mem_paths sound replayable).mp listed
  have exists_ : (patched path).isSome = true :=
    (sound.apply_exists _ _ _ _ applied path changed).mpr (Option.isSome_iff_ne_none.mpr (tree_present replayable changed))
  refine ⟨path, ?_, ?_⟩
  · rw [same]
    exact replayable.selectsItself path changed
  · cases here : head path with
    | some blob => exact .inl rfl
    | none => exact .inr ⟨exists_, unignored path changed here⟩

variable (git start) in
-- The diff of a commit applied to a checkout: the work tree after it, and what it makes of the head.
structure HunkAttempt (checkout : Checkout Path Blob) (commit : Commit Path Blob) (patched tree : FileTree Path Blob) : Prop where
  applied : git.apply checkout.work (diffText (git.diff commit.parent commit.tree)) = some patched
  onHead : git.apply checkout.head (diffText (git.diff commit.parent commit.tree)) = some tree
  changed : ∀ path, commit.parent path ≠ commit.tree path → tree path = patched path
  unchanged : ∀ path, commit.parent path = commit.tree path → tree path = checkout.head path
  agrees : ∀ path, patched path = tree path ∨ git.Link start path

variable {checkout : Checkout Path Blob} {patched tree index : FileTree Path Blob}

theorem attempt (sound : git.Sound) (replayable : Replayable git policy start commit) (clean : Clean git start checkout)
    (applied : git.apply checkout.work (diffText (git.diff commit.parent commit.tree)) = some patched) :
    ∃ tree, HunkAttempt git start checkout commit patched tree := by
  obtain ⟨tree, result, values⟩ := head_patched sound replayable clean.work applied
  refine ⟨tree, applied, result, fun path => (values path).1, fun path => (values path).2, ?_⟩
  intro path
  by_cases same : commit.parent path = commit.tree path
  · rw [(values path).2 same, apply_unchanged sound applied same]
    exact clean.work path
  · exact .inl ((values path).1 same).symm

section Attempted

variable (attempt : HunkAttempt git start checkout commit patched tree)
include attempt

theorem HunkAttempt.staged (sound : git.Sound)
    (replayable : Replayable git policy start commit) (clean : Clean git start checkout)
    (added : git.add (pathsFromUnifiedDiff (diffText (git.diff commit.parent commit.tree))) checkout.head patched = some index) :
    index = tree := by
  funext path
  have here := staged_eq sound replayable clean.work attempt.applied added path
  by_cases same : commit.parent path = commit.tree path
  · rw [here.2 same, attempt.unchanged path same]
  · rw [here.1 same, attempt.changed path same]

theorem HunkAttempt.limited (sound : git.Sound)
    (replayable : Replayable git policy start commit) :
    git.limited (pathsFromUnifiedDiff (diffText (git.diff commit.parent commit.tree))) checkout.head tree = tree :=
  staged_whole sound replayable attempt.unchanged

theorem HunkAttempt.unignored (sound : git.Sound)
    (replayable : Replayable git policy start commit)
    (unignored : ∀ path, checkout.head path = none → tree path ≠ none → git.Unignored start tree path) {path : Path}
    (changed : commit.parent path ≠ commit.tree path) (absent : checkout.head path = none) :
    git.ignores patched path = false := by
  apply unignored path absent _ patched attempt.agrees
  rw [attempt.changed path changed]
  exact Option.isSome_iff_ne_none.mp ((sound.apply_exists _ _ _ _ attempt.applied path changed).mpr
    (Option.isSome_iff_ne_none.mpr (tree_present replayable changed)))

theorem absent_or_link {path : Path} (absent : tree path = none) :
    patched path = none ∨ git.Link start path := by
  cases attempt.agrees path with
  | inl same => exact .inl (same.trans absent)
  | inr link => exact .inr link

end Attempted

-- A commit that throws after the diff is applied.
theorem refused_exact (sound : git.Sound) (inv : ReplayInvariant git policy start s) (todo_ : s.todo = hunk :: todo)
    (replayable : Replayable git policy start commit) (recorded : Recorded git policy hunk commit) {luck : ReplayLuck}
    (ok : Recoverable git start s luck) (attempt : HunkAttempt git start s.checkout commit patched tree) {ended : Checkout Path Blob}
    (answer : CommitResult git policy (pathsFromUnifiedDiff (diffText (git.diff commit.parent commit.tree))) hunk.subject
      luck.commit { s.checkout with work := patched } (ended, none)) :
    ReplayInvariant git policy start (Replay.refuse { s with todo } luck hunk ended) := by
  have valid := validated sound replayable recorded.changes
  have guarded := ok.created hunk todo todo_ tree (by rw [recorded.whole replayable.kept]; exact attempt.onHead)
  have harmless (none_ : ¬ ∃ path, s.checkout.head path = none ∧ tree path ≠ none) (path : Path)
      (absent : s.checkout.head path = none) : patched path = none ∨ git.Link start path := by
    by_cases gone : tree path = none
    · exact absent_or_link attempt gone
    · exact absurd ⟨path, absent, gone⟩ none_
  cases answer with
  | rejected reason =>
      have none_ : ¬ ∃ path, s.checkout.head path = none ∧ tree path ≠ none := by
        intro creates
        rcases reason with invalid | subject | fault
        · rw [valid] at invalid
          cases invalid
        · rw [recorded.subject, recorded.permitted] at subject
          cases subject
        · exact (guarded creates).2.1 fault
      exact refuse_exact inv todo_ luck ok.reset { s.checkout with work := patched } rfl rfl
        fun path _ absent => harmless none_ path absent
  | unstaged files checked reason =>
      rw [valid] at checked
      cases checked
      have none_ : ¬ ∃ path, s.checkout.head path = none ∧ tree path ≠ none := by
        intro creates
        obtain ⟨_, _, adds, short, unignored⟩ := guarded creates
        rcases reason with fault | failed | ⟨index, added, long⟩
        · exact adds fault
        · obtain ⟨staged, added⟩ := add_finds sound replayable attempt.applied
            fun path changed absent => attempt.unignored sound replayable unignored changed absent
          rw [added] at failed
          cases failed
        · have most := changedLineCount_le (git.diff s.checkout.head tree)
          rw [attempt.staged sound replayable inv.clean added] at long
          simp only [attempt.limited sound replayable] at long
          omega
      exact refuse_exact inv todo_ luck ok.reset { s.checkout with index := s.checkout.head, work := patched } rfl rfl
        fun path _ absent => harmless none_ path absent
  | staged files index checked added reason =>
      rw [valid] at checked
      cases checked
      obtain rfl := attempt.staged sound replayable inv.clean added
      exact refuse_exact inv todo_ luck ok.reset { s.checkout with index, work := patched } rfl rfl
        fun path gone _ => absent_or_link attempt gone
  | unread _ _ reason => exact absurd reason ok.answered

theorem made_exact (sound : git.Sound) (inv : ReplayInvariant git policy start s) (todo_ : s.todo = hunk :: todo)
    (replayable : Replayable git policy start commit) (recorded : Recorded git policy hunk commit)
    (attempt : HunkAttempt git start s.checkout commit patched tree) {fault : Option CommitFault} {ended : Checkout Path Blob} {diff : Text}
    (answer : CommitResult git policy (pathsFromUnifiedDiff (diffText (git.diff commit.parent commit.tree))) hunk.subject
      fault { s.checkout with work := patched } (ended, some diff)) :
    ReplayInvariant git policy start { s with todo, checkout := ended, committed := s.committed ++ [hunk] } := by
  cases answer with
  | made files index checked permitted added within changes =>
      rw [validated sound replayable recorded.changes] at checked
      cases checked
      obtain rfl := attempt.staged sound replayable inv.clean added
      simp only [attempt.limited sound replayable] at within
      have onHead := attempt.onHead
      rw [← recorded.whole replayable.kept] at onHead
      constructor
      · constructor
        · exact inv.chain.append hunk.subject index
        · exact List.rel_append inv.applied (.cons onHead .nil)
        · intro made listed
          cases List.mem_append.mp listed with
          | inl before => exact inv.within made before
          | inr last =>
              obtain rfl := List.mem_singleton.mp last
              have total := changedLineCount_add (git.diff s.checkout.head index)
              simp only
              omega
      · exact ⟨rfl, attempt.agrees⟩
      · intro other listed
        exact inv.previewed other (by rw [todo_]; exact List.mem_cons_of_mem _ listed)

theorem exact_step (sound : git.Sound) (luck : ReplayLuck) (t : Replay Path Blob) (inv : ReplayInvariant git policy start s)
    (ok : Recoverable git start s luck) (moved : replayPreviewHunk git policy s luck = some t) : ReplayInvariant git policy start t := by
  cases todo_ : s.todo with
  | nil =>
      rw [replayPreviewHunk, todo_] at moved
      cases moved
  | cons hunk todo =>
      obtain ⟨commit, replayable, recorded⟩ := inv.previewed hunk (by rw [todo_]; exact List.mem_cons_self)
      have changes := recorded.changes
      have whole := recorded.whole replayable.kept
      rw [replayPreviewHunk, todo_] at moved
      simp only at moved
      rw [whole, if_neg (paths_filled sound replayable changes), applyInput_diffText changes] at moved
      have untouched : ReplayInvariant git policy start (Replay.refuse { s with todo } luck hunk s.checkout) := by
        apply refuse_exact inv todo_ luck ok.reset s.checkout rfl rfl
        intro path _ absent
        cases inv.clean.work path with
        | inl same => exact .inl (same.trans absent)
        | inr link => exact .inr link
      by_cases early : luck.apply = some .before
      · rw [if_pos early] at moved
        cases moved
        exact untouched
      rw [if_neg early] at moved
      cases applied : git.apply s.checkout.work (diffText (git.diff commit.parent commit.tree)) with
      | none =>
          rw [applied] at moved
          cases moved
          exact untouched
      | some patched =>
          rw [applied] at moved
          simp only at moved
          obtain ⟨tree, attempted⟩ := attempt sound replayable inv.clean applied
          by_cases late : luck.apply = some .after
          · rw [if_pos late] at moved
            cases moved
            refine refuse_exact inv todo_ luck ok.reset { s.checkout with work := patched } rfl rfl ?_
            intro path _ absent
            by_cases gone : tree path = none
            · exact absent_or_link attempted gone
            · have guarded := ok.created hunk todo todo_ tree (by rw [whole]; exact attempted.onHead) ⟨path, absent, gone⟩
              exact absurd late guarded.1
          rw [if_neg late] at moved
          have answer := commit_result git policy (pathsFromUnifiedDiff (diffText (git.diff commit.parent commit.tree)))
            hunk.subject luck.commit { s.checkout with work := patched }
          obtain ⟨⟨ended, made⟩, same⟩ : ∃ outcome, Checkout.commit git policy
              (pathsFromUnifiedDiff (diffText (git.diff commit.parent commit.tree))) hunk.subject luck.commit
                { s.checkout with work := patched } = outcome := ⟨_, rfl⟩
          rw [same] at answer moved
          cases made with
          | none =>
              cases moved
              exact refused_exact sound inv todo_ replayable recorded ok attempted answer
          | some diff =>
              cases moved
              exact made_exact sound inv todo_ replayable recorded attempted answer

end Steps
section Whole

-- Nothing fails for a reason of its own.
def Untroubled (luck : ReplayLuck) : Prop := luck.apply = none ∧ luck.commit = none

variable (git policy)

-- What is left of the preview when its first hunks are replayed.
structure ReplayedSoFar (start : FileTree Path Blob) (preview : Preview Path Blob) (s : Replay Path Blob) : Prop where
  clean : Clean git start s.checkout
  errors : s.commitErrors = []
  hunks : s.committed ++ s.todo = preview.hunks
  same : List.Forall₂ (fun hunk commit => diffText (git.diff commit.parent commit.tree) = hunk.diff) s.committed s.checkout.history
  left : ∃ rest, s.checkout.history ++ rest = preview.checkout.history ∧ List.Forall₂ (Recorded git policy) s.todo rest ∧
    Chain s.checkout.head rest preview.checkout.head

variable {git policy} {start : FileTree Path Blob} {preview : Preview Path Blob} {s : Replay Path Blob} {commit : Commit Path Blob}
  {hunk : TriagePreviewHunk} {todo : List TriagePreviewHunk} {checkout : Checkout Path Blob}

-- On a checkout of its parent, the diff of a commit gives the tree of the commit.
theorem attempt_parent (sound : git.Sound) (replayable : Replayable git policy start commit) (clean : Clean git start checkout)
    (parent : commit.parent = checkout.head) :
    ∃ patched, HunkAttempt git start checkout commit patched commit.tree := by
  have agree : ∀ path changed, commit.parent changed ≠ commit.tree changed → (git.name path).Crosses (git.name changed) →
      checkout.work path = commit.parent path := by
    intro path changed differs_ crosses
    cases clean.work path with
    | inl same => rw [parent, same]
    | inr link => exact absurd crosses (replayable.linkFree changed path differs_ link)
  obtain ⟨patched, applied, values⟩ := sound.apply_diff _ _ _ replayable.legible agree
  obtain ⟨tree, attempted⟩ := attempt sound replayable clean applied
  have whole : tree = commit.tree := by
    funext path
    by_cases same : commit.parent path = commit.tree path
    · rw [attempted.unchanged path same, ← parent, same]
    · rw [attempted.changed path same]
      cases values path with
      | inl here => exact here
      | inr untouched => exact absurd untouched.1 same
  rw [whole] at attempted
  exact ⟨patched, attempted⟩

theorem replayed_commit (sound : git.Sound) (replayable : Replayable git policy start commit)
    (recorded : Recorded git policy hunk commit) (clean : Clean git start checkout) (parent : commit.parent = checkout.head)
    (unignored : ∀ path, commit.parent path = none → commit.tree path ≠ none → git.Unignored start commit.tree path)
    {patched : FileTree Path Blob} (attempted : HunkAttempt git start checkout commit patched commit.tree)
    {outcome : Checkout Path Blob × Option Text}
    (answer : CommitResult git policy (pathsFromUnifiedDiff (diffText (git.diff commit.parent commit.tree))) hunk.subject
      none { checkout with work := patched } outcome) :
    ∃ diff, outcome = (⟨commit.tree, commit.tree, patched, checkout.history ++ [commit]⟩, some diff) := by
  have valid := validated sound replayable recorded.changes
  have within := recorded.within
  rw [recorded.whole replayable.kept, parent] at within
  have limited := attempted.limited sound replayable
  cases answer with
  | rejected reason =>
      rcases reason with invalid | subject | fault
      · rw [valid] at invalid
        cases invalid
      · rw [recorded.subject, recorded.permitted] at subject
        cases subject
      · cases fault
  | unstaged files checked reason =>
      rw [valid] at checked
      cases checked
      rcases reason with fault | failed | ⟨index, added, long⟩
      · cases fault
      · obtain ⟨staged, added⟩ := add_finds sound replayable attempted.applied fun path changed absent =>
          attempted.unignored sound replayable (by rw [← parent]; exact unignored) changed absent
        rw [added] at failed
        cases failed
      · rw [attempted.staged sound replayable clean added] at long
        simp only [limited] at long
        omega
  | staged files index checked added reason =>
      rw [valid] at checked
      cases checked
      rw [attempted.staged sound replayable clean added] at reason
      simp only [limited] at reason
      rcases reason with fault | long | empty
      · cases fault
      · omega
      · exact absurd (by rw [parent]; exact empty) recorded.changes
  | unread _ _ reason => cases reason
  | made files index checked permitted added short changes =>
      rw [valid] at checked
      cases checked
      obtain rfl := attempted.staged sound replayable clean added
      rw [recorded.subject, ← parent]
      exact ⟨_, rfl⟩

theorem replayed_step (sound : git.Sound) (replayable : ∀ commit ∈ preview.checkout.history, Replayable git policy start commit)
    (unignored : ∀ commit ∈ preview.checkout.history, ∀ path, commit.parent path = none → commit.tree path ≠ none →
      git.Unignored start commit.tree path)
    (luck : ReplayLuck) (t : Replay Path Blob) (soFar : ReplayedSoFar git policy start preview s) (untroubled : Untroubled luck)
    (moved : replayPreviewHunk git policy s luck = some t) : ReplayedSoFar git policy start preview t := by
  obtain ⟨rest, history, recorded, chain⟩ := soFar.left
  cases todo_ : s.todo with
  | nil =>
      rw [replayPreviewHunk, todo_] at moved
      cases moved
  | cons hunk todo =>
      rw [todo_] at recorded
      cases recorded with
      | cons here later =>
          rename_i commit rest
          have listed : commit ∈ preview.checkout.history := by
            rw [← history]
            exact List.mem_append_right _ List.mem_cons_self
          have replayable := replayable commit listed
          obtain ⟨patched, attempted⟩ := attempt_parent sound replayable soFar.clean chain.1
          have whole := here.whole replayable.kept
          have answer := commit_result git policy (pathsFromUnifiedDiff (diffText (git.diff commit.parent commit.tree)))
            hunk.subject luck.commit { s.checkout with work := patched }
          rw [untroubled.2] at answer
          obtain ⟨diff, made⟩ := replayed_commit sound replayable here soFar.clean chain.1 (unignored commit listed) attempted answer
          rw [replayPreviewHunk, todo_] at moved
          simp only at moved
          rw [whole, if_neg (paths_filled sound replayable here.changes), applyInput_diffText here.changes, untroubled.1,
            untroubled.2, if_neg (by decide), attempted.applied] at moved
          simp only at moved
          rw [if_neg (by decide), made] at moved
          cases moved
          constructor
          · exact ⟨rfl, attempted.agrees⟩
          · exact soFar.errors
          · rw [← soFar.hunks, todo_, List.append_assoc, List.singleton_append]
          · exact List.rel_append soFar.same (.cons whole.symm .nil)
          · refine ⟨rest, ?_, later, chain.2⟩
            rw [List.append_assoc, List.singleton_append]
            exact history

end Whole
section Result

variable (git) in
def replayStart (start : FileTree Path Blob) (preview : Preview Path Blob) (approvedIds : Nat → Bool) : Replay Path Blob where
  checkout := git.checkedOut start
  todo := approvedPreviewHunks preview.hunks approvedIds

variable {start : FileTree Path Blob} {preview : Preview Path Blob}

theorem checkedOut_clean (start : FileTree Path Blob) : Clean git start (git.checkedOut start) where
  index := rfl
  work := by
    intro path
    cases here : start path with
    | none => exact .inl (by simp [Git.checkedOut, Git.stripped, here])
    | some blob =>
        cases link : git.isLink blob with
        | true => exact .inr ⟨blob, here, link⟩
        | false => exact .inl (by simp [Git.checkedOut, Git.stripped, here, link])

theorem recorded_hasDiff {hunk : TriagePreviewHunk} {commit : Commit Path Blob} (recorded : Recorded git policy hunk commit)
    (kept : ∀ path, commit.parent path ≠ none → commit.tree path ≠ none) : previewHunkHasDiff hunk = true := by
  obtain ⟨file, rest, files⟩ := List.exists_cons_of_ne_nil recorded.changes
  have starts : ∃ more, hunk.diff = 'd' :: more := by
    rw [recorded.whole kept, files]
    exact ⟨_, rfl⟩
  obtain ⟨more, letters⟩ := starts
  have dropped : ('d' :: more).dropWhile isSpace = 'd' :: more := List.dropWhile_cons_of_neg (by decide)
  have kept : (('d' :: more).reverse.dropWhile isSpace) ≠ [] := by
    intro empty
    have spaced := List.dropWhile_eq_nil_iff.mp empty 'd' (by simp)
    exact absurd spaced (by decide)
  rw [previewHunkHasDiff, letters, trim, dropped, List.length_reverse]
  exact decide_eq_true (List.length_pos_iff.mpr kept)

-- In every replay of a preview whose commits are all replayable.
theorem bulk_replay [DecidableEq Path] (sound : git.Sound) (inventory : List Nat)
    (previewed : Reaches (previewStep git policy inventory) (fun _ event => event.answered)
      { checkout := git.checkedOut start } preview)
    (replayable : ∀ commit ∈ preview.checkout.history, Replayable git policy start commit) (approvedIds : Nat → Bool) :
    List.Forall₂ (fun hunk commit => ∀ name, name ∈ namedBy hunk.diff ↔
        ∃ path, (git.name path).bytes = name ∧ commit.parent path ≠ commit.tree path) preview.hunks preview.checkout.history ∧
      (∀ s, Reaches (replayPreviewHunk git policy) (Recoverable git start) (replayStart git start preview approvedIds) s →
        ReplayExact git start s) ∧
      ((∀ hunk ∈ preview.hunks, approvedIds hunk.threadRootCommentId = true) →
        (∀ commit ∈ preview.checkout.history, ∀ path, commit.parent path = none → commit.tree path ≠ none →
          git.Unignored start commit.tree path) →
        ∀ s, Reaches (replayPreviewHunk git policy) (fun _ luck => Untroubled luck) (replayStart git start preview approvedIds) s →
          s.commitErrors = [] ∧ s.committed ++ s.todo = preview.hunks ∧
            List.Forall₂ (fun hunk commit => diffText (git.diff commit.parent commit.tree) = hunk.diff) s.committed
              s.checkout.history ∧
            ∃ rest, s.checkout.history ++ rest = preview.checkout.history ∧ rest.length = s.todo.length) := by
  have inv : PreviewInvariant git policy start preview :=
    previewed.invariant _ (preview_checked_out start) (preview_step sound inventory start)
  have both : ∀ hunks history, List.Forall₂ (Recorded git policy) hunks history →
      (∀ commit ∈ history, Replayable git policy start commit) →
      List.Forall₂ (fun hunk commit => Recorded git policy hunk commit ∧ Replayable git policy start commit) hunks history := by
    intro hunks history recorded all
    induction recorded with
    | nil => exact .nil
    | cons here _ ih =>
        exact .cons ⟨here, all _ List.mem_cons_self⟩ (ih fun commit listed => all commit (List.mem_cons_of_mem _ listed))
  have known := both _ _ inv.recorded replayable
  have listed : ∀ hunk ∈ preview.hunks, Previewed git policy start hunk := by
    intro hunk here
    obtain ⟨i, inside, same⟩ := List.mem_iff_getElem.mp here
    have pair := List.forall₂_iff_get.mp known |>.2 i inside (by rw [← known.length_eq]; exact inside)
    simp only [List.get_eq_getElem, same] at pair
    exact ⟨_, pair.2, pair.1⟩
  refine ⟨?_, ?_, ?_⟩
  · apply known.imp
    intro hunk commit pair name
    rw [pair.1.whole pair.2.kept]
    have exact_ := (namedBy_exact_iff (git.diff commit.parent commit.tree)).mpr (by
      intro file inside
      obtain ⟨path, named, changed⟩ := (sound.diff_names _ _ _).mp (List.mem_map_of_mem inside)
      exact named ▸ pair.2.readBack path changed) name
    rw [exact_, changedNames, List.mem_map]
    constructor
    · intro ⟨file, inside, same⟩
      obtain ⟨path, named, changed⟩ := (sound.diff_names _ _ _).mp (List.mem_map_of_mem inside)
      exact ⟨path, by rw [named, same], changed⟩
    · intro ⟨path, same, changed⟩
      obtain ⟨file, inside, named⟩ := List.mem_map.mp ((sound.diff_names _ _ _).mpr ⟨path, rfl, changed⟩)
      exact ⟨file, inside, by rw [named, same]⟩
  · intro s reached
    have initial : ReplayInvariant git policy start (replayStart git start preview approvedIds) := by
      constructor
      · exact ⟨rfl, .nil, fun commit inside => absurd inside List.not_mem_nil⟩
      · exact checkedOut_clean start
      · intro hunk inside
        exact listed hunk (List.mem_of_mem_filter inside)
    exact (reached.invariant _ initial fun s luck t inv ok moved => exact_step sound luck t inv ok moved).toReplayExact
  · intro all unignored s reached
    have approved : approvedPreviewHunks preview.hunks approvedIds = preview.hunks := by
      apply List.filter_eq_self.mpr
      intro hunk inside
      obtain ⟨commit, replayable, recorded⟩ := listed hunk inside
      rw [all hunk inside, recorded_hasDiff recorded replayable.kept]
      rfl
    have initial : ReplayedSoFar git policy start preview (replayStart git start preview approvedIds) := by
      constructor
      · exact checkedOut_clean start
      · rfl
      · exact approved
      · exact .nil
      · refine ⟨preview.checkout.history, rfl, ?_, inv.chain⟩
        rw [replayStart, approved]
        exact inv.recorded
    have soFar := reached.invariant _ initial fun s luck t soFar untroubled moved =>
      replayed_step sound replayable unignored luck t soFar untroubled moved
    obtain ⟨rest, history, recorded, _⟩ := soFar.left
    exact ⟨soFar.errors, soFar.hunks, soFar.same, rest, history, recorded.length_eq.symm⟩

end Result
section Examples

-- A repository with one path, whose file is there with one line or is not.
abbrev OneFile := FileTree Unit Unit

def newLine : Line := ⟨text "x", by decide⟩
def mode100644 : Line := ⟨text "100644", by decide⟩

def created (name : GitName) : FileDiff where
  path := name
  extended := [(.newFileMode, mode100644), (.index, ⟨text "0000000..587be6b", by decide⟩)]
  body := .hunks true false [⟨⟨text "-0,0 +1 @@", by decide⟩, [.added newLine]⟩]

def deleted (name : GitName) : FileDiff where
  path := name
  extended := [(.deletedFileMode, mode100644), (.index, ⟨text "587be6b..0000000", by decide⟩)]
  body := .hunks false true [⟨⟨text "-1 +0,0 @@", by decide⟩, [.removed newLine]⟩]

def oneFileDiff (name : GitName) (a b : OneFile) : List FileDiff :=
  match a (), b () with
  | none, some _ => [created name]
  | some _, none => [deleted name]
  | _, _ => []

def oneFileGit (name : GitName) : Git Unit Unit where
  name := fun _ => name
  diff := oneFileDiff name
  apply := fun work diff =>
    if diff = diffText [] then some work
    else if diff = diffText [created name] ∧ work () = none then some fun _ => some ()
    else if diff = diffText [deleted name] ∧ work () = some () then some fun _ => none
    else none
  add := fun files index work =>
    if files = [] then some index
    else if (files.all fun file => writeUtf8 file = name.bytes) && ((index ()).isSome || (work ()).isSome) then some work
    else none
  selects := fun file _ => writeUtf8 file = name.bytes
  ignores := fun _ _ => false
  isLink := fun _ => false
  legible := fun _ _ => true

theorem created_differs (name : GitName) : diffText [created name] ≠ diffText [deleted name] := by
  intro same
  have lines := congrArg (fun diff => ((diff.splitOn '\n').drop 1).head?) same
  simp only [diffText_lines] at lines
  have wrong : some (text "new file mode 100644") = some (text "deleted file mode 100644") := lines
  exact absurd wrong (by decide)

theorem diffText_filled (file : FileDiff) : diffText [file] ≠ diffText [] := by
  intro same
  cases same

theorem oneFile_cases (tree : OneFile) : tree = (fun _ => none) ∨ tree = fun _ => some () := by
  cases here : tree () with
  | none => exact .inl (funext fun _ => here)
  | some _ => exact .inr (funext fun _ => here)

theorem oneFileGit_sound (name : GitName) : (oneFileGit name).Sound where
  names := fun _ _ _ => rfl
  diff_names := by
    intro a b other
    have paths : (oneFileDiff name a b).map FileDiff.path = if a () = b () then [] else [name] := by
      rcases oneFile_cases a with rfl | rfl <;> rcases oneFile_cases b with rfl | rfl <;> rfl
    change other ∈ (oneFileDiff name a b).map FileDiff.path ↔ ∃ path, name = other ∧ a path ≠ b path
    rw [paths]
    by_cases same : a () = b ()
    · rw [if_pos same]
      constructor
      · intro listed
        cases listed
      · intro ⟨path, _, changed⟩
        exact absurd same changed
    · rw [if_neg same, List.mem_singleton]
      constructor
      · intro named
        exact ⟨(), named.symm, same⟩
      · intro ⟨_, named, _⟩
        exact named.symm
  apply_diff := by
    intro a b work _ agrees
    have filled := diffText_filled (created name)
    have filled' := diffText_filled (deleted name)
    have differs_ := created_differs name
    rcases oneFile_cases a with rfl | rfl <;> rcases oneFile_cases b with rfl | rfl
    · exact ⟨work, by simp [oneFileGit, oneFileDiff], fun path => .inr ⟨rfl, rfl⟩⟩
    · have absent : work () = none := agrees () () (by simp) (.inl rfl)
      exact ⟨fun _ => some (), by simp [oneFileGit, oneFileDiff, filled, absent], fun path => .inl rfl⟩
    · have present : work () = some () := agrees () () (by simp) (.inl rfl)
      exact ⟨fun _ => none, by simp [oneFileGit, oneFileDiff, filled', present], fun path => .inl rfl⟩
    · exact ⟨work, by simp [oneFileGit, oneFileDiff], fun path => .inr ⟨rfl, rfl⟩⟩
  apply_exists := by
    intro a b work patched applied path changed
    have filled := diffText_filled (created name)
    have filled' := diffText_filled (deleted name)
    have differs_ := created_differs name
    rcases oneFile_cases a with rfl | rfl <;> rcases oneFile_cases b with rfl | rfl
    · exact absurd rfl changed
    · by_cases absent : work () = none
      · simp [oneFileGit, oneFileDiff, filled, absent] at applied
        simp [← applied]
      · simp [oneFileGit, oneFileDiff, filled, absent, differs_] at applied
    · by_cases absent : work () = none
      · simp [oneFileGit, oneFileDiff, filled', absent, differs_.symm] at applied
      · have present : work () = some () := by
          cases here : work () with
          | none => exact absurd here absent
          | some _ => rfl
        simp [oneFileGit, oneFileDiff, filled', present] at applied
        simp [← applied]
    · exact absurd rfl changed
  apply_local := by
    intro a b work patched other applied agrees
    by_cases same : a = b
    · subst same
      have untouched : oneFileDiff name a a = [] := by
        rcases oneFile_cases a with rfl | rfl <;> rfl
      refine ⟨other, by simp [oneFileGit, untouched], fun path => ⟨fun changed => absurd rfl changed, fun _ => rfl⟩⟩
    · have changed : a () ≠ b () := fun here => same (funext fun _ => here)
      have whole : other = work := funext fun _ => agrees () () changed (.inl rfl)
      rw [whole]
      exact ⟨patched, applied, fun _ => ⟨fun _ => rfl, fun here => absurd here changed⟩⟩
  add_named := by
    intro files index work staged added path file listed named selects
    have filled : files ≠ [] := List.ne_nil_of_mem listed
    simp only [oneFileGit, if_neg filled] at added
    split at added
    · cases added
      rfl
    · cases added
  add_selected := by
    intro files index work staged added path file listed selects
    have filled : files ≠ [] := List.ne_nil_of_mem listed
    simp only [oneFileGit, if_neg filled] at added
    split at added
    · cases added
      exact .inl rfl
    · cases added
  add_unselected := by
    intro files index work staged added path outside
    simp only [oneFileGit] at added outside
    by_cases empty : files = []
    · rw [if_pos empty] at added
      cases added
      exact .inl rfl
    · rw [if_neg empty] at added
      split at added
      · next all =>
        obtain ⟨file, rest, rfl⟩ := List.exists_cons_of_ne_nil empty
        have first := outside file List.mem_cons_self
        simp at all
        exact absurd all.1.1 (by simpa using first)
      · cases added
  add_exists := by
    intro files index work found
    simp only [oneFileGit] at found ⊢
    by_cases empty : files = []
    · exact ⟨index, if_pos empty⟩
    · rw [if_neg empty]
      obtain ⟨file, rest, rfl⟩ := List.exists_cons_of_ne_nil empty
      have all : ((file :: rest).all fun file => decide (writeUtf8 file = name.bytes)) = true := by
        apply List.all_eq_true.mpr
        intro other listed
        exact (found other listed).choose_spec.1
      obtain ⟨_, _, exists_⟩ := found file List.mem_cons_self
      have there : ((index ()).isSome || (work ()).isSome) = true := by
        cases exists_ with
        | inl here => simp [here]
        | inr here => simp [here.1]
      exact ⟨work, by rw [all, there]; rfl⟩

def plainPolicy : CommitPolicy where
  permitsFile := fun _ => true
  permitsSubject := fun _ => true
  stagePath := some

def emptyTree : OneFile := fun _ => none
def fullTree : OneFile := fun _ => some ()

def subjectText : Text := text "fix: add the file"

-- The preview that creates the file and commits it for thread 1.
def oneFilePreview (name : GitName) : Preview Unit Unit where
  checkout := ⟨fullTree, fullTree, fullTree, [⟨subjectText, emptyTree, fullTree⟩]⟩
  hunks := [⟨1, subjectText, diffText [created name]⟩]

theorem oneFile_commit {name : GitName} {file : Text} (same : writeUtf8 file = name.bytes)
    (slashes : normalizeSlashes file = file) :
    Checkout.commit (oneFileGit name) plainPolicy [file] subjectText none ⟨emptyTree, emptyTree, fullTree, []⟩ =
      (⟨fullTree, fullTree, fullTree, [⟨subjectText, emptyTree, fullTree⟩]⟩, some (diffText [created name])) := by
  have valid : validateFiles plainPolicy [file] = some [file] := by
    simp [validateFiles, slashes, firsts, appendFirst, triageCommitMaxFiles, plainPolicy]
  have added : (oneFileGit name).add [file] emptyTree fullTree = some fullTree := by
    simp [oneFileGit, same, fullTree, emptyTree]
  have limited : (oneFileGit name).limited [file] emptyTree fullTree = fullTree := by
    funext path
    simp [Git.limited, oneFileGit, same]
  have diff : (oneFileGit name).diff emptyTree fullTree = [created name] := rfl
  have count : ¬ changedLineCount (diffText [created name]) > triageMaxCommitDiffLines := by
    have most := changedLineCount_le [created name]
    have one : lineChanges [created name] = 1 := rfl
    have limit : triageMaxCommitDiffLines = 200 := rfl
    omega
  have permitted : plainPolicy.permitsSubject subjectText = true := rfl
  simp [Checkout.commit, valid, permitted, added, limited, diff, count]

theorem oneFile_previewed {name : GitName} {file : Text} (same : writeUtf8 file = name.bytes)
    (slashes : normalizeSlashes file = file) :
    Reaches (previewStep (oneFileGit name) plainPolicy [1]) (fun _ event => event.answered)
      { checkout := (oneFileGit name).checkedOut emptyTree } (oneFilePreview name) := by
  have written : previewStep (oneFileGit name) plainPolicy [1] { checkout := (oneFileGit name).checkedOut emptyTree }
      (.write () ()) = some { checkout := ⟨emptyTree, emptyTree, fullTree, []⟩ } := rfl
  have committed : previewStep (oneFileGit name) plainPolicy [1] { checkout := ⟨emptyTree, emptyTree, fullTree, []⟩ }
      (.commitFix 1 [file] subjectText none) = some (oneFilePreview name) := by
    have staged : [file].mapM plainPolicy.stagePath = some [file] := rfl
    simp [previewStep, staged, oneFile_commit same slashes, maxTriageFixesPerRun, oneFilePreview]
  have wrote : (PreviewEvent.write () () : PreviewEvent Unit Unit).answered := trivial
  have answered : (PreviewEvent.commitFix 1 [file] subjectText none : PreviewEvent Unit Unit).answered := by
    intro wrong
    cases wrong
  exact .next (.next .start wrote written) answered committed

def plainName : GitName := ⟨writeUtf8 (text "a.ts"), by decide⟩

def spacedName : GitName := ⟨writeUtf8 (text "x b/y.ts"), by decide⟩

theorem plain_replayable : ∀ commit ∈ (oneFilePreview plainName).checkout.history,
    Replayable (oneFileGit plainName) plainPolicy emptyTree commit := by
  intro commit listed
  obtain rfl := List.mem_singleton.mp listed
  have noLink (path : Unit) : ¬ (oneFileGit plainName).Link emptyTree path := by
    intro ⟨_, here, _⟩
    cases here
  have back : ReadBack plainName := by decide +kernel
  have named : (oneFileGit plainName).selects plainName.plainText () = true :=
    decide_eq_true (writeUtf8_plainText back.plain)
  constructor
  · intro _ _
    exact back
  · intro _ _ gone
    cases gone
  · intro path link _ here
    exact absurd here (noLink link)
  · intro _ _
    exact named
  · intro _ other link _ _ here
    exact absurd here (noLink link)
  · intro _ _ _ _
    rfl
  · exact show [created plainName].length ≤ triageCommitMaxFiles by decide
  · intro _ _
    rfl

theorem plain_bulk_replay : (oneFilePreview plainName).hunks.map (fun hunk => namedBy hunk.diff) = [[plainName.bytes]] ∧
    ∀ s, Reaches (replayPreviewHunk (oneFileGit plainName) plainPolicy) (fun _ luck => Untroubled luck)
      (replayStart (oneFileGit plainName) emptyTree (oneFilePreview plainName) fun _ => true) s →
      s.commitErrors = [] ∧ s.committed ++ s.todo = (oneFilePreview plainName).hunks := by
  have replay := bulk_replay (oneFileGit_sound plainName) [1] (@oneFile_previewed plainName (text "a.ts") rfl rfl)
    plain_replayable fun _ => true
  constructor
  · decide +kernel
  · intro s reached
    have whole := replay.2.2 (fun _ _ => rfl) (fun _ _ _ _ _ _ _ => rfl) s reached
    exact ⟨whole.1, whole.2.1⟩

-- A path with the separator of the two names in it: another path is read, and the hunk is not committed.
theorem separator_refused : (oneFileGit spacedName).Sound ∧
    Reaches (previewStep (oneFileGit spacedName) plainPolicy [1]) (fun _ event => event.answered)
      { checkout := (oneFileGit spacedName).checkedOut emptyTree } (oneFilePreview spacedName) ∧
    (oneFilePreview spacedName).hunks.map (fun hunk => pathsFromUnifiedDiff hunk.diff) = [[text "y.ts"]] ∧
    ∃ s, Reaches (replayPreviewHunk (oneFileGit spacedName) plainPolicy) (fun _ luck => Untroubled luck)
        (replayStart (oneFileGit spacedName) emptyTree (oneFilePreview spacedName) fun _ => true) s ∧
      s.todo = [] ∧ s.committed = [] ∧ s.checkout.history = [] ∧ s.checkout.work = fullTree := by
  have paths : pathsFromUnifiedDiff (diffText [created spacedName]) = [text "y.ts"] := by decide +kernel
  have shown : previewHunkHasDiff ⟨1, subjectText, diffText [created spacedName]⟩ = true := by decide +kernel
  have start : replayStart (oneFileGit spacedName) emptyTree (oneFilePreview spacedName) (fun _ => true) =
      ⟨⟨emptyTree, emptyTree, emptyTree, []⟩, [⟨1, subjectText, diffText [created spacedName]⟩], [], []⟩ := by
    simp [replayStart, approvedPreviewHunks, oneFilePreview, shown]
    rfl
  refine ⟨oneFileGit_sound spacedName, @oneFile_previewed spacedName (text "x b/y.ts") rfl rfl, ?_, ?_⟩
  · simp [oneFilePreview, paths]
  · have input : applyInput (diffText [created spacedName]) = diffText [created spacedName] := applyInput_diffText (by simp)
    have applied : (oneFileGit spacedName).apply emptyTree (diffText [created spacedName]) = some fullTree := by
      simp [oneFileGit, diffText_filled, emptyTree]
      rfl
    have commit : Checkout.commit (oneFileGit spacedName) plainPolicy [text "y.ts"] subjectText none
        ⟨emptyTree, emptyTree, fullTree, []⟩ = (⟨emptyTree, emptyTree, fullTree, []⟩, none) := by
      have valid : validateFiles plainPolicy [text "y.ts"] = some [text "y.ts"] := by decide +kernel
      have permitted : plainPolicy.permitsSubject subjectText = true := rfl
      have missing : (oneFileGit spacedName).add [text "y.ts"] emptyTree fullTree = none := by
        have other : ¬ writeUtf8 (text "y.ts") = spacedName.bytes := by decide +kernel
        simp [oneFileGit, other]
      simp [Checkout.commit, valid, permitted, missing]
    rw [start]
    have reset : Checkout.resetUncommitted (⟨emptyTree, emptyTree, fullTree, []⟩ : Checkout Unit Unit) =
        ⟨emptyTree, emptyTree, fullTree, []⟩ := rfl
    have moved : replayPreviewHunk (oneFileGit spacedName) plainPolicy
        ⟨⟨emptyTree, emptyTree, emptyTree, []⟩, [⟨1, subjectText, diffText [created spacedName]⟩], [], []⟩ {} =
          some ⟨⟨emptyTree, emptyTree, fullTree, []⟩, [], [], [⟨1, subjectText, diffText [created spacedName]⟩]⟩ := by
      simp [replayPreviewHunk, paths, input, applied, commit, Replay.refuse, reset]
    exact ⟨_, .next .start ⟨rfl, rfl⟩ moved, rfl, rfl, rfl, rfl⟩

end Examples
end PrAgent
