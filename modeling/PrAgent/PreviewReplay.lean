import PrAgent.PreviewCheckout
set_option autoImplicit false

namespace PrAgent

variable {Path Blob : Type} {git : Git Path Blob} {policy : CommitPolicy}

section Outcomes

variable (git policy)

-- The ways in which a commit ends.
inductive CommitResult (files : List Text) (subject : Text) (fault : Option CommitFault) (s : Checkout Path Blob) :
    Checkout Path Blob × Option Text → Prop
  | rejected (reason : validateFiles policy files = none ∨ policy.permitsSubject subject = false ∨ fault = some .reset) :
    CommitResult files subject fault s (s, none)
  | unstaged (valid : List Text) (checked : validateFiles policy files = some valid)
    (reason : fault = some .add ∨ git.add valid s.head s.work = none ∨ ∃ index, git.add valid s.head s.work = some index ∧
      triageMaxCommitDiffLines < changedLineCount (diffText (git.diff s.head (git.limited valid s.head index)))) :
    CommitResult files subject fault s ({ s with index := s.head }, none)
  | staged (valid : List Text) (index : FileTree Path Blob) (checked : validateFiles policy files = some valid)
    (added : git.add valid s.head s.work = some index)
    (reason : fault.isSome = true ∨ triageMaxCommitDiffLines <
        changedLineCount (diffText (git.diff s.head (git.limited valid s.head index))) ∨ git.diff s.head index = []) :
    CommitResult files subject fault s ({ s with index }, none)
  | unread (valid : List Text) (index : FileTree Path Blob) (reason : fault = some .revParse) :
    CommitResult files subject fault s
      ({ s with index, head := index, history := s.history ++ [⟨subject, s.head, index⟩] }, none)
  | made (valid : List Text) (index : FileTree Path Blob) (checked : validateFiles policy files = some valid)
    (permitted : policy.permitsSubject subject = true) (added : git.add valid s.head s.work = some index)
    (within : changedLineCount (diffText (git.diff s.head (git.limited valid s.head index))) ≤ triageMaxCommitDiffLines)
    (changes : git.diff s.head index ≠ []) :
    CommitResult files subject fault s
      ({ s with index, head := index, history := s.history ++ [⟨subject, s.head, index⟩] },
        some (diffText (git.diff s.head (git.limited valid s.head index))))

theorem commit_result (files : List Text) (subject : Text) (fault : Option CommitFault) (s : Checkout Path Blob) :
    CommitResult git policy files subject fault s (s.commit git policy files subject fault) := by
  rw [Checkout.commit]
  cases checked : validateFiles policy files with
  | none => exact .rejected (.inl checked)
  | some valid =>
      simp only
      by_cases refused : (!policy.permitsSubject subject || decide (fault = some .reset)) = true
      · rw [if_pos refused]
        apply CommitResult.rejected
        simpa using Or.inr (a := validateFiles policy files = none) (by simpa using refused)
      · rw [if_neg refused]
        have permitted : policy.permitsSubject subject = true := by
          cases subject_ : policy.permitsSubject subject with
          | true => rfl
          | false => exact absurd (by simp [subject_]) refused
        by_cases broken : fault = some .add
        · rw [if_pos broken]
          exact .unstaged valid checked (.inl broken)
        · rw [if_neg broken]
          cases added : git.add valid s.head s.work with
          | none => exact .unstaged valid checked (.inr (.inl added))
          | some index =>
              simp only
              by_cases unread : fault = some .diff
              · rw [if_pos unread]
                exact .staged valid index checked added (.inl (by simp [unread]))
              rw [if_neg unread]
              by_cases long : changedLineCount (diffText (git.diff s.head (git.limited valid s.head index))) > triageMaxCommitDiffLines
              · rw [if_pos long]
                by_cases kept : fault = some .unstage
                · rw [if_pos kept]
                  exact .staged valid index checked added (.inl (by simp [kept]))
                · rw [if_neg kept]
                  exact .unstaged valid checked (.inr (.inr ⟨index, added, long⟩))
              rw [if_neg long]
              by_cases stopped : (decide (fault = some .beforeCommit) || decide (fault = some .commit) ||
                  (git.diff s.head index).isEmpty) = true
              · rw [if_pos stopped]
                apply CommitResult.staged valid index checked added
                rw [Bool.or_eq_true, Bool.or_eq_true, decide_eq_true_eq, decide_eq_true_eq, List.isEmpty_iff] at stopped
                rcases stopped with (denied | failed) | empty
                · exact .inl (by simp [denied])
                · exact .inl (by simp [failed])
                · exact .inr (.inr empty)
              rw [if_neg stopped]
              by_cases lost : fault = some .revParse
              · rw [if_pos lost]
                exact .unread valid index lost
              · rw [if_neg lost]
                have changes : git.diff s.head index ≠ [] := by
                  intro empty
                  exact stopped (by simp [empty])
                exact .made valid index checked permitted added (Nat.le_of_not_lt long) changes

end Outcomes
section Recorded

-- The commits lead from one tree to another.
def Chain (start : FileTree Path Blob) : List (Commit Path Blob) → FileTree Path Blob → Prop
  | [], last => last = start
  | commit :: rest, last => commit.parent = start ∧ Chain commit.tree rest last

theorem Chain.append {start last : FileTree Path Blob} {commits : List (Commit Path Blob)} (chain : Chain start commits last)
    (subject : Text) (next : FileTree Path Blob) : Chain start (commits ++ [⟨subject, last, next⟩]) next := by
  induction commits generalizing start with
  | nil => exact ⟨chain, rfl⟩
  | cons commit commits ih => exact ⟨chain.1, ih chain.2⟩

variable (git policy)

-- What a preview records of a commit.
structure Recorded (hunk : TriagePreviewHunk) (commit : Commit Path Blob) : Prop where
  subject : hunk.subject = commit.subject
  permitted : policy.permitsSubject commit.subject = true
  within : changedLineCount hunk.diff ≤ triageMaxCommitDiffLines
  changes : git.diff commit.parent commit.tree ≠ []
  diff : ∃ files, hunk.diff = diffText (git.diff commit.parent (git.limited files commit.parent commit.tree)) ∧
    ∀ path, (∀ file ∈ files, git.selects file path = false) → commit.tree path = commit.parent path ∨ commit.tree path = none

structure PreviewInvariant (start : FileTree Path Blob) (s : Preview Path Blob) : Prop where
  chain : Chain start s.checkout.history s.checkout.head
  recorded : List.Forall₂ (Recorded git policy) s.hunks s.checkout.history

-- `git rev-parse` answers after a commit.
def PreviewEvent.answered : PreviewEvent Path Blob → Prop
  | .write _ _ => True
  | .commitFix _ _ _ fault => fault ≠ some .revParse

variable {git policy}

theorem preview_checked_out (start : FileTree Path Blob) :
    PreviewInvariant git policy start { checkout := git.checkedOut start } where
  chain := rfl
  recorded := .nil

theorem preview_step [DecidableEq Path] (sound : git.Sound) (inventory : List Nat) (start : FileTree Path Blob)
    (s : Preview Path Blob) (event : PreviewEvent Path Blob) (t : Preview Path Blob) (inv : PreviewInvariant git policy start s)
    (answered : event.answered) (moved : previewStep git policy inventory s event = some t) :
    PreviewInvariant git policy start t := by
  cases event with
  | write path blob =>
      cases moved
      exact ⟨inv.chain, inv.recorded⟩
  | commitFix thread files subject fault =>
      rw [previewStep] at moved
      by_cases unknown : thread ∉ inventory
      · rw [if_pos unknown] at moved
        cases moved
        exact inv
      rw [if_neg unknown] at moved
      by_cases again : thread ∈ s.hunks.map TriagePreviewHunk.threadRootCommentId
      · rw [if_pos again] at moved
        cases moved
        exact inv
      rw [if_neg again] at moved
      by_cases full : s.hunks.length ≥ maxTriageFixesPerRun
      · rw [if_pos full] at moved
        cases moved
        exact inv
      rw [if_neg full] at moved
      cases selected : files.mapM policy.stagePath with
      | none =>
          rw [selected] at moved
          cases moved
          exact inv
      | some staged =>
          rw [selected] at moved
          simp only at moved
          have result := commit_result git policy staged subject fault s.checkout
          obtain ⟨outcome, ended⟩ : ∃ outcome, s.checkout.commit git policy staged subject fault = outcome := ⟨_, rfl⟩
          rw [ended] at result moved
          cases result with
          | rejected _ =>
              cases moved
              exact ⟨inv.chain, inv.recorded⟩
          | unstaged _ _ _ =>
              cases moved
              exact ⟨inv.chain, inv.recorded⟩
          | staged _ _ _ _ _ =>
              cases moved
              exact ⟨inv.chain, inv.recorded⟩
          | unread _ _ reason => exact absurd reason answered
          | made valid index checked permitted added within changes =>
              cases moved
              refine ⟨inv.chain.append subject index, ?_⟩
              have recorded : Recorded git policy
                  ⟨thread, subject, diffText (git.diff s.checkout.head (git.limited valid s.checkout.head index))⟩
                  ⟨subject, s.checkout.head, index⟩ := by
                refine ⟨rfl, permitted, within, changes, valid, rfl, ?_⟩
                intro path outside
                cases sound.add_unselected valid _ _ index added path outside with
                | inl same => exact .inl same
                | inr gone => exact .inr gone.1
              exact List.rel_append inv.recorded (.cons recorded .nil)

end Recorded
section Conditions

variable (git policy)

-- A commit whose recorded diff can be replayed on a checkout of `start`.
structure Replayable (start : FileTree Path Blob) (commit : Commit Path Blob) : Prop where
  readBack : ∀ path, commit.parent path ≠ commit.tree path → ReadBack (git.name path)
  kept : ∀ path, commit.parent path ≠ none → commit.tree path ≠ none
  linkFree : ∀ path link, commit.parent path ≠ commit.tree path → git.Link start link →
    ¬ (git.name link).Crosses (git.name path)
  selectsItself : ∀ path, commit.parent path ≠ commit.tree path → git.selects (git.name path).plainText path = true
  selectsApart : ∀ path other link, commit.parent path ≠ commit.tree path → git.selects (git.name path).plainText other = true →
    git.Link start link → ¬ (git.name link).Crosses (git.name other)
  legible : ∀ path blob, commit.parent path ≠ commit.tree path → commit.parent path = some blob ∨ commit.tree path = some blob →
    git.legible path blob = true
  few : (git.diff commit.parent commit.tree).length ≤ triageCommitMaxFiles
  permitted : ∀ path, commit.parent path ≠ commit.tree path → policy.permitsFile (git.name path).plainText = true

-- Git does not ignore a path in a checkout of the tree.
def Git.Unignored (start tree : FileTree Path Blob) (path : Path) : Prop :=
  ∀ work, (∀ other, work other = tree other ∨ git.Link start other) → git.ignores work path = false

variable {git policy} {start : FileTree Path Blob} {commit : Commit Path Blob} {hunk : TriagePreviewHunk}

theorem Recorded.whole (recorded : Recorded git policy hunk commit)
    (kept : ∀ path, commit.parent path ≠ none → commit.tree path ≠ none) :
    hunk.diff = diffText (git.diff commit.parent commit.tree) := by
  obtain ⟨files, diff, outside⟩ := recorded.diff
  have whole : git.limited files commit.parent commit.tree = commit.tree := by
    funext path
    rw [Git.limited]
    cases selected : files.any fun file => git.selects file path with
    | true => exact if_pos rfl
    | false =>
        rw [if_neg (by decide)]
        cases outside path (by simpa using selected) with
        | inl same => exact same.symm
        | inr gone =>
            by_cases absent : commit.parent path = none
            · rw [absent, gone]
            · exact absurd gone (kept path absent)
  rw [diff, whole]

theorem mem_paths (sound : git.Sound) (replayable : Replayable git policy start commit) {file : Text} :
    file ∈ pathsFromUnifiedDiff (diffText (git.diff commit.parent commit.tree)) ↔
      ∃ path, commit.parent path ≠ commit.tree path ∧ file = (git.name path).plainText := by
  rw [mem_pathsFromUnifiedDiff]
  constructor
  · intro ⟨entry, listed, read⟩
    obtain ⟨path, named, changed⟩ := (sound.diff_names _ _ _).mp (List.mem_map_of_mem listed)
    refine ⟨path, changed, ?_⟩
    have back := replayable.readBack path changed
    rw [named] at back ⊢
    rw [header_readBack back] at read
    exact (Option.some.inj read).symm
  · intro ⟨path, changed, same⟩
    obtain ⟨entry, listed, named⟩ := List.mem_map.mp ((sound.diff_names _ _ _).mpr ⟨path, rfl, changed⟩)
    have back := replayable.readBack path changed
    rw [← named] at back
    refine ⟨entry, listed, ?_⟩
    rw [header_readBack back, same, named]

theorem plainText_slashes {name : GitName} (plain : name.quoted = false) : normalizeSlashes name.plainText = name.plainText := by
  have kept : ∀ c ∈ name.plainText, (if c = '\\' then '/' else c) = id c := by
    intro c listed
    obtain ⟨byte, inside, same⟩ := List.mem_map.mp listed
    exact if_neg (same ▸ (plain_of_not_quoted plain inside).unescaped)
  rw [normalizeSlashes, List.map_congr_left kept, List.map_id]

theorem firsts_nodup {l : List Text} (nodup : l.Nodup) : firsts id l = l := by
  induction l using List.reverseRecOn with
  | nil => rfl
  | append_singleton l last ih =>
      rw [List.nodup_append] at nodup
      have fresh : (l.any fun old => decide (id old = id last)) = false := by
        rw [List.any_eq_false]
        intro old listed same
        exact nodup.2.2 old listed last (List.mem_singleton_self _) (of_decide_eq_true same)
      rw [firsts_append, ih nodup.1, appendFirst, fresh]
      rfl

theorem length_firsts (l : List Text) : (firsts id l).length ≤ l.length := by
  induction l using List.reverseRecOn with
  | nil => exact Nat.le_refl 0
  | append_singleton l last ih =>
      rw [firsts_append, appendFirst, List.length_append, List.length_singleton]
      split
      · omega
      · rw [List.length_append, List.length_singleton]
        omega

theorem length_pathsFromUnifiedDiff (files : List FileDiff) : (pathsFromUnifiedDiff (diffText files)).length ≤ files.length := by
  have read : ((diffText files).splitOn '\n').filterMap headerPath = files.filterMap fun file => headerPath file.header := by
    have empty : headerPath [] = none := rfl
    rw [diffText_lines, List.filterMap_append, List.filterMap_cons_none empty, List.filterMap_nil, List.append_nil]
    induction files with
    | nil => rfl
    | cons file files ih =>
        rw [List.flatMap_cons, List.filterMap_append, ih, (shown_counted file).1, List.filterMap_cons]
        cases headerPath file.header <;> rfl
  rw [pathsFromUnifiedDiff, read]
  exact Nat.le_trans (length_firsts _) (List.length_filterMap_le _ _)

theorem paths_filled (sound : git.Sound) (replayable : Replayable git policy start commit)
    (changes : git.diff commit.parent commit.tree ≠ []) :
    (pathsFromUnifiedDiff (diffText (git.diff commit.parent commit.tree))).length ≠ 0 := by
  obtain ⟨entry, rest, entries⟩ := List.exists_cons_of_ne_nil changes
  obtain ⟨path, named, changed⟩ := (sound.diff_names commit.parent commit.tree entry.path).mp (by simp [entries])
  have listed := (mem_paths sound replayable).mpr ⟨path, changed, rfl⟩
  exact Nat.ne_of_gt (List.length_pos_of_mem listed)

-- The check of the files passes, and leaves the paths of the diff as they are.
theorem validated (sound : git.Sound) (replayable : Replayable git policy start commit)
    (changes : git.diff commit.parent commit.tree ≠ []) :
    validateFiles policy (pathsFromUnifiedDiff (diffText (git.diff commit.parent commit.tree))) =
      some (pathsFromUnifiedDiff (diffText (git.diff commit.parent commit.tree))) := by
  have nodup : (pathsFromUnifiedDiff (diffText (git.diff commit.parent commit.tree))).Nodup := by
    have keys := @nodup_firsts _ _ _ id (((diffText (git.diff commit.parent commit.tree)).splitOn '\n').filterMap headerPath)
    rwa [List.map_id] at keys
  have slashes : (pathsFromUnifiedDiff (diffText (git.diff commit.parent commit.tree))).map normalizeSlashes =
      pathsFromUnifiedDiff (diffText (git.diff commit.parent commit.tree)) := by
    have kept : ∀ file ∈ pathsFromUnifiedDiff (diffText (git.diff commit.parent commit.tree)), normalizeSlashes file = id file := by
      intro file listed
      obtain ⟨path, changed, same⟩ := (mem_paths sound replayable).mp listed
      rw [same, plainText_slashes (replayable.readBack path changed).plain]
      rfl
    rw [List.map_congr_left kept, List.map_id]
  have filled := paths_filled sound replayable changes
  have few := Nat.le_trans (length_pathsFromUnifiedDiff (git.diff commit.parent commit.tree)) replayable.few
  have permitted : (pathsFromUnifiedDiff (diffText (git.diff commit.parent commit.tree))).all policy.permitsFile = true := by
    apply List.all_eq_true.mpr
    intro file listed
    obtain ⟨path, changed, same⟩ := (mem_paths sound replayable).mp listed
    rw [same]
    exact replayable.permitted path changed
  rw [validateFiles, slashes, firsts_nodup nodup, if_neg filled, if_neg (Nat.not_lt.mpr few), if_pos permitted]

theorem applyInput_diffText {files : List FileDiff} (changes : files ≠ []) : applyInput (diffText files) = diffText files := by
  obtain ⟨file, rest, same⟩ := List.exists_cons_of_ne_nil changes
  have ends : ∀ lines : List Text, lines ≠ [] → (lines.flatMap fun line => line ++ ['\n']).getLast? = some '\n' := by
    intro lines nonempty
    obtain ⟨before, last, split⟩ := List.eq_nil_or_concat lines |>.resolve_left nonempty
    rw [split, List.concat_eq_append, List.flatMap_append, List.flatMap_singleton, ← List.append_assoc,
      List.getLast?_concat]
  have lines : files.flatMap FileDiff.shown ≠ [] := by
    rw [same, List.flatMap_cons, FileDiff.shown]
    simp
  have last := ends _ lines
  rw [applyInput, if_pos (show (diffText files).getLast? = some '\n' from last)]

end Conditions
section Staging

variable {start head work patched staged : FileTree Path Blob} {commit : Commit Path Blob}

theorem apply_unchanged (sound : git.Sound) {a b : FileTree Path Blob}
    (applied : git.apply work (diffText (git.diff a b)) = some patched) {path : Path} (same : a path = b path) :
    patched path = work path := by
  obtain ⟨again, result, values⟩ := sound.apply_local _ _ _ _ work applied fun _ _ _ _ => rfl
  rw [applied] at result
  cases result
  exact (values path).2 same

variable (git start) in
-- A checkout as it is between two hunks.
structure Clean (s : Checkout Path Blob) : Prop where
  index : s.index = s.head
  work : ∀ path, s.work path = s.head path ∨ git.Link start path

theorem staged_eq (sound : git.Sound) (replayable : Replayable git policy start commit)
    (clean : ∀ path, work path = head path ∨ git.Link start path)
    (applied : git.apply work (diffText (git.diff commit.parent commit.tree)) = some patched)
    (added : git.add (pathsFromUnifiedDiff (diffText (git.diff commit.parent commit.tree))) head patched = some staged)
    (path : Path) :
    (commit.parent path ≠ commit.tree path → staged path = patched path) ∧
      (commit.parent path = commit.tree path → staged path = head path) := by
  constructor
  · intro changed
    have listed := (mem_paths sound replayable).mpr ⟨path, changed, rfl⟩
    exact sound.add_named _ _ _ _ added path _ listed (writeUtf8_plainText (replayable.readBack path changed).plain)
      (replayable.selectsItself path changed)
  · intro same
    have before := apply_unchanged sound applied same
    by_cases selected : ∃ file ∈ pathsFromUnifiedDiff (diffText (git.diff commit.parent commit.tree)), git.selects file path = true
    · obtain ⟨file, listed, selects⟩ := selected
      obtain ⟨source, changed, text_⟩ := (mem_paths sound replayable).mp listed
      cases sound.add_selected _ _ _ _ added path file listed selects with
      | inr index => exact index
      | inl kept =>
          cases clean path with
          | inl here => rw [kept, before, here]
          | inr link =>
              rw [text_] at selects
              exact absurd (.inl rfl) (replayable.selectsApart source path path changed selects link)
    · have outside : ∀ file ∈ pathsFromUnifiedDiff (diffText (git.diff commit.parent commit.tree)),
          git.selects file path = false := by
        intro file listed
        cases selects : git.selects file path with
        | false => rfl
        | true => exact absurd ⟨file, listed, selects⟩ selected
      cases sound.add_unselected _ _ _ _ added path outside with
      | inl index => exact index
      | inr displaced =>
          obtain ⟨gone, absent, other, file, listed, selects, crosses⟩ := displaced
          cases clean path with
          | inl here => rw [gone, ← here, ← before, absent]
          | inr link =>
              obtain ⟨source, changed, text_⟩ := (mem_paths sound replayable).mp listed
              rw [text_] at selects
              exact absurd crosses (replayable.selectsApart source other path changed selects link)

theorem staged_whole (sound : git.Sound) (replayable : Replayable git policy start commit)
    (unchanged : ∀ path, commit.parent path = commit.tree path → staged path = head path) :
    git.limited (pathsFromUnifiedDiff (diffText (git.diff commit.parent commit.tree))) head staged = staged := by
  funext path
  rw [Git.limited]
  by_cases same : commit.parent path = commit.tree path
  · rw [unchanged path same]
    exact ite_self _
  · have listed := (mem_paths sound replayable).mpr ⟨path, same, rfl⟩
    exact if_pos (List.any_eq_true.mpr ⟨_, listed, replayable.selectsItself path same⟩)

-- What the diff makes of a checkout it makes of the head itself.
theorem head_patched (sound : git.Sound) (replayable : Replayable git policy start commit)
    (clean : ∀ path, work path = head path ∨ git.Link start path)
    (applied : git.apply work (diffText (git.diff commit.parent commit.tree)) = some patched) :
    ∃ tree, git.apply head (diffText (git.diff commit.parent commit.tree)) = some tree ∧
      ∀ path, (commit.parent path ≠ commit.tree path → tree path = patched path) ∧
        (commit.parent path = commit.tree path → tree path = head path) := by
  apply sound.apply_local _ _ _ _ head applied
  intro path changed differs_ crosses
  cases clean path with
  | inl here => exact here.symm
  | inr link => exact absurd crosses (replayable.linkFree changed path differs_ link)

theorem reset_clean {s : Checkout Path Blob} (left : ∀ path, s.index path = none → s.head path = none →
    s.work path = none ∨ git.Link start path) : Clean git start s.resetUncommitted where
  index := rfl
  work := by
    intro path
    by_cases known : ((s.index path).isSome || (s.head path).isSome) = true
    · exact .inl (if_pos known)
    · have kept : s.resetUncommitted.work path = s.work path := if_neg known
      rw [Bool.not_eq_true, Bool.or_eq_false_iff, Option.isSome_eq_false_iff, Option.isSome_eq_false_iff,
        Option.isNone_iff_eq_none, Option.isNone_iff_eq_none] at known
      cases left path known.1 known.2 with
      | inl absent =>
          have head_ : s.resetUncommitted.head path = none := known.2
          exact .inl (by rw [kept, absent, head_])
      | inr link => exact .inr link

end Staging
end PrAgent
