import PrAgent.PreviewDiff
set_option autoImplicit false

namespace PrAgent

section Repository

-- Files by path. A blob is contents with a mode.
abbrev FileTree (Path Blob : Type) := Path → Option Blob

-- The same path, or one of the two is a directory on the other.
def GitName.Crosses (a b : GitName) : Prop :=
  a.bytes = b.bytes ∨ (b.bytes ++ [47]) <+: a.bytes ∨ (a.bytes ++ [47]) <+: b.bytes

-- The git commands, over the paths of one repository.
structure Git (Path Blob : Type) where
  name : Path → GitName
  diff : FileTree Path Blob → FileTree Path Blob → List FileDiff
  -- `git apply` on a work tree
  apply : FileTree Path Blob → Text → Option (FileTree Path Blob)
  -- `git add --`: pathspecs, index and work tree
  add : List Text → FileTree Path Blob → FileTree Path Blob → Option (FileTree Path Blob)
  selects : Text → Path → Bool
  ignores : FileTree Path Blob → Path → Bool
  isLink : Blob → Bool
  -- contents that a diff shows, and shows in UTF-8
  legible : Path → Blob → Bool

structure Commit (Path Blob : Type) where
  subject : Text
  parent : FileTree Path Blob
  tree : FileTree Path Blob

structure Checkout (Path Blob : Type) where
  head : FileTree Path Blob
  index : FileTree Path Blob
  work : FileTree Path Blob
  -- the commits made on it
  history : List (Commit Path Blob) := []

variable {Path Blob : Type} (git : Git Path Blob)

-- A path that `stripWorkspaceSymlinks` removes.
def Git.Link (tree : FileTree Path Blob) (path : Path) : Prop := ∃ blob, tree path = some blob ∧ git.isLink blob = true

def Git.stripped (tree : FileTree Path Blob) : FileTree Path Blob := fun path => (tree path).filter fun blob => !git.isLink blob

def Git.checkedOut (tree : FileTree Path Blob) : Checkout Path Blob where
  head := tree
  index := tree
  work := git.stripped tree

-- `git diff --cached -- files` compares these paths of the index.
def Git.limited (files : List Text) (head index : FileTree Path Blob) : FileTree Path Blob :=
  fun path => if files.any fun file => git.selects file path then index path else head path

-- `git reset --hard HEAD`. What is neither in the index nor in the head stays.
def Checkout.resetUncommitted (s : Checkout Path Blob) : Checkout Path Blob :=
  { s with
    index := s.head
    work := fun path => if (s.index path).isSome || (s.head path).isSome then s.head path else s.work path }

-- What git is relied on for.
structure Git.Sound : Prop where
  names : Function.Injective git.name
  diff_names : ∀ a b name, name ∈ (git.diff a b).map FileDiff.path ↔ ∃ path, git.name path = name ∧ a path ≠ b path
  apply_diff : ∀ a b work, (∀ path blob, a path ≠ b path → a path = some blob ∨ b path = some blob → git.legible path blob = true) →
    (∀ path changed, a changed ≠ b changed → (git.name path).Crosses (git.name changed) → work path = a path) →
    ∃ patched, git.apply work (diffText (git.diff a b)) = some patched ∧
      ∀ path, patched path = b path ∨ a path = b path ∧ patched path = work path
  apply_exists : ∀ a b work patched, git.apply work (diffText (git.diff a b)) = some patched →
    ∀ path, a path ≠ b path → ((patched path).isSome ↔ (b path).isSome)
  apply_local : ∀ a b work patched other, git.apply work (diffText (git.diff a b)) = some patched →
    (∀ path changed, a changed ≠ b changed → (git.name path).Crosses (git.name changed) → other path = work path) →
    ∃ patched', git.apply other (diffText (git.diff a b)) = some patched' ∧
      ∀ path, (a path ≠ b path → patched' path = patched path) ∧ (a path = b path → patched' path = other path)
  add_named : ∀ files index work staged, git.add files index work = some staged →
    ∀ path, ∀ file ∈ files, writeUtf8 file = (git.name path).bytes → git.selects file path = true → staged path = work path
  add_selected : ∀ files index work staged, git.add files index work = some staged →
    ∀ path, ∀ file ∈ files, git.selects file path = true → staged path = work path ∨ staged path = index path
  -- an entry goes when a file is staged where it was a directory, or in its place
  add_unselected : ∀ files index work staged, git.add files index work = some staged →
    ∀ path, (∀ file ∈ files, git.selects file path = false) → staged path = index path ∨
      staged path = none ∧ work path = none ∧
        ∃ other, ∃ file ∈ files, git.selects file other = true ∧ (git.name path).Crosses (git.name other)
  add_exists : ∀ files index work, (∀ file ∈ files, ∃ path, git.selects file path = true ∧
      ((index path).isSome ∨ (work path).isSome ∧ git.ignores work path = false)) →
    ∃ staged, git.add files index work = some staged

end Repository

section Commits

-- The checks of one path and of a subject, and the paths that `commitFix` may stage, as they are passed on.
structure CommitPolicy where
  permitsFile : Text → Bool
  permitsSubject : Text → Bool
  stagePath : Text → Option Text

def triageCommitMaxFiles : Nat := 20
def triageMaxCommitDiffLines : Nat := 200
def maxTriageFixesPerRun : Nat := 10

-- A command or check that fails for a reason of its own.
inductive CommitFault
  | reset | add | diff | unstage | beforeCommit | commit | revParse
  deriving DecidableEq

def normalizeSlashes (file : Text) : Text := file.map fun c => if c = '\\' then '/' else c

def validateFiles (policy : CommitPolicy) (files : List Text) : Option (List Text) :=
  let normalized := firsts id (files.map normalizeSlashes)
  if normalized.length = 0 then none
  else if normalized.length > triageCommitMaxFiles then none
  else if normalized.all policy.permitsFile then some normalized else none

variable {Path Blob : Type} (git : Git Path Blob) (policy : CommitPolicy)

-- The diff that a commit returns, or `none` when it throws.
def Checkout.commit (files : List Text) (subject : Text) (fault : Option CommitFault) (s : Checkout Path Blob) :
    Checkout Path Blob × Option Text :=
  match validateFiles policy files with
  | none => (s, none)
  | some files =>
    if !policy.permitsSubject subject || fault = some .reset then (s, none)
    else
      let clean := { s with index := s.head }
      match if fault = some .add then none else git.add files clean.index clean.work with
      | none => (clean, none)
      | some index =>
        let staged := { clean with index }
        let diff := diffText (git.diff s.head (git.limited files s.head index))
        if fault = some .diff then (staged, none)
        else if changedLineCount diff > triageMaxCommitDiffLines then (if fault = some .unstage then staged else clean, none)
        else if fault = some .beforeCommit || fault = some .commit || (git.diff s.head index).isEmpty then (staged, none)
        else
          let made := { staged with head := index, history := s.history ++ [⟨subject, s.head, index⟩] }
          if fault = some .revParse then (made, none) else (made, some diff)

end Commits

section Preview

structure TriagePreviewHunk where
  threadRootCommentId : Nat
  subject : Text
  diff : Text

variable {Path Blob : Type}

-- `hunks` are the entries of `commitByThreadRootCommentId` with the details of their commits.
structure Preview (Path Blob : Type) where
  checkout : Checkout Path Blob
  hunks : List TriagePreviewHunk := []

inductive PreviewEvent (Path Blob : Type)
  -- an edited or created file
  | write (path : Path) (blob : Blob)
  | commitFix (threadRootCommentId : Nat) (files : List Text) (subject : Text) (fault : Option CommitFault)

variable [DecidableEq Path] (git : Git Path Blob) (policy : CommitPolicy) (inventory : List Nat)

def previewStep (s : Preview Path Blob) : PreviewEvent Path Blob → Option (Preview Path Blob)
  | .write path blob =>
    some { s with checkout := { s.checkout with work := Function.update s.checkout.work path (some blob) } }
  | .commitFix threadRootCommentId files subject fault =>
    if threadRootCommentId ∉ inventory then some s
    else if threadRootCommentId ∈ s.hunks.map TriagePreviewHunk.threadRootCommentId then some s
    else if s.hunks.length ≥ maxTriageFixesPerRun then some s
    else
      match files.mapM policy.stagePath with
      | none => some s
      | some staged =>
        match s.checkout.commit git policy staged subject fault with
        | (checkout, none) => some { s with checkout }
        | (checkout, some diff) => some { checkout, hunks := s.hunks ++ [⟨threadRootCommentId, subject, diff⟩] }

end Preview

section Replay

inductive ApplyFault
  | before
  -- the diff is applied
  | after
  deriving DecidableEq

structure ReplayLuck where
  apply : Option ApplyFault := none
  commit : Option CommitFault := none
  reset : Bool := true

-- `committed` are the hunks whose threads `commitByThreadRootCommentId` has, and `commitErrors` the other ones.
structure Replay (Path Blob : Type) where
  checkout : Checkout Path Blob
  todo : List TriagePreviewHunk
  committed : List TriagePreviewHunk := []
  commitErrors : List TriagePreviewHunk := []

def previewHunkHasDiff (hunk : TriagePreviewHunk) : Bool := (trim hunk.diff).length > 0

def approvedPreviewHunks (hunks : List TriagePreviewHunk) (approvedIds : Nat → Bool) : List TriagePreviewHunk :=
  hunks.filter fun hunk => approvedIds hunk.threadRootCommentId && previewHunkHasDiff hunk

def applyInput (diff : Text) : Text := if diff.getLast? = some '\n' then diff else diff ++ ['\n']

variable {Path Blob : Type} (git : Git Path Blob) (policy : CommitPolicy)

def Replay.refuse (s : Replay Path Blob) (luck : ReplayLuck) (hunk : TriagePreviewHunk) (checkout : Checkout Path Blob) :
    Replay Path Blob :=
  { s with
    checkout := if luck.reset then checkout.resetUncommitted else checkout
    commitErrors := s.commitErrors ++ [hunk] }

-- One turn of the loop of `replayPreviewHunks`.
def replayPreviewHunk (s : Replay Path Blob) (luck : ReplayLuck) : Option (Replay Path Blob) :=
  match s.todo with
  | [] => none
  | hunk :: todo =>
    let rest := { s with todo }
    let files := pathsFromUnifiedDiff hunk.diff
    if files.length = 0 then some { rest with commitErrors := s.commitErrors ++ [hunk] }
    else
      match if luck.apply = some .before then none else git.apply s.checkout.work (applyInput hunk.diff) with
      | none => some (rest.refuse luck hunk s.checkout)
      | some work =>
        let patched := { s.checkout with work }
        if luck.apply = some .after then some (rest.refuse luck hunk patched)
        else
          match patched.commit git policy files hunk.subject luck.commit with
          | (checkout, none) => some (rest.refuse luck hunk checkout)
          | (checkout, some _) => some { rest with checkout, committed := s.committed ++ [hunk] }

end Replay
end PrAgent
