import PrAgent.PublishRecord
import Mathlib.Algebra.Group.Int.Defs
set_option autoImplicit false

namespace PrAgent

inductive FindingCheckConclusion
  | failure | neutral | success
  deriving DecidableEq, Repr

-- What `findingCheck` reads of a view: whether the inventory is complete, and how many of its rows block. The number
-- of rows is the length of an array.
structure FindingView where
  complete : Bool
  blockingCount : Nat
  bounded : blockingCount < 2 ^ 32

structure FindingCheck where
  conclusion : FindingCheckConclusion
  blockingCount : Nat
  deriving DecidableEq, Repr

def checkConclusion (view : FindingView) : FindingCheckConclusion :=
  if 0 < view.blockingCount then .failure else if view.complete then .success else .neutral

def findingCheck (view : FindingView) : FindingCheck := ⟨checkConclusion view, view.blockingCount⟩

inductive SpecialistId
  | correctness | security | quality | tests
  deriving DecidableEq, Repr

def SpecialistId.text : SpecialistId → String
  | .correctness => "correctness"
  | .security => "security"
  | .quality => "quality"
  | .tests => "tests"

-- `kind: "partial"` is `uneven` here. An absent list is an empty one.
inductive ReviewCoverage
  | full
  | uneven (failed : List SpecialistId) (paths : List String) (unjudged : List SpecialistId) (note : String)
  | uncovered (failed : List SpecialistId)
  deriving DecidableEq, Repr

inductive PartialReason
  | unjudged | specialists | unread
  deriving DecidableEq, Repr

def PartialReason.text : PartialReason → String
  | .unjudged => "unjudged"
  | .specialists => "specialists"
  | .unread => "unread"

-- Undefined for a coverage that is not partial.
def decidingCoverageReason : ReviewCoverage → Option PartialReason
  | .uneven failed _ unjudged _ =>
    some (if unjudged ≠ [] then .unjudged else if failed ≠ [] then .specialists else .unread)
  | .full | .uncovered _ => none

section Coverage

variable (redactReviewText : String → String)

def specialistIdCount : Nat := 4

def openedPathMaxChars : Nat := 4096

def unreadCoveragePathLimit : Nat := 500

def unreadChangedFilesNote (paths : List String) : String :=
  let shown := (paths.take 3).map redactReviewText
  let rest := paths.length - shown.length
  let more := if 0 < rest then s!" (+{rest} more)" else ""
  "Unread changed files: " ++ ", ".intercalate shown ++ more ++ "."

def boundedPaths (unreadPaths : List String) : List String :=
  ((unreadPaths.map fun path => String.ofList (path.toList.take openedPathMaxChars)).filter (· ≠ "")).take
    unreadCoveragePathLimit

def specialistNames (specialists : List SpecialistId) : String := ", ".intercalate (specialists.map SpecialistId.text)

def coverageSentences (failed : List SpecialistId) (paths unreadPaths : List String) (unjudged : List SpecialistId) :
    List String :=
  (if failed ≠ [] then
      ["Coverage partial: " ++ specialistNames failed ++ " specialist" ++ (if failed.length = 1 then "" else "s") ++ " failed."]
    else []) ++
    (if paths ≠ [] then [unreadChangedFilesNote redactReviewText unreadPaths] else []) ++
    (if unjudged ≠ [] then ["Not judged: " ++ specialistNames unjudged ++ "."] else [])

def reviewRunCoverage (failedSpecialists : List SpecialistId) (unreadPaths : List String)
    (unjudgedSpecialists : List SpecialistId) : ReviewCoverage :=
  let paths := boundedPaths unreadPaths
  if failedSpecialists.length = specialistIdCount then .uncovered failedSpecialists
  else if failedSpecialists = [] ∧ paths = [] ∧ unjudgedSpecialists = [] then .full
  else
    .uneven failedSpecialists paths unjudgedSpecialists
      (" ".intercalate (coverageSentences redactReviewText failedSpecialists paths unreadPaths unjudgedSpecialists))

theorem intercalate_ne_empty {separator : String} {sentences : List String} (some_ : sentences ≠ [])
    (worded : ∀ sentence ∈ sentences, sentence ≠ "") : separator.intercalate sentences ≠ "" := by
  cases sentences with
  | nil => exact absurd rfl some_
  | cons first rest =>
      have nonempty := worded first List.mem_cons_self
      cases rest with
      | nil => simpa using nonempty
      | cons second rest =>
          rw [String.intercalate_cons_cons]
          intro empty
          simp only [String.append_eq_empty_iff] at empty
          exact nonempty empty.1.1

theorem append_word_ne_empty {word : String} (nonempty : word ≠ "") (text : String) : word ++ text ≠ "" := by
  intro empty
  exact nonempty (String.append_eq_empty_iff.mp empty).1

theorem unread_note_ne_empty (paths : List String) : unreadChangedFilesNote redactReviewText paths ≠ "" := by
  intro empty
  unfold unreadChangedFilesNote at empty
  simp only [String.append_eq_empty_iff] at empty
  have period : "." = "" := empty.2
  simp at period

theorem coverage_sentences_worded (failed : List SpecialistId) (paths unreadPaths : List String)
    (unjudged : List SpecialistId) :
    ∀ sentence ∈ coverageSentences redactReviewText failed paths unreadPaths unjudged, sentence ≠ "" := by
  intro sentence member
  rw [coverageSentences, List.mem_append, List.mem_append] at member
  have only : ∀ {named : Prop} [Decidable named] {word : String}, sentence ∈ (if named then [word] else []) →
      sentence = word := by
    intro named _ word listed
    obtain ⟨_, listed⟩ := List.mem_ite_nil_right.mp listed
    exact List.mem_singleton.mp listed
  rcases member with (failure | unread) | judgment
  · rw [only failure, String.append_assoc, String.append_assoc, String.append_assoc]
    exact append_word_ne_empty (by simp) _
  · rw [only unread]
    exact unread_note_ne_empty redactReviewText unreadPaths
  · rw [only judgment, String.append_assoc]
    exact append_word_ne_empty (by simp) _

theorem coverage_sentences_ne_nil {failed unjudged : List SpecialistId} {paths : List String}
    (named : ¬(failed = [] ∧ paths = [] ∧ unjudged = [])) (unreadPaths : List String) :
    coverageSentences redactReviewText failed paths unreadPaths unjudged ≠ [] := by
  intro empty
  simp only [coverageSentences, List.append_eq_nil_iff] at empty
  apply named
  refine ⟨?_, ?_, ?_⟩
  · by_contra someFailed
    simp [someFailed] at empty
  · by_contra someUnread
    simp [someUnread] at empty
  · by_contra someUnjudged
    simp [someUnjudged] at empty

theorem coverage_note_ne_empty {failed unjudged : List SpecialistId} {unreadPaths : List String}
    {failed' unjudged' : List SpecialistId} {paths : List String} {note : String}
    (covered : reviewRunCoverage redactReviewText failed unreadPaths unjudged = .uneven failed' paths unjudged' note) :
    note ≠ "" := by
  unfold reviewRunCoverage at covered
  dsimp only at covered
  by_cases allFailed : failed.length = specialistIdCount
  · rw [if_pos allFailed] at covered
    cases covered
  · rw [if_neg allFailed] at covered
    by_cases named : failed = [] ∧ boundedPaths unreadPaths = [] ∧ unjudged = []
    · rw [if_pos named] at covered
      cases covered
    · rw [if_neg named] at covered
      injection covered with _ _ _ same
      rw [← same]
      exact intercalate_ne_empty (coverage_sentences_ne_nil redactReviewText named unreadPaths)
        (coverage_sentences_worded redactReviewText failed (boundedPaths unreadPaths) unreadPaths unjudged)

end Coverage

-- `kind: "partial"` is `uneven`.
inductive OwnVerdictOutcome
  | published (check : FindingCheck) (summary : Option String)
  | uneven (note : String)
  | cancelled (summary : Option String)
  | superseded (summary : Option String)
  | staleHead (summary : Option String)
  | crashed (summary : Option String)
  | notPublished (summary : Option String)
  deriving DecidableEq, Repr

structure OwnVerdictSurfaces where
  checkRun : ReviewCheckRunConclusion
  commitStatus : OwnCommitStatusState
  summary : String
  deriving DecidableEq, Repr

def FindingCheckConclusion.checkRun : FindingCheckConclusion → ReviewCheckRunConclusion
  | .failure => .failure
  | .neutral => .neutral
  | .success => .success

def publishedCommitStatus : FindingCheckConclusion → OwnCommitStatusState
  | .failure => .failure
  | .neutral => .error
  | .success => .success

def findingInventoryUnavailableNote : String := "Open findings from earlier reviews could not be loaded."

def checkRunFindingsSummary (count : Nat) : String :=
  if count = 0 then "No findings" else s!"{count} " ++ (if count = 1 then "finding" else "findings")

def ownVerdictSurfaces : OwnVerdictOutcome → OwnVerdictSurfaces
  | .published check summary =>
    ⟨check.conclusion.checkRun, publishedCommitStatus check.conclusion,
      summary.getD (if check.conclusion = .neutral then findingInventoryUnavailableNote
        else checkRunFindingsSummary check.blockingCount)⟩
  | .uneven note => ⟨.neutral, .error, note⟩
  | .cancelled summary => ⟨.cancelled, .error, summary.getD "Review was cancelled before completion."⟩
  | .superseded summary =>
    ⟨.cancelled, .error, summary.getD "Review publish was skipped because the work was superseded or cancelled."⟩
  | .staleHead summary => ⟨.cancelled, .error, summary.getD "Review was rescheduled for a newer pull request head."⟩
  | .crashed summary =>
    ⟨.actionRequired, .error, summary.getD "PR Agent could not complete the review after retries."⟩
  | .notPublished summary => ⟨.actionRequired, .error, summary.getD "PR Agent could not publish a structured review."⟩

def closeOutcomeForCoverage (coverage : Option ReviewCoverage) (check : Option FindingCheck) : OwnVerdictOutcome :=
  match coverage, check with
  | some (.uneven _ _ _ note), some check =>
    if check.conclusion = .failure then .published check none else .uneven note
  | some (.uneven _ _ _ note), none => .uneven note
  | _, some check => .published check none
  | _, none => .notPublished none

inductive FindingSeverity
  | p0 | p1 | p2 | p3
  deriving DecidableEq, Repr

def FindingSeverity.text : FindingSeverity → String
  | .p0 => "P0"
  | .p1 => "P1"
  | .p2 => "P2"
  | .p3 => "P3"

def maxSafeInteger : Int := 2 ^ 53 - 1

structure SummaryVerdict where
  uneven : Bool
  note : Option String := none
  conclusion : FindingCheckConclusion
  partialReason : Option PartialReason := none
  blockingCount : Option Nat := none
  checkFailSeverity : FindingSeverity

-- The keys of `summaryCommentVerdictMeta`, written over `fields`.
def summaryCommentVerdictMeta (verdict : SummaryVerdict) (fields : JsonFields) : JsonFields :=
  let note := if verdict.uneven then verdict.note.filter (· ≠ "") else none
  let count := verdict.blockingCount.filter fun count => (count : Int) ≤ maxSafeInteger
  fields.put "ownVerdictKind" (some (.string (if verdict.uneven then "partial" else "published")))
    |>.put "ownVerdictNote" (note.map .string)
    |>.put "ownPartialReason" (verdict.partialReason.map fun reason => .string reason.text)
    |>.put "ownCheckFailing" (some (.bool (verdict.conclusion = .failure)))
    |>.put "ownCheckIncomplete" (if verdict.conclusion = .neutral then some (.bool true) else none)
    |>.put "ownBlockingCount" (count.map fun count => .number count)
    |>.put "ownCheckFailSeverity" (some (.string verdict.checkFailSeverity.text))

def storedBlockingCount (detail : JsonFields) : Nat :=
  match detail.get? "ownBlockingCount" with
  | some (.number count) => if 0 ≤ count ∧ count ≤ maxSafeInteger then count.toNat else 1
  | _ => 1

def unevenNote (detail : JsonFields) : String :=
  match detail.get? "ownVerdictNote" with
  | some (.string note) => if note ≠ "" then note else "Partial specialist coverage."
  | _ => "Partial specialist coverage."

def ownVerdictFromSummaryDetail : Option JsonFields → OwnVerdictOutcome
  | none => .notPublished none
  | some detail =>
    let failing := detail.get? "ownCheckFailing" = some (.bool true)
    let reason := detail.get? "ownPartialReason"
    if (reason = some (.string "unjudged") ∨ reason = some (.string "unread") ∨ reason = some (.string "specialists")) ∧
        failing then .published ⟨.failure, storedBlockingCount detail⟩ none
    else if detail.get? "ownVerdictKind" = some (.string "partial") then .uneven (unevenNote detail)
    else if failing then .published ⟨.failure, storedBlockingCount detail⟩ none
    else if detail.get? "ownCheckIncomplete" = some (.bool true) then .published ⟨.neutral, 0⟩ none
    else .published ⟨.success, 0⟩ none

-- The `meta` that `publishReviewSummaryOnly` records for its coverage and check.
structure SummaryCounts where
  inlineCount : Nat
  summaryOnlyCount : Nat
  diffCacheEmpty : Bool
  updated : Bool

def SummaryCounts.fields (counts : SummaryCounts) : JsonFields :=
  JsonFields.put Table.empty "inlineCount" (some (.number counts.inlineCount))
    |>.put "summaryOnlyCount" (some (.number counts.summaryOnlyCount))
    |>.put "diffCacheEmpty" (some (.bool counts.diffCacheEmpty))
    |>.put "updated" (some (.bool counts.updated))

def summaryVerdict (coverage : ReviewCoverage) (check : FindingCheck) (checkFailSeverity : FindingSeverity) :
    SummaryVerdict :=
  let outcome := closeOutcomeForCoverage (some coverage) (some check)
  { uneven := match outcome with | .uneven _ => true | _ => false
    note := match outcome with | .uneven note => some note | _ => none
    conclusion := check.conclusion
    partialReason := decidingCoverageReason coverage
    blockingCount := some check.blockingCount
    checkFailSeverity }

def publishedSummaryDetail (counts : SummaryCounts) (coverage : ReviewCoverage) (check : FindingCheck)
    (checkFailSeverity : FindingSeverity) : JsonFields :=
  summaryCommentVerdictMeta (summaryVerdict coverage check checkFailSeverity) counts.fields

end PrAgent
