import PrAgent.CiRuns
import Mathlib.Data.List.Infix
set_option autoImplicit false

namespace PrAgent

inductive CiSummaryStatus
  | passing | failing | pending | none | unavailable
  deriving DecidableEq, Repr

inductive CiSourceAccess
  | available | denied | unknown
  deriving DecidableEq, Repr

structure CiSourceAvailabilityState where
  access : CiSourceAccess
  listingRequired : Bool

structure CiSourceAvailability where
  checks : CiSourceAvailabilityState
  statuses : CiSourceAvailabilityState

structure CiFailureDetail where
  name : String
  reason : String
  fixHint : String
  url : Option String := none
  deriving DecidableEq, Repr

structure CiSummary where
  status : CiSummaryStatus
  headline : String
  failures : List CiFailureDetail
  permissionNote : Option String := none
  deriving DecidableEq, Repr

def reviewCiSummaryGrantChecks : String :=
  "PR Agent can't see check runs on this head. In the GitHub App settings, set Checks to Read, then run /review again."
def reviewCiSummaryUnavailable : String := "CI status unavailable"
def reviewCiSummaryIncomplete : String := "CI results are incomplete; additional checks were not retrieved."

-- `text.includes(part)`.
def textIncludes (text part : String) : Bool := decide (part.toList <:+: text.toList)

def withPartialCiView (headline : String) : String :=
  if textIncludes headline "(partial CI view)" then headline else headline ++ " (partial CI view)"

def CiSourceAvailabilityState.isUnavailable (source : CiSourceAvailabilityState) : Bool :=
  source.access ≠ .available || source.listingRequired

def unavailableSources (availability : Option CiSourceAvailability) : List String :=
  match availability with
  | none => []
  | some sources =>
    (if sources.checks.isUnavailable then ["checks"] else []) ++ if sources.statuses.isUnavailable then ["statuses"] else []

def permissionNoteOf (availability : Option CiSourceAvailability) : Option String :=
  if unavailableSources availability ≠ [] then
    some (String.intercalate " " (("Partial CI view: " ++ String.intercalate " and " (unavailableSources availability) ++
      " unavailable.") :: if availability.any fun sources => sources.checks.access = .denied then [reviewCiSummaryGrantChecks]
        else []))
  else none

def failingHeadline (checks : List CiCheckRunSnapshot) (statuses : List CiLegacyStatus) : String :=
  let failingNames :=
    (checks.filter fun run => isCheckFactFailing (checkRunSnapshotToFact run snapshotObservedAt)).map CiCheckRunSnapshot.name ++
      (statuses.filter fun status => isCheckFactFailing (legacyStatusToFact status snapshotObservedAt)).map
        CiLegacyStatus.context
  let uniqueNames := firsts id failingNames
  let more := if uniqueNames.length > 3 then " (+" ++ toString (uniqueNames.length - 3) ++ " more)" else ""
  "❌ CI failing — " ++ String.intercalate ", " (uniqueNames.take 3) ++ more

structure CiSnapshotParams where
  checks : List CiCheckRunSnapshot
  statuses : List CiLegacyStatus
  failures : List CiFailureDetail := []
  checkRunsComplete : Option Bool := none
  legacyStatusesComplete : Option Bool := none
  sourceAvailability : Option CiSourceAvailability := none

def summarizeCiSnapshot (params : CiSnapshotParams) : CiSummary :=
  let state := classifyGithubSnapshot params.checks params.statuses
  let permissionNote := permissionNoteOf params.sourceAvailability
  let incomplete := params.checkRunsComplete = some false || params.legacyStatusesComplete = some false ||
    unavailableSources params.sourceAvailability ≠ []
  if incomplete && (state = .none || state = .passing) then
    { status := .unavailable, headline := reviewCiSummaryIncomplete, failures := [], permissionNote }
  else
    match state with
    | .none => { status := .none, headline := "No CI checks on this head", failures := [], permissionNote }
    | .pending =>
      let headline := "⏳ CI still running"
      { status := .pending, headline := if incomplete then withPartialCiView headline else headline, failures := []
        permissionNote }
    | .passing => { status := .passing, headline := "✅ All CI is passing", failures := [], permissionNote }
    | .failing =>
      let headline := failingHeadline params.checks params.statuses
      { status := .failing, headline := if incomplete then withPartialCiView headline else headline
        failures := params.failures, permissionNote }
    | .unknown => { status := .unavailable, headline := reviewCiSummaryUnavailable, failures := [], permissionNote }

def factToLegacyStatus (fact : CiCheckFact) : CiLegacyStatus :=
  { context := fact.name, state := fact.status, targetUrl := fact.url }

def factToCheckRun (fact : CiCheckFact) : CiCheckRunSnapshot :=
  { id := fact.checkRunId.getD 0, name := fact.name, externalId := fact.externalId, status := fact.status
    conclusion := fact.conclusion, htmlUrl := fact.url }

structure CiAuthoredCache where
  factsHash : String
  headline : String
  failures : List CiFailureDetail
  permissionNote : Option String := none

-- What outside the repository a summary depends on: the order of an object's entries and SHA-256 in hexadecimal.
structure CiRendering where
  order : EntryOrder
  sha256 : String → String

section Rendering

variable (rendering : CiRendering)

def CiRendering.values (checks : CiChecks) : List CiCheckFact := (rendering.order.entries checks).map Prod.snd

def summarizeCiFacts (checks : CiChecks) (checkRunsComplete : Option Bool)
    (sourceAvailability : Option CiSourceAvailability) : CiSummary :=
  let facts := rendering.values checks
  summarizeCiSnapshot
    { checks := (facts.filter fun fact => fact.source ≠ .status).map factToCheckRun
      statuses := (facts.filter fun fact => fact.source = .status).map factToLegacyStatus
      checkRunsComplete, sourceAvailability }

def hashCiFacts (checks : CiChecks) : String :=
  let line (fact : CiCheckFact) := String.intercalate "\x00"
    [fact.name, match fact.source with | .checkRun => "check_run" | .status => "status", fact.status,
      fact.conclusion.getD ""]
  rendering.sha256 (String.intercalate "\n" (((rendering.values checks).map line).mergeSort fun a b => decide (a ≤ b)))

-- `authored` is the cache as its schema parses it.
def ciSummaryFromFacts (checks : CiChecks) (authored : Option CiAuthoredCache) (checkRunsComplete : Option Bool)
    (sourceAvailability : Option CiSourceAvailability) : CiSummary :=
  let facts := summarizeCiFacts rendering checks checkRunsComplete sourceAvailability
  match authored with
  | some cache =>
    if facts.status = .failing ∧ cache.factsHash = hashCiFacts rendering checks then
      { status := .failing
        headline := if textIncludes facts.headline "(partial CI view)" then withPartialCiView cache.headline else cache.headline
        failures := cache.failures
        permissionNote := facts.permissionNote.or cache.permissionNote }
    else facts
  | none => facts

def headCiFactsAreComplete (rollup : CiRollup) : Bool := rollup ≠ .unknown

-- What the projected cell and the action line show.
def projectedSummary (row : PrHeadCiState) (authored : Option CiAuthoredCache)
    (sourceAvailability : Option CiSourceAvailability) : CiSummary :=
  ciSummaryFromFacts rendering row.checks authored (some (headCiFactsAreComplete row.rollup)) sourceAvailability

end Rendering

section Statuses

variable {rendering : CiRendering}

theorem factToCheckRun_class (fact : CiCheckFact) (run : fact.source ≠ .status) :
    isCheckFactFailing (checkRunSnapshotToFact (factToCheckRun fact) snapshotObservedAt) = isCheckFactFailing fact ∧
      isCheckFactPending (checkRunSnapshotToFact (factToCheckRun fact) snapshotObservedAt) = isCheckFactPending fact := by
  have source : fact.source = .checkRun := by
    cases source : fact.source with
    | status => exact absurd source run
    | checkRun => rfl
  cases fact
  cases source
  exact ⟨rfl, rfl⟩

theorem factToLegacyStatus_class (fact : CiCheckFact) (status : fact.source = .status) :
    isCheckFactFailing (legacyStatusToFact (factToLegacyStatus fact) snapshotObservedAt) = isCheckFactFailing fact ∧
      isCheckFactPending (legacyStatusToFact (factToLegacyStatus fact) snapshotObservedAt) = isCheckFactPending fact := by
  cases fact
  cases status
  exact ⟨rfl, rfl⟩

-- A row with an open check is never summarised as passing or as having no checks.
theorem summarize_open (rendering : CiRendering) {checks : CiChecks} {name : String} {fact : CiCheckFact} (stored : checks.get? name = some fact)
    (blocks : blocksPassing fact = true) (complete : Option Bool) (availability : Option CiSourceAvailability) :
    (summarizeCiFacts rendering checks complete availability).status ≠ .passing ∧
      (summarizeCiFacts rendering checks complete availability).status ≠ .none := by
  have listed : fact ∈ rendering.values checks := by
    rw [CiRendering.values, List.mem_map]
    exact ⟨(name, fact), (rendering.order.perm checks).mem_iff.mpr ((Table.get?_eq_some_iff ..).mp stored), rfl⟩
  let runs := ((rendering.values checks).filter fun fact => fact.source ≠ .status).map factToCheckRun
  let statuses := ((rendering.values checks).filter fun fact => fact.source = .status).map factToLegacyStatus
  have unsettled : classifyGithubSnapshot runs statuses = .failing ∨ classifyGithubSnapshot runs statuses = .pending := by
    rw [classifyGithubSnapshot, classify_open_iff]
    by_cases source : fact.source = .status
    · obtain ⟨failing, pending⟩ := factToLegacyStatus_class fact source
      refine ⟨legacyStatusToFact (factToLegacyStatus fact) snapshotObservedAt, ?_, ?_⟩
      · exact List.mem_append_right _ (List.mem_map_of_mem (List.mem_map_of_mem (by simp [listed, source])))
      · rwa [blocksPassing, failing, pending]
    · obtain ⟨failing, pending⟩ := factToCheckRun_class fact source
      refine ⟨checkRunSnapshotToFact (factToCheckRun fact) snapshotObservedAt, ?_, ?_⟩
      · exact List.mem_append_left _ (List.mem_map_of_mem (List.mem_map_of_mem (by simp [listed, source])))
      · rwa [blocksPassing, failing, pending]
  have shown : summarizeCiFacts rendering checks complete availability = summarizeCiSnapshot
      { checks := runs, statuses, checkRunsComplete := complete, sourceAvailability := availability } := rfl
  rw [shown, summarizeCiSnapshot]
  rcases unsettled with state | state <;> simp [state]

theorem ciSummaryFromFacts_open {checks : CiChecks} {name : String} {fact : CiCheckFact}
    (stored : checks.get? name = some fact) (blocks : blocksPassing fact = true) (authored : Option CiAuthoredCache)
    (complete : Option Bool) (availability : Option CiSourceAvailability) :
    (ciSummaryFromFacts rendering checks authored complete availability).status ≠ .passing ∧
      (ciSummaryFromFacts rendering checks authored complete availability).status ≠ .none := by
  have facts := summarize_open rendering stored blocks complete availability
  cases authored with
  | none => exact facts
  | some cache =>
    unfold ciSummaryFromFacts
    simp only
    split
    · exact ⟨nofun, nofun⟩
    · exact facts

end Statuses
end PrAgent
