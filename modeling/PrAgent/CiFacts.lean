import PrAgent.Firsts
import PrAgent.IsoTimestamp
import PrAgent.Table
set_option autoImplicit false

namespace PrAgent

inductive CiSource
  | checkRun | status
  deriving DecidableEq, Repr

inductive CiRollup
  | pending | passing | failing | none | unknown
  deriving DecidableEq, Repr

structure CiCheckFact where
  name : String
  source : CiSource
  status : String
  conclusion : Option String
  url : Option String := none
  externalId : Option String := none
  appId : Option Nat := none
  checkRunId : Option Nat := none
  observedAt : String
  deriving DecidableEq, Repr

structure CiCheckRunSnapshot where
  id : Nat
  name : String
  externalId : Option String := none
  appId : Option Nat := none
  status : String
  conclusion : Option String
  htmlUrl : Option String := none
  -- absent when missing, empty or not a date
  startedAt : Option UtcTime := none
  completedAt : Option UtcTime := none

structure CiLegacyStatus where
  context : String
  state : String
  targetUrl : Option String := none
  updatedAt : Option UtcTime := none
  createdAt : Option UtcTime := none

structure OwnCheckIdentity where
  githubAppId : String
  workItemId : Option String := none

def isOwnCiCheck (identity : OwnCheckIdentity) (fact : CiCheckFact) : Bool :=
  if fact.appId.any fun appId => toString appId = identity.githubAppId then true
  else identity.workItemId.isSome && fact.externalId = identity.workItemId

def failingCheckConclusions : List String := ["failure", "timed_out", "action_required", "startup_failure", "cancelled"]
def pendingCheckStatuses : List String := ["queued", "in_progress", "waiting", "pending", "requested"]
def failingLegacyStates : List String := ["failure", "error"]
def pendingLegacyStates : List String := ["pending"]

def isCheckFactFailing (fact : CiCheckFact) : Bool :=
  match fact.source with
  | .status => fact.status ∈ failingLegacyStates
  | .checkRun => fact.status = "completed" && fact.conclusion.any (· ∈ failingCheckConclusions)

def isCheckFactPending (fact : CiCheckFact) : Bool :=
  match fact.source with
  | .status => fact.status ∈ pendingLegacyStates
  | .checkRun => fact.status ≠ "completed" && (fact.status ∈ pendingCheckStatuses || fact.conclusion.isNone)

def classifySnapshot (facts : List CiCheckFact) : CiRollup :=
  if facts.isEmpty then .none
  else if facts.any isCheckFactFailing then .failing
  else if facts.any isCheckFactPending then .pending
  else .passing

def epoch : UtcTime :=
  ⟨1970, 1, 1, 0, 0, 0, 0, by decide, by decide, by decide, by decide, by decide, by decide, by decide⟩

def snapshotObservedAt : String := epoch.toISOString

def checkRunSnapshotToFact (run : CiCheckRunSnapshot) (observedAt : String) : CiCheckFact :=
  { name := run.name, source := .checkRun, status := run.status, conclusion := run.conclusion, url := run.htmlUrl
    externalId := run.externalId, appId := run.appId, checkRunId := some run.id, observedAt }

def legacyStatusToFact (status : CiLegacyStatus) (observedAt : String) : CiCheckFact :=
  { name := status.context, source := .status, status := status.state, conclusion := none, url := status.targetUrl
    observedAt }

def classifyGithubSnapshot (checks : List CiCheckRunSnapshot) (statuses : List CiLegacyStatus) : CiRollup :=
  classifySnapshot (checks.map (checkRunSnapshotToFact · snapshotObservedAt) ++
    statuses.map (legacyStatusToFact · snapshotObservedAt))

-- The first candidate, or the clock.
def observedAtFromGithub (now : UtcTime) (candidates : List (Option UtcTime)) : String :=
  ((candidates.filterMap id).head?.getD now).toISOString

-- A JavaScript object of facts by check name.
abbrev CiChecks := Table String CiCheckFact

-- The order of `Object.entries`: insertion order but for integer-like keys, and jsonb's own order after a read.
structure EntryOrder where
  entries : CiChecks → List (String × CiCheckFact)
  perm : ∀ checks, (entries checks).Perm checks.rows

-- `Object.values`, for uses that do not depend on the order.
def CiChecks.values (checks : CiChecks) : List CiCheckFact := checks.rows.map Prod.snd

structure MergedFact where
  checks : CiChecks
  accepted : Bool
  truncated : Bool

-- The `for` loop of the eviction: the oldest entry of another name, the first one on a tie.
def oldestOther (incomingName : String) (entries : List (String × CiCheckFact)) : Option (String × String) :=
  entries.foldl (fun evict entry =>
    if entry.1 = incomingName then evict
    else match evict with
      | none => some (entry.1, entry.2.observedAt)
      | some (_, oldest) => if entry.2.observedAt < oldest then some (entry.1, entry.2.observedAt) else evict) none

section Merge

variable (order : EntryOrder)

-- The `while` loop. Each round deletes an entry, so as many rounds as there are entries are enough.
def evictOverflow (incomingName : String) (maxChecks : Nat) : Nat → CiChecks → Bool → CiChecks × Bool
  | 0, next, truncated => (next, truncated)
  | rounds + 1, next, truncated =>
    if next.rows.length > maxChecks then
      match oldestOther incomingName (order.entries next) with
      | none => (next, true)
      | some (evict, _) => evictOverflow incomingName maxChecks rounds (next.erase evict) true
    else (next, truncated)

def applyCiCheckFact (current : CiChecks) (incoming : CiCheckFact) (maxChecks : Nat) : MergedFact :=
  match current.get? incoming.name with
  | some existing =>
    if existing.observedAt ≥ incoming.observedAt then { checks := current, accepted := false, truncated := false }
    else
      let next := current.set incoming.name incoming
      let (checks, truncated) := evictOverflow order incoming.name maxChecks next.rows.length next false
      { checks, accepted := true, truncated }
  | none =>
    let next := current.set incoming.name incoming
    let (checks, truncated) := evictOverflow order incoming.name maxChecks next.rows.length next false
    { checks, accepted := true, truncated }

def coerceRollupForIncompleteListing (rollup : CiRollup) (checkRunsComplete : Option Bool) : CiRollup :=
  if checkRunsComplete = some false ∧ (rollup = .none ∨ rollup = .passing) then .unknown else rollup

def isMaterialCiFactChange (previous : Option CiCheckFact) (next : CiCheckFact) : Bool :=
  match previous with
  | none => true
  | some previous =>
    previous.status ≠ next.status || previous.conclusion ≠ next.conclusion || previous.checkRunId ≠ next.checkRunId

def pickSnapshotFactForName (facts : List CiCheckFact) (stored : Option CiCheckFact) : Option CiCheckFact :=
  let matching : Option CiCheckFact :=
    match stored with
    | some stored =>
      if stored.checkRunId.isSome && isCheckFactPending stored then
        facts.find? fun fact => fact.checkRunId = stored.checkRunId
      else none
    | none => none
  matching.or facts.getLast?

inductive GithubSnapshotObservation
  | epoch
  -- the clock stands in for entries without a date
  | github (now : UtcTime)

def ownCommitStatusContext : String := "pr-agent/review"

def checkRunFact (observation : GithubSnapshotObservation) (run : CiCheckRunSnapshot) : CiCheckFact :=
  checkRunSnapshotToFact run <| match observation with
    | .github now => observedAtFromGithub now [run.completedAt, run.startedAt]
    | .epoch => snapshotObservedAt

def statusFact (observation : GithubSnapshotObservation) (status : CiLegacyStatus) : CiCheckFact :=
  legacyStatusToFact status <| match observation with
    | .github now => observedAtFromGithub now [status.updatedAt, status.createdAt]
    | .epoch => snapshotObservedAt

def buildCiFactsFromGithubSnapshot (checkRuns : List CiCheckRunSnapshot) (legacyStatuses : List CiLegacyStatus)
    (identity : OwnCheckIdentity) (observation : GithubSnapshotObservation) : List CiCheckFact :=
  ((checkRuns.map (checkRunFact observation)).filter fun fact => !isOwnCiCheck identity fact) ++
    (legacyStatuses.filter fun status => status.context ≠ ownCommitStatusContext).map (statusFact observation)

inductive GithubSnapshotMergeMode
  | initialSeed
  | pendingRefresh (now : UtcTime)

structure GithubSnapshot where
  checkRuns : List CiCheckRunSnapshot
  legacyStatuses : List CiLegacyStatus
  checkRunsComplete : Option Bool := none

structure MergedSnapshot where
  checks : CiChecks
  truncated : Bool
  materialChange : Bool := false

-- The body of the seeding loop.
def seedFact (maxChecks : Nat) (merging : MergedSnapshot) (fact : CiCheckFact) : MergedSnapshot :=
  let merged := applyCiCheckFact order merging.checks fact maxChecks
  if !merged.accepted then merging
  else { merging with checks := merged.checks, truncated := merging.truncated || merged.truncated }

-- What a plain object inherits.
def objectPrototypeMembers : List String :=
  ["constructor", "hasOwnProperty", "isPrototypeOf", "propertyIsEnumerable", "toLocaleString", "toString", "valueOf",
    "__proto__", "__defineGetter__", "__defineSetter__", "__lookupGetter__", "__lookupSetter__"]

-- `checks[name]` is there and not of the source: for a name that is not stored it may be an inherited member.
def otherSource (checks : CiChecks) (incoming : CiCheckFact) : Bool :=
  match checks.get? incoming.name with
  | some existing => existing.source ≠ incoming.source
  | none => incoming.name ∈ objectPrototypeMembers

-- The body of the refreshing loop, for one name of the listing. An inherited member has no `check_run_id` and no
-- `observed_at`, so to the other readers of the object its name is one that is not stored.
def refreshName (maxChecks : Nat) (stored : CiChecks) (facts : List CiCheckFact) (merging : MergedSnapshot)
    (name : String) : MergedSnapshot :=
  match pickSnapshotFactForName (facts.filter fun fact => fact.name = name) (stored.get? name) with
  | none => merging
  | some incoming =>
    if otherSource merging.checks incoming then merging
    else
      let merged := applyCiCheckFact order merging.checks incoming maxChecks
      if !merged.accepted then merging
      else
        { checks := merged.checks
          truncated := merging.truncated || merged.truncated
          materialChange := isMaterialCiFactChange (merging.checks.get? name) incoming || merging.materialChange }

-- The names of a listing in the order of a `Map` filled from it.
def namesOf (facts : List CiCheckFact) : List String := (firsts CiCheckFact.name facts).map CiCheckFact.name

def mergeFacts (stored : CiChecks) (storedTruncated : Bool) (facts : List CiCheckFact) (maxChecks : Nat)
    (mode : GithubSnapshotMergeMode) : MergedSnapshot :=
  let start : MergedSnapshot := { checks := stored, truncated := storedTruncated }
  match mode with
  | .initialSeed => facts.foldl (seedFact order maxChecks) start
  | .pendingRefresh _ => (namesOf facts).foldl (refreshName order maxChecks stored facts) start

def GithubSnapshotMergeMode.observation : GithubSnapshotMergeMode → GithubSnapshotObservation
  | .initialSeed => .epoch
  | .pendingRefresh now => .github now

def snapshotFacts (snapshot : GithubSnapshot) (identity : OwnCheckIdentity) (mode : GithubSnapshotMergeMode) :
    List CiCheckFact :=
  buildCiFactsFromGithubSnapshot snapshot.checkRuns snapshot.legacyStatuses identity mode.observation

def mergeGithubSnapshotIntoChecks (stored : CiChecks) (storedTruncated : Bool) (snapshot : GithubSnapshot)
    (identity : OwnCheckIdentity) (maxChecks : Nat) (mode : GithubSnapshotMergeMode) : MergedSnapshot × CiRollup :=
  let merged := mergeFacts order stored storedTruncated (snapshotFacts snapshot identity mode) maxChecks mode
  (merged, coerceRollupForIncompleteListing (classifySnapshot merged.checks.values) snapshot.checkRunsComplete)

end Merge

section Rows

variable (order : EntryOrder)

def ciStateMaxChecks : Nat := 200

-- A row of `pr_head_ci_state`.
structure PrHeadCiState where
  checks : CiChecks
  rollup : CiRollup
  version : Nat
  truncated : Bool
  seeded : Bool

-- `INSERT … VALUES ('{}'::jsonb, 'none', 0) ON CONFLICT DO NOTHING`.
def insertedRow (row : Option PrHeadCiState) : PrHeadCiState :=
  row.getD { checks := .empty, rollup := .none, version := 0, truncated := false, seeded := false }

structure ApplyPrHeadCiFactResult where
  accepted : Bool
  version : Nat
  previousRollup : CiRollup
  rollup : CiRollup
  deriving DecidableEq, Repr

def applyPrHeadCiFact (row : Option PrHeadCiState) (fact : CiCheckFact) : ApplyPrHeadCiFactResult × PrHeadCiState :=
  let locked := insertedRow row
  let merged := applyCiCheckFact order locked.checks fact ciStateMaxChecks
  if !merged.accepted then
    ({ accepted := false, version := locked.version, previousRollup := locked.rollup, rollup := locked.rollup }, locked)
  else
    let rollup := classifySnapshot merged.checks.values
    let nextVersion := locked.version + 1
    ({ accepted := true, version := nextVersion, previousRollup := locked.rollup, rollup },
      { locked with checks := merged.checks, rollup, version := nextVersion, truncated := locked.truncated || merged.truncated })

def seedPrHeadCiStateFromSnapshot (identity : OwnCheckIdentity) (row : Option PrHeadCiState) (snapshot : GithubSnapshot) :
    PrHeadCiState :=
  let locked := insertedRow row
  if locked.seeded then locked
  else
    let (merged, rollup) :=
      mergeGithubSnapshotIntoChecks order locked.checks locked.truncated snapshot identity ciStateMaxChecks .initialSeed
    { checks := merged.checks, rollup, version := locked.version + 1, truncated := merged.truncated, seeded := true }

-- `none` is a thrown error: there is no row, or it is not seeded.
def refreshPrHeadCiFromGithubSnapshot (identity : OwnCheckIdentity) (now : UtcTime) (row : Option PrHeadCiState)
    (snapshot : GithubSnapshot) : Option PrHeadCiState :=
  match row with
  | none => none
  | some row =>
    if !row.seeded then none
    else
      let (merged, rollup) :=
        mergeGithubSnapshotIntoChecks order row.checks row.truncated snapshot identity ciStateMaxChecks (.pendingRefresh now)
      let rollupChanged := decide (rollup ≠ row.rollup)
      if !merged.materialChange && !rollupChanged && merged.truncated = row.truncated then some row
      else
        some { row with
          checks := merged.checks, rollup, truncated := merged.truncated
          version := if merged.materialChange || rollupChanged then row.version + 1 else row.version }

end Rows
end PrAgent
