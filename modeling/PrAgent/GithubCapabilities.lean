import PrAgent.CiSummary
import PrAgent.SafeIntegers
import Mathlib.Data.List.Sort
set_option autoImplicit false

namespace PrAgent

section Tables

inductive InstallationOperation
  | pullRequestsRead | contentsRead | reviewWrite | commentsWrite | checksRead | checksWrite | statusesRead | statusesWrite
  | actionsRead | labelsRead | labelsWrite | reactionsWrite
  deriving DecidableEq, Repr

-- The keys of a jsonb `capabilities` column.
abbrev GithubCapabilities := InstallationOperation → Option CiSourceAccess

structure GithubRepositoryScope where
  installationId : Nat
  owner : String
  repo : String
  deriving DecidableEq, Repr

structure GithubCapabilityObservation where
  generation : Int
  capabilities : GithubCapabilities

structure CiHeadKey where
  owner : String
  repo : String
  headSha : String
  deriving DecidableEq, Repr

inductive CapabilitySource
  | checks | statuses
  deriving DecidableEq, Repr

structure CiSourceKey where
  installationId : Nat
  head : CiHeadKey
  source : CapabilitySource
  deriving DecidableEq, Repr

structure CiSourceRow where
  generation : Int
  access : CiSourceAccess
  listingRequired : Bool := true
  unknownReadCount : Nat := 0
  deriving DecidableEq, Repr

-- The columns of `pr_head_ci_state` that the sources write.
structure CiHeadVersion where
  version : Nat
  projectionRepairPending : Bool := false
  deriving DecidableEq, Repr

structure CapabilityDb where
  capabilities : Table GithubRepositoryScope GithubCapabilityObservation
  heads : Table CiHeadKey CiHeadVersion
  sources : Table CiSourceKey CiSourceRow

end Tables

section Sources

def CapabilitySource.operation : CapabilitySource → InstallationOperation
  | .checks => .checksRead
  | .statuses => .statusesRead

-- The row that the upsert writes over an older one.
def CiSourceRow.synced (row : CiSourceRow) (generation : Int) (access : CiSourceAccess) : CiSourceRow where
  generation
  access
  listingRequired := if row.access ≠ access then true else row.listingRequired
  unknownReadCount := 0

def CiSourceRow.accepts (row : CiSourceRow) (generation : Int) (access : CiSourceAccess) : Bool :=
  row.generation < generation || (row.generation = generation && access = .denied && row.access ≠ .denied)

structure SyncResult where
  db : CapabilityDb
  changed : Bool := false
  reopened : Bool := false

-- `INSERT .. ON CONFLICT DO UPDATE .. WHERE` of one source.
def syncSource (result : SyncResult) (key : CiSourceKey) (generation : Int) (access : CiSourceAccess) : SyncResult :=
  match result.db.sources.get? key with
  | none =>
    { result with
      db := { result.db with sources := result.db.sources.set key { generation, access } }
      changed := true }
  | some row =>
    if row.accepts generation access then
      { db := { result.db with sources := result.db.sources.set key (row.synced generation access) }
        changed := result.changed || row.access ≠ access
        reopened := result.reopened || (row.access = .unknown && 0 < row.unknownReadCount) }
    else result

-- `UPDATE pr_head_ci_state SET version = version + CASE ..`.
def bumpHead (db : CapabilityDb) (head : CiHeadKey) (changed : Bool) : CapabilityDb :=
  match db.heads.get? head with
  | none => db
  | some row =>
    { db with
      heads := db.heads.set head { version := row.version + (if changed then 1 else 0), projectionRepairPending := true } }

def observedAccess (observation : Option GithubCapabilityObservation) (source : CapabilitySource) : CiSourceAccess :=
  (observation.bind fun observation => observation.capabilities source.operation).getD .unknown

-- The loop over the sources of a head.
def syncRows (db : CapabilityDb) (installationId : Nat) (head : CiHeadKey) (observation : Option GithubCapabilityObservation) :
    SyncResult :=
  let generation := (observation.map GithubCapabilityObservation.generation).getD 0
  [CapabilitySource.checks, .statuses].foldl
    (fun result source => syncSource result ⟨installationId, head, source⟩ generation (observedAccess observation source)) { db }

def syncSources (db : CapabilityDb) (installationId : Nat) (head : CiHeadKey) (observation : Option GithubCapabilityObservation) :
    CapabilityDb :=
  let result := syncRows db installationId head observation
  if result.changed || result.reopened then bumpHead result.db head result.changed else result.db

end Sources

section Repository

-- The order in which the database sorts the heads.
variable (collation : String → String → Prop) [DecidableRel collation]

def capabilityFanoutBatchSize : Nat := 100

-- The heads of a repository with a source of the installation, as many as one observation reaches.
def fanoutHeads (db : CapabilityDb) (scope : GithubRepositoryScope) : List CiHeadKey :=
  let heads := (db.heads.select fun head _ => head.owner = scope.owner && head.repo = scope.repo &&
    db.sources.any fun key _ => key.installationId = scope.installationId && key.head = head).map Prod.fst
  (heads.insertionSort fun a b => collation a.headSha b.headSha).take capabilityFanoutBatchSize

def fanoutObservation (db : CapabilityDb) (scope : GithubRepositoryScope) (observation : GithubCapabilityObservation) :
    CapabilityDb :=
  (fanoutHeads collation db scope).foldl (fun db head => syncSources db scope.installationId head (some observation)) db

-- `EXCLUDED.capabilities || ..`: what was denied stays so until it is observed again.
def mergedCapabilities (prior excluded : GithubCapabilities) : GithubCapabilities := fun operation =>
  if prior operation = some .denied ∧ (excluded operation).getD .unknown = .unknown then some .denied else excluded operation

-- What the upsert saves, if it saves.
def savedObservation (db : CapabilityDb) (scope : GithubRepositoryScope) (observation : GithubCapabilityObservation) :
    Option GithubCapabilityObservation :=
  match db.capabilities.get? scope with
  | none => some observation
  | some prior =>
    if prior.generation < observation.generation then
      some { generation := observation.generation
             capabilities := mergedCapabilities prior.capabilities observation.capabilities }
    else none

inductive SaveError
  | unorderedGeneration
  deriving DecidableEq, Repr

def saveGithubCapabilityObservation (db : CapabilityDb) (scope : GithubRepositoryScope)
    (observation : GithubCapabilityObservation) : Except SaveError Bool × CapabilityDb :=
  if ¬observation.generation.natAbs ≤ maxSafe ∨ observation.generation < 0 then (.error .unorderedGeneration, db)
  else
    match savedObservation db scope observation with
    | none => (.ok false, db)
    | some saved =>
      (.ok true, fanoutObservation collation { db with capabilities := db.capabilities.set scope saved } scope saved)

-- `jsonb_set(capabilities, ARRAY[operation], '"denied"')`.
def withDenied (observation : GithubCapabilityObservation) (operation : InstallationOperation) : GithubCapabilityObservation :=
  { observation with
    capabilities := fun other => if other = operation then some .denied else observation.capabilities other }

def recordGithubCapabilityDenial (db : CapabilityDb) (scope : GithubRepositoryScope) (generation : Int)
    (operation : InstallationOperation) : Bool × CapabilityDb :=
  match db.capabilities.get? scope with
  | none => (false, db)
  | some row =>
    if row.generation = generation ∧ row.capabilities operation ≠ some .denied then
      let denied := withDenied row operation
      (true, fanoutObservation collation { db with capabilities := db.capabilities.set scope denied } scope denied)
    else (false, db)

def headScope (installationId : Nat) (head : CiHeadKey) : GithubRepositoryScope := ⟨installationId, head.owner, head.repo⟩

-- What `loadGithubCiSourceAvailability` writes.
def loadGithubCiSourceAvailability (db : CapabilityDb) (installationId : Nat) (head : CiHeadKey) : CapabilityDb :=
  if (db.heads.get? head).isSome then
    syncSources db installationId head (db.capabilities.get? (headScope installationId head))
  else db

structure SourceRead where
  key : CiSourceKey
  generation : Int
  access : CiSourceAccess
  complete : Bool

def SourceRead.listingRequired (read : SourceRead) : Bool := !(read.access = .available && read.complete)

def SourceRead.updates (read : SourceRead) (row : CiSourceRow) : Bool :=
  row.generation = read.generation && !(row.access = .denied && read.access ≠ .denied) &&
    ((row.access, row.listingRequired) ≠ (read.access, read.listingRequired) || read.access = .unknown)

-- The update after the sources are synced.
def updateSource (db : CapabilityDb) (read : SourceRead) : Bool × CapabilityDb :=
  match db.sources.get? read.key with
  | none => (false, db)
  | some row =>
    if read.updates row then
      let updated : CapabilityDb :=
        { db with
          sources := db.sources.set read.key
            { row with
              access := read.access
              listingRequired := read.listingRequired
              unknownReadCount := if read.access = .unknown then row.unknownReadCount + 1 else 0 } }
      if (row.access, row.listingRequired) ≠ (read.access, read.listingRequired) then
        (true, match updated.heads.get? read.key.head with
          | none => updated
          | some head => { updated with heads := updated.heads.set read.key.head { head with version := head.version + 1 } })
      else (false, updated)
    else (false, db)

-- A source of a head without a row breaks the foreign key: the transaction leaves nothing.
def recordGithubCiSourceRead (db : CapabilityDb) (read : SourceRead) : Bool × CapabilityDb :=
  if (db.heads.get? read.key.head).isSome then
    updateSource (syncSources db read.key.installationId read.key.head
      (db.capabilities.get? (headScope read.key.installationId read.key.head))) read
  else (false, db)

end Repository

section Steps

inductive CapabilityEvent
  | save (scope : GithubRepositoryScope) (observation : GithubCapabilityObservation)
  | deny (scope : GithubRepositoryScope) (generation : Int) (operation : InstallationOperation)
  | load (installationId : Nat) (head : CiHeadKey)
  | read (read : SourceRead)
  -- another writer of `pr_head_ci_state` seeds a head, or accepts a fact about it
  | seed (head : CiHeadKey)
  | fact (head : CiHeadKey)

def seedHead (db : CapabilityDb) (head : CiHeadKey) : CapabilityDb :=
  if (db.heads.get? head).isSome then db else { db with heads := db.heads.set head { version := 0 } }

def acceptFact (db : CapabilityDb) (head : CiHeadKey) : CapabilityDb :=
  match db.heads.get? head with
  | none => db
  | some row => { db with heads := db.heads.set head { row with version := row.version + 1 } }

def capabilityStep (collation : String → String → Prop) [DecidableRel collation] (db : CapabilityDb) : CapabilityEvent → Option CapabilityDb
  | .save scope observation => some (saveGithubCapabilityObservation collation db scope observation).2
  | .deny scope generation operation => some (recordGithubCapabilityDenial collation db scope generation operation).2
  | .load installationId head => some (loadGithubCiSourceAvailability db installationId head)
  | .read read => some (recordGithubCiSourceRead db read).2
  | .seed head => some (seedHead db head)
  | .fact head => some (acceptFact db head)

end Steps
end PrAgent
