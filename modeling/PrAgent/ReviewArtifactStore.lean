import PrAgent.ReviewArtifacts
set_option autoImplicit false

namespace PrAgent

def reviewArtifactBudgetBytes : Nat := 1048576

def reviewSettlementReserveBytes : Nat := 8192

inductive ReviewArtifactWriteResult
  | stored | existing | capacity | incompatible
  deriving DecidableEq, Repr

-- `invalid` carries the reason of `reviewArtifactInvalid`; `constraint` is a constraint of the table.
inductive ReviewArtifactError
  | prActorLeaseLost
  | executionAborted
  | invalid (reason : String)
  | constraint
  deriving DecidableEq, Repr

structure ArtifactRow where
  artifactOrder : Nat
  kind : ArtifactKind
  inputFingerprint : Digest
  payloadHash : Digest
  envelope : ReviewArtifactEnvelope
  reservedBytes : Nat
  preparedKey : Option LogicalKey

-- The row of the work item. Intake names the resource after owner, repository and number.
structure ReviewItemRow where
  type : WorkType
  status : WorkStatus
  cancelRequestedAt : Option Nat
  executionEpoch : Option Nat
  owner : IdentityText 100
  repo : IdentityText 100
  prNumber : SafeNat
  resourceKey : IdentityText 512
  resourceKey_eq : resourceKey.text = prResourceKey owner.text repo.text prNumber.value
  installationId : SafeNat
  headSha : IdentityText 128
  reviewLens : Option ReviewLens

-- What the statements read and write for one work item: the leases, its row, and its artifacts.
structure ArtifactDb extends LeaseState where
  item : Option ReviewItemRow
  rows : Table LogicalKey ArtifactRow

variable (reviewArtifactHash : ReviewArtifactEnvelope → Digest) (workItemId : WorkItemId)

def decodeArtifact (key : LogicalKey) (row : ArtifactRow) (binding : ReviewArtifactBinding) :
    Option ReviewArtifactEnvelope :=
  if key = row.envelope.logicalKey ∧ row.artifactOrder = row.envelope.order ∧ row.kind = row.envelope.artifact.kind ∧
      row.inputFingerprint = binding.inputFingerprint ∧ row.envelope.binding = binding ∧
      row.payloadHash = reviewArtifactHash row.envelope then some row.envelope
  else none

def ReviewItemRow.matchesBinding (item : ReviewItemRow) (binding : ReviewArtifactBinding) : Bool :=
  item.type = .review && item.reviewLens = some .review && item.resourceKey = binding.resourceKey &&
    item.owner = binding.owner && item.repo = binding.repo && item.prNumber = binding.prNumber &&
    item.installationId = binding.installationId && item.headSha = binding.headSha

def lockRunningReview (db : ArtifactDb) (binding : ReviewArtifactBinding) (leaseEpoch : Option Nat) :
    Except ReviewArtifactError Unit :=
  match leaseEpoch with
  | none => .error .prActorLeaseLost
  | some epoch =>
    if epoch = 0 ∨ maxSafeNat < epoch then .error .prActorLeaseLost
    else if db.held workItemId epoch = false then .error .prActorLeaseLost
    else
      match db.item with
      | none => .error .executionAborted
      | some item =>
        if item.status ≠ .running ∨ item.cancelRequestedAt.isSome then .error .executionAborted
        else if item.executionEpoch ≠ some epoch then .error .prActorLeaseLost
        else if item.matchesBinding binding then .ok ()
        else .error (.invalid "artifact_identity")

inductive DependencyMismatch
  | artifactDependency | decisionOrder | preparedDecisionMissing | preparedDecisionMismatch | artifactBudget
  deriving DecidableEq, Repr

def DependencyMismatch.reason : DependencyMismatch → String
  | .artifactDependency => "artifact_dependency"
  | .decisionOrder => "decision_order"
  | .preparedDecisionMissing => "prepared_decision_missing"
  | .preparedDecisionMismatch => "prepared_decision_mismatch"
  | .artifactBudget => "artifact_budget"

-- The variables of `dependencyMismatch`. The last element of `pending` is the head of the list here.
structure DependencySearch where
  pending : List ReviewArtifactEnvelope
  loaded : Table LogicalKey ReviewArtifactEnvelope
  bytes : Nat
  overBudget : Bool

section Dependencies

variable (rows : Table LogicalKey ArtifactRow) (binding : ReviewArtifactBinding)

def readPrior (logicalKey : LogicalKey) (search : DependencySearch) :
    Option ReviewArtifactEnvelope × DependencySearch :=
  match search.loaded.get? logicalKey with
  | some cached => (some cached, search)
  | none =>
    match rows.get? logicalKey with
    | none => (none, search)
    | some row =>
      let bytes := search.bytes + row.envelope.encodedBytes
      if reviewArtifactBudgetBytes < bytes then (none, { search with bytes, overBudget := true })
      else
        match decodeArtifact reviewArtifactHash logicalKey row binding with
        | none => (none, { search with bytes })
        | some prior =>
          (some prior,
            { search with bytes, loaded := search.loaded.set logicalKey prior, pending := prior :: search.pending })

variable (current : ReviewArtifactEnvelope)

def dependenciesMismatch (seen : List LogicalKey) :
    List ArtifactDependency → DependencySearch → Option DependencyMismatch × DependencySearch
  | [], search => (none, search)
  | dependency :: rest, search =>
    if dependency.logicalKey ∈ seen then (some .artifactDependency, search)
    else
      match readPrior reviewArtifactHash rows binding dependency.logicalKey search with
      | (none, search) => (some .artifactDependency, search)
      | (some prior, search) =>
        if current.order ≤ prior.order ∨ reviewArtifactHash prior ≠ dependency.payloadHash then
          (some .artifactDependency, search)
        else dependenciesMismatch (dependency.logicalKey :: seen) rest search

-- What a publication asks of the decision before it, or of its own prepared decision.
def publicationMismatch (search : DependencySearch) : Option DependencyMismatch × DependencySearch :=
  match current.artifact with
  | .publicationPrepared artifact =>
    if 0 < artifact.sequence then
      match readPrior reviewArtifactHash rows binding (.settled (artifact.sequence - 1)) search with
      | (none, search) => (some .decisionOrder, search)
      | (some prior, search) =>
        if current.order ≤ prior.order ∨ prior.artifact.kind ≠ .publicationSettled then (some .decisionOrder, search)
        else (none, search)
    else (none, search)
  | .publicationSettled artifact =>
    match readPrior reviewArtifactHash rows binding (.prepared artifact.sequence) search with
    | (none, search) => (some .preparedDecisionMissing, search)
    | (some prior, search) =>
      if current.order ≤ prior.order then (some .preparedDecisionMissing, search)
      else
        match prior.artifact with
        | .publicationPrepared prepared =>
          if prepared.decisionId ≠ artifact.decisionId ∨ reviewArtifactHash prior ≠ artifact.preparedHash then
            (some .preparedDecisionMismatch, search)
          else (none, search)
        | _ => (some .preparedDecisionMissing, search)
  | _ => (none, search)

def currentMismatch (search : DependencySearch) : Option DependencyMismatch × DependencySearch :=
  match dependenciesMismatch reviewArtifactHash rows binding current [] current.reviewArtifactDependencies search with
  | (some reason, search) => (some reason, search)
  | (none, search) => publicationMismatch reviewArtifactHash rows binding current search

-- `none` when the fuel runs out: every round takes one envelope off, and puts none on that was loaded before.
def firstMismatch : Nat → DependencySearch → Option (Option DependencyMismatch × DependencySearch)
  | _, search@⟨[], _, _, _⟩ => some (none, search)
  | 0, _ => none
  | fuel + 1, search@⟨current :: pending, _, _, _⟩ =>
    match currentMismatch reviewArtifactHash rows binding current { search with pending } with
    | (some reason, search) => some (some reason, search)
    | (none, search) => firstMismatch fuel search

def initialSearch (envelope : ReviewArtifactEnvelope) : DependencySearch :=
  ⟨[envelope], Table.empty.set envelope.logicalKey envelope, envelope.encodedBytes, false⟩

def dependencyMismatch (envelope : ReviewArtifactEnvelope) : Option DependencyMismatch :=
  match firstMismatch reviewArtifactHash rows envelope.binding (rows.rows.length + 1) (initialSearch envelope) with
  | none => none
  | some (reason, search) => if search.overBudget then some .artifactBudget else reason

end Dependencies

-- The CHECK and UNIQUE constraints of `review_run_artifacts` on a new row.
def ArtifactRow.permitted (rows : Table LogicalKey ArtifactRow) (row : ArtifactRow) : Bool :=
  row.kind ≠ .openedPaths && row.envelope.encodedBytes + row.reservedBytes ≤ 1048576 &&
    (if row.kind = .publicationPrepared then row.reservedBytes ∈ [0, 8192] else row.reservedBytes = 0) &&
    ((row.kind = .publicationSettled) = row.preparedKey.isSome) &&
    !rows.any fun _ stored => stored.artifactOrder = row.artifactOrder

def usedBytes (rows : Table LogicalKey ArtifactRow) : Nat :=
  rows.sum fun _ row => row.envelope.encodedBytes + row.reservedBytes

def insertArtifact (rows : Table LogicalKey ArtifactRow) (envelope : ReviewArtifactEnvelope) (reserve : Nat)
    (preparedKey : Option LogicalKey) :
    Except ReviewArtifactError (ReviewArtifactWriteResult × Table LogicalKey ArtifactRow) :=
  let row : ArtifactRow :=
    ⟨envelope.order, envelope.artifact.kind, envelope.binding.inputFingerprint, reviewArtifactHash envelope, envelope,
      reserve, preparedKey⟩
  if row.permitted rows then .ok (.stored, rows.set envelope.logicalKey row) else .error .constraint

-- A new artifact: a settlement takes over what its prepared decision has reserved.
def insertWithinBudget (rows : Table LogicalKey ArtifactRow) (envelope : ReviewArtifactEnvelope) :
    Except ReviewArtifactError (ReviewArtifactWriteResult × Table LogicalKey ArtifactRow) :=
  let encodedBytes := envelope.encodedBytes
  match envelope.artifact with
  | .publicationSettled settled =>
    let preparedKey := LogicalKey.prepared settled.sequence
    match rows.get? preparedKey with
    | none => .error (.invalid "prepared_decision_missing")
    | some row =>
      match (decodeArtifact reviewArtifactHash preparedKey row envelope.binding).map ReviewArtifactEnvelope.artifact with
      | some (.publicationPrepared prepared) =>
        if prepared.decisionId ≠ settled.decisionId ∨ row.payloadHash ≠ settled.preparedHash ∨
            row.reservedBytes ≠ reviewSettlementReserveBytes ∨ reviewSettlementReserveBytes < encodedBytes then
          .error (.invalid "prepared_decision_mismatch")
        else if reviewArtifactBudgetBytes + reviewSettlementReserveBytes < usedBytes rows + encodedBytes then
          .ok (.capacity, rows)
        else
          insertArtifact reviewArtifactHash (rows.set preparedKey { row with reservedBytes := 0 }) envelope 0
            (some preparedKey)
      | _ => .error (.invalid "prepared_decision_missing")
  | .publicationPrepared _ =>
    if reviewArtifactBudgetBytes < usedBytes rows + encodedBytes + reviewSettlementReserveBytes then .ok (.capacity, rows)
    else insertArtifact reviewArtifactHash rows envelope reviewSettlementReserveBytes none
  | _ =>
    if reviewArtifactBudgetBytes < usedBytes rows + encodedBytes then .ok (.capacity, rows)
    else insertArtifact reviewArtifactHash rows envelope 0 none

def saveLocked (rows : Table LogicalKey ArtifactRow) (envelope : ReviewArtifactEnvelope) :
    Except ReviewArtifactError (ReviewArtifactWriteResult × Table LogicalKey ArtifactRow) :=
  match rows.get? envelope.logicalKey with
  | some existing =>
    if (decodeArtifact reviewArtifactHash envelope.logicalKey existing envelope.binding).isNone then
      .ok (.incompatible, rows)
    else if existing.payloadHash ≠ reviewArtifactHash envelope ∨ existing.envelope ≠ envelope then
      .error (.invalid "artifact_conflict")
    else if (dependencyMismatch reviewArtifactHash rows envelope).isSome then .ok (.incompatible, rows)
    else .ok (.existing, rows)
  | none =>
    match dependencyMismatch reviewArtifactHash rows envelope with
    | some .artifactBudget => .ok (.capacity, rows)
    | some reason => .error (.invalid reason.reason)
    | none => insertWithinBudget reviewArtifactHash rows envelope

-- `save` of a store that was opened for `binding` and `leaseEpoch`; `none` is a value that does not parse. Its
-- transaction holds the lease row and the row of the work item, and an error rolls it back.
def saveReviewArtifact (binding : ReviewArtifactBinding) (leaseEpoch : Option Nat)
    (value : Option ReviewArtifactEnvelope) (db : ArtifactDb) :
    Except ReviewArtifactError ReviewArtifactWriteResult × ArtifactDb :=
  match value with
  | none => (.error (.invalid "artifact_schema"), db)
  | some envelope =>
    if envelope.binding ≠ binding then (.error (.invalid "artifact_identity"), db)
    else
      match lockRunningReview workItemId db binding leaseEpoch with
      | .error error => (.error error, db)
      | .ok () =>
        match saveLocked reviewArtifactHash db.rows envelope with
        | .error error => (.error error, db)
        | .ok (result, rows) => (.ok result, { db with rows })

def loadReviewArtifact (binding : ReviewArtifactBinding) (logicalKey : LogicalKey) (db : ArtifactDb) :
    Option ReviewArtifactEnvelope :=
  ((db.rows.get? logicalKey).bind fun row => decodeArtifact reviewArtifactHash logicalKey row binding).filter
    fun envelope => (dependencyMismatch reviewArtifactHash db.rows envelope).isNone

section Settlement

-- `settle(decision, …)`: a number is an accepted publication, and nothing is one without a receipt.
inductive PublicationSettlement
  | published (githubId : Option SafeNat) (recovered : Bool)
  | stopped
  deriving DecidableEq

def PublicationSettlement.outcome : PublicationSettlement → SettlementOutcome
  | .published _ recovered => if recovered then .recovered else .accepted
  | .stopped => .stopped

def PublicationSettlement.githubId : PublicationSettlement → Option SafeNat
  | .published githubId _ => githubId
  | .stopped => none

-- The envelope that `settle` builds of a prepared decision.
def settledEnvelope (binding : ReviewArtifactBinding) (prepared : PreparedPublication) (preparedHash : Digest)
    (settlement : PublicationSettlement) : ReviewArtifactEnvelope :=
  ⟨binding, .publicationSettled
    { sequence := prepared.sequence
      sequence_le := prepared.sequence_le
      decisionId := prepared.decisionId
      preparedHash
      outcome := settlement.outcome
      remote := settlement.githubId.map fun githubId => ⟨prepared.operationKey, githubId⟩ }⟩

def settleDecision (binding : ReviewArtifactBinding) (leaseEpoch : Option Nat) (prepared : PreparedPublication)
    (settlement : PublicationSettlement) (db : ArtifactDb) : Except ReviewArtifactError Unit × ArtifactDb :=
  let preparedHash := reviewArtifactHash ⟨binding, .publicationPrepared prepared⟩
  match saveReviewArtifact reviewArtifactHash workItemId binding leaseEpoch
      (some (settledEnvelope binding prepared preparedHash settlement)) db with
  | (.error error, db) => (.error error, db)
  | (.ok result, db) =>
    if result ≠ .stored ∧ result ≠ .existing then (.error (.invalid "settlement_capacity"), db) else (.ok (), db)

end Settlement

-- Saves by any execution, in any order, and whatever else changes the leases and the work item.
inductive ArtifactEvent
  | save (binding : ReviewArtifactBinding) (leaseEpoch : Option Nat) (value : Option ReviewArtifactEnvelope)
  | elsewhere (leases : LeaseState) (item : Option ReviewItemRow)

def artifactStep (db : ArtifactDb) : ArtifactEvent → Option ArtifactDb
  | .save binding leaseEpoch value => some (saveReviewArtifact reviewArtifactHash workItemId binding leaseEpoch value db).2
  | .elsewhere leases item => some { toLeaseState := leases, item, rows := db.rows }

end PrAgent
