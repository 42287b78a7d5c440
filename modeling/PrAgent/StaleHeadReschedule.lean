import PrAgent.StaleHeadPayload
import PrAgent.ReviewLifecycle
set_option autoImplicit false

namespace PrAgent.StaleHead

section Payloads

-- `payload || patch`.
def mergePayload (payload patch : JsonObject) : JsonObject := patch ++ payload.filter fun member => (patch.lookup member.1).isNone

-- `payload - 'key' - …`.
def withoutKeys (keys : List String) (payload : JsonObject) : JsonObject := payload.filter fun member => !keys.contains member.1

def legacyKeys : List String := ["staleHeadReplacementWorkItemId", "staleHeadReplacementEnqueued"]

def replacementStateText : ReplacementState → String
  | .pendingEnqueue => "pending-enqueue"
  | .enqueued => "enqueued"

def replacementMarker (id : String) (state : ReplacementState) : JsonObject :=
  [("staleHeadReplacement", .object [("replacementWorkItemId", .string id), ("state", .string (replacementStateText state))])]

-- `(payload - 'staleHeadReplacementWorkItemId' - 'staleHeadReplacementEnqueued') || marker`.
def stampPayload (payload : JsonObject) (id : String) (state : ReplacementState) : JsonObject :=
  mergePayload (withoutKeys legacyKeys payload) (replacementMarker id state)

theorem lookup_filter_keys (kept : String → Bool) (payload : JsonObject) (key : String) :
    (payload.filter fun member => kept member.1).lookup key = if kept key then payload.lookup key else none := by
  induction payload with
  | nil => cases kept key <;> rfl
  | cons member rest ih =>
      obtain ⟨name, value⟩ := member
      by_cases same : key = name
      · subst same
        cases here : kept key with
        | true => simp [here]
        | false => simpa [List.filter_cons, here] using ih
      · have other : (key == name) = false := beq_false_of_ne same
        cases here : kept name with
        | true => simpa [List.filter_cons, here, List.lookup_cons, other] using ih
        | false => simpa [List.filter_cons, here, List.lookup_cons, other] using ih

theorem lookup_without (keys : List String) (payload : JsonObject) (key : String) :
    (withoutKeys keys payload).lookup key = if keys.contains key then none else payload.lookup key := by
  rw [withoutKeys, lookup_filter_keys (fun key => !keys.contains key)]
  cases keys.contains key with
  | true => rfl
  | false => rfl

theorem normalized_nonempty {payload : JsonObject} {replacement : PayloadReplacement} (found : normalizeStaleHeadReplacement payload = some replacement) :
    replacement.replacementWorkItemId ≠ "" := by
  have read := normalized_id payload
  rw [found, Option.map_some] at read
  intro empty
  rw [empty] at read
  rcases Option.or_eq_some_iff.mp read.symm with nested | ⟨_, legacy⟩
  · exact nonEmptyString_ne_empty _ nested
  · cases marked : rescheduled payload with
    | true => simp [marked] at legacy
    | false =>
        rw [marked, if_neg Bool.false_ne_true] at legacy
        exact nonEmptyString_ne_empty _ legacy

-- A review's payload as the code reads it; `rest` holds the other keys.
structure ReviewWorkPayload where
  rest : JsonObject
  staleHeadReplacement : Option PayloadReplacement
  plain : ∀ key ∈ "staleHeadReplacement" :: legacyKeys, rest.lookup key = none
  nonempty : ∀ replacement, staleHeadReplacement = some replacement → replacement.replacementWorkItemId ≠ ""

-- `fields` is what the schema makes of the keys of a payload, or nothing where it throws.
def parseReviewPayload (fields : JsonObject → Option JsonObject) (payload : JsonObject) : Option ReviewWorkPayload :=
  (fields payload).map fun input =>
    { rest := withoutKeys ("staleHeadReplacement" :: legacyKeys) input
      staleHeadReplacement := normalizeStaleHeadReplacement payload
      plain := fun key listed => by rw [lookup_without, List.contains_eq_mem, decide_eq_true listed, if_pos rfl]
      nonempty := fun _ found => normalized_nonempty found }

def workSourceText : WorkSource → String
  | .auto => "auto"
  | .slash => "slash"

def nextPayload (source : WorkSource) (payload : ReviewWorkPayload) : JsonObject :=
  mergePayload payload.rest [("source", .string (workSourceText source)), ("staleHeadRescheduled", .bool true)]

end Payloads

section Rows

-- The columns of a work item that are read or written here; the others are copied from the parent.
structure ReviewRow where
  source : WorkSource
  status : WorkStatus
  cancelRequested : Bool
  headSha : HeadSha
  payload : JsonObject

-- The row of `publish_records` for the progress comment of the parent's pull request and lens.
structure ProgressOwner where
  workItemId : String
  completed : Bool
  generation : Option Int
  revision : Option Int

-- `lifecycle`: of the parent's pull request. `lease`: the epoch of the parent's lease that has not expired.
structure RescheduleDb where
  items : Table String ReviewRow
  lifecycle : Option ReviewState
  lease : Option Nat
  progress : Option ProgressOwner
  reviewJobs : List String
  ackJobs : List String

def transferProgressCommentOwnership (workItemId : String) : Option ProgressOwner → ProgressOwner
  | none => ⟨workItemId, false, some 0, none⟩
  | some owner => if owner.workItemId = workItemId then owner else ⟨workItemId, false, some (owner.generation.getD 0 + 1), none⟩

def ensureDeterministicJob (jobs : List String) (id : String) : List String := if id ∈ jobs then jobs else jobs ++ [id]

variable (fields : JsonObject → Option JsonObject) (parentId : String)

-- The id of the replacement, with the marker in the parent's row where there was none.
def nameReplacement (db : RescheduleDb) (payload : ReviewWorkPayload) (randomUUID : String) : Option (String × RescheduleDb) :=
  match payload.staleHeadReplacement with
  | some replacement => some (replacement.replacementWorkItemId, db)
  | none =>
    (db.items.get? parentId).bind fun row =>
      if staleHeadReplacementIdSql row.payload = none then
        let stamped := stampPayload row.payload randomUUID .pendingEnqueue
        (staleHeadReplacementIdSql stamped).map fun id => (id, { db with items := db.items.set parentId { row with payload := stamped } })
      else
        (parseReviewPayload fields row.payload).bind fun refreshed =>
          refreshed.staleHeadReplacement.map fun persisted => (persisted.replacementWorkItemId, db)

-- `INSERT … ON CONFLICT (id) DO UPDATE SET payload = EXCLUDED.payload || agent_work_items.payload RETURNING head_sha`.
def insertReplacement (db : RescheduleDb) (id : String) (source : WorkSource) (payload : JsonObject) : HeadSha × RescheduleDb :=
  match db.items.get? id with
  | none => (.deferred, { db with items := db.items.set id ⟨source, .queued, false, .deferred, payload⟩ })
  | some row => (row.headSha, { db with items := db.items.set id { row with payload := mergePayload payload row.payload } })

def markStaleHeadReplacementEnqueued (db : RescheduleDb) (id : String) : RescheduleDb :=
  { db with
    items := db.items.updateWhere (fun key row => key = parentId && staleHeadReplacementIdSql row.payload = some id) fun _ row =>
      { row with payload := stampPayload row.payload id .enqueued } }

-- A job that is not sent throws, which ends the transaction as a crash does.
def writeReviewRescheduleJobs (db : RescheduleDb) (id : String) : RescheduleDb :=
  markStaleHeadReplacementEnqueued parentId
    { db with reviewJobs := ensureDeterministicJob db.reviewJobs id, ackJobs := ensureDeterministicJob db.ackJobs id } id

-- What a transaction writes once it holds the parent's row: `boss` is whether it enqueues.
def writeReplacement (db : RescheduleDb) (source : WorkSource) (payload : ReviewWorkPayload) (boss : Bool) (randomUUID : String) :
    Option (String × HeadSha × RescheduleDb) :=
  (nameReplacement fields parentId db payload randomUUID).map fun (id, named) =>
    let (headSha, inserted) := insertReplacement named id source (nextPayload source payload)
    let owned := { inserted with progress := some (transferProgressCommentOwnership id inserted.progress) }
    (id, headSha, if boss then writeReviewRescheduleJobs parentId owned id else owned)

end Rows

section Attempts

inductive RescheduleFailure
  | notReschedulable | leaseLost | markerPersistFailed | crashed
  deriving DecidableEq, Repr

-- How far an attempt has come: behind `loaded` it holds the intake lock, and from `held` on the parent's row.
inductive ReschedulePhase
  | loaded | locked | permitted | leased | held
  | rescheduled (replacementWorkItemId : String) (headSha : HeadSha)
  | failed (failure : RescheduleFailure)
  deriving DecidableEq, Repr

-- `source` and `payload` are of the item that the attempt has loaded.
structure RescheduleAttempt where
  source : WorkSource
  payload : ReviewWorkPayload
  leaseEpoch : Nat
  boss : Bool
  phase : ReschedulePhase

-- `intake` and `parentRow`: the attempts that hold these locks. `created`: the ids of the rows that attempts inserted.
-- `named`: the ids that attempts gave.
structure RescheduleState where
  db : RescheduleDb
  attempts : Nat → Option RescheduleAttempt
  intake : Option Nat
  parentRow : Option Nat
  created : List String
  named : List String

-- The statements of `createReviewRescheduleWorkItem`; what it writes under the locks no one sees before the commit.
inductive RescheduleStatement
  | acquireIntakeLock
  | readLifecycle
  | lockLease
  | lockParent
  | commit (randomUUID : String)
  | crash

inductive RescheduleEvent
  | load (i leaseEpoch : Nat) (boss : Bool)
  | run (i : Nat) (statement : RescheduleStatement)
  | updateParent (status : WorkStatus) (requestCancel : Bool) (patch : JsonObject)
  | updateItem (id : String) (status : WorkStatus) (requestCancel : Bool) (headSha : HeadSha) (patch : JsonObject)
  | recordLifecycle (lifecycle : Option ReviewState)
  | changeLease (lease : Option Nat)

def RescheduleState.setPhase (s : RescheduleState) (i : Nat) (attempt : RescheduleAttempt) (phase : ReschedulePhase) : RescheduleState :=
  { s with attempts := Function.update s.attempts i (some { attempt with phase }) }

-- `ROLLBACK`, or the end of the connection.
def RescheduleState.rollback (s : RescheduleState) (i : Nat) (attempt : RescheduleAttempt) (failure : RescheduleFailure) : RescheduleState :=
  { s.setPhase i attempt (.failed failure) with
    intake := if s.intake = some i then none else s.intake
    parentRow := if s.parentRow = some i then none else s.parentRow }

def ReviewRow.change (row : ReviewRow) (status : WorkStatus) (requestCancel : Bool) (patch : JsonObject) : ReviewRow :=
  { row with status, cancelRequested := row.cancelRequested || requestCancel, payload := mergePayload row.payload patch }

variable (fields : JsonObject → Option JsonObject) (parentId : String)

def ReschedulePhase.ended : ReschedulePhase → Bool
  | .rescheduled .. | .failed _ => true
  | _ => false

def runStatement (s : RescheduleState) (i : Nat) (attempt : RescheduleAttempt) : RescheduleStatement → Option RescheduleState
  | .acquireIntakeLock =>
    if attempt.phase = .loaded ∧ s.intake = none then some { s.setPhase i attempt .locked with intake := some i } else none
  | .readLifecycle =>
    if attempt.phase = .locked then
      if s.db.lifecycle = some .closed ∨ s.db.lifecycle = some .merged then some (s.rollback i attempt .notReschedulable)
      else some (s.setPhase i attempt .permitted)
    else none
  | .lockLease =>
    if attempt.phase = .permitted then
      if s.db.lease = some attempt.leaseEpoch then some (s.setPhase i attempt .leased) else some (s.rollback i attempt .leaseLost)
    else none
  | .lockParent =>
    if attempt.phase = .leased ∧ s.parentRow = none then
      if (s.db.items.get? parentId).any fun row => row.status = .running && !row.cancelRequested then
        some { s.setPhase i attempt .held with parentRow := some i }
      else some (s.rollback i attempt .notReschedulable)
    else none
  | .commit randomUUID =>
    if attempt.phase = .held then
      match writeReplacement fields parentId s.db attempt.source attempt.payload attempt.boss randomUUID with
      | none => some (s.rollback i attempt .markerPersistFailed)
      | some (id, headSha, db) =>
        some { s.setPhase i attempt (.rescheduled id headSha) with
          db, intake := none, parentRow := none, named := s.named ++ [id]
          created := if (s.db.items.get? id).isNone then s.created ++ [id] else s.created }
    else none
  | .crash => if attempt.phase.ended then none else some (s.rollback i attempt .crashed)

-- The parent's row is updated by others where no attempt holds it, and the lifecycle under the intake lock.
def rescheduleStep (s : RescheduleState) : RescheduleEvent → Option RescheduleState
  | .load i leaseEpoch boss =>
    if (s.attempts i).isSome then none
    else
      (s.db.items.get? parentId).bind fun row =>
        (parseReviewPayload fields row.payload).map fun payload =>
          { s with attempts := Function.update s.attempts i (some ⟨row.source, payload, leaseEpoch, boss, .loaded⟩) }
  | .run i statement => (s.attempts i).bind fun attempt => runStatement fields parentId s i attempt statement
  | .updateParent status requestCancel patch =>
    if s.parentRow = none then
      (s.db.items.get? parentId).map fun row =>
        { s with db := { s.db with items := s.db.items.set parentId (row.change status requestCancel patch) } }
    else none
  | .updateItem id status requestCancel headSha patch =>
    if id = parentId then none
    else
      (s.db.items.get? id).map fun row =>
        { s with db := { s.db with items := s.db.items.set id { row.change status requestCancel patch with headSha } } }
  | .recordLifecycle lifecycle => if s.intake = none then some { s with db := { s.db with lifecycle } } else none
  | .changeLease lease => some { s with db := { s.db with lease } }

end Attempts
end PrAgent.StaleHead
