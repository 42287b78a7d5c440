import PrAgent.Lease
set_option autoImplicit false

namespace PrAgent

abbrev OperationKey := Nat

-- Unique key of `operation_intents`.
structure IntentKey where
  workItemId : WorkItemId
  operationKey : OperationKey
  deriving DecidableEq, Repr

inductive OperationIntentStatus
  | pending | reconciled | failed | outcomeUnknown
  deriving DecidableEq, Repr

-- The codes the publish path raises or records. `other` stands for the codes it only passes on.
inductive AppErrorCode
  | mutationOutcomeUnknown | mutationFailed | recoveryFailed | publishRecordLookupFailed | reconcileNoRow
  | persistNoRow | prActorLeaseLost | executionAborted
  | other (code : Nat)
  deriving DecidableEq, Repr

-- A JavaScript value: `undefined` has no JSON form and is stored as `null`.
inductive Unknown (V : Type)
  | undefined | null
  | value (v : V)
  deriving DecidableEq, Repr

-- The JSON value kept under `__result`: `result === undefined ? null : result`; `none` is `null`.
def Unknown.stash {V : Type} : Unknown V → Option V
  | .undefined | .null => none
  | .value v => some v

-- `value === null ? undefined : value`.
def stashedResultValue {V : Type} : Option V → Unknown V
  | none => .undefined
  | some v => .value v

abbrev Fields (V : Type) := List (String × V)

-- The jsonb `detail` column. The markers of the publish path are fields of their own; what callers add is kept
-- under `fields`, latest first. An absent key is `none`.
structure IntentDetail (V : Type) where
  mutating : Option Bool := none
  sendStarted : Option Bool := none
  mutatingEpoch : Option Nat := none
  result : Option (Option V) := none
  unknownResolutionTerminal : Option Bool := none
  reconciledFromPublishRecord : Option Bool := none
  recoveredAfterMutating : Option Bool := none
  errorCode : Option AppErrorCode := none
  fields : Fields V := []
  deriving DecidableEq, Repr

-- `detail || patch`: every key of the patch replaces the old one.
def IntentDetail.merge {V : Type} (detail patch : IntentDetail V) : IntentDetail V where
  mutating := patch.mutating.or detail.mutating
  sendStarted := patch.sendStarted.or detail.sendStarted
  mutatingEpoch := patch.mutatingEpoch.or detail.mutatingEpoch
  result := patch.result.or detail.result
  unknownResolutionTerminal := patch.unknownResolutionTerminal.or detail.unknownResolutionTerminal
  reconciledFromPublishRecord := patch.reconciledFromPublishRecord.or detail.reconciledFromPublishRecord
  recoveredAfterMutating := patch.recoveredAfterMutating.or detail.recoveredAfterMutating
  errorCode := patch.errorCode.or detail.errorCode
  fields := patch.fields ++ detail.fields

structure OperationIntent (V : Type) where
  status : OperationIntentStatus
  publishRecordId : Option Nat
  leaseEpoch : Option Nat
  detail : IntentDetail V
  deriving DecidableEq, Repr

abbrev OperationIntents (V : Type) := Table IntentKey (OperationIntent V)

-- One execution's use of one operation key. `leaseEpoch` is `none` for an unleased caller. An execution awaits each of its
-- calls, so no run has two overlapping ones of one slot.
structure PublishSlot where
  workItemId : WorkItemId
  leaseEpoch : Option Nat
  operationKey : OperationKey
  deriving DecidableEq, Repr

def PublishSlot.key (slot : PublishSlot) : IntentKey := ⟨slot.workItemId, slot.operationKey⟩

-- What the outside world can tell afterwards, newest first. No statement reads it. `sent` is every call of `mutate()`.
inductive PublishEvent (V : Type)
  | sent (slot : PublishSlot)
  | mutated (slot : PublishSlot) (result : Unknown V)
  | recordedFailed (key : IntentKey)
  | recovered (slot : PublishSlot) (target : IntentKey) (result : Unknown V)
  | recordFound (slot : PublishSlot) (target : IntentKey)
  deriving DecidableEq, Repr

structure PublishState (V : Type) extends LeaseState where
  intents : OperationIntents V
  log : List (PublishEvent V)

section Statements

variable {V : Type}

def PublishState.write (s : PublishState V) (key : IntentKey) (row : OperationIntent V) : PublishState V :=
  { s with intents := s.intents.set key row }

-- `INSERT … ON CONFLICT (work_item_id, operation_key) DO UPDATE SET lease_epoch = COALESCE(…) RETURNING …`.
def persistStatement (s : PublishState V) (slot : PublishSlot) (detail : IntentDetail V) :
    Option (OperationIntent V) × PublishState V :=
  if s.fenced slot.workItemId slot.leaseEpoch then
    let row : OperationIntent V :=
      match s.intents.get? slot.key with
      | none => ⟨.pending, none, slot.leaseEpoch, detail⟩
      | some old => { old with leaseEpoch := slot.leaseEpoch.or old.leaseEpoch }
    (some row, s.write slot.key row)
  else (none, s)

-- `UPDATE … SET status = CASE WHEN status = 'failed' THEN 'pending' ELSE status END, detail = detail || $4`.
def mergeStatement (s : PublishState V) (slot : PublishSlot) (patch : IntentDetail V) :
    Option (OperationIntent V) × PublishState V :=
  match s.intents.get? slot.key with
  | none => (none, s)
  | some old =>
    if (old.status = .pending ∨ old.status = .failed) ∧ s.fenced slot.workItemId slot.leaseEpoch then
      let row : OperationIntent V :=
        { old with
          status := .pending
          leaseEpoch := slot.leaseEpoch.or old.leaseEpoch
          detail := old.detail.merge patch }
      (some row, s.write slot.key row)
    else (none, s)

-- The row an attempt of this epoch armed and did not send: the only one `releaseUnsentInFlightIntent` updates.
def OperationIntent.unsentBy (leaseEpoch : Nat) (row : OperationIntent V) : Bool :=
  row.status = .pending ∧ row.detail.mutating = some true ∧ row.detail.result.isNone ∧
    row.detail.sendStarted = some false ∧ row.detail.mutatingEpoch = some leaseEpoch

def OperationIntent.release (row : OperationIntent V) : OperationIntent V :=
  { row with detail := row.detail.merge { mutating := some false } }

def releaseUnsentStatement (s : PublishState V) (key : IntentKey) (leaseEpoch : Nat) : PublishState V :=
  match s.intents.get? key with
  | some row => if row.unsentBy leaseEpoch then s.write key row.release else s
  | none => s

variable (leaseKeyOf : WorkItemId → LeaseKey)

-- `__sendStarted = false` with a numeric arming epoch: a marker that counts only while that epoch is live.
-- An absent `__sendStarted` beside an epoch makes the SQL condition NULL, which selects nothing either.
def OperationIntent.unstarted (row : OperationIntent V) : Bool :=
  row.detail.sendStarted ≠ some true ∧ row.detail.mutatingEpoch.isSome

-- `EXISTS (SELECT 1 FROM pr_actor_leases armed WHERE … armed.lease_epoch = __mutatingEpoch AND expires_at > now())`.
def PublishState.armedEpochLive (s : PublishState V) (key : LeaseKey) (leaseEpoch : Option Nat) : Bool :=
  match s.leases.get? key with
  | some lease => some lease.leaseEpoch = leaseEpoch && s.now < lease.expiresAt
  | none => false

-- `EXISTS (SELECT 1 FROM pr_actor_leases live WHERE … live.work_item_id = caller.id AND live.expires_at > now())`.
def PublishState.callerLive (s : PublishState V) (caller : WorkItemId) : Bool :=
  match s.leases.get? (leaseKeyOf caller) with
  | some lease => lease.workItemId = some caller && s.now < lease.expiresAt
  | none => false

-- The WHERE clause of `findInFlightMutatingIntent`.
def inFlightFor (s : PublishState V) (caller : IntentKey) (key : IntentKey) (row : OperationIntent V) : Bool :=
  leaseKeyOf key.workItemId = leaseKeyOf caller.workItemId && row.status = .pending &&
    row.detail.mutating = some true && row.detail.result.isNone &&
    !(row.unstarted && !s.armedEpochLive (leaseKeyOf caller.workItemId) row.detail.mutatingEpoch) &&
    (key = caller || (key.workItemId ≠ caller.workItemId && s.callerLive leaseKeyOf caller.workItemId))

def findInFlightStatement (s : PublishState V) (caller : IntentKey) : Option (IntentKey × OperationIntent V) :=
  s.intents.first? (inFlightFor leaseKeyOf s caller)

-- `status = 'pending' OR status = $3 OR (status = 'outcome_unknown' AND $3 = 'reconciled')`.
def OperationIntentStatus.mayBecome (current next : OperationIntentStatus) : Bool :=
  current = .pending || current = next || (current = .outcomeUnknown && next = .reconciled)

def reconcileStatement (s : PublishState V) (target : IntentKey) (leaseHolder : WorkItemId) (leaseEpoch : Option Nat)
    (status : OperationIntentStatus) (publishRecordId : Option Nat) (patch : IntentDetail V) :
    Option (OperationIntent V) × PublishState V :=
  match s.intents.get? target with
  | none => (none, s)
  | some old =>
    if old.status.mayBecome status ∧ s.fenced leaseHolder leaseEpoch then
      let row : OperationIntent V :=
        { status
          publishRecordId := publishRecordId.or old.publishRecordId
          leaseEpoch := leaseEpoch.or old.leaseEpoch
          detail := old.detail.merge patch }
      let log := if status = .failed then .recordedFailed target :: s.log else s.log
      (some row, { s.write target row with log })
    else (none, s)

def selectReconciledStatement (s : PublishState V) (target : IntentKey) : Option (OperationIntent V) :=
  match s.intents.get? target with
  | some row => if row.status = .reconciled then some row else none
  | none => none

end Statements
end PrAgent
