import PrAgent.OperationIntent
import PrAgent.Pool
set_option autoImplicit false

namespace PrAgent

structure AppError where
  code : AppErrorCode
  message : String
  -- `context.unknownResolution = "terminal"`
  terminal : Bool := false
  -- `context.mutationAccepted`
  mutationAccepted : Option Bool := none
  deriving DecidableEq, Repr

-- The `accepted` and `mutationAccepted` properties of an error, of its response or of the response's data.
structure AcceptanceMarks where
  accepted : Option Bool := none
  mutationAccepted : Option Bool := none
  deriving DecidableEq, Repr

def AcceptanceMarks.refused (marks : AcceptanceMarks) : Bool :=
  marks.accepted = some false || marks.mutationAccepted = some false

-- A thrown value, with everything the publish path reads of it.
structure Thrown where
  appError : Option AppError := none
  status : Option Nat := none
  marks : AcceptanceMarks := {}
  response : Option AcceptanceMarks := none
  responseStatus : Option Nat := none
  responseData : AcceptanceMarks := {}
  provenInlineAnchorRejection : Bool := false
  reviewThreadResolutionDenied : Bool := false
  message : String := ""
  deriving DecidableEq, Repr

-- A failed query or connection: a plain error of the driver.
def Thrown.database : Thrown := { message := "connection terminated" }

def AppError.thrown (error : AppError) : Thrown := { appError := some error, message := error.message }

def httpStatus (error : Thrown) : Option Nat :=
  error.status.or (if error.response.isSome then error.responseStatus else none)

def isRemoteMutationError (error : Thrown) : Bool := (httpStatus error).isSome || error.response.isSome

def isKnownNoAcceptanceMutationError (error : Thrown) : Bool :=
  if error.provenInlineAnchorRejection then true
  else if error.reviewThreadResolutionDenied && (error.appError.bind AppError.mutationAccepted) = some false then true
  else if error.marks.refused then true
  else if error.response.any AcceptanceMarks.refused || (error.response.isSome && error.responseData.refused) then true
  else httpStatus error ∈ [some 400, some 401, some 403, some 404]

-- `toAppError`: an application error passes through, anything else is wrapped.
def toAppError (error : Thrown) (code : AppErrorCode) : Thrown :=
  if error.appError.isSome then error else ({ code, message := error.message } : AppError).thrown

def leaseLostError : Thrown :=
  ({ code := .prActorLeaseLost, message := "PR actor lease is no longer held by this execution" } : AppError).thrown

def unknownMutationMessage : String :=
  "Mutation outcome unknown after crash between mutate() and __result; remutate forbidden"

def reconciledRemutateMessage : String :=
  "Reconciled mutation has no stashed result and recover cannot rebuild it; remutate forbidden"

def invalidResultMessage : String := "Mutation result failed validation; remutate forbidden"

def unknownOutcomeError (message : String) (terminal : Bool) : Thrown :=
  ({ code := .mutationOutcomeUnknown, message, terminal } : AppError).thrown

-- `reconcileDetail`: fixed keys, or keys computed from the decoded result.
inductive ReconcileDetail (V : Type)
  | fixed (fields : Fields V)
  | ofResult (compute : Unknown V → Fields V)

structure PublishOnceParams (V : Type) where
  workItemId : WorkItemId
  operationKey : OperationKey
  leaseEpoch : Option Nat
  detail : Fields V := []
  mutationDetail : Fields V := []
  decodeResult : Option (Unknown V → Except Thrown (Unknown V)) := none
  publishRecordId : Option Nat := none
  reconcileDetail : ReconcileDetail V := .fixed []
  -- `params.recover != null`; the function itself is answered by the environment
  recovers : Bool
  allowsUndefinedResult : Bool := false
  isKnownNoAcceptanceError : Option (Thrown → Bool) := none

structure Recovery (V : Type) where
  value : Unknown V
  publishRecordId : Option Nat := none
  detail : Fields V := []

-- One operation is one await of the source: a single SQL statement, a read of the abort signal, or a call of
-- one of the caller's closures.
inductive PublishOp (V : Type)
  | aborted
  | isHeld (workItemId : WorkItemId) (leaseEpoch : Nat)
  | persist (detail : IntentDetail V)
  | merge (patch : IntentDetail V)
  | releaseUnsent (leaseEpoch : Nat)
  | findInFlight
  | reconcile (target : IntentKey) (leaseHolder : WorkItemId) (leaseEpoch : Option Nat)
      (status : OperationIntentStatus) (publishRecordId : Option Nat) (patch : IntentDetail V)
  | selectReconciled (target : IntentKey)
  | findCompletedPublishRecordId (target : IntentKey) (intent : OperationIntent V)
  | recover (target : IntentKey) (intent : OperationIntent V) (publishRecordId : Option Nat)
  | mutate

-- `aborted` answers the reason of an aborted signal, itself possibly `undefined`.
def publishInterface (V : Type) : Interface where
  Op := PublishOp V
  Err := Thrown
  Ans
    | .aborted => Option (Option Thrown)
    | .isHeld .. => Bool
    | .persist .. | .merge .. | .reconcile .. | .selectReconciled .. => Option (OperationIntent V)
    | .releaseUnsent .. => Unit
    | .findInFlight => Option (IntentKey × OperationIntent V)
    | .findCompletedPublishRecordId .. => Option Nat
    | .recover .. => Option (Recovery V)
    | .mutate => Unknown V

abbrev PublishProgram (V α : Type) := Program (publishInterface V) α

section Source

variable {V : Type}

def ask (op : PublishOp V) : PublishProgram V ((publishInterface V).Ans op) := Program.perform (I := publishInterface V) op

def assertPrActorLeaseHeld (workItemId : WorkItemId) (leaseEpoch : Nat) : PublishProgram V Unit := do
  let held : Bool ← ask (.isHeld workItemId leaseEpoch)
  if held then pure () else throw leaseLostError

def fencedWrite {α : Type} (workItemId : WorkItemId) (leaseEpoch : Option Nat) (before : Bool)
    (rejected : Option (α → Bool)) (write : PublishProgram V α) : PublishProgram V α := do
  match leaseEpoch with
  | none => write
  | some epoch =>
    if before then assertPrActorLeaseHeld workItemId epoch
    let result ← write
    if rejected.any (· result) then assertPrActorLeaseHeld workItemId epoch
    pure result

def throwIfExecutionAborted : PublishProgram V Unit := do
  let aborted : Option (Option Thrown) ← ask .aborted
  match aborted with
  | none => pure ()
  | some (some reason) => throw (toAppError reason .executionAborted)
  | some none =>
    throw ({ code := .executionAborted, message := "PR-surface mutation was aborted before completion" } :
      AppError).thrown

variable (params : PublishOnceParams V)

def PublishOnceParams.slot : PublishSlot := ⟨params.workItemId, params.leaseEpoch, params.operationKey⟩

def persistOperationIntent : PublishProgram V (OperationIntent V) := do
  let row : Option (OperationIntent V) ←
    fencedWrite params.workItemId params.leaseEpoch true (some Option.isNone)
      (ask (.persist { fields := params.detail }))
  match row with
  | some row => pure row
  | none => throw ({ code := .persistNoRow, message := "persistOperationIntent returned no row" } : AppError).thrown

def mergeOperationIntentDetail (patch : IntentDetail V) : PublishProgram V (Option (OperationIntent V)) :=
  fencedWrite params.workItemId params.leaseEpoch true none (ask (.merge patch))

def reconcileOperationIntent (target : IntentKey) (status : OperationIntentStatus) (publishRecordId : Option Nat)
    (patch : IntentDetail V) : PublishProgram V (Option (OperationIntent V)) :=
  fencedWrite params.workItemId params.leaseEpoch true none do
    let updated : Option (OperationIntent V) ←
      ask (.reconcile target params.workItemId params.leaseEpoch status publishRecordId patch)
    if updated.isSome then pure updated
    else if status ≠ .outcomeUnknown ∧ status ≠ .failed then pure none
    else ask (.selectReconciled target)

def assertMutationReady : PublishProgram V Unit := do
  throwIfExecutionAborted
  match params.leaseEpoch with
  | some epoch => assertPrActorLeaseHeld params.workItemId epoch
  | none => pure ()

def decodePublishResult (value : Unknown V) : Except Thrown (Unknown V) :=
  match params.decodeResult with
  | none => .ok value
  | some decode =>
    match decode value with
    | .ok decoded => .ok decoded
    | .error _ => .error (unknownOutcomeError invalidResultMessage true)

def resolveReconcileDetail (result : Option (Unknown V)) : Except Thrown (Fields V) :=
  match params.reconcileDetail with
  | .fixed fields => .ok fields
  | .ofResult compute =>
    match result with
    | none => .ok []
    | some value =>
      if params.decodeResult.isNone then
        .error { message := "A result-dependent reconciliation requires a result decoder" }
      else (decodePublishResult params value).map compute

def allowsUndefinedSuccess : Bool := params.allowsUndefinedResult || !params.recovers

def finishWithStashedResult (target : IntentKey) (intent : OperationIntent V) (stashed : Option V) :
    PublishProgram V (Unknown V) := do
  let value ← Program.ofExcept (decodePublishResult params (stashedResultValue stashed))
  if intent.status ≠ .reconciled then
    assertMutationReady params
    let fields ← Program.ofExcept (resolveReconcileDetail params none)
    let _ ← reconcileOperationIntent params target .reconciled params.publishRecordId
      { fields, result := some stashed }
  pure value

-- `found` with its value, or not found.
def recoverByExactEvidence (target : IntentKey) (intent : OperationIntent V) (publishRecordId : Option Nat) :
    PublishProgram V (Option (Unknown V)) := do
  if params.recovers then
    let attempt ← (ask (.recover target intent publishRecordId)).attempt
    match attempt with
    | .error _ =>
      assertMutationReady params
      throw ({ code := .recoveryFailed, message := "Failed to reconcile an outcome-unknown GitHub mutation" } :
        AppError).thrown
    | .ok recovery =>
      assertMutationReady params
      match (recovery : Option (Recovery V)) with
      | none => pure none
      | some recovery =>
        let value ← Program.ofExcept (decodePublishResult params recovery.value)
        let fields ← Program.ofExcept (resolveReconcileDetail params (some value))
        let _ ← reconcileOperationIntent params target .reconciled (recovery.publishRecordId.or publishRecordId)
          { fields := recovery.detail ++ fields, result := some recovery.value.stash }
        pure (some value)
  else pure none

def finishVoidSuccess (target : IntentKey) (extraDetail : IntentDetail V) (publishRecordId : Option Nat) :
    PublishProgram V (Unknown V) := do
  let value ← Program.ofExcept (decodePublishResult params .undefined)
  assertMutationReady params
  let fields ← Program.ofExcept (resolveReconcileDetail params none)
  let _ ← reconcileOperationIntent params target .reconciled (publishRecordId.or params.publishRecordId)
    { extraDetail with fields, result := some none }
  pure value

def AppErrorCode.raisedBy (code : AppErrorCode) (error : Thrown) : Bool := error.appError.any (·.code = code)

-- `recoverAfterMutatingWithoutResult`, from the failed or answered recovery on.
def settleUnknownOutcome (target : IntentKey) (publishRecordId : Option Nat) (observed : Bool) :
    PublishProgram V (Unknown V) := do
  if publishRecordId.isSome ∧ allowsUndefinedSuccess params then
    finishVoidSuccess params target { reconciledFromPublishRecord := some true, recoveredAfterMutating := some true }
      publishRecordId
  else
    assertMutationReady params
    let fields ← Program.ofExcept (resolveReconcileDetail params none)
    let resolved ← reconcileOperationIntent params target .outcomeUnknown none
      { fields, mutating := some false
        unknownResolutionTerminal := if observed then some true else none
        errorCode := some .mutationOutcomeUnknown }
    if resolved.isNone then
      assertMutationReady params
      throw ({ code := .reconcileNoRow, message := "Unknown mutation resolution returned no row" } : AppError).thrown
    else throw (unknownOutcomeError unknownMutationMessage observed)

def recoverAfterMutatingWithoutResult (target : IntentKey) (intent : OperationIntent V) :
    PublishProgram V (Unknown V) := do
  let lookup ← (ask (.findCompletedPublishRecordId target intent)).attempt
  match lookup with
  | .error _ =>
    throw ({ code := .publishRecordLookupFailed
             message := "Failed to look up publish_records while recovering after __mutating" } : AppError).thrown
  | .ok publishRecordId =>
    let attempt ← (recoverByExactEvidence params target intent publishRecordId).attempt
    match attempt with
    | .ok (some value) => pure value
    | .ok none => settleUnknownOutcome params target publishRecordId true
    | .error error =>
      if (publishRecordId : Option Nat).isNone then throw error
      else if !AppErrorCode.recoveryFailed.raisedBy error then throw error
      else settleUnknownOutcome params target publishRecordId false

-- What an attempt writes before it may send.
def claimPatch : IntentDetail V :=
  { fields := params.mutationDetail
    mutating := some true
    sendStarted := params.leaseEpoch.map fun _ => false
    mutatingEpoch := params.leaseEpoch }

-- The head of the `try` block, up to `sendStarted = true`.
def armSend : PublishProgram V Unit := do
  assertMutationReady params
  match params.leaseEpoch with
  | some epoch =>
    assertPrActorLeaseHeld params.workItemId epoch
    let marked ← mergeOperationIntentDetail params { sendStarted := some true }
    if marked.isNone then throw leaseLostError else pure ()
  | none => pure ()

-- The tail of the `try` block, after `mutateSucceeded = true`.
def saveResult (result : Unknown V) : PublishProgram V (Unknown V) := do
  let _ ← Program.ofExcept (decodePublishResult params result)
  assertMutationReady params
  let fields ← Program.ofExcept (resolveReconcileDetail params (some result))
  let _ ← mergeOperationIntentDetail params { fields, result := some result.stash }
  let _ ← reconcileOperationIntent params params.slot.key .reconciled params.publishRecordId
    { fields, result := some result.stash }
  pure result

-- The lookup for evidence that a failed send was accepted after all.
def recoverFailedSend (knownNoAcceptance : Bool) (error : Thrown) : PublishProgram V (Option (Unknown V)) := do
  if !knownNoAcceptance && (params.recovers || isRemoteMutationError error) then
    let intentForRecovery ← persistOperationIntent params
    recoverByExactEvidence params params.slot.key intentForRecovery none
  else pure none

-- The `catch` block. The two flags say how far the `try` block came.
def handleFailure (sendStarted mutateSucceeded : Bool) (error : Thrown) : PublishProgram V (Unknown V) := do
  let unsent : Option Nat :=
    if !sendStarted && !mutateSucceeded && AppErrorCode.prActorLeaseLost.raisedBy error then params.leaseEpoch else none
  match unsent with
  | some epoch =>
    let _ ← (ask (.releaseUnsent epoch)).attempt
    throw error
  | none =>
    let knownNoAcceptance := (params.isKnownNoAcceptanceError.getD isKnownNoAcceptanceMutationError) error
    if mutateSucceeded then throw (toAppError error .mutationOutcomeUnknown)
    else
      let recovered ← recoverFailedSend params knownNoAcceptance error
      match recovered with
      | some value => pure value
      | none =>
        let fields ← Program.ofExcept (resolveReconcileDetail params none)
        let _ ← reconcileOperationIntent params params.slot.key
          (if knownNoAcceptance then .failed else .outcomeUnknown) none
          { fields, mutating := some false
            errorCode := some (if knownNoAcceptance then .mutationFailed else .mutationOutcomeUnknown) }
        throw (toAppError error (if knownNoAcceptance then .mutationFailed else .mutationOutcomeUnknown))

-- The claim, the `try` block and its `catch`.
def claimAndSend : PublishProgram V (Unknown V) := do
  let _ ← mergeOperationIntentDetail params (claimPatch params)
  let armed ← (armSend params).attempt
  match armed with
  | .error error => handleFailure params false false error
  | .ok _ =>
    let sendStarted := params.leaseEpoch.isSome
    let sent ← (ask .mutate).attempt
    match sent with
    | .error error => handleFailure params sendStarted false error
    | .ok result =>
      let saved ← (saveResult params result).attempt
      match saved with
      | .error error => handleFailure params sendStarted true error
      | .ok value => pure value

def publishOnceBody : PublishProgram V (Unknown V) := do
  assertMutationReady params
  let intent ← persistOperationIntent params
  assertMutationReady params
  match intent.detail.result with
  | some stashed => finishWithStashedResult params params.slot.key intent stashed
  | none =>
    match intent.status with
    | .reconciled =>
      let recovered ← recoverByExactEvidence params params.slot.key intent none
      match recovered with
      | some value => pure value
      | none =>
        if allowsUndefinedSuccess params then
          finishVoidSuccess params params.slot.key {} intent.publishRecordId
        else throw (unknownOutcomeError reconciledRemutateMessage true)
    | .outcomeUnknown =>
      if intent.detail.unknownResolutionTerminal = some true then
        throw (unknownOutcomeError unknownMutationMessage true)
      else recoverAfterMutatingWithoutResult params params.slot.key intent
    | .pending | .failed =>
      let inFlight : Option (IntentKey × OperationIntent V) ← ask .findInFlight
      match inFlight with
      | some (target, row) => recoverAfterMutatingWithoutResult params target row
      | none => claimAndSend params

end Source

-- How the environment answers one operation.
inductive PublishReply (V : Type)
  -- the statement runs and its answer arrives
  | served
  -- the connection fails, before or after the statement took effect
  | failed (applied : Bool)
  | signal (aborted : Option (Option Thrown))
  | record (publishRecordId : Option Nat)
  | recovery (answer : Except Thrown (Option (Recovery V)))
  -- `mutate()` is called, and this is what it returns or throws
  | sent (result : Except Thrown (Unknown V))

section Semantics

variable {V : Type} (leaseKeyOf : WorkItemId → LeaseKey)

def statement {α : Type} (reply : PublishReply V) (s : PublishState V) (effect : α × PublishState V) :
    Option (Except Thrown α × PublishState V) :=
  match reply with
  | .served => some (.ok effect.1, effect.2)
  | .failed applied => some (.error .database, if applied then effect.2 else s)
  | _ => none

def PublishState.note (s : PublishState V) (event : PublishEvent V) : PublishState V := { s with log := event :: s.log }

def publishAct (slot : PublishSlot) (op : PublishOp V) (reply : PublishReply V) (s : PublishState V) :
    Option (Except Thrown ((publishInterface V).Ans op) × PublishState V) :=
  match op with
  | .aborted =>
    match reply with
    | .signal aborted => some (.ok aborted, s)
    | _ => none
  | .isHeld workItemId leaseEpoch => statement reply s (s.held workItemId leaseEpoch, s)
  | .persist detail => statement reply s (persistStatement s slot detail)
  | .merge patch => statement reply s (mergeStatement s slot patch)
  | .releaseUnsent leaseEpoch => statement reply s ((), releaseUnsentStatement s slot.key leaseEpoch)
  | .findInFlight => statement reply s (findInFlightStatement leaseKeyOf s slot.key, s)
  | .reconcile target leaseHolder leaseEpoch status publishRecordId patch =>
    statement reply s (reconcileStatement s target leaseHolder leaseEpoch status publishRecordId patch)
  | .selectReconciled target => statement reply s (selectReconciledStatement s target, s)
  | .findCompletedPublishRecordId target _ =>
    match reply with
    | .record none => some (.ok none, s)
    | .record (some id) => some (.ok (some id), s.note (.recordFound slot target))
    | .failed _ => some (.error .database, s)
    | _ => none
  | .recover target _ _ =>
    match reply with
    | .recovery (.ok none) => some (.ok none, s)
    | .recovery (.ok (some recovery)) => some (.ok (some recovery), s.note (.recovered slot target recovery.value))
    | .recovery (.error error) => some (.error error, s)
    | _ => none
  | .mutate =>
    match reply with
    | .sent (.error error) => some (.error error, s.note (.sent slot))
    | .sent (.ok result) => some (.ok result, (s.note (.sent slot)).note (.mutated slot result))
    | _ => none

-- A leased caller starts under an epoch its work item was given, held or lost since.
def publishStarts (s : PublishState V) (slot : PublishSlot) (params : PublishOnceParams V) : Bool :=
  params.slot = slot &&
    match params.leaseEpoch with
    | none => true
    | some leaseEpoch =>
      match s.leases.get? (leaseKeyOf params.workItemId) with
      | some lease => leaseEpoch ≤ lease.leaseEpoch
      | none => false

def publishMove (move : LeaseMove) (s : PublishState V) : Option (PublishState V) :=
  some { s with toLeaseState := move.apply leaseKeyOf s.toLeaseState }

-- Any number of executions publishing over one database, with leases moving under them.
def publishSystem (V : Type) :
    System PublishSlot (publishInterface V) (PublishState V) (PublishOnceParams V) (PublishReply V) LeaseMove
      (Unknown V) where
  program := publishOnceBody
  starts := publishStarts leaseKeyOf
  act := publishAct leaseKeyOf
  ends := fun _ _ s => s
  move := publishMove leaseKeyOf

end Semantics
end PrAgent
