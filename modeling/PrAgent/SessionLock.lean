import PrAgent.JsonDocument
set_option autoImplicit false

namespace PrAgent

variable {E T : Type}

section Requests

structure TrySessionLockOptions (E : Type) where
  unleased : Bool
  capacityError : Nat → E

-- `onUnlockError` is left out: it is taken not to throw.
structure WaitSessionLockOptions (E : Type) where
  capacityError : Nat → E
  timeoutError : E
  onAcquireError : E → E

-- The overloads give each kind of key its mode.
inductive SessionLockRequest (E : Type) where
  | ownVerdict (workItemId reviewLens : Text) (options : TrySessionLockOptions E)
  | progress (resourceKey reviewLens : Text) (options : WaitSessionLockOptions E)
  | threadMutation (resourceKey : Text) (options : WaitSessionLockOptions E)

inductive SessionLockMode (E : Type) where
  | tryOnce (options : TrySessionLockOptions E)
  | wait (options : WaitSessionLockOptions E)

def SessionLockRequest.mode : SessionLockRequest E → SessionLockMode E
  | .ownVerdict _ _ options => .tryOnce options
  | .progress _ _ options => .wait options
  | .threadMutation _ options => .wait options

def SessionLockRequest.lockKey : SessionLockRequest E → Text
  | .ownVerdict workItemId reviewLens _ => text "own-verdict:" ++ workItemId ++ text ":" ++ reviewLens
  | .threadMutation resourceKey _ => text "thread-mutation:" ++ resourceKey
  | .progress resourceKey reviewLens _ => (JsonTree.array [.string resourceKey, .string reviewLens]).stringify

-- `max` is that of the options of the pool.
def SessionLockRequest.poolMax (max : Option Nat) : SessionLockRequest E → Nat
  | .ownVerdict _ _ _ => max.getD 10
  | _ => max.getD 0

def SessionLockRequest.capacity (max : Option Nat) (request : SessionLockRequest E) : Nat :=
  match request.mode with
  | .tryOnce _ => Nat.max 1 (request.poolMax max / 2)
  | .wait _ => Nat.max 0 (request.poolMax max / 2)

-- The error of a call that is not admitted.
def SessionLockRequest.refused (max : Option Nat) (request : SessionLockRequest E) : Option E :=
  match request.mode with
  | .tryOnce options =>
    if request.capacity max < 1 ∨ request.poolMax max = 1 ∧ options.unleased = false then some (options.capacityError (request.poolMax max)) else none
  | .wait options => if request.capacity max < 1 then some (options.capacityError (request.poolMax max)) else none

-- What is thrown for an error before the lock is retained.
def SessionLockRequest.acquireError (request : SessionLockRequest E) (error : E) : E :=
  match request.mode with
  | .tryOnce _ => error
  | .wait options => options.onAcquireError error

end Requests

section Calls

-- Where a call awaits.
inductive LockPhase (E T : Type) where
  | connecting
  | querying (client : Nat)
  | contending (client : Nat)
  | sleeping
  | applying (client : Nat)
  | unlocking (client : Nat) (result : Except E T)
  | ended (outcome : Except E (Option T))

def LockPhase.client : LockPhase E T → Option Nat
  | .querying client => some client
  | .contending client => some client
  | .applying client => some client
  | .unlocking client _ => some client
  | _ => none

-- The connection on which the lock was won.
def LockPhase.retained : LockPhase E T → Option Nat
  | .applying client => some client
  | .unlocking client _ => some client
  | _ => none

def LockPhase.isEnded : LockPhase E T → Bool
  | .ended _ => true
  | _ => false

def LockPhase.reserves : LockPhase E T → Bool
  | .connecting => true
  | phase => phase.client.isSome

structure LockRelease where
  client : Nat
  destroyed : Bool
  holding : Bool
  deriving DecidableEq

-- The lists and the last two fields are for the record.
structure LockCall (E T : Type) where
  request : SessionLockRequest E
  phase : LockPhase E T
  obtained : List Nat
  released : List LockRelease
  applied : Nat
  applyFailure : Option E

-- `held` is what the server knows: connections with the locks that they hold. A connection that was handed back to be destroyed is discarded.
structure LockState (E T : Type) where
  count : Nat
  reserved : List Nat
  calls : Nat → Option (LockCall E T)
  held : List (Nat × Int)
  discarded : List Nat

def LockState.empty : LockState E T := ⟨0, [], fun _ => none, [], []⟩

def setCall (calls : Nat → Option (LockCall E T)) (i : Nat) (call : LockCall E T) : Nat → Option (LockCall E T) :=
  fun other => if other = i then some call else calls other

def LockState.put (state : LockState E T) (i : Nat) (call : LockCall E T) : LockState E T := { state with calls := setCall state.calls i call }

def LockState.reserve (state : LockState E T) (i : Nat) : LockState E T :=
  { state with count := state.count + 1, reserved := i :: state.reserved }

def LockState.giveBack (state : LockState E T) (i : Nat) : LockState E T :=
  { state with count := state.count - 1, reserved := state.reserved.erase i }

def LockState.discard (state : LockState E T) (client : Nat) (destroy : Bool) : LockState E T :=
  { state with discarded := if destroy then client :: state.discarded else state.discarded }

def LockState.holding (state : LockState E T) (client : Nat) : Bool := state.held.any fun entry => entry.1 = client

def LockCall.release (call : LockCall E T) (client : Nat) (destroyed holding : Bool) : LockCall E T :=
  { call with released := call.released ++ [⟨client, destroyed, holding⟩] }

def LockCall.endWith (call : LockCall E T) (outcome : Except E (Option T)) : LockCall E T := { call with phase := .ended outcome }

-- Behind an attempt without a lock; `expired` says that nothing remains until the deadline.
def LockCall.goOn (call : LockCall E T) (expired : Bool) : LockCall E T :=
  match call.request.mode with
  | .tryOnce _ => call.endWith (.ok none)
  | .wait options =>
    if expired then call.endWith (.error (options.onAcquireError options.timeoutError)) else { call with phase := .sleeping }

def LockState.attempt (max : Option Nat) (state : LockState E T) (i : Nat) (call : LockCall E T) (expired : Bool) : LockState E T :=
  if state.count < call.request.capacity max then (state.reserve i).put i { call with phase := .connecting }
  else state.put i (call.goOn expired)

def LockState.start (max : Option Nat) (state : LockState E T) (i : Nat) (request : SessionLockRequest E) (expired : Bool) : LockState E T :=
  match request.refused max with
  | some error => state.put i ⟨request, .ended (.error error), [], [], 0, none⟩
  | none => state.attempt max i ⟨request, .sleeping, [], [], 0, none⟩ expired

-- The `finally` of an attempt that did not win the lock.
def LockState.abandon (state : LockState E T) (i : Nat) (call : LockCall E T) (client : Nat) (destroy : Bool) (acquireFailure releaseError : Option E)
    (expired : Bool) : LockState E T :=
  let released := call.release client destroy (state.holding client)
  ((state.discard client destroy).giveBack i).put i
    (match acquireFailure.or releaseError with
    | some error => released.endWith (.error (call.request.acquireError error))
    | none => released.goOn expired)

-- The end of a call that won the lock; `unlockError` does not take the place of the error of `apply`.
def LockState.finish (state : LockState E T) (i : Nat) (call : LockCall E T) (client : Nat) (result : Except E T) (destroy : Bool)
    (unlockError releaseError : Option E) : LockState E T :=
  let outcome :=
    match result with
    | .error failure => .error failure
    | .ok value =>
      match unlockError.or releaseError with
      | some error => .error error
      | none => .ok (some value)
  ((state.discard client destroy).giveBack i).put i ((call.release client destroy (state.holding client)).endWith outcome)

end Calls

section Steps

-- An answer to a call. `late` and `expired` are what the clock says; a query that fails may still have had its effect.
inductive LockEvent (E T : Type) where
  | start (i : Nat) (request : SessionLockRequest E) (expired : Bool)
  | connected (i client : Nat) (late : Bool) (releaseError : Option E)
  | connectFailed (i : Nat) (error : E)
  | tried (i : Nat) (locked late : Bool) (releaseError : Option E) (expired : Bool)
  | tryFailed (i : Nat) (error : E) (granted : Bool) (releaseError : Option E)
  | contended (i : Nat) (error releaseError : Option E)
  | woken (i : Nat) (late expired : Bool)
  | applied (i : Nat) (result : Except E T)
  | unlocked (i : Nat) (releaseError : Option E)
  | unlockFailed (i : Nat) (error : E) (done : Bool) (releaseError : Option E)
  | discardedTakes (client : Nat) (lock : Int)
  | discardedDrops (client : Nat) (lock : Int)

variable (max : Option Nat) (hashtextextended : Text → Int)

def LockCall.lock (call : LockCall E T) : Int := hashtextextended call.request.lockKey

-- Another session does not hold the lock.
def LockState.free (state : LockState E T) (client : Nat) (lock : Int) : Bool := state.held.all fun entry => entry.2 ≠ lock || entry.1 = client

def LockState.grant (state : LockState E T) (client : Nat) (lock : Int) : LockState E T := { state with held := (client, lock) :: state.held }

def LockState.drop (state : LockState E T) (client : Nat) (lock : Int) : LockState E T := { state with held := state.held.erase (client, lock) }

-- The pool hands out no connection twice, and none that it was told to destroy.
def LockState.available (state : LockState E T) (client : Nat) : Prop :=
  client ∉ state.discarded ∧ ∀ i ∈ state.reserved, ((state.calls i).bind fun call => call.phase.client) ≠ some client

instance (state : LockState E T) (client : Nat) : Decidable (state.available client) := by
  delta LockState.available
  infer_instance

def SessionLockRequest.timedOut (request : SessionLockRequest E) (late : Bool) : Option E :=
  match request.mode with
  | .tryOnce _ => none
  | .wait options => if late then some options.timeoutError else none

def LockState.onConnected (state : LockState E T) (i : Nat) (call : LockCall E T) (client : Nat) (late : Bool) (releaseError : Option E) :
    LockState E T :=
  let call := { call with obtained := call.obtained ++ [client] }
  match call.request.timedOut late with
  | some error => state.abandon i call client true (some error) releaseError false
  | none => state.put i { call with phase := .querying client }

def LockState.onTried (state : LockState E T) (i : Nat) (call : LockCall E T) (client : Nat) (locked late : Bool) (releaseError : Option E)
    (expired : Bool) : LockState E T :=
  match call.request.timedOut late with
  | some error => state.abandon i call client true (some error) releaseError false
  | none =>
    if locked then state.put i { call with phase := .applying client, applied := call.applied + 1 }
    else
      match call.request.mode with
      | .tryOnce _ => state.put i { call with phase := .contending client }
      | .wait _ => state.abandon i call client false none releaseError expired

def LockCall.onApplied (call : LockCall E T) (client : Nat) (result : Except E T) : LockCall E T :=
  { call with
    phase := .unlocking client result
    applyFailure := match result with
      | .error error => some error
      | .ok _ => none }

def sessionLockStep (state : LockState E T) : LockEvent E T → Option (LockState E T)
  | .start i request expired => if (state.calls i).isNone then some (state.start max i request expired) else none
  | .connected i client late releaseError =>
    (state.calls i).bind fun call =>
      match call.phase with
      | .connecting => if state.available client then some (state.onConnected i call client late releaseError) else none
      | _ => none
  | .connectFailed i error =>
    (state.calls i).bind fun call =>
      match call.phase with
      | .connecting => some ((state.giveBack i).put i (call.endWith (.error (call.request.acquireError error))))
      | _ => none
  | .tried i locked late releaseError expired =>
    (state.calls i).bind fun call =>
      match call.phase with
      | .querying client =>
        if locked then
          if state.free client (call.lock hashtextextended) then
            some ((state.grant client (call.lock hashtextextended)).onTried i call client locked late releaseError expired)
          else none
        else some (state.onTried i call client locked late releaseError expired)
      | _ => none
  | .tryFailed i error granted releaseError =>
    (state.calls i).bind fun call =>
      match call.phase with
      | .querying client =>
        if granted then
          if state.free client (call.lock hashtextextended) then
            some ((state.grant client (call.lock hashtextextended)).abandon i call client true (some error) releaseError false)
          else none
        else some (state.abandon i call client true (some error) releaseError false)
      | _ => none
  | .contended i error releaseError =>
    (state.calls i).bind fun call =>
      match call.phase with
      | .contending client => some (state.abandon i call client false error releaseError false)
      | _ => none
  | .woken i late expired =>
    (state.calls i).bind fun call =>
      match call.phase with
      | .sleeping => some (if late then state.put i (call.goOn true) else state.attempt max i call expired)
      | _ => none
  | .applied i result =>
    (state.calls i).bind fun call =>
      match call.phase with
      | .applying client => some (state.put i (call.onApplied client result))
      | _ => none
  -- The server says whether the session held the lock.
  | .unlocked i releaseError =>
    (state.calls i).bind fun call =>
      match call.phase with
      | .unlocking client result =>
        some ((state.drop client (call.lock hashtextextended)).finish i call client result
          (!decide ((client, call.lock hashtextextended) ∈ state.held)) none releaseError)
      | _ => none
  | .unlockFailed i error done releaseError =>
    (state.calls i).bind fun call =>
      match call.phase with
      | .unlocking client result =>
        some ((if done then state.drop client (call.lock hashtextextended) else state).finish i call client result true (some error) releaseError)
      | _ => none
  -- The query of a discarded connection may still run, once.
  | .discardedTakes client lock =>
    if client ∈ state.discarded ∧ ∀ entry ∈ state.held, entry.2 ≠ lock then some (state.grant client lock) else none
  | .discardedDrops client lock => if client ∈ state.discarded then some (state.drop client lock) else none

end Steps
end PrAgent
