import PrAgent.WorkItem
import Mathlib.Algebra.Order.Field.Rat
import Mathlib.Data.Nat.Log
set_option autoImplicit false

namespace PrAgent

-- `Number(value)` of a bigint: the nearest double, ties to even.
def numberValue (value : Nat) : Nat :=
  if value < 2 ^ 53 then value
  else
    let unit := 2 ^ (value.log2 - 52)
    let low := value % unit
    if 2 * low < unit ∨ (2 * low = unit ∧ value / unit % 2 = 0) then value - low else value - low + unit

theorem numberValue_of_lt {value : Nat} (small : value < 2 ^ 53) : numberValue value = value := by
  rw [numberValue, if_pos small]

theorem le_numberValue {value : Nat} (large : 2 ^ 53 ≤ value) : 2 ^ 53 ≤ numberValue value := by
  have positive : value ≠ 0 := by omega
  have exponent : 53 ≤ value.log2 := (Nat.le_log2 positive).mpr large
  have power : 2 ^ value.log2 ≤ value := Nat.log2_self_le positive
  have unit : 2 ^ 52 * 2 ^ (value.log2 - 52) = 2 ^ value.log2 := by
    rw [← Nat.pow_add]
    congr 1
    omega
  have quotient : 2 ^ 52 ≤ value / 2 ^ (value.log2 - 52) := by
    rw [Nat.le_div_iff_mul_le (Nat.two_pow_pos _), unit]
    exact power
  have two : 2 ≤ 2 ^ (value.log2 - 52) := by
    have exponentLeft : 1 ≤ value.log2 - 52 := by omega
    calc 2 = 2 ^ 1 := rfl
      _ ≤ 2 ^ (value.log2 - 52) := Nat.pow_le_pow_right (by omega) exponentLeft
  have down : 2 ^ 53 ≤ value - value % 2 ^ (value.log2 - 52) := by
    have split := Nat.div_add_mod value (2 ^ (value.log2 - 52))
    have product := Nat.mul_le_mul two quotient
    generalize 2 ^ (value.log2 - 52) * (value / 2 ^ (value.log2 - 52)) = multiple at split product
    omega
  have notSmall : ¬value < 2 ^ 53 := by omega
  simp only [numberValue, notSmall, if_false]
  split
  · exact down
  · omega

-- A value whose double is a safe integer is that integer or smaller.
theorem le_of_numberValue_le {value bound : Nat} (safe : bound < 2 ^ 53) (le : numberValue value ≤ bound) :
    value ≤ bound := by
  by_cases small : value < 2 ^ 53
  · rwa [numberValue_of_lt small] at le
  · have large := le_numberValue (Nat.le_of_not_lt small)
    omega

inductive AskQuotaScope
  | actor | repository | installation
  deriving DecidableEq, Repr

-- What `readAskSlice` accepts of the numbers the quota depends on.
structure AskQuotaConfig where
  maxOutstanding : AskQuotaScope → Nat
  burst : AskQuotaScope → Nat
  refillSeconds : AskQuotaScope → ℚ
  providerBudgetTokens : Nat
  providerBudgetWindowSeconds : ℚ
  providerReservationTokens : Nat
  budget_safe : providerBudgetTokens < 2 ^ 53
  reservation_safe : providerReservationTokens < 2 ^ 53
  window_positive : 1 ≤ providerBudgetWindowSeconds

-- Times are in milliseconds, as `Date` reads them.
structure AskQuotaBucket where
  tokenBalance : ℚ
  lastRefillAt : Nat
  outstandingCount : Nat := 0
  providerTokensUsed : Nat := 0
  providerTokensReserved : Nat := 0
  providerWindowStartedAt : Nat
  deriving DecidableEq, Repr

structure AskQuotaBucketKey where
  scope : AskQuotaScope
  scopeKey : String
  deriving DecidableEq, Repr

abbrev AskQuotaBuckets := Table AskQuotaBucketKey AskQuotaBucket

structure AskQuotaReservation where
  actorScopeKey : String
  repositoryScopeKey : String
  installationScopeKey : String
  reservedProviderTokens : Nat
  providerUsageKnown : Bool := false
  providerTokensUsed : Nat := 0
  releasedAt : Option Nat := none
  unknownUsageCharged : Nat := 0
  unknownUsageWindowStartedAt : Option Nat := none
  deriving DecidableEq, Repr

abbrev ExecutionId := Nat

-- `releasing` are the transactions of terminal transitions that run: the trigger holds the reservation's row lock and
-- has read the start of the provider window, without a lock on the bucket.
structure AskQuotaDb where
  buckets : AskQuotaBuckets
  reservations : Table WorkItemId AskQuotaReservation
  receipts : Table (WorkItemId × ExecutionId) Nat
  releasing : Table WorkItemId (Option Nat)

def AskQuotaReservation.scopeKey (reservation : AskQuotaReservation) : AskQuotaScope → String
  | .actor => reservation.actorScopeKey
  | .repository => reservation.repositoryScopeKey
  | .installation => reservation.installationScopeKey

def AskQuotaReservation.bucketKey (reservation : AskQuotaReservation) (scope : AskQuotaScope) : AskQuotaBucketKey :=
  ⟨scope, reservation.scopeKey scope⟩

-- `UPDATE ask_quota_buckets SET … WHERE scope = … AND scope_key = …`.
def updateBucket (buckets : AskQuotaBuckets) (key : AskQuotaBucketKey) (assign : AskQuotaBucket → AskQuotaBucket) :
    AskQuotaBuckets :=
  match buckets.get? key with
  | none => buckets
  | some bucket => buckets.set key (assign bucket)

theorem get?_updateBucket (buckets : AskQuotaBuckets) (key : AskQuotaBucketKey)
    (assign : AskQuotaBucket → AskQuotaBucket) (k : AskQuotaBucketKey) :
    (updateBucket buckets key assign).get? k = if k = key then (buckets.get? k).map assign else buckets.get? k := by
  unfold updateBucket
  cases stored : buckets.get? key with
  | none =>
      by_cases same : k = key
      · rw [if_pos same, same, stored]
        rfl
      · rw [if_neg same]
  | some bucket =>
      dsimp only
      rw [Table.get?_set]
      by_cases same : k = key
      · rw [if_pos same, if_pos same, same, stored]
        rfl
      · rw [if_neg same, if_neg same]

structure AskAdmissionInput where
  workItemId : WorkItemId
  installationId : Nat
  owner : String
  repo : String
  commenterId : Nat

def installationScopeKey (installationId : Nat) : String := s!"installation:{installationId}"

-- `name.trim().toLowerCase()`; the names of owners and repositories are ASCII.
def normalizedName (name : String) : String :=
  (String.ofList ((name.toList.dropWhile Char.isWhitespace).reverse.dropWhile Char.isWhitespace).reverse).toLower

def repositoryScopeKey (installationId : Nat) (owner repo : String) : String :=
  s!"repository:{installationId}:" ++ normalizedName owner ++ "/" ++ normalizedName repo

def actorScopeKey (installationId commenterId : Nat) : String := s!"actor:{installationId}:{commenterId}"

-- The reservation that an admission inserts.
def AskAdmissionInput.reservation (input : AskAdmissionInput) (reservedProviderTokens : Nat) : AskQuotaReservation where
  actorScopeKey := actorScopeKey input.installationId input.commenterId
  repositoryScopeKey := repositoryScopeKey input.installationId input.owner input.repo
  installationScopeKey := installationScopeKey input.installationId
  reservedProviderTokens

def AskAdmissionInput.bucketKey (input : AskAdmissionInput) (scope : AskQuotaScope) : AskQuotaBucketKey :=
  (input.reservation 0).bucketKey scope

section Admission

-- `double` rounds an exact result to a double. `now` is `Date.now()` and `dbNow` the clock of the database.
variable (double : ℚ → ℚ) (config : AskQuotaConfig) (now dbNow : Nat)

def rollsWindow (scope : AskQuotaScope) (bucket : AskQuotaBucket) : Bool :=
  scope = .installation && 0 < config.providerBudgetTokens &&
    config.providerBudgetWindowSeconds * 1000 ≤ ((now - bucket.providerWindowStartedAt : Nat) : ℚ)

def refilledBalance (scope : AskQuotaScope) (bucket : AskQuotaBucket) : ℚ :=
  min (config.burst scope : ℚ)
    (double (max 0 bucket.tokenBalance +
      double (double (((now - bucket.lastRefillAt : Nat) : ℚ) / 1000) / config.refillSeconds scope)))

def refillBucket (scope : AskQuotaScope) (bucket : AskQuotaBucket) : AskQuotaBucket :=
  let rolls := rollsWindow config now scope bucket
  { bucket with
    tokenBalance := refilledBalance double config now scope bucket
    lastRefillAt := dbNow
    providerTokensUsed := if rolls then 0 else numberValue bucket.providerTokensUsed
    providerWindowStartedAt := if rolls then now else bucket.providerWindowStartedAt }

-- The row inserted where there is none.
def freshBucket (scope : AskQuotaScope) : AskQuotaBucket where
  tokenBalance := config.burst scope
  lastRefillAt := dbNow
  providerWindowStartedAt := dbNow

def lockAndRefillBucket (buckets : AskQuotaBuckets) (key : AskQuotaBucketKey) : AskQuotaBuckets :=
  buckets.set key (refillBucket double config now dbNow key.scope ((buckets.get? key).getD (freshBucket config dbNow key.scope)))

def bucketLockOrder : List AskQuotaScope := [.installation, .repository, .actor]

def admissionCheckOrder : List AskQuotaScope := [.actor, .repository, .installation]

inductive AskQuotaRejectionReason
  | outstanding (scope : AskQuotaScope)
  | rate (scope : AskQuotaScope)
  | providerBudget
  deriving DecidableEq, Repr

variable (input : AskAdmissionInput)

def lockAndRefillBuckets (buckets : AskQuotaBuckets) : AskQuotaBuckets :=
  bucketLockOrder.foldl (fun buckets scope => lockAndRefillBucket double config now dbNow buckets (input.bucketKey scope))
    buckets

def scopeRejection (buckets : AskQuotaBuckets) (scope : AskQuotaScope) : Option AskQuotaRejectionReason :=
  (buckets.get? (input.bucketKey scope)).bind fun bucket =>
    if config.maxOutstanding scope ≤ bucket.outstandingCount then some (.outstanding scope)
    else if bucket.tokenBalance < 1 then some (.rate scope)
    else none

def providerReservation : Nat := if 0 < config.providerBudgetTokens then config.providerReservationTokens else 0

-- The sum of three numbers as doubles add it.
def providerTotal (bucket : AskQuotaBucket) : Nat :=
  numberValue (numberValue (bucket.providerTokensUsed + numberValue bucket.providerTokensReserved) +
    providerReservation config)

def providerRejection (buckets : AskQuotaBuckets) : Option AskQuotaRejectionReason :=
  (buckets.get? (input.bucketKey .installation)).bind fun bucket =>
    if 0 < providerReservation config ∧ config.providerBudgetTokens < providerTotal config bucket then some .providerBudget
    else none

def admissionRejection (buckets : AskQuotaBuckets) : Option AskQuotaRejectionReason :=
  (admissionCheckOrder.findSome? (scopeRejection config input buckets)).or (providerRejection config input buckets)

def takeAdmission (buckets : AskQuotaBuckets) (scope : AskQuotaScope) : AskQuotaBuckets :=
  updateBucket buckets (input.bucketKey scope) fun bucket =>
    { bucket with tokenBalance := bucket.tokenBalance - 1, outstandingCount := bucket.outstandingCount + 1 }

def reserveProviderTokens (buckets : AskQuotaBuckets) : AskQuotaBuckets :=
  if 0 < providerReservation config then
    updateBucket buckets (input.bucketKey .installation) fun bucket =>
      { bucket with providerTokensReserved := bucket.providerTokensReserved + providerReservation config }
  else buckets

inductive AskQuotaAdmission
  | admitted (providerReservationTokens : Nat)
  | throttled (reason : AskQuotaRejectionReason)
  deriving DecidableEq, Repr

-- No result when the reservation's primary key is taken: the transaction fails.
def reserveAskQuota (db : AskQuotaDb) : Option (AskQuotaAdmission × AskQuotaDb) :=
  let locked := lockAndRefillBuckets double config now dbNow input db.buckets
  match admissionRejection config input locked with
  | some reason => some (.throttled reason, { db with buckets := locked })
  | none =>
    if (db.reservations.get? input.workItemId).isSome then none
    else
      let taken := bucketLockOrder.foldl (takeAdmission input) locked
      some (.admitted (providerReservation config),
        { db with
          buckets := reserveProviderTokens config input taken
          reservations := db.reservations.set input.workItemId (input.reservation (providerReservation config)) })

end Admission

def decrementOutstanding (buckets : AskQuotaBuckets) (key : AskQuotaBucketKey) (providerTokensReserved : Nat) :
    AskQuotaBuckets :=
  updateBucket buckets key fun bucket =>
    { bucket with
      outstandingCount := bucket.outstandingCount - 1
      providerTokensReserved := bucket.providerTokensReserved - providerTokensReserved }

-- `releaseAskQuotaReservation` of an admission whose work item existed: the reservation it has just inserted goes again.
def releaseAskQuotaReservation (db : AskQuotaDb) (workItemId : WorkItemId) : AskQuotaDb :=
  match db.reservations.get? workItemId with
  | none => db
  | some reservation =>
    if reservation.releasedAt.isSome then db
    else
      let installation := decrementOutstanding db.buckets (reservation.bucketKey .installation)
        (numberValue reservation.reservedProviderTokens)
      let repository := decrementOutstanding installation (reservation.bucketKey .repository) 0
      { db with
        buckets := decrementOutstanding repository (reservation.bucketKey .actor) 0
        reservations := db.reservations.erase workItemId }

-- `created` is whether `createAskWorkItem` inserted a row. A mention with a retained work item asks for no quota.
def admitAsk (double : ℚ → ℚ) (config : AskQuotaConfig) (now dbNow : Nat) (input : AskAdmissionInput) (created : Bool)
    (db : AskQuotaDb) : Option (AskQuotaAdmission × AskQuotaDb) :=
  (reserveAskQuota double config now dbNow input db).map fun (admission, reserved) =>
    match admission with
    | .throttled reason => (.throttled reason, reserved)
    | .admitted tokens =>
      (.admitted tokens, if created then reserved else releaseAskQuotaReservation reserved input.workItemId)

section Trigger

-- `release_ask_quota_reservation` up to its first UPDATE. The row lock makes others wait.
def providerCharge (reservation : AskQuotaReservation) : Nat :=
  if reservation.providerUsageKnown then 0 else reservation.reservedProviderTokens

def firesRelease (old new : WorkStatus) : Bool := !isTerminalWorkStatus old && isTerminalWorkStatus new

def beginRelease (workItemId : WorkItemId) (old new : WorkStatus) (db : AskQuotaDb) : Option AskQuotaDb :=
  match db.reservations.get? workItemId, db.releasing.get? workItemId with
  | some reservation, none =>
    if firesRelease old new && reservation.releasedAt.isNone then
      let chargedWindow :=
        if 0 < providerCharge reservation then
          (db.buckets.get? (reservation.bucketKey .installation)).map AskQuotaBucket.providerWindowStartedAt
        else none
      some { db with releasing := db.releasing.set workItemId chargedWindow }
    else none
  | _, _ => none

def AskQuotaReservation.release (reservation : AskQuotaReservation) (dbNow : Nat) (chargedWindow : Option Nat) :
    AskQuotaReservation :=
  { reservation with
    releasedAt := some dbNow
    reservedProviderTokens := 0
    unknownUsageCharged := providerCharge reservation
    unknownUsageWindowStartedAt := chargedWindow }

-- The four UPDATEs, which become visible together.
def finishRelease (workItemId : WorkItemId) (dbNow : Nat) (db : AskQuotaDb) : Option AskQuotaDb :=
  match db.reservations.get? workItemId, db.releasing.get? workItemId with
  | some reservation, some chargedWindow =>
    let charge := providerCharge reservation
    let installation := updateBucket db.buckets (reservation.bucketKey .installation) fun bucket =>
      { bucket with
        outstandingCount := bucket.outstandingCount - 1
        providerTokensReserved := bucket.providerTokensReserved - reservation.reservedProviderTokens
        providerTokensUsed := bucket.providerTokensUsed + charge }
    let repository := decrementOutstanding installation (reservation.bucketKey .repository) 0
    some
      { db with
        buckets := decrementOutstanding repository (reservation.bucketKey .actor) 0
        reservations := db.reservations.set workItemId (reservation.release dbNow chargedWindow)
        releasing := db.releasing.erase workItemId }
  | _, _ => none

def abortRelease (workItemId : WorkItemId) (db : AskQuotaDb) : AskQuotaDb :=
  { db with releasing := db.releasing.erase workItemId }

end Trigger

section Receipts

def sameProviderWindow : Option Nat → Nat → Bool
  | none, _ => true
  | some left, right => left = right

inductive AskQuotaBucketApplication
  | adjust (reservedRelease : Nat) (usedDelta : Int)
  | receiptOnly
  deriving DecidableEq, Repr

-- A difference of doubles is rounded on the side that is left.
def bucketApplicationForReceipt (reserved unknownCharged : Nat) (alreadyKnown released sameUnknownWindow : Bool)
    (actualTokens : Nat) : AskQuotaBucketApplication :=
  if released && 0 < unknownCharged && !sameUnknownWindow then .receiptOnly
  else if alreadyKnown then .adjust 0 actualTokens
  else if !released then .adjust reserved actualTokens
  else .adjust 0 ((numberValue (actualTokens - unknownCharged) : Int) - numberValue (unknownCharged - actualTokens))

def receiptApplication (reservation : AskQuotaReservation) (bucket : AskQuotaBucket) (actualTokens : Nat) :
    AskQuotaBucketApplication :=
  bucketApplicationForReceipt (numberValue reservation.reservedProviderTokens)
    (numberValue reservation.unknownUsageCharged) reservation.providerUsageKnown reservation.releasedAt.isSome
    (sameProviderWindow reservation.unknownUsageWindowStartedAt bucket.providerWindowStartedAt) actualTokens

-- The reservation after a receipt, and the bucket after an adjustment.
def AskQuotaReservation.withUsage (reservation : AskQuotaReservation) (actualTokens : Nat) : AskQuotaReservation :=
  { reservation with
    providerUsageKnown := true
    providerTokensUsed := reservation.providerTokensUsed + actualTokens }

def AskQuotaBucket.adjust (reservedRelease : Nat) (usedDelta : Int) (bucket : AskQuotaBucket) : AskQuotaBucket :=
  { bucket with
    providerTokensReserved := bucket.providerTokensReserved - reservedRelease
    providerTokensUsed := ((bucket.providerTokensUsed : Int) + usedDelta).toNat }

def applyReceipt (db : AskQuotaDb) (workItemId : WorkItemId) (executionId : ExecutionId) (actualTokens : Nat)
    (reservation : AskQuotaReservation) : AskQuotaBucketApplication → AskQuotaDb
  | .receiptOnly =>
    { db with
      receipts := db.receipts.set (workItemId, executionId) actualTokens
      reservations := db.reservations.set workItemId (reservation.withUsage actualTokens) }
  | .adjust reservedRelease usedDelta =>
    { db with
      receipts := db.receipts.set (workItemId, executionId) actualTokens
      reservations := db.reservations.set workItemId
        { reservation.withUsage actualTokens with reservedProviderTokens := 0, unknownUsageCharged := 0 }
      buckets := updateBucket db.buckets (reservation.bucketKey .installation) (.adjust reservedRelease usedDelta) }

-- No result where the transaction fails or waits: a conflicting report, a missing bucket, a reservation whose row is
-- locked.
def recordAskProviderUsage (workItemId : WorkItemId) (executionId : ExecutionId) (actualTokens : Nat)
    (db : AskQuotaDb) : Option AskQuotaDb :=
  match db.reservations.get? workItemId with
  | none => some db
  | some reservation =>
    if (db.releasing.get? workItemId).isSome then none
    else
      match db.receipts.get? (workItemId, executionId) with
      | some prior => if numberValue prior = actualTokens then some db else none
      | none =>
        (db.buckets.get? (reservation.bucketKey .installation)).map fun bucket =>
          applyReceipt db workItemId executionId actualTokens reservation
            (receiptApplication reservation bucket actualTokens)

end Receipts

-- One transaction, or one of the two halves of a terminal transition's.
inductive AskQuotaEvent
  | admission (config : AskQuotaConfig) (now dbNow : Nat) (input : AskAdmissionInput) (created : Bool)
  | beginRelease (workItemId : WorkItemId) (old new : WorkStatus)
  | finishRelease (workItemId : WorkItemId) (dbNow : Nat)
  | abortRelease (workItemId : WorkItemId)
  | receipt (workItemId : WorkItemId) (executionId : ExecutionId) (actualTokens : Nat)

def askQuotaStep (double : ℚ → ℚ) (db : AskQuotaDb) : AskQuotaEvent → Option AskQuotaDb
  | .admission config now dbNow input created => (admitAsk double config now dbNow input created db).map Prod.snd
  | .beginRelease workItemId old new => beginRelease workItemId old new db
  | .finishRelease workItemId dbNow => finishRelease workItemId dbNow db
  | .abortRelease workItemId => some (abortRelease workItemId db)
  | .receipt workItemId executionId actualTokens => recordAskProviderUsage workItemId executionId actualTokens db

end PrAgent
