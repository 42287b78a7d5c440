import PrAgent.AskQuota
set_option autoImplicit false

namespace PrAgent

section Buckets

-- One UPDATE for each scope of a reservation or an admission.
theorem get?_updateBuckets (buckets : AskQuotaBuckets) (keyOf : AskQuotaScope → AskQuotaBucketKey)
    (inScope : ∀ scope, (keyOf scope).scope = scope) (assign : AskQuotaScope → AskQuotaBucket → AskQuotaBucket)
    (key : AskQuotaBucketKey) :
    (updateBucket (updateBucket (updateBucket buckets (keyOf .installation) (assign .installation))
        (keyOf .repository) (assign .repository)) (keyOf .actor) (assign .actor)).get? key =
      if key = keyOf key.scope then (buckets.get? key).map (assign key.scope) else buckets.get? key := by
  have other : ∀ scope, scope ≠ key.scope → key ≠ keyOf scope := by
    intro scope different same
    rw [same, inScope] at different
    exact different rfl
  simp only [get?_updateBucket]
  cases scope : key.scope with
  | actor =>
      rw [scope] at other
      rw [if_neg (other .repository (by decide)), if_neg (other .installation (by decide))]
  | repository =>
      rw [scope] at other
      rw [if_neg (other .actor (by decide)), if_neg (other .installation (by decide))]
  | installation =>
      rw [scope] at other
      rw [if_neg (other .actor (by decide)), if_neg (other .repository (by decide))]

theorem get?_lockAndRefillBuckets (double : ℚ → ℚ) (config : AskQuotaConfig) (now dbNow : Nat)
    (input : AskAdmissionInput) (buckets : AskQuotaBuckets) (key : AskQuotaBucketKey) :
    (lockAndRefillBuckets double config now dbNow input buckets).get? key =
      if key = input.bucketKey key.scope then
        some (refillBucket double config now dbNow key.scope ((buckets.get? key).getD (freshBucket config dbNow key.scope)))
      else buckets.get? key := by
  have other : ∀ scope, scope ≠ key.scope → key ≠ input.bucketKey scope := by
    intro scope different same
    rw [same] at different
    exact different rfl
  have scopes : ∀ scope, (input.bucketKey scope).scope = scope := fun _ => rfl
  simp only [lockAndRefillBuckets, bucketLockOrder, List.foldl_cons, List.foldl_nil, lockAndRefillBucket, Table.get?_set]
  cases scope : key.scope with
  | actor =>
      rw [scope] at other
      rw [if_neg (other .repository (by decide)), if_neg (other .installation (by decide))]
      by_cases same : key = input.bucketKey .actor
      · subst same
        rw [if_pos rfl, if_pos rfl, if_neg (other .repository (by decide)), if_neg (other .installation (by decide))]
        rfl
      · rw [if_neg same, if_neg same]
  | repository =>
      rw [scope] at other
      rw [if_neg (other .actor (by decide)), if_neg (other .installation (by decide))]
      by_cases same : key = input.bucketKey .repository
      · subst same
        rw [if_pos rfl, if_pos rfl, if_neg (other .installation (by decide))]
        rfl
      · rw [if_neg same, if_neg same]
  | installation =>
      rw [scope] at other
      rw [if_neg (other .actor (by decide)), if_neg (other .repository (by decide))]
      by_cases same : key = input.bucketKey .installation
      · subst same
        rw [if_pos rfl, if_pos rfl]
        rfl
      · rw [if_neg same, if_neg same]

end Buckets

section Admissions

variable (double : ℚ → ℚ) (config : AskQuotaConfig) (now dbNow : Nat) (input : AskAdmissionInput)

theorem reservation_bucketKey (tokens : Nat) (scope : AskQuotaScope) :
    (input.reservation tokens).bucketKey scope = input.bucketKey scope := by
  cases scope with
  | actor => rfl
  | repository => rfl
  | installation => rfl

def lockedDb (db : AskQuotaDb) : AskQuotaDb :=
  { db with buckets := lockAndRefillBuckets double config now dbNow input db.buckets }

theorem locked_stored (db : AskQuotaDb) (scope : AskQuotaScope) :
    ∃ bucket, (lockedDb double config now dbNow input db).buckets.get? (input.bucketKey scope) = some bucket := by
  have row := get?_lockAndRefillBuckets double config now dbNow input db.buckets (input.bucketKey scope)
  rw [if_pos (show input.bucketKey scope = input.bucketKey (input.bucketKey scope).scope from rfl)] at row
  exact ⟨_, row⟩

theorem locked_keeps_stored (db : AskQuotaDb) {key : AskQuotaBucketKey} (stored : (db.buckets.get? key).isSome = true) :
    ((lockedDb double config now dbNow input db).buckets.get? key).isSome = true := by
  have row := get?_lockAndRefillBuckets double config now dbNow input db.buckets key
  unfold lockedDb
  rw [row]
  by_cases named : key = input.bucketKey key.scope
  · rw [if_pos named]
    rfl
  · rwa [if_neg named]

-- What the statements after the checks make of the locked rows.
def takenBucket (scope : AskQuotaScope) (bucket : AskQuotaBucket) : AskQuotaBucket :=
  { bucket with
    tokenBalance := bucket.tokenBalance - 1
    outstandingCount := bucket.outstandingCount + 1
    providerTokensReserved :=
      bucket.providerTokensReserved + if scope = .installation then providerReservation config else 0 }

theorem get?_taken (buckets : AskQuotaBuckets) (key : AskQuotaBucketKey) :
    (reserveProviderTokens config input (bucketLockOrder.foldl (takeAdmission input) buckets)).get? key =
      if key = input.bucketKey key.scope then (buckets.get? key).map (takenBucket config key.scope)
      else buckets.get? key := by
  have taken := get?_updateBuckets buckets input.bucketKey (fun _ => rfl) (fun _ bucket =>
    { bucket with tokenBalance := bucket.tokenBalance - 1, outstandingCount := bucket.outstandingCount + 1 }) key
  have fold : (bucketLockOrder.foldl (takeAdmission input) buckets).get? key = _ := taken
  unfold reserveProviderTokens
  by_cases reserves : 0 < providerReservation config
  · rw [if_pos reserves, get?_updateBucket, fold]
    by_cases installation : key = input.bucketKey .installation
    · have named : key = input.bucketKey key.scope := by rw [installation]; rfl
      rw [if_pos installation, if_pos named, if_pos named, Option.map_map, installation]
      rfl
    · rw [if_neg installation]
      by_cases named : key = input.bucketKey key.scope
      · have scope : key.scope ≠ .installation := fun same => by rw [same] at named; exact installation named
        rw [if_pos named, if_pos named]
        refine congrArg (Option.map · _) (funext fun bucket => ?_)
        simp only [takenBucket, scope, if_false, Nat.add_zero]
      · rw [if_neg named, if_neg named]
  · have none_ : providerReservation config = 0 := by omega
    have same : takenBucket config key.scope = fun bucket => { bucket with
        tokenBalance := bucket.tokenBalance - 1, outstandingCount := bucket.outstandingCount + 1 } := by
      funext bucket
      simp only [takenBucket, none_, ite_self, Nat.add_zero]
    rw [if_neg reserves, fold, same]

def admittedDb (db : AskQuotaDb) : AskQuotaDb :=
  { lockedDb double config now dbNow input db with
    buckets := reserveProviderTokens config input
      (bucketLockOrder.foldl (takeAdmission input) (lockedDb double config now dbNow input db).buckets)
    reservations := db.reservations.set input.workItemId (input.reservation (providerReservation config)) }

end Admissions

section Releases

variable (reservation : AskQuotaReservation) (charge : Nat)

-- What a release makes of a bucket of the reservation.
def releasedBucket (tokens : Nat) (scope : AskQuotaScope) (bucket : AskQuotaBucket) : AskQuotaBucket :=
  { bucket with
    outstandingCount := bucket.outstandingCount - 1
    providerTokensReserved := bucket.providerTokensReserved - if scope = .installation then tokens else 0
    providerTokensUsed := bucket.providerTokensUsed + if scope = .installation then charge else 0 }

def releasedBuckets (tokens : Nat) (buckets : AskQuotaBuckets) : AskQuotaBuckets :=
  [AskQuotaScope.installation, .repository, .actor].foldl (fun buckets scope =>
    updateBucket buckets (reservation.bucketKey scope) (releasedBucket charge tokens scope)) buckets

theorem get?_releasedBuckets (tokens : Nat) (buckets : AskQuotaBuckets) (key : AskQuotaBucketKey) :
    (releasedBuckets reservation charge tokens buckets).get? key =
      if key = reservation.bucketKey key.scope then (buckets.get? key).map (releasedBucket charge tokens key.scope)
      else buckets.get? key :=
  get?_updateBuckets buckets reservation.bucketKey (fun _ => rfl) (releasedBucket charge tokens) key

theorem releasedBuckets_stored (tokens : Nat) (buckets : AskQuotaBuckets) (key : AskQuotaBucketKey) :
    ((releasedBuckets reservation charge tokens buckets).get? key).isSome = (buckets.get? key).isSome := by
  rw [get?_releasedBuckets]
  by_cases named : key = reservation.bucketKey key.scope
  · rw [if_pos named, Option.isSome_map]
  · rw [if_neg named]

end Releases

-- An admission whose work item existed releases the reservation that it has just made.
theorem releaseAskQuotaReservation_admitted (double : ℚ → ℚ) (config : AskQuotaConfig) (now dbNow : Nat)
    (input : AskAdmissionInput) (db : AskQuotaDb) :
    releaseAskQuotaReservation (admittedDb double config now dbNow input db) input.workItemId =
      { admittedDb double config now dbNow input db with
        buckets := releasedBuckets (input.reservation (providerReservation config)) 0 (providerReservation config)
          (admittedDb double config now dbNow input db).buckets
        reservations := (admittedDb double config now dbNow input db).reservations.erase input.workItemId } := by
  have found : (admittedDb double config now dbNow input db).reservations.get? input.workItemId =
      some (input.reservation (providerReservation config)) := Table.get?_set_self ..
  have safe : providerReservation config < 2 ^ 53 := by
    have bound := config.reservation_safe
    unfold providerReservation
    split
    · exact bound
    · exact Nat.two_pow_pos 53
  have exact_ : numberValue (input.reservation (providerReservation config)).reservedProviderTokens =
      providerReservation config := numberValue_of_lt safe
  unfold releaseAskQuotaReservation
  rw [found]
  dsimp only
  rw [if_neg (by simp [AskAdmissionInput.reservation]), exact_]
  rfl

-- One lemma for each operation: what it does, and where it does nothing.
section Specs

variable {db after : AskQuotaDb}

theorem admitAsk_cases {double : ℚ → ℚ} {config : AskQuotaConfig} {now dbNow : Nat} {input : AskAdmissionInput}
    {created : Bool} {admission : AskQuotaAdmission}
    (admitted : admitAsk double config now dbNow input created db = some (admission, after)) :
    (∃ reason, admission = .throttled reason ∧ after = lockedDb double config now dbNow input db) ∨
    (admission = .admitted (providerReservation config) ∧ db.reservations.get? input.workItemId = none ∧
      admissionRejection config input (lockedDb double config now dbNow input db).buckets = none ∧
      after =
        if created then admittedDb double config now dbNow input db
        else releaseAskQuotaReservation (admittedDb double config now dbNow input db) input.workItemId) := by
  unfold admitAsk reserveAskQuota at admitted
  dsimp only at admitted
  cases rejection : admissionRejection config input (lockAndRefillBuckets double config now dbNow input db.buckets) with
  | some reason =>
      rw [rejection] at admitted
      injection admitted with same
      injection same with throttled same
      exact .inl ⟨reason, throttled.symm, same.symm⟩
  | none =>
      rw [rejection] at admitted
      dsimp only at admitted
      by_cases taken : (db.reservations.get? input.workItemId).isSome = true
      · rw [if_pos taken] at admitted
        cases admitted
      · rw [if_neg taken] at admitted
        injection admitted with same
        injection same with granted same
        exact .inr ⟨granted.symm, by simpa using taken, rejection, same.symm⟩

variable {workItemId : WorkItemId}

theorem beginRelease_cases {old new : WorkStatus} (began : beginRelease workItemId old new db = some after) :
    ∃ reservation, db.reservations.get? workItemId = some reservation ∧ reservation.releasedAt = none ∧
      db.releasing.get? workItemId = none ∧
      after = { db with
        releasing := db.releasing.set workItemId
          (if 0 < providerCharge reservation then
            (db.buckets.get? (reservation.bucketKey .installation)).map AskQuotaBucket.providerWindowStartedAt
          else none) } := by
  unfold beginRelease at began
  cases found : db.reservations.get? workItemId with
  | none =>
      rw [found] at began
      cases began
  | some reservation =>
      cases running : db.releasing.get? workItemId with
      | some chargedWindow =>
          rw [found, running] at began
          cases began
      | none =>
          rw [found, running] at began
          dsimp only at began
          obtain ⟨fires, began⟩ := Option.ite_none_right_eq_some.mp began
          rw [Bool.and_eq_true, Option.isNone_iff_eq_none] at fires
          exact ⟨reservation, rfl, fires.2, rfl, (Option.some.inj began).symm⟩

theorem finishRelease_cases {dbNow : Nat} (finished : finishRelease workItemId dbNow db = some after) :
    ∃ reservation chargedWindow, db.reservations.get? workItemId = some reservation ∧
      db.releasing.get? workItemId = some chargedWindow ∧
      after =
        ⟨releasedBuckets reservation (providerCharge reservation) reservation.reservedProviderTokens db.buckets,
          db.reservations.set workItemId (reservation.release dbNow chargedWindow), db.receipts,
          db.releasing.erase workItemId⟩ := by
  unfold finishRelease at finished
  cases found : db.reservations.get? workItemId with
  | none =>
      rw [found] at finished
      cases finished
  | some reservation =>
      cases running : db.releasing.get? workItemId with
      | none =>
          rw [found, running] at finished
          cases finished
      | some chargedWindow =>
          rw [found, running] at finished
          exact ⟨reservation, chargedWindow, rfl, rfl, (Option.some.inj finished).symm⟩

theorem recordAskProviderUsage_cases {executionId : ExecutionId} {actualTokens : Nat}
    (recorded : recordAskProviderUsage workItemId executionId actualTokens db = some after) :
    (after = db ∧ (db.reservations.get? workItemId = none ∨ (db.receipts.get? (workItemId, executionId)).isSome = true)) ∨
    ∃ reservation bucket, db.reservations.get? workItemId = some reservation ∧ db.releasing.get? workItemId = none ∧
      db.receipts.get? (workItemId, executionId) = none ∧
      db.buckets.get? (reservation.bucketKey .installation) = some bucket ∧
      after = applyReceipt db workItemId executionId actualTokens reservation
        (receiptApplication reservation bucket actualTokens) := by
  unfold recordAskProviderUsage at recorded
  cases found : db.reservations.get? workItemId with
  | none =>
      rw [found] at recorded
      exact .inl ⟨(Option.some.inj recorded).symm, .inl rfl⟩
  | some reservation =>
      rw [found] at recorded
      dsimp only at recorded
      obtain ⟨locked, recorded⟩ := Option.ite_none_left_eq_some.mp recorded
      cases known : db.receipts.get? (workItemId, executionId) with
      | some prior =>
          rw [known] at recorded
          dsimp only at recorded
          obtain ⟨_, recorded⟩ := Option.ite_none_right_eq_some.mp recorded
          exact .inl ⟨(Option.some.inj recorded).symm, .inr rfl⟩
      | none =>
          rw [known] at recorded
          dsimp only at recorded
          cases stored : db.buckets.get? (reservation.bucketKey .installation) with
          | none =>
              rw [stored] at recorded
              cases recorded
          | some bucket =>
              rw [stored] at recorded
              exact .inr ⟨reservation, bucket, rfl, by simpa using locked, rfl, stored, (Option.some.inj recorded).symm⟩

-- Late: the charge was made in a window that is not the bucket's any more.
def AskQuotaReservation.late (reservation : AskQuotaReservation) (bucket : AskQuotaBucket) : Bool :=
  reservation.releasedAt.isSome && 0 < numberValue reservation.unknownUsageCharged &&
    !sameProviderWindow reservation.unknownUsageWindowStartedAt bucket.providerWindowStartedAt

theorem receiptApplication_cases (reservation : AskQuotaReservation) (bucket : AskQuotaBucket) (actualTokens : Nat) :
    (reservation.late bucket = true ∧ receiptApplication reservation bucket actualTokens = .receiptOnly) ∨
    (reservation.late bucket = false ∧
      ((reservation.providerUsageKnown = true ∧
          receiptApplication reservation bucket actualTokens = .adjust 0 actualTokens) ∨
        (reservation.providerUsageKnown = false ∧ reservation.releasedAt = none ∧
          receiptApplication reservation bucket actualTokens =
            .adjust (numberValue reservation.reservedProviderTokens) actualTokens) ∨
        (reservation.providerUsageKnown = false ∧ reservation.releasedAt.isSome = true ∧
          receiptApplication reservation bucket actualTokens =
            .adjust 0 ((numberValue (actualTokens - numberValue reservation.unknownUsageCharged) : Int) -
              numberValue (numberValue reservation.unknownUsageCharged - actualTokens))))) := by
  have unfolded : receiptApplication reservation bucket actualTokens =
      if reservation.late bucket then .receiptOnly
      else if reservation.providerUsageKnown then .adjust 0 actualTokens
      else if !reservation.releasedAt.isSome then .adjust (numberValue reservation.reservedProviderTokens) actualTokens
      else .adjust 0 ((numberValue (actualTokens - numberValue reservation.unknownUsageCharged) : Int) -
        numberValue (numberValue reservation.unknownUsageCharged - actualTokens)) := rfl
  rw [unfolded]
  cases reservation.late bucket with
  | true => exact .inl ⟨rfl, rfl⟩
  | false =>
      cases reservation.providerUsageKnown with
      | true => exact .inr ⟨rfl, .inl ⟨rfl, rfl⟩⟩
      | false =>
          cases reservation.releasedAt with
          | none => exact .inr ⟨rfl, .inr (.inl ⟨rfl, rfl, rfl⟩)⟩
          | some releasedAt => exact .inr ⟨rfl, .inr (.inr ⟨rfl, rfl, rfl⟩)⟩

end Specs
end PrAgent
