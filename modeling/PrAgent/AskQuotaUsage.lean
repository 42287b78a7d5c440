import PrAgent.AskQuotaConservation
set_option autoImplicit false

namespace PrAgent

-- Tokens added to a bucket, with the window that was the bucket's when they were added.
structure UsageEntry where
  installation : AskQuotaBucketKey
  window : Nat
  tokens : Nat
  deriving DecidableEq, Repr

-- The database with what history remembers of it: the receipts applied to a bucket, and the unknown charges made and
-- not yet replaced.
structure AskUsageState extends AskQuotaDb where
  applied : Table (WorkItemId × ExecutionId) UsageEntry
  charges : Table WorkItemId UsageEntry

def UsageEntry.counted (entry : UsageEntry) (key : AskQuotaBucketKey) (window : Nat) : Nat :=
  if entry.installation = key ∧ entry.window = window then entry.tokens else 0

def AskUsageState.accounted (s : AskUsageState) (key : AskQuotaBucketKey) (window : Nat) : Nat :=
  s.applied.sum (fun _ entry => entry.counted key window) + s.charges.sum (fun _ entry => entry.counted key window)

-- What a bucket adds when a charge is made or a receipt arrives, filed under the window it has then.
def AskUsageState.remember (s : AskUsageState) : AskQuotaEvent →
    Table (WorkItemId × ExecutionId) UsageEntry × Table WorkItemId UsageEntry
  | .finishRelease workItemId _ =>
    match s.reservations.get? workItemId with
    | none => (s.applied, s.charges)
    | some reservation =>
      match s.buckets.get? (reservation.bucketKey .installation) with
      | none => (s.applied, s.charges)
      | some bucket =>
        if 0 < providerCharge reservation then
          (s.applied, s.charges.set workItemId
            ⟨reservation.bucketKey .installation, bucket.providerWindowStartedAt, providerCharge reservation⟩)
        else (s.applied, s.charges)
  | .receipt workItemId executionId actualTokens =>
    match s.reservations.get? workItemId, s.receipts.get? (workItemId, executionId) with
    | some reservation, none =>
      match s.buckets.get? (reservation.bucketKey .installation) with
      | none => (s.applied, s.charges)
      | some bucket =>
        match receiptApplication reservation bucket actualTokens with
        | .receiptOnly => (s.applied, s.charges)
        | .adjust _ _ =>
          (s.applied.set (workItemId, executionId)
              ⟨reservation.bucketKey .installation, bucket.providerWindowStartedAt, actualTokens⟩,
            if reservation.providerUsageKnown then s.charges else s.charges.erase workItemId)
    | _, _ => (s.applied, s.charges)
  | .admission _ _ _ _ _ | .beginRelease _ _ _ | .abortRelease _ => (s.applied, s.charges)

def askUsageStep (double : ℚ → ℚ) (s : AskUsageState) (event : AskQuotaEvent) : Option AskUsageState :=
  (askQuotaStep double s.toAskQuotaDb event).map fun db => ⟨db, (s.remember event).1, (s.remember event).2⟩

-- No admission rolls the window of a bucket between the moment a terminal transition reads it and the moment it makes
-- its charge; and counts stay exact as doubles.
def QuietEvent (s : AskUsageState) : AskQuotaEvent → Prop
  | .admission config now _ input _ => ∀ bucket, s.buckets.get? (input.bucketKey .installation) = some bucket →
    bucket.providerTokensUsed < 2 ^ 53 ∧
      (rollsWindow config now .installation bucket = true →
        ∀ workItemId window reservation, s.releasing.get? workItemId = some (some window) →
          s.reservations.get? workItemId = some reservation →
            reservation.bucketKey .installation ≠ input.bucketKey .installation)
  | .receipt _ _ actualTokens => actualTokens < 2 ^ 53
  | .beginRelease _ _ _ | .finishRelease _ _ | .abortRelease _ => True

structure AskUsageState.Accounted (s : AskUsageState) : Prop where
  conserved : s.toAskQuotaDb.Conserved
  -- A bucket has used what was added in its window.
  used : ∀ key bucket, key.scope = .installation → s.buckets.get? key = some bucket →
    bucket.providerTokensUsed = s.accounted key bucket.providerWindowStartedAt
  -- An execution is counted once, as its receipt says.
  applied : ∀ execution entry, s.applied.get? execution = some entry → s.receipts.get? execution = some entry.tokens
  -- A recorded charge was added in the window that the reservation records.
  recorded : ∀ workItemId reservation, s.reservations.get? workItemId = some reservation →
    0 < reservation.unknownUsageCharged → ∃ charge, s.charges.get? workItemId = some charge ∧
      charge.installation = reservation.bucketKey .installation ∧ charge.tokens = reservation.unknownUsageCharged ∧
      reservation.unknownUsageWindowStartedAt = some charge.window
  charged : ∀ workItemId charge, s.charges.get? workItemId = some charge →
    ∃ reservation, s.reservations.get? workItemId = some reservation ∧ reservation.releasedAt.isSome = true ∧
      0 < reservation.unknownUsageCharged ∧
      -- Only a late receipt leaves the charge where it is.
      (reservation.providerUsageKnown = true → ∀ bucket, s.buckets.get? charge.installation = some bucket →
        charge.window < bucket.providerWindowStartedAt)
  exact : ∀ workItemId reservation, s.reservations.get? workItemId = some reservation →
    reservation.unknownUsageCharged < 2 ^ 53
  past : ∀ entry, (∃ execution, s.applied.get? execution = some entry) ∨ (∃ workItemId, s.charges.get? workItemId = some entry) →
    entry.installation.scope = .installation ∧ ∃ bucket, s.buckets.get? entry.installation = some bucket ∧
      entry.window ≤ bucket.providerWindowStartedAt
  current : ∀ workItemId chargedWindow reservation, s.releasing.get? workItemId = some chargedWindow →
    s.reservations.get? workItemId = some reservation → 0 < providerCharge reservation →
      ∃ bucket, s.buckets.get? (reservation.bucketKey .installation) = some bucket ∧
        chargedWindow = some bucket.providerWindowStartedAt

-- While a charge's window is the bucket's, a new receipt of the work item replaces the charge.
def AskUsageState.ReplacesCharges (double : ℚ → ℚ) (s : AskUsageState) : Prop :=
  ∀ workItemId executionId actualTokens charge bucket t, actualTokens < 2 ^ 53 →
    s.charges.get? workItemId = some charge → s.receipts.get? (workItemId, executionId) = none →
      s.buckets.get? charge.installation = some bucket → bucket.providerWindowStartedAt = charge.window →
        askUsageStep double s (.receipt workItemId executionId actualTokens) = some t →
          t.charges.get? workItemId = none ∧
          t.applied.get? (workItemId, executionId) = some ⟨charge.installation, charge.window, actualTokens⟩ ∧
          ∃ after, t.buckets.get? charge.installation = some after ∧
            after.providerTokensUsed + charge.tokens = bucket.providerTokensUsed + actualTokens

section Windows

def AskQuotaBucket.usage (bucket : AskQuotaBucket) : Nat × Nat := (bucket.providerTokensUsed, bucket.providerWindowStartedAt)

variable {double : ℚ → ℚ} {config : AskQuotaConfig} {now dbNow : Nat} {input : AskAdmissionInput}

variable {admission : AskQuotaAdmission}

-- An admission changes used tokens and windows where it locks, and there only by the refill.
theorem admit_usage {db after : AskQuotaDb} {created : Bool}
    (admitted : admitAsk double config now dbNow input created db = some (admission, after)) (key : AskQuotaBucketKey) :
    (after.buckets.get? key).map AskQuotaBucket.usage =
      ((lockedDb double config now dbNow input db).buckets.get? key).map AskQuotaBucket.usage := by
  have taken : ((admittedDb double config now dbNow input db).buckets.get? key).map AskQuotaBucket.usage =
      ((lockedDb double config now dbNow input db).buckets.get? key).map AskQuotaBucket.usage := by
    rw [show (admittedDb double config now dbNow input db).buckets.get? key = _ from get?_taken config input _ key]
    by_cases named : key = input.bucketKey key.scope
    · rw [if_pos named, Option.map_map]
      rfl
    · rw [if_neg named]
  rcases admitAsk_cases admitted with ⟨reason, _, rfl⟩ | ⟨_, _, _, rfl⟩
  · rfl
  · cases created with
    | true => exact taken
    | false =>
        rw [if_neg Bool.false_ne_true, releaseAskQuotaReservation_admitted, ← taken]
        dsimp only
        rw [get?_releasedBuckets]
        by_cases named : key = (input.reservation (providerReservation config)).bucketKey key.scope
        · rw [if_pos named, Option.map_map]
          refine congrArg (Option.map · _) (funext fun bucket => ?_)
          simp [AskQuotaBucket.usage, releasedBucket]
        · rw [if_neg named]

theorem rolls_later {bucket : AskQuotaBucket} {scope : AskQuotaScope} (rolls : rollsWindow config now scope bucket = true) :
    bucket.providerWindowStartedAt < now := by
  rw [rollsWindow, Bool.and_eq_true, decide_eq_true_iff] at rolls
  have positive : (0 : ℚ) < ((now - bucket.providerWindowStartedAt : Nat) : ℚ) := by
    have window := config.window_positive
    linarith [rolls.2]
  have elapsed : 0 < now - bucket.providerWindowStartedAt := by exact_mod_cast positive
  omega

-- How the bucket of an installation comes out of an admission.
inductive AdmittedUsage (config : AskQuotaConfig) (now : Nat) (input : AskAdmissionInput) (key : AskQuotaBucketKey) :
    Option AskQuotaBucket → AskQuotaBucket → Prop
  | kept (old new : AskQuotaBucket) (used : new.providerTokensUsed = old.providerTokensUsed)
      (window : new.providerWindowStartedAt = old.providerWindowStartedAt) : AdmittedUsage config now input key (some old) new
  | rolled (old new : AskQuotaBucket) (named : key = input.bucketKey .installation)
      (rolls : rollsWindow config now .installation old = true) (used : new.providerTokensUsed = 0)
      (window : new.providerWindowStartedAt = now) : AdmittedUsage config now input key (some old) new
  | created (new : AskQuotaBucket) (used : new.providerTokensUsed = 0) : AdmittedUsage config now input key none new

theorem admitted_usage_cases {s : AskUsageState} {after : AskQuotaDb} {created : Bool}
    (quiet : QuietEvent s (.admission config now dbNow input created))
    (admitted : admitAsk double config now dbNow input created s.toAskQuotaDb = some (admission, after))
    {key : AskQuotaBucketKey} (installation : key.scope = .installation) {new : AskQuotaBucket}
    (stored : after.buckets.get? key = some new) : AdmittedUsage config now input key (s.buckets.get? key) new := by
  have usage := admit_usage admitted key
  have row := get?_lockAndRefillBuckets double config now dbNow input s.buckets key
  rw [stored, show (lockedDb double config now dbNow input s.toAskQuotaDb).buckets.get? key = _ from row] at usage
  by_cases named : key = input.bucketKey key.scope
  · rw [if_pos named] at usage
    injection usage with same
    injection same with used window
    rw [installation] at named used window
    cases before : s.buckets.get? key with
    | none =>
        rw [before] at used
        refine .created new (used.trans ?_)
        simp [refillBucket, freshBucket, numberValue]
    | some old =>
        rw [before] at used window
        have small := (quiet old (by rw [← named]; exact before)).1
        cases rolls : rollsWindow config now .installation old with
        | true =>
            refine .rolled old new named rolls ?_ ?_
            · simpa [refillBucket, rolls] using used
            · simpa [refillBucket, rolls] using window
        | false =>
            refine .kept old new ?_ (by simpa [refillBucket, rolls] using window)
            simpa [refillBucket, rolls, numberValue_of_lt small] using used
  · rw [if_neg named] at usage
    cases before : s.buckets.get? key with
    | none =>
        rw [before] at usage
        cases usage
    | some old =>
        rw [before] at usage
        injection usage with same
        injection same with used window
        exact .kept old new used window

theorem admit_keeps_buckets {db after : AskQuotaDb} {created : Bool}
    (admitted : admitAsk double config now dbNow input created db = some (admission, after)) {key : AskQuotaBucketKey}
    {old : AskQuotaBucket} (stored : db.buckets.get? key = some old) : ∃ new, after.buckets.get? key = some new := by
  have usage := admit_usage admitted key
  have kept := locked_keeps_stored double config now dbNow input db (by rw [stored]; rfl)
  obtain ⟨locked, found⟩ := Option.isSome_iff_exists.mp kept
  rw [found] at usage
  cases reached : after.buckets.get? key with
  | none =>
      rw [reached] at usage
      cases usage
  | some new => exact ⟨new, rfl⟩

-- An admission adds a reservation without a charge, if any.
theorem admit_reservations {db after : AskQuotaDb} {created : Bool}
    (admitted : admitAsk double config now dbNow input created db = some (admission, after)) :
    after.receipts = db.receipts ∧ after.releasing = db.releasing ∧
    ∀ workItemId, after.reservations.get? workItemId = db.reservations.get? workItemId ∨
      db.reservations.get? workItemId = none ∧ ∀ reservation, after.reservations.get? workItemId = some reservation →
        reservation.releasedAt = none ∧ reservation.unknownUsageCharged = 0 := by
  rcases admitAsk_cases admitted with ⟨reason, _, rfl⟩ | ⟨_, fresh, _, rfl⟩
  · exact ⟨rfl, rfl, fun _ => .inl rfl⟩
  · cases created with
    | true =>
        refine ⟨rfl, rfl, ?_⟩
        intro workItemId
        by_cases same : workItemId = input.workItemId
        · right
          subst same
          refine ⟨fresh, ?_⟩
          intro reservation stored
          obtain rfl := Option.some.inj ((Table.get?_set_self ..).symm.trans stored)
          exact ⟨rfl, rfl⟩
        · exact .inl (Table.get?_set_of_ne _ _ _ same)
    | false =>
        rw [if_neg Bool.false_ne_true, releaseAskQuotaReservation_admitted]
        refine ⟨rfl, rfl, ?_⟩
        intro workItemId
        left
        refine (Table.get?_erase _ _ _).trans ?_
        by_cases same : workItemId = input.workItemId
        · rw [if_pos same, same]
          exact fresh.symm
        · rw [if_neg same]
          exact Table.get?_set_of_ne _ _ _ same

end Windows

section Steps

variable {double : ℚ → ℚ} {s : AskUsageState}

theorem accounted_eq_zero {key : AskQuotaBucketKey} {window : Nat} (none : ∀ entry, (∃ execution, s.applied.get? execution = some entry) ∨
      (∃ workItemId, s.charges.get? workItemId = some entry) → ¬(entry.installation = key ∧ entry.window = window)) :
    s.accounted key window = 0 := by
  unfold AskUsageState.accounted
  rw [Table.sum_eq_zero, Table.sum_eq_zero]
  · intro workItemId entry stored
    exact if_neg (none entry (.inr ⟨workItemId, stored⟩))
  · intro execution entry stored
    exact if_neg (none entry (.inl ⟨execution, stored⟩))

-- The window of a bucket only grows in an admission.
theorem admit_window_grows {config : AskQuotaConfig} {now dbNow : Nat} {input : AskAdmissionInput} {created : Bool}
    {admission : AskQuotaAdmission} {after : AskQuotaDb} (quiet : QuietEvent s (.admission config now dbNow input created))
    (admitted : admitAsk double config now dbNow input created s.toAskQuotaDb = some (admission, after))
    {key : AskQuotaBucketKey} (installation : key.scope = .installation) {old new : AskQuotaBucket}
    (before : s.buckets.get? key = some old) (stored : after.buckets.get? key = some new) :
    old.providerWindowStartedAt ≤ new.providerWindowStartedAt := by
  have usage := admitted_usage_cases quiet admitted installation stored
  rw [before] at usage
  cases usage with
  | kept _ _ used window => rw [window]
  | rolled _ _ named rolls used window =>
      rw [window]
      exact (rolls_later rolls).le

theorem accounted_admit (accounted : s.Accounted) {config : AskQuotaConfig} {now dbNow : Nat} {input : AskAdmissionInput}
    {created : Bool} {admission : AskQuotaAdmission} {after : AskQuotaDb}
    (quiet : QuietEvent s (.admission config now dbNow input created))
    (admitted : admitAsk double config now dbNow input created s.toAskQuotaDb = some (admission, after)) :
    (⟨after, s.applied, s.charges⟩ : AskUsageState).Accounted := by
  obtain ⟨receipts, releasing, reservations⟩ := admit_reservations admitted
  have grows := @admit_window_grows double s config now dbNow input created admission after quiet admitted
  have old : ∀ {workItemId reservation}, after.reservations.get? workItemId = some reservation →
      s.reservations.get? workItemId = some reservation ∨
        s.reservations.get? workItemId = none ∧ reservation.unknownUsageCharged = 0 := by
    intro workItemId reservation stored
    rcases reservations workItemId with same | ⟨absent, fresh⟩
    · exact .inl (same.symm.trans stored)
    · exact .inr ⟨absent, (fresh reservation stored).2⟩
  constructor
  · exact (conserved_admission double accounted.conserved admitted).1
  · intro key new installation stored
    have usage := admitted_usage_cases quiet admitted installation stored
    generalize row : s.buckets.get? key = found at usage
    cases usage with
    | kept old _ used window =>
        rw [used, window]
        exact accounted.used key old installation row
    | rolled old _ named rolls used window =>
        rw [used, window]
        refine (accounted_eq_zero ?_).symm
        rintro entry listed ⟨rfl, same⟩
        obtain ⟨_, bucket, found, earlier⟩ := accounted.past entry listed
        obtain rfl := Option.some.inj (row.symm.trans found)
        have later := rolls_later rolls
        omega
    | created _ used =>
        rw [used]
        refine (accounted_eq_zero ?_).symm
        rintro entry listed ⟨rfl, _⟩
        obtain ⟨_, bucket, found, _⟩ := accounted.past entry listed
        rw [row] at found
        cases found
  · intro execution entry stored
    exact (congrArg (Table.get? · execution) receipts).trans (accounted.applied execution entry stored)
  · intro workItemId reservation stored charged
    rcases old stored with before | ⟨_, none_⟩
    · exact accounted.recorded workItemId reservation before charged
    · omega
  · intro workItemId charge stored
    obtain ⟨reservation, found, released, tokens, late⟩ := accounted.charged workItemId charge stored
    have kept : after.reservations.get? workItemId = some reservation := by
      rcases reservations workItemId with same | ⟨absent, _⟩
      · exact same.trans found
      · rw [absent] at found
        cases found
    refine ⟨reservation, kept, released, tokens, ?_⟩
    intro known new reached
    obtain ⟨installation, bucket, here, _⟩ := accounted.past charge (.inr ⟨workItemId, stored⟩)
    exact Nat.lt_of_lt_of_le (late known bucket here) (grows installation here reached)
  · intro workItemId reservation stored
    rcases old stored with before | ⟨_, none_⟩
    · exact accounted.exact workItemId reservation before
    · omega
  · intro entry stored
    obtain ⟨installation, bucket, found, earlier⟩ := accounted.past entry stored
    obtain ⟨new, reached⟩ := admit_keeps_buckets admitted found
    exact ⟨installation, new, reached, earlier.trans (grows installation found reached)⟩
  · intro workItemId chargedWindow reservation running stored charge
    have runningBefore : s.releasing.get? workItemId = some chargedWindow :=
      (congrArg (Table.get? · workItemId) releasing).symm.trans running
    obtain ⟨row, found, _⟩ := accounted.conserved.releasing workItemId chargedWindow runningBefore
    have storedBefore : s.reservations.get? workItemId = some reservation := by
      rcases old stored with before | ⟨absent, _⟩
      · exact before
      · rw [absent] at found
        cases found
    obtain ⟨bucket, here, window⟩ := accounted.current workItemId chargedWindow reservation runningBefore storedBefore charge
    obtain ⟨new, reached⟩ := admit_keeps_buckets admitted here
    refine ⟨new, reached, ?_⟩
    have usage := admitted_usage_cases quiet admitted rfl reached
    rw [here] at usage
    cases usage with
    | kept _ _ used same => rw [same, window]
    | rolled _ _ named rolls _ _ =>
        rw [named] at here
        rw [window] at runningBefore
        exact absurd named ((quiet bucket here).2 rolls workItemId _ reservation runningBefore storedBefore)

variable {workItemId : WorkItemId}

theorem accounted_begin (accounted : s.Accounted) {old new : WorkStatus} {after : AskQuotaDb}
    (began : beginRelease workItemId old new s.toAskQuotaDb = some after) :
    (⟨after, s.applied, s.charges⟩ : AskUsageState).Accounted := by
  have conserved := (conserved_begin accounted.conserved began).1
  obtain ⟨reservation, found, unreleased, _, rfl⟩ := beginRelease_cases began
  refine ⟨conserved, accounted.used, accounted.applied, accounted.recorded, accounted.charged, accounted.exact,
    accounted.past, ?_⟩
  intro other chargedWindow row running stored charge
  by_cases same : other = workItemId
  · subst same
    obtain rfl := Option.some.inj (found.symm.trans stored)
    have read := (Table.get?_set_self ..).symm.trans running
    rw [if_pos charge] at read
    obtain ⟨bucket, here⟩ := Option.isSome_iff_exists.mp
      (accounted.conserved.stored other reservation found unreleased .installation)
    rw [here] at read
    exact ⟨bucket, here, (Option.some.inj read).symm⟩
  · exact accounted.current other chargedWindow row ((Table.get?_set_of_ne _ _ _ same).symm.trans running) stored charge

theorem accounted_abort (accounted : s.Accounted) (workItemId : WorkItemId) :
    (⟨abortRelease workItemId s.toAskQuotaDb, s.applied, s.charges⟩ : AskUsageState).Accounted := by
  refine ⟨conserved_abort accounted.conserved workItemId, accounted.used, accounted.applied, accounted.recorded,
    accounted.charged, accounted.exact, accounted.past, ?_⟩
  intro other chargedWindow row running stored charge
  exact accounted.current other chargedWindow row (Table.get?_erase_cases running).2 stored charge

theorem get?_released_window (reservation : AskQuotaReservation) (charge tokens : Nat) (buckets : AskQuotaBuckets)
    (key : AskQuotaBucketKey) :
    ((releasedBuckets reservation charge tokens buckets).get? key).map AskQuotaBucket.providerWindowStartedAt =
      (buckets.get? key).map AskQuotaBucket.providerWindowStartedAt := by
  rw [get?_releasedBuckets]
  by_cases named : key = reservation.bucketKey key.scope
  · rw [if_pos named, Option.map_map]
    rfl
  · rw [if_neg named]

-- Windows that stay as they are keep what is known of them.
theorem past_of_windows {buckets buckets' : AskQuotaBuckets} {entry : UsageEntry}
    (windows : ∀ key, (buckets'.get? key).map AskQuotaBucket.providerWindowStartedAt =
      (buckets.get? key).map AskQuotaBucket.providerWindowStartedAt)
    (past : entry.installation.scope = .installation ∧ ∃ bucket, buckets.get? entry.installation = some bucket ∧
      entry.window ≤ bucket.providerWindowStartedAt) :
    entry.installation.scope = .installation ∧ ∃ bucket, buckets'.get? entry.installation = some bucket ∧
      entry.window ≤ bucket.providerWindowStartedAt := by
  obtain ⟨installation, bucket, found, earlier⟩ := past
  have window := windows entry.installation
  rw [found] at window
  obtain ⟨new, reached, same⟩ := Option.map_eq_some_iff.mp window
  exact ⟨installation, new, reached, by rw [same]; exact earlier⟩

theorem window_of_windows {buckets buckets' : AskQuotaBuckets} {key : AskQuotaBucketKey} {new : AskQuotaBucket}
    (windows : ∀ key, (buckets'.get? key).map AskQuotaBucket.providerWindowStartedAt =
      (buckets.get? key).map AskQuotaBucket.providerWindowStartedAt) (stored : buckets'.get? key = some new) :
    ∃ old, buckets.get? key = some old ∧ old.providerWindowStartedAt = new.providerWindowStartedAt := by
  have window := windows key
  rw [stored] at window
  obtain ⟨old, found, same⟩ := Option.map_eq_some_iff.mp window.symm
  exact ⟨old, found, same⟩

variable {reservation : AskQuotaReservation}

theorem charges_unreleased (accounted : s.Accounted)
    (found : s.reservations.get? workItemId = some reservation) (unreleased : reservation.releasedAt = none) :
    s.charges.get? workItemId = none := by
  cases charged : s.charges.get? workItemId with
  | none => rfl
  | some charge =>
      obtain ⟨row, stored, released, _⟩ := accounted.charged workItemId charge charged
      obtain rfl := Option.some.inj (found.symm.trans stored)
      rw [unreleased] at released
      cases released

theorem providerCharge_lt (conserved : s.Conserved)
    (found : s.reservations.get? workItemId = some reservation) : providerCharge reservation < 2 ^ 53 := by
  have safe := conserved.safe workItemId reservation found
  unfold providerCharge
  split
  · exact Nat.two_pow_pos 53
  · exact safe

theorem accounted_finish (accounted : s.Accounted) {dbNow : Nat} {after : AskQuotaDb}
    (finished : finishRelease workItemId dbNow s.toAskQuotaDb = some after) :
    (⟨after, (s.remember (.finishRelease workItemId dbNow)).1, (s.remember (.finishRelease workItemId dbNow)).2⟩ :
      AskUsageState).Accounted := by
  have conserved := (conserved_finish accounted.conserved finished).1
  obtain ⟨reservation, chargedWindow, found, running, rfl⟩ := finishRelease_cases finished
  have unreleased : reservation.releasedAt = none := by
    obtain ⟨row, stored, unreleased⟩ := accounted.conserved.releasing workItemId chargedWindow running
    rwa [Option.some.inj (found.symm.trans stored)]
  obtain ⟨bucket, here⟩ := Option.isSome_iff_exists.mp
    (accounted.conserved.stored workItemId reservation found unreleased .installation)
  have uncharged := charges_unreleased accounted found unreleased
  let entry : UsageEntry :=
    ⟨reservation.bucketKey .installation, bucket.providerWindowStartedAt, providerCharge reservation⟩
  have remembered : s.remember (.finishRelease workItemId dbNow) =
      (s.applied, if 0 < providerCharge reservation then s.charges.set workItemId entry else s.charges) := by
    simp only [AskUsageState.remember, found, here]
    split
    · rfl
    · rfl
  rw [remembered]
  -- The charges with the new one, if there is any.
  have sums : ∀ key window, (if 0 < providerCharge reservation then s.charges.set workItemId entry else s.charges).sum
      (fun _ entry => entry.counted key window) =
        s.charges.sum (fun _ entry => entry.counted key window) + entry.counted key window := by
    intro key window
    by_cases charges : 0 < providerCharge reservation
    · rw [if_pos charges]
      exact Table.sum_set_fresh uncharged _ _
    · have nothing : entry.counted key window = 0 := by
        unfold UsageEntry.counted
        split
        · exact Nat.eq_zero_of_not_pos charges
        · rfl
      rw [if_neg charges, nothing]
      rfl
  have rows : ∀ other charge, (if 0 < providerCharge reservation then s.charges.set workItemId entry else
      s.charges).get? other = some charge →
        (other = workItemId ∧ charge = entry ∧ 0 < providerCharge reservation) ∨
        (other ≠ workItemId ∧ s.charges.get? other = some charge) := by
    intro other charge stored
    by_cases charges : 0 < providerCharge reservation
    · rw [if_pos charges] at stored
      exact (Table.get?_set_cases stored).imp (fun own => ⟨own.1, own.2.symm, charges⟩) id
    · rw [if_neg charges] at stored
      refine .inr ⟨?_, stored⟩
      intro same
      rw [same, uncharged] at stored
      cases stored
  have windows := get?_released_window reservation (providerCharge reservation) reservation.reservedProviderTokens s.buckets
  have own : (s.reservations.set workItemId (reservation.release dbNow chargedWindow)).get? workItemId =
      some (reservation.release dbNow chargedWindow) := Table.get?_set_self ..
  have others : ∀ {other}, other ≠ workItemId →
      (s.reservations.set workItemId (reservation.release dbNow chargedWindow)).get? other = s.reservations.get? other :=
    fun different => Table.get?_set_of_ne _ _ _ different
  refine ⟨conserved, ?_, accounted.applied, ?_, ?_, ?_, ?_, ?_⟩
  · intro key new installation stored
    have row := get?_releasedBuckets reservation (providerCharge reservation) reservation.reservedProviderTokens s.buckets key
    rw [show (releasedBuckets reservation (providerCharge reservation) reservation.reservedProviderTokens s.buckets).get?
      key = some new from stored, installation] at row
    unfold AskUsageState.accounted
    dsimp only
    rw [sums, ← Nat.add_assoc]
    by_cases named : key = reservation.bucketKey .installation
    · subst named
      rw [if_pos rfl, here] at row
      obtain rfl := Option.some.inj row
      have before := accounted.used _ bucket installation here
      rw [show entry.counted (reservation.bucketKey .installation)
        (releasedBucket (providerCharge reservation) reservation.reservedProviderTokens .installation
          bucket).providerWindowStartedAt = providerCharge reservation from if_pos ⟨rfl, rfl⟩]
      exact congrArg (· + providerCharge reservation) before
    · rw [if_neg named] at row
      rw [show entry.counted key new.providerWindowStartedAt = 0 from if_neg fun same => named same.1.symm]
      exact accounted.used key new installation row.symm
  · intro other row stored charged
    by_cases same : other = workItemId
    · subst same
      obtain rfl := Option.some.inj (own.symm.trans stored)
      have charges : 0 < providerCharge reservation := charged
      obtain ⟨sameBucket, found', window⟩ := accounted.current other chargedWindow reservation running found charges
      obtain rfl := Option.some.inj (here.symm.trans found')
      refine ⟨entry, ?_, rfl, rfl, window⟩
      dsimp only
      rw [if_pos charges]
      exact Table.get?_set_self ..
    · obtain ⟨charge, listed, rest⟩ := accounted.recorded other row ((others same).symm.trans stored) charged
      refine ⟨charge, ?_, rest⟩
      dsimp only
      by_cases charges : 0 < providerCharge reservation
      · rw [if_pos charges]
        exact (Table.get?_set_of_ne _ _ _ same).trans listed
      · rw [if_neg charges]
        exact listed
  · intro other charge stored
    rcases rows other charge stored with ⟨rfl, rfl, charges⟩ | ⟨different, before⟩
    · refine ⟨reservation.release dbNow chargedWindow, own, rfl, charges, ?_⟩
      intro known
      rw [providerCharge, show reservation.providerUsageKnown = true from known, if_pos rfl] at charges
      exact absurd charges (Nat.lt_irrefl 0)
    · obtain ⟨row, listed, released, tokens, late⟩ := accounted.charged other charge before
      refine ⟨row, (others different).trans listed, released, tokens, ?_⟩
      intro known new reached
      obtain ⟨old, before, same⟩ := window_of_windows windows reached
      rw [← same]
      exact late known old before
  · intro other row stored
    by_cases same : other = workItemId
    · subst same
      obtain rfl := Option.some.inj (own.symm.trans stored)
      exact providerCharge_lt accounted.conserved found
    · exact accounted.exact other row ((others same).symm.trans stored)
  · intro listed stored
    refine past_of_windows windows ?_
    rcases stored with applied | ⟨other, charged⟩
    · exact accounted.past listed (.inl applied)
    · rcases rows other listed charged with ⟨_, rfl, _⟩ | ⟨_, before⟩
      · exact ⟨rfl, bucket, here, Nat.le_refl _⟩
      · exact accounted.past listed (.inr ⟨other, before⟩)
  · intro other window row runningAfter stored charge
    obtain ⟨same, kept⟩ := Table.get?_erase_cases runningAfter
    obtain ⟨old, before, read⟩ := accounted.current other window row kept ((others same).symm.trans stored) charge
    have reached := windows (row.bucketKey .installation)
    rw [before] at reached
    obtain ⟨new, found', equal⟩ := Option.map_eq_some_iff.mp reached
    exact ⟨new, found', by rw [equal]; exact read⟩

-- What a work item's unreplaced charge weighs in the bucket of its reservation.
def AskUsageState.replaced (s : AskUsageState) (workItemId : WorkItemId) (key : AskQuotaBucketKey) (window : Nat) : Nat :=
  ((s.charges.get? workItemId).map fun charge => charge.counted key window).getD 0

variable (accounted : s.Accounted)
include accounted

theorem replaced_elsewhere (found : s.reservations.get? workItemId = some reservation) {key : AskQuotaBucketKey}
    (other : key ≠ reservation.bucketKey .installation) (window : Nat) : s.replaced workItemId key window = 0 := by
  unfold AskUsageState.replaced
  cases charged : s.charges.get? workItemId with
  | none => rfl
  | some charge =>
      obtain ⟨row, stored, _, tokens, _⟩ := accounted.charged workItemId charge charged
      obtain rfl := Option.some.inj (found.symm.trans stored)
      obtain ⟨recorded, listed, installation, _⟩ := accounted.recorded workItemId reservation found tokens
      obtain rfl := Option.some.inj (charged.symm.trans listed)
      exact if_neg fun same => other (same.1.symm.trans installation)

theorem replaced_le (workItemId : WorkItemId) {key : AskQuotaBucketKey} {bucket : AskQuotaBucket}
    (installation : key.scope = .installation) (here : s.buckets.get? key = some bucket) :
    s.replaced workItemId key bucket.providerWindowStartedAt ≤ bucket.providerTokensUsed := by
  rw [accounted.used key bucket installation here]
  unfold AskUsageState.replaced AskUsageState.accounted
  cases charged : s.charges.get? workItemId with
  | none => exact Nat.zero_le _
  | some charge =>
      have part := Table.le_sum charged (fun _ entry => entry.counted key bucket.providerWindowStartedAt)
      simp only [Option.map_some, Option.getD_some]
      omega

-- A receipt that adjusts the bucket: its tokens come in for the charge of its work item, if there is one.
theorem accounted_adjust {executionId : ExecutionId}
    {actualTokens reservedRelease : Nat} {usedDelta : Int} {bucket : AskQuotaBucket}
    {charges : Table WorkItemId UsageEntry} (found : s.reservations.get? workItemId = some reservation)
    (unlocked : s.releasing.get? workItemId = none) (fresh : s.receipts.get? (workItemId, executionId) = none)
    (here : s.buckets.get? (reservation.bucketKey .installation) = some bucket)
    (conserved : (applyReceipt s.toAskQuotaDb workItemId executionId actualTokens reservation
      (.adjust reservedRelease usedDelta)).Conserved)
    (absent : charges.get? workItemId = none)
    (others : ∀ other, other ≠ workItemId → charges.get? other = s.charges.get? other)
    (sums : ∀ key window, charges.sum (fun _ entry => entry.counted key window) + s.replaced workItemId key window =
      s.charges.sum fun _ entry => entry.counted key window)
    (delta : usedDelta = (actualTokens : Int) -
      s.replaced workItemId (reservation.bucketKey .installation) bucket.providerWindowStartedAt) :
    (⟨applyReceipt s.toAskQuotaDb workItemId executionId actualTokens reservation (.adjust reservedRelease usedDelta),
      s.applied.set (workItemId, executionId)
        ⟨reservation.bucketKey .installation, bucket.providerWindowStartedAt, actualTokens⟩, charges⟩ :
      AskUsageState).Accounted := by
  let entry : UsageEntry := ⟨reservation.bucketKey .installation, bucket.providerWindowStartedAt, actualTokens⟩
  have unapplied : s.applied.get? (workItemId, executionId) = none := by
    cases applied : s.applied.get? (workItemId, executionId) with
    | none => rfl
    | some before =>
        rw [accounted.applied _ before applied] at fresh
        cases fresh
  have row := get?_updateBucket s.buckets (reservation.bucketKey .installation) (.adjust reservedRelease usedDelta)
  have windows : ∀ key, ((updateBucket s.buckets (reservation.bucketKey .installation)
      (.adjust reservedRelease usedDelta)).get? key).map AskQuotaBucket.providerWindowStartedAt =
      (s.buckets.get? key).map AskQuotaBucket.providerWindowStartedAt := by
    intro key
    rw [row]
    by_cases named : key = reservation.bucketKey .installation
    · rw [if_pos named, Option.map_map]
      rfl
    · rw [if_neg named]
  have charged : ∀ {other charge}, charges.get? other = some charge →
      other ≠ workItemId ∧ s.charges.get? other = some charge := by
    intro other charge stored
    by_cases same : other = workItemId
    · rw [same, absent] at stored
      cases stored
    · exact ⟨same, (others other same).symm.trans stored⟩
  let settled : AskQuotaReservation :=
    { reservation.withUsage actualTokens with reservedProviderTokens := 0, unknownUsageCharged := 0 }
  have own : (s.reservations.set workItemId settled).get? workItemId = some settled := Table.get?_set_self ..
  have kept : ∀ {other}, other ≠ workItemId →
      (s.reservations.set workItemId settled).get? other = s.reservations.get? other :=
    fun different => Table.get?_set_of_ne _ _ _ different
  refine ⟨conserved, ?_, ?_, ?_, ?_, ?_, ?_, ?_⟩
  · intro key new installation stored
    have total := sums key new.providerWindowStartedAt
    have added := Table.sum_set_fresh unapplied entry (fun _ entry => entry.counted key new.providerWindowStartedAt)
    have reached := row key
    rw [show (updateBucket s.buckets (reservation.bucketKey .installation) (.adjust reservedRelease usedDelta)).get? key =
      some new from stored] at reached
    change new.providerTokensUsed = (s.applied.set (workItemId, executionId) entry).sum _ + charges.sum _
    rw [added]
    by_cases named : key = reservation.bucketKey .installation
    · subst named
      rw [if_pos rfl, here] at reached
      obtain rfl := Option.some.inj reached
      have before := accounted.used _ bucket installation here
      have bound := replaced_le accounted workItemId installation here
      rw [show entry.counted (reservation.bucketKey .installation)
        (bucket.adjust reservedRelease usedDelta).providerWindowStartedAt = actualTokens from if_pos ⟨rfl, rfl⟩]
      change ((bucket.providerTokensUsed : Int) + usedDelta).toNat = _
      have total := sums (reservation.bucketKey .installation) bucket.providerWindowStartedAt
      unfold AskUsageState.accounted at before
      change _ = s.applied.sum (fun _ entry => entry.counted _ bucket.providerWindowStartedAt) + actualTokens +
        charges.sum fun _ entry => entry.counted _ bucket.providerWindowStartedAt
      omega
    · rw [if_neg named] at reached
      rw [replaced_elsewhere accounted found named] at total
      rw [show entry.counted key new.providerWindowStartedAt = 0 from if_neg fun same => named same.1.symm]
      have before := accounted.used key new installation reached.symm
      unfold AskUsageState.accounted at before
      omega
  · intro execution applied stored
    have here : (s.applied.set (workItemId, executionId) entry).get? execution = some applied := stored
    rw [Table.get?_set] at here
    refine (Table.get?_set _ _ _ _).trans ?_
    by_cases same : execution = (workItemId, executionId)
    · rw [if_pos same] at here ⊢
      obtain rfl := Option.some.inj here
      rfl
    · rw [if_neg same] at here ⊢
      exact accounted.applied execution applied here
  · intro other reservation' stored tokens
    by_cases same : other = workItemId
    · subst same
      obtain rfl := Option.some.inj (own.symm.trans stored)
      exact absurd tokens (Nat.lt_irrefl 0)
    · obtain ⟨charge, listed, rest⟩ := accounted.recorded other reservation' ((kept same).symm.trans stored) tokens
      exact ⟨charge, (others other same).trans listed, rest⟩
  · intro other charge stored
    obtain ⟨different, before⟩ := charged stored
    obtain ⟨reservation', listed, released, tokens, late⟩ := accounted.charged other charge before
    refine ⟨reservation', (kept different).trans listed, released, tokens, ?_⟩
    intro known new reached
    obtain ⟨old, listed, same⟩ := window_of_windows windows reached
    rw [← same]
    exact late known old listed
  · intro other reservation' stored
    by_cases same : other = workItemId
    · subst same
      obtain rfl := Option.some.inj (own.symm.trans stored)
      exact Nat.two_pow_pos 53
    · exact accounted.exact other reservation' ((kept same).symm.trans stored)
  · intro listed stored
    refine past_of_windows windows ?_
    rcases stored with ⟨execution, applied⟩ | ⟨other, charge⟩
    · have here' : (s.applied.set (workItemId, executionId) entry).get? execution = some listed := applied
      rcases Table.get?_set_cases here' with ⟨_, rfl⟩ | ⟨_, here'⟩
      · exact ⟨rfl, bucket, here, Nat.le_refl _⟩
      · exact accounted.past listed (.inl ⟨execution, here'⟩)
    · exact accounted.past listed (.inr ⟨other, (charged charge).2⟩)
  · intro other window reservation' running stored charge
    have different : other ≠ workItemId := Table.ne_of_stored running unlocked
    obtain ⟨old, before, read⟩ := accounted.current other window reservation' running
      ((kept different).symm.trans stored) charge
    have reached := windows (reservation'.bucketKey .installation)
    rw [before] at reached
    obtain ⟨new, found', equal⟩ := Option.map_eq_some_iff.mp reached
    exact ⟨new, found', by rw [equal]; exact read⟩

-- A reservation with an unreplaced charge is late for a receipt exactly when the charge's window has passed.
theorem late_of_charge {charge : UsageEntry} (found : s.reservations.get? workItemId = some reservation)
    (charged : s.charges.get? workItemId = some charge) (bucket : AskQuotaBucket) :
    charge.installation = reservation.bucketKey .installation ∧ charge.tokens = reservation.unknownUsageCharged ∧
      numberValue reservation.unknownUsageCharged = reservation.unknownUsageCharged ∧
      reservation.releasedAt.isSome = true ∧
      (reservation.late bucket = false ↔ charge.window = bucket.providerWindowStartedAt) := by
  obtain ⟨row, stored, released, tokens, _⟩ := accounted.charged workItemId charge charged
  obtain rfl := Option.some.inj (found.symm.trans stored)
  obtain ⟨recorded, listed, installation, amount, window⟩ := accounted.recorded workItemId reservation found tokens
  obtain rfl := Option.some.inj (charged.symm.trans listed)
  have small := numberValue_of_lt (accounted.exact workItemId reservation found)
  refine ⟨installation, amount, small, released, ?_⟩
  simp [AskQuotaReservation.late, released, small, tokens, window, sameProviderWindow]

theorem accounted_receipt {executionId : ExecutionId}
    {actualTokens : Nat} (small : actualTokens < 2 ^ 53) {after : AskQuotaDb}
    (recorded : recordAskProviderUsage workItemId executionId actualTokens s.toAskQuotaDb = some after) :
    (⟨after, (s.remember (.receipt workItemId executionId actualTokens)).1,
      (s.remember (.receipt workItemId executionId actualTokens)).2⟩ : AskUsageState).Accounted := by
  have conserved := (conserved_usage accounted.conserved recorded).1
  rcases recordAskProviderUsage_cases recorded with
    ⟨rfl, nothing⟩ | ⟨reservation, bucket, found, unlocked, fresh, here, rfl⟩
  · have remembered : s.remember (.receipt workItemId executionId actualTokens) = (s.applied, s.charges) := by
      rcases nothing with absent | known
      · simp only [AskUsageState.remember, absent]
      · obtain ⟨prior, stored⟩ := Option.isSome_iff_exists.mp known
        cases reservation : s.reservations.get? workItemId with
        | none => simp only [AskUsageState.remember, reservation]
        | some row => simp only [AskUsageState.remember, reservation, stored]
    rw [remembered]
    exact accounted
  · have remembered : s.remember (.receipt workItemId executionId actualTokens) =
        match receiptApplication reservation bucket actualTokens with
        | .receiptOnly => (s.applied, s.charges)
        | .adjust _ _ =>
          (s.applied.set (workItemId, executionId)
              ⟨reservation.bucketKey .installation, bucket.providerWindowStartedAt, actualTokens⟩,
            if reservation.providerUsageKnown then s.charges else s.charges.erase workItemId) := by
      simp only [AskUsageState.remember, found, fresh, here]
    have uncharged_sums : s.charges.get? workItemId = none → ∀ key window,
        s.charges.sum (fun _ entry => entry.counted key window) + s.replaced workItemId key window =
          s.charges.sum fun _ entry => entry.counted key window := by
      intro absent key window
      rw [AskUsageState.replaced, absent]
      rfl
    have erased_sums : ∀ key window,
        (s.charges.erase workItemId).sum (fun _ entry => entry.counted key window) + s.replaced workItemId key window =
          s.charges.sum fun _ entry => entry.counted key window :=
      fun key window => Table.sum_erase_add s.charges workItemId _
    have erased_absent : (s.charges.erase workItemId).get? workItemId = none :=
      (Table.get?_erase _ _ _).trans (if_pos rfl)
    have erased_others : ∀ other, other ≠ workItemId → (s.charges.erase workItemId).get? other = s.charges.get? other :=
      fun other different => (Table.get?_erase _ _ _).trans (if_neg different)
    rcases receiptApplication_cases reservation bucket actualTokens with
      ⟨late, application⟩ | ⟨current, ⟨known, application⟩ | ⟨unknown, unreleased, application⟩ |
        ⟨unknown, released, application⟩⟩
    · -- The receipt goes to no bucket, and the charge stays in its window.
      rw [remembered]
      rw [application] at conserved ⊢
      have own : (s.reservations.set workItemId (reservation.withUsage actualTokens)).get? workItemId =
          some (reservation.withUsage actualTokens) := Table.get?_set_self ..
      have others : ∀ {other}, other ≠ workItemId →
          (s.reservations.set workItemId (reservation.withUsage actualTokens)).get? other = s.reservations.get? other :=
        fun different => Table.get?_set_of_ne _ _ _ different
      refine ⟨conserved, accounted.used, ?_, ?_, ?_, ?_, accounted.past, ?_⟩
      · intro execution entry stored
        have listed := accounted.applied execution entry stored
        refine (Table.get?_set_of_ne _ _ _ ?_).trans listed
        intro same
        rw [same, fresh] at listed
        cases listed
      · intro other row stored tokens
        by_cases same : other = workItemId
        · subst same
          obtain rfl := Option.some.inj (own.symm.trans stored)
          exact accounted.recorded other reservation found tokens
        · exact accounted.recorded other row ((others same).symm.trans stored) tokens
      · intro other charge stored
        by_cases same : other = workItemId
        · subst same
          obtain ⟨installation, _, _, released, window⟩ := late_of_charge accounted found stored bucket
          obtain ⟨row, listed, _, tokens, _⟩ := accounted.charged other charge stored
          obtain rfl := Option.some.inj (found.symm.trans listed)
          refine ⟨_, own, released, tokens, ?_⟩
          intro _ sameBucket reached
          obtain ⟨_, old, before, earlier⟩ := accounted.past charge (.inr ⟨other, stored⟩)
          rw [installation] at before
          rw [installation, show (applyReceipt s.toAskQuotaDb other executionId actualTokens reservation .receiptOnly).buckets
            = s.buckets from rfl] at reached
          obtain rfl := Option.some.inj (here.symm.trans before)
          obtain rfl := Option.some.inj (here.symm.trans reached)
          have different : charge.window ≠ bucket.providerWindowStartedAt := by
            intro equal
            rw [window.mpr equal] at late
            cases late
          omega
        · obtain ⟨row, listed, rest⟩ := accounted.charged other charge stored
          exact ⟨row, (others same).trans listed, rest⟩
      · intro other row stored
        by_cases same : other = workItemId
        · subst same
          obtain rfl := Option.some.inj (own.symm.trans stored)
          exact accounted.exact other reservation found
        · exact accounted.exact other row ((others same).symm.trans stored)
      · intro other window row running stored charge
        have different : other ≠ workItemId := Table.ne_of_stored running unlocked
        exact accounted.current other window row running ((others different).symm.trans stored) charge
    · -- A later execution: the charge of the work item was replaced, or there was none.
      have uncharged : s.charges.get? workItemId = none := by
        cases charged : s.charges.get? workItemId with
        | none => rfl
        | some charge =>
            obtain ⟨installation, _, _, _, window⟩ := late_of_charge accounted found charged bucket
            obtain ⟨row, listed, _, _, strict⟩ := accounted.charged workItemId charge charged
            obtain rfl := Option.some.inj (found.symm.trans listed)
            have earlier := strict known bucket (by rw [installation]; exact here)
            have equal := window.mp current
            omega
      rw [application] at remembered conserved ⊢
      simp only [known, if_true] at remembered
      rw [remembered]
      refine accounted_adjust accounted found unlocked fresh here conserved uncharged (fun _ _ => rfl)
        (uncharged_sums uncharged) ?_
      rw [AskUsageState.replaced, uncharged]
      exact (sub_zero _).symm
    · have uncharged := charges_unreleased accounted found unreleased
      rw [application] at remembered conserved ⊢
      simp only [unknown, Bool.false_eq_true, if_false] at remembered
      rw [remembered]
      refine accounted_adjust accounted found unlocked fresh here conserved erased_absent erased_others erased_sums ?_
      rw [AskUsageState.replaced, uncharged]
      exact (sub_zero _).symm
    · -- The first execution after the release: its tokens come in for the charge.
      rw [application] at remembered conserved ⊢
      simp only [unknown, Bool.false_eq_true, if_false] at remembered
      rw [remembered]
      refine accounted_adjust accounted found unlocked fresh here conserved erased_absent erased_others erased_sums ?_
      have exact_ := accounted.exact workItemId reservation found
      rw [numberValue_of_lt exact_, numberValue_of_lt (by omega), numberValue_of_lt (by omega)]
      cases charged : s.charges.get? workItemId with
      | none =>
          have nothing : reservation.unknownUsageCharged = 0 := by
            by_contra tokens
            obtain ⟨charge, listed, _⟩ := accounted.recorded workItemId reservation found (by omega)
            rw [charged] at listed
            cases listed
          rw [AskUsageState.replaced, charged, nothing]
          simp
      | some charge =>
          obtain ⟨installation, amount, _, _, window⟩ := late_of_charge accounted found charged bucket
          have weight : s.replaced workItemId (reservation.bucketKey .installation) bucket.providerWindowStartedAt =
              reservation.unknownUsageCharged := by
            rw [AskUsageState.replaced, charged, ← amount]
            exact if_pos ⟨installation, window.mp current⟩
          rw [weight]
          omega

end Steps

theorem accounted_step {double : ℚ → ℚ} {s t : AskUsageState} (accounted : s.Accounted) {event : AskQuotaEvent}
    (quiet : QuietEvent s event) (moved : askUsageStep double s event = some t) : t.Accounted := by
  obtain ⟨db, reached, rfl⟩ := Option.map_eq_some_iff.mp moved
  cases event with
  | admission config now dbNow input created =>
      obtain ⟨⟨admission, after⟩, admitted, rfl⟩ := Option.map_eq_some_iff.mp reached
      exact accounted_admit accounted quiet admitted
  | beginRelease workItemId old new => exact accounted_begin accounted reached
  | finishRelease workItemId dbNow => exact accounted_finish accounted reached
  | abortRelease workItemId =>
      obtain rfl := Option.some.inj reached
      exact accounted_abort accounted workItemId
  | receipt workItemId executionId actualTokens => exact accounted_receipt accounted quiet reached

theorem accounted_replaces (double : ℚ → ℚ) {s : AskUsageState} (accounted : s.Accounted) : s.ReplacesCharges double := by
  intro workItemId executionId actualTokens charge bucket t small charged fresh here window moved
  obtain ⟨db, recorded, rfl⟩ := Option.map_eq_some_iff.mp moved
  obtain ⟨reservation, found, released, _, strict⟩ := accounted.charged workItemId charge charged
  obtain ⟨installation, amount, exact_, _, current⟩ := late_of_charge accounted found charged bucket
  have unknown : reservation.providerUsageKnown = false := by
    cases known : reservation.providerUsageKnown with
    | false => rfl
    | true =>
        have earlier := strict known bucket here
        omega
  rcases recordAskProviderUsage_cases recorded with
    ⟨_, absent | known⟩ | ⟨reservation', bucket', found', _, _, here', rfl⟩
  · rw [found] at absent
    cases absent
  · rw [fresh] at known
    cases known
  · obtain rfl := Option.some.inj (found.symm.trans found')
    rw [installation] at here
    obtain rfl := Option.some.inj (here.symm.trans here')
    rcases receiptApplication_cases reservation bucket actualTokens with
      ⟨late, _⟩ | ⟨_, ⟨known, _⟩ | ⟨_, unreleased, _⟩ | ⟨_, _, application⟩⟩
    · rw [current.mpr window.symm] at late
      cases late
    · rw [unknown] at known
      cases known
    · rw [unreleased] at released
      cases released
    · have remembered : s.remember (.receipt workItemId executionId actualTokens) =
          (s.applied.set (workItemId, executionId)
            ⟨reservation.bucketKey .installation, bucket.providerWindowStartedAt, actualTokens⟩,
            s.charges.erase workItemId) := by
        simp [AskUsageState.remember, found, fresh, here, application, unknown]
      rw [remembered, application]
      have small' := accounted.exact workItemId reservation found
      refine ⟨(Table.get?_erase _ _ _).trans (if_pos rfl), ?_, ?_⟩
      · rw [installation, ← window]
        exact Table.get?_set_self ..
      · rw [numberValue_of_lt small', numberValue_of_lt (by omega), numberValue_of_lt (by omega), installation]
        refine ⟨_, (get?_updateBucket _ _ _ _).trans (by rw [if_pos rfl, here]; rfl), ?_⟩
        have bound := replaced_le accounted workItemId rfl here
        rw [AskUsageState.replaced, charged, Option.map_some, Option.getD_some,
          show charge.counted (reservation.bucketKey .installation) bucket.providerWindowStartedAt = charge.tokens from
            if_pos ⟨installation, window.symm⟩] at bound
        change ((bucket.providerTokensUsed : Int) + _).toNat + charge.tokens = _
        omega

theorem ask_usage_attributed (double : ℚ → ℚ) (s t : AskUsageState) (accounted : s.Accounted)
    (run : Reaches (askUsageStep double) QuietEvent s t) : t.Accounted ∧ t.ReplacesCharges double := by
  have kept : t.Accounted :=
    Reaches.invariant AskUsageState.Accounted accounted
      (fun _ _ _ before quiet moved => accounted_step before quiet moved) run
  exact ⟨kept, accounted_replaces double kept⟩

section Histories

def emptyUsage : AskUsageState := ⟨emptyQuota, Table.empty, Table.empty⟩

theorem emptyUsage_accounted : emptyUsage.Accounted where
  conserved := emptyQuota_conserved
  used _ _ _ stored := by cases stored
  applied _ _ stored := by cases stored
  recorded _ _ stored := by cases stored
  charged _ _ stored := by cases stored
  exact _ _ stored := by cases stored
  past _ stored := by
    rcases stored with ⟨_, stored⟩ | ⟨_, stored⟩
    · cases stored
    · cases stored
  current _ _ _ running := by cases running

def moveTo (s : AskUsageState) (event : AskQuotaEvent) : AskUsageState := (askUsageStep id s event).getD s

theorem moves_to {s : AskUsageState} {event : AskQuotaEvent} (moves : (askUsageStep id s event).isSome = true) :
    askUsageStep id s event = some (moveTo s event) := by
  obtain ⟨t, moved⟩ := Option.isSome_iff_exists.mp moves
  rw [moveTo, moved]
  rfl

def chargedInstallation : AskQuotaBucketKey := (mention 1).bucketKey .installation

-- An ask is admitted, and its work item starts to end.
def askedUsage : AskUsageState := moveTo emptyUsage (.admission smallQuota 0 0 (mention 1) true)

def endingUsage : AskUsageState := moveTo askedUsage (.beginRelease 1 .running .completed)

theorem asks_once : askUsageStep id emptyUsage (.admission smallQuota 0 0 (mention 1) true) = some askedUsage :=
  moves_to (by decide +kernel)

theorem ends_once : askUsageStep id askedUsage (.beginRelease 1 .running .completed) = some endingUsage :=
  moves_to (by decide +kernel)

-- It ends in the window that it read: the charge counts until the receipt comes in.
theorem ended_ask_attributed :
    (moveTo endingUsage (.finishRelease 1 5)).Accounted ∧ (moveTo endingUsage (.finishRelease 1 5)).ReplacesCharges id := by
  have quiet : QuietEvent emptyUsage (.admission smallQuota 0 0 (mention 1) true) := fun _ stored => by cases stored
  have finishes : askUsageStep id endingUsage (.finishRelease 1 5) = some (moveTo endingUsage (.finishRelease 1 5)) :=
    moves_to (by decide +kernel)
  have begins : QuietEvent askedUsage (.beginRelease 1 .running .completed) := trivial
  have ends : QuietEvent endingUsage (.finishRelease 1 5) := trivial
  have asked : Reaches (askUsageStep id) QuietEvent emptyUsage askedUsage := .next .start quiet asks_once
  have ending : Reaches (askUsageStep id) QuietEvent emptyUsage endingUsage := .next asked begins ends_once
  exact ask_usage_attributed id emptyUsage _ emptyUsage_accounted (.next ending ends finishes)

-- It ends while an admission rolls the window: the charge of 40 tokens goes to the window that starts at 1000, the
-- reservation records the one that starts at 0, and the receipt of 25 tokens leaves the charge where it is.
def rolledUsage : AskUsageState := moveTo endingUsage (.admission smallQuota 1000 1000 (mention 2) true)

def mischargedUsage : AskUsageState := moveTo rolledUsage (.finishRelease 1 1001)

theorem charge_recorded_in_another_window :
    Reaches (askUsageStep id) (fun _ _ => True) emptyUsage mischargedUsage ∧
    mischargedUsage.charges.get? 1 = some ⟨chargedInstallation, 1000, 40⟩ ∧
    mischargedUsage.reservations.get? 1 = some (((mention 1).reservation 40).release 1001 (some 0)) ∧
    ¬mischargedUsage.Accounted ∧ ¬mischargedUsage.ReplacesCharges id := by
  have rolls : askUsageStep id endingUsage (.admission smallQuota 1000 1000 (mention 2) true) = some rolledUsage :=
    moves_to (by decide +kernel)
  have finishes : askUsageStep id rolledUsage (.finishRelease 1 1001) = some mischargedUsage :=
    moves_to (by decide +kernel)
  have charged : mischargedUsage.charges.get? 1 = some ⟨chargedInstallation, 1000, 40⟩ := by decide +kernel
  have reserved : mischargedUsage.reservations.get? 1 = some (((mention 1).reservation 40).release 1001 (some 0)) := by
    decide +kernel
  refine ⟨?_, charged, reserved, ?_, ?_⟩
  · exact .next (.next (.next (.next .start trivial asks_once) trivial ends_once) trivial rolls) trivial finishes
  · intro accounted
    obtain ⟨charge, listed, _, _, window⟩ := accounted.recorded 1 _ reserved (by decide)
    obtain rfl := Option.some.inj (charged.symm.trans listed)
    cases window
  · intro replaces
    have stored : (mischargedUsage.buckets.get? chargedInstallation).isSome = true := by decide +kernel
    obtain ⟨bucket, here⟩ := Option.isSome_iff_exists.mp stored
    have window : (mischargedUsage.buckets.get? chargedInstallation).map AskQuotaBucket.providerWindowStartedAt =
        some 1000 := by decide +kernel
    rw [here] at window
    have receipt : askUsageStep id mischargedUsage (.receipt 1 8 25) = some (moveTo mischargedUsage (.receipt 1 8 25)) :=
      moves_to (by decide +kernel)
    have kept : (moveTo mischargedUsage (.receipt 1 8 25)).charges.get? 1 = some ⟨chargedInstallation, 1000, 40⟩ := by
      decide +kernel
    obtain ⟨gone, _⟩ := replaces 1 8 25 _ bucket _ (by omega) charged (by decide +kernel) here (Option.some.inj window) receipt
    rw [kept] at gone
    cases gone

end Histories
end PrAgent
