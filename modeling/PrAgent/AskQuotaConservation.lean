import PrAgent.AskQuotaSteps
import Mathlib.Tactic.Linarith
set_option autoImplicit false

namespace PrAgent

def AskQuotaDb.outstanding (db : AskQuotaDb) (key : AskQuotaBucketKey) : Nat :=
  ((db.buckets.get? key).map AskQuotaBucket.outstandingCount).getD 0

def AskQuotaDb.reserved (db : AskQuotaDb) (key : AskQuotaBucketKey) : Nat :=
  ((db.buckets.get? key).map AskQuotaBucket.providerTokensReserved).getD 0

-- What an unreleased reservation holds of a bucket: a place, and the tokens of its installation.
def AskQuotaReservation.places (reservation : AskQuotaReservation) (key : AskQuotaBucketKey) : Nat :=
  if reservation.releasedAt = none ∧ key = reservation.bucketKey key.scope then 1 else 0

def AskQuotaReservation.tokens (reservation : AskQuotaReservation) (key : AskQuotaBucketKey) : Nat :=
  if reservation.releasedAt = none ∧ key = reservation.bucketKey .installation then reservation.reservedProviderTokens
  else 0

-- The number of unreleased reservations of a bucket, and the sum of their tokens.
def AskQuotaDb.unreleased (db : AskQuotaDb) (key : AskQuotaBucketKey) : Nat :=
  db.reservations.sum fun _ reservation => reservation.places key

def AskQuotaDb.unreleasedTokens (db : AskQuotaDb) (key : AskQuotaBucketKey) : Nat :=
  db.reservations.sum fun _ reservation => reservation.tokens key

structure AskQuotaDb.Conserved (db : AskQuotaDb) : Prop where
  outstanding : ∀ key, db.outstanding key = db.unreleased key
  reserved : ∀ key, db.reserved key = db.unreleasedTokens key
  stored : ∀ workItemId reservation, db.reservations.get? workItemId = some reservation →
    reservation.releasedAt = none → ∀ scope, (db.buckets.get? (reservation.bucketKey scope)).isSome = true
  safe : ∀ workItemId reservation, db.reservations.get? workItemId = some reservation →
    reservation.reservedProviderTokens < 2 ^ 53
  settled : ∀ workItemId reservation, db.reservations.get? workItemId = some reservation →
    reservation.providerUsageKnown = true ∨ reservation.releasedAt ≠ none → reservation.reservedProviderTokens = 0
  releasing : ∀ workItemId chargedWindow, db.releasing.get? workItemId = some chargedWindow →
    ∃ reservation, db.reservations.get? workItemId = some reservation ∧ reservation.releasedAt = none

section Counts

variable (double : ℚ → ℚ) (config : AskQuotaConfig) (now dbNow : Nat) (input : AskAdmissionInput)

-- A lock refills burst tokens and rolls the window; it counts nothing.
theorem locked_counts (db : AskQuotaDb) (key : AskQuotaBucketKey) :
    (lockedDb double config now dbNow input db).outstanding key = db.outstanding key ∧
      (lockedDb double config now dbNow input db).reserved key = db.reserved key := by
  have row := get?_lockAndRefillBuckets double config now dbNow input db.buckets key
  unfold AskQuotaDb.outstanding AskQuotaDb.reserved lockedDb
  dsimp only
  rw [row]
  by_cases named : key = input.bucketKey key.scope
  · rw [if_pos named]
    cases db.buckets.get? key with
    | none => exact ⟨rfl, rfl⟩
    | some bucket => exact ⟨rfl, rfl⟩
  · rw [if_neg named]
    exact ⟨rfl, rfl⟩

theorem admitted_counts (db : AskQuotaDb) (key : AskQuotaBucketKey) :
    (admittedDb double config now dbNow input db).outstanding key =
        db.outstanding key + (input.reservation (providerReservation config)).places key ∧
      (admittedDb double config now dbNow input db).reserved key =
        db.reserved key + (input.reservation (providerReservation config)).tokens key := by
  obtain ⟨outstanding, reserved⟩ := locked_counts double config now dbNow input db key
  rw [← outstanding, ← reserved]
  have row := get?_taken config input (lockedDb double config now dbNow input db).buckets key
  unfold AskQuotaDb.outstanding AskQuotaDb.reserved admittedDb AskQuotaReservation.places AskQuotaReservation.tokens
  dsimp only
  rw [row, reservation_bucketKey, reservation_bucketKey]
  by_cases named : key = input.bucketKey key.scope
  · obtain ⟨bucket, stored⟩ := locked_stored double config now dbNow input db key.scope
    rw [← named] at stored
    rw [if_pos named, stored, if_pos ⟨rfl, named⟩]
    refine ⟨rfl, ?_⟩
    by_cases installation : key.scope = .installation
    · rw [installation] at named
      rw [if_pos ⟨rfl, named⟩]
      simp only [Option.map_some, Option.getD_some, takenBucket, installation, if_true]
      rfl
    · have other : key ≠ input.bucketKey .installation := fun same => installation (by rw [same]; rfl)
      rw [if_neg fun holds => other holds.2]
      simp only [Option.map_some, Option.getD_some, takenBucket, installation, if_false]
  · have other : key ≠ input.bucketKey .installation := fun same => named (by rw [same]; rfl)
    rw [if_neg named, if_neg fun holds => named holds.2, if_neg fun holds => other holds.2]
    exact ⟨rfl, rfl⟩

variable (reservation : AskQuotaReservation) (charge : Nat)

theorem released_counts (db : AskQuotaDb) (unreleased : reservation.releasedAt = none) (key : AskQuotaBucketKey) :
    ({ db with buckets := releasedBuckets reservation charge reservation.reservedProviderTokens db.buckets } :
        AskQuotaDb).outstanding key = db.outstanding key - reservation.places key ∧
      ({ db with buckets := releasedBuckets reservation charge reservation.reservedProviderTokens db.buckets } :
        AskQuotaDb).reserved key = db.reserved key - reservation.tokens key := by
  have row := get?_releasedBuckets reservation charge reservation.reservedProviderTokens db.buckets key
  unfold AskQuotaDb.outstanding AskQuotaDb.reserved AskQuotaReservation.places AskQuotaReservation.tokens
  dsimp only
  rw [row]
  by_cases named : key = reservation.bucketKey key.scope
  · rw [if_pos named, if_pos ⟨unreleased, named⟩]
    have tokens : (if reservation.releasedAt = none ∧ key = reservation.bucketKey .installation then
        reservation.reservedProviderTokens else 0) =
        if key.scope = .installation then reservation.reservedProviderTokens else 0 := by
      by_cases installation : key.scope = .installation
      · rw [installation] at named
        rw [if_pos ⟨unreleased, named⟩, if_pos installation]
      · have other : key ≠ reservation.bucketKey .installation := fun same => installation (by rw [same]; rfl)
        rw [if_neg fun holds => other holds.2, if_neg installation]
    rw [tokens]
    cases db.buckets.get? key with
    | none => exact ⟨(Nat.zero_sub _).symm, (Nat.zero_sub _).symm⟩
    | some bucket => exact ⟨rfl, rfl⟩
  · have other : key ≠ reservation.bucketKey .installation := fun same => named (by rw [same]; rfl)
    rw [if_neg named, if_neg fun holds => named holds.2, if_neg fun holds => other holds.2]
    exact ⟨rfl, rfl⟩

end Counts

section Steps

variable (double : ℚ → ℚ) {db after : AskQuotaDb}

-- Reservations stay, for the same buckets, and stay released once they are.
def AskQuotaDb.ReservationsFollow (s t : AskQuotaDb) : Prop :=
  ∀ workItemId reservation, s.reservations.get? workItemId = some reservation →
    ∃ later, t.reservations.get? workItemId = some later ∧ (∀ scope, later.bucketKey scope = reservation.bucketKey scope) ∧
      ∀ releasedAt, reservation.releasedAt = some releasedAt → later.releasedAt = some releasedAt

theorem reservations_follow_refl (s : AskQuotaDb) : s.ReservationsFollow s :=
  fun _ reservation stored => ⟨reservation, stored, fun _ => rfl, fun _ released => released⟩

theorem reservations_follow_trans {s t u : AskQuotaDb} (first : s.ReservationsFollow t) (second : t.ReservationsFollow u) :
    s.ReservationsFollow u := by
  intro workItemId reservation stored
  obtain ⟨mid, storedMid, keysMid, releasedMid⟩ := first workItemId reservation stored
  obtain ⟨later, storedLater, keysLater, releasedLater⟩ := second workItemId mid storedMid
  refine ⟨later, storedLater, fun scope => (keysLater scope).trans (keysMid scope), ?_⟩
  intro releasedAt released
  exact releasedLater releasedAt (releasedMid releasedAt released)

theorem conserved_locked (conserved : db.Conserved) (config : AskQuotaConfig) (now dbNow : Nat)
    (input : AskAdmissionInput) : (lockedDb double config now dbNow input db).Conserved where
  outstanding key := (locked_counts double config now dbNow input db key).1.trans (conserved.outstanding key)
  reserved key := (locked_counts double config now dbNow input db key).2.trans (conserved.reserved key)
  stored workItemId reservation found unreleased scope :=
    locked_keeps_stored double config now dbNow input db (conserved.stored workItemId reservation found unreleased scope)
  safe := conserved.safe
  settled := conserved.settled
  releasing := conserved.releasing

theorem conserved_admitted (conserved : db.Conserved) (config : AskQuotaConfig) (now dbNow : Nat)
    (input : AskAdmissionInput) (fresh : db.reservations.get? input.workItemId = none) :
    (admittedDb double config now dbNow input db).Conserved where
  outstanding key := by
    rw [(admitted_counts double config now dbNow input db key).1, conserved.outstanding]
    exact (Table.sum_set_fresh fresh _ _).symm
  reserved key := by
    rw [(admitted_counts double config now dbNow input db key).2, conserved.reserved]
    exact (Table.sum_set_fresh fresh _ _).symm
  stored workItemId reservation found unreleased scope := by
    have kept : ∀ key, ((lockedDb double config now dbNow input db).buckets.get? key).isSome = true →
        ((admittedDb double config now dbNow input db).buckets.get? key).isSome = true := by
      intro key stored
      unfold admittedDb
      dsimp only
      rw [get?_taken]
      by_cases named : key = input.bucketKey key.scope
      · rwa [if_pos named, Option.isSome_map]
      · rwa [if_neg named]
    have here : (db.reservations.set input.workItemId (input.reservation (providerReservation config))).get? workItemId =
        some reservation := found
    rcases Table.get?_set_cases here with ⟨_, rfl⟩ | ⟨_, here⟩
    · obtain ⟨bucket, stored⟩ := locked_stored double config now dbNow input db scope
      rw [reservation_bucketKey]
      exact kept _ (by rw [stored]; rfl)
    · exact kept _ (locked_keeps_stored double config now dbNow input db
        (conserved.stored workItemId reservation here unreleased scope))
  safe workItemId reservation found := by
    have here : (db.reservations.set input.workItemId (input.reservation (providerReservation config))).get? workItemId =
        some reservation := found
    rcases Table.get?_set_cases here with ⟨_, rfl⟩ | ⟨_, here⟩
    · have bound := config.reservation_safe
      change providerReservation config < 2 ^ 53
      unfold providerReservation
      split
      · exact bound
      · omega
    · exact conserved.safe workItemId reservation here
  settled workItemId reservation found known := by
    have here : (db.reservations.set input.workItemId (input.reservation (providerReservation config))).get? workItemId =
        some reservation := found
    rcases Table.get?_set_cases here with ⟨_, rfl⟩ | ⟨_, here⟩
    · rcases known with known | released
      · cases known
      · exact absurd rfl released
    · exact conserved.settled workItemId reservation here known
  releasing workItemId chargedWindow releasing := by
    obtain ⟨reservation, stored, unreleased⟩ := conserved.releasing workItemId chargedWindow releasing
    have other := Table.ne_of_stored stored fresh
    exact ⟨reservation, (Table.get?_set_of_ne _ _ _ other).trans stored, unreleased⟩

-- A release takes back what the reservation holds, whether its row is then marked or deleted.
theorem conserved_released {reservations : Table WorkItemId AskQuotaReservation}
    {releasing : Table WorkItemId (Option Nat)} {reservation : AskQuotaReservation} (workItemId : WorkItemId)
    (charge : Nat) (conserved : db.Conserved) (unreleased : reservation.releasedAt = none)
    (others : ∀ other, other ≠ workItemId → reservations.get? other = db.reservations.get? other)
    (own : ∀ row, reservations.get? workItemId = some row → row.releasedAt ≠ none ∧
      row.reservedProviderTokens < 2 ^ 53 ∧
      (row.providerUsageKnown = true ∨ row.releasedAt ≠ none → row.reservedProviderTokens = 0))
    (places : ∀ key, reservations.sum (fun _ row => row.places key) + reservation.places key = db.unreleased key)
    (tokens : ∀ key, reservations.sum (fun _ row => row.tokens key) + reservation.tokens key = db.unreleasedTokens key)
    (running : ∀ other chargedWindow, releasing.get? other = some chargedWindow →
      other ≠ workItemId ∧ ∃ chargedWindow, db.releasing.get? other = some chargedWindow) :
    (⟨releasedBuckets reservation charge reservation.reservedProviderTokens db.buckets, reservations, db.receipts,
      releasing⟩ : AskQuotaDb).Conserved where
  outstanding key := by
    have counts := (released_counts reservation charge db unreleased key).1
    have held := places key
    rw [conserved.outstanding] at counts
    refine counts.trans (show db.unreleased key - reservation.places key = reservations.sum _ from ?_)
    omega
  reserved key := by
    have counts := (released_counts reservation charge db unreleased key).2
    have held := tokens key
    rw [conserved.reserved] at counts
    refine counts.trans (show db.unreleasedTokens key - reservation.tokens key = reservations.sum _ from ?_)
    omega
  stored other row found free scope := by
    rw [releasedBuckets_stored]
    by_cases same : other = workItemId
    · rw [same] at found
      exact absurd free (own row found).1
    · exact conserved.stored other row ((others other same).symm.trans found) free scope
  safe other row found := by
    by_cases same : other = workItemId
    · rw [same] at found
      exact (own row found).2.1
    · exact conserved.safe other row ((others other same).symm.trans found)
  settled other row found known := by
    by_cases same : other = workItemId
    · rw [same] at found
      exact (own row found).2.2 known
    · exact conserved.settled other row ((others other same).symm.trans found) known
  releasing other chargedWindow found := by
    obtain ⟨different, window, before⟩ := running other chargedWindow found
    obtain ⟨row, stored, free⟩ := conserved.releasing other window before
    exact ⟨row, (others other different).trans stored, free⟩

theorem released_row_holds_nothing {reservation : AskQuotaReservation} (released : reservation.releasedAt ≠ none)
    (key : AskQuotaBucketKey) : reservation.places key = 0 ∧ reservation.tokens key = 0 := by
  unfold AskQuotaReservation.places AskQuotaReservation.tokens
  rw [if_neg fun holds => released holds.1, if_neg fun holds => released holds.1]
  exact ⟨rfl, rfl⟩

-- The release inside an admission undoes the admission's reservation, and nothing else.
theorem conserved_admitted_released (conserved : db.Conserved) (config : AskQuotaConfig) (now dbNow : Nat)
    (input : AskAdmissionInput) (fresh : db.reservations.get? input.workItemId = none) :
    (releaseAskQuotaReservation (admittedDb double config now dbNow input db) input.workItemId).Conserved := by
  have admitted := conserved_admitted double conserved config now dbNow input fresh
  have found : (admittedDb double config now dbNow input db).reservations.get? input.workItemId =
      some (input.reservation (providerReservation config)) := Table.get?_set_self ..
  rw [releaseAskQuotaReservation_admitted]
  refine conserved_released input.workItemId 0 admitted rfl ?_ ?_ ?_ ?_ ?_
  · exact fun other different => (Table.get?_erase _ _ _).trans (if_neg different)
  · intro row stored
    rw [Table.get?_erase, if_pos rfl] at stored
    cases stored
  · exact fun key => Table.sum_erase found _
  · exact fun key => Table.sum_erase found _
  · intro other chargedWindow running
    obtain ⟨row, stored, _⟩ := conserved.releasing other chargedWindow running
    refine ⟨?_, chargedWindow, running⟩
    intro same
    rw [same, fresh] at stored
    cases stored

variable {workItemId : WorkItemId}

theorem conserved_finish (conserved : db.Conserved) {dbNow : Nat}
    (finished : finishRelease workItemId dbNow db = some after) : after.Conserved ∧ db.ReservationsFollow after := by
  obtain ⟨reservation, chargedWindow, found, running, rfl⟩ := finishRelease_cases finished
  have unreleased : reservation.releasedAt = none := by
    obtain ⟨row, stored, unreleased⟩ := conserved.releasing workItemId chargedWindow running
    rwa [Option.some.inj (found.symm.trans stored)]
  have released : (reservation.release dbNow chargedWindow).releasedAt ≠ none := fun none_ => by cases none_
  constructor
  · refine conserved_released workItemId (providerCharge reservation) conserved unreleased ?_ ?_ ?_ ?_ ?_
    · exact fun other different => Table.get?_set_of_ne _ _ _ different
    · intro row here
      rw [Table.get?_set_self] at here
      obtain rfl := Option.some.inj here
      exact ⟨released, Nat.two_pow_pos 53, fun _ => rfl⟩
    · intro key
      have total := Table.sum_set_stored found (reservation.release dbNow chargedWindow) (fun _ row => row.places key)
      rw [(released_row_holds_nothing released key).1] at total
      exact total
    · intro key
      have total := Table.sum_set_stored found (reservation.release dbNow chargedWindow) (fun _ row => row.tokens key)
      rw [(released_row_holds_nothing released key).2] at total
      exact total
    · intro other window here
      obtain ⟨same, here⟩ := Table.get?_erase_cases here
      exact ⟨same, window, here⟩
  · intro other row here
    by_cases same : other = workItemId
    · subst same
      obtain rfl := Option.some.inj (found.symm.trans here)
      refine ⟨_, Table.get?_set_self .., ?_, ?_⟩
      · intro scope
        cases scope with
        | actor => rfl
        | repository => rfl
        | installation => rfl
      · intro releasedAt before
        rw [unreleased] at before
        cases before
    · exact ⟨row, (Table.get?_set_of_ne _ _ _ same).trans here, fun _ => rfl, fun _ before => before⟩

theorem conserved_begin (conserved : db.Conserved) {old new : WorkStatus}
    (began : beginRelease workItemId old new db = some after) : after.Conserved ∧ db.ReservationsFollow after := by
  obtain ⟨reservation, found, unreleased, _, rfl⟩ := beginRelease_cases began
  refine ⟨{ conserved with releasing := ?_ }, reservations_follow_refl db⟩
  intro other chargedWindow here
  by_cases same : other = workItemId
  · subst same
    exact ⟨reservation, found, unreleased⟩
  · exact conserved.releasing other chargedWindow ((Table.get?_set_of_ne _ _ _ same).symm.trans here)

theorem conserved_abort (conserved : db.Conserved) (workItemId : WorkItemId) :
    (abortRelease workItemId db).Conserved := by
  refine { conserved with releasing := ?_ }
  intro other chargedWindow here
  exact conserved.releasing other chargedWindow (Table.get?_erase_cases here).2

-- How a receipt rewrites its reservation.
structure ReceiptRow (reservation row : AskQuotaReservation) (reservedRelease : Nat) : Prop where
  bucketKey : ∀ scope, row.bucketKey scope = reservation.bucketKey scope
  releasedAt : row.releasedAt = reservation.releasedAt
  settled : row.reservedProviderTokens = 0
  released : reservedRelease = reservation.reservedProviderTokens

theorem ReceiptRow.places {reservation row : AskQuotaReservation} {reservedRelease : Nat}
    (rewritten : ReceiptRow reservation row reservedRelease) (key : AskQuotaBucketKey) :
    row.places key = reservation.places key := by
  unfold AskQuotaReservation.places
  rw [rewritten.bucketKey, rewritten.releasedAt]

-- The rows and buckets after a receipt hold what they held, less the tokens it releases.
theorem conserved_receipt (conserved : db.Conserved) {reservation row : AskQuotaReservation}
    {reservedRelease : Nat} {receipts : Table (WorkItemId × ExecutionId) Nat} {buckets : AskQuotaBuckets}
    (found : db.reservations.get? workItemId = some reservation)
    (rewritten : ReceiptRow reservation row reservedRelease)
    (counted : ∀ key, ((buckets.get? key).map AskQuotaBucket.outstandingCount).getD 0 = db.outstanding key)
    (freed : ∀ key, ((buckets.get? key).map AskQuotaBucket.providerTokensReserved).getD 0 =
      db.reserved key - if key = reservation.bucketKey .installation then reservedRelease else 0)
    (stored : ∀ key, (db.buckets.get? key).isSome = true → (buckets.get? key).isSome = true) :
    (⟨buckets, db.reservations.set workItemId row, receipts, db.releasing⟩ : AskQuotaDb).Conserved ∧
      db.ReservationsFollow ⟨buckets, db.reservations.set workItemId row, receipts, db.releasing⟩ := by
  have rows : ∀ other later, (db.reservations.set workItemId row).get? other = some later →
      (other = workItemId ∧ row = later) ∨ (other ≠ workItemId ∧ db.reservations.get? other = some later) :=
    fun other later here => Table.get?_set_cases here
  refine ⟨⟨?_, ?_, ?_, ?_, ?_, ?_⟩, ?_⟩
  · intro key
    have total := Table.sum_set_stored found row (fun _ row => row.places key)
    rw [rewritten.places] at total
    refine (counted key).trans ((conserved.outstanding key).trans ?_)
    unfold AskQuotaDb.unreleased
    dsimp only
    omega
  · intro key
    have total := Table.sum_set_stored found row (fun _ row => row.tokens key)
    have held := freed key
    rw [conserved.reserved] at held
    refine held.trans ?_
    unfold AskQuotaDb.unreleasedTokens
    dsimp only
    have own : row.tokens key = 0 := by
      unfold AskQuotaReservation.tokens
      rw [rewritten.settled, ite_self]
    by_cases released : reservation.releasedAt = none
    · have tokens : reservation.tokens key =
          if key = reservation.bucketKey .installation then reservedRelease else 0 := by
        unfold AskQuotaReservation.tokens
        rw [rewritten.released]
        simp only [released, true_and]
      rw [own, tokens] at total
      omega
    · have none_ : reservedRelease = 0 :=
        rewritten.released.trans (conserved.settled workItemId reservation found (.inr released))
      have tokens := (released_row_holds_nothing released key).2
      rw [own, tokens] at total
      rw [none_, ite_self]
      omega
  · intro other later here unreleased scope
    rcases rows other later here with ⟨rfl, rfl⟩ | ⟨_, before⟩
    · rw [rewritten.bucketKey]
      exact stored _ (conserved.stored other reservation found (rewritten.releasedAt.symm.trans unreleased) scope)
    · exact stored _ (conserved.stored other later before unreleased scope)
  · intro other later here
    rcases rows other later here with ⟨rfl, rfl⟩ | ⟨_, before⟩
    · rw [rewritten.settled]
      exact Nat.two_pow_pos 53
    · exact conserved.safe other later before
  · intro other later here known
    rcases rows other later here with ⟨rfl, rfl⟩ | ⟨_, before⟩
    · exact rewritten.settled
    · exact conserved.settled other later before known
  · intro other chargedWindow running
    obtain ⟨later, before, unreleased⟩ := conserved.releasing other chargedWindow running
    by_cases same : other = workItemId
    · subst same
      obtain rfl := Option.some.inj (found.symm.trans before)
      exact ⟨row, Table.get?_set_self .., rewritten.releasedAt.trans unreleased⟩
    · exact ⟨later, (Table.get?_set_of_ne _ _ _ same).trans before, unreleased⟩
  · intro other later here
    by_cases same : other = workItemId
    · subst same
      obtain rfl := Option.some.inj (found.symm.trans here)
      exact ⟨row, Table.get?_set_self .., rewritten.bucketKey, fun _ before => rewritten.releasedAt.trans before⟩
    · exact ⟨later, (Table.get?_set_of_ne _ _ _ same).trans here, fun _ => rfl, fun _ before => before⟩

theorem adjusted_counts (buckets : AskQuotaBuckets) (installation : AskQuotaBucketKey) (reservedRelease : Nat)
    (usedDelta : Int) (key : AskQuotaBucketKey) :
    (((updateBucket buckets installation (.adjust reservedRelease usedDelta)).get? key).map
        AskQuotaBucket.outstandingCount).getD 0 = ((buckets.get? key).map AskQuotaBucket.outstandingCount).getD 0 ∧
      (((updateBucket buckets installation (.adjust reservedRelease usedDelta)).get? key).map
        AskQuotaBucket.providerTokensReserved).getD 0 =
        ((buckets.get? key).map AskQuotaBucket.providerTokensReserved).getD 0 -
          (if key = installation then reservedRelease else 0) ∧
      ((updateBucket buckets installation (.adjust reservedRelease usedDelta)).get? key).isSome =
        (buckets.get? key).isSome := by
  rw [get?_updateBucket]
  by_cases same : key = installation
  · rw [if_pos same, if_pos same]
    cases buckets.get? key with
    | none => exact ⟨rfl, (Nat.zero_sub _).symm, rfl⟩
    | some bucket => exact ⟨rfl, rfl, rfl⟩
  · rw [if_neg same, if_neg same]
    exact ⟨rfl, rfl, rfl⟩

theorem conserved_usage (conserved : db.Conserved) {executionId : ExecutionId}
    {actualTokens : Nat} (recorded : recordAskProviderUsage workItemId executionId actualTokens db = some after) :
    after.Conserved ∧ db.ReservationsFollow after := by
  rcases recordAskProviderUsage_cases recorded with ⟨rfl, _⟩ | ⟨reservation, bucket, found, _, _, _, rfl⟩
  · exact ⟨conserved, reservations_follow_refl after⟩
  · have keys : ∀ scope, (reservation.withUsage actualTokens).bucketKey scope = reservation.bucketKey scope := by
      intro scope
      cases scope with
      | actor => rfl
      | repository => rfl
      | installation => rfl
    have settled : reservation.providerUsageKnown = true ∨ reservation.releasedAt.isSome = true →
        reservation.reservedProviderTokens = 0 := by
      intro known
      refine conserved.settled workItemId reservation found (known.imp_right ?_)
      intro released unreleased
      rw [unreleased] at released
      cases released
    have adjusts : ∀ (usedDelta : Int) (reservedRelease : Nat), reservedRelease = reservation.reservedProviderTokens →
        (applyReceipt db workItemId executionId actualTokens reservation (.adjust reservedRelease usedDelta)).Conserved ∧
          db.ReservationsFollow
            (applyReceipt db workItemId executionId actualTokens reservation (.adjust reservedRelease usedDelta)) := by
      intro usedDelta reservedRelease released
      have counts := adjusted_counts db.buckets (reservation.bucketKey .installation) reservedRelease usedDelta
      refine conserved_receipt conserved found ⟨keys, rfl, rfl, released⟩ (fun key => (counts key).1)
        (fun key => (counts key).2.1) ?_
      intro key stored
      rwa [(counts key).2.2]
    rcases receiptApplication_cases reservation bucket actualTokens with
      ⟨late, application⟩ |
      ⟨_, ⟨known, application⟩ | ⟨_, _, application⟩ | ⟨_, released, application⟩⟩
    · rw [application]
      rw [AskQuotaReservation.late, Bool.and_eq_true, Bool.and_eq_true] at late
      have none_ := settled (.inr late.1.1)
      refine conserved_receipt conserved found ⟨keys, rfl, none_, none_.symm⟩ (fun _ => rfl) ?_ (fun _ stored => stored)
      intro key
      rw [ite_self]
      rfl
    · rw [application]
      exact adjusts _ 0 (settled (.inl known)).symm
    · rw [application]
      exact adjusts _ _ (numberValue_of_lt (conserved.safe workItemId reservation found))
    · rw [application]
      exact adjusts _ 0 (settled (.inr released)).symm

theorem conserved_admission (conserved : db.Conserved) {config : AskQuotaConfig} {now dbNow : Nat}
    {input : AskAdmissionInput} {created : Bool} {admission : AskQuotaAdmission}
    (admitted : admitAsk double config now dbNow input created db = some (admission, after)) :
    after.Conserved ∧ db.ReservationsFollow after := by
  rcases admitAsk_cases admitted with ⟨reason, rfl, rfl⟩ | ⟨rfl, fresh, _, rfl⟩
  · exact ⟨conserved_locked double conserved config now dbNow input, reservations_follow_refl db⟩
  · have other : ∀ {workItemId : WorkItemId} {reservation : AskQuotaReservation},
        db.reservations.get? workItemId = some reservation → workItemId ≠ input.workItemId := by
      intro workItemId reservation stored
      exact Table.ne_of_stored stored fresh
    cases created with
    | true =>
        refine ⟨conserved_admitted double conserved config now dbNow input fresh, ?_⟩
        intro workItemId reservation stored
        exact ⟨reservation, (Table.get?_set_of_ne _ _ _ (other stored)).trans stored, fun _ => rfl, fun _ before => before⟩
    | false =>
        refine ⟨conserved_admitted_released double conserved config now dbNow input fresh, ?_⟩
        intro workItemId reservation stored
        refine ⟨reservation, ?_, fun _ => rfl, fun _ before => before⟩
        rw [if_neg Bool.false_ne_true, releaseAskQuotaReservation_admitted]
        refine (Table.get?_erase _ _ _).trans ?_
        rw [if_neg (other stored)]
        exact (Table.get?_set_of_ne _ _ _ (other stored)).trans stored

theorem conserved_step (conserved : db.Conserved) {event : AskQuotaEvent} (moved : askQuotaStep double db event = some after) :
    after.Conserved ∧ db.ReservationsFollow after := by
  cases event with
  | admission config now dbNow input created =>
      obtain ⟨⟨admission, reached⟩, admitted, rfl⟩ := Option.map_eq_some_iff.mp moved
      exact conserved_admission double conserved admitted
  | beginRelease workItemId old new => exact conserved_begin conserved moved
  | finishRelease workItemId dbNow => exact conserved_finish conserved moved
  | abortRelease workItemId =>
      obtain rfl := Option.some.inj moved
      exact ⟨conserved_abort conserved workItemId, reservations_follow_refl db⟩
  | receipt workItemId executionId actualTokens => exact conserved_usage conserved moved

end Steps

section Limits

variable (double : ℚ → ℚ) {config : AskQuotaConfig} {now dbNow : Nat} {input : AskAdmissionInput}

-- The balance that an admission finds in a bucket: refilled, or full where the bucket is new.
def AskQuotaDb.refilled (db : AskQuotaDb) (config : AskQuotaConfig) (now dbNow : Nat) (key : AskQuotaBucketKey) : ℚ :=
  refilledBalance double config now key.scope ((db.buckets.get? key).getD (freshBucket config dbNow key.scope))

-- No bucket goes over its limits by an admission, and a rejected one takes nothing.
def AskQuotaDb.AdmissionWithinLimits (db after : AskQuotaDb) (config : AskQuotaConfig) (now dbNow : Nat)
    (input : AskAdmissionInput) : AskQuotaAdmission → Prop
  | .admitted tokens =>
    (∀ scope, db.outstanding (input.bucketKey scope) < config.maxOutstanding scope ∧
      after.outstanding (input.bucketKey scope) ≤ config.maxOutstanding scope ∧
      ∃ bucket, after.buckets.get? (input.bucketKey scope) = some bucket ∧ 0 ≤ bucket.tokenBalance ∧
        bucket.tokenBalance + 1 = db.refilled double config now dbNow (input.bucketKey scope) ∧
        bucket.tokenBalance + 1 ≤ config.burst scope) ∧
    (0 < tokens → ∀ bucket, after.buckets.get? (input.bucketKey .installation) = some bucket →
      bucket.providerTokensUsed + bucket.providerTokensReserved ≤ config.providerBudgetTokens)
  | .throttled _ =>
    (∀ key, after.outstanding key = db.outstanding key ∧ after.reserved key = db.reserved key) ∧
    ∀ key bucket, after.buckets.get? key = some bucket →
      db.buckets.get? key = some bucket ∨
        key = input.bucketKey key.scope ∧ bucket.tokenBalance = db.refilled double config now dbNow key

theorem scope_within {buckets : AskQuotaBuckets} (granted : admissionRejection config input buckets = none)
    {scope : AskQuotaScope} {bucket : AskQuotaBucket} (stored : buckets.get? (input.bucketKey scope) = some bucket) :
    bucket.outstandingCount < config.maxOutstanding scope ∧ 1 ≤ bucket.tokenBalance := by
  rw [admissionRejection, Option.or_eq_none_iff, List.findSome?_eq_none_iff] at granted
  have listed : scope ∈ admissionCheckOrder := by
    cases scope with
    | actor => decide
    | repository => decide
    | installation => decide
  have passed := granted.1 scope listed
  rw [scopeRejection, stored, Option.bind_some] at passed
  by_cases full : config.maxOutstanding scope ≤ bucket.outstandingCount
  · rw [if_pos full] at passed
    cases passed
  · rw [if_neg full] at passed
    by_cases empty : bucket.tokenBalance < 1
    · rw [if_pos empty] at passed
      cases passed
    · exact ⟨Nat.lt_of_not_le full, not_lt.mp empty⟩

theorem provider_within {buckets : AskQuotaBuckets} (granted : admissionRejection config input buckets = none)
    {bucket : AskQuotaBucket} (stored : buckets.get? (input.bucketKey .installation) = some bucket)
    (reserves : 0 < providerReservation config) :
    bucket.providerTokensUsed + bucket.providerTokensReserved + providerReservation config ≤
      config.providerBudgetTokens := by
  rw [admissionRejection, Option.or_eq_none_iff] at granted
  have passed := granted.2
  rw [providerRejection, stored, Option.bind_some] at passed
  by_cases beyond : 0 < providerReservation config ∧ config.providerBudgetTokens < providerTotal config bucket
  · rw [if_pos beyond] at passed
    cases passed
  · -- Each of the three doubles is within a safe bound, so each is exact.
    have safe := config.budget_safe
    have total : providerTotal config bucket ≤ config.providerBudgetTokens := by
      by_contra more
      exact beyond ⟨reserves, Nat.lt_of_not_le more⟩
    have outer := le_of_numberValue_le safe total
    have middle : bucket.providerTokensUsed + numberValue bucket.providerTokensReserved ≤ config.providerBudgetTokens :=
      le_of_numberValue_le safe (by omega)
    have inner : bucket.providerTokensReserved ≤ config.providerBudgetTokens := le_of_numberValue_le safe (by omega)
    rw [numberValue_of_lt (by omega : bucket.providerTokensReserved < 2 ^ 53)] at outer middle
    rw [numberValue_of_lt (by omega)] at outer
    exact outer

-- The rows an admission leaves, whether it keeps its reservation or not.
theorem admitted_bucket (db : AskQuotaDb) (created : Bool) (scope : AskQuotaScope) {locked : AskQuotaBucket}
    (stored : (lockedDb double config now dbNow input db).buckets.get? (input.bucketKey scope) = some locked) :
    ∃ bucket, (if created then admittedDb double config now dbNow input db
        else releaseAskQuotaReservation (admittedDb double config now dbNow input db) input.workItemId).buckets.get?
          (input.bucketKey scope) = some bucket ∧
      bucket.tokenBalance = locked.tokenBalance - 1 ∧ bucket.providerTokensUsed = locked.providerTokensUsed ∧
      bucket.outstandingCount ≤ locked.outstandingCount + 1 ∧
      bucket.providerTokensReserved ≤
        locked.providerTokensReserved + if scope = .installation then providerReservation config else 0 := by
  have taken : (admittedDb double config now dbNow input db).buckets.get? (input.bucketKey scope) =
      some (takenBucket config scope locked) := by
    refine (get?_taken config input _ _).trans ?_
    rw [if_pos (show input.bucketKey scope = input.bucketKey (input.bucketKey scope).scope from rfl), stored]
    rfl
  cases created with
  | true => exact ⟨_, taken, rfl, rfl, Nat.le_refl _, Nat.le_refl _⟩
  | false =>
      have named : input.bucketKey scope =
          (input.reservation (providerReservation config)).bucketKey (input.bucketKey scope).scope :=
        (reservation_bucketKey input _ _).symm
      refine ⟨releasedBucket 0 (providerReservation config) scope (takenBucket config scope locked), ?_, rfl, ?_, ?_, ?_⟩
      · rw [if_neg Bool.false_ne_true, releaseAskQuotaReservation_admitted]
        refine (get?_releasedBuckets _ _ _ _ _).trans ?_
        rw [if_pos named, taken]
        rfl
      · simp only [releasedBucket, takenBucket, ite_self, Nat.add_zero]
      · simp only [releasedBucket, takenBucket]
        omega
      · simp only [releasedBucket, takenBucket]
        omega

theorem admission_within_limits {db after : AskQuotaDb} {created : Bool} {admission : AskQuotaAdmission}
    (admitted : admitAsk double config now dbNow input created db = some (admission, after)) :
    db.AdmissionWithinLimits double after config now dbNow input admission := by
  rcases admitAsk_cases admitted with ⟨reason, rfl, rfl⟩ | ⟨rfl, _, granted, rfl⟩
  · refine ⟨locked_counts double config now dbNow input db, ?_⟩
    intro key bucket stored
    have row := get?_lockAndRefillBuckets double config now dbNow input db.buckets key
    rw [show (lockAndRefillBuckets double config now dbNow input db.buckets).get? key = some bucket from stored] at row
    by_cases named : key = input.bucketKey key.scope
    · rw [if_pos named] at row
      obtain rfl := Option.some.inj row
      exact .inr ⟨named, rfl⟩
    · rw [if_neg named] at row
      exact .inl row.symm
  · constructor
    · intro scope
      obtain ⟨locked, stored⟩ := locked_stored double config now dbNow input db scope
      obtain ⟨within, balance⟩ := scope_within granted stored
      obtain ⟨bucket, found, taken, _, count, _⟩ := admitted_bucket double db created scope stored
      have before := (locked_counts double config now dbNow input db (input.bucketKey scope)).1
      have refilled : locked.tokenBalance = db.refilled double config now dbNow (input.bucketKey scope) := by
        have row := get?_lockAndRefillBuckets double config now dbNow input db.buckets (input.bucketKey scope)
        rw [if_pos (show input.bucketKey scope = input.bucketKey (input.bucketKey scope).scope from rfl)] at row
        obtain rfl := Option.some.inj (stored.symm.trans row)
        rfl
      rw [AskQuotaDb.outstanding, stored] at before
      have same : locked.outstandingCount = db.outstanding (input.bucketKey scope) := before
      have left_ : bucket.tokenBalance + 1 = locked.tokenBalance := by
        rw [taken, sub_add_cancel]
      refine ⟨by omega, ?_, bucket, found, by linarith only [left_, balance], left_.trans refilled, ?_⟩
      · rw [AskQuotaDb.outstanding, found]
        change bucket.outstandingCount ≤ _
        omega
      · rw [left_, refilled]
        exact min_le_left _ _
    · intro reserves bucket found
      obtain ⟨locked, stored⟩ := locked_stored double config now dbNow input db .installation
      have within := provider_within granted stored reserves
      obtain ⟨row, foundRow, _, used, _, tokens⟩ := admitted_bucket double db created .installation stored
      obtain rfl := Option.some.inj (found.symm.trans foundRow)
      rw [if_pos rfl] at tokens
      omega

end Limits

theorem ask_quota_conserved (double : ℚ → ℚ) (s t : AskQuotaDb) (conserved : s.Conserved)
    (run : Reaches (askQuotaStep double) (fun _ _ => True) s t) :
    t.Conserved ∧ s.ReservationsFollow t ∧
    ∀ config now dbNow input created admission after,
      admitAsk double config now dbNow input created t = some (admission, after) →
        t.AdmissionWithinLimits double after config now dbNow input admission := by
  have kept : t.Conserved ∧ s.ReservationsFollow t := by
    refine Reaches.invariant (fun db => db.Conserved ∧ s.ReservationsFollow db)
      ⟨conserved, reservations_follow_refl s⟩ ?_ run
    intro db event after before _ moved
    obtain ⟨conservedAfter, follows⟩ := conserved_step double before.1 moved
    exact ⟨conservedAfter, reservations_follow_trans before.2 follows⟩
  exact ⟨kept.1, kept.2, fun _ _ _ _ _ _ _ admitted => admission_within_limits double admitted⟩

section Histories

def emptyQuota : AskQuotaDb := ⟨Table.empty, Table.empty, Table.empty, Table.empty⟩

theorem emptyQuota_conserved : emptyQuota.Conserved where
  outstanding _ := rfl
  reserved _ := rfl
  stored _ _ found := by cases found
  safe _ _ found := by cases found
  settled _ _ found := by cases found
  releasing _ _ found := by cases found

-- A budget of 100 tokens for each window of a second, 40 of them for each ask.
def smallQuota : AskQuotaConfig where
  maxOutstanding _ := 2
  burst _ := 3
  refillSeconds _ := 60
  providerBudgetTokens := 100
  providerBudgetWindowSeconds := 1
  providerReservationTokens := 40
  budget_safe := by omega
  reservation_safe := by omega
  window_positive := le_refl 1

def mention (workItemId : WorkItemId) : AskAdmissionInput := ⟨workItemId, 7, "octo", "Repo", 5⟩

def quotaRun (events : List AskQuotaEvent) : AskQuotaDb :=
  runTo (askQuotaStep id) (fun _ _ => decide True) events emptyQuota emptyQuota

-- Two asks are admitted, one of them reports its usage and ends, and the other one ends without a report.
theorem ended_asks_conserved :
    (quotaRun [.admission smallQuota 0 0 (mention 1) true, .admission smallQuota 0 0 (mention 2) true, .receipt 1 8 25,
      .beginRelease 1 .running .completed, .finishRelease 1 5, .beginRelease 2 .queued .cancelled,
      .finishRelease 2 6]).Conserved :=
  (ask_quota_conserved id emptyQuota _ emptyQuota_conserved (reaches_runTo _ _ _ (by decide +kernel))).1

end Histories
end PrAgent
