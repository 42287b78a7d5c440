import PrAgent.Table
import PrAgent.Run
set_option autoImplicit false

namespace PrAgent

abbrev WorkItemId := Nat
abbrev ResourceKey := Nat

inductive WorkType
  | review | ask | description | triage | verification
  deriving DecidableEq, Repr

-- Primary key of `pr_actor_leases`.
structure LeaseKey where
  resourceKey : ResourceKey
  workType : WorkType
  deriving DecidableEq, Repr

structure Lease where
  leaseEpoch : Nat
  workItemId : Option WorkItemId
  holderId : Option Nat
  acquiredAt : Option Nat
  renewedAt : Option Nat
  expiresAt : Nat
  deriving DecidableEq, Repr

abbrev Leases := Table LeaseKey Lease

structure LeaseHolder where
  workItemId : WorkItemId
  leaseEpoch : Nat
  deriving DecidableEq, Repr

inductive LeaseAcquisition
  | acquired (leaseEpoch : Nat)
  | refused (heldByWorkItemId : Option WorkItemId) (leaseEpoch : Nat)
  deriving DecidableEq, Repr

-- `l.work_item_id IS NULL OR l.expires_at <= now()`.
def Lease.free (now : Nat) (lease : Lease) : Bool := lease.workItemId.isNone || lease.expiresAt ≤ now

def acquirePrActorLease (now : Nat) (leases : Leases) (key : LeaseKey) (workItemId : WorkItemId) (holderId : Nat)
    (ttlSeconds : Nat) : LeaseAcquisition × Leases :=
  match leases.get? key with
  | none =>
    (.acquired 1, leases.set key
      { leaseEpoch := 1, workItemId := some workItemId, holderId := some holderId,
        acquiredAt := some now, renewedAt := some now, expiresAt := now + ttlSeconds })
  | some lease =>
    if lease.free now then
      (.acquired (lease.leaseEpoch + 1), leases.set key
        { leaseEpoch := lease.leaseEpoch + 1, workItemId := some workItemId, holderId := some holderId,
          acquiredAt := some now, renewedAt := some now, expiresAt := now + ttlSeconds })
    else (.refused lease.workItemId lease.leaseEpoch, leases)

-- The statement matches epoch and holder. It does not read `expires_at`.
def renewPrActorLease (now : Nat) (leases : Leases) (key : LeaseKey) (leaseEpoch : Nat) (ttlSeconds : Nat)
    (workItemId : WorkItemId) : Bool × Leases :=
  match leases.get? key with
  | some lease =>
    if lease.leaseEpoch = leaseEpoch ∧ lease.workItemId = some workItemId then
      (true, leases.set key { lease with renewedAt := some now, expiresAt := now + ttlSeconds })
    else (false, leases)
  | none => (false, leases)

-- `SET work_item_id = NULL, holder_id = NULL, expires_at = now()`. The epoch stays.
def Lease.clear (now : Nat) (lease : Lease) : Lease :=
  { lease with workItemId := none, holderId := none, expiresAt := now }

def releasePrActorLeaseHeldByWorkItems (now : Nat) (leases : Leases) (key : LeaseKey)
    (holders : List LeaseHolder) : Leases :=
  match leases.get? key with
  | some lease =>
    if holders.any fun holder => lease.workItemId = some holder.workItemId ∧ lease.leaseEpoch = holder.leaseEpoch then
      leases.set key (lease.clear now)
    else leases
  | none => leases

def releasePrActorLease (now : Nat) (leases : Leases) (key : LeaseKey) (leaseEpoch : Nat) : Leases :=
  match leases.get? key with
  | some lease => if lease.leaseEpoch = leaseEpoch then leases.set key (lease.clear now) else leases
  | none => leases

-- A lease row that names the work item and the epoch, whether or not it has expired.
def Lease.ownedBy (workItemId : WorkItemId) (leaseEpoch : Nat) (lease : Lease) : Bool :=
  lease.workItemId = some workItemId ∧ lease.leaseEpoch = leaseEpoch

def ownsPrActorLease (leases : Leases) (workItemId : WorkItemId) (leaseEpoch : Nat) : Bool :=
  leases.any fun _ lease => lease.ownedBy workItemId leaseEpoch

def isPrActorLeaseHeld (now : Nat) (leases : Leases) (workItemId : WorkItemId) (leaseEpoch : Nat) : Bool :=
  leases.any fun _ lease => lease.ownedBy workItemId leaseEpoch && now < lease.expiresAt

structure LeaseState where
  now : Nat
  leases : Leases

def LeaseState.held (s : LeaseState) (workItemId : WorkItemId) (leaseEpoch : Nat) : Bool :=
  isPrActorLeaseHeld s.now s.leases workItemId leaseEpoch

-- `$epoch::bigint IS NULL OR EXISTS (SELECT 1 FROM pr_actor_leases WHERE … AND expires_at > now())`.
def LeaseState.fenced (s : LeaseState) (workItemId : WorkItemId) : Option Nat → Bool
  | none => true
  | some leaseEpoch => s.held workItemId leaseEpoch

-- Everything that can happen to the lease table. Acquisition always uses the key of the acquiring work item
-- (`leaseKey` is built from its own row); the other statements take any key and epoch.
inductive LeaseMove
  | acquire (workItemId : WorkItemId) (holderId ttlSeconds : Nat)
  | renew (key : LeaseKey) (leaseEpoch ttlSeconds : Nat) (workItemId : WorkItemId)
  | releaseHeldByWorkItems (key : LeaseKey) (holders : List LeaseHolder)
  | release (key : LeaseKey) (leaseEpoch : Nat)
  | elapse (seconds : Nat)
  deriving DecidableEq, Repr

-- `resource_key` and `type` of a work item: columns no statement updates.
variable (leaseKeyOf : WorkItemId → LeaseKey)

def LeaseMove.apply (state : LeaseState) : LeaseMove → LeaseState
  | .acquire workItemId holderId ttlSeconds =>
    { state with leases := (acquirePrActorLease state.now state.leases (leaseKeyOf workItemId) workItemId holderId
        ttlSeconds).2 }
  | .renew key leaseEpoch ttlSeconds workItemId =>
    { state with leases := (renewPrActorLease state.now state.leases key leaseEpoch ttlSeconds workItemId).2 }
  | .releaseHeldByWorkItems key holders =>
    { state with leases := releasePrActorLeaseHeldByWorkItems state.now state.leases key holders }
  | .release key leaseEpoch => { state with leases := releasePrActorLease state.now state.leases key leaseEpoch }
  | .elapse seconds => { state with now := state.now + seconds }

-- What one move can do to the row under one key.
inductive LeaseChange (now : Nat) (key : LeaseKey) : Option Lease → Option Lease → Prop
  | same (row : Option Lease) : LeaseChange now key row row
  | acquired (row : Option Lease) (lease : Lease) (workItemId : WorkItemId)
      (free : ∀ old, row = some old → old.free now = true) (home : key = leaseKeyOf workItemId)
      (holder : lease.workItemId = some workItemId)
      (epoch : lease.leaseEpoch = (row.map Lease.leaseEpoch).getD 0 + 1) : LeaseChange now key row (some lease)
  | renewed (lease renewed : Lease) (workItemId : WorkItemId) (held : lease.workItemId = some workItemId)
      (holder : renewed.workItemId = lease.workItemId) (epoch : renewed.leaseEpoch = lease.leaseEpoch) :
      LeaseChange now key (some lease) (some renewed)
  | cleared (lease : Lease) : LeaseChange now key (some lease) (some (lease.clear now))

theorem acquire_change (now : Nat) (leases : Leases) (workItemId : WorkItemId) (holderId ttlSeconds : Nat)
    (key : LeaseKey) : LeaseChange leaseKeyOf now key (leases.get? key)
      ((acquirePrActorLease now leases (leaseKeyOf workItemId) workItemId holderId ttlSeconds).2.get? key) := by
  unfold acquirePrActorLease
  split
  · next absent =>
    rw [Table.get?_set]
    split
    · next same =>
      subst same
      rw [absent]
      exact .acquired none _ workItemId (by simp) rfl rfl rfl
    · exact .same _
  · next lease stored =>
    split
    · next free =>
      rw [Table.get?_set]
      split
      · next same =>
        subst same
        rw [stored]
        exact .acquired (some lease) _ workItemId (by rintro _ ⟨⟩; exact free) rfl rfl rfl
      · exact .same _
    · exact .same _

theorem renew_change (now : Nat) (leases : Leases) (renewed : LeaseKey) (leaseEpoch ttlSeconds : Nat)
    (workItemId : WorkItemId) (key : LeaseKey) : LeaseChange leaseKeyOf now key (leases.get? key)
      ((renewPrActorLease now leases renewed leaseEpoch ttlSeconds workItemId).2.get? key) := by
  unfold renewPrActorLease
  split
  · next lease stored =>
    split
    · next owned =>
      rw [Table.get?_set]
      split
      · next same =>
        subst same
        rw [stored]
        exact .renewed lease _ workItemId owned.2 rfl rfl
      · exact .same _
    · exact .same _
  · exact .same _

theorem clear_change (now : Nat) (leases : Leases) (cleared : LeaseKey) (lease : Lease)
    (stored : leases.get? cleared = some lease) (key : LeaseKey) : LeaseChange leaseKeyOf now key (leases.get? key)
      ((leases.set cleared (lease.clear now)).get? key) := by
  rw [Table.get?_set]
  split
  · next same =>
    subst same
    rw [stored]
    exact .cleared lease
  · exact .same _

theorem LeaseMove.change (state : LeaseState) (move : LeaseMove) (key : LeaseKey) :
    LeaseChange leaseKeyOf state.now key (state.leases.get? key) ((move.apply leaseKeyOf state).leases.get? key) := by
  cases move with
  | acquire workItemId holderId ttlSeconds =>
    exact acquire_change leaseKeyOf state.now state.leases workItemId holderId ttlSeconds key
  | renew renewed leaseEpoch ttlSeconds workItemId =>
    exact renew_change leaseKeyOf state.now state.leases renewed leaseEpoch ttlSeconds workItemId key
  | releaseHeldByWorkItems cleared holders =>
    simp only [LeaseMove.apply, releasePrActorLeaseHeldByWorkItems]
    split
    · next lease stored =>
      split
      · exact clear_change leaseKeyOf state.now state.leases cleared lease stored key
      · exact .same _
    · exact .same _
  | release cleared leaseEpoch =>
    simp only [LeaseMove.apply, releasePrActorLease]
    split
    · next lease stored =>
      split
      · exact clear_change leaseKeyOf state.now state.leases cleared lease stored key
      · exact .same _
    · exact .same _
  | elapse seconds => exact .same _

-- A work item is only ever named by the lease row of its own resource and type.
def HoldersAtHome (leases : Leases) : Prop :=
  ∀ key lease workItemId, leases.get? key = some lease → lease.workItemId = some workItemId →
    key = leaseKeyOf workItemId

-- The epoch was handed out for the work item's key: no row of a lower epoch can stand there any more.
def EpochIssued (leases : Leases) (workItemId : WorkItemId) (leaseEpoch : Nat) : Prop :=
  ∃ lease, leases.get? (leaseKeyOf workItemId) = some lease ∧ leaseEpoch ≤ lease.leaseEpoch

theorem ownsPrActorLease_iff (leases : Leases) (workItemId : WorkItemId) (leaseEpoch : Nat) :
    ownsPrActorLease leases workItemId leaseEpoch = true ↔
      ∃ key lease, leases.get? key = some lease ∧ lease.workItemId = some workItemId ∧ lease.leaseEpoch = leaseEpoch := by
  simp [ownsPrActorLease, Table.any_iff, Lease.ownedBy]

theorem isPrActorLeaseHeld_iff (now : Nat) (leases : Leases) (workItemId : WorkItemId) (leaseEpoch : Nat) :
    isPrActorLeaseHeld now leases workItemId leaseEpoch = true ↔
      ∃ key lease, leases.get? key = some lease ∧ lease.workItemId = some workItemId ∧
        lease.leaseEpoch = leaseEpoch ∧ now < lease.expiresAt := by
  simp [isPrActorLeaseHeld, Table.any_iff, Lease.ownedBy, and_assoc]

theorem owns_of_held {now : Nat} {leases : Leases} {workItemId : WorkItemId} {leaseEpoch : Nat}
    (held : isPrActorLeaseHeld now leases workItemId leaseEpoch = true) :
    ownsPrActorLease leases workItemId leaseEpoch = true := by
  obtain ⟨key, lease, stored, holder, epoch, _⟩ := (isPrActorLeaseHeld_iff ..).mp held
  exact (ownsPrActorLease_iff ..).mpr ⟨key, lease, stored, holder, epoch⟩

variable {leaseKeyOf}

theorem HoldersAtHome.apply {state : LeaseState} (home : HoldersAtHome leaseKeyOf state.leases) (move : LeaseMove) :
    HoldersAtHome leaseKeyOf (move.apply leaseKeyOf state).leases := by
  intro key lease workItemId stored holder
  have change := move.change leaseKeyOf state key
  rw [stored] at change
  generalize before : state.leases.get? key = row at change
  cases change with
  | same => exact home key lease workItemId before holder
  | acquired _ _ acquirer free at_home holder' epoch =>
    obtain rfl : acquirer = workItemId := Option.some.inj (holder'.symm.trans holder)
    exact at_home
  | renewed old _ _ held holder' epoch => exact home key old workItemId before (holder' ▸ holder)
  | cleared old => simp [Lease.clear] at holder

theorem EpochIssued.apply {state : LeaseState} {workItemId : WorkItemId} {leaseEpoch : Nat}
    (issued : EpochIssued leaseKeyOf state.leases workItemId leaseEpoch) (move : LeaseMove) :
    EpochIssued leaseKeyOf (move.apply leaseKeyOf state).leases workItemId leaseEpoch := by
  obtain ⟨lease, stored, le⟩ := issued
  have change := move.change leaseKeyOf state (leaseKeyOf workItemId)
  rw [stored] at change
  generalize after : (move.apply leaseKeyOf state).leases.get? (leaseKeyOf workItemId) = row at change
  cases change with
  | same => exact ⟨lease, after, le⟩
  | acquired _ acquired _ free home holder epoch =>
    refine ⟨acquired, after, ?_⟩
    simp only [Option.map_some, Option.getD_some] at epoch
    omega
  | renewed _ renewed _ held holder epoch => exact ⟨renewed, after, epoch ▸ le⟩
  | cleared => exact ⟨lease.clear state.now, after, le⟩

-- An issued epoch that the work item has lost is never regained.
theorem owns_of_owns_apply {state : LeaseState} {workItemId : WorkItemId} {leaseEpoch : Nat}
    (issued : EpochIssued leaseKeyOf state.leases workItemId leaseEpoch) (move : LeaseMove)
    (owns : ownsPrActorLease (move.apply leaseKeyOf state).leases workItemId leaseEpoch = true) :
    ownsPrActorLease state.leases workItemId leaseEpoch = true := by
  obtain ⟨issuedLease, issuedAt, le⟩ := issued
  obtain ⟨key, lease, stored, holder, epoch⟩ := (ownsPrActorLease_iff ..).mp owns
  have change := move.change leaseKeyOf state key
  rw [stored] at change
  generalize before : state.leases.get? key = row at change
  rw [ownsPrActorLease_iff]
  cases change with
  | same => exact ⟨key, lease, before, holder, epoch⟩
  | acquired _ _ acquirer free home holder' epoch' =>
    obtain rfl : acquirer = workItemId := Option.some.inj (holder'.symm.trans holder)
    rw [← home, before] at issuedAt
    subst issuedAt
    simp only [Option.map_some, Option.getD_some] at epoch'
    omega
  | renewed old _ _ held holder' epoch' => exact ⟨key, old, before, holder' ▸ holder, epoch' ▸ epoch⟩
  | cleared old => simp [Lease.clear] at holder

-- Two owners of the leases of one key are the same work item and epoch.
theorem owner_unique {leases : Leases} (home : HoldersAtHome leaseKeyOf leases) {first second : WorkItemId}
    {firstEpoch secondEpoch : Nat} (sameKey : leaseKeyOf first = leaseKeyOf second)
    (ownsFirst : ownsPrActorLease leases first firstEpoch = true)
    (ownsSecond : ownsPrActorLease leases second secondEpoch = true) : first = second ∧ firstEpoch = secondEpoch := by
  obtain ⟨key, lease, stored, holder, epoch⟩ := (ownsPrActorLease_iff ..).mp ownsFirst
  obtain ⟨key', lease', stored', holder', epoch'⟩ := (ownsPrActorLease_iff ..).mp ownsSecond
  obtain rfl : key = key' := (home _ _ _ stored holder).trans (sameKey.trans (home _ _ _ stored' holder').symm)
  obtain rfl : lease = lease' := Option.some.inj (stored.symm.trans stored')
  exact ⟨Option.some.inj (holder.symm.trans holder'), epoch.symm.trans epoch'⟩

end PrAgent
