import PrAgent.PublishOnceSafe
set_option autoImplicit false

namespace PrAgent

section Runs

variable (V : Type)

abbrev PublishPool := Pool PublishSlot (publishInterface V) (PublishState V) (PublishOnceParams V) (Unknown V)

abbrev PublishPoolEvent := PoolEvent PublishSlot (PublishOnceParams V) (PublishReply V) LeaseMove

variable {V}

-- A fresh database with nothing running.
def PublishPool.empty : PublishPool V :=
  ⟨{ now := 0, leases := .empty, intents := .empty, log := [] }, .empty⟩

-- The call of this slot has done everything but send: its next operation is `mutate()`.
def PublishPool.aboutToSend (pool : PublishPool V) (slot : PublishSlot) : Bool :=
  match pool.threads.get? slot with
  | some ⟨_, .call .mutate _⟩ => true
  | _ => false

def PublishPool.operation? (pool : PublishPool V) (slot : PublishSlot) : Option (PublishOp V) :=
  match pool.threads.get? slot with
  | some ⟨_, .call op _⟩ => some op
  | _ => none

-- Every call is made under a lease.
def LeasedRun (_ : PublishPool V) : PublishPoolEvent V → Prop
  | .start slot _ => slot.leaseEpoch.isSome
  | _ => True

def TimelyStep (alone : Bool) (pool : PublishPool V) : PublishPoolEvent V → Prop
  | .step slot _ => ∀ op ∈ pool.operation? slot, Timely alone slot pool.world op
  | _ => True

def LeasedTimely (pool : PublishPool V) (event : PublishPoolEvent V) : Prop :=
  LeasedRun pool event ∧ TimelyStep false pool event

instance (pool : PublishPool V) (event : PublishPoolEvent V) : Decidable (LeasedRun pool event) :=
  match event with
  | .start slot _ => inferInstanceAs (Decidable (slot.leaseEpoch.isSome = true))
  | .step .. | .finish .. | .crash .. | .move .. => isTrue trivial

instance (alone : Bool) (pool : PublishPool V) (event : PublishPoolEvent V) : Decidable (TimelyStep alone pool event) :=
  match event with
  | .step slot _ => inferInstanceAs (Decidable (∀ op ∈ pool.operation? slot, Timely alone slot pool.world op))
  | .start .. | .finish .. | .crash .. | .move .. => isTrue trivial

instance (pool : PublishPool V) (event : PublishPoolEvent V) : Decidable (LeasedTimely pool event) :=
  inferInstanceAs (Decidable (_ ∧ _))

variable {leaseKeyOf : WorkItemId → LeaseKey}

theorem emptyPool_inv : PublishInv leaseKeyOf (PublishPool.empty : PublishPool V).world :=
  ⟨fun _ _ _ stored => (Option.some_ne_none _ stored.symm).elim, fun _ unsettled => (Bool.false_ne_true unsettled).elim⟩

theorem publishStarts_issued {s : PublishState V} {slot : PublishSlot} {params : PublishOnceParams V}
    (starts : publishStarts leaseKeyOf s slot params = true) : params.slot = slot ∧ Issued leaseKeyOf slot s := by
  simp only [publishStarts, Bool.and_eq_true, decide_eq_true_eq] at starts
  obtain ⟨rfl, issued⟩ := starts
  refine ⟨rfl, fun epoch leased => ?_⟩
  have leased' : params.leaseEpoch = some epoch := leased
  simp only [leased'] at issued
  split at issued
  · next lease stored => exact ⟨lease, stored, by simpa using issued⟩
  · cases issued

theorem timely_of_aboutToSend {pool : PublishPool V} {slot : PublishSlot} (sending : pool.aboutToSend slot = true)
    (alone : Bool) (reply : PublishReply V) : TimelyStep alone pool (.step slot reply) := by
  intro op at_op
  unfold PublishPool.aboutToSend at sending
  split at sending
  · next at_mutate =>
    simp only [PublishPool.operation?, at_mutate, Option.mem_def, Option.some.injEq] at at_op
    subst at_op
    trivial
  · cases sending

-- Calls keep the protocol together as long as those that may live at once keep out of each other's knowledge.
theorem publishSystem_obeys (alone : Bool) (apart : PublishSlot → PublishSlot → Prop)
    (allowed : PublishPool V → PublishPoolEvent V → Prop)
    (timely : ∀ pool event, allowed pool event → TimelyStep alone pool event)
    (separate : ∀ pool slot params, allowed pool (.start slot params) →
      ∀ other, other ≠ slot → (pool.threads.get? other).isSome → apart slot other ∧ apart other slot)
    (interferes : ∀ (slot other : PublishSlot) (s t : PublishState V), slot ≠ other → apart slot other →
      PublishInv leaseKeyOf s → Guarantee leaseKeyOf alone slot s t →
      ∀ phase : Phase V, phase.At leaseKeyOf alone other s → phase.At leaseKeyOf alone other t) :
    (publishSystem leaseKeyOf V).Obeys (fun slot _ => publishContract leaseKeyOf alone slot) (PublishInv leaseKeyOf)
      apart (fun _ _ _ _ => True) (fun _ _ _ => True) allowed where
  inv_eq := fun _ _ => rfl
  normal_stable := fun _ _ _ _ _ _ _ _ => trivial
  exceptional_stable := fun _ _ _ _ _ _ _ _ => trivial
  start := by
    intro pool slot params _ ok starts
    obtain ⟨rfl, issued⟩ := publishStarts_issued starts
    exact ⟨publishOnceBody_safe params pool.world ⟨issued, trivial⟩, separate pool _ params ok⟩
  act := fun pool slot reply task op next answer world ok at_op acted =>
    ⟨timely pool _ ok op (by rw [PublishPool.operation?, at_op]; rfl), reply, acted⟩
  keeps := fun _ _ _ _ inv step => inv.change step
  interferes := fun slot other _ _ s t ne separate inv step => interferes slot other s t ne separate inv step
  ends := fun _ _ _ _ inv _ => ⟨inv, fun _ _ _ _ holds => holds⟩
  move := fun move s t inv moved => ⟨inv.move moved, fun _ _ _ holds => holds.move moved⟩

-- A call about to send has armed its own row, whoever holds the lease by then.
theorem armed_of_aboutToSend {alone : Bool} {apart : PublishSlot → PublishSlot → Prop}
    {allowed : PublishPool V → PublishPoolEvent V → Prop}
    (obeys : (publishSystem leaseKeyOf V).Obeys (fun slot _ => publishContract leaseKeyOf alone slot)
      (PublishInv leaseKeyOf) apart (fun _ _ _ _ => True) (fun _ _ _ => True) allowed)
    {pool : PublishPool V} {slot : PublishSlot}
    (safe : System.PoolSafe (fun slot _ => publishContract leaseKeyOf alone slot) (PublishInv leaseKeyOf) apart
      (fun _ _ _ _ => True) (fun _ _ _ => True) pool)
    (ok : allowed pool (.step slot (.sent (.error .database)))) (sending : pool.aboutToSend slot = true) :
    (Phase.armed : Phase V).Knows leaseKeyOf alone slot pool.world := by
  unfold PublishPool.aboutToSend at sending
  split at sending
  · next task next at_op =>
    have acted : publishAct leaseKeyOf slot .mutate (.sent (.error .database)) pool.world =
        some (.error .database, pool.world.note (.sent slot)) := rfl
    obtain ⟨step, _⟩ := safe.operation obeys ok at_op acted
    obtain ⟨_, change⟩ := step
    have logged : (pool.world.note (.sent slot)).log = [.sent slot] ++ pool.world.log := rfl
    cases change with
    | send armed => exact armed
    | quiet _ notes neutral log =>
      have notes_eq := List.append_cancel_right (log.symm.trans logged)
      subst notes_eq
      simp [PublishEvent.isNote] at neutral
    | rewrite _ _ failed _ _ _ log =>
      rw [logged] at log
      cases failed <;> simp at log
    | release _ _ _ _ _ _ log =>
      rw [logged] at log
      simp at log
  · cases sending

-- Two leased calls never disturb what the other knows.
theorem leased_interference (slot other : PublishSlot) (s t : PublishState V) (ne : slot ≠ other)
    (leased : slot.leaseEpoch.isSome ∧ other.leaseEpoch.isSome) (inv : PublishInv leaseKeyOf s)
    (step : Guarantee leaseKeyOf false slot s t) (phase : Phase V) (holds : phase.At leaseKeyOf false other s) :
    phase.At leaseKeyOf false other t :=
  holds.change inv rfl ne leased.1 leased.2 step

def AllLeased (pool : PublishPool V) : Prop := ∀ slot, (pool.threads.get? slot).isSome → slot.leaseEpoch.isSome

theorem AllLeased.step {pool pool' : PublishPool V} {event : PublishPoolEvent V} (leased : AllLeased pool)
    (ok : LeasedRun pool event) (moved : (publishSystem leaseKeyOf V).step pool event = some pool') :
    AllLeased pool' := by
  intro slot live
  obtain ⟨running, found⟩ := Option.isSome_iff_exists.mp live
  rcases System.step_running _ moved found with ⟨before, at_before, _⟩ | ⟨rfl, _⟩
  · exact leased slot (Option.isSome_iff_exists.mpr ⟨before, at_before⟩)
  · exact ok

theorem leasedSystem_obeys :
    (publishSystem leaseKeyOf V).Obeys (fun slot _ => publishContract leaseKeyOf false slot) (PublishInv leaseKeyOf)
      (fun slot other => slot.leaseEpoch.isSome ∧ other.leaseEpoch.isSome) (fun _ _ _ _ => True) (fun _ _ _ => True)
      (fun pool event => LeasedTimely pool event ∧ AllLeased pool) :=
  publishSystem_obeys false _ _ (fun _ _ ok => ok.1.2)
    (fun _ _ _ ok other _ live => ⟨⟨ok.1.1, ok.2 other live⟩, ⟨ok.2 other live, ok.1.1⟩⟩) leased_interference

-- In every run of leased calls whose lookups and claims are timely, a mutation is sent again only after a
-- definitive failure of the last send was recorded, and a call that still holds its lease sends only while no
-- other work item on the surface has a sent mutation in flight.
theorem publishOnce_sends_at_most_once (leaseKeyOf : WorkItemId → LeaseKey) (pool : PublishPool V) (slot : PublishSlot)
    (reached : Reaches (publishSystem leaseKeyOf V).step LeasedTimely PublishPool.empty pool)
    (sending : pool.aboutToSend slot = true) :
    unsettledSend slot.key pool.world.log = false ∧
      (∀ epoch, slot.leaseEpoch = some epoch → pool.world.held slot.workItemId epoch = true →
        ¬ForeignSent leaseKeyOf slot.workItemId pool.world) := by
  obtain ⟨reached, leased⟩ := reached.restrict AllLeased (fun slot live => by cases live)
    (fun s event t leased ok moved => leased.step ok.1 moved) (fun s event leased ok => And.intro ok leased)
  have safe := System.reaches_safe leasedSystem_obeys emptyPool_inv (fun _ => rfl) reached
  have ok : LeasedTimely pool (.step slot (.sent (.error .database))) ∧ AllLeased pool :=
    ⟨⟨trivial, timely_of_aboutToSend sending _ _⟩, leased⟩
  obtain ⟨_, settled, clear⟩ := armed_of_aboutToSend leasedSystem_obeys safe ok sending
  refine ⟨settled, fun epoch isLeased held => clear ?_ rfl (Option.isSome_iff_exists.mpr ⟨epoch, isLeased⟩)⟩
  intro epoch' isLeased'
  obtain rfl : epoch = epoch' := Option.some.inj (isLeased.symm.trans isLeased')
  exact owns_of_held held

end Runs

section Schedules

-- Concrete schedules of review work items on one surface.
def oneSurface (_ : WorkItemId) : LeaseKey := ⟨1, .review⟩

def leasedCall (workItemId : WorkItemId) (leaseEpoch : Nat) (operationKey : OperationKey) : PublishOnceParams Nat :=
  { workItemId, operationKey, leaseEpoch := some leaseEpoch, recovers := false }

def replies (params : PublishOnceParams Nat) (answers : List (PublishReply Nat)) : List (PublishPoolEvent Nat) :=
  answers.map (.step params.slot)

-- A leased call up to its in-flight lookup.
def reserves (params : PublishOnceParams Nat) : List (PublishPoolEvent Nat) :=
  .start params.slot params :: replies params [.signal none, .served, .served, .served, .signal none, .served]

-- A claimed call up to its `mutate()`.
def arms (params : PublishOnceParams Nat) : List (PublishPoolEvent Nat) :=
  replies params [.signal none, .served, .served, .served, .served]

def acquires (workItemId : WorkItemId) : PublishPoolEvent Nat := .move (.acquire workItemId 0 30)

def lapses : PublishPoolEvent Nat := .move (.elapse 30)

def renews (workItemId : WorkItemId) (leaseEpoch : Nat) : PublishPoolEvent Nat :=
  .move (.renew (oneSurface workItemId) leaseEpoch 30 workItemId)

def publishRun (allowed : PublishPool Nat → PublishPoolEvent Nat → Prop) [∀ pool event, Decidable (allowed pool event)]
    (events : List (PublishPoolEvent Nat)) : PublishPool Nat :=
  runTo (publishSystem oneSurface Nat).step (fun pool event => decide (allowed pool event)) events
    PublishPool.empty PublishPool.empty

def armedRun : List (PublishPoolEvent Nat) :=
  acquires 1 :: reserves (leasedCall 1 1 7) ++ replies (leasedCall 1 1 7) [.served, .served, .served] ++
    arms (leasedCall 1 1 7)

theorem armedRun_sends_once :
    unsettledSend ⟨1, 7⟩ (publishRun LeasedTimely armedRun).world.log = false ∧
      (∀ epoch, some 1 = some epoch → (publishRun LeasedTimely armedRun).world.held 1 epoch = true →
        ¬ForeignSent oneSurface 1 (publishRun LeasedTimely armedRun).world) :=
  publishOnce_sends_at_most_once oneSurface (publishRun LeasedTimely armedRun) (leasedCall 1 1 7).slot
    (reaches_runTo _ _ _ (by decide +kernel)) (by decide +kernel)

-- The first holder is past its last check when its lease runs out; the next holder settles its row, and sends.
def overtakenRun : List (PublishPoolEvent Nat) :=
  armedRun ++ [lapses, acquires 2] ++ reserves (leasedCall 2 2 8) ++
    replies (leasedCall 2 2 8) [.served, .record none, .signal none, .served, .served, .served] ++
    [.finish (leasedCall 2 2 8).slot] ++ reserves (leasedCall 2 2 8) ++
    replies (leasedCall 2 2 8) [.served, .served, .served] ++ arms (leasedCall 2 2 8) ++
    replies (leasedCall 2 2 8) [.sent (.ok (.value 6))]

-- The second holder looks for sends in flight while its own lease has lapsed, and renews the lease afterwards.
def blindLookupRun : List (PublishPoolEvent Nat) :=
  armedRun ++ replies (leasedCall 1 1 7) [.sent (.ok (.value 5))] ++
    [.crash (leasedCall 1 1 7).slot, lapses, acquires 2] ++ reserves (leasedCall 2 2 8) ++ [lapses] ++
    replies (leasedCall 2 2 8) [.served] ++ [renews 2 2] ++ replies (leasedCall 2 2 8) [.served, .served] ++
    arms (leasedCall 2 2 8)

-- The claim finds the lease lapsed and writes nothing; its answer is not looked at, and the lease is renewed.
def lostClaimRun : List (PublishPoolEvent Nat) :=
  acquires 1 :: reserves (leasedCall 1 1 7) ++ replies (leasedCall 1 1 7) [.served, .served] ++ [lapses] ++
    replies (leasedCall 1 1 7) [.served] ++ [renews 1 1] ++ arms (leasedCall 1 1 7) ++
    replies (leasedCall 1 1 7) [.sent (.ok (.value 5))] ++ [.crash (leasedCall 1 1 7).slot, lapses, acquires 1] ++
    reserves (leasedCall 1 2 7) ++ replies (leasedCall 1 2 7) [.served, .served, .served] ++ arms (leasedCall 1 2 7)

-- A call that lost its lease after its last check sends beside the next holder's open send; a holder whose lookup
-- ran in a lapse does so under its lease; and a claim that ran in a lapse leads to a second send.
theorem publishOnce_sends_again :
    (∃ (pool : PublishPool Nat) (slot : PublishSlot),
      Reaches (publishSystem oneSurface Nat).step LeasedTimely PublishPool.empty pool ∧
        pool.aboutToSend slot = true ∧ ForeignSent oneSurface slot.workItemId pool.world) ∧
    (∃ (pool : PublishPool Nat) (slot : PublishSlot) (epoch : Nat),
      Reaches (publishSystem oneSurface Nat).step LeasedRun PublishPool.empty pool ∧
        pool.aboutToSend slot = true ∧ slot.leaseEpoch = some epoch ∧ pool.world.held slot.workItemId epoch = true ∧
        ForeignSent oneSurface slot.workItemId pool.world) ∧
    (∃ (pool : PublishPool Nat) (slot : PublishSlot),
      Reaches (publishSystem oneSurface Nat).step LeasedRun PublishPool.empty pool ∧
        pool.aboutToSend slot = true ∧ unsettledSend slot.key pool.world.log = true) :=
  ⟨⟨publishRun LeasedTimely overtakenRun, (leasedCall 1 1 7).slot, reaches_runTo _ _ _ (by decide +kernel),
      by decide +kernel, by decide +kernel⟩,
    ⟨publishRun LeasedRun blindLookupRun, (leasedCall 2 2 8).slot, 2, reaches_runTo _ _ _ (by decide +kernel),
      by decide +kernel, rfl, by decide +kernel, by decide +kernel⟩,
    ⟨publishRun LeasedRun lostClaimRun, (leasedCall 1 2 7).slot, reaches_runTo _ _ _ (by decide +kernel),
      by decide +kernel, by decide +kernel⟩⟩

end Schedules
end PrAgent
