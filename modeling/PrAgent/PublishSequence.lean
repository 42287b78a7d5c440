import PrAgent.PublishRuns
set_option autoImplicit false

namespace PrAgent

section Sequence

variable {V : Type} {leaseKeyOf : WorkItemId → LeaseKey} {key : IntentKey}

-- Calls for one work item and operation key, leased or not, each started when the last one has ended or crashed.
def SequentialRun (key : IntentKey) (pool : PublishPool V) : PublishPoolEvent V → Prop
  | .start slot _ => slot.key = key ∧ pool.threads.rows = []
  | _ => True

def SequentialTimely (key : IntentKey) (pool : PublishPool V) (event : PublishPoolEvent V) : Prop :=
  SequentialRun key pool event ∧ TimelyStep true pool event

instance (key : IntentKey) (pool : PublishPool V) (event : PublishPoolEvent V) :
    Decidable (SequentialRun key pool event) :=
  match event with
  | .start slot _ => inferInstanceAs (Decidable (slot.key = key ∧ pool.threads.rows = []))
  | .step .. | .finish .. | .crash .. | .move .. => isTrue trivial

instance (key : IntentKey) (pool : PublishPool V) (event : PublishPoolEvent V) :
    Decidable (SequentialTimely key pool event) :=
  inferInstanceAs (Decidable (_ ∧ _))

def OperationIntent.Settled (row : OperationIntent V) : Prop :=
  row.status = .reconciled ∨ row.status = .outcomeUnknown

-- A settled row stays settled, and a reconciled one keeps its result.
def Persists (key : IntentKey) (s t : PublishState V) : Prop :=
  ∀ row, s.intents.get? key = some row → row.Settled → ∃ after, t.intents.get? key = some after ∧ after.Settled ∧
    (row.status = .reconciled → after.status = .reconciled ∧ after.detail.result = row.detail.result)

-- Every reconciled row under the key has a saved result.
def ResultKept (key : IntentKey) (s : PublishState V) : Prop :=
  ∀ row, s.intents.get? key = some row → row.status = .reconciled → row.detail.result.isSome

theorem Persists.of_eq {s t : PublishState V} (same : t.intents.get? key = s.intents.get? key) : Persists key s t :=
  fun row stored settled => ⟨row, same.trans stored, settled, fun reconciled => ⟨reconciled, rfl⟩⟩

theorem Persists.trans {s t u : PublishState V} (first : Persists key s t) (second : Persists key t u) :
    Persists key s u := by
  intro row stored settled
  obtain ⟨middle, storedMiddle, settledMiddle, keptMiddle⟩ := first row stored settled
  obtain ⟨after, storedAfter, settledAfter, keptAfter⟩ := second middle storedMiddle settledMiddle
  refine ⟨after, storedAfter, settledAfter, fun reconciled => ?_⟩
  obtain ⟨reconciledMiddle, sameMiddle⟩ := keptMiddle reconciled
  obtain ⟨reconciledAfter, sameAfter⟩ := keptAfter reconciledMiddle
  exact ⟨reconciledAfter, sameAfter.trans sameMiddle⟩

theorem not_settled_of_pending {row : OperationIntent V} (pending : row.status = .pending) : ¬row.Settled := by
  simp [OperationIntent.Settled, pending]

variable {slot : PublishSlot}

theorem RowChange.persists {old row : OperationIntent V} {failed : Bool} (change : RowChange leaseKeyOf slot slot.key (some old) row failed)
    (kept : old.status = .reconciled → old.detail.result.isSome) (settled : old.Settled) :
    row.Settled ∧ (old.status = .reconciled → row.status = .reconciled ∧ row.detail.result = old.detail.result) := by
  cases change with
  | touch _ _ _ same =>
    rw [OperationIntent.Settled, same.1, same.2]
    exact ⟨settled, fun reconciled => ⟨reconciled, rfl⟩⟩
  | claim _ _ _ retryable =>
    rcases retryable.1 with pending | failed
    · exact absurd settled (not_settled_of_pending pending)
    · simp [OperationIntent.Settled, failed] at settled
  | mark _ _ _ claimed => exact absurd settled (not_settled_of_pending claimed.1.1)
  | save _ _ _ opened => exact absurd settled (not_settled_of_pending opened.1)
  | fail _ _ _ opened => exact absurd settled (not_settled_of_pending opened.1)
  | settle _ _ _ status may _ result _ =>
    refine ⟨status, fun reconciled => ⟨?_, ?_⟩⟩
    · have same : row.status = .reconciled := by simpa [OperationIntentStatus.mayBecome, reconciled, eq_comm] using may
      exact same
    · exact (result rfl).resolve_left fun none => by simp [none] at kept; exact kept reconciled

theorem RowChange.resultKept {target : IntentKey} {old : Option (OperationIntent V)}
    {row : OperationIntent V} {failed : Bool} (change : RowChange leaseKeyOf slot target old row failed)
    (kept : ∀ before, old = some before → before.status = .reconciled → before.detail.result.isSome) :
    row.status = .reconciled → row.detail.result.isSome := by
  intro reconciled
  cases change with
  | insert _ _ pending => simp [pending] at reconciled
  | touch old _ _ same => exact same.2 ▸ kept old rfl (same.1 ▸ reconciled)
  | claim _ _ _ _ _ claimed => simp [claimed.1.1] at reconciled
  | mark _ _ _ _ opened => simp [opened.1] at reconciled
  | save _ _ _ _ pending => simp [pending] at reconciled
  | settle _ _ _ _ _ _ _ saved => exact saved reconciled
  | fail _ _ _ _ failed => simp [failed] at reconciled

theorem Guarantee.persists {alone : Bool} {s t : PublishState V}
    (step : Guarantee leaseKeyOf alone slot s t) (own : slot.key = key) (kept : ResultKept key s) :
    Persists key s t ∧ ResultKept key t := by
  subst own
  obtain ⟨_, change⟩ := step
  cases change with
  | quiet intents => exact ⟨.of_eq (by rw [intents]), by simpa only [ResultKept, intents] using kept⟩
  | send _ intents => exact ⟨.of_eq (by rw [intents]), by simpa only [ResultKept, intents] using kept⟩
  | release old epoch _ stored unsent intents =>
    have pending := ((unsentBy_iff old epoch).mp unsent).1
    constructor
    · intro row storedRow settled
      obtain rfl : old = row := Option.some.inj (stored.symm.trans storedRow)
      exact absurd settled (not_settled_of_pending pending)
    · intro row storedRow reconciled
      rw [intents, Table.get?_set_self] at storedRow
      obtain rfl := Option.some.inj storedRow
      simp [pending] at reconciled
  | rewrite target row failed _ change intents =>
    by_cases same : slot.key = target
    · subst same
      constructor
      · intro old stored settled
        rw [stored] at change
        obtain ⟨settledAfter, keptAfter⟩ := change.persists (kept old stored) settled
        exact ⟨row, by rw [intents, Table.get?_set_self], settledAfter, keptAfter⟩
      · intro after storedAfter
        rw [intents, Table.get?_set_self] at storedAfter
        obtain rfl := Option.some.inj storedAfter
        exact change.resultKept fun before stored => kept before stored
    · have elsewhere : t.intents.get? slot.key = s.intents.get? slot.key := by
        rw [intents, Table.get?_set_of_ne _ _ _ same]
      exact ⟨.of_eq elsewhere, by simpa only [ResultKept, elsewhere] using kept⟩

-- A database in which the key has not been used, and nothing running.
structure FreshFor (leaseKeyOf : WorkItemId → LeaseKey) (key : IntentKey) (pool : PublishPool V) : Prop where
  home : HoldersAtHome leaseKeyOf pool.world.leases
  unused : pool.world.intents.get? key = none
  log : pool.world.log = []
  idle : pool.threads.rows = []

theorem sequentialSystem_obeys :
    (publishSystem leaseKeyOf V).Obeys (fun slot _ => publishContract leaseKeyOf true slot) (PublishInv leaseKeyOf)
      (fun _ _ => False) (fun _ _ _ _ => True) (fun _ _ _ => True) (SequentialTimely key) := by
  refine publishSystem_obeys true _ _ (fun _ _ ok => ok.2) ?_ fun _ _ _ _ _ never => never.elim
  intro pool slot params ok other _ live
  rw [Table.get?_eq_none_of_rows ok.1.2] at live
  cases live

def AllOnKey (key : IntentKey) (pool : PublishPool V) : Prop := ∀ slot, (pool.threads.get? slot).isSome → slot.key = key

theorem AllOnKey.step {pool pool' : PublishPool V} {event : PublishPoolEvent V} (onKey : AllOnKey key pool)
    (ok : SequentialRun key pool event) (moved : (publishSystem leaseKeyOf V).step pool event = some pool') :
    AllOnKey key pool' := by
  intro slot live
  obtain ⟨running, found⟩ := Option.isSome_iff_exists.mp live
  rcases System.step_running _ moved found with ⟨before, at_before, _⟩ | ⟨rfl, _⟩
  · exact onKey slot (Option.isSome_iff_exists.mpr ⟨before, at_before⟩)
  · exact ok.1

structure SequenceInv (leaseKeyOf : WorkItemId → LeaseKey) (key : IntentKey) (pool : PublishPool V) : Prop where
  safe : System.PoolSafe (fun slot _ => publishContract leaseKeyOf true slot) (PublishInv leaseKeyOf)
    (fun _ _ => False) (fun _ _ _ _ => True) (fun _ _ _ => True) pool
  onKey : AllOnKey key pool
  kept : ResultKept key pool.world

theorem SequenceInv.start {pool : PublishPool V} (fresh : FreshFor leaseKeyOf key pool) :
    SequenceInv leaseKeyOf key pool where
  safe :=
    { inv := ⟨fresh.home, fun _ unsettled => by rw [fresh.log] at unsettled; cases unsettled⟩
      threads := fun slot _ found => by rw [Table.get?_eq_none_of_rows fresh.idle] at found; cases found
      apart := fun slot _ _ live => by rw [Table.get?_eq_none_of_rows fresh.idle] at live; cases live }
  onKey := fun slot live => by rw [Table.get?_eq_none_of_rows fresh.idle] at live; cases live
  kept := fun row stored => by rw [fresh.unused] at stored; cases stored

theorem SequenceInv.step {pool pool' : PublishPool V} {event : PublishPoolEvent V}
    (inv : SequenceInv leaseKeyOf key pool) (ok : SequentialTimely key pool event)
    (moved : (publishSystem leaseKeyOf V).step pool event = some pool') :
    SequenceInv leaseKeyOf key pool' ∧ Persists key pool.world pool'.world := by
  have safe := inv.safe.step sequentialSystem_obeys ok moved
  have onKey := inv.onKey.step ok.1 moved
  have unchanged : pool'.world.intents = pool.world.intents →
      SequenceInv leaseKeyOf key pool' ∧ Persists key pool.world pool'.world := fun intents =>
    ⟨⟨safe, onKey, by simpa only [ResultKept, intents] using inv.kept⟩, .of_eq (by rw [intents])⟩
  cases event with
  | start slot params =>
    simp only [System.step, Bool.and_eq_true, Option.ite_none_right_eq_some, Option.some.injEq] at moved
    obtain ⟨_, rfl⟩ := moved
    exact unchanged rfl
  | step slot reply =>
    simp only [System.step] at moved
    split at moved
    · next task op next at_op =>
      obtain ⟨⟨answer, world⟩, acted, rfl⟩ := Option.map_eq_some_iff.mp moved
      have own : slot.key = key := inv.onKey slot (by rw [at_op]; rfl)
      obtain ⟨persists, kept⟩ := (inv.safe.operation sequentialSystem_obeys ok at_op acted).1.persists own inv.kept
      exact ⟨⟨safe, onKey, kept⟩, persists⟩
    · cases moved
  | finish slot =>
    simp only [System.step] at moved
    split at moved
    · obtain rfl := Option.some.inj moved
      exact unchanged rfl
    · obtain rfl := Option.some.inj moved
      exact unchanged rfl
    · cases moved
  | crash slot =>
    obtain rfl := Option.some.inj moved
    exact unchanged rfl
  | move move =>
    simp only [System.step, Option.map_eq_some_iff] at moved
    obtain ⟨world, moved, rfl⟩ := moved
    obtain rfl := Option.some.inj moved
    exact unchanged rfl

theorem SequenceInv.run {pool pool' : PublishPool V} (inv : SequenceInv leaseKeyOf key pool)
    (reached : Reaches (publishSystem leaseKeyOf V).step (SequentialTimely key) pool pool') :
    SequenceInv leaseKeyOf key pool' ∧ Persists key pool.world pool'.world := by
  refine reached.invariant (fun later : PublishPool V =>
    SequenceInv leaseKeyOf key later ∧ Persists key pool.world later.world) ⟨inv, .of_eq rfl⟩ ?_
  intro before event after holds ok moved
  obtain ⟨inv, persists⟩ := holds
  obtain ⟨inv', further⟩ := inv.step ok moved
  exact ⟨inv', persists.trans further⟩

-- The call about to send has an unsettled row of its own and no send of the key is open.
theorem SequenceInv.sends {pool : PublishPool V} (inv : SequenceInv leaseKeyOf key pool)
    (sending : pool.aboutToSend slot = true) : unsettledSend key pool.world.log = false ∧
      ∃ row, pool.world.intents.get? key = some row ∧ ¬row.Settled := by
  have own : slot.key = key := by
    refine inv.onKey slot ?_
    unfold PublishPool.aboutToSend at sending
    split at sending
    · next at_mutate => rw [at_mutate]; rfl
    · cases sending
  subst own
  have ok : SequentialTimely slot.key pool (.step slot (.sent (.error .database))) :=
    ⟨trivial, timely_of_aboutToSend sending _ _⟩
  obtain ⟨⟨row, stored, _, _, opened⟩, settled, _⟩ := armed_of_aboutToSend sequentialSystem_obeys inv.safe ok sending
  exact ⟨settled, row, stored, not_settled_of_pending (opened (.inl rfl)).1⟩

-- In every sequence of timely calls for one key, the mutation is called again only after a definitive failure was
-- recorded, never once the row is settled, and a reconciled row keeps its result.
theorem publishOnce_never_remutates (leaseKeyOf : WorkItemId → LeaseKey) (key : IntentKey)
    (start pool later : PublishPool V) (fresh : FreshFor leaseKeyOf key start)
    (reached : Reaches (publishSystem leaseKeyOf V).step (SequentialTimely key) start pool)
    (continued : Reaches (publishSystem leaseKeyOf V).step (SequentialTimely key) pool later) :
    (∀ slot, pool.aboutToSend slot = true → unsettledSend key pool.world.log = false) ∧
      (∀ row, pool.world.intents.get? key = some row → row.Settled →
        (∀ slot, later.aboutToSend slot = false) ∧
          ∃ after, later.world.intents.get? key = some after ∧ after.Settled ∧
            (row.status = .reconciled → after.status = .reconciled ∧ after.detail.result = row.detail.result)) := by
  obtain ⟨inv, _⟩ := (SequenceInv.start fresh).run reached
  obtain ⟨inv', persists⟩ := inv.run continued
  refine ⟨fun slot sending => (inv.sends sending).1, fun row stored settled => ?_⟩
  obtain ⟨after, storedAfter, settledAfter, kept⟩ := persists row stored settled
  refine ⟨fun slot => ?_, after, storedAfter, settledAfter, kept⟩
  by_contra sending
  obtain ⟨_, row', stored', unsettled⟩ := inv'.sends (eq_true_of_ne_false sending)
  obtain rfl : after = row' := Option.some.inj (storedAfter.symm.trans stored')
  exact unsettled settledAfter

end Sequence

section Schedules

theorem emptyPool_fresh (leaseKeyOf : WorkItemId → LeaseKey) (key : IntentKey) :
    FreshFor leaseKeyOf key (PublishPool.empty : PublishPool Nat) :=
  ⟨fun _ _ _ stored => (Option.some_ne_none _ stored.symm).elim, rfl, rfl, rfl⟩

def unleasedCall : PublishOnceParams Nat := { workItemId := 1, operationKey := 7, leaseEpoch := none, recovers := false }

-- An unleased call up to its `mutate()`.
def unleasedArms : List (PublishPoolEvent Nat) :=
  .start unleasedCall.slot unleasedCall ::
    replies unleasedCall [.signal none, .served, .signal none, .served, .served, .signal none]

-- The call runs to its end and reconciles the row.
def reconciledRun : List (PublishPoolEvent Nat) :=
  unleasedArms ++ replies unleasedCall [.sent (.ok (.value 5)), .signal none, .served, .served] ++
    [.finish unleasedCall.slot]

theorem reconciledRun_never_remutates :
    let pool := publishRun (SequentialTimely ⟨1, 7⟩) reconciledRun
    (∀ slot, pool.aboutToSend slot = true → unsettledSend ⟨1, 7⟩ pool.world.log = false) ∧
      (∀ row, pool.world.intents.get? ⟨1, 7⟩ = some row → row.Settled →
        (∀ slot, pool.aboutToSend slot = false) ∧
          ∃ after, pool.world.intents.get? ⟨1, 7⟩ = some after ∧ after.Settled ∧
            (row.status = .reconciled → after.status = .reconciled ∧ after.detail.result = row.detail.result)) :=
  publishOnce_never_remutates oneSurface ⟨1, 7⟩ PublishPool.empty (publishRun (SequentialTimely ⟨1, 7⟩) reconciledRun)
    (publishRun (SequentialTimely ⟨1, 7⟩) reconciledRun) (emptyPool_fresh oneSurface ⟨1, 7⟩)
    (reaches_runTo _ _ _ (by decide +kernel)) .start

-- A leased attempt crashes with its unsent marker set. The unleased one after it leaves that marker as it is, sends
-- and crashes, so that the third takes the row for one that was never sent.
def staleMarkerRun : List (PublishPoolEvent Nat) :=
  acquires 1 :: reserves (leasedCall 1 1 7) ++ replies (leasedCall 1 1 7) [.served, .served, .served] ++
    [.crash (leasedCall 1 1 7).slot, lapses] ++ unleasedArms ++ replies unleasedCall [.sent (.ok (.value 5))] ++
    [.crash unleasedCall.slot] ++ unleasedArms

theorem publishOnce_remutates :
    (∃ (pool : PublishPool Nat) (slot : PublishSlot),
      Reaches (publishSystem oneSurface Nat).step (SequentialRun ⟨1, 7⟩) PublishPool.empty pool ∧
        pool.aboutToSend slot = true ∧ unsettledSend ⟨1, 7⟩ pool.world.log = true) ∧
    (∃ (pool : PublishPool Nat) (slot : PublishSlot),
      Reaches (publishSystem oneSurface Nat).step (SequentialRun ⟨1, 7⟩) PublishPool.empty pool ∧
        pool.aboutToSend slot = true ∧ slot.leaseEpoch.isSome = true ∧ unsettledSend ⟨1, 7⟩ pool.world.log = true) :=
  ⟨⟨publishRun (SequentialRun ⟨1, 7⟩) staleMarkerRun, unleasedCall.slot, reaches_runTo _ _ _ (by decide +kernel),
      by decide +kernel, by decide +kernel⟩,
    ⟨publishRun (SequentialRun ⟨1, 7⟩) lostClaimRun, (leasedCall 1 2 7).slot, reaches_runTo _ _ _ (by decide +kernel),
      by decide +kernel, rfl, by decide +kernel⟩⟩

end Schedules
end PrAgent
