import PrAgent.PublishOnce
set_option autoImplicit false

namespace PrAgent

section Rows

variable {V : Type}

-- A row no later call may send for again: settled, or in flight whatever becomes of the lease, or with a result.
def OperationIntent.Guarded (row : OperationIntent V) : Prop :=
  row.status = .reconciled ∨ row.status = .outcomeUnknown ∨
    (row.status = .pending ∧ (row.detail.result.isSome ∨ (row.detail.mutating = some true ∧ row.unstarted = false)))

-- In flight with `__sendStarted` and no saved result.
def OperationIntent.SentInFlight (row : OperationIntent V) : Prop :=
  row.status = .pending ∧ row.detail.mutating = some true ∧ row.detail.sendStarted = some true ∧
    row.detail.result = none

def OperationIntent.Retryable (row : OperationIntent V) : Prop :=
  (row.status = .pending ∨ row.status = .failed) ∧ row.detail.result = none

-- The row of the attempt that is sending or about to send.
def OperationIntent.Open (slot : PublishSlot) (row : OperationIntent V) : Prop :=
  row.status = .pending ∧ row.detail.mutating = some true ∧ row.detail.result = none ∧
    ∀ epoch, slot.leaseEpoch = some epoch → row.detail.mutatingEpoch = some epoch

def OperationIntent.Claimed (slot : PublishSlot) (row : OperationIntent V) : Prop :=
  row.Open slot ∧ (slot.leaseEpoch = none → row.unstarted = false) ∧
    (slot.leaseEpoch.isSome → row.detail.sendStarted = some false)

-- The columns the publish path decides on.
def OperationIntent.SameMarkers (old new : OperationIntent V) : Prop :=
  new.status = old.status ∧ new.detail = old.detail

-- The newest send of a key that no definitive failure was recorded for.
def unsettledSend (key : IntentKey) : List (PublishEvent V) → Bool
  | [] => false
  | .sent slot :: rest => slot.key = key || unsettledSend key rest
  | .recordedFailed failed :: rest => failed ≠ key && unsettledSend key rest
  | .mutated .. :: rest | .recovered .. :: rest | .recordFound .. :: rest => unsettledSend key rest

-- An event that neither opens nor settles a send.
def PublishEvent.isNote : PublishEvent V → Bool
  | .mutated .. | .recovered .. | .recordFound .. => true
  | .sent .. | .recordedFailed .. => false

theorem unsettledSend_notes (key : IntentKey) (notes log : List (PublishEvent V))
    (neutral : notes.all PublishEvent.isNote = true) : unsettledSend key (notes ++ log) = unsettledSend key log := by
  induction notes with
  | nil => rfl
  | cons event notes ih =>
    simp only [List.all_cons, Bool.and_eq_true] at neutral
    cases event with
    | sent | recordedFailed => exact absurd neutral.1 Bool.false_ne_true
    | mutated | recovered | recordFound => simpa [unsettledSend] using ih neutral.2

end Rows

section Protocol

variable {V : Type} (leaseKeyOf : WorkItemId → LeaseKey)

def Owner (slot : PublishSlot) (s : PublishState V) : Prop :=
  ∀ epoch, slot.leaseEpoch = some epoch → ownsPrActorLease s.leases slot.workItemId epoch = true

def Fenced (slot : PublishSlot) (s : PublishState V) : Prop := s.fenced slot.workItemId slot.leaseEpoch = true

def ForeignSent (workItemId : WorkItemId) (s : PublishState V) : Prop :=
  ∃ key row, s.intents.get? key = some row ∧ key.workItemId ≠ workItemId ∧
    leaseKeyOf key.workItemId = leaseKeyOf workItemId ∧ row.SentInFlight

def OwnRow (slot : PublishSlot) (s : PublishState V) (holds : OperationIntent V → Prop) : Prop :=
  ∃ row, s.intents.get? slot.key = some row ∧ holds row

instance (row : OperationIntent V) : Decidable row.SentInFlight := inferInstanceAs (Decidable (_ ∧ _))

theorem foreignSent_iff (workItemId : WorkItemId) (s : PublishState V) : ForeignSent leaseKeyOf workItemId s ↔
    s.intents.any (fun key row => decide (key.workItemId ≠ workItemId ∧
      leaseKeyOf key.workItemId = leaseKeyOf workItemId ∧ row.SentInFlight)) = true := by
  simp only [Table.any_iff, decide_eq_true_eq, ForeignSent]

instance (workItemId : WorkItemId) (s : PublishState V) : Decidable (ForeignSent leaseKeyOf workItemId s) :=
  decidable_of_iff _ (foreignSent_iff leaseKeyOf workItemId s).symm

-- A leased caller among others sees no other work item's sent mutation in flight.
def SurfaceClear (alone : Bool) (slot : PublishSlot) (s : PublishState V) : Prop :=
  alone = false → slot.leaseEpoch.isSome → ¬ForeignSent leaseKeyOf slot.workItemId s

-- What a call knows for as long as it owns its lease: a fact about its own row, and perhaps that no send of the
-- key is open and that no foreign send is in flight.
def OwnerKnows (alone : Bool) (slot : PublishSlot) (holds : OperationIntent V → Prop) (unsent clear : Prop)
    (s : PublishState V) : Prop :=
  Owner slot s → OwnRow slot s holds ∧ (unsent → unsettledSend slot.key s.log = false) ∧
    (clear → SurfaceClear leaseKeyOf alone slot s)

-- How far a call has come.
inductive Phase (V : Type)
  | begun
  -- the row holds no result, or this one
  | stored (result : Option (Option V))
  | retryable
  | claimable
  | claimed
  | armed
  | opened

-- Once armed, a call holds on to its row without the lease. `alone` says that no other call on the key runs beside it.
def Phase.Knows (alone : Bool) (slot : PublishSlot) (s : PublishState V) : Phase V → Prop
  | .begun => True
  | .stored result =>
    OwnerKnows leaseKeyOf alone slot (fun row => row.detail.result = none ∨ row.detail.result = result) False False s
  | .retryable => OwnerKnows leaseKeyOf alone slot OperationIntent.Retryable False False s
  | .claimable => OwnerKnows leaseKeyOf alone slot (fun row => row.Retryable ∧ ¬row.Guarded) False True s
  | .claimed => OwnerKnows leaseKeyOf alone slot (OperationIntent.Claimed slot) True True s
  | .armed =>
    (OwnRow slot s fun row => row.Guarded ∧ (∀ epoch, slot.leaseEpoch = some epoch →
      row.detail.mutatingEpoch = some epoch) ∧ (alone = true ∨ Owner slot s → row.Open slot)) ∧
      unsettledSend slot.key s.log = false ∧ (Owner slot s → SurfaceClear leaseKeyOf alone slot s)
  | .opened => OwnerKnows leaseKeyOf alone slot (OperationIntent.Open slot) False False s

def Issued (slot : PublishSlot) (s : PublishState V) : Prop :=
  ∀ epoch, slot.leaseEpoch = some epoch → EpochIssued leaseKeyOf s.leases slot.workItemId epoch

def Phase.At (alone : Bool) (slot : PublishSlot) (phase : Phase V) (s : PublishState V) : Prop :=
  Issued leaseKeyOf slot s ∧ phase.Knows leaseKeyOf alone slot s

-- Everything a call may do to the row under one key. The last index says whether it records a definitive failure.
inductive RowChange (slot : PublishSlot) (target : IntentKey) : Option (OperationIntent V) → OperationIntent V →
    Bool → Prop
  | insert (row : OperationIntent V) (own : target = slot.key) (pending : row.status = .pending)
      (unmarked : row.detail.mutating = none ∧ row.detail.result = none) : RowChange slot target none row false
  | touch (old row : OperationIntent V) (own : target = slot.key) (same : old.SameMarkers row) :
      RowChange slot target (some old) row false
  | claim (old row : OperationIntent V) (own : target = slot.key) (retryable : old.Retryable)
      (unguarded : ¬old.Guarded) (claimed : row.Claimed slot) : RowChange slot target (some old) row false
  | mark (old row : OperationIntent V) (own : target = slot.key) (claimed : old.Claimed slot) (opened : row.Open slot)
      (started : row.detail.sendStarted = some true) (leased : slot.leaseEpoch.isSome) :
      RowChange slot target (some old) row false
  | save (old row : OperationIntent V) (own : target = slot.key) (opened : old.Open slot) (pending : row.status = .pending)
      (saved : row.detail.result.isSome) (epoch : row.detail.mutatingEpoch = old.detail.mutatingEpoch) :
      RowChange slot target (some old) row false
  | settle (old row : OperationIntent V) (where' : target = slot.key ∨
        (target.workItemId ≠ slot.workItemId ∧ leaseKeyOf target.workItemId = leaseKeyOf slot.workItemId))
      (status : row.status = .reconciled ∨ row.status = .outcomeUnknown) (may : old.status.mayBecome row.status = true)
      (epoch : row.detail.mutatingEpoch = old.detail.mutatingEpoch)
      (result : target = slot.key → old.detail.result = none ∨ row.detail.result = old.detail.result)
      (kept : row.status = .reconciled → row.detail.result.isSome) : RowChange slot target (some old) row false
  | fail (old row : OperationIntent V) (own : target = slot.key) (opened : old.Open slot)
      (failed : row.status = .failed) : RowChange slot target (some old) row true

-- One step of a call, as the calls beside it see it. Only `release` and `send` happen without the lease fence.
inductive Change (alone : Bool) (slot : PublishSlot) (s t : PublishState V) : Prop
  | quiet (intents : t.intents = s.intents) (notes : List (PublishEvent V))
      (neutral : notes.all PublishEvent.isNote = true) (log : t.log = notes ++ s.log)
  | rewrite (target : IntentKey) (row : OperationIntent V) (failed : Bool) (fenced : Fenced slot s)
      (change : RowChange leaseKeyOf slot target (s.intents.get? target) row failed)
      (intents : t.intents = s.intents.set target row)
      (log : t.log = if failed then .recordedFailed target :: s.log else s.log)
  | release (old : OperationIntent V) (epoch : Nat) (leased : slot.leaseEpoch = some epoch)
      (stored : s.intents.get? slot.key = some old) (unsent : old.unsentBy epoch = true)
      (intents : t.intents = s.intents.set slot.key old.release) (log : t.log = s.log)
  | send (armed : (Phase.armed : Phase V).Knows leaseKeyOf alone slot s) (intents : t.intents = s.intents)
      (notes : List (PublishEvent V)) (neutral : notes.all PublishEvent.isNote = true)
      (log : t.log = notes ++ .sent slot :: s.log)

-- A step of a call leaves clock and leases alone.
def Guarantee (alone : Bool) (slot : PublishSlot) (s t : PublishState V) : Prop :=
  t.toLeaseState = s.toLeaseState ∧ Change leaseKeyOf alone slot s t

structure PublishInv (s : PublishState V) : Prop where
  home : HoldersAtHome leaseKeyOf s.leases
  guarded : ∀ key, unsettledSend key s.log = true → ∃ row, s.intents.get? key = some row ∧ row.Guarded

end Protocol

section RowFacts

variable {V : Type} {leaseKeyOf : WorkItemId → LeaseKey}

variable {row : OperationIntent V}

theorem guarded_of_started (pending : row.status = .pending)
    (mutating : row.detail.mutating = some true) (started : row.detail.sendStarted = some true) : row.Guarded :=
  .inr (.inr ⟨pending, .inr ⟨mutating, by simp [OperationIntent.unstarted, started]⟩⟩)

theorem OperationIntent.SameMarkers.guarded {old row : OperationIntent V} (same : old.SameMarkers row) :
    row.Guarded ↔ old.Guarded := by
  obtain ⟨status, detail⟩ := same
  simp only [OperationIntent.Guarded, OperationIntent.unstarted, status, detail]

theorem unsentBy_iff (row : OperationIntent V) (epoch : Nat) : row.unsentBy epoch = true ↔
    row.status = .pending ∧ row.detail.mutating = some true ∧ row.detail.result = none ∧
      row.detail.sendStarted = some false ∧ row.detail.mutatingEpoch = some epoch := by
  simp [OperationIntent.unsentBy]

theorem not_guarded_of_unsent {epoch : Nat} (unsent : row.unsentBy epoch = true) :
    ¬row.Guarded := by
  obtain ⟨pending, _, resultless, unstarted, armed⟩ := (unsentBy_iff row epoch).mp unsent
  simp [OperationIntent.Guarded, OperationIntent.unstarted, pending, resultless, unstarted, armed]

@[simp] theorem release_status (row : OperationIntent V) : row.release.status = row.status := rfl

@[simp] theorem release_result (row : OperationIntent V) : row.release.detail.result = row.detail.result := by
  simp [OperationIntent.release, IntentDetail.merge]

@[simp] theorem release_mutating (row : OperationIntent V) : row.release.detail.mutating = some false := rfl

variable {slot : PublishSlot} {target : IntentKey}

theorem RowChange.own_or_foreign {old : Option (OperationIntent V)}
    {failed : Bool} (change : RowChange leaseKeyOf slot target old row failed) :
    target = slot.key ∨
      (target.workItemId ≠ slot.workItemId ∧ leaseKeyOf target.workItemId = leaseKeyOf slot.workItemId) := by
  cases change with
  | settle _ _ where' => exact where'
  | insert _ own | touch _ _ own | claim _ _ own | mark _ _ own | save _ _ own | fail _ _ own => exact .inl own

-- Guarded rows stay guarded until their own attempt records a definitive failure.
theorem RowChange.guarded {old row : OperationIntent V} {failed : Bool}
    (change : RowChange leaseKeyOf slot target (some old) row failed) (guarded : old.Guarded) :
    row.Guarded ∨ failed = true := by
  cases change with
  | touch _ _ _ same => exact .inl (same.guarded.mpr guarded)
  | claim _ _ _ _ unguarded => exact absurd guarded unguarded
  | mark _ _ _ _ opened started => exact .inl (guarded_of_started opened.1 opened.2.1 started)
  | save _ _ _ _ pending saved => exact .inl (.inr (.inr ⟨pending, .inl saved⟩))
  | settle _ _ _ status => exact .inl (status.imp id .inl)
  | fail => exact .inr rfl

-- A row another attempt armed keeps guard and epoch, whatever this call does to it.
theorem RowChange.keeps_armed {old row : OperationIntent V} {failed : Bool}
    (change : RowChange leaseKeyOf slot target (some old) row failed) (guarded : old.Guarded)
    (other : ∀ epoch, slot.leaseEpoch = some epoch → old.detail.mutatingEpoch ≠ some epoch)
    (leased : slot.leaseEpoch.isSome) : row.Guarded ∧ row.detail.mutatingEpoch = old.detail.mutatingEpoch := by
  obtain ⟨epoch, leased⟩ := Option.isSome_iff_exists.mp leased
  cases change with
  | touch _ _ _ same => exact ⟨same.guarded.mpr guarded, by rw [same.2]⟩
  | claim _ _ _ _ unguarded => exact absurd guarded unguarded
  | mark _ _ _ claimed => exact absurd (claimed.1.2.2.2 epoch leased) (other epoch leased)
  | save _ _ _ opened => exact absurd (opened.2.2.2 epoch leased) (other epoch leased)
  | settle _ _ _ status _ kept => exact ⟨status.imp id .inl, kept⟩
  | fail _ _ _ opened => exact absurd (opened.2.2.2 epoch leased) (other epoch leased)

-- Nothing but a call's own row can be in flight with `__sendStarted` after its step.
theorem RowChange.own_of_sentInFlight {old : Option (OperationIntent V)}
    {failed : Bool} (change : RowChange leaseKeyOf slot target old row failed) (sent : row.SentInFlight) :
    target = slot.key := by
  cases change with
  | insert _ own | touch _ _ own | claim _ _ own | mark _ _ own | save _ _ own | fail _ _ own => exact own
  | settle _ _ _ status =>
    rw [sent.1] at status
    simp at status

theorem unsettledSend_recorded {key : IntentKey} {log : List (PublishEvent V)} (settled : unsettledSend key log = false)
    (failed : Bool) (target : IntentKey) :
    unsettledSend key (if failed then .recordedFailed target :: log else log) = false := by
  split
  · simp [unsettledSend, settled]
  · exact settled

end RowFacts

end PrAgent
