import PrAgent.PublishProtocol
set_option autoImplicit false

namespace PrAgent

section Interference

variable {V : Type} {leaseKeyOf : WorkItemId → LeaseKey} {alone : Bool} {slot other : PublishSlot}
  {s t : PublishState V}

theorem owner_of_fenced (fenced : Fenced slot s) : Owner slot s := by
  intro epoch leased
  rw [Fenced, leased] at fenced
  exact owns_of_held fenced

theorem Owner.congr (same : t.toLeaseState = s.toLeaseState) : Owner slot t ↔ Owner slot s := by
  simp only [Owner, same]

-- Two leased calls that own their leases on one surface are the same execution.
theorem owners_agree (home : HoldersAtHome leaseKeyOf s.leases) (leased : slot.leaseEpoch.isSome)
    (leasedOther : other.leaseEpoch.isSome) (owner : Owner slot s) (ownerOther : Owner other s)
    (sameKey : leaseKeyOf slot.workItemId = leaseKeyOf other.workItemId) :
    slot.workItemId = other.workItemId ∧ slot.leaseEpoch = other.leaseEpoch := by
  obtain ⟨epoch, leased⟩ := Option.isSome_iff_exists.mp leased
  obtain ⟨epoch', leasedOther⟩ := Option.isSome_iff_exists.mp leasedOther
  obtain ⟨sameItem, rfl⟩ := owner_unique home sameKey (owner epoch leased) (ownerOther epoch' leasedOther)
  exact ⟨sameItem, leased.trans leasedOther.symm⟩

theorem key_eq_iff : slot.key = other.key ↔
    slot.workItemId = other.workItemId ∧ slot.operationKey = other.operationKey := by
  simp [PublishSlot.key]

theorem leaseEpoch_ne (ne : slot ≠ other) (sameKey : slot.key = other.key) : slot.leaseEpoch ≠ other.leaseEpoch := by
  intro sameEpoch
  obtain ⟨sameItem, sameOperation⟩ := key_eq_iff.mp sameKey
  cases slot
  cases other
  simp_all

variable {row : OperationIntent V}

-- While a call owns its lease, the fenced writes of the others miss its row.
theorem RowChange.target_ne {target : IntentKey} {old : Option (OperationIntent V)}
    {failed : Bool} (change : RowChange leaseKeyOf slot target old row failed) (home : HoldersAtHome leaseKeyOf s.leases) (ne : slot ≠ other)
    (leased : slot.leaseEpoch.isSome) (leasedOther : other.leaseEpoch.isSome) (owner : Owner slot s)
    (ownerOther : Owner other s) : target ≠ other.key := by
  rintro rfl
  have sameKey : leaseKeyOf slot.workItemId = leaseKeyOf other.workItemId :=
    change.own_or_foreign.elim (fun own => by rw [(key_eq_iff.mp own).1]) fun foreign => foreign.2.symm
  obtain ⟨sameItem, sameEpoch⟩ := owners_agree home leased leasedOther owner ownerOther sameKey
  rcases change.own_or_foreign with own | ⟨foreign, _⟩
  · exact leaseEpoch_ne ne own.symm sameEpoch
  · exact foreign sameItem.symm

-- While a call owns its lease, no other call puts a foreign send in flight beside it.
theorem RowChange.surfaceClear {target : IntentKey} {failed : Bool}
    (change : RowChange leaseKeyOf slot target (s.intents.get? target) row failed) (home : HoldersAtHome leaseKeyOf s.leases)
    (leased : slot.leaseEpoch.isSome) (leasedOther : other.leaseEpoch.isSome) (owner : Owner slot s)
    (ownerOther : Owner other s) (intents : t.intents = s.intents.set target row)
    (clear : SurfaceClear leaseKeyOf alone other s) : SurfaceClear leaseKeyOf alone other t := by
  intro shared _ ⟨key, found, stored, foreign, sameKey, sent⟩
  rw [intents] at stored
  rcases Table.get?_set_cases stored with ⟨rfl, rfl⟩ | ⟨_, stored⟩
  · have own : key = slot.key := change.own_of_sentInFlight sent
    have item : key.workItemId = slot.workItemId := by rw [own]; rfl
    have agree := owners_agree home leased leasedOther owner ownerOther (by rw [← item]; exact sameKey)
    exact foreign (item.trans agree.1)
  · exact clear shared leasedOther ⟨key, found, stored, foreign, sameKey, sent⟩

theorem SurfaceClear.released {old : OperationIntent V} (intents : t.intents = s.intents.set slot.key old.release)
    (clear : SurfaceClear leaseKeyOf alone other s) : SurfaceClear leaseKeyOf alone other t := by
  intro shared leased ⟨key, found, stored, foreign, sameKey, sent⟩
  rw [intents] at stored
  rcases Table.get?_set_cases stored with ⟨_, rfl⟩ | ⟨_, stored⟩
  · simp [OperationIntent.SentInFlight] at sent
  · exact clear shared leased ⟨key, found, stored, foreign, sameKey, sent⟩

theorem SurfaceClear.congr (intents : t.intents = s.intents) (clear : SurfaceClear leaseKeyOf alone slot s) :
    SurfaceClear leaseKeyOf alone slot t := by
  simpa only [SurfaceClear, ForeignSent, intents] using clear

-- A fact about the own row that the release of another attempt's unsent claim leaves true.
def ReleaseProof (slot : PublishSlot) (holds : OperationIntent V → Prop) : Prop :=
  ∀ row epoch, row.unsentBy epoch = true → slot.leaseEpoch ≠ some epoch → holds row → holds row.release

-- A call that knows no send is open has its own epoch on the row.
def Armored (slot : PublishSlot) (holds : OperationIntent V → Prop) (unsent : Prop) : Prop :=
  unsent → ∀ row, holds row → ∀ epoch, slot.leaseEpoch = some epoch → row.detail.mutatingEpoch = some epoch

theorem OwnerKnows.congr {holds : OperationIntent V → Prop} {unsent clear : Prop}
    (owner : Owner slot t → Owner slot s) (intents : t.intents = s.intents)
    (log : unsettledSend slot.key t.log = unsettledSend slot.key s.log)
    (knows : OwnerKnows leaseKeyOf alone slot holds unsent clear s) : OwnerKnows leaseKeyOf alone slot holds unsent clear t := by
  intro owns
  obtain ⟨row, unsettled, surface⟩ := knows (owner owns)
  refine ⟨by simpa only [OwnRow, intents] using row, fun h => log.trans (unsettled h), fun h => (surface h).congr intents⟩

theorem OwnerKnows.change {holds : OperationIntent V → Prop} {unsent clear : Prop}
    (released : ReleaseProof other holds) (armored : Armored other holds unsent) (inv : PublishInv leaseKeyOf s)
    (ne : slot ≠ other) (leased : slot.leaseEpoch.isSome) (leasedOther : other.leaseEpoch.isSome)
    (step : Guarantee leaseKeyOf alone slot s t) (knows : OwnerKnows leaseKeyOf alone other holds unsent clear s) :
    OwnerKnows leaseKeyOf alone other holds unsent clear t := by
  obtain ⟨leases, change⟩ := step
  intro ownerAfter
  have ownerOther : Owner other s := (Owner.congr leases).mp ownerAfter
  obtain ⟨⟨row, stored, holding⟩, unsettled, surface⟩ := knows ownerOther
  cases change with
  | quiet intents notes neutral log =>
    exact OwnerKnows.congr (Owner.congr leases).mp intents (log ▸ unsettledSend_notes _ _ _ neutral) knows ownerAfter
  | rewrite target written failed fenced change intents log =>
    have owner := owner_of_fenced fenced
    have missed : other.key ≠ target := (change.target_ne inv.home ne leased leasedOther owner ownerOther).symm
    refine ⟨⟨row, ?_, holding⟩, ?_, ?_⟩
    · rw [intents, Table.get?_set_of_ne _ _ _ missed, stored]
    · intro h
      rw [log]
      exact unsettledSend_recorded (unsettled h) _ _
    · exact fun h => change.surfaceClear inv.home leased leasedOther owner ownerOther intents (surface h)
  | release old epoch leasedBy storedOld unsentBy intents log =>
    refine ⟨?_, fun h => log ▸ unsettled h, fun h => (surface h).released intents⟩
    by_cases sameKey : other.key = slot.key
    · have old_eq : old = row := Option.some.inj (storedOld.symm.trans (sameKey ▸ stored))
      subst old_eq
      refine ⟨old.release, by rw [intents, sameKey, Table.get?_set_self], ?_⟩
      exact released old epoch unsentBy (fun same => leaseEpoch_ne ne sameKey.symm (leasedBy.trans same.symm)) holding
    · exact ⟨row, by rw [intents, Table.get?_set_of_ne _ _ _ sameKey, stored], holding⟩
  | send armed intents notes neutral log =>
    refine ⟨⟨row, by rw [intents, stored], holding⟩, ?_, fun h => (surface h).congr intents⟩
    intro h
    rw [log, unsettledSend_notes _ _ _ neutral, unsettledSend]
    by_cases sameKey : slot.key = other.key
    · exfalso
      obtain ⟨⟨armedRow, storedArmed, _, epochs, _⟩, _⟩ := armed
      have row_eq : armedRow = row := Option.some.inj (storedArmed.symm.trans (sameKey ▸ stored))
      subst row_eq
      obtain ⟨epoch, leased⟩ := Option.isSome_iff_exists.mp leased
      obtain ⟨epoch', leasedOther⟩ := Option.isSome_iff_exists.mp leasedOther
      have same : epoch = epoch' :=
        Option.some.inj ((epochs epoch leased).symm.trans (armored h _ holding epoch' leasedOther))
      exact leaseEpoch_ne ne sameKey (by rw [leased, leasedOther, same])
    · simpa [sameKey] using unsettled h

theorem unsentBy_own {epoch : Nat} (opened : row.Open other) (unsent : row.unsentBy epoch = true)
    (leasedOther : other.leaseEpoch.isSome) : other.leaseEpoch = some epoch := by
  obtain ⟨own, leasedOther⟩ := Option.isSome_iff_exists.mp leasedOther
  obtain ⟨_, _, _, _, armed⟩ := (unsentBy_iff row epoch).mp unsent
  exact leasedOther.trans ((opened.2.2.2 own leasedOther).symm.trans armed)

theorem armed_change (inv : PublishInv leaseKeyOf s) (shared : alone = false) (ne : slot ≠ other)
    (leased : slot.leaseEpoch.isSome) (leasedOther : other.leaseEpoch.isSome)
    (step : Guarantee leaseKeyOf alone slot s t) (knows : (Phase.armed : Phase V).Knows leaseKeyOf alone other s) :
    (Phase.armed : Phase V).Knows leaseKeyOf alone other t := by
  obtain ⟨⟨row, stored, guarded, epochs, opened⟩, unsettled, surface⟩ := knows
  have owned : OwnerKnows leaseKeyOf alone other (fun row => row.Open other) False True s := fun owner =>
    ⟨⟨row, stored, opened (.inr owner)⟩, False.elim, fun _ => surface owner⟩
  have released : ReleaseProof other fun row : OperationIntent V => row.Open other :=
    fun row epoch unsent notOwn opened => absurd (unsentBy_own opened unsent leasedOther) notOwn
  have owned' := owned.change released (fun h => h.elim) inv ne leased leasedOther step
  have openedAfter : ∀ after, t.intents.get? other.key = some after → alone = true ∨ Owner other t → after.Open other := by
    intro after storedAfter owner
    obtain ⟨⟨row', stored', opened'⟩, _⟩ := owned' (owner.resolve_left (by simp [shared]))
    obtain rfl : row' = after := Option.some.inj (stored'.symm.trans storedAfter)
    exact opened'
  have surfaceAfter : Owner other t → SurfaceClear leaseKeyOf alone other t := fun owner => (owned' owner).2.2 trivial
  have epoch_ne : slot.key = other.key → ∀ epoch, slot.leaseEpoch = some epoch →
      row.detail.mutatingEpoch ≠ some epoch := by
    intro sameKey epoch leased armed
    obtain ⟨epoch', leasedOther⟩ := Option.isSome_iff_exists.mp leasedOther
    have same : epoch' = epoch := Option.some.inj ((epochs epoch' leasedOther).symm.trans armed)
    exact leaseEpoch_ne ne sameKey (by rw [leased, leasedOther, same])
  obtain ⟨leases, change⟩ := step
  cases change with
  | quiet intents notes neutral log =>
    rw [← intents] at stored
    refine ⟨⟨row, stored, guarded, epochs, openedAfter row stored⟩, ?_, surfaceAfter⟩
    rw [log, unsettledSend_notes _ _ _ neutral, unsettled]
  | rewrite target written failed fenced change intents log =>
    refine ⟨?_, log ▸ unsettledSend_recorded unsettled _ _, surfaceAfter⟩
    by_cases same : other.key = target
    · subst same
      rw [stored] at change
      have kept : written.Guarded ∧ written.detail.mutatingEpoch = row.detail.mutatingEpoch := by
        rcases change.own_or_foreign with own | foreign
        · exact change.keeps_armed guarded (epoch_ne own.symm) leased
        · cases change with
          | settle _ _ _ status _ epoch => exact ⟨status.imp id .inl, epoch⟩
          | touch _ _ own | claim _ _ own | mark _ _ own | save _ _ own | fail _ _ own =>
            exact absurd (key_eq_iff.mp own).1 foreign.1
      have storedAfter : t.intents.get? other.key = some written := by rw [intents, Table.get?_set_self]
      exact ⟨written, storedAfter, kept.1, fun epoch leased => kept.2.trans (epochs epoch leased),
        openedAfter written storedAfter⟩
    · have storedAfter : t.intents.get? other.key = some row := by
        rw [intents, Table.get?_set_of_ne _ _ _ same, stored]
      exact ⟨row, storedAfter, guarded, epochs, openedAfter row storedAfter⟩
  | release old epoch leasedBy storedOld unsentBy intents log =>
    refine ⟨?_, log ▸ unsettled, surfaceAfter⟩
    have elsewhere : other.key ≠ slot.key := by
      intro sameKey
      have old_eq : old = row := Option.some.inj (storedOld.symm.trans (sameKey ▸ stored))
      exact not_guarded_of_unsent unsentBy (old_eq ▸ guarded)
    have storedAfter : t.intents.get? other.key = some row := by
      rw [intents, Table.get?_set_of_ne _ _ _ elsewhere, stored]
    exact ⟨row, storedAfter, guarded, epochs, openedAfter row storedAfter⟩
  | send armed intents notes neutral log =>
    have elsewhere : slot.key ≠ other.key := by
      intro sameKey
      obtain ⟨⟨armedRow, storedArmed, _, armedEpochs, _⟩, _⟩ := armed
      have row_eq : armedRow = row := Option.some.inj (storedArmed.symm.trans (sameKey ▸ stored))
      obtain ⟨epoch, leased⟩ := Option.isSome_iff_exists.mp leased
      exact epoch_ne sameKey epoch leased (row_eq ▸ armedEpochs epoch leased)
    rw [← intents] at stored
    refine ⟨⟨row, stored, guarded, epochs, openedAfter row stored⟩, ?_, surfaceAfter⟩
    rw [log, unsettledSend_notes _ _ _ neutral, unsettledSend]
    simpa [elsewhere] using unsettled

theorem Retryable.release (retryable : row.Retryable) : row.release.Retryable := by
  simpa [OperationIntent.Retryable] using retryable

theorem not_guarded_release {epoch : Nat} (unsent : row.unsentBy epoch = true) :
    ¬row.release.Guarded := by
  obtain ⟨pending, _, resultless, _⟩ := (unsentBy_iff row epoch).mp unsent
  simp [OperationIntent.Guarded, pending, resultless]

-- What one leased call knows survives every step of another.
theorem Phase.At.change {phase : Phase V} (inv : PublishInv leaseKeyOf s) (shared : alone = false)
    (ne : slot ≠ other) (leased : slot.leaseEpoch.isSome) (leasedOther : other.leaseEpoch.isSome)
    (step : Guarantee leaseKeyOf alone slot s t) (holds : phase.At leaseKeyOf alone other s) :
    phase.At leaseKeyOf alone other t := by
  obtain ⟨issued, knows⟩ := holds
  refine ⟨by simpa only [Issued, step.1] using issued, ?_⟩
  have plain : ∀ holds : OperationIntent V → Prop, Armored other holds False := fun _ h => h.elim
  cases phase with
  | begun => trivial
  | stored result =>
    refine OwnerKnows.change ?_ (plain _) inv ne leased leasedOther step knows
    exact fun row epoch _ _ stored => by rwa [release_result]
  | retryable =>
    refine OwnerKnows.change ?_ (plain _) inv ne leased leasedOther step knows
    exact fun row epoch _ _ retryable => Retryable.release retryable
  | claimable =>
    refine OwnerKnows.change ?_ (plain _) inv ne leased leasedOther step knows
    exact fun row epoch unsent _ claimable => ⟨Retryable.release claimable.1, not_guarded_release unsent⟩
  | claimed =>
    refine OwnerKnows.change ?_ ?_ inv ne leased leasedOther step knows
    · exact fun row epoch unsent notOwn claimed => absurd (unsentBy_own claimed.1 unsent leasedOther) notOwn
    · exact fun _ row claimed => claimed.1.2.2.2
  | armed => exact armed_change inv shared ne leased leasedOther step knows
  | opened =>
    refine OwnerKnows.change ?_ (plain _) inv ne leased leasedOther step knows
    exact fun row epoch unsent notOwn opened => absurd (unsentBy_own opened unsent leasedOther) notOwn

-- What a call knows survives every move of the leases.
theorem Phase.At.move {phase : Phase V} {move : LeaseMove}
    (moved : publishMove leaseKeyOf move s = some t) (holds : phase.At leaseKeyOf alone slot s) :
    phase.At leaseKeyOf alone slot t := by
  obtain ⟨issued, knows⟩ := holds
  obtain rfl := Option.some.inj moved
  have owner : Owner slot { s with toLeaseState := move.apply leaseKeyOf s.toLeaseState } → Owner slot s :=
    fun owns epoch leased => owns_of_owns_apply (issued epoch leased) move (owns epoch leased)
  refine ⟨fun epoch leased => (issued epoch leased).apply move, ?_⟩
  cases phase with
  | begun => trivial
  | armed =>
    obtain ⟨⟨row, stored, guarded, epochs, opened⟩, unsettled, surface⟩ := knows
    exact ⟨⟨row, stored, guarded, epochs, fun h => opened (h.imp id owner)⟩, unsettled, fun h => (surface (owner h)).congr rfl⟩
  | stored | retryable | claimable | claimed | opened => exact OwnerKnows.congr owner rfl rfl knows

theorem PublishInv.move {move : LeaseMove} (inv : PublishInv leaseKeyOf s)
    (moved : publishMove leaseKeyOf move s = some t) : PublishInv leaseKeyOf t := by
  obtain rfl := Option.some.inj moved
  exact ⟨inv.home.apply move, inv.guarded⟩

theorem PublishInv.change (inv : PublishInv leaseKeyOf s) (step : Guarantee leaseKeyOf alone slot s t) :
    PublishInv leaseKeyOf t := by
  obtain ⟨leases, change⟩ := step
  refine ⟨by rw [show t.leases = s.leases from congrArg LeaseState.leases leases]; exact inv.home, ?_⟩
  intro key unsettled
  cases change with
  | quiet intents notes neutral log =>
    rw [log, unsettledSend_notes _ _ _ neutral] at unsettled
    rw [intents]
    exact inv.guarded key unsettled
  | rewrite target row failed fenced change intents log =>
    have before : unsettledSend key s.log = true ∧ (failed = true → target ≠ key) := by
      rw [log] at unsettled
      split at unsettled
      · obtain ⟨ne, before⟩ : target ≠ key ∧ unsettledSend key s.log = true := by simpa [unsettledSend] using unsettled
        exact ⟨before, fun _ => ne⟩
      · next notFailed => exact ⟨unsettled, fun failed => absurd failed notFailed⟩
    obtain ⟨old, stored, guarded⟩ := inv.guarded key before.1
    by_cases same : key = target
    · subst same
      rw [stored] at change
      refine ⟨row, by rw [intents, Table.get?_set_self], ?_⟩
      exact (change.guarded guarded).resolve_right fun failed => before.2 failed rfl
    · exact ⟨old, by rw [intents, Table.get?_set_of_ne _ _ _ same, stored], guarded⟩
  | release old epoch leased stored unsent intents log =>
    obtain ⟨row, storedRow, guarded⟩ := inv.guarded key (log ▸ unsettled)
    have ne : key ≠ slot.key := by
      rintro rfl
      exact not_guarded_of_unsent unsent (Option.some.inj (stored.symm.trans storedRow) ▸ guarded)
    exact ⟨row, by rw [intents, Table.get?_set_of_ne _ _ _ ne, storedRow], guarded⟩
  | send armed intents notes neutral log =>
    rw [log, unsettledSend_notes _ _ _ neutral, unsettledSend] at unsettled
    rw [intents]
    by_cases same : slot.key = key
    · subst same
      obtain ⟨⟨row, stored, guarded, _⟩, _⟩ := armed
      exact ⟨row, stored, guarded⟩
    · exact inv.guarded key (by simpa [same] using unsettled)

end Interference
end PrAgent
