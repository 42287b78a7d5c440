import PrAgent.PublishInterference
set_option autoImplicit false

namespace PrAgent

section Contract

variable {V : Type} (leaseKeyOf : WorkItemId → LeaseKey)

-- The lease row still names the caller only if it has not expired.
def LeaseCurrent (slot : PublishSlot) (s : PublishState V) : Prop :=
  ∀ epoch ∈ slot.leaseEpoch, ownsPrActorLease s.leases slot.workItemId epoch = true →
    s.held slot.workItemId epoch = true

-- The claim of a leased call does not run in the gap between the expiry of its lease and a renewal, nor, among
-- calls for other keys, does its in-flight lookup. An unleased call does not claim a row on which a leased attempt
-- left its unsent marker.
def Timely (alone : Bool) (slot : PublishSlot) (s : PublishState V) : PublishOp V → Prop
  | .findInFlight => alone = false → LeaseCurrent slot s
  | .merge patch => patch.mutating = some true → LeaseCurrent slot s ∧
      (slot.leaseEpoch = none → ∀ row ∈ s.intents.get? slot.key, row.unstarted = false)
  | _ => True

instance (slot : PublishSlot) (s : PublishState V) : Decidable (LeaseCurrent slot s) :=
  inferInstanceAs (Decidable (∀ epoch ∈ slot.leaseEpoch, _))

instance (alone : Bool) (slot : PublishSlot) (s : PublishState V) (op : PublishOp V) :
    Decidable (Timely alone slot s op) :=
  match op with
  | .findInFlight => inferInstanceAs (Decidable (alone = false → LeaseCurrent slot s))
  | .merge patch => inferInstanceAs (Decidable (patch.mutating = some true → LeaseCurrent slot s ∧
      (slot.leaseEpoch = none → ∀ row ∈ s.intents.get? slot.key, row.unstarted = false)))
  | .aborted | .isHeld .. | .persist .. | .releaseUnsent .. | .reconcile .. | .selectReconciled ..
  | .findCompletedPublishRecordId .. | .recover .. | .mutate => isTrue trivial

def publishContract (alone : Bool) (slot : PublishSlot) : Contract (publishInterface V) (PublishState V) where
  act := fun op s answer t => Timely alone slot s op ∧ ∃ reply, publishAct leaseKeyOf slot op reply s = some (answer, t)
  inv := PublishInv leaseKeyOf
  rely := fun s t => ∀ phase : Phase V, phase.At leaseKeyOf alone slot s → phase.At leaseKeyOf alone slot t
  guarantee := Guarantee leaseKeyOf alone slot
  rely_refl := fun _ _ holds => holds
  rely_trans := fun first second phase holds => second phase (first phase holds)

end Contract

section Operations

variable {V : Type} {leaseKeyOf : WorkItemId → LeaseKey} {alone : Bool} {slot : PublishSlot} {s t : PublishState V}

theorem Phase.stable (phase : Phase V) :
    Stable (publishContract leaseKeyOf alone slot) (phase.At leaseKeyOf alone slot) :=
  fun _ _ holds rely _ => rely phase holds

theorem Phase.At.congr {phase : Phase V} (leases : t.toLeaseState = s.toLeaseState) (intents : t.intents = s.intents)
    (log : ∀ key, unsettledSend key t.log = unsettledSend key s.log) (holds : phase.At leaseKeyOf alone slot s) :
    phase.At leaseKeyOf alone slot t := by
  obtain ⟨issued, knows⟩ := holds
  refine ⟨by simpa only [Issued, leases] using issued, ?_⟩
  have owner : Owner slot t → Owner slot s := (Owner.congr leases).mp
  cases phase with
  | begun => trivial
  | armed =>
    obtain ⟨⟨row, stored, guarded, epochs, opened⟩, unsettled, surface⟩ := knows
    exact ⟨⟨row, by rw [intents, stored], guarded, epochs, fun h => opened (h.imp id owner)⟩,
      (log slot.key).trans unsettled, fun h => (surface (owner h)).congr intents⟩
  | stored | retryable | claimable | claimed | opened => exact OwnerKnows.congr owner intents (log slot.key) knows

-- The operations that read: they leave rows and leases as they are and add no send to the log.
def PublishOp.reads : PublishOp V → Bool
  | .aborted | .isHeld .. | .findInFlight | .selectReconciled .. | .findCompletedPublishRecordId .. | .recover .. => true
  | .persist .. | .merge .. | .releaseUnsent .. | .reconcile .. | .mutate => false

theorem statement_cases {α : Type} {reply : PublishReply V} {effect : α × PublishState V} {answer : Except Thrown α}
    (served : statement reply s effect = some (answer, t)) :
    (answer = .ok effect.1 ∧ t = effect.2) ∨ (answer = .error .database ∧ (t = effect.2 ∨ t = s)) := by
  unfold statement at served
  split at served
  · obtain ⟨rfl, rfl⟩ : Except.ok effect.1 = answer ∧ effect.2 = t := by simpa using served
    exact .inl ⟨rfl, rfl⟩
  · next applied =>
    obtain ⟨rfl, same⟩ : Except.error Thrown.database = answer ∧ (if applied then effect.2 else s) = t := by
      simpa using served
    refine .inr ⟨rfl, ?_⟩
    cases applied with
    | true => exact .inl same.symm
    | false => exact .inr same.symm
  · cases served

theorem statement_read {α : Type} {reply : PublishReply V} {value : α} {answer : Except Thrown α}
    (served : statement reply s (value, s) = some (answer, t)) : t = s := by
  rcases statement_cases served with ⟨_, same⟩ | ⟨_, same | same⟩ <;> exact same

structure Quiet (s t : PublishState V) : Prop where
  leases : t.toLeaseState = s.toLeaseState
  intents : t.intents = s.intents
  log : ∃ notes : List (PublishEvent V), notes.all PublishEvent.isNote = true ∧ t.log = notes ++ s.log

theorem Quiet.refl : Quiet s s := ⟨rfl, rfl, [], rfl, rfl⟩

theorem Quiet.note (event : PublishEvent V) (neutral : event.isNote = true) : Quiet s (s.note event) :=
  ⟨rfl, rfl, [event], by simp [neutral], rfl⟩

theorem Quiet.guarantee (quiet : Quiet s t) : Guarantee leaseKeyOf alone slot s t := by
  obtain ⟨notes, neutral, log⟩ := quiet.log
  exact ⟨quiet.leases, .quiet quiet.intents notes neutral log⟩

theorem Quiet.holds {phase : Phase V} (quiet : Quiet s t) (holds : phase.At leaseKeyOf alone slot s) :
    phase.At leaseKeyOf alone slot t := by
  obtain ⟨notes, neutral, log⟩ := quiet.log
  exact holds.congr quiet.leases quiet.intents fun key => log ▸ unsettledSend_notes key notes s.log neutral

theorem quiet_of_reads {op : PublishOp V} {reply : PublishReply V}
    {answer : Except Thrown ((publishInterface V).Ans op)} (reads : op.reads = true)
    (acted : publishAct leaseKeyOf slot op reply s = some (answer, t)) : Quiet s t := by
  cases op with
  | persist | merge | releaseUnsent | reconcile | mutate => cases reads
  | isHeld | findInFlight | selectReconciled => exact statement_read acted ▸ Quiet.refl
  | aborted =>
    simp only [publishAct] at acted
    split at acted <;> simp_all [Quiet.refl]
  | findCompletedPublishRecordId target intent =>
    simp only [publishAct] at acted
    split at acted
    · exact (Prod.mk.inj (Option.some.inj acted)).2 ▸ Quiet.refl
    · exact (Prod.mk.inj (Option.some.inj acted)).2 ▸ Quiet.note _ rfl
    · exact (Prod.mk.inj (Option.some.inj acted)).2 ▸ Quiet.refl
    · cases acted
  | recover target intent publishRecordId =>
    simp only [publishAct] at acted
    split at acted
    · exact (Prod.mk.inj (Option.some.inj acted)).2 ▸ Quiet.refl
    · exact (Prod.mk.inj (Option.some.inj acted)).2 ▸ Quiet.note _ rfl
    · exact (Prod.mk.inj (Option.some.inj acted)).2 ▸ Quiet.refl
    · cases acted

theorem ask_reads {op : PublishOp V} (reads : op.reads = true) (phase : Phase V) :
    Triple (publishContract leaseKeyOf alone slot) (phase.At leaseKeyOf alone slot) (ask op)
      (fun _ => phase.At leaseKeyOf alone slot) (fun _ => phase.At leaseKeyOf alone slot) := by
  refine Triple.perform phase.stable ?_
  rintro s answer t holds _ ⟨_, reply, acted⟩
  have quiet := quiet_of_reads reads acted
  refine ⟨quiet.guarantee, ?_⟩
  cases answer with
  | ok value => exact quiet.holds holds
  | error error => exact quiet.holds holds

theorem ask_statement {op : PublishOp V} {before : PublishState V → Prop} {normal : (publishInterface V).Ans op → PublishState V → Prop}
    {exceptional : Thrown → PublishState V → Prop} (effect : PublishState V → (publishInterface V).Ans op × PublishState V)
    (acts : ∀ reply s, publishAct leaseKeyOf slot op reply s = statement reply s (effect s))
    (stable : Stable (publishContract leaseKeyOf alone slot) before)
    (keeps : ∀ s, before s → PublishInv leaseKeyOf s → Timely alone slot s op →
      Guarantee leaseKeyOf alone slot s (effect s).2 ∧ normal (effect s).1 (effect s).2 ∧
        exceptional .database (effect s).2 ∧ exceptional .database s) :
    Triple (publishContract leaseKeyOf alone slot) before (ask op) normal exceptional := by
  refine Triple.perform stable ?_
  rintro s answer t holds inv ⟨timely, reply, acted⟩
  obtain ⟨kept, done, failed, untouched⟩ := keeps s holds inv timely
  rw [acts reply s] at acted
  rcases statement_cases acted with ⟨rfl, rfl⟩ | ⟨rfl, rfl | rfl⟩
  · exact ⟨kept, done⟩
  · exact ⟨kept, failed⟩
  · exact ⟨Quiet.refl.guarantee, untouched⟩

-- Errors other than a failed recovery lookup.
def NotRecoveryFailed (error : Thrown) : Prop := AppErrorCode.recoveryFailed.raisedBy error = false

theorem assertPrActorLeaseHeld_keeps (workItemId : WorkItemId) (leaseEpoch : Nat) (phase : Phase V) :
    Triple (publishContract leaseKeyOf alone slot) (phase.At leaseKeyOf alone slot)
      (assertPrActorLeaseHeld workItemId leaseEpoch) (fun _ => phase.At leaseKeyOf alone slot)
      (fun error s => NotRecoveryFailed error ∧ phase.At leaseKeyOf alone slot s) := by
  refine Triple.bind (m := fun _ => phase.At leaseKeyOf alone slot) ?_ fun held => ?_
  · refine ask_statement (fun s => (s.held workItemId leaseEpoch, s)) (fun _ _ => rfl) phase.stable ?_
    exact fun s holds _ _ => ⟨Quiet.refl.guarantee, holds, ⟨rfl, holds⟩, ⟨rfl, holds⟩⟩
  · cases held with
    | true => exact Triple.pure fun _ holds => holds
    | false => exact Triple.throw fun _ holds => ⟨rfl, holds⟩

theorem throwIfExecutionAborted_keeps (phase : Phase V) :
    Triple (publishContract leaseKeyOf alone slot) (phase.At leaseKeyOf alone slot) throwIfExecutionAborted
      (fun _ => phase.At leaseKeyOf alone slot) (fun _ => phase.At leaseKeyOf alone slot) := by
  refine Triple.bind (ask_reads rfl phase) fun aborted => ?_
  match aborted with
  | none => exact Triple.pure fun _ holds => holds
  | some (some reason) => exact Triple.throw fun _ holds => holds
  | some none => exact Triple.throw fun _ holds => holds

theorem fencedWrite_keeps {α : Type} {workItemId : WorkItemId} {leaseEpoch : Option Nat} {write : PublishProgram V α}
    {phase : Phase V} {normal : α → PublishState V → Prop} {exceptional : Thrown → PublishState V → Prop}
    (lost : ∀ error s, NotRecoveryFailed error → phase.At leaseKeyOf alone slot s → exceptional error s)
    (body : Triple (publishContract leaseKeyOf alone slot) (phase.At leaseKeyOf alone slot) write normal exceptional) :
    Triple (publishContract leaseKeyOf alone slot) (phase.At leaseKeyOf alone slot)
      (fencedWrite workItemId leaseEpoch true none write) normal exceptional := by
  cases leaseEpoch with
  | none => exact body
  | some epoch =>
    refine Triple.bind (m := fun _ => phase.At leaseKeyOf alone slot) ?_ fun _ => ?_
    · exact (assertPrActorLeaseHeld_keeps workItemId epoch phase).weakenError
        fun error s ⟨other, holds⟩ => lost error s other holds
    · refine Triple.bind body fun result => ?_
      exact Triple.pure fun _ done => done

end Operations

section Statements

variable {V : Type} {leaseKeyOf : WorkItemId → LeaseKey} {alone : Bool} {slot : PublishSlot} {s : PublishState V}

-- What the row returned by the reservation tells the caller.
def Reserved (leaseKeyOf : WorkItemId → LeaseKey) (alone : Bool) (slot : PublishSlot) (row : OperationIntent V)
    (s : PublishState V) : Prop :=
  (Phase.stored row.detail.result).At leaseKeyOf alone slot s ∧
    (row.Retryable → Phase.retryable.At leaseKeyOf alone slot s)

variable (alone) in
theorem persist_spec (detail : IntentDetail V) (unmarked : detail.mutating = none ∧ detail.result = none)
    (issued : Issued leaseKeyOf slot s) :
    Guarantee leaseKeyOf alone slot s (persistStatement s slot detail).2 ∧
      Issued leaseKeyOf slot (persistStatement s slot detail).2 ∧
      ∀ row, (persistStatement s slot detail).1 = some row →
        Reserved leaseKeyOf alone slot row (persistStatement s slot detail).2 := by
  unfold persistStatement
  split
  · next fenced =>
    have reserved : ∀ row : OperationIntent V, Reserved leaseKeyOf alone slot row (s.write slot.key row) := by
      intro row
      have stored : (s.write slot.key row).intents.get? slot.key = some row := Table.get?_set_self ..
      exact ⟨⟨issued, fun _ => ⟨⟨row, stored, .inr rfl⟩, False.elim, False.elim⟩⟩,
        fun retryable => ⟨issued, fun _ => ⟨⟨row, stored, retryable⟩, False.elim, False.elim⟩⟩⟩
    refine ⟨⟨rfl, .rewrite slot.key _ false fenced ?_ rfl rfl⟩, issued, ?_⟩
    · cases s.intents.get? slot.key with
      | none => exact .insert _ rfl rfl unmarked
      | some old => exact .touch old _ rfl ⟨rfl, rfl⟩
    · intro row returned
      obtain rfl := Option.some.inj returned
      exact reserved _
  · exact ⟨Quiet.refl.guarantee, issued, fun row returned => nomatch returned⟩

-- Reserving again in the middle of an attempt changes nothing the attempt knows.
theorem persist_opened (detail : IntentDetail V) (unmarked : detail.mutating = none ∧ detail.result = none)
    (holds : Phase.opened.At leaseKeyOf alone slot s) :
    Phase.opened.At leaseKeyOf alone slot (persistStatement s slot detail).2 := by
  obtain ⟨issued, knows⟩ := holds
  have issued' := (persist_spec alone detail unmarked issued).2.1
  refine ⟨issued', fun owner => ?_⟩
  unfold persistStatement at owner ⊢
  split at owner
  · next fenced =>
    obtain ⟨⟨row, stored, opened⟩, _⟩ := knows (owner_of_fenced fenced)
    rw [if_pos fenced]
    simp only [stored]
    exact ⟨⟨_, Table.get?_set_self .., opened⟩, False.elim, False.elim⟩
  · next unfenced =>
    rw [if_neg unfenced]
    exact knows owner

variable (slot s) in
-- A merge on the caller's own row either finds the fence or the row closed, or writes.
theorem merge_cases (patch : IntentDetail V) :
    mergeStatement s slot patch = (none, s) ∨
      ∃ old, s.intents.get? slot.key = some old ∧ (old.status = .pending ∨ old.status = .failed) ∧ Fenced slot s ∧
        mergeStatement s slot patch =
          let row : OperationIntent V :=
            { old with
              status := .pending
              leaseEpoch := slot.leaseEpoch.or old.leaseEpoch
              detail := old.detail.merge patch }
          (some row, s.write slot.key row) := by
  unfold mergeStatement
  split
  · exact .inl rfl
  · next old stored =>
    split
    · next open' => exact .inr ⟨old, stored, open'.1, open'.2, rfl⟩
    · exact .inl rfl

variable (slot s) in
theorem reconcile_cases (target : IntentKey) (status : OperationIntentStatus) (publishRecordId : Option Nat)
    (patch : IntentDetail V) :
    reconcileStatement s target slot.workItemId slot.leaseEpoch status publishRecordId patch = (none, s) ∨
      ∃ old, s.intents.get? target = some old ∧ old.status.mayBecome status = true ∧ Fenced slot s ∧
        reconcileStatement s target slot.workItemId slot.leaseEpoch status publishRecordId patch =
          let row : OperationIntent V :=
            { status
              publishRecordId := publishRecordId.or old.publishRecordId
              leaseEpoch := slot.leaseEpoch.or old.leaseEpoch
              detail := old.detail.merge patch }
          (some row, { s.write target row with
            log := if status = .failed then .recordedFailed target :: s.log else s.log }) := by
  unfold reconcileStatement
  split
  · exact .inl rfl
  · next old stored =>
    split
    · next open' => exact .inr ⟨old, stored, open'.1, open'.2, rfl⟩
    · exact .inl rfl

theorem Fenced.of_owner (current : LeaseCurrent slot s) (owner : Owner slot s) : Fenced slot s := by
  unfold Fenced LeaseState.fenced
  cases leased : slot.leaseEpoch with
  | none => rfl
  | some epoch => exact current epoch leased (owner epoch leased)

-- Writing the caller's own row puts no foreign send in flight.
theorem SurfaceClear.own {t : PublishState V} {row : OperationIntent V} (clear : SurfaceClear leaseKeyOf alone slot s)
    (intents : t.intents = s.intents.set slot.key row) : SurfaceClear leaseKeyOf alone slot t := by
  intro shared leased ⟨key, found, stored, foreign, sameKey, sent⟩
  have elsewhere : key ≠ slot.key := fun same => foreign (by rw [same]; rfl)
  rw [intents, Table.get?_set_of_ne _ _ _ elsewhere] at stored
  exact clear shared leased ⟨key, found, stored, foreign, sameKey, sent⟩

theorem claim_spec (patch : IntentDetail V) (mutating : patch.mutating = some true) (resultless : patch.result = none)
    (epoch : patch.mutatingEpoch = slot.leaseEpoch) (started : patch.sendStarted = slot.leaseEpoch.map fun _ => false)
    (inv : PublishInv leaseKeyOf s) (timely : Timely alone slot s (.merge patch))
    (holds : Phase.claimable.At leaseKeyOf alone slot s) :
    Guarantee leaseKeyOf alone slot s (mergeStatement s slot patch).2 ∧
      Phase.claimed.At leaseKeyOf alone slot (mergeStatement s slot patch).2 := by
  obtain ⟨issued, knows⟩ := holds
  obtain ⟨current, unmarked⟩ := timely mutating
  rcases merge_cases slot s patch with refused | ⟨old, stored, status, fenced, written⟩
  · rw [refused]
    refine ⟨Quiet.refl.guarantee, issued, fun owner => ?_⟩
    exfalso
    obtain ⟨⟨row, stored, retryable, _⟩, _⟩ := knows owner
    have fenced : Fenced slot s := .of_owner current owner
    simp only [mergeStatement, stored] at refused
    rw [if_pos ⟨retryable.1, fenced⟩] at refused
    simp at refused
  · rw [written]
    obtain ⟨⟨row, stored', retryable, unguarded⟩, _, clear⟩ := knows (owner_of_fenced fenced)
    obtain rfl : row = old := Option.some.inj (stored'.symm.trans stored)
    have settled : unsettledSend slot.key s.log = false := by
      by_contra open'
      obtain ⟨guard, storedGuard, guarded⟩ := inv.guarded slot.key (by simpa using open')
      exact unguarded (Option.some.inj (storedGuard.symm.trans stored) ▸ guarded)
    have claimed : ({ row with
        status := .pending
        leaseEpoch := slot.leaseEpoch.or row.leaseEpoch
        detail := row.detail.merge patch } : OperationIntent V).Claimed slot := by
      refine ⟨⟨rfl, by simp [IntentDetail.merge, mutating], ?_, ?_⟩, ?_, ?_⟩
      · simp [IntentDetail.merge, resultless, retryable.2]
      · intro own leased
        simp [IntentDetail.merge, epoch, leased]
      · intro unleased
        have before := unmarked unleased row stored
        simpa [OperationIntent.unstarted, IntentDetail.merge, epoch, started, unleased] using before
      · intro leased
        obtain ⟨own, leased⟩ := Option.isSome_iff_exists.mp leased
        simp [IntentDetail.merge, started, leased]
    refine ⟨⟨rfl, .rewrite slot.key _ false fenced ?_ rfl rfl⟩, issued, fun owner => ⟨⟨_, Table.get?_set_self .., claimed⟩,
      fun _ => settled, fun _ => (clear trivial).own rfl⟩⟩
    rw [stored]
    exact .claim row _ rfl retryable unguarded claimed

theorem mark_spec (leased : slot.leaseEpoch.isSome) (holds : Phase.claimed.At leaseKeyOf alone slot s) :
    Guarantee leaseKeyOf alone slot s (mergeStatement s slot { sendStarted := some true }).2 ∧
      Phase.opened.At leaseKeyOf alone slot (mergeStatement s slot { sendStarted := some true }).2 ∧
      ((mergeStatement s slot { sendStarted := some true }).1.isSome →
        Phase.armed.At leaseKeyOf alone slot (mergeStatement s slot { sendStarted := some true }).2) := by
  obtain ⟨issued, knows⟩ := holds
  rcases merge_cases slot s { sendStarted := some true } with refused | ⟨old, stored, _, fenced, written⟩
  · rw [refused]
    refine ⟨Quiet.refl.guarantee, ⟨issued, fun owner => ?_⟩, nofun⟩
    obtain ⟨⟨row, stored, claimed⟩, _⟩ := knows owner
    exact ⟨⟨row, stored, claimed.1⟩, False.elim, False.elim⟩
  · rw [written]
    obtain ⟨⟨row, stored', claimed⟩, settled, clear⟩ := knows (owner_of_fenced fenced)
    obtain rfl : row = old := Option.some.inj (stored'.symm.trans stored)
    obtain ⟨pending, mutating, resultless, epochs⟩ := claimed.1
    generalize marked : ({ row with
        status := .pending
        leaseEpoch := slot.leaseEpoch.or row.leaseEpoch
        detail := row.detail.merge { sendStarted := some true } } : OperationIntent V) = after
    have opened : after.Open slot := by
      subst marked
      exact ⟨rfl, by simpa [IntentDetail.merge] using mutating, by simpa [IntentDetail.merge] using resultless,
        by simpa [IntentDetail.merge] using epochs⟩
    have started : after.detail.sendStarted = some true := by rw [← marked]; rfl
    refine ⟨⟨rfl, .rewrite slot.key after false fenced ?_ rfl rfl⟩,
      ⟨issued, fun _ => ⟨⟨after, Table.get?_set_self .., opened⟩, False.elim, False.elim⟩⟩, fun _ => ⟨issued, ?_⟩⟩
    · rw [stored]
      exact .mark row after rfl claimed opened started leased
    · exact ⟨⟨after, Table.get?_set_self .., guarded_of_started opened.1 opened.2.1 started, opened.2.2.2, fun _ => opened⟩,
        settled trivial, fun _ => (clear trivial).own rfl⟩

theorem save_spec (patch : IntentDetail V) (result : Option V) (saved : patch.result = some result)
    (epoch : patch.mutatingEpoch = none) (holds : Phase.opened.At leaseKeyOf alone slot s) :
    Guarantee leaseKeyOf alone slot s (mergeStatement s slot patch).2 ∧
      (Phase.stored (some result)).At leaseKeyOf alone slot (mergeStatement s slot patch).2 := by
  obtain ⟨issued, knows⟩ := holds
  rcases merge_cases slot s patch with refused | ⟨old, stored, _, fenced, written⟩
  · rw [refused]
    refine ⟨Quiet.refl.guarantee, issued, fun owner => ?_⟩
    obtain ⟨⟨row, stored, opened⟩, _⟩ := knows owner
    exact ⟨⟨row, stored, .inl opened.2.2.1⟩, False.elim, False.elim⟩
  · rw [written]
    obtain ⟨⟨row, stored', opened⟩, _⟩ := knows (owner_of_fenced fenced)
    obtain rfl : row = old := Option.some.inj (stored'.symm.trans stored)
    refine ⟨⟨rfl, .rewrite slot.key _ false fenced ?_ rfl rfl⟩, issued,
      fun _ => ⟨⟨_, Table.get?_set_self .., .inr (by simp [IntentDetail.merge, saved])⟩, False.elim, False.elim⟩⟩
    rw [stored]
    exact .save row _ rfl opened rfl (by simp [IntentDetail.merge, saved]) (by simp [IntentDetail.merge, epoch])

-- The row that a settling statement may act on: the caller's own, or one of another work item on the same surface.
def Settles (leaseKeyOf : WorkItemId → LeaseKey) (slot : PublishSlot) (target : IntentKey) : Prop :=
  target = slot.key ∨
    (target.workItemId ≠ slot.workItemId ∧ leaseKeyOf target.workItemId = leaseKeyOf slot.workItemId)

theorem settle_spec (target : IntentKey) (status : OperationIntentStatus) (publishRecordId : Option Nat)
    (patch : IntentDetail V) (stash : Option (Option V)) (where' : Settles leaseKeyOf slot target)
    (settling : status = .reconciled ∨ status = .outcomeUnknown) (epoch : patch.mutatingEpoch = none)
    (kept : status = .reconciled → patch.result.isSome) (same : patch.result = none ∨ patch.result = stash)
    (holds : (Phase.stored stash).At leaseKeyOf alone slot s) :
    Guarantee leaseKeyOf alone slot s
      (reconcileStatement s target slot.workItemId slot.leaseEpoch status publishRecordId patch).2 := by
  rcases reconcile_cases slot s target status publishRecordId patch
    with refused | ⟨old, stored, may, fenced, written⟩
  · rw [refused]
    exact Quiet.refl.guarantee
  · rw [written]
    have notFailed : status ≠ .failed := by rcases settling with rfl | rfl <;> decide
    refine ⟨rfl, .rewrite target _ false fenced ?_ rfl (by simp [notFailed])⟩
    rw [stored]
    refine .settle old _ where' settling may (by simp [IntentDetail.merge, epoch]) ?_ ?_
    · rintro rfl
      obtain ⟨⟨row, stored', result⟩, _⟩ := holds.2 (owner_of_fenced fenced)
      obtain rfl : row = old := Option.some.inj (stored'.symm.trans stored)
      rcases same with none | same
      · exact .inr (by simp [IntentDetail.merge, none])
      · refine result.imp id fun result => ?_
        cases stash with
        | none => simp [IntentDetail.merge, same]
        | some value => simp [IntentDetail.merge, same, result]
    · intro reconciled
      obtain ⟨result, patched⟩ := Option.isSome_iff_exists.mp (kept reconciled)
      simp [IntentDetail.merge, patched]

theorem fail_spec (publishRecordId : Option Nat) (patch : IntentDetail V)
    (holds : Phase.opened.At leaseKeyOf alone slot s) :
    Guarantee leaseKeyOf alone slot s
      (reconcileStatement s slot.key slot.workItemId slot.leaseEpoch .failed publishRecordId patch).2 := by
  rcases reconcile_cases slot s slot.key .failed publishRecordId patch
    with refused | ⟨old, stored, may, fenced, written⟩
  · rw [refused]
    exact Quiet.refl.guarantee
  · rw [written]
    obtain ⟨⟨row, stored', opened⟩, _⟩ := holds.2 (owner_of_fenced fenced)
    obtain rfl : row = old := Option.some.inj (stored'.symm.trans stored)
    refine ⟨rfl, .rewrite slot.key _ true fenced ?_ rfl (by simp)⟩
    rw [stored]
    exact .fail row _ rfl opened rfl

theorem release_spec (epoch : Nat) (leased : slot.leaseEpoch = some epoch) :
    Guarantee leaseKeyOf alone slot s (releaseUnsentStatement s slot.key epoch) := by
  unfold releaseUnsentStatement
  split
  · next row stored =>
    split
    · next unsent => exact ⟨rfl, .release row epoch leased stored unsent rfl rfl⟩
    · exact Quiet.refl.guarantee
  · exact Quiet.refl.guarantee

theorem callerLive_of_held {workItemId : WorkItemId} {epoch : Nat} (home : HoldersAtHome leaseKeyOf s.leases)
    (held : s.held workItemId epoch = true) : s.callerLive leaseKeyOf workItemId = true := by
  obtain ⟨key, lease, stored, holder, _, live⟩ := (isPrActorLeaseHeld_iff ..).mp held
  obtain rfl := home key lease workItemId stored holder
  simp [PublishState.callerLive, stored, holder, live]

theorem inFlight_where {target : IntentKey} {row : OperationIntent V}
    (found : findInFlightStatement leaseKeyOf s slot.key = some (target, row)) : Settles leaseKeyOf slot target := by
  obtain ⟨_, selected⟩ := Table.first?_some _ _ found
  simp only [inFlightFor, Bool.and_eq_true, Bool.or_eq_true, decide_eq_true_eq] at selected
  obtain ⟨⟨⟨⟨⟨sameKey, _⟩, _⟩, _⟩, _⟩, own | foreign⟩ := selected
  · exact .inl own
  · exact .inr ⟨foreign.1, sameKey⟩

-- An in-flight lookup that finds nothing leaves the caller's row unguarded and the surface clear.
theorem lookup_clears (inv : PublishInv leaseKeyOf s) (current : alone = false → LeaseCurrent slot s)
    (absent : findInFlightStatement leaseKeyOf s slot.key = none)
    (holds : Phase.retryable.At leaseKeyOf alone slot s) : Phase.claimable.At leaseKeyOf alone slot s := by
  obtain ⟨issued, knows⟩ := holds
  refine ⟨issued, fun owner => ?_⟩
  obtain ⟨⟨row, stored, retryable⟩, _⟩ := knows owner
  refine ⟨⟨row, stored, retryable, ?_⟩, False.elim, fun _ shared leased => ?_⟩
  · rintro (reconciled | unknown | ⟨pending, saved | ⟨mutating, started⟩⟩)
    · simp [OperationIntent.Retryable, reconciled] at retryable
    · simp [OperationIntent.Retryable, unknown] at retryable
    · simp [OperationIntent.Retryable] at retryable
      simp [retryable] at saved
    · have missed := Table.first?_none _ _ absent stored
      simp [inFlightFor, pending, mutating, started, retryable.2] at missed
  · rintro ⟨key, found, storedFound, foreign, sameKey, pending, mutating, started, resultless⟩
    obtain ⟨epoch, leased⟩ := Option.isSome_iff_exists.mp leased
    have live : s.callerLive leaseKeyOf slot.workItemId = true :=
      callerLive_of_held inv.home (current shared epoch leased (owner epoch leased))
    have missed := Table.first?_none _ _ absent storedFound
    have item : slot.key.workItemId = slot.workItemId := rfl
    simp [inFlightFor, pending, mutating, resultless, OperationIntent.unstarted, started, item, sameKey, live,
      foreign] at missed

end Statements
end PrAgent
