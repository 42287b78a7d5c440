import PrAgent.PublishRuns
set_option autoImplicit false

namespace PrAgent

section Evidence

variable {V : Type}

def Grows (s t : PublishState V) : Prop := ∀ event ∈ s.log, event ∈ t.log

theorem Grows.refl (s : PublishState V) : Grows s s := fun _ logged => logged

theorem Grows.trans {s t u : PublishState V} (first : Grows s t) (second : Grows t u) : Grows s u :=
  fun event logged => second event (first event logged)

theorem Grows.note (s : PublishState V) (event : PublishEvent V) : Grows s (s.note event) :=
  fun _ logged => List.mem_cons_of_mem _ logged

-- The operation's own mutation returned the value, its own recovery lookup found it, or its publish record stands
-- for a mutation without a result.
def Evidence (key : IntentKey) (s : PublishState V) (value : Unknown V) : Prop :=
  ∃ slot : PublishSlot, slot.key = key ∧ (.mutated slot value ∈ s.log ∨ .recovered slot key value ∈ s.log ∨
    (.recordFound slot key ∈ s.log ∧ value = .undefined))

-- What may be saved under `__result`.
def SavedOn (key : IntentKey) (s : PublishState V) (result : Option V) : Prop :=
  ∃ value, Evidence key s value ∧ value.stash = result

-- What a call may return: a value with evidence of its own, as it came or decoded, before or after it was saved.
def Obtained (params : PublishOnceParams V) (value : Unknown V) (s : PublishState V) : Prop :=
  ∃ origin, Evidence params.slot.key s origin ∧ (value = origin ∨ decodePublishResult params origin = .ok value ∨
    decodePublishResult params (stashedResultValue origin.stash) = .ok value)

structure Evidenced (s : PublishState V) : Prop where
  saved : ∀ key row result, s.intents.get? key = some row → row.detail.result = some result → SavedOn key s result
  reconciled : ∀ key row, s.intents.get? key = some row → row.status = .reconciled → row.detail.result.isSome

theorem Evidence.grows {key : IntentKey} {s t : PublishState V} {value : Unknown V} (evidence : Evidence key s value)
    (grows : Grows s t) : Evidence key t value := by
  obtain ⟨slot, own, mutated | recovered | ⟨found, void⟩⟩ := evidence
  · exact ⟨slot, own, .inl (grows _ mutated)⟩
  · exact ⟨slot, own, .inr (.inl (grows _ recovered))⟩
  · exact ⟨slot, own, .inr (.inr ⟨grows _ found, void⟩)⟩

theorem SavedOn.grows {key : IntentKey} {s t : PublishState V} {result : Option V} (saved : SavedOn key s result)
    (grows : Grows s t) : SavedOn key t result := by
  obtain ⟨value, evidence, stashed⟩ := saved
  exact ⟨value, evidence.grows grows, stashed⟩

theorem Obtained.grows {params : PublishOnceParams V} {value : Unknown V} {s t : PublishState V}
    (obtained : Obtained params value s) (grows : Grows s t) : Obtained params value t := by
  obtain ⟨origin, evidence, same⟩ := obtained
  exact ⟨origin, evidence.grows grows, same⟩

theorem Evidenced.same {s t : PublishState V} (evidenced : Evidenced s) (intents : t.intents = s.intents)
    (grows : Grows s t) : Evidenced t where
  saved := fun key row result stored saved => (evidenced.saved key row result (intents ▸ stored) saved).grows grows
  reconciled := fun key row stored => evidenced.reconciled key row (intents ▸ stored)

theorem Evidenced.write {s t : PublishState V} {target : IntentKey} {row : OperationIntent V} (evidenced : Evidenced s)
    (intents : t.intents = s.intents.set target row) (grows : Grows s t)
    (saved : ∀ result, row.detail.result = some result → SavedOn target s result)
    (reconciled : row.status = .reconciled → row.detail.result.isSome) : Evidenced t := by
  constructor
  · intro key other result stored found
    rw [intents] at stored
    rcases Table.get?_set_cases stored with ⟨rfl, rfl⟩ | ⟨_, stored⟩
    · exact (saved result found).grows grows
    · exact (evidenced.saved key other result stored found).grows grows
  · intro key other stored found
    rw [intents] at stored
    rcases Table.get?_set_cases stored with ⟨_, rfl⟩ | ⟨_, stored⟩
    · exact reconciled found
    · exact evidenced.reconciled key other stored found

theorem merged_result {detail patch : IntentDetail V} {result : Option V}
    (merged : (detail.merge patch).result = some result) :
    patch.result = some result ∨ detail.result = some result := by
  cases patched : patch.result with
  | none => exact .inr (by simpa [IntentDetail.merge, patched] using merged)
  | some saved => exact .inl (by simpa [IntentDetail.merge, patched] using merged)

variable {slot : PublishSlot} {s : PublishState V}

theorem persist_evidenced (slot : PublishSlot) (evidenced : Evidenced s) (fields : Fields V) :
    Evidenced (persistStatement s slot { fields }).2 ∧ Grows s (persistStatement s slot { fields }).2 ∧
      ∀ row, (persistStatement s slot { fields }).1 = some row →
        (persistStatement s slot { fields }).2.intents.get? slot.key = some row := by
  unfold persistStatement
  split
  · refine ⟨?_, .refl _, fun row returned => ?_⟩
    · refine evidenced.write rfl (.refl _) ?_ ?_
      · intro result saved
        cases stored : s.intents.get? slot.key with
        | none =>
          rw [stored] at saved
          cases saved
        | some old => exact evidenced.saved slot.key old result stored (by rw [stored] at saved; exact saved)
      · intro reconciled
        cases stored : s.intents.get? slot.key with
        | none =>
          rw [stored] at reconciled
          cases reconciled
        | some old =>
          rw [stored] at reconciled
          exact evidenced.reconciled slot.key old stored reconciled
    · obtain rfl := Option.some.inj returned
      exact Table.get?_set_self ..
  · exact ⟨evidenced, .refl _, fun row returned => nomatch returned⟩

theorem merge_evidenced (evidenced : Evidenced s) (patch : IntentDetail V)
    (saved : ∀ result, patch.result = some result → SavedOn slot.key s result) :
    Evidenced (mergeStatement s slot patch).2 ∧ Grows s (mergeStatement s slot patch).2 := by
  rcases merge_cases slot s patch with refused | ⟨old, stored, _, _, written⟩
  · rw [refused]
    exact ⟨evidenced, .refl _⟩
  · rw [written]
    refine ⟨evidenced.write rfl (.refl _) (fun result merged => ?_) (fun reconciled => nomatch reconciled), .refl _⟩
    exact (merged_result merged).elim (saved result) (evidenced.saved slot.key old result stored)

theorem release_evidenced (evidenced : Evidenced s) (epoch : Nat) :
    Evidenced (releaseUnsentStatement s slot.key epoch) ∧ Grows s (releaseUnsentStatement s slot.key epoch) := by
  unfold releaseUnsentStatement
  split
  · next row stored =>
    split
    · refine ⟨evidenced.write rfl (.refl _) (fun result saved => ?_) fun reconciled => ?_, .refl _⟩
      · exact evidenced.saved slot.key row result stored (by simpa using saved)
      · simpa using evidenced.reconciled slot.key row stored reconciled
    · exact ⟨evidenced, .refl _⟩
  · exact ⟨evidenced, .refl _⟩

variable (slot) in
theorem reconcile_evidenced (evidenced : Evidenced s) (target : IntentKey) (status : OperationIntentStatus)
    (publishRecordId : Option Nat) (patch : IntentDetail V)
    (saved : ∀ result, patch.result = some result → SavedOn target s result)
    (kept : status = .reconciled → patch.result.isSome) :
    Evidenced (reconcileStatement s target slot.workItemId slot.leaseEpoch status publishRecordId patch).2 ∧
      Grows s (reconcileStatement s target slot.workItemId slot.leaseEpoch status publishRecordId patch).2 := by
  rcases reconcile_cases slot s target status publishRecordId patch with refused | ⟨old, stored, _, _, written⟩
  · rw [refused]
    exact ⟨evidenced, .refl _⟩
  · rw [written]
    have grows : Grows s { s with log := if status = .failed then .recordedFailed target :: s.log else s.log } := by
      intro event logged
      by_cases failed : status = .failed
      · simp [failed, logged]
      · simpa [failed] using logged
    refine ⟨evidenced.write rfl grows (fun result merged => ?_) fun reconciled => ?_, grows⟩
    · exact (merged_result merged).elim (saved result) (evidenced.saved target old result stored)
    · obtain ⟨result, patched⟩ := Option.isSome_iff_exists.mp (kept reconciled)
      simp [IntentDetail.merge, patched]

end Evidence

section Contract

variable {V : Type} (leaseKeyOf : WorkItemId → LeaseKey)

-- Answers about another work item's intent: a positive recovery, or a completed record where a void success is allowed.
def ForeignAnswer (params : PublishOnceParams V) (op : PublishOp V) (reply : PublishReply V) : Bool :=
  match op, reply with
  | .recover target _ _, .recovery (.ok (some _)) => target.workItemId ≠ params.workItemId
  | .findCompletedPublishRecordId target _, .record (some _) =>
    target.workItemId ≠ params.workItemId && allowsUndefinedSuccess params
  | _, _ => false

def evidenceContract (params : PublishOnceParams V) : Contract (publishInterface V) (PublishState V) where
  act := fun op s answer t => ∃ reply, ForeignAnswer params op reply = false ∧
    publishAct leaseKeyOf params.slot op reply s = some (answer, t)
  inv := Evidenced
  rely := Grows
  guarantee := fun s t => Grows s t ∧ Evidenced t
  rely_refl := .refl
  rely_trans := .trans

end Contract

section Calls

variable {V : Type} {leaseKeyOf : WorkItemId → LeaseKey} (params : PublishOnceParams V)

-- A fact about the log outlives every step of every call.
theorem Triple.logged {α : Type} {p fact : PublishState V → Prop} {program : PublishProgram V α}
    {normal : α → PublishState V → Prop} {exceptional : Thrown → PublishState V → Prop}
    (lasts : ∀ s t, fact s → Grows s t → fact t)
    (body : Triple (evidenceContract leaseKeyOf params) p program normal exceptional) :
    Triple (evidenceContract leaseKeyOf params) (fun s => p s ∧ fact s) program (fun value s => normal value s ∧ fact s)
      (fun error s => exceptional error s ∧ fact s) :=
  body.frame lasts fun s t holds step => lasts s t holds step.1

theorem Triple.keeps {α : Type} {fact : PublishState V → Prop} {program : PublishProgram V α}
    (lasts : ∀ s t, fact s → Grows s t → fact t)
    (body : Triple (evidenceContract leaseKeyOf params) (fun _ => True) program (fun _ _ => True) (fun _ _ => True)) :
    Triple (evidenceContract leaseKeyOf params) fact program (fun _ => fact) (fun _ => fact) :=
  (Triple.logged params lasts body).conseq (fun _ holds => ⟨trivial, holds⟩) (fun _ _ holds => holds.2)
    fun _ _ holds => holds.2

theorem ask_evidenced {op : PublishOp V} {p : PublishState V → Prop}
    {normal : (publishInterface V).Ans op → PublishState V → Prop}
    (effect : PublishState V → (publishInterface V).Ans op × PublishState V)
    (acts : ∀ reply s, publishAct leaseKeyOf params.slot op reply s = statement reply s (effect s))
    (lasts : ∀ s t, p s → Grows s t → p t)
    (keeps : ∀ s, p s → Evidenced s → (Evidenced (effect s).2 ∧ Grows s (effect s).2) ∧ normal (effect s).1 (effect s).2) :
    Triple (evidenceContract leaseKeyOf params) p (ask op) normal (fun _ _ => True) := by
  refine Triple.perform (fun s t holds grows _ => lasts s t holds grows) ?_
  rintro s answer t holds evidenced ⟨reply, _, acted⟩
  obtain ⟨⟨kept, grows⟩, done⟩ := keeps s holds evidenced
  rw [acts reply s] at acted
  rcases statement_cases acted with ⟨rfl, rfl⟩ | ⟨rfl, rfl | rfl⟩
  · exact ⟨⟨grows, kept⟩, done⟩
  · exact ⟨⟨grows, kept⟩, trivial⟩
  · exact ⟨⟨.refl _, evidenced⟩, trivial⟩

theorem ask_reads_evidenced {op : PublishOp V} (reads : op.reads = true) :
    Triple (evidenceContract leaseKeyOf params) (fun _ => True) (ask op) (fun _ _ => True) (fun _ _ => True) := by
  refine Triple.perform (fun _ _ _ _ _ => trivial) ?_
  rintro s answer t _ evidenced ⟨reply, _, acted⟩
  obtain ⟨notes, _, log⟩ := (quiet_of_reads reads acted).log
  have grows : Grows s t := fun event logged => by simp [log, logged]
  refine ⟨⟨grows, evidenced.same (quiet_of_reads reads acted).intents grows⟩, ?_⟩
  cases answer <;> trivial

theorem assertPrActorLeaseHeld_evidenced (workItemId : WorkItemId) (leaseEpoch : Nat) :
    Triple (evidenceContract leaseKeyOf params) (fun _ => True) (assertPrActorLeaseHeld workItemId leaseEpoch)
      (fun _ _ => True) (fun _ _ => True) := by
  refine Triple.bind (ask_reads_evidenced params rfl) fun held => ?_
  cases held with
  | true => exact Triple.pure fun _ _ => trivial
  | false => exact Triple.throw fun _ _ => trivial

theorem assertMutationReady_evidenced :
    Triple (evidenceContract leaseKeyOf params) (fun _ => True) (assertMutationReady params)
      (fun _ _ => True) (fun _ _ => True) := by
  have aborted : Triple (evidenceContract leaseKeyOf params) (fun _ => True) (throwIfExecutionAborted (V := V))
      (fun _ _ => True) (fun _ _ => True) := by
    refine Triple.bind (ask_reads_evidenced params rfl) fun aborted => ?_
    match aborted with
    | none => exact Triple.pure fun _ _ => trivial
    | some (some reason) => exact Triple.throw fun _ _ => trivial
    | some none => exact Triple.throw fun _ _ => trivial
  refine Triple.bind aborted fun _ => ?_
  split
  · next epoch _ => exact assertPrActorLeaseHeld_evidenced params params.workItemId epoch
  · exact Triple.pure fun _ _ => trivial

theorem fencedWrite_evidenced {α : Type} {rejected : Option (α → Bool)} {write : PublishProgram V α}
    {p : PublishState V → Prop} {normal : α → PublishState V → Prop} (lasts : ∀ s t, p s → Grows s t → p t)
    (lastsAfter : ∀ value s t, normal value s → Grows s t → normal value t)
    (body : Triple (evidenceContract leaseKeyOf params) p write normal (fun _ _ => True)) :
    Triple (evidenceContract leaseKeyOf params) p (fencedWrite params.workItemId params.leaseEpoch true rejected write)
      normal (fun _ _ => True) := by
  unfold fencedWrite
  split
  · exact body
  · next epoch _ =>
    have holds : ∀ {fact : PublishState V → Prop}, (∀ s t, fact s → Grows s t → fact t) →
        Triple (evidenceContract leaseKeyOf params) fact (assertPrActorLeaseHeld params.workItemId epoch)
          (fun _ => fact) (fun _ _ => True) := fun lasts =>
      (Triple.keeps params lasts (assertPrActorLeaseHeld_evidenced params params.workItemId epoch)).weakenError fun _ _ _ => trivial
    refine Triple.bind (holds lasts) fun _ => ?_
    refine Triple.bind body fun result => ?_
    split
    · exact Triple.bind (holds (lastsAfter result)) fun _ => Triple.pure fun _ done => done
    · exact Triple.pure fun _ done => done

end Calls
end PrAgent
