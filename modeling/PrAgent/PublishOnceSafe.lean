import PrAgent.PublishContract
set_option autoImplicit false

namespace PrAgent

section Calls

variable {V : Type} {leaseKeyOf : WorkItemId → LeaseKey} {alone : Bool} (params : PublishOnceParams V)

theorem assertMutationReady_keeps (phase : Phase V) :
    Triple (publishContract leaseKeyOf alone params.slot) (phase.At leaseKeyOf alone params.slot)
      (assertMutationReady params) (fun _ => phase.At leaseKeyOf alone params.slot)
      (fun _ => phase.At leaseKeyOf alone params.slot) := by
  refine Triple.bind (throwIfExecutionAborted_keeps phase) fun _ => ?_
  split
  · next epoch _ =>
    exact (assertPrActorLeaseHeld_keeps params.workItemId epoch phase).weakenError fun _ _ holds => holds.2
  · exact Triple.pure fun _ holds => holds

theorem assertMutationReady_safe (phase : Phase V) :
    Triple (publishContract leaseKeyOf alone params.slot) (phase.At leaseKeyOf alone params.slot)
      (assertMutationReady params) (fun _ => phase.At leaseKeyOf alone params.slot) (fun _ _ => True) :=
  (assertMutationReady_keeps params phase).weakenError fun _ _ _ => trivial

variable {slot : PublishSlot}

theorem begun_of_guarantee {s t : PublishState V} {phase : Phase V}
    (holds : phase.At leaseKeyOf alone slot s) (step : Guarantee leaseKeyOf alone slot s t) :
    Phase.begun.At leaseKeyOf alone slot t :=
  ⟨by simpa only [Issued, step.1] using holds.1, trivial⟩

-- What the program answers after the statement, with the row it returned.
theorem persisted_returns {post : OperationIntent V → PublishState V → Prop} (answer : Option (OperationIntent V)) :
    Triple (publishContract leaseKeyOf alone params.slot) (fun s => ∀ row, answer = some row → post row s)
      (match answer with
        | some row => pure row
        | none => throw ({ code := .persistNoRow, message := "persistOperationIntent returned no row" } :
            AppError).thrown : PublishProgram V (OperationIntent V))
      post (fun _ _ => True) := by
  cases answer with
  | none => exact Triple.throw fun _ _ => trivial
  | some row => exact Triple.pure fun s reserved => reserved row rfl

theorem persistOperationIntent_triple {phase : Phase V} {post : OperationIntent V → PublishState V → Prop}
    (spec : ∀ s, phase.At leaseKeyOf alone params.slot s →
      Guarantee leaseKeyOf alone params.slot s (persistStatement s params.slot { fields := params.detail }).2 ∧
        ∀ row, (persistStatement s params.slot { fields := params.detail }).1 = some row →
          post row (persistStatement s params.slot { fields := params.detail }).2) :
    Triple (publishContract leaseKeyOf alone params.slot) (phase.At leaseKeyOf alone params.slot)
      (persistOperationIntent params) post (fun _ _ => True) := by
  have written : Triple (publishContract leaseKeyOf alone params.slot) (phase.At leaseKeyOf alone params.slot)
      (ask (.persist { fields := params.detail }))
      (fun answer s => Phase.begun.At leaseKeyOf alone params.slot s ∧ ∀ row, answer = some row → post row s)
      (fun _ _ => True) := by
    refine ask_statement (fun s => persistStatement s params.slot { fields := params.detail }) (fun _ _ => rfl)
      (Phase.stable _) ?_
    intro s holds _ _
    obtain ⟨kept, reserved⟩ := spec s holds
    exact ⟨kept, ⟨begun_of_guarantee holds kept, reserved⟩, trivial, trivial⟩
  refine Triple.bind (m := fun answer s => ∀ row, answer = some row → post row s) ?_ (persisted_returns params)
  unfold fencedWrite
  split
  · exact written.weaken (fun _ _ holds => holds.2) fun _ _ _ => trivial
  · next epoch _ =>
    refine Triple.bind (m := fun _ => phase.At leaseKeyOf alone params.slot)
      ((assertPrActorLeaseHeld_keeps params.workItemId epoch phase).weakenError fun _ _ _ => trivial) fun _ => ?_
    refine Triple.bind written fun answer => ?_
    cases answer with
    | some row => exact Triple.pure fun s holds => holds.2
    | none =>
      refine Triple.bind (m := fun _ => Phase.begun.At leaseKeyOf alone params.slot) ?_ fun _ =>
        Triple.pure fun _ _ row returned => absurd returned (Option.some_ne_none row).symm
      exact (assertPrActorLeaseHeld_keeps params.workItemId epoch .begun).conseq (fun _ holds => holds.1)
        (fun _ _ holds => holds) fun _ _ _ => trivial

theorem persistOperationIntent_reserves :
    Triple (publishContract leaseKeyOf alone params.slot) (Phase.begun.At leaseKeyOf alone params.slot)
      (persistOperationIntent params) (Reserved leaseKeyOf alone params.slot) (fun _ _ => True) := by
  refine persistOperationIntent_triple params fun s holds => ?_
  obtain ⟨kept, _, reserved⟩ := persist_spec alone { fields := params.detail } ⟨rfl, rfl⟩ holds.1
  exact ⟨kept, reserved⟩

theorem persistOperationIntent_keeps_opened :
    Triple (publishContract leaseKeyOf alone params.slot) (Phase.opened.At leaseKeyOf alone params.slot)
      (persistOperationIntent params) (fun _ => Phase.opened.At leaseKeyOf alone params.slot) (fun _ _ => True) := by
  refine persistOperationIntent_triple params fun s holds => ?_
  obtain ⟨kept, _⟩ := persist_spec alone { fields := params.detail } ⟨rfl, rfl⟩ holds.1
  exact ⟨kept, fun _ _ => persist_opened { fields := params.detail } ⟨rfl, rfl⟩ holds⟩

theorem claim_claims :
    Triple (publishContract leaseKeyOf alone params.slot) (Phase.claimable.At leaseKeyOf alone params.slot)
      (mergeOperationIntentDetail params (claimPatch params)) (fun _ => Phase.claimed.At leaseKeyOf alone params.slot)
      (fun _ _ => True) := by
  refine fencedWrite_keeps (fun _ _ _ _ => trivial) ?_
  refine ask_statement (fun s => mergeStatement s params.slot (claimPatch params)) (fun _ _ => rfl) (Phase.stable _) ?_
  intro s holds inv timely
  obtain ⟨kept, claimed⟩ := claim_spec (claimPatch params) rfl rfl rfl rfl inv timely holds
  exact ⟨kept, claimed, trivial, trivial⟩

variable {s : PublishState V}

theorem opened_of_claimed (holds : Phase.claimed.At leaseKeyOf alone slot s) :
    Phase.opened.At leaseKeyOf alone slot s := by
  refine ⟨holds.1, fun owner => ?_⟩
  obtain ⟨⟨row, stored, claimed⟩, _⟩ := holds.2 owner
  exact ⟨⟨row, stored, claimed.1⟩, False.elim, False.elim⟩

theorem opened_of_armed (holds : Phase.armed.At leaseKeyOf alone slot s) :
    Phase.opened.At leaseKeyOf alone slot s := by
  obtain ⟨issued, ⟨row, stored, _, _, opened⟩, _⟩ := holds
  exact ⟨issued, fun owner => ⟨⟨row, stored, opened (.inr owner)⟩, False.elim, False.elim⟩⟩

theorem stored_of_opened (stash : Option (Option V))
    (holds : Phase.opened.At leaseKeyOf alone slot s) : (Phase.stored stash).At leaseKeyOf alone slot s := by
  refine ⟨holds.1, fun owner => ?_⟩
  obtain ⟨⟨row, stored, opened⟩, _⟩ := holds.2 owner
  exact ⟨⟨row, stored, .inl opened.2.2.1⟩, False.elim, False.elim⟩

theorem stored_of_retryable (stash : Option (Option V))
    (holds : Phase.retryable.At leaseKeyOf alone slot s) : (Phase.stored stash).At leaseKeyOf alone slot s := by
  refine ⟨holds.1, fun owner => ?_⟩
  obtain ⟨⟨row, stored, retryable⟩, _⟩ := holds.2 owner
  exact ⟨⟨row, stored, .inl retryable.2⟩, False.elim, False.elim⟩

-- Without a lease the claim itself is what arms the send.
theorem armed_of_claimed (unleased : slot.leaseEpoch = none)
    (holds : Phase.claimed.At leaseKeyOf alone slot s) : Phase.armed.At leaseKeyOf alone slot s := by
  have owner : Owner slot s := fun epoch leased => by simp [unleased] at leased
  obtain ⟨⟨row, stored, opened, unstarted, _⟩, settled, clear⟩ := holds.2 owner
  have guarded : row.Guarded := .inr (.inr ⟨opened.1, .inr ⟨opened.2.1, unstarted unleased⟩⟩)
  exact ⟨holds.1, ⟨row, stored, guarded, opened.2.2.2, fun _ => opened⟩, settled trivial, fun _ => clear trivial⟩

theorem armSend_arms :
    Triple (publishContract leaseKeyOf alone params.slot) (Phase.claimed.At leaseKeyOf alone params.slot)
      (armSend params) (fun _ => Phase.armed.At leaseKeyOf alone params.slot)
      (fun _ => Phase.opened.At leaseKeyOf alone params.slot) := by
  refine Triple.bind (m := fun _ => Phase.claimed.At leaseKeyOf alone params.slot)
    ((assertMutationReady_keeps params .claimed).weakenError fun _ _ holds => opened_of_claimed holds) fun _ => ?_
  split
  · next epoch leased =>
    refine Triple.bind (m := fun _ => Phase.claimed.At leaseKeyOf alone params.slot)
      ((assertPrActorLeaseHeld_keeps params.workItemId epoch .claimed).weakenError
        fun _ _ holds => opened_of_claimed holds.2) fun _ => ?_
    have marks : Triple (publishContract leaseKeyOf alone params.slot) (Phase.claimed.At leaseKeyOf alone params.slot)
        (mergeOperationIntentDetail params { sendStarted := some true })
        (fun marked s => Phase.opened.At leaseKeyOf alone params.slot s ∧
          (marked.isSome → Phase.armed.At leaseKeyOf alone params.slot s))
        (fun _ => Phase.opened.At leaseKeyOf alone params.slot) := by
      refine fencedWrite_keeps (fun _ _ _ holds => opened_of_claimed holds) ?_
      refine ask_statement (fun s => mergeStatement s params.slot { sendStarted := some true }) (fun _ _ => rfl)
        (Phase.stable _) ?_
      intro s holds _ _
      have isLeased : params.slot.leaseEpoch.isSome := by simp [PublishOnceParams.slot, leased]
      obtain ⟨kept, opened, armed⟩ := mark_spec isLeased holds
      exact ⟨kept, ⟨opened, armed⟩, opened, opened_of_claimed holds⟩
    refine Triple.bind marks fun marked => ?_
    cases marked with
    | none => exact Triple.throw fun _ holds => holds.1
    | some row => exact Triple.pure fun _ holds => holds.2 rfl
  · next unleased => exact Triple.pure fun _ holds => armed_of_claimed unleased holds

theorem mutate_sends :
    Triple (publishContract leaseKeyOf alone params.slot) (Phase.armed.At leaseKeyOf alone params.slot)
      (ask (V := V) .mutate) (fun _ => Phase.opened.At leaseKeyOf alone params.slot)
      (fun _ => Phase.opened.At leaseKeyOf alone params.slot) := by
  refine Triple.perform (Phase.stable _) ?_
  rintro s answer t holds _ ⟨_, reply, acted⟩
  have opened := opened_of_armed holds
  have sends : ∀ (after : PublishState V) (notes : List (PublishEvent V)), after.toLeaseState = s.toLeaseState →
      after.intents = s.intents → notes.all PublishEvent.isNote = true → after.log = notes ++ .sent params.slot :: s.log →
      Guarantee leaseKeyOf alone params.slot s after ∧ Phase.opened.At leaseKeyOf alone params.slot after := by
    intro after notes leases intents neutral log
    refine ⟨⟨leases, .send holds.2 intents notes neutral log⟩, by simpa only [Issued, leases] using opened.1, fun owner => ?_⟩
    obtain ⟨⟨row, stored, opened⟩, _⟩ := opened.2 ((Owner.congr leases).mp owner)
    exact ⟨⟨row, by rw [intents, stored], opened⟩, False.elim, False.elim⟩
  simp only [publishAct] at acted
  split at acted
  · obtain ⟨rfl, rfl⟩ := Prod.mk.inj (Option.some.inj acted)
    exact sends _ [] rfl rfl rfl rfl
  · obtain ⟨rfl, rfl⟩ := Prod.mk.inj (Option.some.inj acted)
    exact sends _ [_] rfl rfl rfl rfl
  · cases acted

variable (alone) in
theorem reconcileOperationIntent_settles (target : IntentKey) (status : OperationIntentStatus)
    (publishRecordId : Option Nat) (patch : IntentDetail V) (stash : Option (Option V))
    (where' : Settles leaseKeyOf params.slot target) (settling : status = .reconciled ∨ status = .outcomeUnknown)
    (epoch : patch.mutatingEpoch = none) (kept : status = .reconciled → patch.result.isSome)
    (same : patch.result = none ∨ patch.result = stash) :
    Triple (publishContract leaseKeyOf alone params.slot) ((Phase.stored stash).At leaseKeyOf alone params.slot)
      (reconcileOperationIntent params target status publishRecordId patch)
      (fun _ => Phase.begun.At leaseKeyOf alone params.slot) (fun error _ => NotRecoveryFailed error) := by
  refine fencedWrite_keeps (fun _ _ other _ => other) ?_
  refine Triple.bind (m := fun _ => Phase.begun.At leaseKeyOf alone params.slot) ?_ fun updated => ?_
  · refine ask_statement (fun s => reconcileStatement s target params.workItemId params.leaseEpoch status
      publishRecordId patch) (fun _ _ => rfl) (Phase.stable _) ?_
    intro s holds _ _
    have step := settle_spec target status publishRecordId patch stash where' settling epoch kept same holds
    exact ⟨step, begun_of_guarantee holds step, rfl, rfl⟩
  · have reads : Triple (publishContract leaseKeyOf alone params.slot) (Phase.begun.At leaseKeyOf alone params.slot)
        (ask (V := V) (.selectReconciled target)) (fun _ => Phase.begun.At leaseKeyOf alone params.slot)
        (fun error _ => NotRecoveryFailed error) := by
      refine ask_statement (fun s => (selectReconciledStatement s target, s)) (fun _ _ => rfl) (Phase.stable _) ?_
      exact fun s holds _ _ => ⟨Quiet.refl.guarantee, holds, rfl, rfl⟩
    split
    · exact Triple.pure fun _ holds => holds
    · rcases settling with rfl | rfl
      · exact Triple.pure fun _ holds => holds
      · exact reads

theorem finishWithStashedResult_safe (intent : OperationIntent V) (stashed : Option V) :
    Triple (publishContract leaseKeyOf alone params.slot) ((Phase.stored (some stashed)).At leaseKeyOf alone params.slot)
      (finishWithStashedResult params params.slot.key intent stashed) (fun _ _ => True) (fun _ _ => True) := by
  refine Triple.ofExcept_bind (fun _ _ _ _ => trivial) fun value _ => ?_
  split
  · refine Triple.bind (assertMutationReady_safe params _) fun _ => ?_
    refine Triple.ofExcept_bind (fun _ _ _ _ => trivial) fun fields _ => ?_
    refine Triple.bind ((reconcileOperationIntent_settles alone params params.slot.key .reconciled params.publishRecordId
      { fields, result := some stashed } (some stashed) (.inl rfl) (.inl rfl) rfl (fun _ => rfl) (.inr rfl)).weakenError
      fun _ _ _ => trivial) fun _ => ?_
    exact Triple.pure fun _ _ => trivial
  · exact Triple.pure fun _ _ => trivial

-- The phase survives an unanswered recovery; an error that is not a failed recovery may leave it behind.
theorem recoverByExactEvidence_safe (target : IntentKey) (intent : OperationIntent V) (publishRecordId : Option Nat)
    (phase : Phase V) (where' : Settles leaseKeyOf params.slot target)
    (resultless : ∀ (s : PublishState V) (stash : Option (Option V)), phase.At leaseKeyOf alone params.slot s →
      (Phase.stored stash).At leaseKeyOf alone params.slot s) :
    Triple (publishContract leaseKeyOf alone params.slot) (phase.At leaseKeyOf alone params.slot)
      (recoverByExactEvidence params target intent publishRecordId)
      (fun found s => found = none → phase.At leaseKeyOf alone params.slot s)
      (fun error s => AppErrorCode.recoveryFailed.raisedBy error = true → phase.At leaseKeyOf alone params.slot s) := by
  have ready : Triple (publishContract leaseKeyOf alone params.slot) (phase.At leaseKeyOf alone params.slot)
      (assertMutationReady params) (fun _ => phase.At leaseKeyOf alone params.slot)
      (fun error s => AppErrorCode.recoveryFailed.raisedBy error = true → phase.At leaseKeyOf alone params.slot s) :=
    (assertMutationReady_keeps params phase).weakenError fun _ _ holds _ => holds
  unfold recoverByExactEvidence
  split
  · refine Triple.bind (m := fun _ => phase.At leaseKeyOf alone params.slot)
      (Triple.attempt (ask_reads rfl phase)) fun attempt => ?_
    match attempt with
    | .error _ => exact Triple.bind ready fun _ => Triple.throw fun _ holds _ => holds
    | .ok none => exact Triple.bind ready fun _ => Triple.pure fun _ holds _ => holds
    | .ok (some recovery) =>
      refine Triple.bind ready fun _ => ?_
      refine Triple.ofExcept_bind (fun _ _ _ holds _ => holds) fun value _ => ?_
      refine Triple.ofExcept_bind (fun _ _ _ holds _ => holds) fun fields _ => ?_
      have settles := reconcileOperationIntent_settles alone params target .reconciled
        (recovery.publishRecordId.or publishRecordId)
        { fields := recovery.detail ++ fields, result := some recovery.value.stash } (some recovery.value.stash)
        where' (.inl rfl) rfl (fun _ => rfl) (.inr rfl)
      refine Triple.bind (settles.conseq (fun s holds => resultless s _ holds) (fun _ _ holds => holds)
        fun error _ other failed => absurd (other.symm.trans failed) Bool.false_ne_true) fun _ => ?_
      exact Triple.pure fun _ _ => nofun
  · exact Triple.pure fun _ holds _ => holds

theorem finishVoidSuccess_safe (target : IntentKey) (extraDetail : IntentDetail V) (publishRecordId : Option Nat)
    (unarmed : extraDetail.mutatingEpoch = none) (where' : Settles leaseKeyOf params.slot target) :
    Triple (publishContract leaseKeyOf alone params.slot) ((Phase.stored (some none)).At leaseKeyOf alone params.slot)
      (finishVoidSuccess params target extraDetail publishRecordId) (fun _ _ => True) (fun _ _ => True) := by
  refine Triple.ofExcept_bind (fun _ _ _ _ => trivial) fun value _ => ?_
  refine Triple.bind (assertMutationReady_safe params _) fun _ => ?_
  refine Triple.ofExcept_bind (fun _ _ _ _ => trivial) fun fields _ => ?_
  refine Triple.bind ((reconcileOperationIntent_settles alone params target .reconciled
    (publishRecordId.or params.publishRecordId) { extraDetail with fields, result := some none } (some none) where'
    (.inl rfl) unarmed (fun _ => rfl) (.inr rfl)).weakenError fun _ _ _ => trivial) fun _ => ?_
  exact Triple.pure fun _ _ => trivial

theorem settleUnknownOutcome_safe (target : IntentKey) (publishRecordId : Option Nat) (observed : Bool)
    (where' : Settles leaseKeyOf params.slot target) :
    Triple (publishContract leaseKeyOf alone params.slot) ((Phase.stored (some none)).At leaseKeyOf alone params.slot)
      (settleUnknownOutcome params target publishRecordId observed) (fun _ _ => True) (fun _ _ => True) := by
  unfold settleUnknownOutcome
  split
  · exact finishVoidSuccess_safe params target _ publishRecordId rfl where'
  · refine Triple.bind (assertMutationReady_safe params _) fun _ => ?_
    refine Triple.ofExcept_bind (fun _ _ _ _ => trivial) fun fields _ => ?_
    refine Triple.bind (m := fun _ => Phase.begun.At leaseKeyOf alone params.slot)
      ((reconcileOperationIntent_settles alone params target .outcomeUnknown none _ (some none) where' (.inr rfl) rfl
        nofun (.inl rfl)).weakenError fun _ _ _ => trivial) fun resolved => ?_
    split
    · exact Triple.bind (assertMutationReady_safe params _) fun _ => Triple.throw fun _ _ => trivial
    · exact Triple.throw fun _ _ => trivial

theorem recoverAfterMutatingWithoutResult_safe (target : IntentKey) (intent : OperationIntent V) (phase : Phase V)
    (where' : Settles leaseKeyOf params.slot target)
    (resultless : ∀ (s : PublishState V) (stash : Option (Option V)), phase.At leaseKeyOf alone params.slot s →
      (Phase.stored stash).At leaseKeyOf alone params.slot s) :
    Triple (publishContract leaseKeyOf alone params.slot) (phase.At leaseKeyOf alone params.slot)
      (recoverAfterMutatingWithoutResult params target intent) (fun _ _ => True) (fun _ _ => True) := by
  have settles : ∀ publishRecordId observed, Triple (publishContract leaseKeyOf alone params.slot)
      (phase.At leaseKeyOf alone params.slot) (settleUnknownOutcome params target publishRecordId observed)
      (fun _ _ => True) (fun _ _ => True) := fun publishRecordId observed =>
    (settleUnknownOutcome_safe params target publishRecordId observed where').strengthen fun s holds =>
      resultless s _ holds
  refine Triple.bind (m := fun _ => phase.At leaseKeyOf alone params.slot)
    (Triple.attempt (ask_reads rfl phase)) fun lookup => ?_
  match lookup with
  | .error _ => exact Triple.throw fun _ _ => trivial
  | .ok publishRecordId =>
    refine Triple.bind (Triple.attempt
      (m := fun attempt s => match attempt with
        | .ok found => found = none → phase.At leaseKeyOf alone params.slot s
        | .error error => AppErrorCode.recoveryFailed.raisedBy error = true → phase.At leaseKeyOf alone params.slot s)
      (recoverByExactEvidence_safe params target intent publishRecordId phase where' resultless)) fun attempt => ?_
    match attempt with
    | .ok (some value) => exact Triple.pure fun _ _ => trivial
    | .ok none => exact (settles publishRecordId true).strengthen fun _ holds => holds rfl
    | .error error =>
      simp only []
      split
      · exact Triple.throw fun _ _ => trivial
      · split
        · exact Triple.throw fun _ _ => trivial
        · next raised =>
          exact (settles publishRecordId false).strengthen fun _ holds => holds (by simpa using raised)

theorem saveResult_safe (result : Unknown V) :
    Triple (publishContract leaseKeyOf alone params.slot) (Phase.opened.At leaseKeyOf alone params.slot)
      (saveResult params result) (fun _ _ => True) (fun _ _ => True) := by
  refine Triple.ofExcept_bind (fun _ _ _ _ => trivial) fun _ _ => ?_
  refine Triple.bind (assertMutationReady_safe params _) fun _ => ?_
  refine Triple.ofExcept_bind (fun _ _ _ _ => trivial) fun fields _ => ?_
  refine Triple.bind (m := fun _ => (Phase.stored (some result.stash)).At leaseKeyOf alone params.slot)
    (fencedWrite_keeps (fun _ _ _ _ => trivial) ?_) fun _ => ?_
  · refine ask_statement (fun s => mergeStatement s params.slot { fields, result := some result.stash })
      (fun _ _ => rfl) (Phase.stable _) ?_
    intro s holds _ _
    obtain ⟨kept, saved⟩ := save_spec { fields, result := some result.stash } result.stash rfl rfl holds
    exact ⟨kept, saved, trivial, trivial⟩
  · refine Triple.bind ((reconcileOperationIntent_settles alone params params.slot.key .reconciled params.publishRecordId
      { fields, result := some result.stash } (some result.stash) (.inl rfl) (.inl rfl) rfl (fun _ => rfl)
      (.inr rfl)).weakenError fun _ _ _ => trivial) fun _ => ?_
    exact Triple.pure fun _ _ => trivial

theorem reconcileOperationIntent_fails (patch : IntentDetail V) :
    Triple (publishContract leaseKeyOf alone params.slot) (Phase.opened.At leaseKeyOf alone params.slot)
      (reconcileOperationIntent params params.slot.key .failed none patch) (fun _ _ => True) (fun _ _ => True) := by
  refine fencedWrite_keeps (fun _ _ _ _ => trivial) ?_
  refine Triple.bind (m := fun _ => Phase.begun.At leaseKeyOf alone params.slot) ?_ fun updated => ?_
  · refine ask_statement (fun s => reconcileStatement s params.slot.key params.workItemId params.leaseEpoch .failed
      none patch) (fun _ _ => rfl) (Phase.stable _) ?_
    intro s holds _ _
    have step := fail_spec none patch holds
    exact ⟨step, begun_of_guarantee holds step, trivial, trivial⟩
  · have reads : Triple (publishContract leaseKeyOf alone params.slot) (Phase.begun.At leaseKeyOf alone params.slot)
        (ask (.selectReconciled params.slot.key) : PublishProgram V (Option (OperationIntent V))) (fun _ _ => True) (fun _ _ => True) :=
      (ask_reads rfl .begun).weaken (fun _ _ _ => trivial) (fun _ _ _ => trivial)
    split
    · exact Triple.pure fun _ _ => trivial
    · exact reads

theorem recoverFailedSend_safe (knownNoAcceptance : Bool) (error : Thrown) :
    Triple (publishContract leaseKeyOf alone params.slot) (Phase.opened.At leaseKeyOf alone params.slot)
      (recoverFailedSend params knownNoAcceptance error)
      (fun recovered s => recovered = none → Phase.opened.At leaseKeyOf alone params.slot s) (fun _ _ => True) := by
  unfold recoverFailedSend
  split
  · refine Triple.bind (persistOperationIntent_keeps_opened params) fun intent => ?_
    exact (recoverByExactEvidence_safe params params.slot.key intent none .opened (.inl rfl)
      fun s stash holds => stored_of_opened stash holds).weakenError fun _ _ _ => trivial
  · exact Triple.pure fun _ holds _ => holds

theorem handleFailure_safe (sendStarted mutateSucceeded : Bool) (error : Thrown) :
    Triple (publishContract leaseKeyOf alone params.slot)
      (fun s => mutateSucceeded = false → Phase.opened.At leaseKeyOf alone params.slot s)
      (handleFailure params sendStarted mutateSucceeded error) (fun _ _ => True) (fun _ _ => True) := by
  cases mutateSucceeded with
  | true =>
    unfold handleFailure
    simp only [Bool.not_true, Bool.and_false, Bool.false_and]
    exact Triple.throw fun _ _ => trivial
  | false =>
    refine Triple.strengthen (p := Phase.opened.At leaseKeyOf alone params.slot) ?_ fun _ holds => holds rfl
    have settles : ∀ (known : Bool) (fields : Fields V), Triple (publishContract leaseKeyOf alone params.slot)
        (Phase.opened.At leaseKeyOf alone params.slot)
        (reconcileOperationIntent params params.slot.key (if known then .failed else .outcomeUnknown) none
          { fields, mutating := some false
            errorCode := some (if known then .mutationFailed else .mutationOutcomeUnknown) })
        (fun _ _ => True) (fun _ _ => True) := by
      intro known fields
      cases known with
      | true => exact reconcileOperationIntent_fails params _
      | false =>
        exact (reconcileOperationIntent_settles alone params params.slot.key .outcomeUnknown none _ none (.inl rfl) (.inr rfl)
          rfl nofun (.inl rfl)).conseq (fun _ holds => stored_of_opened _ holds) (fun _ _ _ => trivial)
          fun _ _ _ => trivial
    unfold handleFailure
    simp only []
    split
    · next epoch unsent =>
      have leased : params.slot.leaseEpoch = some epoch := by
        split at unsent
        · exact unsent
        · cases unsent
      have released : Triple (publishContract leaseKeyOf alone params.slot)
          (Phase.opened.At leaseKeyOf alone params.slot) (ask (V := V) (.releaseUnsent epoch)) (fun _ _ => True)
          (fun _ _ => True) := by
        refine ask_statement (fun s => ((), releaseUnsentStatement s params.slot.key epoch)) (fun _ _ => rfl)
          (Phase.stable _) ?_
        exact fun s _ _ _ => ⟨release_spec epoch leased, trivial, trivial, trivial⟩
      exact Triple.bind (m := fun _ _ => True) (Triple.attempt released) fun _ => Triple.throw fun _ _ => trivial
    · simp only [Bool.false_eq_true, if_false]
      refine Triple.bind (recoverFailedSend_safe params _ error) fun recovered => ?_
      cases recovered with
      | some value => exact Triple.pure fun _ _ => trivial
      | none =>
        refine Triple.strengthen (p := Phase.opened.At leaseKeyOf alone params.slot) ?_ fun _ holds => holds rfl
        refine Triple.ofExcept_bind (fun _ _ _ _ => trivial) fun fields _ => ?_
        exact Triple.bind (settles _ fields) fun _ => Triple.throw fun _ _ => trivial

theorem claimAndSend_safe :
    Triple (publishContract leaseKeyOf alone params.slot) (Phase.claimable.At leaseKeyOf alone params.slot)
      (claimAndSend params) (fun _ _ => True) (fun _ _ => True) := by
  refine Triple.bind (claim_claims params) fun _ => ?_
  refine Triple.bind (Triple.attempt (m := fun armed s => match armed with
    | .ok _ => Phase.armed.At leaseKeyOf alone params.slot s
    | .error _ => Phase.opened.At leaseKeyOf alone params.slot s) (armSend_arms params)) fun armed => ?_
  cases armed with
  | error error => exact (handleFailure_safe params false false error).strengthen fun _ holds _ => holds
  | ok _ =>
    refine Triple.bind (m := fun _ => Phase.opened.At leaseKeyOf alone params.slot)
      (Triple.attempt (mutate_sends params)) fun sent => ?_
    cases sent with
    | error error => exact (handleFailure_safe params _ false error).strengthen fun _ holds _ => holds
    | ok result =>
      refine Triple.bind (m := fun _ _ => True) (Triple.attempt (saveResult_safe params result)) fun saved => ?_
      cases saved with
      | error error => exact (handleFailure_safe params _ true error).strengthen fun _ _ => nofun
      | ok value => exact Triple.pure fun _ _ => trivial

theorem findInFlight_decides :
    Triple (publishContract leaseKeyOf alone params.slot) (Phase.retryable.At leaseKeyOf alone params.slot)
      (ask (V := V) .findInFlight)
      (fun found s => match (found : Option (IntentKey × OperationIntent V)) with
        | none => Phase.claimable.At leaseKeyOf alone params.slot s
        | some (target, _) => Settles leaseKeyOf params.slot target ∧
            Phase.retryable.At leaseKeyOf alone params.slot s) (fun _ _ => True) := by
  refine ask_statement (fun s => (findInFlightStatement leaseKeyOf s params.slot.key, s)) (fun _ _ => rfl)
    (Phase.stable _) ?_
  intro s holds inv current
  refine ⟨Quiet.refl.guarantee, ?_, trivial, trivial⟩
  cases found : findInFlightStatement leaseKeyOf s params.slot.key with
  | none => exact lookup_clears inv current found holds
  | some entry => exact ⟨inFlight_where found, holds⟩

-- Every operation of a call keeps the protocol, whatever the calls beside it, the leases and the database do.
-- The row in flight is recovered; where there is none, the mutation is sent.
theorem sendOrRecover_safe (found : Option (IntentKey × OperationIntent V)) :
    Triple (publishContract leaseKeyOf alone params.slot)
      (fun s => match found with
        | none => Phase.claimable.At leaseKeyOf alone params.slot s
        | some (target, _) => Settles leaseKeyOf params.slot target ∧
            Phase.retryable.At leaseKeyOf alone params.slot s)
      (match found with
        | some (target, row) => recoverAfterMutatingWithoutResult params target row
        | none => claimAndSend params) (fun _ _ => True) (fun _ _ => True) := by
  cases found with
  | none => exact claimAndSend_safe params
  | some entry =>
    obtain ⟨target, other⟩ := entry
    exact Triple.pull fun where' => recoverAfterMutatingWithoutResult_safe params target other .retryable where'
      fun s stash holds => stored_of_retryable stash holds

theorem publishOnceBody_safe :
    Triple (publishContract leaseKeyOf alone params.slot) (Phase.begun.At leaseKeyOf alone params.slot)
      (publishOnceBody params) (fun _ _ => True) (fun _ _ => True) := by
  have resultless : ∀ (s : PublishState V) (stash : Option (Option V)),
      (Phase.stored none).At leaseKeyOf alone params.slot s → (Phase.stored stash).At leaseKeyOf alone params.slot s := by
    intro s stash holds
    refine ⟨holds.1, fun owner => ?_⟩
    obtain ⟨⟨row, stored, result⟩, _⟩ := holds.2 owner
    exact ⟨⟨row, stored, .inl (result.elim id id)⟩, False.elim, False.elim⟩
  refine Triple.bind (assertMutationReady_safe params .begun) fun _ => ?_
  refine Triple.bind (persistOperationIntent_reserves params) fun row => ?_
  cases result : row.detail.result with
  | some stashed =>
    refine Triple.strengthen (p := (Phase.stored (some stashed)).At leaseKeyOf alone params.slot) ?_
      fun _ reserved => result ▸ reserved.1
    exact Triple.bind (assertMutationReady_safe params _) fun _ => finishWithStashedResult_safe params row stashed
  | none =>
    have unstored : ∀ s, Reserved leaseKeyOf alone params.slot row s →
        (Phase.stored none).At leaseKeyOf alone params.slot s := fun _ reserved => result ▸ reserved.1
    have retryable : row.status = .pending ∨ row.status = .failed → ∀ s, Reserved leaseKeyOf alone params.slot row s →
        Phase.retryable.At leaseKeyOf alone params.slot s := fun status _ reserved => reserved.2 ⟨status, result⟩
    cases status : row.status with
    | reconciled =>
      refine Triple.strengthen (p := (Phase.stored none).At leaseKeyOf alone params.slot) ?_ unstored
      refine Triple.bind (assertMutationReady_safe params _) fun _ => ?_
      refine Triple.bind ((recoverByExactEvidence_safe params params.slot.key row none (.stored none) (.inl rfl)
        resultless).weakenError fun _ _ _ => trivial) fun recovered => ?_
      cases recovered with
      | some value => exact Triple.pure fun _ _ => trivial
      | none =>
        simp only []
        split
        · exact (finishVoidSuccess_safe params params.slot.key {} row.publishRecordId rfl (.inl rfl)).strengthen
            fun s holds => resultless s _ (holds trivial)
        · exact Triple.throw fun _ _ => trivial
    | outcomeUnknown =>
      refine Triple.strengthen (p := (Phase.stored none).At leaseKeyOf alone params.slot) ?_ unstored
      refine Triple.bind (assertMutationReady_safe params _) fun _ => ?_
      simp only []
      split
      · exact Triple.throw fun _ _ => trivial
      · exact recoverAfterMutatingWithoutResult_safe params params.slot.key row (.stored none) (.inl rfl) resultless
    | pending =>
      refine Triple.strengthen ?_ (retryable (.inl status))
      exact Triple.bind (assertMutationReady_safe params _) fun _ => Triple.bind (findInFlight_decides params) (sendOrRecover_safe params)
    | failed =>
      refine Triple.strengthen ?_ (retryable (.inr status))
      exact Triple.bind (assertMutationReady_safe params _) fun _ => Triple.bind (findInFlight_decides params) (sendOrRecover_safe params)

end Calls
end PrAgent
