import PrAgent.PublishEvidence
import PrAgent.PublishSequence
set_option autoImplicit false

namespace PrAgent

section Calls

variable {V : Type} {leaseKeyOf : WorkItemId → LeaseKey} (params : PublishOnceParams V)

variable {fact : PublishState V → Prop}

theorem ready_keeps (lasts : ∀ s t, fact s → Grows s t → fact t) :
    Triple (evidenceContract leaseKeyOf params) fact (assertMutationReady params) (fun _ => fact) (fun _ _ => True) :=
  (Triple.keeps params lasts (assertMutationReady_evidenced params)).weakenError fun _ _ _ => trivial

theorem ready_unknowing {p : PublishState V → Prop} :
    Triple (evidenceContract leaseKeyOf params) p (assertMutationReady params) (fun _ _ => True) (fun _ _ => True) :=
  (assertMutationReady_evidenced params).strengthen fun _ _ => trivial

-- What the reservation returns is the caller's row, so its result is a saved one.
theorem persistOperationIntent_evidenced :
    Triple (evidenceContract leaseKeyOf params) (fun _ => True) (persistOperationIntent params)
      (fun row s => (row.status = .reconciled → row.detail.result.isSome) ∧
        ∀ result, row.detail.result = some result → SavedOn params.slot.key s result) (fun _ _ => True) := by
  refine Triple.bind (m := fun answer s => ∀ row, answer = some row → (row.status = .reconciled → row.detail.result.isSome) ∧
      ∀ result, row.detail.result = some result → SavedOn params.slot.key s result) ?_ fun answer => ?_
  · refine fencedWrite_evidenced params (fun _ _ _ _ => trivial) ?_ ?_
    · intro answer s t saved grows row returned
      exact ⟨(saved row returned).1, fun result stored => ((saved row returned).2 result stored).grows grows⟩
    · refine ask_evidenced params (fun s => persistStatement s params.slot { fields := params.detail }) (fun _ _ => rfl)
        (fun _ _ _ _ => trivial) ?_
      intro s _ evidenced
      obtain ⟨kept, grows, returns⟩ := persist_evidenced params.slot evidenced params.detail
      exact ⟨⟨kept, grows⟩, fun row returned => ⟨kept.reconciled _ row (returns row returned),
        fun result saved => kept.saved _ row result (returns row returned) saved⟩⟩
  · cases answer with
    | none => exact Triple.throw fun _ _ => trivial
    | some row => exact Triple.pure fun s saved => saved row rfl

theorem mergeOperationIntentDetail_evidenced (patch : IntentDetail V) (lasts : ∀ s t, fact s → Grows s t → fact t)
    (saved : ∀ s, fact s → ∀ result, patch.result = some result → SavedOn params.slot.key s result) :
    Triple (evidenceContract leaseKeyOf params) fact (mergeOperationIntentDetail params patch) (fun _ => fact)
      (fun _ _ => True) := by
  refine fencedWrite_evidenced params lasts (fun _ => lasts) ?_
  refine ask_evidenced params (fun s => mergeStatement s params.slot patch) (fun _ _ => rfl) lasts ?_
  intro s holds evidenced
  have merged := merge_evidenced evidenced patch (saved s holds)
  exact ⟨merged, lasts _ _ holds merged.2⟩

theorem reconcileOperationIntent_evidenced (target : IntentKey) (status : OperationIntentStatus)
    (publishRecordId : Option Nat) (patch : IntentDetail V)
    (lasts : ∀ s t, fact s → Grows s t → fact t)
    (saved : ∀ s, fact s → ∀ result, patch.result = some result → SavedOn target s result)
    (kept : status = .reconciled → patch.result.isSome) :
    Triple (evidenceContract leaseKeyOf params) fact (reconcileOperationIntent params target status publishRecordId patch)
      (fun _ => fact) (fun _ _ => True) := by
  refine fencedWrite_evidenced params lasts (fun _ => lasts) ?_
  refine Triple.bind (m := fun _ => fact) ?_ fun updated => ?_
  · refine ask_evidenced params (fun s => reconcileStatement s target params.slot.workItemId params.slot.leaseEpoch status
      publishRecordId patch) (fun _ _ => rfl) lasts ?_
    intro s holds evidenced
    have written := reconcile_evidenced params.slot evidenced target status publishRecordId patch (saved s holds) kept
    exact ⟨written, lasts _ _ holds written.2⟩
  · refine Triple.ite (fun _ => Triple.pure fun _ holds => holds) fun _ => ?_
    refine Triple.ite (fun _ => Triple.pure fun _ holds => holds) fun _ => ?_
    exact (Triple.keeps params lasts (ask_reads_evidenced params rfl)).weakenError fun _ _ _ => trivial

theorem finishWithStashedResult_obtains (intent : OperationIntent V) (stashed : Option V) :
    Triple (evidenceContract leaseKeyOf params) (fun s => SavedOn params.slot.key s stashed)
      (finishWithStashedResult params params.slot.key intent stashed) (Obtained params) (fun _ _ => True) := by
  have lasts : ∀ s t : PublishState V, SavedOn params.slot.key s stashed → Grows s t → SavedOn params.slot.key t stashed :=
    fun _ _ saved grows => saved.grows grows
  refine Triple.ofExcept_bind (fun _ _ _ _ => trivial) fun value decoded => ?_
  have obtained : ∀ s, SavedOn params.slot.key s stashed → Obtained params value s := by
    rintro s ⟨origin, evidence, same⟩
    exact ⟨origin, evidence, .inr (.inr (same ▸ decoded))⟩
  split
  · refine Triple.bind (ready_keeps params lasts) fun _ => ?_
    refine Triple.ofExcept_bind (fun _ _ _ _ => trivial) fun fields _ => ?_
    refine Triple.bind (reconcileOperationIntent_evidenced params params.slot.key .reconciled params.publishRecordId
      { fields, result := some stashed } lasts (fun s saved result same => ?_) fun _ => rfl) fun _ => ?_
    · obtain rfl := Option.some.inj same
      exact saved
    · exact Triple.pure obtained
  · exact Triple.pure obtained

-- A call finds only its own evidence: a positive answer about another work item's intent is ruled out.
theorem recover_own (target : IntentKey) (intent : OperationIntent V) (publishRecordId : Option Nat)
    (where' : Settles leaseKeyOf params.slot target) :
    Triple (evidenceContract leaseKeyOf params) (fun _ => True) (ask (V := V) (.recover target intent publishRecordId))
      (fun answer s => ∀ recovery : Recovery V, answer = some recovery → target = params.slot.key ∧
        Evidence params.slot.key s recovery.value) (fun _ _ => True) := by
  refine Triple.perform (fun _ _ _ _ _ => trivial) ?_
  rintro s answer t _ evidenced ⟨reply, own, acted⟩
  simp only [publishAct] at acted
  split at acted
  · obtain ⟨rfl, rfl⟩ := Prod.mk.inj (Option.some.inj acted)
    exact ⟨⟨.refl _, evidenced⟩, fun recovery found => by cases found⟩
  · next recovery =>
    obtain ⟨rfl, rfl⟩ := Prod.mk.inj (Option.some.inj acted)
    refine ⟨⟨.note s _, evidenced.same rfl (.note s _)⟩, fun found same => ?_⟩
    obtain rfl := Option.some.inj same
    have here : target = params.slot.key := where'.resolve_right fun foreign => by
      have ruledOut : target.workItemId = params.workItemId := by simpa [ForeignAnswer] using own
      exact foreign.1 ruledOut
    subst here
    exact ⟨rfl, params.slot, rfl, .inr (.inl (List.mem_cons_self ..))⟩
  · obtain ⟨rfl, rfl⟩ := Prod.mk.inj (Option.some.inj acted)
    exact ⟨⟨.refl _, evidenced⟩, trivial⟩
  · cases acted

theorem recoverByExactEvidence_obtains (target : IntentKey) (intent : OperationIntent V) (publishRecordId : Option Nat)
    (where' : Settles leaseKeyOf params.slot target) :
    Triple (evidenceContract leaseKeyOf params) (fun _ => True)
      (recoverByExactEvidence params target intent publishRecordId)
      (fun found s => ∀ value, found = some value → Obtained params value s) (fun _ _ => True) := by
  unfold recoverByExactEvidence
  split
  · refine Triple.bind (m := fun attempt s => ∀ recovery : Recovery V, attempt = .ok (some recovery) →
      target = params.slot.key ∧ Evidence params.slot.key s recovery.value) ?_ fun attempt => ?_
    · refine Triple.attempt ((recover_own params target intent publishRecordId where').weaken ?_
        fun _ _ _ recovery same => nomatch same)
      intro answer s own recovery same
      exact own recovery (Except.ok.inj same)
    · match attempt with
      | .error _ => exact Triple.bind (ready_unknowing params) fun _ => Triple.throw fun _ _ => trivial
      | .ok none => exact Triple.bind (ready_unknowing params) fun _ => Triple.pure fun _ _ _ found => nomatch found
      | .ok (some recovery) =>
        refine Triple.strengthen (p := fun s => target = params.slot.key ∧ Evidence params.slot.key s recovery.value) ?_
          fun s own => own recovery rfl
        refine Triple.pull fun here => ?_
        subst here
        have lasts : ∀ s t : PublishState V, Evidence params.slot.key s recovery.value → Grows s t →
            Evidence params.slot.key t recovery.value := fun _ _ evidence grows => evidence.grows grows
        refine Triple.bind (ready_keeps params lasts) fun _ => ?_
        refine Triple.ofExcept_bind (fun _ _ _ _ => trivial) fun value decoded => ?_
        refine Triple.ofExcept_bind (fun _ _ _ _ => trivial) fun fields _ => ?_
        refine Triple.bind (reconcileOperationIntent_evidenced params params.slot.key .reconciled
          (recovery.publishRecordId.or publishRecordId)
          { fields := recovery.detail ++ fields, result := some recovery.value.stash } lasts
          (fun s evidence result same => ⟨recovery.value, evidence, Option.some.inj same⟩) fun _ => rfl) fun _ => ?_
        refine Triple.pure fun s evidence found same => ?_
        obtain rfl := Option.some.inj same
        exact ⟨recovery.value, evidence, .inr (.inl decoded)⟩
  · exact Triple.pure fun _ _ _ found => nomatch found

theorem finishVoidSuccess_obtains (extraDetail : IntentDetail V) (publishRecordId : Option Nat) :
    Triple (evidenceContract leaseKeyOf params) (fun s => Evidence params.slot.key s .undefined)
      (finishVoidSuccess params params.slot.key extraDetail publishRecordId) (Obtained params) (fun _ _ => True) := by
  have lasts : ∀ s t : PublishState V, Evidence params.slot.key s .undefined → Grows s t →
      Evidence params.slot.key t .undefined := fun _ _ evidence grows => evidence.grows grows
  refine Triple.ofExcept_bind (fun _ _ _ _ => trivial) fun value decoded => ?_
  refine Triple.bind (ready_keeps params lasts) fun _ => ?_
  refine Triple.ofExcept_bind (fun _ _ _ _ => trivial) fun fields _ => ?_
  refine Triple.bind (reconcileOperationIntent_evidenced params params.slot.key .reconciled
    (publishRecordId.or params.publishRecordId) { extraDetail with fields, result := some none } lasts
    (fun s evidence result same => ⟨.undefined, evidence, Option.some.inj same⟩) fun _ => rfl) fun _ => ?_
  exact Triple.pure fun s evidence => ⟨.undefined, evidence, .inr (.inl decoded)⟩

-- A completed record counts where a void success is allowed, and is then one of the caller's own intent.
def RecordKnown (target : IntentKey) (publishRecordId : Option Nat) (s : PublishState V) : Prop :=
  publishRecordId.isSome → allowsUndefinedSuccess params = true →
    target = params.slot.key ∧ Evidence params.slot.key s .undefined

theorem RecordKnown.grows {params : PublishOnceParams V} {target : IntentKey} {publishRecordId : Option Nat}
    {s t : PublishState V} (known : RecordKnown params target publishRecordId s) (grows : Grows s t) :
    RecordKnown params target publishRecordId t :=
  fun some allowed => ⟨(known some allowed).1, (known some allowed).2.grows grows⟩

theorem findCompletedPublishRecordId_known (target : IntentKey) (intent : OperationIntent V)
    (where' : Settles leaseKeyOf params.slot target) :
    Triple (evidenceContract leaseKeyOf params) (fun _ => True)
      (ask (V := V) (.findCompletedPublishRecordId target intent))
      (fun publishRecordId => RecordKnown params target publishRecordId) (fun _ _ => True) := by
  refine Triple.perform (fun _ _ _ _ _ => trivial) ?_
  rintro s answer t _ evidenced ⟨reply, own, acted⟩
  simp only [publishAct] at acted
  split at acted
  · obtain ⟨rfl, rfl⟩ := Prod.mk.inj (Option.some.inj acted)
    exact ⟨⟨.refl _, evidenced⟩, fun found => by cases found⟩
  · next id =>
    obtain ⟨rfl, rfl⟩ := Prod.mk.inj (Option.some.inj acted)
    refine ⟨⟨.note s _, evidenced.same rfl (.note s _)⟩, fun _ allowed => ?_⟩
    have here : target = params.slot.key := where'.resolve_right fun foreign => by
      have ruledOut : target.workItemId = params.workItemId := by simpa [ForeignAnswer, allowed] using own
      exact foreign.1 ruledOut
    subst here
    exact ⟨rfl, params.slot, rfl, .inr (.inr ⟨List.mem_cons_self .., rfl⟩)⟩
  · obtain ⟨rfl, rfl⟩ := Prod.mk.inj (Option.some.inj acted)
    exact ⟨⟨.refl _, evidenced⟩, trivial⟩
  · cases acted

theorem settleUnknownOutcome_obtains (target : IntentKey) (publishRecordId : Option Nat) (observed : Bool) :
    Triple (evidenceContract leaseKeyOf params) (RecordKnown params target publishRecordId)
      (settleUnknownOutcome params target publishRecordId observed) (Obtained params) (fun _ _ => True) := by
  unfold settleUnknownOutcome
  split
  · next accepted =>
    refine Triple.strengthen (p := fun s => target = params.slot.key ∧ Evidence params.slot.key s .undefined) ?_
      fun s known => known accepted.1 accepted.2
    refine Triple.pull fun here => ?_
    subst here
    exact finishVoidSuccess_obtains params _ publishRecordId
  · refine Triple.strengthen (p := fun _ => True) ?_ fun _ _ => trivial
    refine Triple.bind (ready_unknowing params) fun _ => ?_
    refine Triple.ofExcept_bind (fun _ _ _ _ => trivial) fun fields _ => ?_
    refine Triple.bind (reconcileOperationIntent_evidenced params target .outcomeUnknown none _ (fun _ _ _ _ => trivial)
      (fun _ _ _ same => nomatch same) fun same => nomatch same) fun resolved => ?_
    split
    · exact Triple.bind (ready_unknowing params) fun _ => Triple.throw fun _ _ => trivial
    · exact Triple.throw fun _ _ => trivial

theorem recoverAfterMutatingWithoutResult_obtains (target : IntentKey) (intent : OperationIntent V)
    (where' : Settles leaseKeyOf params.slot target) :
    Triple (evidenceContract leaseKeyOf params) (fun _ => True)
      (recoverAfterMutatingWithoutResult params target intent) (Obtained params) (fun _ _ => True) := by
  refine Triple.bind (m := fun lookup s => match lookup with
    | .ok publishRecordId => RecordKnown params target publishRecordId s
    | .error _ => True) ?_ fun lookup => ?_
  · exact Triple.attempt (findCompletedPublishRecordId_known params target intent where')
  · match lookup with
    | .error _ => exact Triple.throw fun _ _ => trivial
    | .ok publishRecordId =>
      have lasts : ∀ s t : PublishState V, RecordKnown params target publishRecordId s → Grows s t →
          RecordKnown params target publishRecordId t := fun _ _ known grows => known.grows grows
      have recovers := Triple.logged params lasts
        (recoverByExactEvidence_obtains params target intent publishRecordId where')
      refine Triple.bind (m := fun attempt s => (∀ value, attempt = .ok (some value) → Obtained params value s) ∧
        RecordKnown params target publishRecordId s) ?_ fun attempt => ?_
      · refine Triple.attempt (recovers.conseq (fun _ known => ⟨trivial, known⟩) ?_ ?_)
        · exact fun found s known => ⟨fun value same => known.1 value (Except.ok.inj same), known.2⟩
        · exact fun error s known => ⟨fun value same => (nomatch same), known.2⟩
      · match attempt with
        | .ok (some value) => exact Triple.pure fun s known => known.1 value rfl
        | .ok none => exact (settleUnknownOutcome_obtains params target publishRecordId true).strengthen fun _ known => known.2
        | .error error =>
          simp only []
          split
          · exact Triple.throw fun _ _ => trivial
          · split
            · exact Triple.throw fun _ _ => trivial
            · exact (settleUnknownOutcome_obtains params target publishRecordId false).strengthen fun _ known => known.2

theorem saveResult_obtains (result : Unknown V) :
    Triple (evidenceContract leaseKeyOf params) (fun s => Evidence params.slot.key s result)
      (saveResult params result) (Obtained params) (fun _ _ => True) := by
  have lasts : ∀ s t : PublishState V, Evidence params.slot.key s result → Grows s t →
      Evidence params.slot.key t result := fun _ _ evidence grows => evidence.grows grows
  refine Triple.ofExcept_bind (fun _ _ _ _ => trivial) fun _ _ => ?_
  refine Triple.bind (ready_keeps params lasts) fun _ => ?_
  refine Triple.ofExcept_bind (fun _ _ _ _ => trivial) fun fields _ => ?_
  have saved : ∀ s, Evidence params.slot.key s result → ∀ stash, some result.stash = some stash →
      SavedOn params.slot.key s stash := fun s evidence stash same => ⟨result, evidence, Option.some.inj same⟩
  refine Triple.bind (mergeOperationIntentDetail_evidenced params { fields, result := some result.stash } lasts saved)
    fun _ => ?_
  refine Triple.bind (reconcileOperationIntent_evidenced params params.slot.key .reconciled params.publishRecordId
    { fields, result := some result.stash } lasts saved fun _ => rfl) fun _ => ?_
  exact Triple.pure fun s evidence => ⟨result, evidence, .inl rfl⟩

theorem mutate_evidenced :
    Triple (evidenceContract leaseKeyOf params) (fun _ => True) (ask (V := V) .mutate)
      (fun result s => Evidence params.slot.key s result) (fun _ _ => True) := by
  refine Triple.perform (fun _ _ _ _ _ => trivial) ?_
  rintro s answer t _ evidenced ⟨reply, _, acted⟩
  simp only [publishAct] at acted
  split at acted
  · obtain ⟨rfl, rfl⟩ := Prod.mk.inj (Option.some.inj acted)
    exact ⟨⟨.note s _, evidenced.same rfl (.note s _)⟩, trivial⟩
  · next result _ =>
    obtain ⟨rfl, rfl⟩ := Prod.mk.inj (Option.some.inj acted)
    have grows : Grows s ((s.note (.sent params.slot)).note (.mutated params.slot result)) :=
      (Grows.note s _).trans (.note _ _)
    exact ⟨⟨grows, evidenced.same rfl grows⟩, params.slot, rfl, .inl (List.mem_cons_self ..)⟩
  · cases acted

theorem handleFailure_obtains (sendStarted mutateSucceeded : Bool) (error : Thrown) :
    Triple (evidenceContract leaseKeyOf params) (fun _ => True)
      (handleFailure params sendStarted mutateSucceeded error) (Obtained params) (fun _ _ => True) := by
  have released : ∀ epoch, Triple (evidenceContract leaseKeyOf params) (fun _ => True)
      (ask (V := V) (.releaseUnsent epoch)) (fun _ _ => True) (fun _ _ => True) := by
    intro epoch
    refine ask_evidenced params (fun s => ((), releaseUnsentStatement s params.slot.key epoch)) (fun _ _ => rfl)
      (fun _ _ _ _ => trivial) ?_
    exact fun s _ evidenced => ⟨release_evidenced evidenced epoch, trivial⟩
  have recovers : ∀ known, Triple (evidenceContract leaseKeyOf params) (fun _ => True)
      (recoverFailedSend params known error) (fun found s => ∀ value, found = some value → Obtained params value s)
      (fun _ _ => True) := by
    intro known
    unfold recoverFailedSend
    split
    · refine Triple.bind (persistOperationIntent_evidenced params) fun intent => ?_
      exact (recoverByExactEvidence_obtains params params.slot.key intent none (.inl rfl)).strengthen fun _ _ => trivial
    · exact Triple.pure fun _ _ _ found => nomatch found
  unfold handleFailure
  simp only []
  split
  · exact Triple.bind (m := fun _ _ => True) (Triple.attempt (released _)) fun _ => Triple.throw fun _ _ => trivial
  · split
    · exact Triple.throw fun _ _ => trivial
    · refine Triple.bind (recovers _) fun recovered => ?_
      cases recovered with
      | some value => exact Triple.pure fun s obtained => obtained value rfl
      | none =>
        refine Triple.ofExcept_bind (fun _ _ _ _ => trivial) fun fields _ => ?_
        refine Triple.bind (Triple.strengthen (reconcileOperationIntent_evidenced params params.slot.key _ none _
          (fun _ _ _ _ => trivial) (fun _ _ _ same => nomatch same) fun same => ?_) fun _ _ => trivial) fun _ =>
          Triple.throw fun _ _ => trivial
        split at same <;> cases same

theorem claimAndSend_obtains :
    Triple (evidenceContract leaseKeyOf params) (fun _ => True) (claimAndSend params) (Obtained params)
      (fun _ _ => True) := by
  have unsaved : ∀ patch : IntentDetail V, patch.result = none →
      Triple (evidenceContract leaseKeyOf params) (fun _ => True) (mergeOperationIntentDetail params patch)
        (fun _ _ => True) (fun _ _ => True) := fun patch resultless =>
    mergeOperationIntentDetail_evidenced params patch (fun _ _ _ _ => trivial)
      fun _ _ _ same => nomatch resultless.symm.trans same
  have arms : Triple (evidenceContract leaseKeyOf params) (fun _ => True) (armSend params) (fun _ _ => True)
      (fun _ _ => True) := by
    refine Triple.bind (ready_unknowing params) fun _ => ?_
    split
    · refine Triple.bind (assertPrActorLeaseHeld_evidenced params _ _) fun _ => ?_
      refine Triple.bind (unsaved _ rfl) fun marked => ?_
      split
      · exact Triple.throw fun _ _ => trivial
      · exact Triple.pure fun _ _ => trivial
    · exact Triple.pure fun _ _ => trivial
  refine Triple.bind (unsaved (claimPatch params) rfl) fun _ => ?_
  refine Triple.bind (m := fun _ _ => True) (Triple.attempt arms) fun armed => ?_
  cases armed with
  | error error => exact handleFailure_obtains params false false error
  | ok _ =>
    refine Triple.bind (Triple.attempt (m := fun sent s => ∀ result, sent = .ok result → Evidence params.slot.key s result)
      ((mutate_evidenced params).weaken ?_ fun _ _ _ _ same => nomatch same)) fun sent => ?_
    · intro result s evidence found same
      obtain rfl := Except.ok.inj same
      exact evidence
    · cases sent with
      | error error => exact (handleFailure_obtains params _ false error).strengthen fun _ _ => trivial
      | ok result =>
        refine Triple.strengthen (p := fun s => Evidence params.slot.key s result) ?_ fun s evidence => evidence result rfl
        refine Triple.bind (Triple.attempt (m := fun saved s => ∀ value, saved = .ok value → Obtained params value s)
          ((saveResult_obtains params result).weaken ?_ fun _ _ _ _ same => nomatch same))
          fun saved => ?_
        · intro value s obtained found same
          obtain rfl := Except.ok.inj same
          exact obtained
        · cases saved with
          | error error => exact (handleFailure_obtains params _ true error).strengthen fun _ _ => trivial
          | ok value => exact Triple.pure fun s obtained => obtained value rfl

theorem findInFlight_settles : Triple (evidenceContract leaseKeyOf params) (fun _ => True) (ask (V := V) .findInFlight)
    (fun found _ => ∀ target other, (found : Option (IntentKey × OperationIntent V)) = some (target, other) →
      Settles leaseKeyOf params.slot target) (fun _ _ => True) := by
  refine ask_evidenced params (fun s => (findInFlightStatement leaseKeyOf s params.slot.key, s)) (fun _ _ => rfl)
    (fun _ _ _ _ => trivial) ?_
  exact fun s _ evidenced => ⟨⟨evidenced, .refl s⟩, fun target other found => inFlight_where found⟩

theorem sendOrRecover_obtains : Triple (evidenceContract leaseKeyOf params) (fun _ => True) (do
      let inFlight : Option (IntentKey × OperationIntent V) ← ask .findInFlight
      match inFlight with
      | some (target, row) => recoverAfterMutatingWithoutResult params target row
      | none => claimAndSend params) (Obtained params) (fun _ _ => True) := by
  refine Triple.bind (findInFlight_settles params) fun found => ?_
  cases found with
  | none => exact (claimAndSend_obtains params).strengthen fun _ _ => trivial
  | some entry =>
    obtain ⟨target, other⟩ := entry
    intro s where'
    exact recoverAfterMutatingWithoutResult_obtains params target other (where' target other rfl) s trivial

theorem publishOnceBody_obtains :
    Triple (evidenceContract leaseKeyOf params) (fun _ => True) (publishOnceBody params) (Obtained params)
      (fun _ _ => True) := by
  refine Triple.bind (ready_unknowing params) fun _ => ?_
  refine Triple.bind (persistOperationIntent_evidenced params) fun row => ?_
  have lasts : ∀ s t : PublishState V, (∀ result, row.detail.result = some result → SavedOn params.slot.key s result) →
      Grows s t → ∀ result, row.detail.result = some result → SavedOn params.slot.key t result :=
    fun s t saved grows result stored => (saved result stored).grows grows
  refine Triple.pull fun kept => ?_
  refine Triple.bind (ready_keeps params lasts) fun _ => ?_
  cases result : row.detail.result with
  | some stashed =>
    exact (finishWithStashedResult_obtains params row stashed).strengthen fun s saved => saved stashed rfl
  | none =>
    refine Triple.strengthen (p := fun _ => True) ?_ fun _ _ => trivial
    cases status : row.status with
    | reconciled =>
      have saved := kept status
      rw [result] at saved
      cases saved
    | outcomeUnknown =>
      simp only []
      split
      · exact Triple.throw fun _ _ => trivial
      · exact recoverAfterMutatingWithoutResult_obtains params params.slot.key row (.inl rfl)
    | pending => exact sendOrRecover_obtains params
    | failed => exact sendOrRecover_obtains params

end Calls

section Runs

variable {V : Type} {leaseKeyOf : WorkItemId → LeaseKey}

-- No call is told that another work item's mutation went through.
def OwnAnswers (pool : PublishPool V) : PublishPoolEvent V → Prop
  | .step slot reply =>
    match pool.threads.get? slot with
    | some ⟨params, .call op _⟩ => ForeignAnswer params op reply = false
    | _ => True
  | _ => True

instance (pool : PublishPool V) (event : PublishPoolEvent V) : Decidable (OwnAnswers pool event) :=
  match event with
  | .step slot reply =>
    match found : pool.threads.get? slot with
    | some ⟨params, .call op _⟩ =>
      decidable_of_iff (ForeignAnswer params op reply = false) (by simp only [OwnAnswers, found])
    | some ⟨_, .done _⟩ | some ⟨_, .raise _⟩ | none => isTrue (by simp only [OwnAnswers, found])
  | .start .. | .finish .. | .crash .. | .move .. => isTrue trivial

-- What the call of this slot returned, with the slot of its task.
def PublishPool.returned? (pool : PublishPool V) (slot : PublishSlot) : Option (PublishSlot × Unknown V) :=
  match pool.threads.get? slot with
  | some ⟨params, .done value⟩ => some (params.slot, value)
  | _ => none

theorem PublishPool.returned?_some {pool : PublishPool V} {slot own : PublishSlot} {value : Unknown V}
    (returned : pool.returned? slot = some (own, value)) :
    ∃ params, params.slot = own ∧ pool.threads.get? slot = some ⟨params, .done value⟩ := by
  unfold PublishPool.returned? at returned
  split at returned
  · next params result found =>
    obtain ⟨same, rfl⟩ := Prod.mk.inj (Option.some.inj returned)
    exact ⟨params, same, found⟩
  · cases returned

def TasksAtHome (pool : PublishPool V) : Prop :=
  ∀ slot running, pool.threads.get? slot = some running → running.task.slot = slot

theorem TasksAtHome.step {pool pool' : PublishPool V} {event : PublishPoolEvent V} (home : TasksAtHome pool)
    (moved : (publishSystem leaseKeyOf V).step pool event = some pool') : TasksAtHome pool' := by
  intro slot running found
  rcases System.step_running _ moved found with ⟨before, at_before, same⟩ | ⟨_, starts⟩
  · exact same ▸ home slot before at_before
  · exact (publishStarts_issued starts).1

theorem evidenceSystem_obeys :
    (publishSystem leaseKeyOf V).Obeys (fun _ params => evidenceContract leaseKeyOf params) Evidenced
      (fun _ _ => True) (fun _ params value => Obtained params value) (fun _ _ _ => True)
      (fun pool event => OwnAnswers pool event ∧ TasksAtHome pool) where
  inv_eq := fun _ _ => rfl
  normal_stable := fun _ _ _ _ _ obtained grows _ => obtained.grows grows
  exceptional_stable := fun _ _ _ _ _ _ _ _ => trivial
  start := fun pool _ params _ _ _ =>
    ⟨publishOnceBody_obtains params pool.world trivial, fun _ _ _ => ⟨trivial, trivial⟩⟩
  act := by
    intro pool slot reply params op next answer world ok at_op acted
    obtain ⟨own, home⟩ := ok
    obtain rfl : params.slot = slot := home slot _ at_op
    simp only [OwnAnswers, at_op] at own
    exact ⟨reply, own, acted⟩
  keeps := fun _ _ _ _ _ step => step.2
  interferes := fun _ _ _ _ _ _ _ _ _ step => step.1
  ends := fun _ _ _ s evidenced _ => ⟨evidenced, fun _ _ _ => .refl s⟩
  move := by
    intro move s t evidenced moved
    obtain rfl := Option.some.inj moved
    exact ⟨evidenced.same rfl (.refl s), fun _ _ => .refl s⟩

-- A call that returns normally returns a value of its own operation, and a reconciled intent carries one of its own.
theorem publishOnce_succeeds_on_own_evidence (leaseKeyOf : WorkItemId → LeaseKey) (pool : PublishPool V)
    (reached : Reaches (publishSystem leaseKeyOf V).step OwnAnswers PublishPool.empty pool) :
    (∀ slot params value, pool.threads.get? slot = some ⟨params, .done value⟩ →
      params.slot = slot ∧ Obtained params value pool.world) ∧
      (∀ key row, pool.world.intents.get? key = some row → row.status = .reconciled →
        ∃ result, row.detail.result = some result ∧ SavedOn key pool.world result) := by
  obtain ⟨reached, home⟩ := reached.restrict TasksAtHome (fun slot running live => by cases live)
    (fun s event t home ok moved => home.step moved) (fun s event home ok => And.intro ok home)
  have evidenced : Evidenced (PublishPool.empty : PublishPool V).world :=
    ⟨fun _ _ _ stored => (Option.some_ne_none _ stored.symm).elim,
      fun _ _ stored => (Option.some_ne_none _ stored.symm).elim⟩
  have safe := System.reaches_safe evidenceSystem_obeys evidenced (fun _ => rfl) reached
  refine ⟨fun slot params value found => ⟨home slot _ found, safe.threads slot _ found⟩, fun key row stored reconciled => ?_⟩
  obtain ⟨result, saved⟩ := Option.isSome_iff_exists.mp (safe.inv.reconciled key row stored reconciled)
  exact ⟨result, saved, safe.inv.saved key row result stored saved⟩

end Runs

section Schedules

def savedRun : List (PublishPoolEvent Nat) :=
  unleasedArms ++ replies unleasedCall [.sent (.ok (.value 5)), .signal none, .served, .served]

theorem savedRun_succeeds :
    (∀ slot params value, (publishRun OwnAnswers savedRun).threads.get? slot = some ⟨params, .done value⟩ →
      params.slot = slot ∧ Obtained params value (publishRun OwnAnswers savedRun).world) ∧
      (∀ key row, (publishRun OwnAnswers savedRun).world.intents.get? key = some row → row.status = .reconciled →
        ∃ result, row.detail.result = some result ∧ SavedOn key (publishRun OwnAnswers savedRun).world result) :=
  publishOnce_succeeds_on_own_evidence oneSurface (publishRun OwnAnswers savedRun) (reaches_runTo _ _ _ (by decide +kernel))

def recoveringCall : PublishOnceParams Nat := { workItemId := 2, operationKey := 8, leaseEpoch := some 2, recovers := true }

-- The first holder sends and dies. The next one, publishing something else, finds that intent in flight and runs its
-- own recovery, which finds its own mutation of an earlier day on the surface.
def borrowedRun : List (PublishPoolEvent Nat) :=
  armedRun ++ replies (leasedCall 1 1 7) [.sent (.ok (.value 5))] ++
    [.crash (leasedCall 1 1 7).slot, lapses, acquires 2] ++ reserves recoveringCall ++
    replies recoveringCall [.served, .record none, .recovery (.ok (some { value := .value 9 })), .signal none, .served,
      .served, .served]

def AnyAnswer (_ : PublishPool Nat) (_ : PublishPoolEvent Nat) : Prop := True

instance (pool : PublishPool Nat) (event : PublishPoolEvent Nat) : Decidable (AnyAnswer pool event) := isTrue trivial

theorem borrowedRun_log : (publishRun AnyAnswer borrowedRun).world.log =
    [.recovered recoveringCall.slot ⟨1, 7⟩ (.value 9), .mutated (leasedCall 1 1 7).slot (.value 5),
      .sent (leasedCall 1 1 7).slot] := by
  decide +kernel

theorem publishOnce_succeeds_on_foreign_evidence : ∃ pool : PublishPool Nat,
    Reaches (publishSystem oneSurface Nat).step AnyAnswer PublishPool.empty pool ∧
      (∃ slot params value, pool.threads.get? slot = some ⟨params, .done value⟩ ∧ ¬Obtained params value pool.world) ∧
      (∃ key row result, pool.world.intents.get? key = some row ∧ row.status = .reconciled ∧
        row.detail.result = some result ∧ ¬SavedOn key pool.world result) := by
  refine ⟨publishRun AnyAnswer borrowedRun, reaches_runTo _ _ _ (by decide +kernel), ?_, ?_⟩
  · have returned : (publishRun AnyAnswer borrowedRun).returned? recoveringCall.slot =
        some (recoveringCall.slot, .value 9) := by decide +kernel
    obtain ⟨params, own, found⟩ := PublishPool.returned?_some returned
    refine ⟨recoveringCall.slot, params, .value 9, found, ?_⟩
    rintro ⟨origin, ⟨slot, same, evidence⟩, _⟩
    rw [own] at same evidence
    rw [borrowedRun_log] at evidence
    have apart : (leasedCall 1 1 7).slot.key ≠ recoveringCall.slot.key := by decide
    rcases evidence with mutated | recovered | ⟨found, _⟩
    · simp at mutated
      exact apart (mutated.1 ▸ same)
    · simp at recovered
      exact absurd recovered.2.1 (by decide)
    · simp at found
  · have saved : ((publishRun AnyAnswer borrowedRun).world.intents.get? ⟨1, 7⟩).map
        (fun row => (row.status, row.detail.result)) = some (.reconciled, some (some 9)) := by decide +kernel
    obtain ⟨row, stored, fields⟩ := Option.map_eq_some_iff.mp saved
    obtain ⟨reconciled, result⟩ := Prod.mk.inj fields
    refine ⟨⟨1, 7⟩, row, some 9, stored, reconciled, result, ?_⟩
    rintro ⟨value, ⟨slot, same, evidence⟩, stashed⟩
    rw [borrowedRun_log] at evidence
    rcases evidence with mutated | recovered | ⟨found, _⟩
    · simp at mutated
      rw [mutated.2] at stashed
      exact absurd stashed (by decide)
    · simp at recovered
      rw [recovered.1] at same
      exact absurd same (by decide)
    · simp at found

end Schedules
end PrAgent
