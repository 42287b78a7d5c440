import PrAgent.AskReplyPublish
set_option autoImplicit false

namespace PrAgent

section Calls

variable {item : AskWorkItem} {bot : Login} {leaseKeyOf : WorkItemId → LeaseKey} {fact : AskState → Prop}
  {key : OperationKey} {row : Option (OperationIntent CommentId) → Prop} {params : PublishOnceParams CommentId}
  {mutate : AskProgram (Unknown CommentId)} {recover : AskProgram (Option (Recovery CommentId))}

def Recovery.Usable (recovery : Option (Recovery CommentId)) : Prop :=
  ∀ found ∈ recovery, ∃ commentId, found.value = .value commentId

-- A recovery lookup answers a comment id and changes nothing.
def Recovers (item : AskWorkItem) (bot : Login) (leaseKeyOf : WorkItemId → LeaseKey) (key : OperationKey)
    (recover : AskProgram (Option (Recovery CommentId))) : Prop :=
  ∀ fact, Surface bot fact →
    Triple (askContract item bot leaseKeyOf) (Known item key fact AnyRow) recover
      (fun recovery s => Recovery.Usable recovery ∧ Known item key fact AnyRow s)
      (fun _ => Known item key fact AnyRow)

-- What `publishOnce` is given: the closures of a reply, and its own view of a definitive refusal.
structure Replies (item : AskWorkItem) (bot : Login) (leaseKeyOf : WorkItemId → LeaseKey) (key : OperationKey)
    (params : PublishOnceParams CommentId) (mutate : AskProgram (Unknown CommentId))
    (recover : AskProgram (Option (Recovery CommentId))) : Prop extends ForItem item key params where
  recovers : params.recovers = true
  defined : params.allowsUndefinedResult = false
  refusal : params.isKnownNoAcceptanceError = some isKnownNoAcceptanceMutationError
  lookup : Recovers item bot leaseKeyOf key recover
  send : Triple (askContract item bot leaseKeyOf)
    (Known item key (fun s => MayPost item bot key s ∧ Unposted bot key s) fun r => ∃ row, r = some row ∧ row.Guarded)
    mutate (fun result s => (∃ commentId, result = .value commentId) ∧ Known item key (MayPost item bot key) AnyRow s)
    (fun error => Known item key (fun s => MayPost item bot key s ∧ ProvesUnposted bot key error s) AnyRow)

variable {intent : OperationIntent CommentId}

theorem recoverByExactEvidence_keeps {publishRecordId : Option Nat}
    (call : Replies item bot leaseKeyOf key params mutate recover) (surface : Surface bot fact) :
    Handled (askContract item bot leaseKeyOf) (publishHandler key mutate recover) (Known item key fact AnyRow)
      (recoverByExactEvidence params ⟨item.id, key⟩ intent publishRecordId)
      (fun _ => Known item key fact AnyRow) (fun _ => Known item key fact AnyRow) := by
  refine Handled.ite (fun _ => ?_) fun _ => Handled.pure fun _ known => known
  refine Handled.bind (m := fun (answer : Except Thrown (Option (Recovery CommentId))) s =>
    (∀ recovery, answer = .ok recovery → Recovery.Usable recovery) ∧ Known item key fact AnyRow s) ?_ fun answer => ?_
  · refine Handled.attempt (Handled.perform (Triple.attempt ?_))
    refine (call.lookup fact surface).weaken ?_ ?_
    · intro recovery s after
      exact ⟨fun other same => Except.ok.inj same ▸ after.1, after.2⟩
    · intro error s known
      exact ⟨fun other same => (nomatch same), known⟩
  · cases answer with
    | error error =>
      refine Handled.bind (m := fun _ => Known item key fact AnyRow)
        ((ask_ready_keeps call.toForItem).strengthen fun _ after => after.2) fun _ => ?_
      exact Handled.throw fun _ known => known
    | ok recovery =>
      refine Handled.bind (ask_ready_keeps call.toForItem) fun _ => ?_
      cases recovery with
      | none => exact Handled.pure fun _ after => after.2
      | some found =>
        intro s after
        obtain ⟨commentId, value⟩ := after.1 (some found) rfl found rfl
        refine Handled.ofExcept_bind (fun _ _ _ known => known) (fun value' _ => ?_) s after.2
        refine Handled.ofExcept_bind (fun _ _ _ known => known) fun fields _ => ?_
        refine Handled.bind (m := fun _ => Known item key fact AnyRow) ?_ fun _ => Handled.pure fun _ known => known
        refine reconcileAskIntent_settles call.toForItem ⟨?_, rfl⟩ (fun _ => rfl) surface fun ne => absurd rfl ne.1
        rw [value]
        exact fun same => nomatch Option.some.inj same

theorem settleUnknownOutcome_settles {publishRecordId : Option Nat} {observed : Bool}
    (call : Replies item bot leaseKeyOf key params mutate recover) (surface : Surface bot fact) :
    Handled (askContract item bot leaseKeyOf) (publishHandler key mutate recover) (Known item key fact AnyRow)
      (settleUnknownOutcome params ⟨item.id, key⟩ publishRecordId observed) (fun _ _ => True) (fun _ _ => True) := by
  have strict : ¬(publishRecordId.isSome ∧ allowsUndefinedSuccess params = true) := by
    simp [allowsUndefinedSuccess, call.recovers, call.defined]
  rw [settleUnknownOutcome, if_neg strict]
  refine Handled.bind (m := fun _ => Known item key fact AnyRow) (ask_ready_keeps call.toForItem) fun _ => ?_
  refine Handled.ofExcept_bind (fun _ _ _ _ => trivial) fun fields _ => ?_
  refine Handled.bind (m := fun _ => Known item key fact AnyRow) ?_ fun resolved => ?_
  · refine Handled.weaken (reconcileAskIntent_settles call.toForItem ⟨nofun, rfl⟩ nofun surface
      fun ne => absurd rfl ne.2) (fun _ _ known => known) fun _ _ _ => trivial
  · refine Handled.ite (fun _ => ?_) fun _ => Handled.throw fun _ _ => trivial
    refine Handled.bind (m := fun _ => Known item key fact AnyRow) (ask_ready_keeps call.toForItem) fun _ => ?_
    exact Handled.throw fun _ _ => trivial

theorem store_findCompleted (surface : Surface bot fact) (target : IntentKey) (intent : OperationIntent CommentId) :
    Triple (askContract item bot leaseKeyOf) (Known item key fact AnyRow)
      (await (.store key (.findCompletedPublishRecordId target intent)))
      (fun _ => Known item key fact AnyRow) (fun _ => Known item key fact AnyRow) := by
  refine Triple.perform (Known.stable surface AnyRow) ?_
  rintro s answer t known inv ⟨reply, _, acted⟩
  cases reply with
  | store reply =>
    simp only [askAct] at acted
    obtain ⟨⟨answered, db⟩, served, moved⟩ := Option.map_eq_some_iff.mp acted
    obtain ⟨rfl, rfl⟩ := Prod.mk.inj moved
    have quiet := quiet_of_reads rfl served
    have kept : AskInv item bot leaseKeyOf { s with db } := by
      have intents : ∀ other, ({ s with db } : AskState).intent item other = s.intent item other := fun other => by
        simp only [AskState.intent, quiet.intents]
      refine @AskInv.write _ _ _ _ _ key inv quiet.leases rfl rfl (fun other _ => intents other) ?_ ?_
      · rw [intents]
        exact inv.rows key
      · rw [intents]
        exact inv.covered key
    have after : Known item key fact AnyRow { s with db } := ⟨surface.of_db db known.1, trivial⟩
    cases answered with
    | ok value => exact ⟨kept, after⟩
    | error error => exact ⟨kept, after⟩
  | served | failed | listed | posted | lost | refused => cases acted

section Replied

variable (call : Replies item bot leaseKeyOf key params mutate recover)
include call

theorem recoverAfterMutatingWithoutResult_settles (surface : Surface bot fact) :
    Handled (askContract item bot leaseKeyOf) (publishHandler key mutate recover) (Known item key fact AnyRow)
      (recoverAfterMutatingWithoutResult params ⟨item.id, key⟩ intent) (fun _ _ => True) (fun _ _ => True) := by
  refine Handled.bind (m := fun _ => Known item key fact AnyRow) ?_ fun lookup => ?_
  · exact Handled.attempt (handled_store rfl (store_findCompleted surface _ _))
  · cases lookup with
    | error error => exact Handled.throw fun _ _ => trivial
    | ok publishRecordId =>
      refine Handled.bind (m := fun _ => Known item key fact AnyRow) ?_ fun attempt => ?_
      · exact Handled.attempt (recoverByExactEvidence_keeps call surface)
      · match attempt with
        | .ok (some value) => exact Handled.pure fun _ _ => trivial
        | .ok none => exact settleUnknownOutcome_settles call surface
        | .error error =>
          refine Handled.ite (fun _ => Handled.throw fun _ _ => trivial) fun _ => ?_
          refine Handled.ite (fun _ => Handled.throw fun _ _ => trivial) fun _ => ?_
          exact settleUnknownOutcome_settles call surface

theorem saveResult_saves {result : Unknown CommentId}
    (surface : Surface bot fact) (usable : ∃ commentId, result = .value commentId) :
    Handled (askContract item bot leaseKeyOf) (publishHandler key mutate recover) (Known item key fact AnyRow)
      (saveResult params result) (fun _ _ => True) (fun _ _ => True) := by
  obtain ⟨commentId, rfl⟩ := usable
  have harmless : ∀ fields, IntentDetail.Harmless { fields, result := some (Unknown.value commentId).stash } :=
    fun fields => ⟨fun same => (nomatch Option.some.inj same), rfl⟩
  refine Handled.ofExcept_bind (fun _ _ _ _ => trivial) fun decoded _ => ?_
  refine Handled.bind (m := fun _ => Known item key fact AnyRow) (ask_ready_keeps call.toForItem) fun _ => ?_
  refine Handled.ofExcept_bind (fun _ _ _ _ => trivial) fun fields _ => ?_
  refine Handled.bind (m := fun _ => Known item key fact AnyRow) ?_ fun _ => ?_
  · exact (mergeOperationIntentDetail_merges call.toForItem (harmless fields) (.inr rfl) surface).weaken
      (fun _ _ known => ⟨known.1, trivial⟩) fun _ _ _ => trivial
  · refine Handled.bind (m := fun _ _ => True) ?_ fun _ => Handled.pure fun _ _ => trivial
    rw [call.slotKey]
    exact (reconcileAskIntent_settles call.toForItem (harmless fields) (fun _ => rfl) surface
      fun ne => absurd rfl ne.1).weaken (fun _ _ _ => trivial) fun _ _ _ => trivial

theorem recoverFailedSend_keeps {knownNoAcceptance : Bool} {error : Thrown} (surface : Surface bot fact) :
    Handled (askContract item bot leaseKeyOf) (publishHandler key mutate recover) (Known item key fact AnyRow)
      (recoverFailedSend params knownNoAcceptance error)
      (fun _ => Known item key fact AnyRow) (fun _ => Known item key fact AnyRow) := by
  refine Handled.ite (fun _ => ?_) fun _ => Handled.pure fun _ known => known
  refine Handled.bind (m := fun _ => Known item key fact AnyRow) ?_ fun intent => ?_
  · exact Handled.weaken (persistOperationIntent_reserves_row call.toForItem surface)
      (fun _ _ known => ⟨known.1, trivial⟩) fun _ _ known => known
  · rw [call.slotKey]
    exact recoverByExactEvidence_keeps call surface

-- A send that is recorded as failed left nothing posted.
theorem handleFailure_settles {sendStarted : Bool} {error : Thrown} :
    Handled (askContract item bot leaseKeyOf) (publishHandler key mutate recover)
      (Known item key (fun s => MayPost item bot key s ∧ ProvesUnposted bot key error s) AnyRow)
      (handleFailure params sendStarted false error) (fun _ _ => True) (fun _ _ => True) := by
  have surface := (@mayPost_surface item bot key).and (provesUnposted_surface key error)
  simp only [handleFailure, call.unleased, call.refusal, ite_self, Option.getD_some, Bool.false_eq_true, if_false]
  refine Handled.bind (m := fun _ => Known item key (fun s => MayPost item bot key s ∧ ProvesUnposted bot key error s) AnyRow)
    ?_ fun recovered => ?_
  · exact Handled.weaken (recoverFailedSend_keeps call surface) (fun _ _ known => known)
      fun _ _ _ => trivial
  · cases recovered with
    | some value => exact Handled.pure fun _ _ => trivial
    | none =>
      refine Handled.ofExcept_bind (fun _ _ _ _ => trivial) fun fields _ => ?_
      refine Handled.bind (m := fun _ _ => True) ?_ fun _ => Handled.throw fun _ _ => trivial
      rw [call.slotKey]
      refine Handled.weaken (reconcileAskIntent_settles call.toForItem ⟨nofun, rfl⟩ ?_ surface ?_) (fun _ _ _ => trivial)
        fun _ _ _ => trivial
      · intro settled
        split at settled <;> cases settled
      · intro unsettled s known
        by_cases refused : isKnownNoAcceptanceMutationError error = true
        · exact known.2 refused
        · rw [if_neg refused] at unsettled
          exact absurd rfl unsettled.2

theorem handleFailure_rethrows {before : AskState → Prop} {sendStarted : Bool} {error : Thrown} :
    Handled (askContract item bot leaseKeyOf) (publishHandler key mutate recover) before
      (handleFailure params sendStarted true error) (fun _ _ => True) (fun _ _ => True) := by
  simp only [handleFailure, call.unleased, ite_self, if_true]
  exact Handled.throw fun _ _ => trivial

end Replied

theorem armSend_keeps {before : AskState → Prop} {exceptional : Thrown → AskState → Prop} (own : ForItem item key params) :
    Handled (askContract item bot leaseKeyOf) (publishHandler key mutate recover) before (armSend params)
      (fun _ => before) exceptional := by
  refine Handled.bind (ask_ready_keeps own) fun _ => ?_
  rw [own.unleased]
  exact Handled.pure fun _ holds => holds

-- The row an attempt may claim: its reservation came back pending or failed, without a result and not in flight.
theorem claimAndSend_sends (call : Replies item bot leaseKeyOf key params mutate recover) :
    Handled (askContract item bot leaseKeyOf) (publishHandler key mutate recover)
      (Known item key (fun s => MayPost item bot key s ∧ Unposted bot key s) fun r => r = some intent)
      (claimAndSend params) (fun _ _ => True) (fun _ _ => True) := by
  have surface := (@mayPost_surface item bot key).and (unposted_surface key)
  have claimed : Handled (askContract item bot leaseKeyOf) (publishHandler key mutate recover)
      (Known item key (fun s => MayPost item bot key s ∧ Unposted bot key s) fun r => r = some intent)
      (mergeOperationIntentDetail params (claimPatch params))
      (fun _ => Known item key (fun s => MayPost item bot key s ∧ Unposted bot key s) fun r =>
        ∃ row, r = some row ∧ row.Guarded) (fun _ _ => True) := by
    have harmless : (claimPatch params).Harmless := ⟨nofun, call.unleased⟩
    refine Handled.weaken (mergeOperationIntentDetail_merges call.toForItem harmless (.inl rfl) surface) ?_ fun _ _ _ => trivial
    intro _ s known
    obtain ⟨may, r₀, rfl, sound, merged⟩ := known
    exact ⟨may, _, merged, mergeRow_guarded harmless (sound intent rfl) (.inl rfl)⟩
  refine Handled.bind claimed fun _ => ?_
  refine Handled.bind (m := fun _ => Known item key (fun s => MayPost item bot key s ∧ Unposted bot key s) fun r =>
    ∃ row, r = some row ∧ row.Guarded) ?_ fun armed => ?_
  · exact Handled.attempt (armSend_keeps call.toForItem)
  · cases armed with
    | error error =>
      refine Handled.strengthen (handleFailure_settles call) fun s known => ?_
      exact ⟨⟨known.1.1, fun _ => known.1.2⟩, trivial⟩
    | ok _ =>
      refine Handled.bind (m := fun (sent : Except Thrown (Unknown CommentId)) s => match sent with
        | .ok result => (∃ commentId, result = .value commentId) ∧ Known item key (MayPost item bot key) AnyRow s
        | .error error => Known item key (fun s => MayPost item bot key s ∧ ProvesUnposted bot key error s) AnyRow s)
        ?_ fun sent => ?_
      · exact Handled.attempt (Handled.perform (Triple.attempt call.send))
      · cases sent with
        | error error => exact handleFailure_settles call
        | ok result =>
          refine Handled.bind (m := fun _ _ => True) (Handled.attempt ?_) fun saved => ?_
          · exact fun s after => saveResult_saves call (mayPost_surface key) after.1 s after.2
          · cases saved with
            | error error => exact handleFailure_rethrows call
            | ok value => exact Handled.pure fun _ _ => trivial

-- The in-flight lookup finds the row of the call itself or nothing; nothing means the row may be claimed.
theorem findInFlight_finds (retryable : intent.Retryable) :
    Triple (askContract item bot leaseKeyOf) (Known item key (MayPost item bot key) fun r => r = some intent)
      (await (.store key .findInFlight))
      (fun (answer : Option (IntentKey × OperationIntent CommentId)) s =>
        match answer with
        | some (target, _) => target = ⟨item.id, key⟩ ∧ Known item key (MayPost item bot key) AnyRow s
        | none => Known item key (fun s => MayPost item bot key s ∧ Unposted bot key s) (fun r => r = some intent) s)
      (fun _ _ => True) := by
  refine store_statement (fun db => (findInFlightStatement leaseKeyOf db ⟨item.id, key⟩, db)) (fun _ _ => rfl)
    (Known.stable (mayPost_surface key) _) ?_
  intro s known inv
  refine ⟨inv, ?_, trivial, trivial⟩
  cases found : findInFlightStatement leaseKeyOf s.db ⟨item.id, key⟩ with
  | some answer =>
    obtain ⟨target, row⟩ := answer
    refine ⟨?_, known.1, trivial⟩
    have flies := (Table.first?_some _ _ found).2
    simp only [inFlightFor, Bool.and_eq_true, Bool.or_eq_true, decide_eq_true_eq] at flies
    rcases flies.2 with own | foreign
    · exact own
    · have live := inv.unleased
      rw [foreign.2] at live
      cases live
  | none =>
    have stored : s.intent item key = some intent := known.2
    refine ⟨⟨known.1, @AskInv.unposted _ _ _ _ key inv ?_⟩, known.2⟩
    intro row at_key guarded
    obtain rfl : intent = row := Option.some.inj (stored.symm.trans at_key)
    have grounded := Table.first?_none _ _ found stored
    have unleased := (inv.rows key intent stored).unleased
    rcases guarded with settled | unknown | ⟨pending, held | ⟨mutating, unstarted⟩⟩
    · rcases retryable.1 with status | status <;> rw [status] at settled <;> cases settled
    · rcases retryable.1 with status | status <;> rw [status] at unknown <;> cases unknown
    · rw [retryable.2] at held
      cases held
    · simp [inFlightFor, pending, mutating, unstarted, retryable.2] at grounded

-- One call of `publishOnce` for a reply that may be posted keeps the replies of the item in order, whatever it ends in.
theorem publishOnceBody_replies (call : Replies item bot leaseKeyOf key params mutate recover) :
    Handled (askContract item bot leaseKeyOf) (publishHandler key mutate recover)
      (Known item key (MayPost item bot key) AnyRow) (publishOnceBody params) (fun _ _ => True) (fun _ _ => True) := by
  have surface := @mayPost_surface item bot key
  refine Handled.bind (ask_ready_keeps call.toForItem) fun _ => ?_
  refine Handled.bind (m := fun intent s => intent.Sound ∧ Known item key (MayPost item bot key) (fun r => r = some intent) s)
    ?_ fun intent => ?_
  · exact Handled.weaken (persistOperationIntent_reserves_row call.toForItem surface)
      (fun _ _ known => ⟨known.2.2.1, known.1, known.2.1⟩) fun _ _ _ => trivial
  refine Handled.bind (ask_ready_keeps call.toForItem) fun _ => ?_
  rw [call.slotKey]
  intro s ⟨sound, known⟩
  have anyRow : Known item key (MayPost item bot key) AnyRow s := ⟨known.1, trivial⟩
  cases result : intent.detail.result with
  | some stashed =>
    have usable : stashed ≠ none := fun none => sound.result (by rw [result, none])
    exact finishWithStashedResult_settles call.toForItem usable surface s anyRow
  | none =>
    have claims (open' : intent.status = .pending ∨ intent.status = .failed)
        (rest : Option (IntentKey × OperationIntent CommentId) → PublishProgram CommentId (Unknown CommentId))
        (some_eq : ∀ target row, rest (some (target, row)) = recoverAfterMutatingWithoutResult params target row)
        (none_eq : rest none = claimAndSend params) :
        Handled (askContract item bot leaseKeyOf) (publishHandler key mutate recover)
          (Known item key (MayPost item bot key) fun r => r = some intent) (ask .findInFlight >>= rest)
          (fun _ _ => True) (fun _ _ => True) := by
      refine Handled.bind (handled_store rfl (findInFlight_finds ⟨open', result⟩)) fun inFlight => ?_
      match inFlight with
      | some (target, row) =>
        intro s ⟨own, known⟩
        rw [some_eq, own]
        exact recoverAfterMutatingWithoutResult_settles call surface s known
      | none =>
        rw [none_eq]
        exact claimAndSend_sends call
    cases status : intent.status with
    | reconciled =>
      have settled := sound.settled status
      rw [result] at settled
      cases settled
    | outcomeUnknown =>
      refine Handled.ite (fun _ => Handled.throw fun _ _ => trivial) (fun _ => ?_) s anyRow
      exact recoverAfterMutatingWithoutResult_settles call surface
    | pending => exact claims (.inl status) _ (fun _ _ => rfl) rfl s known
    | failed => exact claims (.inr status) _ (fun _ _ => rfl) rfl s known

end Calls

section Lookups

variable {item : AskWorkItem} {bot : Login} {leaseKeyOf : WorkItemId → LeaseKey} {before : AskState → Prop}
  {site : AskSite} {key : OperationKey}

theorem Stable.and {first second : AskState → Prop} (one : Stable (askContract item bot leaseKeyOf) first)
    (two : Stable (askContract item bot leaseKeyOf) second) :
    Stable (askContract item bot leaseKeyOf) fun s => first s ∧ second s :=
  fun s t both rely inv => ⟨one s t both.1 rely inv, two s t both.2 rely inv⟩

-- What a failed read proves: behind a failed inline reply, a definitive error only comes when nothing was accepted.
def FailedAt (bot : Login) (site : AskSite) (error : Thrown) (s : AskState) : Prop :=
  ∀ operationKey, site = .inlineFallback operationKey → ProvesUnposted bot operationKey error s

theorem getBotIdentity_reads (stable : Stable (askContract item bot leaseKeyOf) before) :
    Triple (askContract item bot leaseKeyOf) before (await (.getBotIdentity site))
      (fun login s => login = bot ∧ before s) (fun error s => before s ∧ FailedAt bot site error s) := by
  refine await_reads stable ?_
  intro s reply answer t holds inv ok acted
  cases reply with
  | served =>
    obtain ⟨rfl, rfl⟩ := Prod.mk.inj (Option.some.inj acted)
    exact ⟨rfl, rfl, holds⟩
  | refused error =>
    obtain ⟨rfl, rfl⟩ := Prod.mk.inj (Option.some.inj acted)
    refine ⟨rfl, holds, ?_⟩
    rintro operationKey rfl
    exact ok
  | store | failed | listed | posted | lost => cases acted

-- The comment a lookup at the target would find.
def AskComment.FoundAt (target : ReplyTarget) (comment : AskComment) : Prop :=
  comment.kind = target.kind ∧ (target.kind = .inlineReviewThread → comment.inReplyToId = target.inReplyToId)

-- Every posted answer is where answers are placed, and not at this target.
def NotAt (item : AskWorkItem) (bot : Login) (target : ReplyTarget) (s : AskState) : Prop :=
  ∀ comment ∈ s.replies bot item.answerKey, comment.Placed item ∧ ¬comment.FoundAt target

theorem notAt_surface (target : ReplyTarget) : Surface bot (NotAt item bot target) := by
  intro s t notAt _ replies
  rw [NotAt, replies]
  exact notAt

theorem findCommentIdByMarker_none {comments : List AskComment} {marker : OperationKey} {predicate : AskComment → Bool}
    (absent : findCommentIdByMarker comments marker predicate = none) {comment : AskComment}
    (listed : comment ∈ comments) (marked : comment.marker = some marker) : predicate comment = false := by
  rw [findCommentIdByMarker, Option.map_eq_none_iff] at absent
  have passed := List.find?_eq_none.mp absent comment (List.mem_reverse.mpr listed)
  simpa [marked] using passed

theorem findExistingAskReplyComment_looks {target : ReplyTarget} (stable : Stable (askContract item bot leaseKeyOf) before) :
    Triple (askContract item bot leaseKeyOf) before (findExistingAskReplyComment site target bot key)
      (fun found s => before s ∧ (found = none → site = .failureDecision → key = item.answerKey → NotAt item bot target s))
      (fun error s => before s ∧ FailedAt bot site error s) := by
  refine Triple.bind (m := fun (listing : CommentListing) s => before s ∧ (site = .failureDecision →
    ∀ comment ∈ s.replies bot item.answerKey, comment.Placed item ∧ (comment.kind = target.kind →
      comment ∈ listing.comments))) ?_ fun listing => Triple.pure ?_
  · refine await_reads stable ?_
    intro s reply answer t holds inv ok acted
    cases reply with
    | listed dropped =>
      obtain ⟨rfl, rfl⟩ := Prod.mk.inj (Option.some.inj acted)
      refine ⟨rfl, holds, ?_⟩
      rintro rfl comment posted
      refine ⟨inv.placed _ comment posted, fun kind => ?_⟩
      have here := (List.mem_filter.mp posted).1
      have kept : comment.id ∉ dropped.getD [] := by
        cases dropped with
        | none => exact List.not_mem_nil
        | some ids => exact ok comment posted
      exact List.mem_filter.mpr ⟨here, by simp [kind, kept]⟩
    | refused error =>
      obtain ⟨rfl, rfl⟩ := Prod.mk.inj (Option.some.inj acted)
      refine ⟨rfl, holds, ?_⟩
      rintro operationKey rfl
      exact ok
    | store | served | failed | posted | lost => cases acted
  · intro s ⟨holds, sees⟩
    refine ⟨holds, fun absent deciding answer comment posted => ?_⟩
    obtain ⟨placed, listed⟩ := sees deciding comment posted
    refine ⟨placed, fun found => ?_⟩
    subst answer
    have marks := (List.mem_filter.mp posted).2
    simp only [Bool.and_eq_true, decide_eq_true_eq] at marks
    have passed := findCommentIdByMarker_none (Option.map_eq_none_iff.mp absent) (listed found.1) marks.2
    simp only [marks.1, decide_true, Bool.true_and, Bool.or_eq_false_iff, decide_eq_false_iff_not, ne_eq,
      Decidable.not_not] at passed
    exact passed.2 (found.2 passed.1)

-- A reply that is neither in its thread nor in the conversation is not posted.
theorem unposted_of_notAt {s : AskState} (thread : NotAt item bot item.replyTarget s)
    (conversation : item.replyTarget.kind ≠ .prConversation → NotAt item bot .prConversation s) :
    Unposted bot item.answerKey s := by
  refine List.eq_nil_iff_forall_not_mem.mpr fun comment posted => ?_
  obtain ⟨placed, notThread⟩ := thread comment posted
  rcases placed with inConversation | inThread
  · by_cases target : item.replyTarget.kind = .prConversation
    · refine notThread ⟨inConversation.trans target.symm, fun inline => ?_⟩
      rw [target] at inline
      cases inline
    · exact (conversation target comment posted).2 ⟨inConversation, fun inline => nomatch inline⟩
  · exact notThread ⟨inThread.1, fun _ => inThread.2⟩

theorem findAskReplyByKeys_looks (keys : List OperationKey) (stable : Stable (askContract item bot leaseKeyOf) before) :
    Triple (askContract item bot leaseKeyOf) before (findAskReplyByKeys item site bot keys)
      (fun found s => before s ∧ (found = none → site = .failureDecision → item.answerKey ∈ keys →
        Unposted bot item.answerKey s))
      (fun error s => before s ∧ FailedAt bot site error s) := by
  induction keys generalizing before with
  | nil => exact Triple.pure fun s holds => ⟨holds, fun _ _ listed => (List.not_mem_nil listed).elim⟩
  | cons key keys ih =>
    -- what the lookups under this key have shown is kept while the other keys are tried
    have onward : Triple (askContract item bot leaseKeyOf)
        (fun s => before s ∧ (site = .failureDecision → key = item.answerKey → Unposted bot item.answerKey s))
        (findAskReplyByKeys item site bot keys)
        (fun found s => before s ∧ (found = none → site = .failureDecision → item.answerKey ∈ key :: keys →
          Unposted bot item.answerKey s))
        (fun error s => before s ∧ FailedAt bot site error s) := by
      have kept := @Stable.and item bot leaseKeyOf before
        (fun s => site = .failureDecision → key = item.answerKey → Unposted bot item.answerKey s) stable
        (@unposted_surface bot item.answerKey).imp.imp.stable
      refine (ih kept).weaken ?_ fun error s after => ⟨after.1.1, after.2⟩
      intro found s after
      refine ⟨after.1.1, fun absent deciding listed => ?_⟩
      rcases List.mem_cons.mp listed with same | later
      · exact after.1.2 deciding same.symm
      · exact after.2 absent deciding later
    refine Triple.bind (findExistingAskReplyComment_looks stable) fun primary => ?_
    cases primary with
    | some reply => exact Triple.pure fun s after => ⟨after.1, nofun⟩
    | none =>
      refine Triple.ite (fun conversation => ?_) fun thread => ?_
      · refine onward.strengthen fun s after => ⟨after.1, fun deciding answer => ?_⟩
        exact unposted_of_notAt (after.2 rfl deciding answer) fun ne => absurd conversation ne
      · have kept := @Stable.and item bot leaseKeyOf before
          (fun s => site = .failureDecision → key = item.answerKey → NotAt item bot item.replyTarget s) stable
          (@notAt_surface item bot item.replyTarget).imp.imp.stable
        refine Triple.bind ((findExistingAskReplyComment_looks kept).conseq (fun s after => ⟨after.1, after.2 rfl⟩)
          (fun _ _ after => after) fun error s after => ⟨after.1.1, after.2⟩) fun conversation => ?_
        cases conversation with
        | some reply => exact Triple.pure fun s after => ⟨after.1.1, nofun⟩
        | none =>
          refine onward.strengthen fun s after => ⟨after.1.1, fun deciding answer => ?_⟩
          exact unposted_of_notAt (after.1.2 deciding answer) fun _ => after.2 rfl deciding answer

theorem answerKey_listed (item : AskWorkItem) : item.answerKey ∈ askReplyLookupKeys item.answerKey := by
  simp only [askReplyLookupKeys]
  split
  · exact List.mem_singleton_self _
  · split <;> exact List.mem_cons_self

theorem findAskReplyOnAnyTarget_looks (stable : Stable (askContract item bot leaseKeyOf) before) :
    Triple (askContract item bot leaseKeyOf) before (findAskReplyOnAnyTarget item site bot key)
      (fun found s => before s ∧ (found = none → site = .failureDecision → key = item.answerKey →
        Unposted bot item.answerKey s))
      (fun error s => before s ∧ FailedAt bot site error s) := by
  refine (findAskReplyByKeys_looks (askReplyLookupKeys key) stable).weaken ?_ fun _ _ after => after
  rintro found s ⟨holds, sees⟩
  refine ⟨holds, fun absent deciding same => sees absent deciding ?_⟩
  rw [same]
  exact answerKey_listed item

theorem findInlineReplyByKeys_looks (keys : List OperationKey) (stable : Stable (askContract item bot leaseKeyOf) before) :
    Triple (askContract item bot leaseKeyOf) before (findInlineReplyByKeys item site bot keys) (fun _ => before)
      (fun error s => before s ∧ FailedAt bot site error s) := by
  induction keys with
  | nil => exact Triple.pure fun _ holds => holds
  | cons key keys ih =>
    refine Triple.bind (findExistingAskReplyComment_looks stable) fun recovered => ?_
    cases recovered with
    | some reply => exact Triple.pure fun _ after => after.1
    | none => exact ih.strengthen fun _ after => after.1

end Lookups
end PrAgent
