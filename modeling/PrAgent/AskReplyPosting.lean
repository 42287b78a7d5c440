import PrAgent.AskReplyCalls
set_option autoImplicit false

namespace PrAgent

section Posting

variable {item : AskWorkItem} {bot : Login} {leaseKeyOf : WorkItemId → LeaseKey} {key : OperationKey}

def GuardedRow (r : Option (OperationIntent CommentId)) : Prop := ∃ row, r = some row ∧ row.Guarded

theorem post_replies (s : AskState) (target : ReplyTarget) (commentId : CommentId) (other : OperationKey) :
    (s.post bot target key commentId).replies bot other =
      s.replies bot other ++ if key = other then
        [{ id := commentId, kind := target.kind, authorLogin := bot, inReplyToId := target.inReplyToId
           marker := some key }] else [] := by
  simp only [AskState.post, AskState.replies, List.filter_append]
  by_cases same : key = other
  · simp [same]
  · simp [same]

theorem AskInv.posted {s : AskState} {target : ReplyTarget} {commentId : CommentId}
    (inv : AskInv item bot leaseKeyOf s) (may : MayPost item bot key s) (clear : Unposted bot key s)
    (guarded : GuardedRow (s.intent item key)) (place : target = item.replyTarget ∨ target = .prConversation) :
    AskInv item bot leaseKeyOf (s.post bot target key commentId) := by
  have replies := @post_replies bot key s target commentId
  have elsewhere : ∀ other, key ≠ other → (s.post bot target key commentId).replies bot other = s.replies bot other := by
    intro other ne
    rw [replies, if_neg ne, List.append_nil]
  have here := replies key
  rw [if_pos rfl, clear, List.nil_append] at here
  refine ⟨inv.unleased, inv.rows, ?_, ?_, ?_, ?_, ?_⟩
  · intro other posted
    by_cases same : key = other
    · subst same
      exact guarded
    · rw [elsewhere other same] at posted
      exact inv.covered other posted
  · intro other
    by_cases same : key = other
    · subst same
      rw [here]
      exact Nat.le_refl 1
    · rw [elsewhere other same]
      exact inv.single other
  · rcases may.key with answer | failure
    · right
      rw [elsewhere _ (answer ▸ keys_differ item)]
      exact may.answer answer
    · left
      rw [elsewhere _ (failure ▸ (keys_differ item).symm)]
      exact (may.notice failure).1
  · intro posted
    rcases may.key with answer | failure
    · rw [elsewhere _ (answer ▸ keys_differ item)] at posted
      exact inv.failed posted
    · exact (may.notice failure).2
  · intro other comment posted
    by_cases same : key = other
    · subst same
      rw [here, List.mem_singleton] at posted
      subst posted
      rcases place with rfl | rfl
      · exact .inr ⟨rfl, rfl⟩
      · exact .inl rfl
    · rw [elsewhere other same] at posted
      exact inv.placed other comment posted

theorem MayPost.posted {s : AskState} {target : ReplyTarget} {commentId : CommentId} (may : MayPost item bot key s) :
    MayPost item bot key (s.post bot target key commentId) := by
  have elsewhere : ∀ other, key ≠ other → (s.post bot target key commentId).replies bot other = s.replies bot other := by
    intro other ne
    rw [post_replies, if_neg ne, List.append_nil]
  refine ⟨may.key, fun answer => ?_, fun failure => ⟨?_, (may.notice failure).2⟩⟩
  · rw [elsewhere _ (answer ▸ keys_differ item)]
    exact may.answer answer
  · rw [elsewhere _ (failure ▸ (keys_differ item).symm)]
    exact (may.notice failure).1

theorem replyAt_posts {target : ReplyTarget} (place : target = item.replyTarget ∨ target = .prConversation) :
    Triple (askContract item bot leaseKeyOf)
      (Known item key (fun s => MayPost item bot key s ∧ Unposted bot key s) GuardedRow)
      (await (.replyAt target key)) (fun _ => Known item key (MayPost item bot key) AnyRow)
      (fun error => Known item key (fun s => MayPost item bot key s ∧ ProvesUnposted bot key error s) GuardedRow) := by
  refine Triple.perform (Known.stable ((mayPost_surface key).and (unposted_surface key)) GuardedRow) ?_
  rintro s answer t ⟨⟨may, clear⟩, guarded⟩ inv ⟨reply, _, acted⟩
  cases reply with
  | posted commentId =>
    simp only [askAct] at acted
    split at acted
    · obtain ⟨rfl, rfl⟩ := Prod.mk.inj (Option.some.inj acted)
      exact ⟨inv.posted may clear guarded place, may.posted, trivial⟩
    · cases acted
  | lost commentId error =>
    simp only [askAct] at acted
    split at acted
    · next accepted =>
      obtain ⟨rfl, rfl⟩ := Prod.mk.inj (Option.some.inj acted)
      refine ⟨inv.posted may clear guarded place, ⟨may.posted, fun refused => ?_⟩, guarded⟩
      simp [refused] at accepted
    · cases acted
  | refused error =>
    obtain ⟨rfl, rfl⟩ := Prod.mk.inj (Option.some.inj acted)
    exact ⟨inv, ⟨may, fun _ => clear⟩, guarded⟩
  | store | served | failed | listed => cases acted

theorem recoverInlineReply_posts {error : Thrown} :
    Triple (askContract item bot leaseKeyOf)
      (Known item key (fun s => MayPost item bot key s ∧ ProvesUnposted bot key error s) GuardedRow)
      (recoverInlineReply item key error) (fun _ => Known item key (MayPost item bot key) AnyRow)
      (fun error => Known item key (fun s => MayPost item bot key s ∧ ProvesUnposted bot key error s) AnyRow) := by
  have stable := @Known.stable item bot leaseKeyOf _ key
    ((@mayPost_surface item bot key).and (provesUnposted_surface key error)) GuardedRow
  have failed : ∀ (raised : Thrown) s,
      Known item key (fun s => MayPost item bot key s ∧ ProvesUnposted bot key error s) GuardedRow s ∧
        FailedAt bot (.inlineFallback key) raised s →
      Known item key (fun s => MayPost item bot key s ∧ ProvesUnposted bot key raised s) AnyRow s :=
    fun _ _ after => ⟨⟨after.1.1.1, after.2 key rfl⟩, trivial⟩
  refine Triple.ite (fun _ => Triple.throw fun s known => ⟨known.1, trivial⟩) fun _ => ?_
  refine Triple.bind ((getBotIdentity_reads stable).weakenError failed)
    fun login => ?_
  refine Triple.pull ?_
  rintro rfl
  refine Triple.bind ((findInlineReplyByKeys_looks _ stable).weakenError failed)
    fun recovered => ?_
  cases recovered with
  | some reply => exact Triple.pure fun s known => ⟨known.1.1, trivial⟩
  | none =>
    refine Triple.ite (fun _ => Triple.throw fun s known => ⟨known.1, trivial⟩) fun refused => ?_
    refine Triple.bind (m := fun _ => Known item key (MayPost item login key) AnyRow) ?_ fun fallback =>
      Triple.pure fun _ known => known
    have refused : isKnownNoAcceptanceMutationError error = true := by simpa using refused
    exact (replyAt_posts (.inr rfl)).conseq (fun s known => ⟨⟨known.1.1, known.1.2 refused⟩, known.2⟩)
      (fun _ _ known => known) fun _ _ known => ⟨known.1, trivial⟩

-- What is known once the reply was attempted.
def Attempted (item : AskWorkItem) (bot : Login) (key : OperationKey) : Except Thrown CommentId → AskState → Prop
  | .ok _ => Known item key (MayPost item bot key) AnyRow
  | .error error => Known item key (fun s => MayPost item bot key s ∧ ProvesUnposted bot key error s) GuardedRow

theorem publishAskAnswer_posts :
    Triple (askContract item bot leaseKeyOf)
      (Known item key (fun s => MayPost item bot key s ∧ Unposted bot key s) GuardedRow)
      (publishAskAnswer item key) (fun _ => Known item key (MayPost item bot key) AnyRow)
      (fun error => Known item key (fun s => MayPost item bot key s ∧ ProvesUnposted bot key error s) AnyRow) := by
  refine Triple.bind (m := Attempted item bot key) (Triple.attempt (replyAt_posts (.inl rfl))) fun posted => ?_
  cases posted with
  | ok commentId => exact Triple.pure fun _ known => known
  | error error => exact recoverInlineReply_posts

theorem mutateReply_posts :
    Triple (askContract item bot leaseKeyOf)
      (Known item key (fun s => MayPost item bot key s ∧ Unposted bot key s) GuardedRow)
      (mutateReply item key)
      (fun result s => (∃ commentId, result = .value commentId) ∧ Known item key (MayPost item bot key) AnyRow s)
      (fun error => Known item key (fun s => MayPost item bot key s ∧ ProvesUnposted bot key error s) AnyRow) :=
  Triple.bind publishAskAnswer_posts fun published => Triple.pure fun _ known => ⟨⟨published.commentId, rfl⟩, known⟩

theorem recoverReply_recovers : Recovers item bot leaseKeyOf key (recoverReply item key) := by
  intro fact surface
  have stable := @Known.stable item bot leaseKeyOf _ key surface AnyRow
  refine Triple.bind ((getBotIdentity_reads stable).weakenError fun _ _ after => after.1) fun login => ?_
  refine Triple.pull ?_
  rintro rfl
  refine Triple.bind ((findAskReplyOnAnyTarget_looks stable).weaken (fun _ _ after => after.1)
    fun _ _ after => after.1) fun recovered => ?_
  refine Triple.pure fun s known => ⟨fun found listed => ?_, known⟩
  obtain ⟨reply, _, rfl⟩ := Option.map_eq_some_iff.mp listed
  exact ⟨reply.commentId, rfl⟩

theorem answer_replies : Replies item bot leaseKeyOf item.answerKey (answerParams item)
    (mutateReply item item.answerKey) (recoverReply item item.answerKey) :=
  ⟨⟨rfl, rfl, rfl⟩, rfl, rfl, rfl, recoverReply_recovers, mutateReply_posts⟩

theorem failure_replies : Replies item bot leaseKeyOf item.failureKey (failureParams item)
    (mutateReply item item.failureKey) (recoverReply item item.failureKey) :=
  ⟨⟨rfl, rfl, rfl⟩, rfl, rfl, rfl, recoverReply_recovers, mutateReply_posts⟩

theorem publishOnce_of_handled {params : PublishOnceParams CommentId} {mutate : AskProgram (Unknown CommentId)}
    {recover : AskProgram (Option (Recovery CommentId))} {before : AskState → Prop} (own : params.operationKey = key)
    (body : Handled (askContract item bot leaseKeyOf) (publishHandler key mutate recover) before (publishOnceBody params)
      (fun _ _ => True) (fun _ _ => True)) :
    Triple (askContract item bot leaseKeyOf) before (publishOnce params mutate recover) (fun _ _ => True)
      (fun _ _ => True) := by
  intro s holds
  rw [publishOnce, own]
  have run := Safe.conseq (fun _ _ after => after) (fun (_ : Thrown) _ (never : False) => (never.elim : True)) _ s
    (body s holds)
  refine Safe.bind ?_ _ s run
  intro outcome t _
  cases outcome with
  | ok value => trivial
  | error error => trivial

theorem publishOnce_replies {params : PublishOnceParams CommentId} {mutate : AskProgram (Unknown CommentId)}
    {recover : AskProgram (Option (Recovery CommentId))}
    (call : Replies item bot leaseKeyOf key params mutate recover) :
    Triple (askContract item bot leaseKeyOf) (Known item key (MayPost item bot key) AnyRow)
      (publishOnce params mutate recover) (fun _ _ => True) (fun _ _ => True) :=
  publishOnce_of_handled call.operationKey (publishOnceBody_replies call)

end Posting
end PrAgent
