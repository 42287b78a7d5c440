import PrAgent.AskReply
import PrAgent.PublishContract
set_option autoImplicit false

namespace PrAgent

-- A stored result is a comment id, a settled row has one, and no attempt of an ask is armed under an epoch.
structure OperationIntent.Sound (row : OperationIntent CommentId) : Prop where
  result : row.detail.result ≠ some none
  settled : row.status = .reconciled → row.detail.result.isSome
  unleased : row.detail.mutatingEpoch = none

structure IntentDetail.Harmless (patch : IntentDetail CommentId) : Prop where
  result : patch.result ≠ some none
  unleased : patch.mutatingEpoch = none

section Invariant

variable (item : AskWorkItem) (bot : Login) (leaseKeyOf : WorkItemId → LeaseKey)

def AskState.intent (s : AskState) (operationKey : OperationKey) : Option (OperationIntent CommentId) :=
  s.db.intents.get? ⟨item.id, operationKey⟩

-- Where a reply of the work item stands: in the review thread it answers, or in the conversation.
def AskComment.Placed (comment : AskComment) : Prop :=
  comment.kind = .prConversation ∨
    (comment.kind = item.replyTarget.kind ∧ comment.inReplyToId = item.replyTarget.inReplyToId)

structure AskInv (s : AskState) : Prop where
  -- an ask holds no lease
  unleased : s.db.callerLive leaseKeyOf item.id = false
  rows : ∀ key, ∀ row ∈ s.intent item key, row.Sound
  covered : ∀ key, s.replies bot key ≠ [] → ∃ row, s.intent item key = some row ∧ row.Guarded
  single : ∀ key, (s.replies bot key).length ≤ 1
  exclusive : s.replies bot item.answerKey = [] ∨ s.replies bot item.failureKey = []
  failed : s.replies bot item.failureKey ≠ [] → s.failed = true
  placed : ∀ key, ∀ comment ∈ s.replies bot key, comment.Placed item

-- What the code needs of the environment. A truncated listing read for the decision on the failure notice leaves
-- out no posted answer; and once an inline reply was accepted after all, no lookup behind its error fails in a
-- way that proves the reply was refused.
def AskStepOk (s : AskState) (op : AskOp) (reply : AskReply) : Prop :=
  match op, reply with
  | .listComments .failureDecision _, .listed (some dropped) =>
    ∀ comment ∈ s.replies bot item.answerKey, comment.id ∉ dropped
  | .listComments (.inlineFallback operationKey) _, .refused error
  | .getBotIdentity (.inlineFallback operationKey), .refused error =>
    isKnownNoAcceptanceMutationError error = true → s.replies bot operationKey = []
  | _, _ => True

-- What happens around a running task: the work item may be marked failed, and others may comment.
structure AskRely (s t : AskState) : Prop where
  db : t.db = s.db
  failed : s.failed = true → t.failed = true
  replies : ∀ key, t.replies bot key = s.replies bot key

def askContract : Contract askInterface AskState where
  act := fun op s answer t => ∃ reply, AskStepOk item bot s op reply ∧ askAct item bot leaseKeyOf op reply s = some (answer, t)
  inv := AskInv item bot leaseKeyOf
  rely := AskRely bot
  guarantee := fun _ t => AskInv item bot leaseKeyOf t
  rely_refl := fun _ => ⟨rfl, id, fun _ => rfl⟩
  rely_trans := fun first second =>
    ⟨second.db.trans first.db, second.failed ∘ first.failed, fun key => (second.replies key).trans (first.replies key)⟩

-- A fact about the posted replies and the failure mark only.
def Surface (fact : AskState → Prop) : Prop :=
  ∀ s t, fact s → (s.failed = true → t.failed = true) → (∀ key, t.replies bot key = s.replies bot key) → fact t

-- Such a fact together with what is known of the row under one key.
def Known (operationKey : OperationKey) (fact : AskState → Prop) (row : Option (OperationIntent CommentId) → Prop)
    (s : AskState) : Prop :=
  fact s ∧ row (s.intent item operationKey)

-- The call may post under its key: no other kind of reply is there, and a failure notice needs the failure.
structure MayPost (operationKey : OperationKey) (s : AskState) : Prop where
  key : operationKey = item.answerKey ∨ operationKey = item.failureKey
  answer : operationKey = item.answerKey → s.replies bot item.failureKey = []
  notice : operationKey = item.failureKey → s.replies bot item.answerKey = [] ∧ s.failed = true

def Unposted (operationKey : OperationKey) (s : AskState) : Prop := s.replies bot operationKey = []

-- Nothing under the key is posted, provided the error was one that proves so.
def ProvesUnposted (operationKey : OperationKey) (error : Thrown) (s : AskState) : Prop :=
  isKnownNoAcceptanceMutationError error = true → Unposted bot operationKey s

end Invariant

section Facts

variable {item : AskWorkItem} {bot : Login} {leaseKeyOf : WorkItemId → LeaseKey} {s t : AskState}
  {fact fact' : AskState → Prop} {key : OperationKey}

theorem keys_differ (item : AskWorkItem) : item.answerKey ≠ item.failureKey := by
  change (2 * item.commentId + 2 : Nat) ≠ 2 * item.commentId + 1
  omega

theorem mayPost_surface (key : OperationKey) : Surface bot (MayPost item bot key) := by
  intro s t may failed replies
  refine ⟨may.key, fun same => ?_, fun same => ⟨?_, failed (may.notice same).2⟩⟩
  · rw [replies]
    exact may.answer same
  · rw [replies]
    exact (may.notice same).1

theorem unposted_surface (key : OperationKey) : Surface bot (Unposted bot key) := by
  intro s t clear _ replies
  rw [Unposted, replies]
  exact clear

theorem Surface.and (first : Surface bot fact) (second : Surface bot fact') :
    Surface bot (fun s => fact s ∧ fact' s) :=
  fun s t both failed replies => ⟨first s t both.1 failed replies, second s t both.2 failed replies⟩

theorem Surface.imp {condition : Prop} (surface : Surface bot fact) : Surface bot (fun s => condition → fact s) :=
  fun s t holds failed replies needed => surface s t (holds needed) failed replies

theorem provesUnposted_surface (key : OperationKey) (error : Thrown) : Surface bot (ProvesUnposted bot key error) :=
  (unposted_surface key).imp

theorem Known.stable (surface : Surface bot fact) (row : Option (OperationIntent CommentId) → Prop) :
    Stable (askContract item bot leaseKeyOf) (Known item key fact row) := by
  intro s t known rely _
  refine ⟨surface s t known.1 rely.failed rely.replies, ?_⟩
  rw [AskState.intent, rely.db]
  exact known.2

theorem Surface.stable (surface : Surface bot fact) : Stable (askContract item bot leaseKeyOf) fact :=
  fun s t holds rely _ => surface s t holds rely.failed rely.replies

-- A step that writes at most one row of the work item and leaves comments and failure mark alone.
theorem AskInv.write {key : OperationKey} (inv : AskInv item bot leaseKeyOf s)
    (leases : t.db.toLeaseState = s.db.toLeaseState) (failed : t.failed = s.failed) (comments : t.comments = s.comments)
    (others : ∀ other, other ≠ key → t.intent item other = s.intent item other)
    (sound : ∀ row ∈ t.intent item key, row.Sound)
    (guarded : s.replies bot key ≠ [] → ∃ row, t.intent item key = some row ∧ row.Guarded) :
    AskInv item bot leaseKeyOf t := by
  have replies : ∀ key, t.replies bot key = s.replies bot key := fun _ => by rw [AskState.replies, comments]; rfl
  refine ⟨?_, ?_, ?_, ?_, ?_, ?_, ?_⟩
  · have live := inv.unleased
    simp only [PublishState.callerLive] at live ⊢
    rw [leases]
    exact live
  · intro other row stored
    by_cases same : other = key
    · subst same
      exact sound row stored
    · rw [others other same] at stored
      exact inv.rows other row stored
  · intro other posted
    rw [replies] at posted
    by_cases same : other = key
    · subst same
      exact guarded posted
    · rw [others other same]
      exact inv.covered other posted
  · intro other
    rw [replies]
    exact inv.single other
  · rw [replies, replies]
    exact inv.exclusive
  · rw [replies, failed]
    exact inv.failed
  · intro other
    rw [replies]
    exact inv.placed other

theorem AskInv.unposted (inv : AskInv item bot leaseKeyOf s)
    (free : ∀ row, s.intent item key = some row → ¬row.Guarded) : Unposted bot key s := by
  by_contra posted
  obtain ⟨row, stored, guarded⟩ := inv.covered key posted
  exact free row stored guarded

end Facts

section Rows

variable (patch : IntentDetail CommentId)

-- The row each statement of an unleased caller leaves.
def persistRow : Option (OperationIntent CommentId) → OperationIntent CommentId
  | none => ⟨.pending, none, none, patch⟩
  | some old => old

def mergeRow (old : OperationIntent CommentId) : OperationIntent CommentId :=
  if old.status = .pending ∨ old.status = .failed then
    { old with status := .pending, detail := old.detail.merge patch }
  else old

def reconcileRow (status : OperationIntentStatus) (publishRecordId : Option Nat) (old : OperationIntent CommentId) :
    OperationIntent CommentId :=
  if old.status.mayBecome status then
    { status, publishRecordId := publishRecordId.or old.publishRecordId, leaseEpoch := old.leaseEpoch
      detail := old.detail.merge patch }
  else old

variable {patch} {old : OperationIntent CommentId}

theorem guarded_of_unleased (unleased : old.detail.mutatingEpoch = none) (pending : old.status = .pending)
    (held : old.detail.result.isSome ∨ old.detail.mutating = some true) : old.Guarded := by
  refine .inr (.inr ⟨pending, held.imp id fun mutating => ⟨mutating, ?_⟩⟩)
  simp [OperationIntent.unstarted, unleased]

theorem merge_sound (harmless : patch.Harmless) (sound : old.Sound) :
    (old.detail.merge patch).result ≠ some none ∧ (old.detail.merge patch).mutatingEpoch = none ∧
      (old.detail.result.isSome → (old.detail.merge patch).result.isSome) := by
  simp only [IntentDetail.merge, harmless.unleased, sound.unleased]
  cases result : patch.result with
  | none => exact ⟨sound.result, rfl, id⟩
  | some stash =>
    refine ⟨?_, rfl, fun _ => rfl⟩
    have stored := harmless.result
    rw [result] at stored
    exact stored

theorem mergeRow_sound (harmless : patch.Harmless) (sound : old.Sound) : (mergeRow patch old).Sound := by
  unfold mergeRow
  split
  · obtain ⟨result, unleased, _⟩ := merge_sound harmless sound
    exact ⟨result, fun settled => (nomatch settled), unleased⟩
  · exact sound

theorem mergeRow_guarded (harmless : patch.Harmless) (sound : old.Sound)
    (held : patch.mutating = some true ∨ patch.result.isSome) : (mergeRow patch old).Guarded := by
  unfold mergeRow
  split
  · refine guarded_of_unleased (merge_sound harmless sound).2.1 rfl ?_
    cases held with
    | inl mutating => exact .inr (by simp [IntentDetail.merge, mutating])
    | inr result =>
      obtain ⟨stash, stored⟩ := Option.isSome_iff_exists.mp result
      exact .inl (by simp [IntentDetail.merge, stored])
  · next other =>
    cases status : old.status with
    | pending => exact absurd (.inl status) other
    | failed => exact absurd (.inr status) other
    | reconciled => exact .inl status
    | outcomeUnknown => exact .inr (.inl status)

theorem reconcileRow_sound {status : OperationIntentStatus} {publishRecordId : Option Nat} (harmless : patch.Harmless)
    (settles : status = .reconciled → patch.result.isSome) (sound : old.Sound) :
    (reconcileRow patch status publishRecordId old).Sound := by
  unfold reconcileRow
  split
  · obtain ⟨result, unleased, _⟩ := merge_sound harmless sound
    refine ⟨result, fun settled => ?_, unleased⟩
    obtain ⟨stash, stored⟩ := Option.isSome_iff_exists.mp (settles settled)
    simp [IntentDetail.merge, stored]
  · exact sound

theorem reconcileRow_guarded {status : OperationIntentStatus} {publishRecordId : Option Nat}
    (settles : status = .reconciled ∨ status = .outcomeUnknown) (guarded : old.Guarded) :
    (reconcileRow patch status publishRecordId old).Guarded := by
  unfold reconcileRow
  split
  · exact settles.elim .inl fun unknown => .inr (.inl unknown)
  · exact guarded

end Rows

section Statements

variable {item : AskWorkItem} {bot : Login} {leaseKeyOf : WorkItemId → LeaseKey} {fact : AskState → Prop}
  {key : OperationKey} {row : Option (OperationIntent CommentId) → Prop}

theorem unleased_fenced (db : PublishState CommentId) (workItemId : WorkItemId) : db.fenced workItemId none = true := rfl

theorem persist_intent (s : AskState) (patch : IntentDetail CommentId) :
    persistStatement s.db ⟨item.id, none, key⟩ patch =
      (some (persistRow patch (s.intent item key)), s.db.write ⟨item.id, key⟩ (persistRow patch (s.intent item key))) := by
  rw [persistStatement, if_pos (unleased_fenced s.db item.id), AskState.intent]
  change (some _, s.db.write _ _) = _
  cases stored : s.db.intents.get? ⟨item.id, key⟩ with
  | none => simp only [PublishSlot.key, stored, persistRow]
  | some old => simp only [PublishSlot.key, stored, persistRow, Option.none_or]

-- What a write under the key makes of the table.
theorem intent_write (s : AskState) (row : OperationIntent CommentId) (db : PublishState CommentId)
    (written : db.intents = s.db.intents.set ⟨item.id, key⟩ row) (other : OperationKey) :
    ({ s with db } : AskState).intent item other = if other = key then some row else s.intent item other := by
  rw [AskState.intent, AskState.intent]
  change db.intents.get? _ = _
  rw [written, Table.get?_set]
  simp [IntentKey.mk.injEq]

-- An update that leaves the row under the key as it is.
theorem intent_kept (s : AskState) {update : OperationIntent CommentId → OperationIntent CommentId}
    (same : (s.intent item key).map update = s.intent item key) (other : OperationKey) :
    s.intent item other = if other = key then (s.intent item key).map update else s.intent item other := by
  rw [same]
  split
  · next here => rw [here]
  · rfl

theorem merge_intent (s : AskState) (patch : IntentDetail CommentId) :
    (mergeStatement s.db ⟨item.id, none, key⟩ patch).2.toLeaseState = s.db.toLeaseState ∧
      ∀ other, ({ s with db := (mergeStatement s.db ⟨item.id, none, key⟩ patch).2 } : AskState).intent item other =
        if other = key then (s.intent item key).map (mergeRow patch) else s.intent item other := by
  cases stored : s.db.intents.get? ⟨item.id, key⟩ with
  | none =>
    have same : mergeStatement s.db ⟨item.id, none, key⟩ patch = (none, s.db) := by
      simp only [mergeStatement, PublishSlot.key, stored]
    have absent : s.intent item key = none := stored
    rw [same]
    exact ⟨rfl, intent_kept s (by rw [absent, Option.map_none])⟩
  | some old =>
    have present : s.intent item key = some old := stored
    by_cases open' : old.status = .pending ∨ old.status = .failed
    · have same : mergeStatement s.db ⟨item.id, none, key⟩ patch =
          (some (mergeRow patch old), s.db.write ⟨item.id, key⟩ (mergeRow patch old)) := by
        simp only [mergeStatement, PublishSlot.key, stored, unleased_fenced, and_true, if_pos open', mergeRow,
          Option.none_or]
      rw [same, present, Option.map_some]
      exact ⟨rfl, intent_write s _ _ rfl⟩
    · have same : mergeStatement s.db ⟨item.id, none, key⟩ patch = (none, s.db) := by
        simp only [mergeStatement, PublishSlot.key, stored, unleased_fenced, and_true, if_neg open']
      rw [same]
      exact ⟨rfl, intent_kept s (by rw [present, Option.map_some, mergeRow, if_neg open'])⟩

theorem reconcile_intent (s : AskState) (patch : IntentDetail CommentId) (status : OperationIntentStatus)
    (publishRecordId : Option Nat) :
    (reconcileStatement s.db ⟨item.id, key⟩ item.id none status publishRecordId patch).2.toLeaseState =
        s.db.toLeaseState ∧
      ∀ other, ({ s with db := (reconcileStatement s.db ⟨item.id, key⟩ item.id none status publishRecordId patch).2 } :
          AskState).intent item other =
        if other = key then (s.intent item key).map (reconcileRow patch status publishRecordId)
        else s.intent item other := by
  cases stored : s.db.intents.get? ⟨item.id, key⟩ with
  | none =>
    have same : reconcileStatement s.db ⟨item.id, key⟩ item.id none status publishRecordId patch = (none, s.db) := by
      simp only [reconcileStatement, stored]
    have absent : s.intent item key = none := stored
    rw [same]
    exact ⟨rfl, intent_kept s (by rw [absent, Option.map_none])⟩
  | some old =>
    have present : s.intent item key = some old := stored
    by_cases may : old.status.mayBecome status = true
    · have written : (reconcileStatement s.db ⟨item.id, key⟩ item.id none status publishRecordId patch).2.intents =
          s.db.intents.set ⟨item.id, key⟩ (reconcileRow patch status publishRecordId old) := by
        simp only [reconcileStatement, stored, unleased_fenced, may, and_self, if_true, reconcileRow, Option.none_or,
          PublishState.write]
      rw [present, Option.map_some]
      refine ⟨?_, intent_write s _ _ written⟩
      simp only [reconcileStatement, stored, unleased_fenced, may, and_self, if_true, PublishState.write]
    · have same : reconcileStatement s.db ⟨item.id, key⟩ item.id none status publishRecordId patch = (none, s.db) := by
        simp only [reconcileStatement, stored, may, false_and, if_false, Bool.false_eq_true]
      rw [same]
      exact ⟨rfl, intent_kept s (by rw [present, Option.map_some, reconcileRow, if_neg may])⟩

end Statements
end PrAgent
