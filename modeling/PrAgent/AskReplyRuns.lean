import PrAgent.AskReplyPosting
set_option autoImplicit false

namespace PrAgent

section Attempts

variable {item : AskWorkItem} {bot : Login} {leaseKeyOf : WorkItemId → LeaseKey} {fact : AskState → Prop}
  {site : AskSite} {row : Option (OperationIntent CommentId) → Prop}

def Stashed (r : Option (OperationIntent CommentId)) : Prop :=
  ∃ row commentId, r = some row ∧ row.detail.result = some (some commentId)

theorem query_cases {α : Type} {reply : AskReply} {s t : AskState} {effect : α × AskState} {answer : Except Thrown α}
    (served : query reply s effect = some (answer, t)) :
    (answer = .ok effect.1 ∧ t = effect.2) ∨ (answer = .error .database ∧ (t = effect.2 ∨ t = s)) := by
  cases reply with
  | served =>
    obtain ⟨rfl, rfl⟩ := Prod.mk.inj (Option.some.inj served)
    exact .inl ⟨rfl, rfl⟩
  | failed applied =>
    obtain ⟨rfl, rfl⟩ := Prod.mk.inj (Option.some.inj served)
    cases applied with
    | true => exact .inr ⟨rfl, .inl rfl⟩
    | false => exact .inr ⟨rfl, .inr rfl⟩
  | store | listed | posted | lost | refused => cases served

-- What the row read says: itself, and that nothing is posted when it is missing or not guarded.
def IntentRead (item : AskWorkItem) (bot : Login) (intent : Option (OperationIntent CommentId)) (s : AskState) : Prop :=
  (∀ row ∈ intent, row.Sound) ∧ ((∀ row, intent = some row → ¬row.Guarded) → Unposted bot item.answerKey s)

theorem getOperationIntent_reads (surface : Surface bot fact) :
    Triple (askContract item bot leaseKeyOf) (Known item item.answerKey fact row)
      (await (.getOperationIntent item.answerKey))
      (fun intent s => IntentRead item bot intent s ∧ row intent ∧ Known item item.answerKey fact (fun r => r = intent) s)
      (fun _ => Known item item.answerKey fact AnyRow) := by
  refine await_reads (Known.stable surface row) ?_
  intro s reply answer t known inv _ acted
  rcases query_cases acted with ⟨rfl, rfl⟩ | ⟨rfl, rfl | rfl⟩
  · exact ⟨rfl, ⟨inv.rows item.answerKey, fun free => inv.unposted free⟩, known.2, known.1, rfl⟩
  · exact ⟨rfl, known.1, trivial⟩
  · exact ⟨rfl, known.1, trivial⟩

theorem completed_reads {before : AskState → Prop} (stable : Stable (askContract item bot leaseKeyOf) before) :
    Triple (askContract item bot leaseKeyOf) before (await .completed) (fun _ => before) (fun _ => before) := by
  refine await_reads stable ?_
  intro s reply answer t holds _ _ acted
  rcases query_cases acted with ⟨rfl, rfl⟩ | ⟨rfl, rfl | rfl⟩ <;> exact ⟨rfl, holds⟩

theorem runAskRun_reads {before : AskState → Prop} (stable : Stable (askContract item bot leaseKeyOf) before) :
    Triple (askContract item bot leaseKeyOf) before (await .runAskRun) (fun _ => before) (fun _ => before) := by
  refine await_reads stable ?_
  intro s reply answer t holds _ _ acted
  cases reply with
  | served | refused =>
    obtain ⟨rfl, rfl⟩ := Prod.mk.inj (Option.some.inj acted)
    exact ⟨rfl, holds⟩
  | store | failed | listed | posted | lost => cases acted

theorem recordAskReply_records (degraded : AskDegradationReason) :
    Triple (askContract item bot leaseKeyOf) (fun _ => True) (recordAskReply degraded) (fun _ _ => True) (fun _ _ => True) := by
  refine Triple.bind (m := fun _ _ => True) (Triple.attempt ?_) fun recorded => ?_
  · refine Triple.perform (fun _ _ _ _ _ => trivial) ?_
    rintro s answer t _ inv ⟨reply, _, acted⟩
    have kept : AskInv item bot leaseKeyOf { s with recorded := true } :=
      ⟨inv.unleased, inv.rows, inv.covered, inv.single, inv.exclusive, inv.failed, inv.placed⟩
    rcases query_cases acted with ⟨rfl, rfl⟩ | ⟨rfl, rfl | rfl⟩
    · exact ⟨kept, trivial⟩
    · exact ⟨kept, trivial⟩
    · exact ⟨inv, trivial⟩
  · cases recorded with
    | ok _ => exact Triple.pure fun _ _ => trivial
    | error _ => exact Triple.pure fun _ _ => trivial

-- The row is as the lookup read it, so adopting the comment found stores its id.
theorem adopt_stashes {intent : OperationIntent CommentId} {commentId : CommentId} (surface : Surface bot fact)
    (open' : intent.status = .pending ∨ intent.status = .outcomeUnknown) :
    Triple (askContract item bot leaseKeyOf) (Known item item.answerKey fact fun r => r = some intent)
      (adopt item commentId) (fun _ => Known item item.answerKey fact Stashed) (fun _ _ => True) := by
  refine Triple.bind ((getOperationIntent_reads surface).weakenError fun _ _ _ => trivial) fun reread => ?_
  intro s ⟨_, same, known⟩
  subst same
  have usable : (askReplyCommentIdFromIntentDetail (some intent)).isSome → Stashed (some intent) := by
    intro stored
    obtain ⟨id, found⟩ := Option.isSome_iff_exists.mp stored
    exact ⟨intent, id, rfl, Option.join_eq_some_iff.mp found⟩
  have harmless : IntentDetail.Harmless { result := some (some commentId) } :=
    ⟨fun same => (nomatch Option.some.inj same), rfl⟩
  have reconciles (unknown : intent.status = .outcomeUnknown) : Triple (askContract item bot leaseKeyOf)
      (Known item item.answerKey fact fun r => r = some intent)
      (await (.store item.answerKey (.reconcile ⟨item.id, item.answerKey⟩ item.id none .reconciled none
        { result := some (some commentId), recoveredAfterMutating := some true })))
      (fun _ => Known item item.answerKey fact Stashed) (fun _ _ => True) := by
    refine Triple.conseq (store_reconcile ⟨harmless.result, rfl⟩ (fun _ => rfl) surface fun ne => absurd rfl ne.1)
      (fun _ known => known) ?_ fun _ _ _ => trivial
    rintro _ s ⟨holds, r₀, rfl, written⟩
    refine ⟨holds, _, commentId, written, ?_⟩
    simp [reconcileRow, unknown, OperationIntentStatus.mayBecome, IntentDetail.merge]
  have merges (pending : intent.status = .pending) : Triple (askContract item bot leaseKeyOf)
      (Known item item.answerKey fact fun r => r = some intent)
      (await (.store item.answerKey (.merge { result := some (some commentId) })))
      (fun _ => Known item item.answerKey fact Stashed) (fun _ _ => True) := by
    refine (store_merge harmless (.inr rfl) surface).weaken ?_ fun _ _ _ => trivial
    rintro _ s ⟨holds, r₀, rfl, _, written⟩
    refine ⟨holds, _, commentId, written, ?_⟩
    simp [mergeRow, pending, IntentDetail.merge]
  refine Triple.ite (p := Known item item.answerKey fact fun r => r = some intent) (fun stored => ?_) (fun _ => ?_) s known
  · refine Triple.pure fun s known => ⟨known.1, ?_⟩
    rw [known.2]
    exact usable stored
  · refine Triple.ite (fun unknown => ?_) fun other => ?_
    · exact Triple.bind (reconciles unknown) fun _ => Triple.pure fun _ known => known
    · refine Triple.ite (fun pending => ?_) fun neither => ?_
      · exact Triple.bind (merges pending) fun _ => Triple.pure fun _ known => known
      · exact absurd open' (not_or.mpr ⟨neither, other⟩)

-- A recovered reply is stored under the answer's key; when the lookup for the failure decision recovers nothing, no
-- answer is posted.
theorem recoverDelivered_decides (surface : Surface bot fact) :
    Triple (askContract item bot leaseKeyOf) (Known item item.answerKey fact AnyRow)
      (recoverDeliveredAskReplyCommentId item site)
      (fun recovery s => match recovery with
        | some (.recovered _) => Known item item.answerKey fact Stashed s
        | some .outcomeUnknown | none => fact s ∧ (site = .failureDecision → Unposted bot item.answerKey s))
      (fun _ _ => True) := by
  refine Triple.bind ((getOperationIntent_reads surface).weakenError fun _ _ _ => trivial) fun intent => ?_
  cases stash : askReplyCommentIdFromIntentDetail intent with
  | some stashed =>
    refine Triple.pure fun s after => ⟨after.2.2.1, ?_⟩
    obtain ⟨row, read, stored⟩ := Option.bind_eq_some_iff.mp (Option.join_eq_some_iff.mp stash)
    exact ⟨row, stashed, after.2.2.2.trans read, stored⟩
  | none =>
    cases intent with
    | none =>
      have free : ∀ row : OperationIntent CommentId, none = some row → ¬row.Guarded :=
        fun row absent => absurd absent.symm (Option.some_ne_none row)
      exact Triple.pure fun s after => ⟨after.2.2.1, fun _ => after.1.2 free⟩
    | some row =>
      refine Triple.ite (fun settled => Triple.pure fun s after => ⟨after.2.2.1, fun _ => after.1.2 ?_⟩) fun unsettled => ?_
      · intro row' read guarded
        obtain rfl := Option.some.inj read
        rcases guarded with reconciled | unknown | ⟨pending, _⟩
        · have sound := after.1.1 row rfl
          obtain ⟨stored, result⟩ := Option.isSome_iff_exists.mp (sound.settled reconciled)
          cases stored with
          | none => exact sound.result result
          | some commentId => simp [askReplyCommentIdFromIntentDetail, result] at stash
        · exact settled.2 unknown
        · exact settled.1 pending
      have open' : row.status = .pending ∨ row.status = .outcomeUnknown := by
        by_contra neither
        exact unsettled (not_or.mp neither)
      have stable := @Known.stable item bot leaseKeyOf _ item.answerKey surface
        fun r => r = some row
      refine Triple.bind ((getBotIdentity_reads stable).conseq (fun _ after => after.2.2) (fun _ _ after => after)
        fun _ _ _ => trivial) fun login => ?_
      refine Triple.pull ?_
      rintro rfl
      refine Triple.bind ((findAskReplyOnAnyTarget_looks stable).weakenError fun _ _ _ => trivial) fun recovered => ?_
      cases recovered with
      | none =>
        have decided : ∀ s, (Known item item.answerKey fact (fun r => r = some row) s ∧
            ((none : Option RecoveredAskReply) = none → site = .failureDecision → item.answerKey = item.answerKey →
              Unposted login item.answerKey s)) →
            fact s ∧ (site = .failureDecision → Unposted login item.answerKey s) :=
          fun s after => ⟨after.1.1, fun deciding => after.2 rfl deciding rfl⟩
        exact Triple.ite (fun _ => Triple.pure decided) fun _ => Triple.pure decided
      | some reply =>
        refine Triple.bind ((adopt_stashes surface open').strengthen fun _ after => after.1) fun _ => ?_
        exact Triple.pure fun _ known => known

theorem finalizeAskReplyPublish_settles {commentId : CommentId} (surface : Surface bot fact) :
    Triple (askContract item bot leaseKeyOf) (Known item item.answerKey fact Stashed)
      (finalizeAskReplyPublish item commentId) (fun _ _ => True) (fun _ _ => True) := by
  have own : ForItem item item.answerKey (finalizeParams item) := ⟨rfl, rfl, rfl⟩
  refine Triple.bind (publishOnce_of_handled rfl ?_) fun _ => recordAskReply_records _
  refine Handled.bind (ask_ready_keeps own) fun _ => ?_
  refine Handled.bind (m := fun intent s => (∃ commentId, intent.detail.result = some (some commentId)) ∧
    Known item item.answerKey fact AnyRow s) ?_ fun intent => ?_
  · refine Handled.weaken (persistOperationIntent_reserves_row own surface) ?_ fun _ _ _ => trivial
    rintro reserved s ⟨holds, _, _, r₀, ⟨row, commentId, rfl, stored⟩, rfl⟩
    exact ⟨⟨commentId, stored⟩, holds, trivial⟩
  refine Handled.bind (ask_ready_keeps own) fun _ => ?_
  intro s ⟨⟨stashed, stored⟩, known⟩
  rw [stored]
  exact finishWithStashedResult_settles own (Option.some_ne_none stashed) surface s known

theorem execute_replies :
    Triple (askContract item bot leaseKeyOf) (MayPost item bot item.answerKey) (execute item) (fun _ _ => True)
      (fun _ _ => True) := by
  have surface := @mayPost_surface item bot item.answerKey
  refine Triple.bind ((completed_reads surface.stable).weakenError fun _ _ _ => trivial) fun published => ?_
  refine Triple.ite (fun _ => Triple.pure fun _ _ => trivial) fun _ => ?_
  refine Triple.bind ((recoverDelivered_decides surface).strengthen fun _ may => ⟨may, trivial⟩) fun recovery => ?_
  match recovery with
  | some (.recovered commentId) => exact finalizeAskReplyPublish_settles surface
  | some .outcomeUnknown => exact Triple.pure fun _ _ => trivial
  | none =>
    refine Triple.bind ((runAskRun_reads surface.stable).conseq (fun _ after => after.1) (fun _ _ may => may)
      fun _ _ _ => trivial) fun _ => ?_
    refine Triple.bind ((completed_reads surface.stable).weakenError fun _ _ _ => trivial) fun published => ?_
    refine Triple.ite (fun _ => Triple.pure fun _ _ => trivial) fun _ => ?_
    refine Triple.bind ((publishOnce_replies answer_replies).strengthen fun _ may => ⟨may, trivial⟩) fun _ => ?_
    exact recordAskReply_records _

def MarkedFailed (s : AskState) : Prop := s.failed = true

theorem markedFailed_surface : Surface bot MarkedFailed := fun _ _ marked failed _ => failed marked

theorem onTerminalFailure_replies :
    Triple (askContract item bot leaseKeyOf) MarkedFailed (onTerminalFailure item) (fun _ _ => True) (fun _ _ => True) := by
  have surface := @markedFailed_surface bot
  have publishes : Triple (askContract item bot leaseKeyOf)
      (fun s => MarkedFailed s ∧ (AskSite.failureDecision = .failureDecision → Unposted bot item.answerKey s))
      (publishOnce (failureParams item) (mutateReply item item.failureKey) (recoverReply item item.failureKey))
      (fun _ _ => True) (fun _ _ => True) := by
    refine (publishOnce_replies failure_replies).strengthen fun s after => ⟨⟨.inr rfl, ?_, ?_⟩, trivial⟩
    · exact fun same => absurd same.symm (keys_differ item)
    · exact fun _ => ⟨after.2 rfl, after.1⟩
  refine Triple.bind ((completed_reads surface.stable).weakenError fun _ _ _ => trivial) fun published => ?_
  refine Triple.ite (fun _ => Triple.pure fun _ _ => trivial) fun _ => ?_
  refine Triple.bind ((recoverDelivered_decides surface).strengthen fun _ failed => ⟨failed, trivial⟩) fun recovery => ?_
  match recovery with
  | some (.recovered commentId) => exact Triple.pure fun _ _ => trivial
  | some .outcomeUnknown => exact Triple.bind publishes fun _ => Triple.pure fun _ _ => trivial
  | none => exact Triple.bind publishes fun _ => Triple.pure fun _ _ => trivial

end Attempts

section Runs

variable (item : AskWorkItem) (bot : Login) (leaseKeyOf : WorkItemId → LeaseKey)

abbrev AskPool := Pool Unit askInterface AskState AskTask AskOutcome

abbrev AskPoolEvent := PoolEvent Unit AskTask AskReply AskMove

-- Before the first attempt: the item holds no lease, has no row and has posted nothing.
structure AskStart (s : AskState) : Prop where
  unleased : s.db.callerLive leaseKeyOf item.id = false
  rows : ∀ key, s.intent item key = none
  comments : ∀ comment ∈ s.comments, comment.authorLogin = bot → comment.marker = none

def AskPool.operation? (pool : AskPool) : Option AskOp :=
  match pool.threads.get? () with
  | some ⟨_, .call op _⟩ => some op
  | _ => none

-- Every read the decisions rest on goes as it should.
def AskRunOk (pool : AskPool) : AskPoolEvent → Prop
  | .step _ reply => ∀ op ∈ pool.operation?, AskStepOk item bot pool.world op reply
  | _ => True

-- One answer or one failure notice at most, and not one of each.
structure RepliedOnce (s : AskState) : Prop where
  answer : (s.replies bot item.answerKey).length ≤ 1
  failure : (s.replies bot item.failureKey).length ≤ 1
  exclusive : s.replies bot item.answerKey = [] ∨ s.replies bot item.failureKey = []

variable {item bot leaseKeyOf}

theorem AskStart.inv {s : AskState} (start : AskStart item bot leaseKeyOf s) : AskInv item bot leaseKeyOf s := by
  have none : ∀ key, s.replies bot key = [] := by
    intro key
    refine List.filter_eq_nil_iff.mpr fun comment listed => ?_
    by_cases own : comment.authorLogin = bot
    · simp [start.comments comment listed own]
    · simp [own]
  refine ⟨start.unleased, ?_, ?_, ?_, ?_, ?_, ?_⟩
  · intro key row stored
    rw [start.rows key] at stored
    cases stored
  · exact fun key posted => absurd (none key) posted
  · intro key
    rw [none key]
    exact Nat.zero_le 1
  · exact .inl (none _)
  · exact fun posted => absurd (none _) posted
  · intro key comment posted
    rw [none key] at posted
    cases posted

theorem mayPost_of_attempt {s : AskState} (inv : AskInv item bot leaseKeyOf s) (running : s.failed = false) :
    MayPost item bot item.answerKey s := by
  refine ⟨.inl rfl, fun _ => ?_, fun same => absurd same (keys_differ item)⟩
  by_contra posted
  have failed := inv.failed posted
  rw [running] at failed
  cases failed

theorem askSystem_obeys :
    (askSystem item bot leaseKeyOf).Obeys (fun _ _ => askContract item bot leaseKeyOf) (AskInv item bot leaseKeyOf)
      (fun _ _ => True) (fun _ _ _ _ => True) (fun _ _ _ => True) (AskRunOk item bot) where
  inv_eq := fun _ _ => rfl
  normal_stable := fun _ _ _ _ _ _ _ _ => trivial
  exceptional_stable := fun _ _ _ _ _ _ _ _ => trivial
  start := by
    intro pool thread task inv _ starts
    refine ⟨?_, fun _ _ _ => ⟨trivial, trivial⟩⟩
    cases task with
    | attempt =>
      have running : (!pool.world.failed) = true := starts
      exact execute_replies pool.world (mayPost_of_attempt inv (by simpa using running))
    | terminalFailure => exact onTerminalFailure_replies pool.world starts
  act := fun pool thread reply task op next answer world ok at_op acted =>
    ⟨reply, ok op (by rw [AskPool.operation?, at_op]; rfl), acted⟩
  keeps := fun _ _ _ _ _ kept => kept
  interferes := fun thread other _ _ _ _ ne _ _ _ => absurd (Subsingleton.elim thread other) ne
  ends := fun _ _ _ _ inv _ => ⟨inv, fun _ _ _ => ⟨rfl, id, fun _ => rfl⟩⟩
  move := by
    intro move s t inv moved
    cases move with
    | markFailed =>
      obtain rfl := Option.some.inj moved
      refine ⟨⟨inv.unleased, inv.rows, inv.covered, inv.single, inv.exclusive, fun _ => rfl, inv.placed⟩, fun _ _ => ?_⟩
      exact ⟨rfl, fun _ => rfl, fun _ => rfl⟩
    | comment comment =>
      simp only [askSystem, askMove, Option.ite_none_right_eq_some, Option.some.injEq] at moved
      obtain ⟨⟨other, _⟩, rfl⟩ := moved
      have same : ∀ key, AskState.replies bot { s with comments := s.comments ++ [comment] } key = s.replies bot key := by
        intro key
        simp [AskState.replies, other]
      refine ⟨⟨inv.unleased, inv.rows, ?_, ?_, ?_, ?_, ?_⟩, fun _ _ => ⟨rfl, id, same⟩⟩
      · intro key posted
        rw [same] at posted
        exact inv.covered key posted
      · simpa only [same] using inv.single
      · simpa only [same] using inv.exclusive
      · simpa only [same] using inv.failed
      · simpa only [same] using inv.placed

-- In every run whose reads for the failure decision hide no posted answer, and in which no definitive error comes
-- between an accepted inline reply and its lookup, the item gets one reply at most.
theorem ask_replies_at_most_once (world : AskState) (start : AskStart item bot leaseKeyOf world) (pool : AskPool)
    (reached : Reaches (askSystem item bot leaseKeyOf).step (AskRunOk item bot) ⟨world, .empty⟩ pool) :
    RepliedOnce item bot pool.world := by
  have safe := System.reaches_safe askSystem_obeys start.inv (fun _ => rfl) reached
  exact ⟨safe.inv.single _, safe.inv.single _, safe.inv.exclusive⟩

end Runs

section Schedules

instance (bot : Login) (key : OperationKey) (error : Thrown) (s : AskState) :
    Decidable (isKnownNoAcceptanceMutationError error = true → s.replies bot key = []) :=
  inferInstanceAs (Decidable (_ → _))

instance (item : AskWorkItem) (bot : Login) (s : AskState) (op : AskOp) (reply : AskReply) :
    Decidable (AskStepOk item bot s op reply) := by
  unfold AskStepOk
  split <;> infer_instance

instance (item : AskWorkItem) (bot : Login) (pool : AskPool) (event : AskPoolEvent) :
    Decidable (AskRunOk item bot pool event) := by
  cases event <;> delta AskRunOk <;> infer_instance

-- Concrete runs of one ask in a review thread.
def inlineAsk : AskWorkItem := { id := 1, commentId := 7, replyTarget := .inlineReviewThread 5 }

def inlineAskKey (_ : WorkItemId) : LeaseKey := ⟨1, .ask⟩

def newAsk : AskState :=
  { db := { now := 0, leases := .empty, intents := .empty, log := [] }, recorded := false, failed := false, comments := [] }

def newAskPool : AskPool := ⟨newAsk, .empty⟩

theorem newAsk_start : AskStart inlineAsk 9 inlineAskKey newAsk := ⟨rfl, fun _ => rfl, fun _ listed => nomatch listed⟩

def answers (replies : List AskReply) : List AskPoolEvent := replies.map (.step ())

-- From the start of an attempt to its first reply in the thread: the checks, the agent run, the reservation, the
-- in-flight lookup and the claim.
def reachesReply : List AskPoolEvent :=
  .start () .attempt :: answers [.served, .served, .served, .served, .store .served, .store .served, .store .served]

-- The answer is accepted behind an ambiguous error, the login lookup behind it is refused, and the next attempt
-- takes the refusal for the reply's own and answers again.
def answersTwice : List AskPoolEvent :=
  reachesReply ++ answers [.lost 100 { message := "socket hang up" }, .refused { status := some 401 }, .store .served] ++
    [.finish ()] ++ reachesReply ++ answers [.posted 101]

-- The process dies after the answer is accepted, the retries fail, and the handler's listing of the thread is
-- truncated before the answer.
def answersAndApologises : List AskPoolEvent :=
  reachesReply ++ answers [.posted 100] ++ [.crash ()] ++
    .start () .attempt :: answers [.served, .served, .refused { message := "socket hang up" }] ++
    [.finish (), .move .markFailed, .start () .terminalFailure] ++
    answers [.served, .served, .served, .listed (some [100]), .listed none, .listed (some [100]), .listed none,
      .store .served, .store .served, .store .served, .posted 101]

theorem ask_replied_twice :
    (∃ pool, Reaches (askSystem inlineAsk 9 inlineAskKey).step (fun _ _ => True) newAskPool pool ∧
      (pool.world.replies 9 inlineAsk.answerKey).length = 2) ∧
    (∃ pool, Reaches (askSystem inlineAsk 9 inlineAskKey).step (fun _ _ => True) newAskPool pool ∧
      pool.world.replies 9 inlineAsk.answerKey ≠ [] ∧ pool.world.replies 9 inlineAsk.failureKey ≠ []) :=
  ⟨⟨_, reaches_runTo answersTwice newAskPool newAskPool (by decide +kernel), by decide +kernel⟩,
    ⟨_, reaches_runTo answersAndApologises newAskPool newAskPool (by decide +kernel), by decide +kernel⟩⟩

-- A crash right after the post, and a retry that finds the answer.
theorem ask_replies_at_most_once_after_crash :
    ∃ pool : AskPool, RepliedOnce inlineAsk 9 pool.world ∧ (pool.world.replies 9 inlineAsk.answerKey).length = 1 :=
  ⟨_, ask_replies_at_most_once newAsk newAsk_start _
    (reaches_runTo (reachesReply ++ answers [.posted 100] ++ [.crash ()] ++
      .start () .attempt :: answers [.served, .served, .served, .listed none]) newAskPool newAskPool (by decide +kernel)),
    by decide +kernel⟩

end Schedules
end PrAgent
