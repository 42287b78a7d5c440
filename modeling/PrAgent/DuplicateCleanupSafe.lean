import PrAgent.DuplicateAliases
set_option autoImplicit false

namespace PrAgent

section Safety

variable (context : InventoryContext) (plans : List DuplicateCleanupPlan)

def ReviewThreadListing.isOpen (listing : ReviewThreadListing) (threadId : String) : Bool :=
  (listing.thread? threadId).any fun thread => !thread.isResolved

def groupThreads (plan : DuplicateCleanupPlan) : List String :=
  (plan.canonical :: plan.duplicates.map DuplicateCleanupEntry.finding).filterMap InventoryFinding.threadId

def GroupOpen (listing : ReviewThreadListing) (plan : DuplicateCleanupPlan) : Prop :=
  ∃ threadId ∈ groupThreads plan, listing.isOpen threadId = true

def CleanupEvent.isOwn : CleanupEvent → Bool
  | .others _ => false
  | .read | .reply .. | .recheck | .resolve _ | .fail => true

-- The entry whose thread a reply is about to be written to.
def CleanupState.replies? (s : CleanupState) : Option (DuplicateCleanupPlan × DuplicateCleanupEntry × String) :=
  match s.phase with
  | .checked false _ => s.entry?
  | _ => none

def CleanupState.resolves? (s : CleanupState) : Option (DuplicateCleanupPlan × DuplicateCleanupEntry × String) :=
  match s.phase with
  | .rechecked _ _ => s.entry?
  | _ => none

def NoOtherCanonical (plan : DuplicateCleanupPlan) (threadId : String) : Prop :=
  ∀ other ∈ plans, other.canonical.threadId = some threadId → other = plan

-- The new receipt closes no cycle of aliases.
def ClosesNoCycle (listing : ReviewThreadListing) (duplicateId canonicalId : String) : Prop :=
  aliasNow context listing duplicateId = none → canonicalId ≠ duplicateId →
    ¬Leads (aliasNow context listing) canonicalId duplicateId

def NotLastOpen (listing : ReviewThreadListing) (threadId : String) : Prop :=
  ∀ plan ∈ plans, GroupOpen listing plan →
    ∃ other ∈ groupThreads plan, other ≠ threadId ∧ listing.isOpen other = true

def SafeStep (s : CleanupState) : CleanupEvent → Prop
  | .reply true _ => ∀ plan entry threadId, s.replies? = some (plan, entry, threadId) →
      NoOtherCanonical plans plan threadId ∧ ClosesNoCycle context s.threads entry.finding.id plan.canonical.id
  | .resolve true => ∀ plan entry threadId, s.resolves? = some (plan, entry, threadId) →
      NoOtherCanonical plans plan threadId ∧ NotLastOpen plans s.threads threadId
  | _ => True

-- The re-check of the entry in hand, in an earlier state of the run, read the thread whole and without human replies.
def RecheckedClean (reached : CleanupState → Prop) (s : CleanupState) (threadId : String) : Prop :=
  ∃ r receipted current, reached r ∧ r.phase = .replied receipted ∧ r.queue = s.queue ∧
    r.threads.thread? threadId = some current ∧ current.commentsComplete = true ∧
    hasHumanReplies current.comments context.botLogin = false

-- What one step of cleanup leaves intact.
structure CleanupKeeps (reached : CleanupState → Prop) (s : CleanupState) (threads : ReviewThreadListing) : Prop where
  resolved : ∀ threadId, s.threads.isOpen threadId = true → threads.isOpen threadId = false →
    RecheckedClean context reached s threadId
  canonical : ∀ plan ∈ plans, ∀ threadId, plan.canonical.threadId = some threadId →
    threads.thread? threadId = s.threads.thread? threadId
  acyclic : AliasesAcyclic context s.threads → AliasesAcyclic context threads
  groups : ∀ plan ∈ plans, GroupOpen s.threads plan → GroupOpen threads plan

-- The others leave a group open that they find open.
def OthersKeepOpen (plan : DuplicateCleanupPlan) (s : CleanupState) : CleanupEvent → Prop
  | .others threads => GroupOpen s.threads plan → GroupOpen threads plan
  | _ => True

structure CleanupSafe (allowed : CleanupState → CleanupEvent → Prop) (threads : ReviewThreadListing) : Prop where
  steps : ∀ {s t event}, Reaches (cleanupStep context) allowed (startCleanup plans threads) s → allowed s event →
    cleanupStep context s event = some t → event.isOwn = true →
    CleanupKeeps context plans (Reaches (cleanupStep context) allowed (startCleanup plans threads)) s t.threads
  runs : ∀ plan ∈ plans, GroupOpen threads plan → ∀ s,
    Reaches (cleanupStep context) (fun s event => allowed s event ∧ OthersKeepOpen plan s event)
      (startCleanup plans threads) s → GroupOpen s.threads plan

end Safety

section Steps

variable {context : InventoryContext} {plans : List DuplicateCleanupPlan}

@[simp] theorem finish_threads (s : CleanupState) (plan : DuplicateCleanupPlan) (entry : DuplicateCleanupEntry)
    (outcome : CleanupOutcome) : (s.finish plan entry outcome).threads = s.threads := rfl

@[simp] theorem finish_queue (s : CleanupState) (plan : DuplicateCleanupPlan) (entry : DuplicateCleanupEntry)
    (outcome : CleanupOutcome) : (s.finish plan entry outcome).queue = s.queue.tail := rfl

@[simp] theorem finish_phase (s : CleanupState) (plan : DuplicateCleanupPlan) (entry : DuplicateCleanupEntry)
    (outcome : CleanupOutcome) : (s.finish plan entry outcome).phase = .idle := rfl

-- What a step of cleanup does to the threads.
inductive ThreadsAfter (context : InventoryContext) (s : CleanupState) : CleanupEvent → ReviewThreadListing → Prop
  | same (event : CleanupEvent) : ThreadsAfter context s event s.threads
  | reply {plan : DuplicateCleanupPlan} {entry : DuplicateCleanupEntry} {threadId : String} (shown : Bool)
      (replies : s.replies? = some (plan, entry, threadId)) :
      ThreadsAfter context s (.reply true shown)
        (s.threads.edit threadId (withReply shown (duplicateReply context plan entry)))
  | resolve {plan : DuplicateCleanupPlan} {entry : DuplicateCleanupEntry} {threadId : String}
      (resolves : s.resolves? = some (plan, entry, threadId)) :
      ThreadsAfter context s (.resolve true) (s.threads.edit threadId withResolution)

theorem cleanupRead_threads (s : CleanupState) (plan : DuplicateCleanupPlan) (entry : DuplicateCleanupEntry) :
    (cleanupRead context s plan entry).threads = s.threads := by
  unfold cleanupRead
  split
  · split
    · rfl
    · split <;> rfl
  · rfl

theorem cleanupRecheck_threads (s : CleanupState) (plan : DuplicateCleanupPlan) (entry : DuplicateCleanupEntry)
    (receipted : Bool) (threadId : String) : (cleanupRecheck context s plan entry receipted threadId).threads = s.threads := by
  unfold cleanupRecheck
  split
  · rfl
  · split
    · rfl
    · split <;> rfl

theorem cleanupReply_threads (s : CleanupState) (plan : DuplicateCleanupPlan) (entry : DuplicateCleanupEntry)
    (receipted resolve sent shown : Bool) (threadId : String) :
    (cleanupReply context s plan entry receipted resolve sent shown threadId).threads =
      if sent && !receipted then s.threads.edit threadId (withReply shown (duplicateReply context plan entry))
      else s.threads := by
  unfold cleanupReply
  cases sent <;> cases receipted <;> cases resolve <;> rfl

theorem cleanupResolve_threads (s : CleanupState) (plan : DuplicateCleanupPlan) (entry : DuplicateCleanupEntry) (sent : Bool)
    (threadId : String) : (cleanupResolve s plan entry sent threadId).threads =
      if sent then s.threads.edit threadId withResolution else s.threads := by
  unfold cleanupResolve
  cases sent <;> rfl

theorem cleanup_threads {s t : CleanupState} {event : CleanupEvent} (own : event.isOwn = true)
    (moved : cleanupStep context s event = some t) : ThreadsAfter context s event t.threads := by
  cases event with
  | others threads => cases own
  | read =>
    simp only [cleanupStep] at moved
    split at moved
    · obtain rfl := Option.some.inj moved
      rw [cleanupRead_threads]
      exact .same _
    · cases moved
  | reply sent shown =>
    simp only [cleanupStep] at moved
    split at moved
    · next receipted resolve plan entry threadId phase current =>
      obtain rfl := Option.some.inj moved
      rw [cleanupReply_threads]
      cases sent with
      | false => exact .same _
      | true =>
        cases receipted with
        | true => exact .same _
        | false => exact .reply shown (by rw [CleanupState.replies?, phase]; exact current)
    · cases moved
  | recheck =>
    simp only [cleanupStep] at moved
    split at moved
    · obtain rfl := Option.some.inj moved
      rw [cleanupRecheck_threads]
      exact .same _
    · cases moved
  | resolve sent =>
    simp only [cleanupStep] at moved
    split at moved
    · next receipted current plan entry threadId phase inHand =>
      obtain rfl := Option.some.inj moved
      rw [cleanupResolve_threads]
      cases sent with
      | false => exact .same _
      | true => exact .resolve (by rw [CleanupState.resolves?, phase]; exact inHand)
    · cases moved
  | fail =>
    simp only [cleanupStep] at moved
    split at moved
    · cases moved
    · obtain rfl := Option.some.inj moved
      exact .same _

theorem isOpen_edit_of_ne (listing : ReviewThreadListing) {threadId other : String}
    (edit : ReviewThreadSnapshot → ReviewThreadSnapshot) (ne : other ≠ threadId) :
    (listing.edit threadId edit).isOpen other = listing.isOpen other := by
  rw [ReviewThreadListing.isOpen, thread?_edit_of_ne listing edit ne]
  rfl

theorem isOpen_reply (listing : ReviewThreadListing) (threadId other : String) (shown : Bool) (reply : ReviewThreadComment) :
    (listing.edit threadId (withReply shown reply)).isOpen other = listing.isOpen other := by
  unfold ReviewThreadListing.isOpen
  rw [thread?_edit]
  cases listing.thread? other with
  | none => rfl
  | some thread =>
    have same : (editThread threadId (withReply shown reply) thread).isResolved = thread.isResolved := by
      unfold editThread
      split
      · cases shown <;> rfl
      · rfl
    rw [Option.map_some, Option.any_some, Option.any_some, same]

variable {plan : DuplicateCleanupPlan} {entry : DuplicateCleanupEntry}

theorem acyclic_reply {listing : ReviewThreadListing}
    (threadId : String) (shown : Bool) (closes : ClosesNoCycle context listing entry.finding.id plan.canonical.id)
    (acyclic : AliasesAcyclic context listing) :
    AliasesAcyclic context (listing.edit threadId (withReply shown (duplicateReply context plan entry))) := by
  refine acyclic_edit (editThread_related ?_ (threadFinding_reply shown)) closes acyclic
  intro thread
  cases shown <;> rfl

theorem acyclic_resolution {listing : ReviewThreadListing} (threadId : String) (acyclic : AliasesAcyclic context listing) :
    AliasesAcyclic context (listing.edit threadId withResolution) := by
  have edits : ∀ thread, Option.Rel (SameAlias threadId threadId) (threadFinding context thread)
      (threadFinding context (editThread threadId withResolution thread)) :=
    editThread_related (fun _ => rfl) threadFinding_resolution
  exact acyclic_edit edits (fun _ apart => absurd rfl apart) acyclic

-- What holds of every state of a run of cleanup.
structure CleanupInvariant (context : InventoryContext) (plans : List DuplicateCleanupPlan)
    (reached : CleanupState → Prop) (s : CleanupState) : Prop where
  queue : ∀ item ∈ s.queue, item.1 ∈ plans ∧ item.2 ∈ item.1.duplicates
  rechecked : ∀ {receipted current plan entry threadId}, s.phase = .rechecked receipted current →
    s.entry? = some (plan, entry, threadId) → RecheckedClean context reached s threadId

variable {s : CleanupState}

theorem entry?_mem {threadId : String} (inHand : s.entry? = some (plan, entry, threadId)) :
    (plan, entry) ∈ s.queue ∧ entry.finding.threadId = some threadId := by
  unfold CleanupState.entry? at inHand
  split at inHand
  · cases inHand
  · next first second rest queue =>
    obtain ⟨id, thread, same⟩ := Option.map_eq_some_iff.mp inHand
    cases same
    exact ⟨by rw [queue]; exact List.mem_cons_self, thread⟩

variable {reached : CleanupState → Prop}

-- A step to a phase other than the last one, with what is left of the queue.
theorem CleanupInvariant.advance {s t : CleanupState} (inv : CleanupInvariant context plans reached s)
    (queue : t.queue = s.queue ∨ t.queue = s.queue.tail)
    (phase : ∀ receipted current, t.phase ≠ .rechecked receipted current) : CleanupInvariant context plans reached t := by
  refine ⟨?_, fun here => absurd here (phase _ _)⟩
  intro item listed
  rcases queue with same | tail
  · exact inv.queue item (same ▸ listed)
  · exact inv.queue item (List.mem_of_mem_tail (tail ▸ listed))

theorem recheck_invariant {threadId : String} {receipted : Bool} (inv : CleanupInvariant context plans reached s) (here : reached s)
    (phase : s.phase = .replied receipted) (inHand : s.entry? = some (plan, entry, threadId)) :
    CleanupInvariant context plans reached (cleanupRecheck context s plan entry receipted threadId) := by
  unfold cleanupRecheck
  split
  · exact inv.advance (.inr rfl) (by intro _ _ same; cases same)
  · next current found =>
    split
    · exact inv.advance (.inr rfl) (by intro _ _ same; cases same)
    · split
      · exact inv.advance (.inr rfl) (by intro _ _ same; cases same)
      · next clean =>
        refine ⟨inv.queue, ?_⟩
        intro receipted' current' plan' entry' threadId' _ inHand'
        have again : s.entry? = some (plan', entry', threadId') := inHand'
        rw [inHand] at again
        cases again
        have read : current.commentsComplete = true ∧ hasHumanReplies current.comments context.botLogin = false := by
          simpa [resolvable] using clean
        exact ⟨s, receipted, current, here, phase, rfl, found, read.1, read.2⟩

theorem cleanup_invariant {s t : CleanupState} {event : CleanupEvent} (inv : CleanupInvariant context plans reached s)
    (here : reached s) (moved : cleanupStep context s event = some t) : CleanupInvariant context plans reached t := by
  cases event with
  | others threads =>
    simp only [cleanupStep, Option.some.injEq] at moved
    subst moved
    exact ⟨inv.queue, fun phase inHand => inv.rechecked phase inHand⟩
  | read =>
    simp only [cleanupStep] at moved
    split at moved
    · obtain rfl := Option.some.inj moved
      unfold cleanupRead
      split
      · split
        · exact inv.advance (.inr rfl) (by intro _ _ same; cases same)
        · split
          · exact inv.advance (.inr rfl) (by intro _ _ same; cases same)
          · exact inv.advance (.inl rfl) (by intro _ _ same; cases same)
      · exact inv.advance (.inr rfl) (by intro _ _ same; cases same)
    · cases moved
  | reply sent shown =>
    simp only [cleanupStep] at moved
    split at moved
    · next receipted resolve plan entry threadId _ _ =>
      obtain rfl := Option.some.inj moved
      unfold cleanupReply
      cases resolve with
      | true =>
        refine inv.advance (.inl ?_) (by intro _ _ same; cases same)
        cases sent <;> cases receipted <;> rfl
      | false =>
        refine inv.advance (.inr ?_) (by intro _ _ same; cases same)
        cases sent <;> cases receipted <;> rfl
    · cases moved
  | recheck =>
    simp only [cleanupStep] at moved
    split at moved
    · next receipted plan entry threadId phase inHand =>
      obtain rfl := Option.some.inj moved
      exact recheck_invariant inv here phase inHand
    · cases moved
  | resolve sent =>
    simp only [cleanupStep] at moved
    split at moved
    · obtain rfl := Option.some.inj moved
      refine inv.advance (.inr ?_) (by intro _ _ same; cases same)
      cases sent <;> rfl
    · cases moved
  | fail =>
    simp only [cleanupStep] at moved
    split at moved
    · cases moved
    · obtain rfl := Option.some.inj moved
      exact inv.advance (.inr rfl) (by intro _ _ same; cases same)

theorem start_invariant (threads : ReviewThreadListing) :
    CleanupInvariant context plans reached (startCleanup plans threads) := by
  refine ⟨?_, fun phase => by cases phase⟩
  intro item listed
  obtain ⟨plan, planned, entries⟩ := List.mem_flatMap.mp listed
  obtain ⟨entry, duplicate, rfl⟩ := List.mem_map.mp entries
  exact ⟨planned, duplicate⟩

theorem replies?_eq {item : DuplicateCleanupPlan × DuplicateCleanupEntry × String}
    (replies : s.replies? = some item) : s.entry? = some item := by
  unfold CleanupState.replies? at replies
  split at replies
  · exact replies
  · cases replies

theorem resolves?_eq {item : DuplicateCleanupPlan × DuplicateCleanupEntry × String} (resolves : s.resolves? = some item) :
    s.entry? = some item ∧ ∃ receipted current, s.phase = .rechecked receipted current := by
  unfold CleanupState.resolves? at resolves
  split at resolves
  · next receipted current phase => exact ⟨resolves, receipted, current, phase⟩
  · cases resolves

-- The thread of an entry in hand is no canonical one, of its own plan or another.
theorem not_canonical {inventory : FindingInventory} (sound : ∀ plan ∈ plans, plan.Sound inventory)
    (inv : CleanupInvariant context plans reached s)
    {threadId : String} (inHand : s.entry? = some (plan, entry, threadId)) (others : NoOtherCanonical plans plan threadId)
    {other : DuplicateCleanupPlan} (planned : other ∈ plans) : other.canonical.threadId ≠ some threadId := by
  intro same
  obtain ⟨queued, thread⟩ := entry?_mem inHand
  obtain ⟨ownPlanned, listed⟩ := inv.queue _ queued
  obtain rfl := others other planned same
  exact (sound other planned).apart listed thread same

theorem cleanup_keeps {inventory : FindingInventory} (sound : ∀ plan ∈ plans, plan.Sound inventory)
    {event : CleanupEvent} {threads : ReviewThreadListing} (inv : CleanupInvariant context plans reached s)
    (safe : SafeStep context plans s event) (after : ThreadsAfter context s event threads) :
    CleanupKeeps context plans reached s threads := by
  cases after with
  | same =>
    refine ⟨?_, fun _ _ _ _ => rfl, id, fun _ _ => id⟩
    intro threadId before resolved
    rw [before] at resolved
    cases resolved
  | @reply plan entry threadId shown replies =>
    obtain ⟨others, closes⟩ := safe plan entry threadId replies
    have inHand := replies?_eq replies
    refine ⟨?_, ?_, acyclic_reply threadId shown closes, ?_⟩
    · intro other before resolved
      rw [isOpen_reply, before] at resolved
      cases resolved
    · intro other planned canonicalId canonical
      refine thread?_edit_of_ne _ _ ?_
      intro same
      exact not_canonical sound inv inHand others planned (same ▸ canonical)
    · rintro other _ ⟨openId, member, found⟩
      exact ⟨openId, member, by rw [isOpen_reply]; exact found⟩
  | @resolve plan entry threadId resolves =>
    obtain ⟨others, last⟩ := safe plan entry threadId resolves
    obtain ⟨inHand, receipted, current, phase⟩ := resolves?_eq resolves
    refine ⟨?_, ?_, acyclic_resolution threadId, ?_⟩
    · intro other before resolved
      by_cases same : other = threadId
      · subst same
        exact inv.rechecked phase inHand
      · rw [isOpen_edit_of_ne _ _ same, before] at resolved
        cases resolved
    · intro other planned canonicalId canonical
      refine thread?_edit_of_ne _ _ ?_
      intro same
      exact not_canonical sound inv inHand others planned (same ▸ canonical)
    · intro other planned opened
      obtain ⟨openId, member, ne, found⟩ := last other planned opened
      exact ⟨openId, member, by rw [isOpen_edit_of_ne _ _ ne]; exact found⟩

theorem reaches_invariant {allowed : CleanupState → CleanupEvent → Prop} {threads : ReviewThreadListing}
    (reached : Reaches (cleanupStep context) allowed (startCleanup plans threads) s) :
    CleanupInvariant context plans (Reaches (cleanupStep context) allowed (startCleanup plans threads)) s := by
  induction reached with
  | start => exact start_invariant threads
  | next before ok moved ih => exact cleanup_invariant ih before moved

end Steps

section Results

variable (context : InventoryContext) (inventory : FindingInventory) (declared : List (List String))

theorem cleanup_safe (threads : ReviewThreadListing) :
    CleanupSafe context (cleanupPlans inventory declared) (SafeStep context (cleanupPlans inventory declared)) threads := by
  have sound : ∀ plan ∈ cleanupPlans inventory declared, plan.Sound inventory := fun plan => cleanupPlans_sound
  refine ⟨?_, ?_⟩
  · intro s t event reached ok moved own
    exact cleanup_keeps sound (reaches_invariant reached) ok (cleanup_threads own moved)
  · intro plan planned opened s reached
    induction reached with
    | start => exact opened
    | @next s t event before ok moved ih =>
      cases own : event.isOwn with
      | true =>
        have kept := cleanup_keeps sound (reaches_invariant before) ok.1 (cleanup_threads own moved)
        exact kept.groups plan planned ih
      | false =>
        cases event with
        | others threads =>
          simp only [cleanupStep, Option.some.injEq] at moved
          subst moved
          exact ok.2 ih
        | read | reply | recheck | resolve | fail => cases own

-- An older copy that is resolved already, and a newer one that is open.
def copyContext : InventoryContext := { renames := .empty, botLogin := "agent", legacyFindingId := id }

def copyThread (threadNodeId : String) (rootCommentId : Nat) (createdAt : String) (id : String) (isResolved : Bool) :
    ReviewThreadSnapshot :=
  { threadNodeId, rootCommentId, isResolved, path := some "a.ts", line := some 1
    comments := [{ authorLogin := some "agent", createdAt, marker := some { id, severity := .p1 } }] }

def resolvedOriginal : ReviewThreadListing where
  threads := [copyThread "T1" 1 "2026-01-01" "A" true, copyThread "T2" 2 "2026-01-02" "A" false]
  distinct := by decide

def resolvedOriginalInventory : FindingInventory := buildFindingInventory copyContext .complete resolvedOriginal none

instance (listing : ReviewThreadListing) (plan : DuplicateCleanupPlan) : Decidable (GroupOpen listing plan) :=
  inferInstanceAs (Decidable (∃ threadId ∈ groupThreads plan, listing.isOpen threadId = true))

def untilRecheck : List CleanupEvent := [.read, .reply true true, .recheck]

def recheckedCopy : CleanupState :=
  runTo (cleanupStep copyContext) (fun _ _ => decide True) untilRecheck
    (startCleanup (cleanupPlans resolvedOriginalInventory []) resolvedOriginal) { threads := resolvedOriginal, queue := [] }

-- The open copy is resolved against an original that was not open: no thread of the group is left open.
theorem same_id_cleanup_closes_group :
    ¬∀ context inventory declared threads,
      CleanupSafe context (cleanupPlans inventory declared) (fun _ _ => True) threads := by
  intro claim
  have safe := claim copyContext resolvedOriginalInventory [] resolvedOriginal
  have reached : Reaches (cleanupStep copyContext) (fun _ _ => True)
      (startCleanup (cleanupPlans resolvedOriginalInventory []) resolvedOriginal) recheckedCopy :=
    reaches_runTo untilRecheck _ _ (by decide +kernel)
  have resolves : (cleanupStep copyContext recheckedCopy (.resolve true)).isSome = true := by decide +kernel
  obtain ⟨t, moved⟩ := Option.isSome_iff_exists.mp resolves
  have here : ∃ plan ∈ cleanupPlans resolvedOriginalInventory [], GroupOpen recheckedCopy.threads plan ∧
      ¬GroupOpen ((cleanupStep copyContext recheckedCopy (.resolve true)).getD recheckedCopy).threads plan := by
    decide +kernel
  rw [moved] at here
  obtain ⟨plan, planned, before, after⟩ := here
  exact after ((safe.steps reached trivial moved rfl).groups plan planned before)

-- Two open threads of one defect, declared duplicates.
def openOriginal : ReviewThreadListing where
  threads := [copyThread "T1" 1 "2026-01-01" "A" false, copyThread "T2" 2 "2026-01-02" "B" false]
  distinct := by decide

def declaredPlans : List DuplicateCleanupPlan :=
  cleanupPlans (buildFindingInventory copyContext .complete openOriginal none) [["A", "B"]]

instance (other plan : DuplicateCleanupPlan) (threadId : String) :
    Decidable (other.canonical.threadId = some threadId → other = plan) := inferInstance

instance (plans : List DuplicateCleanupPlan) (plan : DuplicateCleanupPlan) (threadId : String) :
    Decidable (NoOtherCanonical plans plan threadId) :=
  inferInstanceAs (Decidable (∀ other ∈ plans, other.canonical.threadId = some threadId → other = plan))

instance (plans : List DuplicateCleanupPlan) (listing : ReviewThreadListing) (threadId : String) :
    Decidable (NotLastOpen plans listing threadId) :=
  inferInstanceAs (Decidable (∀ plan ∈ plans, GroupOpen listing plan →
    ∃ other ∈ groupThreads plan, other ≠ threadId ∧ listing.isOpen other = true))

-- A canonical finding that is no copy closes no cycle.
def isSafeStep (plans : List DuplicateCleanupPlan) (s : CleanupState) : CleanupEvent → Bool
  | .reply true _ => s.replies?.all fun (plan, _, threadId) =>
      decide (NoOtherCanonical plans plan threadId) && (aliasNow copyContext s.threads plan.canonical.id).isNone
  | .resolve true => s.resolves?.all fun (plan, _, threadId) =>
      decide (NoOtherCanonical plans plan threadId) && decide (NotLastOpen plans s.threads threadId)
  | _ => true

theorem safeStep_of_isSafeStep {plans : List DuplicateCleanupPlan} {s : CleanupState} {event : CleanupEvent}
    (safe : isSafeStep plans s event = true) : SafeStep copyContext plans s event := by
  cases event with
  | reply sent shown =>
    cases sent with
    | false => trivial
    | true =>
      intro plan entry threadId replies
      have facts : NoOtherCanonical plans plan threadId ∧
          aliasNow copyContext s.threads plan.canonical.id = none := by
        simpa [isSafeStep, replies] using safe
      exact ⟨facts.1, fun _ apart leads => apart (leads_of_end leads facts.2).symm⟩
  | resolve sent =>
    cases sent with
    | false => trivial
    | true =>
      intro plan entry threadId resolves
      simpa [isSafeStep, resolves] using safe
  | others | read | recheck | fail => trivial

def recheckedDuplicate : CleanupState :=
  runTo (cleanupStep copyContext) (fun s event => decide (isSafeStep declaredPlans s event = true)) untilRecheck
    (startCleanup declaredPlans openOriginal) { threads := openOriginal, queue := [] }

def closedDuplicate : CleanupState :=
  ((cleanupStep copyContext recheckedDuplicate (.resolve true)).getD recheckedDuplicate)

-- The newer of two declared threads is linked to the older one and resolved.
theorem declared_duplicate_cleaned :
    closedDuplicate.cleaned = [{ id := "B", canonicalId := "A", canonicalUrl := "", resolved := true }] ∧
      CleanupKeeps copyContext declaredPlans
        (Reaches (cleanupStep copyContext) (SafeStep copyContext declaredPlans) (startCleanup declaredPlans openOriginal))
        recheckedDuplicate closedDuplicate.threads := by
  refine ⟨by decide +kernel, ?_⟩
  have safely : Reaches (cleanupStep copyContext) (fun s event => isSafeStep declaredPlans s event = true)
      (startCleanup declaredPlans openOriginal) recheckedDuplicate := reaches_runTo untilRecheck _ _ (by decide +kernel)
  have reached := (safely.restrict (fun _ => True) trivial (fun _ _ _ _ _ _ => trivial)
    fun _ _ _ safe => safeStep_of_isSafeStep safe).1
  have resolves : (cleanupStep copyContext recheckedDuplicate (.resolve true)).isSome = true := by decide +kernel
  obtain ⟨t, moved⟩ := Option.isSome_iff_exists.mp resolves
  have same : closedDuplicate = t := by rw [closedDuplicate, moved]; rfl
  rw [same]
  exact (cleanup_safe copyContext (buildFindingInventory copyContext .complete openOriginal none) [["A", "B"]]
    openOriginal).steps reached (safeStep_of_isSafeStep (by decide +kernel)) moved rfl

end Results
end PrAgent
