import PrAgent.DuplicateCleanup
set_option autoImplicit false

namespace PrAgent

section Threads

def ReviewThreadListing.thread? (listing : ReviewThreadListing) (threadId : String) : Option ReviewThreadSnapshot :=
  listing.threads.find? fun thread => thread.threadNodeId = threadId

-- A write to the thread of one node id.
def editThread (threadId : String) (edit : ReviewThreadSnapshot → ReviewThreadSnapshot) (thread : ReviewThreadSnapshot) :
    ReviewThreadSnapshot :=
  if thread.threadNodeId = threadId then { edit thread with threadNodeId := thread.threadNodeId } else thread

theorem editThread_id (threadId : String) (edit : ReviewThreadSnapshot → ReviewThreadSnapshot) (thread : ReviewThreadSnapshot) :
    (editThread threadId edit thread).threadNodeId = thread.threadNodeId := by
  unfold editThread
  split <;> rfl

def ReviewThreadListing.edit (listing : ReviewThreadListing) (threadId : String)
    (edit : ReviewThreadSnapshot → ReviewThreadSnapshot) : ReviewThreadListing where
  threads := listing.threads.map (editThread threadId edit)
  distinct := by
    have ids : (listing.threads.map (editThread threadId edit)).map ReviewThreadSnapshot.threadNodeId =
        listing.threads.map ReviewThreadSnapshot.threadNodeId := by
      rw [List.map_map]
      exact List.map_congr_left fun thread _ => editThread_id threadId edit thread
    rw [ids]
    exact listing.distinct

theorem thread?_edit (listing : ReviewThreadListing) (threadId other : String)
    (edit : ReviewThreadSnapshot → ReviewThreadSnapshot) :
    (listing.edit threadId edit).thread? other = (listing.thread? other).map (editThread threadId edit) := by
  change (listing.threads.map (editThread threadId edit)).find? (fun thread => thread.threadNodeId = other) =
    (listing.threads.find? fun thread => thread.threadNodeId = other).map (editThread threadId edit)
  induction listing.threads with
  | nil => rfl
  | cons thread rest ih =>
    rw [List.map_cons, List.find?_cons, List.find?_cons, editThread_id]
    split
    · rfl
    · exact ih

theorem thread?_edit_of_ne (listing : ReviewThreadListing) {threadId other : String}
    (edit : ReviewThreadSnapshot → ReviewThreadSnapshot) (ne : other ≠ threadId) :
    (listing.edit threadId edit).thread? other = listing.thread? other := by
  rw [thread?_edit]
  cases found : listing.thread? other with
  | none => rfl
  | some thread =>
    have named : thread.threadNodeId = other := by
      rw [ReviewThreadListing.thread?] at found
      simpa using List.find?_some found
    rw [Option.map_some, editThread, if_neg (by rw [named]; exact ne)]

-- The comment of a reply. A thread with more comments than a page only counts it.
def withReply (shown : Bool) (reply : ReviewThreadComment) (thread : ReviewThreadSnapshot) : ReviewThreadSnapshot :=
  if shown then { thread with comments := thread.comments ++ [reply] } else { thread with commentsComplete := false }

def withResolution (thread : ReviewThreadSnapshot) : ReviewThreadSnapshot := { thread with isResolved := true }

end Threads

section Cleaning

variable (context : InventoryContext)

def hasDuplicateReceipt (thread : ReviewThreadSnapshot) (duplicateId canonicalId : String) : Bool :=
  (parseOwnedReceipts thread.comments context.botLogin).any fun receipt =>
    receipt = .duplicate duplicateId canonicalId

def resolvable (thread : ReviewThreadSnapshot) : Bool :=
  thread.commentsComplete && !hasHumanReplies thread.comments context.botLogin

def duplicateReply (plan : DuplicateCleanupPlan) (entry : DuplicateCleanupEntry) : ReviewThreadComment :=
  { authorLogin := some context.botLogin, receipts := [.duplicate entry.finding.id plan.canonical.id] }

-- Where `cleanEntry` stands with the entry at the head of the queue.
inductive CleanupPhase
  | idle
  | checked (receipted resolve : Bool)
  | replied (receipted : Bool)
  | rechecked (receipted : Bool) (current : ReviewThreadSnapshot)
  deriving DecidableEq

structure CleanupState where
  threads : ReviewThreadListing
  queue : List (DuplicateCleanupPlan × DuplicateCleanupEntry)
  phase : CleanupPhase := .idle
  cleaned : List CleanedDuplicate := []

inductive CleanupOutcome
  | resolved | linked | skipped
  deriving DecidableEq, Repr

def CleanupState.finish (s : CleanupState) (plan : DuplicateCleanupPlan) (entry : DuplicateCleanupEntry)
    (outcome : CleanupOutcome) : CleanupState :=
  { s with
    queue := s.queue.tail, phase := .idle
    cleaned :=
      if outcome = .skipped then s.cleaned
      else s.cleaned ++
        [{ id := entry.finding.id, canonicalId := plan.canonical.id, canonicalUrl := plan.canonical.url
           resolved := outcome = .resolved }] }

inductive CleanupEvent
  -- humans, other runs and GitHub leave the threads in any other state
  | others (threads : ReviewThreadListing)
  | read
  -- a reply that an earlier attempt recorded is not sent again
  | reply (sent shown : Bool)
  | recheck
  | resolve (sent : Bool)
  -- an error ends the entry, also one after the write landed
  | fail

def cleanupRead (s : CleanupState) (plan : DuplicateCleanupPlan) (entry : DuplicateCleanupEntry) : CleanupState :=
  match entry.finding.threadId, entry.finding.rootCommentId with
  | some threadId, some _ =>
    match s.threads.thread? threadId with
    | none => s.finish plan entry .skipped
    | some before =>
      if before.isResolved then s.finish plan entry .skipped
      else
        { s with
          phase := .checked (hasDuplicateReceipt context before entry.finding.id plan.canonical.id)
            (entry.resolve && resolvable context before) }
  | _, _ => s.finish plan entry .skipped

-- `replyAt` answers the root comment, which is on the thread of the entry.
def cleanupReply (s : CleanupState) (plan : DuplicateCleanupPlan) (entry : DuplicateCleanupEntry)
    (receipted resolve sent shown : Bool) (threadId : String) : CleanupState :=
  let written : CleanupState :=
    if sent && !receipted then
      { s with threads := s.threads.edit threadId (withReply shown (duplicateReply context plan entry)) }
    else s
  if resolve then { written with phase := .replied receipted }
  else written.finish plan entry (if receipted then .skipped else .linked)

def cleanupRecheck (s : CleanupState) (plan : DuplicateCleanupPlan) (entry : DuplicateCleanupEntry) (receipted : Bool)
    (threadId : String) : CleanupState :=
  match s.threads.thread? threadId with
  | none => s.finish plan entry (if receipted then .skipped else .linked)
  | some current =>
    if current.isResolved then s.finish plan entry (if receipted then .skipped else .resolved)
    else if !resolvable context current then s.finish plan entry (if receipted then .skipped else .linked)
    else { s with phase := .rechecked receipted current }

def cleanupResolve (s : CleanupState) (plan : DuplicateCleanupPlan) (entry : DuplicateCleanupEntry) (sent : Bool)
    (threadId : String) : CleanupState :=
  let written : CleanupState :=
    if sent then { s with threads := s.threads.edit threadId withResolution } else s
  written.finish plan entry .resolved

-- The entry in hand and its thread.
def CleanupState.entry? (s : CleanupState) : Option (DuplicateCleanupPlan × DuplicateCleanupEntry × String) :=
  match s.queue with
  | [] => none
  | (plan, entry) :: _ => entry.finding.threadId.map fun threadId => (plan, entry, threadId)

def cleanupStep (s : CleanupState) : CleanupEvent → Option CleanupState
  | .others threads => some { s with threads }
  | .read =>
    match s.phase, s.queue with
    | .idle, (plan, entry) :: _ => some (cleanupRead context s plan entry)
    | _, _ => none
  | .reply sent shown =>
    match s.phase, s.entry? with
    | .checked receipted resolve, some (plan, entry, threadId) =>
      some (cleanupReply context s plan entry receipted resolve sent shown threadId)
    | _, _ => none
  | .recheck =>
    match s.phase, s.entry? with
    | .replied receipted, some (plan, entry, threadId) => some (cleanupRecheck context s plan entry receipted threadId)
    | _, _ => none
  | .resolve sent =>
    match s.phase, s.entry? with
    | .rechecked _ _, some (plan, entry, threadId) => some (cleanupResolve s plan entry sent threadId)
    | _, _ => none
  | .fail =>
    match s.queue with
    | [] => none
    | (plan, entry) :: _ => some (s.finish plan entry .skipped)

-- A run of `clean` starts with every entry of its plans to do.
def startCleanup (plans : List DuplicateCleanupPlan) (threads : ReviewThreadListing) : CleanupState :=
  { threads, queue := plans.flatMap fun plan => plan.duplicates.map fun entry => (plan, entry) }

end Cleaning
end PrAgent
