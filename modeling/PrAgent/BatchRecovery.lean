import PrAgent.FindingRowsExact
import PrAgent.InlinePublishPartition
import PrAgent.LineEnds
import PrAgent.ObjectionAnswer
set_option autoImplicit false

namespace PrAgent.CommentMarkers

section Remote

structure RemoteReview where
  id : Nat
  authorLogin : Option String
  body : Option Text
  commitId : Option Text
  deriving DecidableEq

structure RemoteComment where
  body : Text
  authorLogin : String
  pullRequestReviewId : Option Nat
  inReplyToId : Option Nat
  deriving DecidableEq

-- What GitHub lists; `truncated` is of the comments.
structure RemoteListing where
  reviews : List RemoteReview
  comments : List RemoteComment
  truncated : Bool

end Remote

section Batch

-- What the body of a thread is rendered from.
structure ThreadSubject where
  finding : ThreadFinding
  id : FindingId
  reopens : Option FindingId
  relatedLinks : List Text
  boundPaths : List Text

abbrev PlannedThread := IdentifiedInlinePlacement ThreadSubject

-- An inline batch as it is planned: every placement has a line and an id of its own.
structure InlinePlan where
  inline : List PlannedThread
  inlined : ∀ placement ∈ inline, placement.inlinePosted = true ∧ placement.inlineLine.isSome = true
  named : ∀ placement ∈ inline, placement.findingId = String.ofList placement.finding.id.value
  distinct : (inline.map fun placement => placement.findingId).Nodup

structure BatchSession where
  ctx : RenderContext
  botLogin : String
  source : FindingSource
  progressCommentUrl : Text
  operationDigest : BoundedText hexDigit 24 24

variable (session : BatchSession)

def escapeAlertLine : Text → Text
  | '>' :: rest => text "> \\>" ++ rest
  | line => text "> " ++ line

def renderGitHubAlert (alertType body : Text) : Text :=
  text "> [!" ++ (alertType ++ (text "]\n" ++ joinLines (((crlfToLf body).splitOn '\n').map escapeAlertLine)))

def renderSpecialistReviewBody (specialist : FindingSource) (progressCommentUrl lensMarker : Text) : Text :=
  joinLines
    [renderGitHubAlert (text "NOTE")
        (text "Track this run on the [progress stub](" ++ (progressCommentUrl ++ text ") in the PR conversation.")),
      [],
      text "`" ++ (sourceText specialist ++ (text "` Here's what the " ++ (sourceText specialist ++ text " found."))),
      lensMarker]

def renderReviewBody : Text :=
  renderSpecialistReviewBody session.source session.progressCommentUrl (text "<!-- pr-agent:review-pointer lens=review -->") ++
    '\n' :: operationIntentMarker session.operationDigest

def renderCommentBody (placement : PlannedThread) : Text :=
  renderInlineThreadBody placement.finding.finding session.ctx
    { id := placement.finding.id, lens := session.source, reopens := placement.finding.reopens,
      relatedLinks := placement.finding.relatedLinks }
    placement.finding.boundPaths

-- What the accepted attempt leaves at GitHub.
def acceptedReview (reviewId : Nat) : RemoteReview where
  id := reviewId
  authorLogin := some session.botLogin
  body := some (renderReviewBody session)
  commitId := some session.ctx.headSha

def acceptedComments (reviewId : Nat) (posted : List PlannedThread) : List RemoteComment :=
  posted.map fun placement =>
    { body := renderCommentBody session placement, authorLogin := session.botLogin, pullRequestReviewId := some reviewId,
      inReplyToId := none }

end Batch

section Recover

variable (session : BatchSession)

inductive BatchRecovery
  | absent
  | failed
  | reconciled (value : InlinePublishResult ThreadSubject)

def isPublishedBatch (review : RemoteReview) : Bool :=
  review.authorLogin = some session.botLogin &&
    review.body.any (fun body => includes body (operationIntentMarker session.operationDigest)) &&
    review.commitId = some session.ctx.headSha

-- The newest review of the bot with the marker of the operation.
def findPublishedThreadBatch (reviews : List RemoteReview) : Option Nat :=
  (reviews.reverse.find? (isPublishedBatch session)).map RemoteReview.id

def observedComments (listing : RemoteListing) (reviewId : Nat) : List RemoteComment :=
  listing.comments.filter fun comment => comment.pullRequestReviewId = some reviewId && comment.inReplyToId = none

def commentMarker (comment : RemoteComment) : Option FindingMarker :=
  parseOwnedFindingMarker { body := comment.body, authorLogin := some comment.authorLogin } true session.botLogin

-- The ids that the comments of the review carry; the first comment that does not fit the plan ends the search.
def postedIds (plannedIds : List String) : List RemoteComment → List String → Option (List String)
  | [], posted => some posted
  | comment :: comments, posted =>
    match commentMarker session comment with
    | none => none
    | some marker =>
      if String.ofList marker.id.value ∉ plannedIds || String.ofList marker.id.value ∈ posted then none
      else postedIds plannedIds comments (posted ++ [String.ofList marker.id.value])

def reconciledResult (inline : List PlannedThread) (reviewId : Nat) (posted : List String) :
    InlinePublishResult ThreadSubject where
  review := some reviewId
  posted := inline.filter fun placement => placement.findingId ∈ posted
  anchorDropped := (inline.filter fun placement => placement.findingId ∉ posted).map fun placement =>
    { placement with inlinePosted := false }

def recover (inline : List PlannedThread) (listing : RemoteListing) : BatchRecovery :=
  match findPublishedThreadBatch session listing.reviews with
  | none => .absent
  | some reviewId =>
    if listing.truncated then .failed
    else if observedComments listing reviewId = [] then .absent
    else
      match postedIds session (inline.map fun placement => placement.findingId) (observedComments listing reviewId) [] with
      | none => .absent
      | some posted => .reconciled (reconciledResult inline reviewId posted)

-- A complete listing with the accepted review, which is the only one of the bot at the commit with the marker of the
-- operation, and whose own comments are the posted ones in some order.
structure CompleteListing (reviewId : Nat) (posted : List PlannedThread) where
  listing : RemoteListing
  whole : listing.truncated = false
  review : acceptedReview session reviewId ∈ listing.reviews
  only : ∀ review ∈ listing.reviews, isPublishedBatch session review = true → review.id = reviewId
  comments : (observedComments listing reviewId).Perm (acceptedComments session reviewId posted)

end Recover

variable {session : BatchSession} {reviewId : Nat} {posted inline : List PlannedThread}

section Observed

def markerId (marker : FindingMarker) : String := String.ofList marker.id.value

-- A posted comment carries the marker of its placement, whatever its texts are.
theorem commentMarker_posted (placement : PlannedThread) :
    ∃ marker, commentMarker session
        { body := renderCommentBody session placement, authorLogin := session.botLogin, pullRequestReviewId := some reviewId,
          inReplyToId := none } = some marker ∧
      markerId marker = String.ofList placement.finding.id.value :=
  ⟨_, (inlineThread_exact placement.finding.finding session.ctx _ placement.finding.boundPaths session.botLogin).1, rfl⟩

theorem acceptedReview_published : isPublishedBatch session (acceptedReview session reviewId) = true := by
  have carried : includes (renderReviewBody session) (operationIntentMarker session.operationDigest) = true := by
    rw [includes, decide_eq_true_iff, renderReviewBody]
    have last : operationIntentMarker session.operationDigest <:+
        renderSpecialistReviewBody session.source session.progressCommentUrl
          (text "<!-- pr-agent:review-pointer lens=review -->") ++ '\n' :: operationIntentMarker session.operationDigest :=
      (List.suffix_cons _ _).trans (List.suffix_append _ _)
    exact last.isInfix
  rw [isPublishedBatch, acceptedReview, Option.any_some, carried]
  simp

variable (seen : CompleteListing session reviewId posted)

theorem CompleteListing.finds : findPublishedThreadBatch session seen.listing.reviews = some reviewId := by
  have found : (seen.listing.reviews.reverse.find? (isPublishedBatch session)).isSome = true := by
    apply List.find?_isSome.mpr
    exact ⟨_, List.mem_reverse.mpr seen.review, acceptedReview_published⟩
  obtain ⟨review, here⟩ := Option.isSome_iff_exists.mp found
  have listed := List.mem_reverse.mp (List.mem_of_find?_eq_some here)
  rw [findPublishedThreadBatch, here, Option.map_some, seen.only review listed (List.find?_some here)]

-- The ids of comments that all fit the plan.
theorem postedIds_fit {planned : List String} {comments : List RemoteComment} {ids found : List String}
    (marked : List.Forall₂ (fun comment id => ∃ marker, commentMarker session comment = some marker ∧ markerId marker = id)
      comments ids)
    (inPlan : ∀ id ∈ ids, id ∈ planned) (distinct : (found ++ ids).Nodup) :
    postedIds session planned comments found = some (found ++ ids) := by
  induction marked generalizing found with
  | nil => rw [postedIds, List.append_nil]
  | @cons comment id comments ids here rest ih =>
      obtain ⟨marker, reads, named⟩ := here
      have fresh : id ∉ found := by
        intro listed
        exact (List.nodup_append.mp distinct).2.2 id listed id List.mem_cons_self rfl
      have known : id ∈ planned := inPlan id List.mem_cons_self
      rw [List.append_cons] at distinct ⊢
      rw [postedIds, reads]
      simp only [show String.ofList marker.id.value = id from named]
      rw [if_neg (by simp [known, fresh])]
      exact ih (fun other listed => inPlan other (List.mem_cons_of_mem _ listed)) distinct

theorem acceptedComments_marked (posted : List PlannedThread)
    (named : ∀ placement ∈ posted, placement.findingId = String.ofList placement.finding.id.value) :
    List.Forall₂ (fun comment id => ∃ marker, commentMarker session comment = some marker ∧ markerId marker = id)
      (acceptedComments session reviewId posted) (posted.map fun placement => placement.findingId) := by
  induction posted with
  | nil => exact .nil
  | cons placement posted ih =>
      refine .cons ?_ (ih fun other listed => named other (List.mem_cons_of_mem _ listed))
      obtain ⟨marker, reads, marked⟩ := @commentMarker_posted session reviewId placement
      exact ⟨marker, reads, marked.trans (named placement List.mem_cons_self).symm⟩

-- Where the posted placements are some of the plan, recovery finds their ids in the order of the comments.
theorem CompleteListing.ids {plan : InlinePlan} (posted_sub : posted.Sublist plan.inline) :
    ∃ ids, postedIds session (plan.inline.map fun placement => placement.findingId)
        (observedComments seen.listing reviewId) [] = some ids ∧
      ids.Perm (posted.map fun placement => placement.findingId) := by
  have named : ∀ placement ∈ posted, placement.findingId = String.ofList placement.finding.id.value :=
    fun placement listed => plan.named placement (posted_sub.subset listed)
  obtain ⟨ids, marked, perm⟩ := List.perm_comp_forall₂ seen.comments (acceptedComments_marked posted named)
  have planned : ∀ id ∈ ids, id ∈ plan.inline.map fun placement => placement.findingId :=
    fun id listed => (posted_sub.map _).subset (perm.subset listed)
  have distinct : ids.Nodup := perm.nodup_iff.mpr (plan.distinct.sublist (posted_sub.map _))
  exact ⟨ids, postedIds_fit marked planned (by simpa using distinct), perm⟩

end Observed

section Recovered

-- The planned placements whose ids are posted are the posted ones.
theorem filter_posted {posted inline : List PlannedThread} (sub : posted.Sublist inline)
    (distinct : (inline.map fun placement => placement.findingId).Nodup) :
    (inline.filter fun placement => placement.findingId ∈ posted.map fun placement => placement.findingId) = posted := by
  have inPosted : ∀ placement ∈ inline,
      (placement.findingId ∈ posted.map fun placement => placement.findingId) → placement ∈ posted := by
    intro placement listed named
    obtain ⟨other, inside, same⟩ := List.mem_map.mp named
    rw [← List.inj_on_of_nodup_map distinct (sub.subset inside) listed same]
    exact inside
  have nodup : inline.Nodup := distinct.of_map _
  have kept : posted.Sublist
      (inline.filter fun placement => placement.findingId ∈ posted.map fun placement => placement.findingId) := by
    have filtered := sub.filter fun placement => placement.findingId ∈ posted.map fun placement => placement.findingId
    have whole : (posted.filter fun placement => placement.findingId ∈ posted.map fun placement => placement.findingId) = posted :=
      List.filter_eq_self.mpr fun placement listed => decide_eq_true (List.mem_map_of_mem listed)
    rwa [whole] at filtered
  have size : (inline.filter fun placement =>
      placement.findingId ∈ posted.map fun placement => placement.findingId).length ≤ posted.length := by
    apply List.Subperm.length_le
    apply (nodup.filter _).subperm
    intro placement listed
    obtain ⟨inside, named⟩ := List.mem_filter.mp listed
    exact inPosted placement inside (of_decide_eq_true named)
  exact (kept.eq_of_length_le size).symm

theorem filter_perm {posted : List PlannedThread} {ids : List String}
    (perm : ids.Perm (posted.map fun placement => placement.findingId)) (inline : List PlannedThread) (reviewId : Nat) :
    reconciledResult inline reviewId ids =
      reconciledResult inline reviewId (posted.map fun placement => placement.findingId) := by
  simp only [reconciledResult, perm.mem_iff]

-- What recovery drops is what publishing dropped.
theorem dropped_perm {inline : List PlannedThread} {result : InlinePublishResult ThreadSubject}
    (partitioned : Partitioned inline result) (sub : result.posted.Sublist inline)
    (distinct : (inline.map fun placement => placement.findingId).Nodup) (reviewId : Nat) :
    (reconciledResult inline reviewId (result.posted.map fun placement => placement.findingId)).anchorDropped.Perm
      result.anchorDropped := by
  let isPosted := fun placement : PlannedThread =>
    decide (placement.findingId ∈ result.posted.map fun placement => placement.findingId)
  have parts : (inline.filter isPosted ++ inline.filter fun placement => !isPosted placement).Perm inline :=
    List.filter_append_perm isPosted inline
  have same : inline.filter isPosted = result.posted := filter_posted sub distinct
  rw [same] at parts
  have mapped := (parts.map withoutInline).trans partitioned.parts.symm
  rw [List.map_append] at mapped
  have dropped := (List.perm_append_left_iff _).mp mapped
  have shape : (reconciledResult inline reviewId (result.posted.map fun placement => placement.findingId)).anchorDropped =
      (inline.filter fun placement => !isPosted placement).map withoutInline := by
    have negated : ∀ placement : PlannedThread, (!isPosted placement) =
        decide (placement.findingId ∉ result.posted.map fun placement => placement.findingId) :=
      fun placement => decide_not.symm
    simp only [reconciledResult, negated]
    rfl
  rw [shape]
  exact dropped

variable (before : ThreadSubject → ThreadSubject → Bool)

-- A plan is published in no more calls than it has placements, whatever they answer. Its placements are posted or dropped,
-- and those of a call that is accepted after anchor errors are the posted ones; and from a complete listing with an accepted
-- review, recovery finds the same posted placements and the same dropped ones.
theorem batch_recovered (session : BatchSession) (plan : InlinePlan) (responses : List (BatchResponse ThreadSubject))
    (enough : plan.inline.length ≤ responses.length) :
    ∃ result, publishInlineReviewComments before plan.inline responses = some result ∧
      result.posted.Sublist plan.inline ∧
      (result.posted.map withoutInline ++ result.anchorDropped).Perm (plan.inline.map withoutInline) ∧
      (∀ errors reviewId later, responses = errors.map .anchorError ++ .accepted reviewId :: later →
        errors.length < plan.inline.length →
        result.review = some reviewId ∧ result.posted = callAfter before plan.inline errors) ∧
      ∀ reviewId, result.review = some reviewId → ∀ seen : CompleteListing session reviewId result.posted,
        ∃ recovered, recover session plan.inline seen.listing = .reconciled recovered ∧
          recovered.review = some reviewId ∧ recovered.posted = result.posted ∧
          recovered.anchorDropped.Perm result.anchorDropped := by
  obtain ⟨result, published, partitioned⟩ := @publishInline_partition _ before _ plan.inlined responses enough
  have postedFrom := publishInline_posted published
  refine ⟨result, published, postedFrom.posted, partitioned.parts, fun errors reviewId later answers fewer => ?_,
    fun reviewId reviewed seen => ?_⟩
  · obtain ⟨lost, accepted⟩ := @publishInline_accepted _ before _ plan.inlined _ fewer reviewId later
    rw [← answers, published] at accepted
    obtain rfl := Option.some.inj accepted
    exact ⟨rfl, rfl⟩
  have nonempty : result.posted ≠ [] := by
    apply partitioned.reviewed
    rw [reviewed]
    exact Option.some_ne_none _
  have observed : observedComments seen.listing reviewId ≠ [] := by
    intro empty
    have size := seen.comments.length_eq
    rw [empty, acceptedComments, List.length_map] at size
    exact nonempty (List.length_eq_zero_iff.mp size.symm)
  obtain ⟨ids, found, perm⟩ := seen.ids postedFrom.posted
  refine ⟨reconciledResult plan.inline reviewId (result.posted.map fun placement => placement.findingId), ?_, rfl, ?_, ?_⟩
  · rw [recover, seen.finds]
    simp only [seen.whole]
    rw [if_neg (by decide), if_neg observed, found, ← filter_perm perm]
  · exact filter_posted postedFrom.posted plan.distinct
  · exact dropped_perm partitioned postedFrom.posted plan.distinct reviewId

def subject (id : FindingId) (line : Nat) : ThreadSubject where
  finding :=
    { severity := .p1, file := text "src/a.ts", startLine := line, endLine := line, title := text "Title",
      detail := text "Detail", fixPrompt := text "Fix", suggestedCode := none }
  id := id
  reopens := none
  relatedLinks := []
  boundPaths := []

def plannedThread (id : FindingId) (line : Nat) : PlannedThread where
  finding := subject id line
  inlineLine := some line
  inlinePosted := true
  findingId := String.ofList id.value
  reopens := none

theorem droppedId_wellFormed : isFindingId (text "f_00000000000000000000000001") = true := by decide

def droppedId : FindingId := ⟨text "f_00000000000000000000000001", droppedId_wellFormed⟩
def keptId : FindingId := ⟨text "f_00000000000000000000000002", by decide⟩

def twoThreads : InlinePlan where
  inline := [plannedThread droppedId 3, plannedThread keptId 9]
  inlined := by
    intro placement listed
    simp only [List.mem_cons, List.not_mem_nil, or_false] at listed
    rcases listed with rfl | rfl <;> exact ⟨rfl, rfl⟩
  named := by
    intro placement listed
    simp only [List.mem_cons, List.not_mem_nil, or_false] at listed
    rcases listed with rfl | rfl <;> rfl
  distinct := by decide

def reviewSession : BatchSession where
  ctx := reportedContext
  botLogin := "agent[bot]"
  source := .review
  progressCommentUrl := text "https://github.com/o/r/pull/1"
  operationDigest := ⟨"0123456789abcdef01234567", by decide, by decide, by decide⟩

-- Beside the accepted review: a review of another author, and a reply to the posted comment.
def crashedListing : CompleteListing reviewSession 7 [plannedThread keptId 9] where
  listing :=
    { reviews := [acceptedReview reviewSession 7, { id := 8, authorLogin := some "octo", body := none, commitId := none }]
      comments := acceptedComments reviewSession 7 [plannedThread keptId 9] ++
        [{ body := text "Thanks", authorLogin := "octo", pullRequestReviewId := some 8, inReplyToId := some 1 }]
      truncated := false }
  whole := rfl
  review := List.mem_cons_self
  only := by
    intro review listed published
    simp only [List.mem_cons, List.not_mem_nil, or_false] at listed
    rcases listed with rfl | rfl
    · rfl
    · cases published
  comments := .refl _

-- The first placement is dropped after a hint, the second is posted and found again.
theorem batch_recovered_hinted :
    recover reviewSession twoThreads.inline crashedListing.listing =
      .reconciled ⟨some 7, [plannedThread keptId 9], [withoutInline (plannedThread droppedId 3)]⟩ := by
  obtain ⟨result, published, _, _, _, recovers⟩ := batch_recovered (fun _ _ => true) reviewSession twoThreads
    [.anchorError fun placement => placement.inlineLine = some 3, .accepted 7] (by decide)
  have sent : result = ⟨some 7, [plannedThread keptId 9], [withoutInline (plannedThread droppedId 3)]⟩ :=
    Option.some.inj (published.symm.trans rfl)
  subst sent
  obtain ⟨recovered, found, review, posted, dropped⟩ := recovers 7 rfl crashedListing
  obtain ⟨review', posted', dropped'⟩ := recovered
  rw [found]
  simp only at review posted dropped
  rw [review, posted, List.perm_singleton.mp dropped]

end Recovered
end PrAgent.CommentMarkers
