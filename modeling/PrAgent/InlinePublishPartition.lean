import PrAgent.FindingBatch
set_option autoImplicit false

namespace PrAgent

variable {Finding : Type} {before : Finding → Finding → Bool}

def withoutInline (placement : IdentifiedInlinePlacement Finding) : IdentifiedInlinePlacement Finding :=
  { placement with inlinePosted := false }

section Drop

abbrev Attempt (Finding : Type) := List (IdentifiedInlinePlacement Finding × Nat)

variable {dropOrder attempt : Attempt Finding}

-- The placements that are still attempted, each under its index in the order of dropping.
structure IndexedAttempt (dropOrder attempt : Attempt Finding) : Prop where
  listed : ∀ entry ∈ attempt, entry ∈ dropOrder
  indexed : (dropOrder.map Prod.snd).Nodup
  nodup : attempt.Nodup

variable (attempted : IndexedAttempt dropOrder attempt)
include attempted

theorem IndexedAttempt.same_entry {first second : IdentifiedInlinePlacement Finding × Nat}
    (here : first ∈ dropOrder) (there : second ∈ dropOrder) (same : first.2 = second.2) : first = second :=
  List.inj_on_of_nodup_map attempted.indexed here there same

-- An error drops one placement of the attempt.
theorem IndexedAttempt.drop (nonempty : attempt ≠ [])
    (hinted : IdentifiedInlinePlacement Finding → Bool) :
    ∃ entry ∈ attempt, lineResolutionDrop dropOrder attempt hinted = [entry] := by
  rw [lineResolutionDrop]
  by_cases one : (attempt.filter fun entry => hinted entry.1).length = 1
  · obtain ⟨entry, single⟩ := List.length_eq_one_iff.mp one
    have inside : entry ∈ attempt.filter fun entry => hinted entry.1 := by
      rw [single]
      exact List.mem_singleton_self entry
    exact ⟨entry, List.mem_of_mem_filter inside, by rw [if_pos one, single]⟩
  · rw [if_neg one]
    obtain ⟨first, rest, rfl⟩ := List.exists_cons_of_ne_nil nonempty
    have index : first.2 ∈ (first :: rest).map Prod.snd := List.mem_map_of_mem List.mem_cons_self
    have found : (dropOrder.find? fun entry => entry.2 ∈ (first :: rest).map Prod.snd).isSome = true := by
      apply List.find?_isSome.mpr
      exact ⟨first, attempted.listed first List.mem_cons_self, decide_eq_true index⟩
    obtain ⟨entry, here⟩ := Option.isSome_iff_exists.mp found
    have ordered := List.mem_of_find?_eq_some here
    have indexed := List.find?_some here
    obtain ⟨other, inside, same⟩ := List.mem_map.mp (of_decide_eq_true indexed)
    have equal := attempted.same_entry (attempted.listed other inside) ordered same
    exact ⟨entry, equal ▸ inside, by rw [here]; rfl⟩

theorem IndexedAttempt.remaining {entry : IdentifiedInlinePlacement Finding × Nat}
    (inside : entry ∈ attempt) : attempt.Perm (entry :: withoutDropped attempt [entry]) := by
  classical
  have same : withoutDropped attempt [entry] = attempt.filter fun other => decide (other ≠ entry) := by
    apply List.filter_congr
    intro other listed
    apply decide_eq_decide.mpr
    rw [List.map_singleton, List.mem_singleton]
    constructor
    · intro differ equal
      exact differ (congrArg Prod.snd equal)
    · intro differ equal
      exact differ (attempted.same_entry (attempted.listed other listed) (attempted.listed entry inside) equal)
  rw [same]
  have erased := attempted.nodup.erase_eq_filter entry
  have perm := List.perm_cons_erase inside
  rw [erased] at perm
  refine perm.trans (List.Perm.of_eq ?_)
  congr 1
  apply List.filter_congr
  intro other _
  by_cases equal : other = entry <;> simp [equal, bne]

theorem IndexedAttempt.without (drop : Attempt Finding) :
    IndexedAttempt dropOrder (withoutDropped attempt drop) :=
  ⟨fun entry listed => attempted.listed entry (List.mem_of_mem_filter listed), attempted.indexed, attempted.nodup.filter _⟩

end Drop

section Run

-- What publishing a plan comes to: every planned placement is posted or dropped, and a review has a posted one.
structure Partitioned (inline : List (IdentifiedInlinePlacement Finding)) (result : InlinePublishResult Finding) : Prop where
  parts : (result.posted.map withoutInline ++ result.anchorDropped).Perm (inline.map withoutInline)
  reviewed : result.review ≠ none → result.posted ≠ []

theorem publishAttempts_parts {dropOrder : Attempt Finding} {inline : List (IdentifiedInlinePlacement Finding)}
    {responses : List (BatchResponse Finding)} {attempt : Attempt Finding} {dropped : List (IdentifiedInlinePlacement Finding)}
    {result : InlinePublishResult Finding} (attempted : IndexedAttempt dropOrder attempt)
    (parts : (attempt.map (fun entry => withoutInline entry.1) ++ dropped).Perm (inline.map withoutInline))
    (published : publishAttempts dropOrder responses attempt dropped = some result) : Partitioned inline result := by
  induction responses generalizing attempt dropped with
  | nil =>
      cases attempt with
      | nil =>
          cases published
          exact ⟨parts, fun review => absurd rfl review⟩
      | cons entry attempt => cases published
  | cons response rest ih =>
      by_cases empty : attempt = []
      · rw [empty, publishAttempts] at published
        cases published
        rw [empty] at parts
        exact ⟨parts, fun review => absurd rfl review⟩
      · obtain ⟨first, others, shape⟩ := List.exists_cons_of_ne_nil empty
        cases response with
        | accepted reviewId =>
            rw [shape] at published
            cases published
            constructor
            · rw [← shape, List.map_map]
              exact parts
            · intro _ none
              cases none
        | anchorError hinted =>
            obtain ⟨entry, inside, drop⟩ := attempted.drop empty hinted
            have remaining := attempted.remaining inside
            have parts' : ((withoutDropped attempt [entry]).map (fun entry => withoutInline entry.1) ++
                (dropped ++ [withoutInline entry.1])).Perm (inline.map withoutInline) := by
              refine List.Perm.trans ?_ parts
              have moved := (remaining.map fun entry => withoutInline entry.1).symm.append_right dropped
              rw [List.map_cons, List.cons_append] at moved
              refine List.Perm.trans ?_ moved
              rw [← List.append_assoc]
              exact List.perm_append_singleton _ _
            rw [shape] at published
            simp only [publishAttempts] at published
            rw [← shape, drop] at published
            exact ih (attempted.without [entry]) parts' published

-- Every error drops a placement.
theorem publishAttempts_ends {dropOrder : Attempt Finding} {responses : List (BatchResponse Finding)} {attempt : Attempt Finding}
    (dropped : List (IdentifiedInlinePlacement Finding)) (attempted : IndexedAttempt dropOrder attempt)
    (enough : attempt.length ≤ responses.length) :
    ∃ result, publishAttempts dropOrder responses attempt dropped = some result := by
  induction responses generalizing attempt dropped with
  | nil =>
      obtain rfl := List.length_eq_zero_iff.mp (Nat.le_zero.mp enough)
      exact ⟨_, rfl⟩
  | cons response rest ih =>
      by_cases empty : attempt = []
      · rw [empty, publishAttempts]
        exact ⟨_, rfl⟩
      · obtain ⟨first, others, shape⟩ := List.exists_cons_of_ne_nil empty
        cases response with
        | accepted reviewId =>
            rw [shape]
            exact ⟨_, rfl⟩
        | anchorError hinted =>
            obtain ⟨entry, inside, drop⟩ := attempted.drop empty hinted
            have size := (attempted.remaining inside).length_eq
            rw [List.length_cons] at size enough
            rw [shape]
            simp only [publishAttempts]
            rw [← shape, drop]
            exact ih _ (attempted.without [entry]) (by omega)

-- What the call after these anchor errors carries.
def attemptAfter (dropOrder attempt : Attempt Finding) (errors : List (IdentifiedInlinePlacement Finding → Bool)) :
    Attempt Finding :=
  errors.foldl (fun attempt hinted => withoutDropped attempt (lineResolutionDrop dropOrder attempt hinted)) attempt

-- A call that is accepted after fewer errors than there are placements posts the placements that it carries.
theorem publishAttempts_accepted {dropOrder attempt : Attempt Finding} {errors : List (IdentifiedInlinePlacement Finding → Bool)}
    (reviewId : Nat) (later : List (BatchResponse Finding)) (dropped : List (IdentifiedInlinePlacement Finding))
    (attempted : IndexedAttempt dropOrder attempt) (fewer : errors.length < attempt.length) :
    ∃ lost, publishAttempts dropOrder (errors.map .anchorError ++ .accepted reviewId :: later) attempt dropped =
      some ⟨some reviewId, (attemptAfter dropOrder attempt errors).map Prod.fst, lost⟩ := by
  obtain ⟨first, others, rfl⟩ := List.exists_cons_of_length_pos (Nat.zero_lt_of_lt fewer)
  induction errors generalizing first others dropped with
  | nil => exact ⟨dropped, rfl⟩
  | cons hinted rest ih =>
    obtain ⟨entry, inside, drop⟩ := attempted.drop (List.cons_ne_nil first others) hinted
    have size := (attempted.remaining inside).length_eq
    have left := attempted.without [entry]
    obtain ⟨next, more, shape⟩ := List.exists_cons_of_length_pos
      (show 0 < (withoutDropped (first :: others) [entry]).length by simp only [List.length_cons] at size fewer; omega)
    rw [shape] at size left
    obtain ⟨lost, posted⟩ := ih (dropped ++ [withoutInline entry.1]) next more left
      (by simp only [List.length_cons] at size fewer ⊢; omega)
    refine ⟨lost, ?_⟩
    simp only [attemptAfter, List.foldl_cons, List.map_cons, List.cons_append, publishAttempts, drop, shape]
    exact posted

section Inline

-- The placements of the call of a plan after these anchor errors.
def callAfter (before : Finding → Finding → Bool) (inline : List (IdentifiedInlinePlacement Finding))
    (errors : List (IdentifiedInlinePlacement Finding → Bool)) : List (IdentifiedInlinePlacement Finding) :=
  (attemptAfter (inline.zipIdx.mergeSort fun a b => before b.1.finding a.1.finding) inline.zipIdx errors).map Prod.fst

variable {inline : List (IdentifiedInlinePlacement Finding)}

-- What `publishInlineReviewComments` starts from.
theorem inline_attempt (before : Finding → Finding → Bool)
    (inlined : ∀ placement ∈ inline, placement.inlinePosted = true ∧ placement.inlineLine.isSome = true) :
    IndexedAttempt (inline.zipIdx.mergeSort fun a b => before b.1.finding a.1.finding) inline.zipIdx ∧
      (inline.filter fun placement => placement.inlinePosted && placement.inlineLine.isSome) = inline ∧
        (inline.zipIdx.map (fun entry : IdentifiedInlinePlacement Finding × Nat => withoutInline entry.1) ++ []).Perm (inline.map withoutInline) := by
  have sorted := List.mergeSort_perm inline.zipIdx fun a b => before b.1.finding a.1.finding
  have indices : (inline.zipIdx.map Prod.snd).Nodup := by
    rw [List.zipIdx_map_snd]
    exact List.nodup_range'
  constructor
  · exact ⟨fun entry listed => sorted.mem_iff.mpr listed, (sorted.map Prod.snd).nodup_iff.mpr indices, indices.of_map _⟩
  · constructor
    · apply List.filter_eq_self.mpr
      intro placement listed
      rw [(inlined placement listed).1, (inlined placement listed).2]
      rfl
    · have whole : inline.zipIdx.map Prod.fst = inline := List.zipIdx_map_fst 0 inline
      have firsts : inline.zipIdx.map (fun entry => withoutInline entry.1) = inline.map withoutInline := by
        calc inline.zipIdx.map (fun entry => withoutInline entry.1)
            = (inline.zipIdx.map Prod.fst).map withoutInline := by rw [List.map_map]; rfl
          _ = inline.map withoutInline := by rw [whole]
      rw [List.append_nil, firsts]

theorem publishInline_parts {responses : List (BatchResponse Finding)} {result : InlinePublishResult Finding}
    (inlined : ∀ placement ∈ inline, placement.inlinePosted = true ∧ placement.inlineLine.isSome = true)
    (published : publishInlineReviewComments before inline responses = some result) : Partitioned inline result := by
  obtain ⟨attempted, all, parts⟩ := inline_attempt before inlined
  rw [publishInlineReviewComments, all] at published
  exact publishAttempts_parts attempted parts published

-- Publishing ends after no more calls than there are planned placements, whatever the calls answer.
theorem publishInline_partition
    (inlined : ∀ placement ∈ inline, placement.inlinePosted = true ∧ placement.inlineLine.isSome = true)
    (responses : List (BatchResponse Finding)) (enough : inline.length ≤ responses.length) :
    ∃ result, publishInlineReviewComments before inline responses = some result ∧ Partitioned inline result := by
  obtain ⟨attempted, all, parts⟩ := inline_attempt before inlined
  have ends : ∃ result, publishInlineReviewComments before inline responses = some result := by
    rw [publishInlineReviewComments, all]
    apply publishAttempts_ends [] attempted
    rw [List.length_zipIdx]
    exact enough
  obtain ⟨result, published⟩ := ends
  exact ⟨result, published, publishInline_parts inlined published⟩

theorem publishInline_accepted
    (inlined : ∀ placement ∈ inline, placement.inlinePosted = true ∧ placement.inlineLine.isSome = true)
    {errors : List (IdentifiedInlinePlacement Finding → Bool)} (fewer : errors.length < inline.length) (reviewId : Nat)
    (later : List (BatchResponse Finding)) :
    ∃ lost, publishInlineReviewComments before inline (errors.map .anchorError ++ .accepted reviewId :: later) =
      some ⟨some reviewId, callAfter before inline errors, lost⟩ := by
  obtain ⟨attempted, all, -⟩ := inline_attempt before inlined
  rw [publishInlineReviewComments, all]
  exact publishAttempts_accepted reviewId later [] attempted (by rw [List.length_zipIdx]; exact fewer)

end Inline

end Run
end PrAgent
