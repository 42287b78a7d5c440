import PrAgent.FindingView
import PrAgent.InlinePublishPartition
set_option autoImplicit false

namespace PrAgent

variable {Finding Reaffirmed : Type}

-- How an inline batch comes to its result: it is sent, or the review of an earlier attempt is found again.
inductive InlinePublication (Finding : Type)
  | sent (responses : List (BatchResponse Finding))
  | recovered (reviewId : Nat) (seen : List (IdentifiedInlinePlacement Finding))

section Delta

variable (before : Finding → Finding → Bool) (publication : InlinePublication Finding)

def InlinePublication.result (inline : List (IdentifiedInlinePlacement Finding)) : Option (InlinePublishResult Finding) :=
  match publication with
  | .sent responses => publishInlineReviewComments before inline responses
  | .recovered reviewId seen => some (recoveredResult inline ⟨some reviewId, seen, []⟩)

-- The change of the ledger that `publishFindingBatch` returns for a decision that is not replayed.
def publishedDelta (decision : CanonicalThreadDecision Finding Reaffirmed) : Option (FindingLedgerDelta Finding Reaffirmed) :=
  match decision.resultKind with
  | .remote => (publication.result before decision.inline).map (remoteDelta false decision)
  | .empty | .budgetExhausted => some (localDelta false decision)

end Delta

section Rows

-- What an entry says of which finding.
def IdentifiedInlinePlacement.row (placement : IdentifiedInlinePlacement Finding) : Finding × String :=
  (placement.finding, placement.findingId)

def AcceptedPlacement.row (accepted : AcceptedPlacement Finding) : Finding × String :=
  (accepted.placement.finding, accepted.findingId)

@[simp] theorem row_summaryOnlyPlacement (source : FindingSource) (placement : IdentifiedInlinePlacement Finding)
    (reason : SummaryOnlyReason) : (summaryOnlyPlacement source placement reason).row = placement.row := rfl

@[simp] theorem row_postedPlacement (source : FindingSource) (reviewId : Nat) (placement : IdentifiedInlinePlacement Finding) :
    (postedPlacement source reviewId placement).row = placement.row := rfl

@[simp] theorem row_withoutInline (placement : IdentifiedInlinePlacement Finding) : (withoutInline placement).row = placement.row := rfl

variable {before : Finding → Finding → Bool} {placementKey : Finding → String}

-- The cap of an entry under its index, unless all fit.
def cappedEntry (kept : List Nat) (entry : IdentifiedInlinePlacement Finding × Nat) : IdentifiedInlinePlacement Finding :=
  if !entry.1.inlinePosted || entry.2 ∈ kept then entry.1 else withoutInline entry.1

theorem cappedEntry_row (kept : List Nat) (entry : IdentifiedInlinePlacement Finding × Nat) :
    (cappedEntry kept entry).row = entry.1.row := by
  rw [cappedEntry]
  split <;> rfl

theorem cappedEntry_posted {kept : List Nat} {entry : IdentifiedInlinePlacement Finding × Nat} :
    (cappedEntry kept entry).inlinePosted = true ↔ entry.1.inlinePosted = true ∧ entry.2 ∈ kept := by
  rw [cappedEntry]
  by_cases posted : entry.1.inlinePosted = true
  · by_cases listed : entry.2 ∈ kept <;> simp [posted, listed, withoutInline]
  · simp [posted]

theorem cappedEntry_line (kept : List Nat) (entry : IdentifiedInlinePlacement Finding × Nat) :
    (cappedEntry kept entry).inlineLine = entry.1.inlineLine := by
  rw [cappedEntry]
  split <;> rfl

theorem capped_rows (before : Finding → Finding → Bool) (placements : List (IdentifiedInlinePlacement Finding)) (cap : Nat) :
    (applyInlineCommentCap before placements cap).map IdentifiedInlinePlacement.row =
      placements.map IdentifiedInlinePlacement.row := by
  rw [applyInlineCommentCap]
  split
  · rfl
  · rw [List.map_map]
    have firsts : placements.zipIdx.map Prod.fst = placements := List.zipIdx_map_fst 0 placements
    calc placements.zipIdx.map (IdentifiedInlinePlacement.row ∘ cappedEntry (cappedIndices before placements cap))
        = placements.zipIdx.map (IdentifiedInlinePlacement.row ∘ Prod.fst) := by
          apply List.map_congr_left
          intro entry _
          exact cappedEntry_row _ entry
      _ = placements.map IdentifiedInlinePlacement.row := by rw [← List.map_map, firsts]

-- A placement with a line stays one.
theorem capped_inlined {placements : List (IdentifiedInlinePlacement Finding)}
    (lined : ∀ placement ∈ placements, placement.inlinePosted = true → placement.inlineLine.isSome = true) (cap : Nat) :
    ∀ placement ∈ inlineTargets (applyInlineCommentCap before placements cap),
      placement.inlinePosted = true ∧ placement.inlineLine.isSome = true := by
  intro placement listed
  obtain ⟨inside, posted⟩ := List.mem_filter.mp listed
  rw [applyInlineCommentCap] at inside
  split at inside
  · exact ⟨posted, lined placement inside posted⟩
  · obtain ⟨entry, here, rfl⟩ := List.mem_map.mp inside
    change (cappedEntry (cappedIndices before placements cap) entry).inlinePosted = true at posted
    have original := (cappedEntry_posted.mp posted).1
    have line := lined entry.1 (List.fst_mem_of_mem_zipIdx here) original
    rw [← cappedEntry_line (cappedIndices before placements cap) entry] at line
    exact ⟨posted, line⟩

end Rows

section Parts

variable {before : Finding → Finding → Bool} {placementKey : Finding → String}

theorem filterMap_unless {α β : Type} (p : α → Bool) (f : α → β) (entries : List α) :
    entries.filterMap (fun entry => if p entry then none else some (f entry)) = (entries.filter fun entry => !p entry).map f := by
  induction entries with
  | nil => rfl
  | cons entry rest ih =>
      by_cases skipped : p entry = true
      · simp [skipped, ih]
      · simp [skipped, ih]

-- Why a target that is not posted goes to the summary.
def summaryReason (placementKey : Finding → String) (planned : List (IdentifiedInlinePlacement Finding)) (spent : Bool)
    (placement : IdentifiedInlinePlacement Finding) : SummaryOnlyReason :=
  if spent then .budget
  else if (plannedByKey placementKey planned (placementKey placement.finding)).any (·.inlinePosted) then .cap else .anchor

theorem acceptedSummary_eq (targets : List (IdentifiedInlinePlacement Finding)) (batch : ReconciledBatch Finding Reaffirmed)
    (source : FindingSource) (spent : Bool) :
    acceptedSummaryPlacements placementKey targets batch source spent =
      batch.held.map (fun entry => summaryOnlyPlacement source entry.1 entry.2) ++
        (targets.filter fun placement => !(placement.inlinePosted && !spent)).map fun placement =>
          summaryOnlyPlacement source placement (summaryReason placementKey batch.postable spent placement) := by
  have unposted := filterMap_unless (fun placement => placement.inlinePosted && !spent)
    (fun placement => summaryOnlyPlacement source placement (summaryReason placementKey batch.postable spent placement)) targets
  rw [← unposted]
  rfl

theorem acceptedSummary_rows (targets : List (IdentifiedInlinePlacement Finding)) (batch : ReconciledBatch Finding Reaffirmed)
    (source : FindingSource) (spent : Bool) :
    (acceptedSummaryPlacements placementKey targets batch source spent).map AcceptedPlacement.row =
      batch.held.map (fun entry => entry.1.row) ++
        (targets.filter fun placement => !(placement.inlinePosted && !spent)).map IdentifiedInlinePlacement.row := by
  rw [acceptedSummary_eq, List.map_append, List.map_map, List.map_map]
  rfl

theorem recovered_partition (inline seen : List (IdentifiedInlinePlacement Finding)) (reviewId : Nat) :
    ((recoveredResult inline ⟨some reviewId, seen, []⟩).posted.map IdentifiedInlinePlacement.row ++
      (recoveredResult inline ⟨some reviewId, seen, []⟩).anchorDropped.map IdentifiedInlinePlacement.row).Perm
        (inline.map IdentifiedInlinePlacement.row) := by
  have dropped : (recoveredResult inline ⟨some reviewId, seen, []⟩).anchorDropped.map IdentifiedInlinePlacement.row =
      (inline.filter fun placement => !decide (placement.findingId ∈ seen.map (·.findingId))).map
        IdentifiedInlinePlacement.row := by
    rw [recoveredResult, List.map_map]
    rfl
  rw [dropped, ← List.map_append]
  exact (List.filter_append_perm _ inline).map _

-- Every planned placement is posted or dropped, however the batch comes to its result.
structure PublishedParts (inline : List (IdentifiedInlinePlacement Finding)) (result : InlinePublishResult Finding) : Prop where
  parts : (result.posted.map IdentifiedInlinePlacement.row ++ result.anchorDropped.map IdentifiedInlinePlacement.row).Perm
    (inline.map IdentifiedInlinePlacement.row)
  posted : result.posted.Sublist inline
  review : result.review = none → result.posted = []

theorem publication_parts {inline : List (IdentifiedInlinePlacement Finding)} {publication : InlinePublication Finding}
    {result : InlinePublishResult Finding}
    (inlined : ∀ placement ∈ inline, placement.inlinePosted = true ∧ placement.inlineLine.isSome = true)
    (published : publication.result before inline = some result) : PublishedParts inline result := by
  cases publication with
  | sent responses =>
      have partitioned := publishInline_parts inlined published
      have posted := publishInline_posted published
      refine ⟨?_, posted.posted, posted.review⟩
      have rows := partitioned.parts.map IdentifiedInlinePlacement.row
      rw [List.map_append, List.map_map, List.map_map] at rows
      exact rows
  | recovered reviewId seen =>
      cases published
      refine ⟨recovered_partition inline seen reviewId, List.filter_sublist, ?_⟩
      intro none
      cases none

end Parts

section Severity

variable {before : Finding → Finding → Bool} {placementKey : Finding → String}
  {placements : List (IdentifiedInlinePlacement Finding)}

def DistinctKeys (placementKey : Finding → String) (placements : List (IdentifiedInlinePlacement Finding)) : Prop :=
  (placements.map fun placement => placementKey placement.finding).Nodup

theorem DistinctKeys.planned (distinct : DistinctKeys placementKey placements) {placement : IdentifiedInlinePlacement Finding}
    (listed : placement ∈ placements) : plannedByKey placementKey placements (placementKey placement.finding) = some placement := by
  have inside : placement ∈ placements.filter fun other => placementKey other.finding = placementKey placement.finding := by
    simp [listed]
  obtain ⟨last, found⟩ := Option.isSome_iff_exists.mp (List.getLast?_isSome.mpr (List.ne_nil_of_mem inside))
  obtain ⟨here, same⟩ := List.mem_filter.mp (List.mem_of_getLast? found)
  have equal : last = placement := List.inj_on_of_nodup_map distinct here listed (of_decide_eq_true same)
  rw [plannedByKey, found, equal]

-- What a sorted list takes comes before what it leaves.
theorem taken_before {α : Type} {le : α → α → Bool} (trans : ∀ a b c, le a b = true → le b c = true → le a c = true)
    (total : ∀ a b, (le a b || le b a) = true) {entries : List α} {count : Nat} {first second : α}
    (taken : first ∈ (entries.mergeSort le).take count) (listed : second ∈ entries)
    (left : second ∉ (entries.mergeSort le).take count) : le first second = true := by
  have sorted := List.pairwise_mergeSort trans total entries
  rw [← List.take_append_drop count (entries.mergeSort le)] at sorted
  have rest : second ∈ (entries.mergeSort le).drop count := by
    have all : second ∈ (entries.mergeSort le).take count ++ (entries.mergeSort le).drop count := by
      rw [List.take_append_drop]
      exact List.mem_mergeSort.mpr listed
    exact (List.mem_append.mp all).resolve_left left
  exact (List.pairwise_append.mp sorted).2.2 first taken second rest

-- A target that the cap left out does not come before one that it kept.
theorem capped_before (trans : ∀ a b c, before a b = true → before b c = true → before a c = true)
    (total : ∀ a b, (before a b || before b a) = true) (distinct : DistinctKeys placementKey placements) (cap : Nat)
    {posted excluded : IdentifiedInlinePlacement Finding}
    (kept : posted ∈ inlineTargets (applyInlineCommentCap before placements cap))
    (listed : excluded ∈ applyInlineCommentCap before placements cap) (left : excluded.inlinePosted = false)
    (reason : summaryReason placementKey placements false excluded = .cap) : before posted.finding excluded.finding = true := by
  have planned : ∀ {entry : IdentifiedInlinePlacement Finding}, entry ∈ placements →
      entry.finding = excluded.finding → entry.inlinePosted = true := by
    intro entry here same
    rw [summaryReason, if_neg Bool.false_ne_true, ← same, distinct.planned here] at reason
    by_contra unposted
    rw [Option.any_some, if_neg unposted] at reason
    cases reason
  obtain ⟨inside, inline⟩ := List.mem_filter.mp kept
  rw [applyInlineCommentCap] at inside listed
  by_cases fits : (placements.filter fun placement => placement.inlinePosted).length ≤ cap
  · rw [if_pos fits] at listed
    have still := planned listed rfl
    rw [left] at still
    cases still
  · rw [if_neg fits] at inside listed
    obtain ⟨x, xHere, rfl⟩ := List.mem_map.mp inside
    obtain ⟨y, yHere, rfl⟩ := List.mem_map.mp listed
    change (cappedEntry (cappedIndices before placements cap) x).inlinePosted = true at inline
    change (cappedEntry (cappedIndices before placements cap) y).inlinePosted = false at left
    obtain ⟨xPosted, xKept⟩ := cappedEntry_posted.mp inline
    have findings : ∀ entry : IdentifiedInlinePlacement Finding × Nat,
        (cappedEntry (cappedIndices before placements cap) entry).finding = entry.1.finding := fun entry =>
      congrArg Prod.fst (cappedEntry_row _ entry)
    have yPosted : y.1.inlinePosted = true := planned (List.fst_mem_of_mem_zipIdx yHere) (findings y).symm
    have yLeft : y.2 ∉ cappedIndices before placements cap := by
      intro yKept
      rw [cappedEntry_posted.mpr ⟨yPosted, yKept⟩] at left
      cases left
    obtain ⟨z, zTaken, same⟩ := List.mem_map.mp xKept
    have zHere := (List.mem_filter.mp (List.mem_mergeSort.mp (List.mem_of_mem_take zTaken))).1
    have indices : (placements.zipIdx.map Prod.snd).Nodup := by
      rw [List.zipIdx_map_snd]
      exact List.nodup_range'
    have equal : z = x := List.inj_on_of_nodup_map indices zHere xHere same
    have order := taken_before (fun a b c => trans a.1.finding b.1.finding c.1.finding)
      (fun a b => total a.1.finding b.1.finding) (equal ▸ zTaken) (List.mem_filter.mpr ⟨yHere, yPosted⟩)
      (fun taken => yLeft (List.mem_map_of_mem taken))
    change before (cappedEntry (cappedIndices before placements cap) x).finding
      (cappedEntry (cappedIndices before placements cap) y).finding = true
    rw [findings x, findings y]
    exact order

end Severity

section Accounted

def AcceptedPlacement.isPosted : AcceptedPlacement Finding → Bool
  | .posted .. => true
  | .resumed .. | .summaryOnly .. => false

def AcceptedPlacement.reason : AcceptedPlacement Finding → Option SummaryOnlyReason
  | .summaryOnly _ _ _ reason _ => some reason
  | .posted .. | .resumed .. => none

-- Where the findings of a batch end.
structure BatchAccounted (before : Finding → Finding → Bool) (room : Nat) (batch : ReconciledBatch Finding Reaffirmed)
    (delta : FindingLedgerDelta Finding Reaffirmed) : Prop where
  rows : (delta.accepted.map AcceptedPlacement.row).Perm
    (batch.held.map (fun entry => entry.1.row) ++ batch.postable.map IdentifiedInlinePlacement.row)
  reaffirmed : delta.reaffirmed = batch.reaffirmed
  suppressed : delta.suppressedDismissedCount = batch.suppressedDismissedCount
  placed : ∀ entry ∈ delta.accepted, entry.isPosted = true ∨ entry.reason.isSome = true
  posted : (delta.accepted.filter AcceptedPlacement.isPosted).length ≤ room
  severe : ∀ entry ∈ delta.accepted, entry.isPosted = true → ∀ excluded ∈ delta.accepted, excluded.reason = some .cap →
    before entry.placement.finding excluded.placement.finding = true

variable {before : Finding → Finding → Bool} {placementKey : Finding → String} {caps : ReviewCaps}
  {source : FindingSource} {ledger : FindingLedger Finding Reaffirmed} {batch : ReconciledBatch Finding Reaffirmed}

theorem acceptedSummary_unposted {targets : List (IdentifiedInlinePlacement Finding)} {spent : Bool}
    {entry : AcceptedPlacement Finding} (listed : entry ∈ acceptedSummaryPlacements placementKey targets batch source spent) :
    entry.isPosted = false ∧ entry.reason.isSome = true := by
  rw [acceptedSummary_eq, List.mem_append] at listed
  cases listed with
  | inl held =>
      obtain ⟨_, _, rfl⟩ := List.mem_map.mp held
      exact ⟨rfl, rfl⟩
  | inr target =>
      obtain ⟨_, _, rfl⟩ := List.mem_map.mp target
      exact ⟨rfl, rfl⟩

-- A local decision posts nothing.
theorem local_accounted {targets : List (IdentifiedInlinePlacement Finding)} {spent : Bool} {room : Nat}
    {delta : FindingLedgerDelta Finding Reaffirmed}
    (accepted : delta.accepted = acceptedSummaryPlacements placementKey targets batch source spent)
    (reaffirmed : delta.reaffirmed = batch.reaffirmed)
    (suppressed : delta.suppressedDismissedCount = batch.suppressedDismissedCount)
    (rows : targets.map IdentifiedInlinePlacement.row = batch.postable.map IdentifiedInlinePlacement.row)
    (all : ∀ target ∈ targets, (target.inlinePosted && !spent) = false) : BatchAccounted before room batch delta := by
  have unposted : ∀ entry ∈ delta.accepted, entry.isPosted = false ∧ entry.reason.isSome = true := by
    intro entry listed
    rw [accepted] at listed
    exact acceptedSummary_unposted listed
  refine ⟨?_, reaffirmed, suppressed, fun entry listed => .inr (unposted entry listed).2, ?_, ?_⟩
  · have everything : (targets.filter fun placement => !(placement.inlinePosted && !spent)) = targets := by
      apply List.filter_eq_self.mpr
      intro target listed
      rw [all target listed]
      rfl
    rw [accepted, acceptedSummary_rows, everything, rows]
  · have none_ : delta.accepted.filter AcceptedPlacement.isPosted = [] := by
      apply List.filter_eq_nil_iff.mpr
      intro entry listed
      rw [(unposted entry listed).1]
      exact Bool.false_ne_true
    rw [none_]
    exact Nat.zero_le _
  · intro entry listed posted
    rw [(unposted entry listed).1] at posted
    cases posted

-- The targets of a plan.
def planTargets (before : Finding → Finding → Bool) (caps : ReviewCaps) (ledger : FindingLedger Finding Reaffirmed)
    (batch : ReconciledBatch Finding Reaffirmed) : List (IdentifiedInlinePlacement Finding) :=
  applyInlineCommentCap before batch.postable (remainingInline caps ledger)

theorem remote_accepted (decision : CanonicalThreadDecision Finding Reaffirmed) {result : InlinePublishResult Finding}
    (parts : PublishedParts decision.inline result) :
    ∃ reviewId, (remoteDelta false decision result).accepted =
      decision.localDelta.accepted ++ result.anchorDropped.map (fun placement => summaryOnlyPlacement decision.source placement .anchor) ++
        result.posted.map (postedPlacement decision.source reviewId) := by
  cases review : result.review with
  | none =>
      refine ⟨0, ?_⟩
      rw [parts.review review, List.map_nil, List.append_nil, remoteDelta, review]
      rfl
  | some reviewId =>
      refine ⟨reviewId, ?_⟩
      rw [remoteDelta, review]
      rfl

theorem remote_reaffirmed (decision : CanonicalThreadDecision Finding Reaffirmed) (result : InlinePublishResult Finding) :
    (remoteDelta false decision result).reaffirmed = decision.localDelta.reaffirmed ∧
      (remoteDelta false decision result).suppressedDismissedCount = decision.localDelta.suppressedDismissedCount := by
  cases review : result.review <;> rw [remoteDelta, review] <;> exact ⟨rfl, rfl⟩

variable (headSha : String)

theorem planned_summary {spent : Bool} (budget : threadBudgetSpent caps ledger = spent) :
    (planFindingBatch before placementKey caps headSha source ledger batch).localDelta.accepted =
      acceptedSummaryPlacements placementKey (planTargets before caps ledger batch) batch source spent := by
  rw [← budget]
  rfl

theorem remote_accounted (trans : ∀ a b c, before a b = true → before b c = true → before a c = true)
    (total : ∀ a b, (before a b || before b a) = true)
    (lined : ∀ placement ∈ batch.postable, placement.inlinePosted = true → placement.inlineLine.isSome = true)
    (distinct : DistinctKeys placementKey batch.postable) (uncapped : ∀ entry ∈ batch.held, entry.2 ≠ .cap)
    (unspent : threadBudgetSpent caps ledger = false) {publication : InlinePublication Finding}
    {result : InlinePublishResult Finding}
    (published : publication.result before (inlineTargets (planTargets before caps ledger batch)) = some result) :
    BatchAccounted before (remainingInline caps ledger) batch
      (remoteDelta false (planFindingBatch before placementKey caps headSha source ledger batch) result) := by
  have parts : PublishedParts (inlineTargets (planTargets before caps ledger batch)) result :=
    publication_parts (capped_inlined lined _) published
  have localAccepted : (planFindingBatch before placementKey caps headSha source ledger batch).localDelta.accepted =
      acceptedSummaryPlacements placementKey (planTargets before caps ledger batch) batch source false :=
    planned_summary headSha unspent
  obtain ⟨reviewId, accepted⟩ := remote_accepted (planFindingBatch before placementKey caps headSha source ledger batch) parts
  obtain ⟨reaffirmed, suppressed⟩ := remote_reaffirmed (planFindingBatch before placementKey caps headSha source ledger batch) result
  rw [localAccepted] at accepted
  have unposted : ∀ placements : List (IdentifiedInlinePlacement Finding), ∀ entry ∈
      acceptedSummaryPlacements placementKey (planTargets before caps ledger batch) batch source false ++
        placements.map (fun placement => summaryOnlyPlacement source placement .anchor),
      entry.isPosted = false ∧ entry.reason.isSome = true := by
    intro placements entry listed
    cases List.mem_append.mp listed with
    | inl summary => exact acceptedSummary_unposted summary
    | inr dropped =>
        obtain ⟨_, _, rfl⟩ := List.mem_map.mp dropped
        exact ⟨rfl, rfl⟩
  refine ⟨?_, reaffirmed, suppressed, ?_, ?_, ?_⟩
  · have targets : (planTargets before caps ledger batch).map IdentifiedInlinePlacement.row =
        batch.postable.map IdentifiedInlinePlacement.row := capped_rows before batch.postable _
    have split := (List.filter_append_perm (fun placement => placement.inlinePosted) (planTargets before caps ledger batch)).map
      IdentifiedInlinePlacement.row
    rw [List.map_append, targets] at split
    rw [accepted, List.map_append, List.map_append, acceptedSummary_rows, List.map_map, List.map_map, List.append_assoc,
      List.append_assoc]
    apply List.Perm.append_left
    refine List.Perm.trans ?_ split
    refine List.Perm.trans ?_ List.perm_append_comm
    have kept : ((planTargets before caps ledger batch).filter fun placement => !(placement.inlinePosted && !false)) =
        (planTargets before caps ledger batch).filter fun placement => !placement.inlinePosted := by
      simp only [Bool.not_false, Bool.and_true]
    rw [kept]
    apply List.Perm.append_left
    exact (List.perm_append_comm).trans parts.parts
  · intro entry listed
    rw [accepted, List.mem_append] at listed
    cases listed with
    | inl summary => exact .inr (unposted _ entry summary).2
    | inr posted =>
        obtain ⟨_, _, rfl⟩ := List.mem_map.mp posted
        exact .inl rfl
  · have summaries : (acceptedSummaryPlacements placementKey (planTargets before caps ledger batch) batch source false ++
        result.anchorDropped.map (fun placement => summaryOnlyPlacement source placement .anchor)).filter
          AcceptedPlacement.isPosted = [] := by
      apply List.filter_eq_nil_iff.mpr
      intro entry listed
      rw [(unposted _ entry listed).1]
      exact Bool.false_ne_true
    rw [accepted, List.filter_append]
    change (List.filter AcceptedPlacement.isPosted (acceptedSummaryPlacements placementKey (planTargets before caps ledger batch)
      batch source false ++ result.anchorDropped.map (fun placement => summaryOnlyPlacement source placement .anchor)) ++ _).length ≤ _
    rw [summaries, List.nil_append]
    have few := List.length_filter_le AcceptedPlacement.isPosted (result.posted.map (postedPlacement source reviewId))
    rw [List.length_map] at few
    exact few.trans (parts.posted.length_le.trans (length_inline_capped before batch.postable _))
  · intro entry listed posted excluded elsewhere reason
    rw [accepted, List.mem_append] at listed elsewhere
    have sent : entry ∈ result.posted.map (postedPlacement source reviewId) := by
      cases listed with
      | inl summary =>
          rw [(unposted _ entry summary).1] at posted
          cases posted
      | inr here => exact here
    obtain ⟨placement, here, rfl⟩ := List.mem_map.mp sent
    cases elsewhere with
    | inr there =>
        obtain ⟨_, _, rfl⟩ := List.mem_map.mp there
        cases reason
    | inl summary =>
        cases List.mem_append.mp summary with
        | inr dropped =>
            obtain ⟨_, _, rfl⟩ := List.mem_map.mp dropped
            cases reason
        | inl capped =>
            rw [acceptedSummary_eq, List.mem_append] at capped
            cases capped with
            | inl held =>
                obtain ⟨entry, listed, rfl⟩ := List.mem_map.mp held
                exact absurd (Option.some.inj reason) (uncapped entry listed)
            | inr target =>
                obtain ⟨other, inside, rfl⟩ := List.mem_map.mp target
                obtain ⟨planned, left⟩ := List.mem_filter.mp inside
                have unposted_ : other.inlinePosted = false := by simpa using left
                exact capped_before trans total distinct (remainingInline caps ledger) (parts.posted.mem here) planned unposted_
                  (Option.some.inj reason)

-- Whatever is published, each finding of a reconciled batch ends in one place.
theorem batch_accounted (trans : ∀ a b c, before a b = true → before b c = true → before a c = true)
    (total : ∀ a b, (before a b || before b a) = true)
    (lined : ∀ placement ∈ batch.postable, placement.inlinePosted = true → placement.inlineLine.isSome = true)
    (distinct : DistinctKeys placementKey batch.postable) (uncapped : ∀ entry ∈ batch.held, entry.2 ≠ .cap)
    {publication : InlinePublication Finding} {delta : FindingLedgerDelta Finding Reaffirmed}
    (published : publishedDelta before publication (planFindingBatch before placementKey caps headSha source ledger batch) = some delta) :
    BatchAccounted before (remainingInline caps ledger) batch delta := by
  have rows : (planTargets before caps ledger batch).map IdentifiedInlinePlacement.row =
      batch.postable.map IdentifiedInlinePlacement.row := capped_rows before batch.postable _
  by_cases spent : threadBudgetSpent caps ledger = true
  · have kind : (planFindingBatch before placementKey caps headSha source ledger batch).resultKind = .budgetExhausted := if_pos spent
    rw [publishedDelta, kind] at published
    cases published
    apply local_accounted (planned_summary headSha spent) rfl rfl rows
    intro target _
    rw [Bool.not_true, Bool.and_false]
  · have unspent := Bool.eq_false_iff.mpr spent
    by_cases empty : (inlineTargets (planTargets before caps ledger batch)).isEmpty = true
    · have kind : (planFindingBatch before placementKey caps headSha source ledger batch).resultKind = .empty := by
        change (if threadBudgetSpent caps ledger then BatchResultKind.budgetExhausted else
          if (inlineTargets (planTargets before caps ledger batch)).isEmpty then .empty else .remote) = .empty
        rw [if_neg spent, if_pos empty]
      rw [publishedDelta, kind] at published
      cases published
      apply local_accounted (planned_summary headSha unspent) rfl rfl rows
      intro target listed
      have unposted := List.filter_eq_nil_iff.mp (List.isEmpty_iff.mp empty) target listed
      rw [Bool.not_false, Bool.and_true]
      exact Bool.eq_false_iff.mpr unposted
    · have kind : (planFindingBatch before placementKey caps headSha source ledger batch).resultKind = .remote := by
        change (if threadBudgetSpent caps ledger then BatchResultKind.budgetExhausted else
          if (inlineTargets (planTargets before caps ledger batch)).isEmpty then .empty else .remote) = .remote
        rw [if_neg spent, if_neg empty]
      rw [publishedDelta, kind] at published
      obtain ⟨result, sent, rfl⟩ := Option.map_eq_some_iff.mp published
      exact remote_accounted headSha trans total lined distinct uncapped unspent sent

end Accounted

end PrAgent
