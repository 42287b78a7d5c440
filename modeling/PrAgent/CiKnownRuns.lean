import PrAgent.CiKnown
set_option autoImplicit false

namespace PrAgent

section Unsaved

variable {order : EntryOrder} {stored : CiChecks} {facts : List CiCheckFact}

-- What the rollup reads of a fact.
def standing (fact : CiCheckFact) : CiSource × String × Option String := (fact.source, fact.status, fact.conclusion)

theorem failing_of_standing {fact fact' : CiCheckFact} (same : standing fact = standing fact') :
    isCheckFactFailing fact = isCheckFactFailing fact' := by
  simp only [standing, Prod.mk.injEq] at same
  simp only [isCheckFactFailing, same.1, same.2.1, same.2.2]

theorem pending_of_standing {fact fact' : CiCheckFact} (same : standing fact = standing fact') :
    isCheckFactPending fact = isCheckFactPending fact' := by
  simp only [standing, Prod.mk.injEq] at same
  simp only [isCheckFactPending, same.1, same.2.1, same.2.2]

theorem blocks_of_standing {fact fact' : CiCheckFact} (same : standing fact = standing fact') :
    blocksPassing fact = blocksPassing fact' := by
  rw [blocksPassing, blocksPassing, failing_of_standing same, pending_of_standing same]

theorem standing_immaterial {existing incoming : CiCheckFact} (source : existing.source = incoming.source)
    (immaterial : isMaterialCiFactChange (some existing) incoming = false) : standing existing = standing incoming := by
  simp only [isMaterialCiFactChange, Bool.or_eq_false_iff, decide_eq_false_iff_not, ne_eq, Decidable.not_not] at immaterial
  obtain ⟨⟨status, conclusion⟩, _⟩ := immaterial
  simp only [standing, source, status, conclusion]

-- A refresh that is not material leaves each check standing as it was.
theorem refresh_immaterial {merging : MergedSnapshot} (names : List String) (listed : ∀ name ∈ names, ∃ fact ∈ facts, fact.name = name)
    (within : merging.checks.rows.length ≤ ciStateMaxChecks)
    (immaterial : (names.foldl (refreshName order ciStateMaxChecks stored facts) merging).materialChange = false) :
    merging.materialChange = false ∧
      ∀ name, ((names.foldl (refreshName order ciStateMaxChecks stored facts) merging).checks.get? name).map standing =
        (merging.checks.get? name).map standing := by
  induction names generalizing merging with
  | nil => exact ⟨immaterial, fun _ => rfl⟩
  | cons name names ih =>
    obtain ⟨fact, member, rfl⟩ := listed name List.mem_cons_self
    obtain ⟨incoming, found⟩ := Option.isSome_iff_exists.mp (picked_isSome stored fact member)
    obtain ⟨_, named⟩ := picked_listed found
    rw [List.foldl_cons] at immaterial ⊢
    have later : ∀ name ∈ names, ∃ fact ∈ facts, fact.name = name := fun name' later =>
      listed name' (List.mem_cons_of_mem _ later)
    by_cases skips : passesOver merging.checks incoming
    · rw [refreshName_passed found skips] at immaterial ⊢
      exact ih later within immaterial
    · obtain ⟨sources, fresh⟩ := not_or.mp skips
      obtain ⟨spec, within', _⟩ := apply_fresh_row order fresh within (by decide)
      rw [refreshName_merged found skips] at immaterial ⊢
      obtain ⟨unchanged, rest⟩ := ih later within' immaterial
      rw [Bool.or_eq_false_iff] at unchanged
      refine ⟨unchanged.2, fun name => (rest name).trans ?_⟩
      rw [← named] at unchanged
      cases before : merging.checks.get? incoming.name with
      | none =>
        rw [before] at unchanged
        cases unchanged.1
      | some existing =>
        rw [before] at unchanged
        have source : existing.source = incoming.source := by simpa [otherSource, before] using sources
        have nobody : evictee order ciStateMaxChecks merging.checks incoming = none := by simp [evictee, before]
        rw [spec, nobody]
        by_cases own : name = incoming.name
        · rw [if_pos own, own, before]
          simp [standing_immaterial source unchanged.1]
        · simp [own]

end Unsaved

section Heads

variable (order : EntryOrder) (identity : OwnCheckIdentity)

-- The event settles no check known to be open.
def KeepsKnown (head : CiHead) : CiEvent → Prop
  | .fact fact => ¬Stale (insertedRow head.row).checks fact →
      KeepsOpen order (head.observed ++ [fact]) (insertedRow head.row).checks fact
  | .seed snapshot => (insertedRow head.row).seeded = true ∨
      SeedKeepsOpen order head.observed
        { checks := (insertedRow head.row).checks, truncated := (insertedRow head.row).truncated }
        (snapshotFacts snapshot identity .initialSeed)
  | .refresh now snapshot => ∀ row ∈ head.row,
      let facts := snapshotFacts snapshot identity (.pendingRefresh now)
      RefreshKeepsOpen order (head.observed ++ facts) row.checks facts { checks := row.checks, truncated := row.truncated }
        (namesOf facts)

structure CiHead.Known (head : CiHead) : Prop where
  remembers : Remembers head.observed (insertedRow head.row).checks []
  settled : (insertedRow head.row).rollup.settled = true →
    (classifySnapshot (insertedRow head.row).checks.values).settled = true

variable {order identity}

theorem CiHead.Known.empty : CiHead.empty.Known := ⟨Remembers.empty, fun _ => rfl⟩

theorem coerce_settled_only {rollup : CiRollup} {complete : Option Bool}
    (settled : (coerceRollupForIncompleteListing rollup complete).settled = true) : rollup.settled = true := by
  unfold coerceRollupForIncompleteListing at settled
  split at settled
  · cases settled
  · exact settled

theorem insertedRow_some (row : PrHeadCiState) : insertedRow (some row) = row := rfl

variable {row : Option PrHeadCiState}

theorem applied_stale {fact : CiCheckFact} (stale : Stale (insertedRow row).checks fact) :
    (applyPrHeadCiFact order row fact).2 = insertedRow row := by
  simp [applyPrHeadCiFact, apply_stale stale]

theorem applied_fresh (order : EntryOrder) {fact : CiCheckFact} (fresh : ¬Stale (insertedRow row).checks fact) :
    (applyPrHeadCiFact order row fact).2.checks =
      (applyCiCheckFact order (insertedRow row).checks fact ciStateMaxChecks).checks ∧
    (applyPrHeadCiFact order row fact).2.rollup =
      classifySnapshot (applyCiCheckFact order (insertedRow row).checks fact ciStateMaxChecks).checks.values := by
  have accepted := (accepted_iff order ciStateMaxChecks).mpr fresh
  simp [applyPrHeadCiFact, accepted]

theorem seeded_again {snapshot : GithubSnapshot} (seeded : (insertedRow row).seeded = true) :
    seedPrHeadCiStateFromSnapshot order identity row snapshot = insertedRow row := by
  simp [seedPrHeadCiStateFromSnapshot, seeded]

theorem seeded_first (order : EntryOrder) (identity : OwnCheckIdentity) (snapshot : GithubSnapshot)
    (unseeded : ¬(insertedRow row).seeded = true) :
    (seedPrHeadCiStateFromSnapshot order identity row snapshot).checks =
      ((snapshotFacts snapshot identity .initialSeed).foldl (seedFact order ciStateMaxChecks)
        { checks := (insertedRow row).checks, truncated := (insertedRow row).truncated }).checks ∧
    (seedPrHeadCiStateFromSnapshot order identity row snapshot).rollup =
      coerceRollupForIncompleteListing
        (classifySnapshot (seedPrHeadCiStateFromSnapshot order identity row snapshot).checks.values)
        snapshot.checkRunsComplete := by
  simp [seedPrHeadCiStateFromSnapshot, unseeded, mergeGithubSnapshotIntoChecks, mergeFacts]

theorem namesOf_listed {facts : List CiCheckFact} {name : String} (listed : name ∈ namesOf facts) :
    ∃ fact ∈ facts, fact.name = name :=
  List.mem_map.mp ((mem_keys_firsts facts name).mp listed)

theorem CiHead.Known.step {head head' : CiHead} {event : CiEvent} (known : head.Known)
    (ok : KeepsKnown order identity head event) (moved : head.step order identity event = some head') : head'.Known := by
  cases event with
  | fact fact =>
    obtain rfl := Option.some.inj moved
    have remembers := known.remembers.apply ok
    by_cases stale : Stale (insertedRow head.row).checks fact
    · rw [apply_stale stale] at remembers
      refine ⟨?_, ?_⟩
      · rw [insertedRow_some, applied_stale stale]
        exact remembers
      · rw [insertedRow_some, applied_stale stale]
        exact known.settled
    · obtain ⟨checks, rollup⟩ := applied_fresh order stale
      refine ⟨?_, ?_⟩
      · rw [insertedRow_some, checks]
        exact remembers
      · rw [insertedRow_some, checks, rollup]
        exact id
  | seed snapshot =>
    simp only [CiHead.step] at moved
    split at moved
    · next seeded =>
      obtain rfl := Option.some.inj moved
      refine ⟨?_, ?_⟩
      · rw [insertedRow_some, seeded_again seeded]
        exact known.remembers
      · rw [insertedRow_some, seeded_again seeded]
        exact known.settled
    · next unseeded =>
      obtain rfl := Option.some.inj moved
      have remembers := known.remembers.seed (ok.resolve_left unseeded)
      obtain ⟨checks, rollup⟩ := seeded_first order identity snapshot unseeded
      refine ⟨?_, ?_⟩
      · rw [insertedRow_some, checks]
        exact remembers
      · intro settled
        rw [insertedRow_some, rollup] at settled
        exact coerce_settled_only settled
  | refresh now snapshot =>
    obtain ⟨row', refreshed, rfl⟩ := Option.map_eq_some_iff.mp moved
    cases before : head.row with
    | none =>
      rw [before] at refreshed
      cases refreshed
    | some row =>
      rw [before] at refreshed
      obtain ⟨rollup, checks⟩ := refreshed_rollup refreshed
      have remembers := known.remembers
      have settled := known.settled
      rw [before, insertedRow_some] at remembers settled
      let facts := snapshotFacts snapshot identity (.pendingRefresh now)
      have names : ∀ name ∈ namesOf facts, ∃ fact ∈ facts, fact.name = name := fun name => namesOf_listed
      have covered : facts.map CiCheckFact.name ⊆ namesOf facts := fun name listed =>
        (mem_keys_firsts facts name).mpr listed
      let merging : MergedSnapshot := { checks := row.checks, truncated := row.truncated }
      have observed : Remembers (head.observed ++ facts) merging.checks (namesOf facts) :=
        (remembers.observe facts).mono covered
      have after := Remembers.refresh (fun fact => List.mem_append_right _) names observed (ok row before)
      rcases checks with ⟨same, immaterial⟩ | merged
      · subst same
        obtain ⟨_, same⟩ := refresh_immaterial (namesOf facts) names remembers.within immaterial
        refine ⟨⟨remembers.within, observed.bounded, ?_⟩, settled⟩
        intro name other open'
        obtain ⟨stored, found, blocks⟩ := after.kept name other open'
        have entry := same name
        rw [found] at entry
        obtain ⟨stored', found', same'⟩ := Option.map_eq_some_iff.mp entry.symm
        exact ⟨stored', found', (blocks_of_standing same').trans blocks⟩
      · refine ⟨?_, ?_⟩
        · rw [insertedRow_some, merged]
          exact after
        · intro settled
          rw [insertedRow_some, merged]
          rw [insertedRow_some, rollup] at settled
          exact coerce_settled_only settled

-- A full row whose only open check is the one that makes room reads as passing.
theorem full_row_forgets_open (order : EntryOrder) {row : PrHeadCiState} {fact : CiCheckFact} {evicted : String}
    (within : row.checks.rows.length ≤ ciStateMaxChecks) (fresh : ¬Stale row.checks fact)
    (gone : evictee order ciStateMaxChecks row.checks fact = some evicted) (settles : blocksPassing fact = false)
    (others : ∀ name other, row.checks.get? name = some other → name ≠ evicted → blocksPassing other = false) :
    (applyPrHeadCiFact order (some row) fact).2.rollup = .passing := by
  have fresh' : ¬Stale (insertedRow (some row)).checks fact := fresh
  obtain ⟨_, rollup⟩ := applied_fresh order fresh'
  have closed : leavesOpen order row.checks fact = false := by
    rw [leavesOpen, settles, Bool.false_or, Bool.eq_false_iff]
    intro open'
    rw [Table.any_iff] at open'
    obtain ⟨name, other, stored, kept⟩ := open'
    simp only [Bool.and_eq_true, decide_eq_true_eq, gone, ne_eq, Option.some.injEq] at kept
    have blocks := others name other stored fun same => kept.2 same.symm
    rw [kept.1.2] at blocks
    cases blocks
  have settled : (applyPrHeadCiFact order (some row) fact).2.rollup.settled = true := by
    rw [rollup]
    cases settled : (classifySnapshot _).settled with
    | true => rfl
    | false =>
      have open' := (applied_settled_iff within fresh).mp settled
      rw [closed] at open'
      cases open'
  have here : fact ∈ (applyCiCheckFact order row.checks fact ciStateMaxChecks).checks.values :=
    mem_values.mpr ⟨fact.name, fresh_get?_self fresh⟩
  rw [rollup, insertedRow_some] at settled ⊢
  unfold classifySnapshot at settled ⊢
  rw [if_neg (by simpa using List.ne_nil_of_mem here)] at settled ⊢
  split at settled
  · cases settled
  · next calm =>
    rw [if_neg calm]
    split at settled
    · cases settled
    · next quiet => rw [if_neg quiet]

-- In every run whose events settle no check known to be open, the row and the cell rendered from it never read as
-- passing or none while the latest observation of some check is failing or pending.
theorem known_open_check_never_settles (rendering : CiRendering) (identity : OwnCheckIdentity) (head : CiHead)
    (row : PrHeadCiState) (name : String) (fact : CiCheckFact)
    (reached : Reaches (CiHead.step rendering.order identity) (KeepsKnown rendering.order identity) CiHead.empty head)
    (stored : head.row = some row) (known : latest head.observed name = some fact)
    (open' : isCheckFactFailing fact = true ∨ isCheckFactPending fact = true) :
    row.rollup ≠ .passing ∧ row.rollup ≠ .none ∧
      ∀ authored availability, (projectedSummary rendering row authored availability).status ≠ .passing ∧
        (projectedSummary rendering row authored availability).status ≠ .none := by
  have invariant : head.Known := reached.invariant CiHead.Known .empty fun s event t known ok moved => known.step ok moved
  have blocks : knownOpen head.observed name = true := by simpa [knownOpen, known, blocksPassing] using open'
  have remembers := invariant.remembers
  have settled := invariant.settled
  rw [stored] at remembers settled
  obtain ⟨entry, found, blocked⟩ := remembers.kept name List.not_mem_nil blocks
  have unsettled := (values_settled_iff row.checks).mpr ⟨name, entry, found, blocked⟩
  have kept : row.rollup.settled = false := by
    cases rollup : row.rollup.settled with
    | false => rfl
    | true =>
      have closed := settled rollup
      rw [insertedRow_some, unsettled] at closed
      cases closed
  refine ⟨?_, ?_, fun authored availability => ciSummaryFromFacts_open found blocked authored _ availability⟩
  · intro passing
    rw [passing] at kept
    cases kept
  · intro none
    rw [none] at kept
    cases kept

instance (order : EntryOrder) (observed : List CiCheckFact) (checks : CiChecks) (incoming : CiCheckFact) :
    Decidable (KeepsOpen order observed checks incoming) :=
  inferInstanceAs (Decidable (_ ∧ _))

instance SeedKeepsOpen.decide (order : EntryOrder) :
    ∀ (observed : List CiCheckFact) (merging : MergedSnapshot) (facts : List CiCheckFact),
      Decidable (SeedKeepsOpen order observed merging facts)
  | _, _, [] => isTrue trivial
  | observed, merging, fact :: facts =>
    have := SeedKeepsOpen.decide order (observed ++ [fact]) (seedFact order ciStateMaxChecks merging fact) facts
    inferInstanceAs (Decidable (_ ∧ _))

instance (order : EntryOrder) (observed : List CiCheckFact) (checks : CiChecks) (incoming : CiCheckFact) :
    Decidable (NameKeepsOpen order observed checks incoming) :=
  inferInstanceAs (Decidable (ite _ _ _))

instance RefreshKeepsOpen.decide (order : EntryOrder) (observed : List CiCheckFact) (stored : CiChecks)
    (facts : List CiCheckFact) :
    ∀ (merging : MergedSnapshot) (names : List String), Decidable (RefreshKeepsOpen order observed stored facts merging names)
  | _, [] => isTrue trivial
  | merging, name :: names =>
    have := RefreshKeepsOpen.decide order observed stored facts
      (refreshName order ciStateMaxChecks stored facts merging name) names
    inferInstanceAs (Decidable (_ ∧ _))

instance (order : EntryOrder) (identity : OwnCheckIdentity) (head : CiHead) (event : CiEvent) :
    Decidable (KeepsKnown order identity head event) :=
  match event with
  | .fact _ | .seed _ | .refresh .. => by delta KeepsKnown; infer_instance

def insertionRendering : CiRendering := ⟨insertionOrder, id⟩

def buildRun (id second : Nat) (small : second ≤ 59) (conclusion : Option String) : CiCheckRunSnapshot :=
  { id, name := "build", status := if conclusion.isSome then "completed" else "in_progress", conclusion
    startedAt := some (secondOf2026 second small), completedAt := conclusion.map fun _ => secondOf2026 second small }

def completeListing (checkRuns : List CiCheckRunSnapshot) : GithubSnapshot :=
  { checkRuns, legacyStatuses := [], checkRunsComplete := some true }

theorem one_within_minute : 1 ≤ 59 := by decide

def buildPending : CiCheckFact :=
  checkRunSnapshotToFact (buildRun 1 1 one_within_minute none) (secondOf2026 1 one_within_minute).toISOString

-- A listing with two runs of one name, of which the earlier one stands last.
def twoBuildRuns : GithubSnapshot :=
  completeListing [buildRun 3 9 (by decide) (some "failure"), buildRun 2 5 (by decide) (some "success")]

def refreshedToOlderRun : List CiEvent :=
  [.seed (completeListing []), .fact buildPending, .refresh (secondOf2026 20 (by decide)) twoBuildRuns]

theorem known_failure_reads_passing :
    ∃ (head : CiHead) (row : PrHeadCiState) (fact : CiCheckFact),
      Reaches (CiHead.step insertionOrder ownIdentity) (fun _ _ => True) CiHead.empty head ∧ head.row = some row ∧
        latest head.observed "build" = some fact ∧ isCheckFactFailing fact = true ∧ row.rollup = .passing ∧
        (projectedSummary insertionRendering row none none).status = .passing :=
  ⟨_, _, _, reaches_runTo refreshedToOlderRun CiHead.empty CiHead.empty (by decide +kernel), rfl, rfl,
    by decide +kernel, by decide +kernel, by decide +kernel⟩

def refreshedToFailure : List CiEvent :=
  [.seed (completeListing []), .fact lintPassed.fact, .fact buildPending,
    .refresh (secondOf2026 20 (by decide)) (completeListing [buildRun 1 9 (by decide) (some "failure")])]

theorem known_open_check_never_settles_failing :
    ∃ row : PrHeadCiState, row.rollup ≠ .passing ∧ row.rollup ≠ .none ∧
      ∀ authored availability, (projectedSummary insertionRendering row authored availability).status ≠ .passing ∧
        (projectedSummary insertionRendering row authored availability).status ≠ .none :=
  ⟨_, known_open_check_never_settles insertionRendering ownIdentity _ _ "build" _
    (reaches_runTo refreshedToFailure CiHead.empty CiHead.empty (by decide +kernel)) rfl rfl (by decide +kernel)⟩

end Heads
end PrAgent
