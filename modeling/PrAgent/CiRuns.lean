import PrAgent.CiConvergence
import PrAgent.Run
set_option autoImplicit false

namespace PrAgent

section Eviction

variable {order : EntryOrder} {current : CiChecks} {incoming : CiCheckFact} {maxChecks : Nat}

theorem oldestOther_listed {incomingName : String} {entries : List (String × CiCheckFact)} {evict oldest : String}
    (found : oldestOther incomingName entries = some (evict, oldest)) : ∃ fact, (evict, fact) ∈ entries := by
  unfold oldestOther at found
  induction entries using List.reverseRecOn generalizing evict oldest with
  | nil => cases found
  | append_singleton entries entry ih =>
    simp only [List.foldl_append, List.foldl_cons, List.foldl_nil] at found
    have last : ∃ fact, (entry.1, fact) ∈ entries ++ [entry] := ⟨entry.2, by simp⟩
    have earlier : ∀ {evict oldest}, oldestOther incomingName entries = some (evict, oldest) →
        ∃ fact, (evict, fact) ∈ entries ++ [entry] := by
      intro evict oldest before
      obtain ⟨fact, listed⟩ := ih before
      exact ⟨fact, List.mem_append_left _ listed⟩
    split at found
    · exact earlier found
    · split at found
      · obtain ⟨rfl, _⟩ := Prod.mk.inj (Option.some.inj found)
        exact last
      · next before =>
        split at found
        · obtain ⟨rfl, _⟩ := Prod.mk.inj (Option.some.inj found)
          exact last
        · exact earlier found

theorem oldestOther_isSome {incomingName : String} {entries : List (String × CiCheckFact)} {entry : String × CiCheckFact}
    (listed : entry ∈ entries) (other : entry.1 ≠ incomingName) : (oldestOther incomingName entries).isSome := by
  unfold oldestOther
  induction entries using List.reverseRecOn with
  | nil => cases listed
  | append_singleton entries last ih =>
    simp only [List.foldl_append, List.foldl_cons, List.foldl_nil]
    rcases List.mem_append.mp listed with earlier | final
    · obtain ⟨⟨evict, oldest⟩, before⟩ := Option.isSome_iff_exists.mp (ih earlier)
      rw [before]
      split
      · rfl
      · simp only
        split <;> rfl
    · obtain rfl := List.mem_singleton.mp final
      rw [if_neg other]
      split
      · rfl
      · next before =>
        split
        · rfl
        · rw [before]
          rfl

-- The check that makes room for a new one in a full row.
def evictee (order : EntryOrder) (maxChecks : Nat) (current : CiChecks) (incoming : CiCheckFact) : Option String :=
  if (current.get? incoming.name).isNone && current.rows.length ≥ maxChecks then
    (oldestOther incoming.name (order.entries (current.set incoming.name incoming))).map Prod.fst
  else none

theorem write_length {K R : Type} [DecidableEq K] (key : K) (row : R) (rows : List (K × R)) :
    (Table.write key row rows).length = if (Table.lookup key rows).isSome then rows.length else rows.length + 1 := by
  induction rows with
  | nil => rfl
  | cons head rest ih =>
    obtain ⟨k, old⟩ := head
    by_cases same : k = key
    · simp [Table.write, Table.lookup, same]
    · simp only [Table.write, Table.lookup, same, if_false, List.length_cons, ih]
      split <;> rfl

theorem set_length (current : CiChecks) (incoming : CiCheckFact) :
    (current.set incoming.name incoming).rows.length =
      if (current.get? incoming.name).isSome then current.rows.length else current.rows.length + 1 :=
  write_length incoming.name incoming current.rows

theorem erase_length {checks : CiChecks} {name : String} {fact : CiCheckFact} (stored : checks.get? name = some fact) :
    (checks.erase name).rows.length + 1 = checks.rows.length := by
  have total := Table.sum_erase stored (fun _ _ => 1)
  have count : ∀ table : CiChecks, table.sum (fun _ _ => 1) = table.rows.length := by
    intro table
    simp [Table.sum]
  rw [count, count] at total
  exact total

-- A fresh fact in a row within its cap: the entry is set, and at most one other check makes room.
theorem apply_fresh_row (order : EntryOrder) (fresh : ¬Stale current incoming) (within : current.rows.length ≤ maxChecks)
    (positive : 0 < maxChecks) :
    (∀ name, (applyCiCheckFact order current incoming maxChecks).checks.get? name =
      if name = incoming.name then some incoming
      else if evictee order maxChecks current incoming = some name then none else current.get? name) ∧
      (applyCiCheckFact order current incoming maxChecks).checks.rows.length ≤ maxChecks ∧
      (applyCiCheckFact order current incoming maxChecks).truncated =
        (evictee order maxChecks current incoming).isSome := by
  have lengths := set_length current incoming
  by_cases full : (current.get? incoming.name).isNone ∧ current.rows.length ≥ maxChecks
  · have new : current.get? incoming.name = none := by simpa using full.1
    rw [new] at lengths
    have beyond : (current.set incoming.name incoming).rows.length > maxChecks := by
      have grown : (current.set incoming.name incoming).rows.length = current.rows.length + 1 := by simpa using lengths
      omega
    have victims : evictee order maxChecks current incoming =
        (oldestOther incoming.name (order.entries (current.set incoming.name incoming))).map Prod.fst := by
      simp [evictee, new, full.2]
    obtain ⟨⟨name, fact⟩, row⟩ : ∃ entry, entry ∈ current.rows := by
      cases rows : current.rows with
      | nil =>
        rw [rows] at full
        simp at full
        omega
      | cons entry rest => exact ⟨entry, List.mem_cons_self⟩
    have stored := (Table.get?_eq_some_iff current name fact).mpr row
    have other := Table.ne_of_stored stored new
    have listed : (name, fact) ∈ order.entries (current.set incoming.name incoming) := by
      rw [(order.perm _).mem_iff, ← Table.get?_eq_some_iff, Table.get?_set_of_ne _ _ _ other]
      exact stored
    obtain ⟨⟨evict, oldest⟩, found⟩ := Option.isSome_iff_exists.mp (oldestOther_isSome listed other)
    have evictOther := oldestOther_other found
    obtain ⟨gone, present⟩ := oldestOther_listed found
    rw [(order.perm _).mem_iff, ← Table.get?_eq_some_iff] at present
    have shorter := erase_length present
    obtain ⟨rounds, count⟩ : ∃ rounds, (current.set incoming.name incoming).rows.length = rounds + 1 :=
      ⟨_, (Nat.succ_pred_eq_of_pos (by omega)).symm⟩
    have grown : (current.set incoming.name incoming).rows.length = current.rows.length + 1 := by simpa using lengths
    have fits : ((current.set incoming.name incoming).erase evict).rows.length ≤ maxChecks := by omega
    have evicted : applyCiCheckFact order current incoming maxChecks =
        { checks := (current.set incoming.name incoming).erase evict, accepted := true, truncated := true } := by
      rw [apply_fresh fresh, count, evictOverflow, if_pos beyond, found]
      simp only [evictOverflow_of_le fits]
    rw [victims, found, evicted]
    refine ⟨fun name => ?_, fits, rfl⟩
    rw [Table.get?_erase, Table.get?_set]
    by_cases isEvicted : name = evict
    · subst isEvicted
      rw [if_pos rfl, if_neg evictOther, if_pos (by rfl)]
    · have ne : ¬Option.map Prod.fst (some (evict, oldest)) = some name := by
        simpa using fun same => isEvicted same.symm
      rw [if_neg isEvicted, if_neg ne]
  · have fits : (current.set incoming.name incoming).rows.length ≤ maxChecks := by
      rw [lengths]
      split
      · exact within
      · next absent =>
        have new : (current.get? incoming.name).isNone := by simpa using absent
        have room : ¬current.rows.length ≥ maxChecks := fun atCap => full ⟨new, atCap⟩
        omega
    have nobody : evictee order maxChecks current incoming = none := by
      rw [evictee, if_neg (by simpa using full)]
    rw [nobody, apply_of_fits fresh fits]
    refine ⟨fun name => ?_, fits, rfl⟩
    rw [Table.get?_set, if_neg (show ¬(none : Option String) = some name by simp)]

end Eviction

section Rollups

-- A fact that keeps a head from reading as passing.
def blocksPassing (fact : CiCheckFact) : Bool := isCheckFactFailing fact || isCheckFactPending fact

theorem classify_open_iff (facts : List CiCheckFact) :
    (classifySnapshot facts = .failing ∨ classifySnapshot facts = .pending) ↔ ∃ fact ∈ facts, blocksPassing fact = true := by
  unfold classifySnapshot
  by_cases empty : facts.isEmpty = true
  · rw [if_pos empty]
    obtain rfl := List.isEmpty_iff.mp empty
    simp
  · rw [if_neg empty]
    by_cases failing : facts.any isCheckFactFailing = true
    · obtain ⟨fact, listed, fails⟩ := List.any_eq_true.mp failing
      rw [if_pos failing]
      exact ⟨fun _ => ⟨fact, listed, by simp [blocksPassing, fails]⟩, fun _ => .inl rfl⟩
    · rw [if_neg failing]
      have none_fails : ∀ fact ∈ facts, isCheckFactFailing fact = false := by simpa using failing
      by_cases pending : facts.any isCheckFactPending = true
      · obtain ⟨fact, listed, waits⟩ := List.any_eq_true.mp pending
        rw [if_pos pending]
        exact ⟨fun _ => ⟨fact, listed, by simp [blocksPassing, waits]⟩, fun _ => .inr rfl⟩
      · have none_waits : ∀ fact ∈ facts, isCheckFactPending fact = false := by simpa using pending
        rw [if_neg pending]
        constructor
        · rintro (settled | settled) <;> cases settled
        · rintro ⟨fact, listed, blocks⟩
          simp [blocksPassing, none_fails fact listed, none_waits fact listed] at blocks

theorem classify_ne_unknown (facts : List CiCheckFact) : classifySnapshot facts ≠ .unknown := by
  unfold classifySnapshot
  split
  · exact nofun
  · split
    · exact nofun
    · split <;> exact nofun

-- Settled: the rollup reads as passing or as no checks at all.
def CiRollup.settled (rollup : CiRollup) : Bool := rollup = .passing || rollup = .none

theorem classify_settled_iff (facts : List CiCheckFact) :
    (classifySnapshot facts).settled = false ↔ ∃ fact ∈ facts, blocksPassing fact = true := by
  rw [← classify_open_iff]
  have known := classify_ne_unknown facts
  cases rollup : classifySnapshot facts with
  | unknown => exact absurd rollup known
  | pending | passing | failing | none => simp [CiRollup.settled]

theorem values_settled_iff (checks : CiChecks) :
    (classifySnapshot checks.values).settled = false ↔
      ∃ name fact, checks.get? name = some fact ∧ blocksPassing fact = true := by
  rw [classify_settled_iff]
  constructor
  · rintro ⟨fact, listed, blocks⟩
    obtain ⟨name, stored⟩ := mem_values.mp listed
    exact ⟨name, fact, stored, blocks⟩
  · rintro ⟨name, fact, stored, blocks⟩
    exact ⟨fact, mem_values.mpr ⟨name, stored⟩, blocks⟩

theorem coerce_settled (rollup : CiRollup) : (coerceRollupForIncompleteListing rollup (some false)).settled = false := by
  cases rollup <;> rfl

end Rollups

section Runs

-- The row of one head, with what a reader of the whole run knows: whether the snapshot merged last was complete, and
-- every fact delivered and every entry of a merged snapshot, oldest first.
structure CiHead where
  row : Option PrHeadCiState
  listing : Option (Option Bool)
  observed : List CiCheckFact

inductive CiEvent
  | fact (fact : CiCheckFact)
  | seed (snapshot : GithubSnapshot)
  | refresh (now : UtcTime) (snapshot : GithubSnapshot)

variable (order : EntryOrder) (identity : OwnCheckIdentity)

def CiHead.step (head : CiHead) : CiEvent → Option CiHead
  | .fact fact =>
    some { head with row := some (applyPrHeadCiFact order head.row fact).2, observed := head.observed ++ [fact] }
  | .seed snapshot =>
    let row := seedPrHeadCiStateFromSnapshot order identity head.row snapshot
    if (insertedRow head.row).seeded then some { head with row := some row }
    else
      some { row := some row, listing := some snapshot.checkRunsComplete
             observed := head.observed ++ snapshotFacts snapshot identity .initialSeed }
  | .refresh now snapshot =>
    (refreshPrHeadCiFromGithubSnapshot order identity now head.row snapshot).map fun row =>
      { row := some row, listing := some snapshot.checkRunsComplete
        observed := head.observed ++ snapshotFacts snapshot identity (.pendingRefresh now) }

def CiHead.empty : CiHead := { row := none, listing := none, observed := [] }

end Runs

section Listings

variable (order : EntryOrder) (identity : OwnCheckIdentity)

def CiHead.incomplete (head : CiHead) : Bool := head.listing = some (some false)

-- After the fact replaces its entry, a failing or pending check is left in the row.
def leavesOpen (checks : CiChecks) (fact : CiCheckFact) : Bool :=
  blocksPassing fact || checks.any fun name other =>
    name ≠ fact.name && blocksPassing other && evictee order ciStateMaxChecks checks fact ≠ some name

-- A fact that is applied while the last listing was incomplete leaves a failing or pending check.
def FactLeavesOpen (head : CiHead) : CiEvent → Prop
  | .fact fact => head.incomplete = true → ∀ row ∈ head.row, Stale row.checks fact ∨ leavesOpen order row.checks fact = true
  | .seed _ | .refresh .. => True

structure CiHead.Guarded (head : CiHead) : Prop where
  within : ∀ row ∈ head.row, row.checks.rows.length ≤ ciStateMaxChecks
  listed : head.incomplete = true → ∃ row, head.row = some row
  incomplete : head.incomplete = true → ∀ row ∈ head.row, row.rollup.settled = false

variable {order identity}

theorem insertedRow_within {row : Option PrHeadCiState} (within : ∀ stored ∈ row, stored.checks.rows.length ≤ ciStateMaxChecks) :
    (insertedRow row).checks.rows.length ≤ ciStateMaxChecks := by
  cases row with
  | none => exact Nat.zero_le _
  | some stored => exact within stored rfl

theorem apply_within {checks : CiChecks} (within : checks.rows.length ≤ ciStateMaxChecks) (fact : CiCheckFact) :
    (applyCiCheckFact order checks fact ciStateMaxChecks).checks.rows.length ≤ ciStateMaxChecks := by
  by_cases stale : Stale checks fact
  · rwa [apply_stale stale]
  · exact (apply_fresh_row order stale within (by decide)).2.1

-- The stored rollup after an accepted fact settles exactly when no open check is left.
theorem applied_settled_iff {checks : CiChecks} {fact : CiCheckFact} (within : checks.rows.length ≤ ciStateMaxChecks)
    (fresh : ¬Stale checks fact) :
    (classifySnapshot (applyCiCheckFact order checks fact ciStateMaxChecks).checks.values).settled = false ↔
      leavesOpen order checks fact = true := by
  have spec := (apply_fresh_row order fresh within (by decide : 0 < ciStateMaxChecks)).1
  rw [values_settled_iff, leavesOpen, Bool.or_eq_true, Table.any_iff]
  constructor
  · rintro ⟨name, other, stored, blocks⟩
    rw [spec] at stored
    split at stored
    · obtain rfl := Option.some.inj stored
      exact .inl blocks
    · next ne =>
      split at stored
      · cases stored
      · next kept => exact .inr ⟨name, other, stored, by simp [ne, blocks, kept]⟩
  · rintro (blocks | ⟨name, other, stored, kept⟩)
    · exact ⟨fact.name, fact, by rw [spec, if_pos rfl], blocks⟩
    · simp only [Bool.and_eq_true, decide_eq_true_eq, ne_eq] at kept
      exact ⟨name, other, by rw [spec, if_neg kept.1.1, if_neg kept.2]; exact stored, kept.1.2⟩

theorem seedFacts_within (facts : List CiCheckFact) (merging : MergedSnapshot)
    (within : merging.checks.rows.length ≤ ciStateMaxChecks) :
    (facts.foldl (seedFact order ciStateMaxChecks) merging).checks.rows.length ≤ ciStateMaxChecks := by
  induction facts generalizing merging with
  | nil => exact within
  | cons fact facts ih =>
    refine ih _ ?_
    unfold seedFact
    simp only
    split
    · exact within
    · exact apply_within within fact

theorem refreshNames_within (stored : CiChecks) (facts : List CiCheckFact) (names : List String) (merging : MergedSnapshot)
    (within : merging.checks.rows.length ≤ ciStateMaxChecks) :
    (names.foldl (refreshName order ciStateMaxChecks stored facts) merging).checks.rows.length ≤ ciStateMaxChecks := by
  induction names generalizing merging with
  | nil => exact within
  | cons name names ih =>
    refine ih _ ?_
    unfold refreshName
    split
    · exact within
    · next incoming picked =>
      simp only
      split
      · exact within
      · split
        · exact within
        · exact apply_within within incoming

theorem merge_within {stored : CiChecks} {truncated : Bool} {snapshot : GithubSnapshot} (mode : GithubSnapshotMergeMode)
    (within : stored.rows.length ≤ ciStateMaxChecks) :
    (mergeGithubSnapshotIntoChecks order stored truncated snapshot identity ciStateMaxChecks mode).1.checks.rows.length ≤
      ciStateMaxChecks := by
  cases mode with
  | initialSeed => exact seedFacts_within _ _ within
  | pendingRefresh now => exact refreshNames_within _ _ _ _ within

-- A refresh stores the rollup of its own listing, saved or not.
theorem refreshed_rollup {now : UtcTime} {row row' : PrHeadCiState} {snapshot : GithubSnapshot}
    (refreshed : refreshPrHeadCiFromGithubSnapshot order identity now (some row) snapshot = some row') :
    row'.rollup = (mergeGithubSnapshotIntoChecks order row.checks row.truncated snapshot identity ciStateMaxChecks
      (.pendingRefresh now)).2 ∧
      (row' = row ∧ (mergeGithubSnapshotIntoChecks order row.checks row.truncated snapshot identity ciStateMaxChecks
        (.pendingRefresh now)).1.materialChange = false ∨
      row'.checks = (mergeGithubSnapshotIntoChecks order row.checks row.truncated snapshot identity ciStateMaxChecks
        (.pendingRefresh now)).1.checks) := by
  unfold refreshPrHeadCiFromGithubSnapshot at refreshed
  simp only at refreshed
  split at refreshed
  · cases refreshed
  · split at refreshed
    · next unchanged =>
      obtain rfl := Option.some.inj refreshed
      simp only [Bool.and_eq_true, Bool.not_eq_true', decide_eq_false_iff_not, ne_eq, Decidable.not_not,
        decide_eq_true_eq] at unchanged
      exact ⟨unchanged.1.2.symm, .inl ⟨rfl, unchanged.1.1⟩⟩
    · obtain rfl := Option.some.inj refreshed
      exact ⟨rfl, .inr rfl⟩

-- An incomplete listing never reads as settled, as long as each fact applied over it leaves an open check.
theorem CiHead.Guarded.step {head head' : CiHead} {event : CiEvent} (guarded : head.Guarded)
    (ok : FactLeavesOpen order head event) (moved : head.step order identity event = some head') : head'.Guarded := by
  cases event with
  | fact fact =>
    obtain rfl := Option.some.inj moved
    have within := insertedRow_within guarded.within
    refine ⟨?_, fun _ => ⟨_, rfl⟩, ?_⟩
    · intro row stored
      obtain rfl := Option.some.inj stored
      unfold applyPrHeadCiFact
      simp only
      split
      · exact within
      · exact apply_within within fact
    · intro open' row stored
      obtain rfl := Option.some.inj stored
      obtain ⟨row, before⟩ := guarded.listed open'
      have kept := guarded.incomplete open' row before
      have choice := ok open' row before
      rw [before]
      by_cases stale : Stale row.checks fact
      · simpa [applyPrHeadCiFact, insertedRow, apply_stale stale] using kept
      · have accepted := (accepted_iff order ciStateMaxChecks).mpr stale
        have leaves := choice.resolve_left stale
        simpa [applyPrHeadCiFact, insertedRow, accepted] using
          (applied_settled_iff (guarded.within row before) stale).mpr leaves
  | seed snapshot =>
    simp only [CiHead.step] at moved
    have within := insertedRow_within guarded.within
    split at moved
    · next seeded =>
      obtain rfl := Option.some.inj moved
      have same : seedPrHeadCiStateFromSnapshot order identity head.row snapshot = insertedRow head.row := by
        simp [seedPrHeadCiStateFromSnapshot, seeded]
      refine ⟨?_, fun _ => ⟨_, rfl⟩, ?_⟩
      · intro row stored
        obtain rfl := Option.some.inj stored
        rwa [same]
      · intro open' row stored
        obtain rfl := Option.some.inj stored
        obtain ⟨row, before⟩ := guarded.listed open'
        rw [same, before]
        exact guarded.incomplete open' row before
    · next unseeded =>
      obtain rfl := Option.some.inj moved
      refine ⟨?_, fun _ => ⟨_, rfl⟩, ?_⟩
      · intro row stored
        obtain rfl := Option.some.inj stored
        simpa [seedPrHeadCiStateFromSnapshot, unseeded] using merge_within .initialSeed within
      · intro open' row stored
        obtain rfl := Option.some.inj stored
        have incomplete : snapshot.checkRunsComplete = some false := by simpa [CiHead.incomplete] using open'
        simp [seedPrHeadCiStateFromSnapshot, unseeded, mergeGithubSnapshotIntoChecks, incomplete, coerce_settled]
  | refresh now snapshot =>
    obtain ⟨row', refreshed, rfl⟩ := Option.map_eq_some_iff.mp moved
    cases before : head.row with
    | none =>
      rw [before] at refreshed
      cases refreshed
    | some row =>
      rw [before] at refreshed
      obtain ⟨rollup, checks⟩ := refreshed_rollup refreshed
      have within := guarded.within row before
      refine ⟨?_, fun _ => ⟨_, rfl⟩, ?_⟩
      · intro stored same
        obtain rfl := Option.some.inj same
        rcases checks with ⟨kept, _⟩ | merged
        · rwa [kept]
        · rw [merged]
          exact merge_within _ within
      · intro open' stored same
        obtain rfl := Option.some.inj same
        have incomplete : snapshot.checkRunsComplete = some false := by simpa [CiHead.incomplete] using open'
        rw [rollup]
        simp [mergeGithubSnapshotIntoChecks, incomplete, coerce_settled]

theorem CiHead.Guarded.empty : CiHead.empty.Guarded := by
  refine ⟨?_, ?_, ?_⟩
  · intro row stored
    cases stored
  · exact fun incomplete => absurd incomplete (by decide)
  · exact fun incomplete => absurd incomplete (by decide)

-- In every run in which each fact applied over an incomplete listing leaves an open check, the stored rollup is
-- neither passing nor none while the snapshot merged last was incomplete.
theorem incomplete_listing_never_settles (order : EntryOrder) (identity : OwnCheckIdentity) (head : CiHead)
    (row : PrHeadCiState)
    (reached : Reaches (CiHead.step order identity) (FactLeavesOpen order) CiHead.empty head) (stored : head.row = some row)
    (incomplete : head.listing = some (some false)) : row.rollup ≠ .passing ∧ row.rollup ≠ .none := by
  have guarded : head.Guarded :=
    reached.invariant CiHead.Guarded .empty fun s event t guarded ok moved => guarded.step ok moved
  have unsettled := guarded.incomplete (decide_eq_true incomplete) row stored
  cases rollup : row.rollup <;> simp [rollup, CiRollup.settled] at unsettled ⊢

instance (checks : CiChecks) (fact : CiCheckFact) : Decidable (Stale checks fact) :=
  decidable_of_iff (∃ existing ∈ checks.get? fact.name, fact.observedAt ≤ existing.observedAt) (by simp [Stale])

instance (order : EntryOrder) (head : CiHead) (event : CiEvent) : Decidable (FactLeavesOpen order head event) :=
  match event with
  | .fact _ | .seed _ | .refresh .. => by delta FactLeavesOpen; infer_instance

def ownIdentity : OwnCheckIdentity := { githubAppId := "7" }

def incompleteListing : GithubSnapshot := { checkRuns := [], legacyStatuses := [], checkRunsComplete := some false }

-- One passing fact after an incomplete listing that showed nothing.
def passingFactOverIncomplete : List CiEvent := [.seed incompleteListing, .fact lintPassed.fact]

theorem incomplete_listing_reads_passing :
    ∃ (head : CiHead) (row : PrHeadCiState),
      Reaches (CiHead.step insertionOrder ownIdentity) (fun _ _ => True) CiHead.empty head ∧ head.row = some row ∧
        head.listing = some (some false) ∧ row.rollup = .passing :=
  ⟨_, _, reaches_runTo passingFactOverIncomplete CiHead.empty CiHead.empty (by decide +kernel), rfl, rfl, by decide +kernel⟩

def failingFactOverIncomplete : List CiEvent := [.seed incompleteListing, .fact lintFailed.fact]

theorem incomplete_listing_never_settles_failing :
    ∃ row : PrHeadCiState, row.checks.get? "lint" = some lintFailed.fact ∧ row.rollup ≠ .passing ∧ row.rollup ≠ .none :=
  ⟨_, by decide +kernel, incomplete_listing_never_settles insertionOrder ownIdentity _ _
    (reaches_runTo failingFactOverIncomplete CiHead.empty CiHead.empty (by decide +kernel)) rfl rfl⟩

end Listings
end PrAgent
