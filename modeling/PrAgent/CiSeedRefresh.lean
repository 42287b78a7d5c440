import PrAgent.CiKnownRuns
set_option autoImplicit false

namespace PrAgent

section Rollups

theorem classify_failing_iff (facts : List CiCheckFact) :
    classifySnapshot facts = .failing ↔ ∃ fact ∈ facts, isCheckFactFailing fact = true := by
  unfold classifySnapshot
  by_cases empty : facts.isEmpty = true
  · obtain rfl := List.isEmpty_iff.mp empty
    simp
  · rw [if_neg empty]
    by_cases failing : facts.any isCheckFactFailing = true
    · rw [if_pos failing]
      exact ⟨fun _ => List.any_eq_true.mp failing, fun _ => rfl⟩
    · rw [if_neg failing]
      constructor
      · intro rollup
        split at rollup <;> cases rollup
      · exact fun fails => absurd (List.any_eq_true.mpr fails) failing

theorem classify_none_iff (facts : List CiCheckFact) : classifySnapshot facts = .none ↔ facts = [] := by
  unfold classifySnapshot
  by_cases empty : facts.isEmpty = true
  · simp [List.isEmpty_iff.mp empty]
  · rw [if_neg empty]
    constructor
    · intro rollup
      split at rollup
      · cases rollup
      · split at rollup <;> cases rollup
    · rintro rfl
      exact absurd rfl empty

-- The rollup is what is failing, what is open, and whether there is anything.
theorem classify_ext {facts facts' : List CiCheckFact} (empty : facts = [] ↔ facts' = [])
    (failing : (∃ fact ∈ facts, isCheckFactFailing fact = true) ↔ ∃ fact ∈ facts', isCheckFactFailing fact = true)
    (blocks : (∃ fact ∈ facts, blocksPassing fact = true) ↔ ∃ fact ∈ facts', blocksPassing fact = true) :
    classifySnapshot facts = classifySnapshot facts' := by
  rw [← classify_failing_iff, ← classify_failing_iff] at failing
  rw [← classify_settled_iff, ← classify_settled_iff] at blocks
  rw [← classify_none_iff, ← classify_none_iff] at empty
  have known := classify_ne_unknown facts
  have known' := classify_ne_unknown facts'
  cases rollup : classifySnapshot facts <;> cases rollup' : classifySnapshot facts' <;>
    simp_all [CiRollup.settled]

theorem values_eq_nil_iff (checks : CiChecks) : checks.values = [] ↔ ∀ name, checks.get? name = none := by
  rw [List.eq_nil_iff_forall_not_mem]
  constructor
  · intro empty name
    cases stored : checks.get? name with
    | none => rfl
    | some fact => exact absurd (mem_values.mpr ⟨name, stored⟩) (empty fact)
  · intro empty fact listed
    obtain ⟨name, stored⟩ := mem_values.mp listed
    rw [empty name] at stored
    cases stored

theorem exists_values_of_standing {checks checks' : CiChecks} (p : CiCheckFact → Bool)
    (reads : ∀ fact fact', standing fact = standing fact' → p fact = p fact')
    (same : ∀ name, (checks.get? name).map standing = (checks'.get? name).map standing)
    (found : ∃ fact ∈ checks.values, p fact = true) : ∃ fact ∈ checks'.values, p fact = true := by
  obtain ⟨fact, listed, holds⟩ := found
  obtain ⟨name, stored⟩ := mem_values.mp listed
  have entry := same name
  rw [stored] at entry
  obtain ⟨fact', stored', alike⟩ := Option.map_eq_some_iff.mp entry.symm
  exact ⟨fact', mem_values.mpr ⟨name, stored'⟩, (reads _ _ alike).trans holds⟩

theorem classify_of_standing {checks checks' : CiChecks}
    (same : ∀ name, (checks.get? name).map standing = (checks'.get? name).map standing) :
    classifySnapshot checks.values = classifySnapshot checks'.values := by
  have symm : ∀ name, (checks'.get? name).map standing = (checks.get? name).map standing := fun name => (same name).symm
  refine classify_ext ?_ ⟨?_, ?_⟩ ⟨?_, ?_⟩
  · rw [values_eq_nil_iff, values_eq_nil_iff]
    refine forall_congr' fun name => ?_
    rw [← Option.map_eq_none_iff (f := standing), same name, Option.map_eq_none_iff]
  · exact exists_values_of_standing _ (fun _ _ => failing_of_standing) same
  · exact exists_values_of_standing _ (fun _ _ => failing_of_standing) symm
  · exact exists_values_of_standing _ (fun _ _ => blocks_of_standing) same
  · exact exists_values_of_standing _ (fun _ _ => blocks_of_standing) symm

theorem coerce_inj {rollup rollup' : CiRollup} {complete : Option Bool} (known : rollup ≠ .unknown)
    (known' : rollup' ≠ .unknown) (none : rollup = .none ↔ rollup' = .none)
    (same : coerceRollupForIncompleteListing rollup complete = coerceRollupForIncompleteListing rollup' complete) :
    rollup = rollup' := by
  unfold coerceRollupForIncompleteListing at same
  by_cases incomplete : complete = some false
  · cases rollup <;> cases rollup' <;> simp_all
  · rwa [if_neg fun both => incomplete both.1, if_neg fun both => incomplete both.1] at same

end Rollups

section Seeding

variable {order : EntryOrder} {facts : List CiCheckFact}

def firstNamed (facts : List CiCheckFact) (name : String) : Option CiCheckFact := facts.find? fun fact => fact.name = name
def lastNamed (facts : List CiCheckFact) (name : String) : Option CiCheckFact :=
  (facts.filter fun fact => fact.name = name).getLast?

def fewNames (facts : List CiCheckFact) : Prop := (facts.map CiCheckFact.name).dedup.length ≤ ciStateMaxChecks

theorem firstNamed_listed {name : String} {fact : CiCheckFact} (found : firstNamed facts name = some fact) :
    fact ∈ facts ∧ fact.name = name :=
  ⟨List.mem_of_find?_eq_some found, by simpa using List.find?_some found⟩

theorem firstNamed_isSome {fact : CiCheckFact} (listed : fact ∈ facts) : ∃ first, firstNamed facts fact.name = some first := by
  rw [← Option.isSome_iff_exists, firstNamed, List.find?_isSome]
  exact ⟨fact, listed, by simp⟩

theorem firstNamed_append_one (fact : CiCheckFact) (name : String) :
    firstNamed (facts ++ [fact]) name = (firstNamed facts name).or (if fact.name = name then some fact else none) := by
  rw [firstNamed, List.find?_append, firstNamed]
  by_cases named : fact.name = name <;> simp [named]

def unseeded : MergedSnapshot := { checks := .empty, truncated := false }

-- Of entries of one time, the first of each name is seeded.
theorem seeded_entries (one : ∀ fact ∈ facts, fact.observedAt = snapshotObservedAt) (few : fewNames facts) (name : String) :
    (facts.foldl (seedFact order ciStateMaxChecks) unseeded).checks.get? name = firstNamed facts name := by
  induction facts using List.reverseRecOn generalizing name with
  | nil => rfl
  | append_singleton facts fact ih =>
    have fewer : fewNames facts := (dedup_length_mono (by simp)).trans few
    have before := ih (fun fact listed => one fact (List.mem_append_left _ listed)) fewer
    rw [List.foldl_append, List.foldl_cons, List.foldl_nil, seedFact_checks, firstNamed_append_one]
    cases found : firstNamed facts fact.name with
    | some first =>
      have stale : Stale (facts.foldl (seedFact order ciStateMaxChecks) unseeded).checks fact := by
        refine ⟨first, (before _).trans found, ?_⟩
        rw [one fact (by simp), one first (List.mem_append_left _ (firstNamed_listed found).1)]
      rw [apply_stale stale, before]
      by_cases named : fact.name = name
      · rw [← named, found, Option.some_or]
      · rw [if_neg named, Option.or_none]
    | none =>
      have fresh : ¬Stale (facts.foldl (seedFact order ciStateMaxChecks) unseeded).checks fact := by
        rintro ⟨existing, stored, _⟩
        rw [before, found] at stored
        cases stored
      have listed : ∀ name stored, ((facts.foldl (seedFact order ciStateMaxChecks) unseeded).checks.set fact.name fact).get?
          name = some stored → name ∈ (facts ++ [fact]).map CiCheckFact.name := by
        intro name stored here
        rw [Table.get?_set] at here
        split at here
        · next named => simp [named]
        · rw [before] at here
          obtain ⟨member, rfl⟩ := firstNamed_listed here
          exact List.mem_map.mpr ⟨stored, List.mem_append_left _ member, rfl⟩
      rw [apply_of_fits fresh ((rows_length_le listed).trans few), Table.get?_set]
      by_cases named : name = fact.name
      · rw [if_pos named, named, found, if_pos rfl, Option.none_or]
      · rw [if_neg named, before, if_neg fun same => named same.symm, Option.or_none]

-- More names than the cap cannot all be stored.
theorem fewNames_of_stored {checks : CiChecks} (within : checks.rows.length ≤ ciStateMaxChecks)
    (stored : ∀ fact ∈ facts, ∃ entry, checks.get? fact.name = some entry) : fewNames facts := by
  have sub : (facts.map CiCheckFact.name).dedup ⊆ checks.rows.map Prod.fst := by
    intro name listed
    obtain ⟨fact, member, rfl⟩ := List.mem_map.mp (List.mem_dedup.mp listed)
    obtain ⟨entry, found⟩ := stored fact member
    exact List.mem_map.mpr ⟨_, (Table.get?_eq_some_iff _ _ _).mp found, rfl⟩
  have short := (List.subperm_of_subset (List.nodup_dedup _) sub).length_le
  rw [List.length_map] at short
  exact short.trans within

end Seeding

section Refreshing

variable {order : EntryOrder} {stored : CiChecks} {facts : List CiCheckFact}

-- What a refresh leaves of a name that is stored.
def refreshedEntry (stored : CiChecks) (facts : List CiCheckFact) (name : String) : Option CiCheckFact :=
  match picked stored facts name with
  | none => stored.get? name
  | some incoming => if passesOver stored incoming then stored.get? name else some incoming

def changesName (stored : CiChecks) (facts : List CiCheckFact) (name : String) : Bool :=
  match picked stored facts name with
  | none => false
  | some incoming => !decide (passesOver stored incoming) && isMaterialCiFactChange (stored.get? name) incoming

theorem passesOver_congr {checks : CiChecks} {incoming : CiCheckFact} (same : checks.get? incoming.name = stored.get? incoming.name) :
    passesOver checks incoming ↔ passesOver stored incoming := by
  rw [passesOver, passesOver, otherSource, otherSource, Stale, Stale, same]

-- A refresh of names that are all stored: each name by itself, and nothing is evicted.
theorem refreshNames_spec (order : EntryOrder) {merging : MergedSnapshot} (names : List String) (nodup : names.Nodup)
    (listed : ∀ name ∈ names, ∃ fact ∈ facts, fact.name = name)
    (within : merging.checks.rows.length ≤ ciStateMaxChecks)
    (same : ∀ name ∈ names, merging.checks.get? name = stored.get? name)
    (present : ∀ name ∈ names, (stored.get? name).isSome) :
    (∀ name, (names.foldl (refreshName order ciStateMaxChecks stored facts) merging).checks.get? name =
      if name ∈ names then refreshedEntry stored facts name else merging.checks.get? name) ∧
      (names.foldl (refreshName order ciStateMaxChecks stored facts) merging).truncated = merging.truncated ∧
      (names.foldl (refreshName order ciStateMaxChecks stored facts) merging).materialChange =
        (merging.materialChange || names.any (changesName stored facts)) := by
  induction names generalizing merging with
  | nil => simp
  | cons name names ih =>
    obtain ⟨absent, distinct⟩ := List.nodup_cons.mp nodup
    obtain ⟨fact, member, rfl⟩ := listed name List.mem_cons_self
    obtain ⟨incoming, found⟩ := Option.isSome_iff_exists.mp (picked_isSome stored fact member)
    obtain ⟨_, named⟩ := picked_listed found
    have here := same fact.name List.mem_cons_self
    have overs : passesOver merging.checks incoming ↔ passesOver stored incoming :=
      passesOver_congr (by rw [named]; exact here)
    have later : ∀ name ∈ names, ∃ fact ∈ facts, fact.name = name := fun name' later =>
      listed name' (List.mem_cons_of_mem _ later)
    have present' : ∀ name ∈ names, (stored.get? name).isSome := fun name' later =>
      present name' (List.mem_cons_of_mem _ later)
    rw [List.foldl_cons, List.any_cons]
    by_cases skips : passesOver merging.checks incoming
    · rw [refreshName_passed found skips]
      obtain ⟨entries, truncated, material⟩ := ih distinct later within
        (fun name' later => same name' (List.mem_cons_of_mem _ later)) present'
      refine ⟨fun name' => ?_, truncated, ?_⟩
      · rw [entries]
        by_cases own : name' = fact.name
        · subst own
          rw [if_neg absent, if_pos List.mem_cons_self, here, refreshedEntry, found]
          simp only
          rw [if_pos (overs.mp skips)]
        · simp [own]
      · rw [material]
        simp [changesName, found, overs.mp skips]
    · have fresh := (not_or.mp skips).2
      obtain ⟨spec, within', evicts⟩ := apply_fresh_row order fresh within (by decide)
      have nobody : evictee order ciStateMaxChecks merging.checks incoming = none := by
        have some := present fact.name List.mem_cons_self
        rw [← here, ← named] at some
        simp [evictee, Option.isNone_eq_false_iff.mpr some]
      rw [nobody] at evicts
      let merged := refreshName order ciStateMaxChecks stored facts merging fact.name
      have stepped : merged = _ := refreshName_merged found skips
      have checks : merged.checks = (applyCiCheckFact order merging.checks incoming ciStateMaxChecks).checks := by
        rw [stepped]
      have others : ∀ name ∈ names, merged.checks.get? name = stored.get? name := by
        intro name' later
        have other : name' ≠ incoming.name := by
          rw [named]
          rintro rfl
          exact absent later
        rw [checks, spec, if_neg other, nobody, if_neg (by simp)]
        exact same name' (List.mem_cons_of_mem _ later)
      rw [← checks] at within'
      obtain ⟨entries, truncated, material⟩ := ih distinct later within' others present'
      refine ⟨fun name' => (entries name').trans ?_, truncated.trans ?_, material.trans ?_⟩
      · by_cases own : name' = fact.name
        · subst own
          rw [if_neg absent, if_pos List.mem_cons_self, checks, ← named, spec, if_pos rfl, named, refreshedEntry, found]
          simp only
          rw [if_neg fun stands => skips (overs.mpr stands)]
        · have other : name' ≠ incoming.name := by rwa [named]
          simp [own, checks, spec, other, nobody]
      · rw [stepped, evicts]
        simp
      · have changes : changesName stored facts fact.name = isMaterialCiFactChange (stored.get? fact.name) incoming := by
          rw [changesName, found]
          simpa using fun _ stands => skips (overs.mpr stands)
        rw [stepped, changes, here, Bool.or_comm (isMaterialCiFactChange _ _), Bool.or_assoc]

end Refreshing

section Agreement

variable (order : EntryOrder) (identity : OwnCheckIdentity) (now : UtcTime) (snapshot : GithubSnapshot)

def nonOwnCheckRuns : List CiCheckRunSnapshot :=
  snapshot.checkRuns.filter fun run => !isOwnCiCheck identity (checkRunFact .epoch run)

def nonOwnStatuses : List CiLegacyStatus :=
  snapshot.legacyStatuses.filter fun status => status.context ≠ ownCommitStatusContext

-- An empty head seeded from the snapshot selects an entry of each name and has the rollup of all entries, and a refresh
-- from the same snapshot changes neither.
structure SeedAndRefreshAgree : Prop where
  selected : ∀ fact ∈ snapshotFacts snapshot identity .initialSeed,
    ∃ entry ∈ snapshotFacts snapshot identity .initialSeed, entry.name = fact.name ∧
      (seedPrHeadCiStateFromSnapshot order identity none snapshot).checks.get? fact.name = some entry
  rollup : (seedPrHeadCiStateFromSnapshot order identity none snapshot).rollup =
    coerceRollupForIncompleteListing
      (classifyGithubSnapshot (nonOwnCheckRuns identity snapshot) (nonOwnStatuses snapshot)) snapshot.checkRunsComplete
  refreshed : ∃ row, refreshPrHeadCiFromGithubSnapshot order identity now
      (some (seedPrHeadCiStateFromSnapshot order identity none snapshot)) snapshot = some row ∧
    row.checks = (seedPrHeadCiStateFromSnapshot order identity none snapshot).checks ∧
    row.rollup = (seedPrHeadCiStateFromSnapshot order identity none snapshot).rollup

-- The first and the last entry of each name stand for all of its entries.
structure EndsStandForAll (entries : List CiCheckFact) : Prop where
  few : fewNames entries
  failing : ∀ fact ∈ entries, isCheckFactFailing fact = true →
    ∃ name first, firstNamed entries name = some first ∧ isCheckFactFailing first = true
  blocks : ∀ fact ∈ entries, blocksPassing fact = true →
    ∃ name first, firstNamed entries name = some first ∧ blocksPassing first = true
  last : ∀ name first last, firstNamed entries name = some first → lastNamed entries name = some last →
    (first.checkRunId.isSome = true ∧ isCheckFactPending first = true) ∨ first.source ≠ last.source ∨
      last.observedAt ≤ snapshotObservedAt ∨ isMaterialCiFactChange (some first) last = false

variable {order identity now snapshot}

def atEpoch (fact : CiCheckFact) : CiCheckFact := { fact with observedAt := snapshotObservedAt }

@[simp] theorem atEpoch_name (fact : CiCheckFact) : (atEpoch fact).name = fact.name := rfl
@[simp] theorem atEpoch_source (fact : CiCheckFact) : (atEpoch fact).source = fact.source := rfl
@[simp] theorem atEpoch_checkRunId (fact : CiCheckFact) : (atEpoch fact).checkRunId = fact.checkRunId := rfl
@[simp] theorem atEpoch_observedAt (fact : CiCheckFact) : (atEpoch fact).observedAt = snapshotObservedAt := rfl

theorem seed_facts_eq : snapshotFacts snapshot identity .initialSeed =
    (snapshotFacts snapshot identity (.pendingRefresh now)).map atEpoch := by
  simp only [snapshotFacts, buildCiFactsFromGithubSnapshot, GithubSnapshotMergeMode.observation, List.map_append,
    List.map_map, List.filter_map]
  rfl

theorem classify_nonOwn : classifyGithubSnapshot (nonOwnCheckRuns identity snapshot) (nonOwnStatuses snapshot) =
    classifySnapshot (snapshotFacts snapshot identity .initialSeed) := by
  simp only [classifyGithubSnapshot, nonOwnCheckRuns, nonOwnStatuses, snapshotFacts, buildCiFactsFromGithubSnapshot,
    GithubSnapshotMergeMode.observation, List.filter_map]
  rfl

theorem firstNamed_map_atEpoch (facts : List CiCheckFact) (name : String) :
    firstNamed (facts.map atEpoch) name = (firstNamed facts name).map atEpoch := by
  rw [firstNamed, List.find?_map, firstNamed]
  rfl

theorem fewNames_map_atEpoch (facts : List CiCheckFact) : fewNames (facts.map atEpoch) ↔ fewNames facts := by
  rw [fewNames, List.map_map, fewNames]
  rfl

variable {checks : CiChecks} {facts : List CiCheckFact}

theorem values_seeded (seeded : ∀ name, checks.get? name = firstNamed facts name) (p : CiCheckFact → Bool) :
    (∃ fact ∈ checks.values, p fact = true) ↔ ∃ name first, firstNamed facts name = some first ∧ p first = true := by
  constructor
  · rintro ⟨fact, listed, holds⟩
    obtain ⟨name, stored⟩ := mem_values.mp listed
    exact ⟨name, fact, (seeded name).symm.trans stored, holds⟩
  · rintro ⟨name, first, found, holds⟩
    exact ⟨first, mem_values.mpr ⟨name, (seeded name).trans found⟩, holds⟩

-- The seeded rollup is that of all entries exactly when the first ones fail and wait as much as all of them.
theorem classify_firsts_iff (seeded : ∀ name, checks.get? name = firstNamed facts name) (complete : Option Bool) :
    coerceRollupForIncompleteListing (classifySnapshot checks.values) complete =
        coerceRollupForIncompleteListing (classifySnapshot facts) complete ↔
      (∀ fact ∈ facts, isCheckFactFailing fact = true →
        ∃ name first, firstNamed facts name = some first ∧ isCheckFactFailing first = true) ∧
      ∀ fact ∈ facts, blocksPassing fact = true →
        ∃ name first, firstNamed facts name = some first ∧ blocksPassing first = true := by
  have empty : checks.values = [] ↔ facts = [] := by
    rw [values_eq_nil_iff]
    constructor
    · intro nothing
      rw [List.eq_nil_iff_forall_not_mem]
      intro fact listed
      obtain ⟨first, found⟩ := firstNamed_isSome listed
      rw [← seeded, nothing] at found
      cases found
    · rintro rfl name
      exact seeded name
  constructor
  · intro same
    have rollup := coerce_inj (classify_ne_unknown _) (classify_ne_unknown _)
      (by rw [classify_none_iff, classify_none_iff, empty]) same
    constructor
    · intro fact listed fails
      rw [← values_seeded seeded, ← classify_failing_iff, rollup, classify_failing_iff]
      exact ⟨fact, listed, fails⟩
    · intro fact listed blocks
      rw [← values_seeded seeded, ← classify_settled_iff, rollup, classify_settled_iff]
      exact ⟨fact, listed, blocks⟩
  · rintro ⟨failing, blocks⟩
    have only : ∀ p : CiCheckFact → Bool, (∃ fact ∈ checks.values, p fact = true) → ∃ fact ∈ facts, p fact = true := by
      intro p found
      obtain ⟨name, first, here, holds⟩ := (values_seeded seeded p).mp found
      exact ⟨first, (firstNamed_listed here).1, holds⟩
    rw [classify_ext empty ⟨only _, ?_⟩ ⟨only _, ?_⟩]
    · rintro ⟨fact, listed, fails⟩
      exact (values_seeded seeded _).mpr (failing fact listed fails)
    · rintro ⟨fact, listed, open'⟩
      exact (values_seeded seeded _).mpr (blocks fact listed open')

-- What a refresh picks of the entries the first of which were seeded.
theorem picked_seeded {name : String} {first last : CiCheckFact}
    (seeded : checks.get? name = some (atEpoch first)) (found : firstNamed facts name = some first)
    (final : lastNamed facts name = some last) :
    picked checks facts name =
      some (if first.checkRunId.isSome = true ∧ isCheckFactPending first = true then first else last) := by
  have waiting : isCheckFactPending (atEpoch first) = isCheckFactPending first := pending_of_standing rfl
  rw [lastNamed] at final
  unfold picked pickSnapshotFactForName
  simp only [seeded, waiting, final]
  by_cases waits : first.checkRunId.isSome = true ∧ isCheckFactPending first = true
  · have head : (facts.filter fun fact => fact.name = name).find? (fun fact => fact.checkRunId = (atEpoch first).checkRunId) =
        some first := by
      rw [firstNamed, ← List.head?_filter] at found
      obtain ⟨rest, entries⟩ : ∃ rest, (facts.filter fun fact => fact.name = name) = first :: rest := by
        cases entries : facts.filter fun fact => fact.name = name with
        | nil =>
          rw [entries] at found
          cases found
        | cons head rest =>
          rw [entries] at found
          exact ⟨rest, by rw [Option.some.inj found]⟩
      rw [entries]
      exact List.find?_cons_of_pos (by simp)
    have yes : ((atEpoch first).checkRunId.isSome && isCheckFactPending first) = true := by simpa using waits
    rw [if_pos waits, if_pos yes, head, Option.some_or]
  · have no : ¬((atEpoch first).checkRunId.isSome && isCheckFactPending first) = true := by simpa using waits
    rw [if_neg waits, if_neg no, Option.none_or]

theorem lastNamed_listed {name : String} {fact : CiCheckFact}
    (final : lastNamed facts name = some fact) : fact ∈ facts ∧ fact.name = name := by
  have member := List.mem_of_getLast? final
  simpa using member

theorem lastNamed_isSome {fact : CiCheckFact} (listed : fact ∈ facts) :
    ∃ last, lastNamed facts fact.name = some last := by
  cases final : lastNamed facts fact.name with
  | some last => exact ⟨last, rfl⟩
  | none =>
    rw [lastNamed, List.getLast?_eq_none_iff, List.filter_eq_nil_iff] at final
    exact absurd (decide_eq_true rfl) (final fact listed)

-- The two ways a refresh leaves a seeded entry as it is, and the two in which it makes no difference.
theorem changesName_seeded {name : String} {first last : CiCheckFact}
    (seeded : checks.get? name = some (atEpoch first)) (found : firstNamed facts name = some first)
    (final : lastNamed facts name = some last) :
    changesName checks facts name = false ↔
      (first.checkRunId.isSome = true ∧ isCheckFactPending first = true) ∨ first.source ≠ last.source ∨
        last.observedAt ≤ snapshotObservedAt ∨ isMaterialCiFactChange (some first) last = false := by
  rw [changesName, picked_seeded seeded found final, seeded]
  by_cases waits : first.checkRunId.isSome = true ∧ isCheckFactPending first = true
  · have same : isMaterialCiFactChange (some (atEpoch first)) first = false := by simp [isMaterialCiFactChange, atEpoch]
    simp [waits, same]
  · obtain ⟨_, named⟩ := lastNamed_listed final
    have skips : passesOver checks last ↔ first.source ≠ last.source ∨ last.observedAt ≤ snapshotObservedAt := by
      rw [passesOver, otherSource, Stale, named, seeded]
      by_cases source : first.source = last.source <;> simp [source]
    have material : isMaterialCiFactChange (some (atEpoch first)) last = isMaterialCiFactChange (some first) last := rfl
    rw [if_neg waits]
    simp only [material, Bool.and_eq_false_iff, Bool.not_eq_false', decide_eq_true_eq]
    rw [skips, or_assoc, or_iff_right waits]

variable (order identity now snapshot)

theorem seeded_row : (seedPrHeadCiStateFromSnapshot order identity none snapshot).seeded = true := rfl

-- Refreshing a seeded row changes neither checks nor rollup exactly when it changes no name.
theorem refreshed_iff {row : PrHeadCiState} (seeded : row.seeded = true)
    (rollup : row.rollup = coerceRollupForIncompleteListing (classifySnapshot row.checks.values) snapshot.checkRunsComplete)
    (within : row.checks.rows.length ≤ ciStateMaxChecks)
    (present : ∀ fact ∈ snapshotFacts snapshot identity (.pendingRefresh now), (row.checks.get? fact.name).isSome) :
    (∃ row', refreshPrHeadCiFromGithubSnapshot order identity now (some row) snapshot = some row' ∧
      row'.checks = row.checks ∧ row'.rollup = row.rollup) ↔
    ∀ name ∈ namesOf (snapshotFacts snapshot identity (.pendingRefresh now)),
      changesName row.checks (snapshotFacts snapshot identity (.pendingRefresh now)) name = false := by
  let facts := snapshotFacts snapshot identity (.pendingRefresh now)
  let start : MergedSnapshot := { checks := row.checks, truncated := row.truncated }
  let merged := (namesOf facts).foldl (refreshName order ciStateMaxChecks row.checks facts) start
  have listed : ∀ name ∈ namesOf facts, ∃ fact ∈ facts, fact.name = name := fun name => namesOf_listed
  have stored : ∀ name ∈ namesOf facts, (row.checks.get? name).isSome := by
    intro name member
    obtain ⟨fact, here, rfl⟩ := listed name member
    exact present fact here
  have withinStart : start.checks.rows.length ≤ ciStateMaxChecks := within
  have unmoved : ∀ name ∈ namesOf facts, start.checks.get? name = row.checks.get? name := fun _ _ => rfl
  obtain ⟨entries, truncated, material⟩ := refreshNames_spec order (namesOf facts) (nodup_firsts facts) listed withinStart
    unmoved stored
  constructor
  · rintro ⟨row', refreshed, checks, _⟩
    obtain ⟨_, unchanged | saved⟩ := refreshed_rollup refreshed
    · have immaterial : merged.materialChange = false := unchanged.2
      rw [material, Bool.false_or, List.any_eq_false] at immaterial
      exact fun name member => Bool.eq_false_iff.mpr (immaterial name member)
    · intro name member
      have same : row.checks.get? name = refreshedEntry row.checks facts name := by
        have entry := entries name
        rw [if_pos member] at entry
        rw [← entry]
        exact congrArg (fun checks : CiChecks => checks.get? name) (checks.symm.trans saved)
      rw [refreshedEntry] at same
      unfold changesName
      cases pick : picked row.checks facts name with
      | none => rfl
      | some incoming =>
        rw [pick] at same
        simp only at same ⊢
        by_cases skips : passesOver row.checks incoming
        · simp [skips]
        · rw [if_neg skips] at same
          rw [same]
          simp [isMaterialCiFactChange]
  · intro unchanged
    have immaterial : merged.materialChange = false := by
      rw [material, Bool.false_or, List.any_eq_false]
      exact fun name member => Bool.eq_false_iff.mp (unchanged name member)
    obtain ⟨_, standings⟩ := refresh_immaterial (namesOf facts) listed withinStart immaterial
    have kept : coerceRollupForIncompleteListing (classifySnapshot merged.checks.values) snapshot.checkRunsComplete =
        row.rollup := by
      rw [rollup, classify_of_standing standings]
    refine ⟨row, ?_, rfl, rfl⟩
    unfold refreshPrHeadCiFromGithubSnapshot
    simp only [seeded, Bool.not_true, Bool.false_eq_true, if_false]
    have shown : mergeGithubSnapshotIntoChecks order row.checks row.truncated snapshot identity ciStateMaxChecks
        (.pendingRefresh now) = (merged, row.rollup) := by
      rw [← kept]
      rfl
    have intact : merged.truncated = row.truncated := truncated
    rw [shown]
    simp [immaterial, intact]

-- Seeding an empty head and refreshing it from the same snapshot agree exactly on the snapshots whose first and last
-- entries of each name stand for all of them.
theorem seed_and_refresh_agree_iff :
    SeedAndRefreshAgree order identity now snapshot ↔
      EndsStandForAll (snapshotFacts snapshot identity (.pendingRefresh now)) := by
  let facts := snapshotFacts snapshot identity (.pendingRefresh now)
  let row := seedPrHeadCiStateFromSnapshot order identity none snapshot
  have unseededRow : ¬(insertedRow none).seeded = true := by decide
  obtain ⟨checks, rollup⟩ := seeded_first order identity snapshot unseededRow
  have seeds : snapshotFacts snapshot identity .initialSeed = facts.map atEpoch := seed_facts_eq
  have within : row.checks.rows.length ≤ ciStateMaxChecks := by
    rw [checks]
    exact seedFacts_within _ _ (Nat.zero_le _)
  have entriesOf (few : fewNames facts) (name : String) : row.checks.get? name = firstNamed (facts.map atEpoch) name := by
    rw [checks, seeds]
    refine seeded_entries ?_ ((fewNames_map_atEpoch facts).mpr few) name
    intro fact listed
    obtain ⟨_, _, rfl⟩ := List.mem_map.mp listed
    rfl
  have rollups (few : fewNames facts) := classify_firsts_iff (entriesOf few) snapshot.checkRunsComplete
  have refreshes (few : fewNames facts) := refreshed_iff order identity now snapshot
    (seeded_row order identity snapshot) rollup within (fun fact listed => by
      obtain ⟨first, found⟩ := firstNamed_isSome listed
      rw [entriesOf few, firstNamed_map_atEpoch, found]
      rfl)
  have changes (few : fewNames facts) (name : String) (first last : CiCheckFact) (found : firstNamed facts name = some first)
      (final : lastNamed facts name = some last) :=
    changesName_seeded
      (show row.checks.get? name = some (atEpoch first) by rw [entriesOf few, firstNamed_map_atEpoch, found]; rfl) found final
  constructor
  · intro agree
    have few : fewNames facts := by
      refine fewNames_of_stored within fun fact listed => ?_
      obtain ⟨entry, _, _, stored⟩ := agree.selected (atEpoch fact) (by rw [seeds]; exact List.mem_map_of_mem listed)
      exact ⟨entry, stored⟩
    have same := agree.rollup
    rw [classify_nonOwn, rollup, seeds] at same
    obtain ⟨failing, blocks⟩ := (rollups few).mp same
    have unchanged := (refreshes few).mp agree.refreshed
    refine ⟨few, ?_, ?_, ?_⟩
    · intro fact listed fails
      obtain ⟨name, first, found, holds⟩ := failing (atEpoch fact) (List.mem_map_of_mem listed) fails
      rw [firstNamed_map_atEpoch] at found
      obtain ⟨first', here, rfl⟩ := Option.map_eq_some_iff.mp found
      exact ⟨name, first', here, holds⟩
    · intro fact listed open'
      obtain ⟨name, first, found, holds⟩ := blocks (atEpoch fact) (List.mem_map_of_mem listed) open'
      rw [firstNamed_map_atEpoch] at found
      obtain ⟨first', here, rfl⟩ := Option.map_eq_some_iff.mp found
      exact ⟨name, first', here, holds⟩
    · intro name first last found final
      refine (changes few name first last found final).mp (unchanged name ?_)
      obtain ⟨listed, named⟩ := firstNamed_listed found
      exact (mem_keys_firsts facts name).mpr (List.mem_map.mpr ⟨first, listed, named⟩)
  · intro ends
    have few := ends.few
    refine ⟨?_, ?_, (refreshes few).mpr ?_⟩
    · intro fact listed
      rw [seeds] at listed ⊢
      obtain ⟨first, found⟩ := firstNamed_isSome listed
      obtain ⟨member, named⟩ := firstNamed_listed found
      exact ⟨first, member, named, (entriesOf few _).trans found⟩
    · rw [classify_nonOwn, seeds]
      refine rollup.trans ((rollups few).mpr ⟨?_, ?_⟩)
      · intro fact listed fails
        obtain ⟨fact', here, rfl⟩ := List.mem_map.mp listed
        obtain ⟨name, first, found, holds⟩ := ends.failing fact' here fails
        exact ⟨name, atEpoch first, by rw [firstNamed_map_atEpoch, found]; rfl, holds⟩
      · intro fact listed open'
        obtain ⟨fact', here, rfl⟩ := List.mem_map.mp listed
        obtain ⟨name, first, found, holds⟩ := ends.blocks fact' here open'
        exact ⟨name, atEpoch first, by rw [firstNamed_map_atEpoch, found]; rfl, holds⟩
    · intro name member
      obtain ⟨fact, listed, rfl⟩ := namesOf_listed member
      obtain ⟨first, found⟩ := firstNamed_isSome listed
      obtain ⟨last, final⟩ := lastNamed_isSome listed
      exact (changes few _ first last found final).mpr (ends.last _ first last found final)

def refreshedRollup (now : UtcTime) (snapshot : GithubSnapshot) : Option CiRollup :=
  (refreshPrHeadCiFromGithubSnapshot insertionOrder ownIdentity now
    (some (seedPrHeadCiStateFromSnapshot insertionOrder ownIdentity none snapshot)) snapshot).map PrHeadCiState.rollup

-- The run that failed is seeded, and the refresh takes the one that passed.
theorem seed_and_refresh_disagree :
    ¬SeedAndRefreshAgree insertionOrder ownIdentity (secondOf2026 20 (by decide)) twoBuildRuns := by
  intro agree
  obtain ⟨row, refreshed, _, rollup⟩ := agree.refreshed
  have passing : refreshedRollup (secondOf2026 20 (by decide)) twoBuildRuns = some .passing := by decide +kernel
  have failing : (seedPrHeadCiStateFromSnapshot insertionOrder ownIdentity none twoBuildRuns).rollup = .failing := by
    decide +kernel
  rw [refreshedRollup, refreshed, Option.map_some, rollup, failing] at passing
  cases passing

end Agreement
end PrAgent
