import PrAgent.CiFacts
import Mathlib.Data.List.Dedup
import Mathlib.Data.List.Perm.Subperm
set_option autoImplicit false

namespace PrAgent

section Eviction

variable {order : EntryOrder} {incomingName : String} {maxChecks : Nat}

theorem oldestOther_other {entries : List (String × CiCheckFact)} {evict oldest : String}
    (found : oldestOther incomingName entries = some (evict, oldest)) : evict ≠ incomingName := by
  unfold oldestOther at found
  induction entries using List.reverseRecOn generalizing evict oldest with
  | nil => cases found
  | append_singleton entries entry ih =>
    simp only [List.foldl_append, List.foldl_cons, List.foldl_nil] at found
    split at found
    · exact ih found
    · next other =>
      split at found
      · obtain ⟨rfl, _⟩ := Prod.mk.inj (Option.some.inj found)
        exact other
      · next evict' oldest' before =>
        split at found
        · obtain ⟨rfl, _⟩ := Prod.mk.inj (Option.some.inj found)
          exact other
        · exact ih found

-- An eviction only takes entries away, and never the incoming one.
theorem evictOverflow_get? (order : EntryOrder) (incomingName : String) (maxChecks : Nat) (rounds : Nat) (next : CiChecks) (truncated : Bool) (name : String) :
    ((evictOverflow order incomingName maxChecks rounds next truncated).1.get? name = next.get? name) ∨
      ((evictOverflow order incomingName maxChecks rounds next truncated).1.get? name = none ∧ name ≠ incomingName) := by
  induction rounds generalizing next truncated with
  | zero => exact .inl rfl
  | succ rounds ih =>
    unfold evictOverflow
    split
    · split
      · exact .inl rfl
      · next evict oldest found =>
        have other := oldestOther_other found
        rcases ih (next.erase evict) true with kept | gone
        · rw [kept, Table.get?_erase]
          by_cases same : name = evict
          · rw [if_pos same, same]
            exact .inr ⟨rfl, other⟩
          · rw [if_neg same]
            exact .inl rfl
        · exact .inr gone
    · exact .inl rfl

theorem evictOverflow_of_le {rounds : Nat} {next : CiChecks} {truncated : Bool} (fits : next.rows.length ≤ maxChecks) :
    evictOverflow order incomingName maxChecks rounds next truncated = (next, truncated) := by
  cases rounds with
  | zero => rfl
  | succ rounds => rw [evictOverflow, if_neg (Nat.not_lt.mpr fits)]

end Eviction

section Merging

variable {order : EntryOrder} {current : CiChecks} {incoming : CiCheckFact} {maxChecks : Nat}

-- The stored entry of the name is not older.
def Stale (current : CiChecks) (incoming : CiCheckFact) : Prop :=
  ∃ existing, current.get? incoming.name = some existing ∧ incoming.observedAt ≤ existing.observedAt

theorem apply_stale (stale : Stale current incoming) :
    applyCiCheckFact order current incoming maxChecks = { checks := current, accepted := false, truncated := false } := by
  obtain ⟨existing, stored, older⟩ := stale
  have kept : existing.observedAt ≥ incoming.observedAt := older
  simp only [applyCiCheckFact, stored, if_pos kept]

theorem apply_fresh (fresh : ¬Stale current incoming) :
    applyCiCheckFact order current incoming maxChecks =
      let evicted := evictOverflow order incoming.name maxChecks (current.set incoming.name incoming).rows.length
        (current.set incoming.name incoming) false
      { checks := evicted.1, accepted := true, truncated := evicted.2 } := by
  unfold applyCiCheckFact
  cases stored : current.get? incoming.name with
  | none => rfl
  | some existing =>
    have newer : ¬existing.observedAt ≥ incoming.observedAt := fun older => fresh ⟨existing, stored, older⟩
    simp only [if_neg newer]

theorem accepted_iff (order : EntryOrder) (maxChecks : Nat) :
    (applyCiCheckFact order current incoming maxChecks).accepted = true ↔ ¬Stale current incoming := by
  by_cases stale : Stale current incoming
  · simp [apply_stale stale, stale]
  · simp [apply_fresh stale, stale]

theorem fresh_get?_self (fresh : ¬Stale current incoming) :
    (applyCiCheckFact order current incoming maxChecks).checks.get? incoming.name = some incoming := by
  rw [apply_fresh fresh]
  rcases evictOverflow_get? order incoming.name maxChecks
    (current.set incoming.name incoming).rows.length (current.set incoming.name incoming) false incoming.name with
    kept | gone
  · exact kept.trans (Table.get?_set_self ..)
  · exact absurd rfl gone.2

theorem apply_of_fits (fresh : ¬Stale current incoming)
    (fits : (current.set incoming.name incoming).rows.length ≤ maxChecks) :
    applyCiCheckFact order current incoming maxChecks =
      { checks := current.set incoming.name incoming, accepted := true, truncated := false } := by
  rw [apply_fresh fresh, evictOverflow_of_le fits]

end Merging

section Rollups

theorem mem_values {checks : CiChecks} {fact : CiCheckFact} :
    fact ∈ checks.values ↔ ∃ name, checks.get? name = some fact := by
  simp only [CiChecks.values, List.mem_map, Prod.exists, exists_eq_right, Table.get?_eq_some_iff]

-- The rollup depends on which facts there are, not on their order or number.
theorem classifySnapshot_congr {facts facts' : List CiCheckFact} (same : ∀ fact, fact ∈ facts ↔ fact ∈ facts') :
    classifySnapshot facts = classifySnapshot facts' := by
  have empty : facts.isEmpty = facts'.isEmpty := by
    rw [Bool.eq_iff_iff, List.isEmpty_iff, List.isEmpty_iff, List.eq_nil_iff_forall_not_mem,
      List.eq_nil_iff_forall_not_mem]
    exact forall_congr' fun fact => not_congr (same fact)
  have any : ∀ p : CiCheckFact → Bool, facts.any p = facts'.any p := by
    intro p
    rw [Bool.eq_iff_iff, List.any_eq_true, List.any_eq_true]
    exact exists_congr fun fact => and_congr_left' (same fact)
  rw [classifySnapshot, classifySnapshot, empty, any, any]

theorem classify_values_congr {checks checks' : CiChecks} (same : ∀ name, checks.get? name = checks'.get? name) :
    classifySnapshot checks.values = classifySnapshot checks'.values := by
  refine classifySnapshot_congr fun fact => ?_
  rw [mem_values, mem_values]
  exact exists_congr fun name => by rw [same]

end Rollups

section Convergence

-- A fact with the instant its `observed_at` was printed from.
structure TimedFact where
  fact : CiCheckFact
  time : UtcTime
  stamped : fact.observedAt = time.toISOString

variable (order : EntryOrder)

-- The row after the facts, applied in turn to a head that had none.
def appliedFacts (facts : List TimedFact) : PrHeadCiState :=
  insertedRow (facts.foldl (fun row timed => some (applyPrHeadCiFact order row timed.fact).2) none)

-- The entry of a check is its latest observation among the facts.
def IsLatest (facts : List TimedFact) (name : String) : Option CiCheckFact → Prop
  | none => ∀ timed ∈ facts, timed.fact.name ≠ name
  | some fact => ∃ timed ∈ facts, timed.fact = fact ∧ fact.name = name ∧
      ∀ other ∈ facts, other.fact.name = name → other.time ≤ timed.time

def namesWithin (maxChecks : Nat) (facts : List TimedFact) : Prop :=
  (facts.map fun timed => timed.fact.name).dedup.length ≤ maxChecks

instance (maxChecks : Nat) (facts : List TimedFact) : Decidable (namesWithin maxChecks facts) :=
  inferInstanceAs (Decidable (_ ≤ _))

variable {order}

theorem observedAt_le_iff (f g : TimedFact) : f.fact.observedAt ≤ g.fact.observedAt ↔ f.time ≤ g.time := by
  rw [f.stamped, g.stamped, toISOString_le_iff]

theorem appliedFacts_append (facts : List TimedFact) (timed : TimedFact) :
    appliedFacts order (facts ++ [timed]) = (applyPrHeadCiFact order (some (appliedFacts order facts)) timed.fact).2 := by
  simp only [appliedFacts, List.foldl_append, List.foldl_cons, List.foldl_nil]
  cases facts.foldl (fun row timed => some (applyPrHeadCiFact order row timed.fact).2) none with
  | none => rfl
  | some row => rfl

theorem applyPrHeadCiFact_checks (row : PrHeadCiState) (fact : CiCheckFact) :
    (applyPrHeadCiFact order (some row) fact).2.checks = (applyCiCheckFact order row.checks fact ciStateMaxChecks).checks := by
  by_cases stale : Stale row.checks fact
  · simp [applyPrHeadCiFact, insertedRow, apply_stale stale]
  · have accepted := (accepted_iff order ciStateMaxChecks).mpr stale
    simp [applyPrHeadCiFact, insertedRow, accepted]

theorem stored_rollup {row : PrHeadCiState} (fact : CiCheckFact) (before : row.rollup = classifySnapshot row.checks.values) :
    (applyPrHeadCiFact order (some row) fact).2.rollup =
      classifySnapshot (applyPrHeadCiFact order (some row) fact).2.checks.values := by
  by_cases stale : Stale row.checks fact
  · simpa [applyPrHeadCiFact, insertedRow, apply_stale stale] using before
  · have accepted := (accepted_iff order ciStateMaxChecks).mpr stale
    simp [applyPrHeadCiFact, insertedRow, accepted]

theorem appliedFacts_rollup (facts : List TimedFact) :
    (appliedFacts order facts).rollup = classifySnapshot (appliedFacts order facts).checks.values := by
  induction facts using List.reverseRecOn with
  | nil => rfl
  | append_singleton facts timed ih =>
    rw [appliedFacts_append]
    exact stored_rollup timed.fact ih

-- Rows under names of a short list are few.
theorem rows_length_le {checks : CiChecks} {names : List String}
    (listed : ∀ name fact, checks.get? name = some fact → name ∈ names) : checks.rows.length ≤ names.dedup.length := by
  have sub : checks.rows.map Prod.fst ⊆ names.dedup := by
    intro name key
    obtain ⟨⟨name', fact⟩, row, rfl⟩ := List.mem_map.mp key
    exact List.mem_dedup.mpr (listed name' fact ((Table.get?_eq_some_iff _ _ _).mpr row))
  have short := (List.subperm_of_subset checks.unique sub).length_le
  rwa [List.length_map] at short

theorem dedup_length_mono {names names' : List String} (sub : names ⊆ names') :
    names.dedup.length ≤ names'.dedup.length :=
  (List.subperm_of_subset (List.nodup_dedup names) fun _ listed =>
    List.mem_dedup.mpr (sub (List.mem_dedup.mp listed))).length_le

-- A further fact that is of another check, or no newer, changes nothing.
theorem IsLatest.kept {facts : List TimedFact} {name : String} {stored : Option CiCheckFact} {timed : TimedFact}
    (latest : IsLatest facts name stored)
    (older : timed.fact.name = name → ∃ fact, stored = some fact ∧ timed.fact.observedAt ≤ fact.observedAt) :
    IsLatest (facts ++ [timed]) name stored := by
  cases stored with
  | none =>
    intro other listed
    rcases List.mem_append.mp listed with old | new
    · exact latest other old
    · obtain rfl := List.mem_singleton.mp new
      intro named
      obtain ⟨fact, none, _⟩ := older named
      cases none
  | some fact =>
    obtain ⟨kept, listed, rfl, named, newest⟩ := latest
    refine ⟨kept, List.mem_append_left _ listed, rfl, named, ?_⟩
    intro other listed' named'
    rcases List.mem_append.mp listed' with old | new
    · exact newest other old named'
    · obtain rfl := List.mem_singleton.mp new
      obtain ⟨fact, same, le⟩ := older named'
      obtain rfl := Option.some.inj same
      exact (observedAt_le_iff other kept).mp le

-- A newer fact of the check takes its place.
theorem IsLatest.replaced {facts : List TimedFact} {name : String} {stored : Option CiCheckFact} {timed : TimedFact}
    (latest : IsLatest facts name stored) (named : timed.fact.name = name)
    (newer : ∀ fact, stored = some fact → ¬timed.fact.observedAt ≤ fact.observedAt) :
    IsLatest (facts ++ [timed]) name (some timed.fact) := by
  refine ⟨timed, by simp, rfl, named, ?_⟩
  intro other listed named'
  rcases List.mem_append.mp listed with old | new
  · cases stored with
    | none => exact absurd named' (latest other old)
    | some fact =>
      obtain ⟨kept, _, rfl, _, newest⟩ := latest
      have later : ¬timed.time ≤ kept.time := fun le => newer kept.fact rfl ((observedAt_le_iff timed kept).mpr le)
      exact le_trans (newest other old named') (le_of_lt (not_le.mp later))
  · obtain rfl := List.mem_singleton.mp new
    exact le_rfl

theorem appliedFacts_latest {facts : List TimedFact} (few : namesWithin ciStateMaxChecks facts) (name : String) :
    IsLatest facts name ((appliedFacts order facts).checks.get? name) := by
  induction facts using List.reverseRecOn generalizing name with
  | nil => exact fun _ listed => nomatch listed
  | append_singleton facts timed ih =>
    have fewer : namesWithin ciStateMaxChecks facts := Nat.le_trans (dedup_length_mono (by simp)) few
    have before := ih fewer
    rw [appliedFacts_append, applyPrHeadCiFact_checks]
    by_cases stale : Stale (appliedFacts order facts).checks timed.fact
    · rw [apply_stale stale]
      obtain ⟨existing, stored, older⟩ := stale
      refine (before name).kept fun named => ⟨existing, ?_, older⟩
      rw [← named]
      exact stored
    · have fits : ((appliedFacts order facts).checks.set timed.fact.name timed.fact).rows.length ≤ ciStateMaxChecks := by
        refine Nat.le_trans (rows_length_le ?_) few
        intro other fact stored
        rw [Table.get?_set] at stored
        split at stored
        · next same => simp [same]
        · have known := before other
          rw [stored] at known
          obtain ⟨kept, listed, rfl, named, _⟩ := known
          rw [← named]
          exact List.mem_map.mpr ⟨kept, List.mem_append_left _ listed, rfl⟩
      rw [apply_of_fits stale fits, Table.get?_set]
      by_cases named : name = timed.fact.name
      · rw [if_pos named]
        refine (before name).replaced named.symm fun fact stored older => stale ⟨fact, ?_, older⟩
        rw [← named]
        exact stored
      · rw [if_neg named]
        exact (before name).kept fun same => absurd same.symm named

-- With one observation at most per check and instant, the latest entry is determined by the facts alone.
theorem IsLatest.unique {facts facts' : List TimedFact} {name : String} {stored stored' : Option CiCheckFact}
    (same : ∀ timed, timed ∈ facts ↔ timed ∈ facts')
    (distinct : ∀ f ∈ facts, ∀ g ∈ facts, f.fact.name = g.fact.name → f.time = g.time → f.fact = g.fact)
    (latest : IsLatest facts name stored) (latest' : IsLatest facts' name stored') : stored = stored' := by
  cases stored with
  | none =>
    cases stored' with
    | none => rfl
    | some fact =>
      obtain ⟨timed, listed, rfl, named, _⟩ := latest'
      exact absurd named (latest timed ((same timed).mpr listed))
  | some fact =>
    obtain ⟨timed, listed, rfl, named, newest⟩ := latest
    cases stored' with
    | none => exact absurd named (latest' timed ((same timed).mp listed))
    | some fact' =>
      obtain ⟨timed', listed', rfl, named', newest'⟩ := latest'
      have back := (same timed').mpr listed'
      have instant : timed.time = timed'.time :=
        le_antisymm (newest' timed ((same timed).mp listed) named) (newest timed' back named')
      rw [distinct timed listed timed' back (named.trans named'.symm) instant]

theorem version_of_accepted (row : Option PrHeadCiState) (fact : CiCheckFact) :
    (applyPrHeadCiFact order row fact).1.version = (applyPrHeadCiFact order row fact).2.version ∧
      ((applyPrHeadCiFact order row fact).1.accepted = true →
        (insertedRow row).version < (applyPrHeadCiFact order row fact).2.version) ∧
      ((applyPrHeadCiFact order row fact).1.accepted = false → (applyPrHeadCiFact order row fact).2 = insertedRow row) := by
  by_cases accepted : (applyCiCheckFact order (insertedRow row).checks fact ciStateMaxChecks).accepted = true
  · simp [applyPrHeadCiFact, accepted]
  · simp [applyPrHeadCiFact, accepted]

-- The facts of a head, in any order and with any duplicates, come to the latest observation of each check.
theorem ci_facts_converge (order : EntryOrder) (facts facts' : List TimedFact)
    (same : ∀ timed, timed ∈ facts ↔ timed ∈ facts') (few : namesWithin ciStateMaxChecks facts)
    (distinct : ∀ f ∈ facts, ∀ g ∈ facts, f.fact.name = g.fact.name → f.time = g.time → f.fact = g.fact) :
    (∀ name, IsLatest facts name ((appliedFacts order facts).checks.get? name)) ∧
      (∀ name, (appliedFacts order facts).checks.get? name = (appliedFacts order facts').checks.get? name) ∧
      (appliedFacts order facts).rollup = (appliedFacts order facts').rollup ∧
      ∀ row fact, (applyPrHeadCiFact order row fact).1.version = (applyPrHeadCiFact order row fact).2.version ∧
        ((applyPrHeadCiFact order row fact).1.accepted = true →
          (insertedRow row).version < (applyPrHeadCiFact order row fact).2.version) ∧
        ((applyPrHeadCiFact order row fact).1.accepted = false →
          (applyPrHeadCiFact order row fact).2 = insertedRow row) := by
  have few' : namesWithin ciStateMaxChecks facts' := by
    refine Nat.le_trans (dedup_length_mono ?_) few
    intro name listed
    obtain ⟨timed, member, rfl⟩ := List.mem_map.mp listed
    exact List.mem_map.mpr ⟨timed, (same timed).mpr member, rfl⟩
  have agree : ∀ name, (appliedFacts order facts).checks.get? name = (appliedFacts order facts').checks.get? name :=
    fun name => IsLatest.unique same distinct (appliedFacts_latest few name) (appliedFacts_latest few' name)
  refine ⟨appliedFacts_latest few, agree, ?_, version_of_accepted⟩
  rw [appliedFacts_rollup, appliedFacts_rollup]
  exact classify_values_congr agree

-- Object entries in insertion order.
def insertionOrder : EntryOrder := ⟨fun checks => checks.rows, fun _ => .refl _⟩

def secondOf2026 (second : Nat) (small : second ≤ 59) : UtcTime :=
  { epoch with year := 2026, second, year_le := by decide, second_le := small }

def lintFact (conclusion : String) (time : UtcTime) : CiCheckFact :=
  { name := "lint", source := .checkRun, status := "completed", conclusion := some conclusion
    observedAt := time.toISOString }

def lintFailed : TimedFact := ⟨lintFact "failure" (secondOf2026 2 (by decide)), secondOf2026 2 (by decide), rfl⟩
def lintPassed : TimedFact := ⟨lintFact "success" (secondOf2026 1 (by decide)), secondOf2026 1 (by decide), rfl⟩

theorem ci_facts_converge_swapped :
    (∀ name, (appliedFacts insertionOrder [lintFailed, lintPassed]).checks.get? name =
      (appliedFacts insertionOrder [lintPassed, lintFailed, lintPassed]).checks.get? name) ∧
      (appliedFacts insertionOrder [lintFailed, lintPassed]).rollup = .failing := by
  have converged := ci_facts_converge insertionOrder [lintFailed, lintPassed] [lintPassed, lintFailed, lintPassed]
    (by simp) (by decide +kernel) ?_
  · exact ⟨converged.2.1, by decide +kernel⟩
  · intro f first g second _ instant
    simp only [List.mem_cons, List.not_mem_nil, or_false] at first second
    rcases first with rfl | rfl <;> rcases second with rfl | rfl
    · rfl
    · exact absurd instant (by decide)
    · exact absurd instant (by decide)
    · rfl

end Convergence
end PrAgent
