import PrAgent.ReviewArtifactStore
import Mathlib.Algebra.Order.BigOperators.Group.List
set_option autoImplicit false

namespace PrAgent

variable {reviewArtifactHash : ReviewArtifactEnvelope → Digest} {rows : Table LogicalKey ArtifactRow}
  {binding : ReviewArtifactBinding}

-- A reader of the binding finds the envelope under the key.
def Provided (reviewArtifactHash : ReviewArtifactEnvelope → Digest) (rows : Table LogicalKey ArtifactRow)
    (binding : ReviewArtifactBinding) (key : LogicalKey) (prior : ReviewArtifactEnvelope) : Prop :=
  ∃ row, rows.get? key = some row ∧ decodeArtifact reviewArtifactHash key row binding = some prior

-- Everything an artifact asks of earlier ones is stored.
structure Supported (reviewArtifactHash : ReviewArtifactEnvelope → Digest) (rows : Table LogicalKey ArtifactRow)
    (envelope : ReviewArtifactEnvelope) : Prop where
  distinct : (envelope.reviewArtifactDependencies.map ArtifactDependency.logicalKey).Nodup
  dependencies : ∀ dependency ∈ envelope.reviewArtifactDependencies, ∃ prior,
    Provided reviewArtifactHash rows envelope.binding dependency.logicalKey prior ∧ prior.order < envelope.order ∧
      reviewArtifactHash prior = dependency.payloadHash
  previous : ∀ prepared, envelope.artifact = .publicationPrepared prepared → 0 < prepared.sequence → ∃ prior,
    Provided reviewArtifactHash rows envelope.binding (.settled (prepared.sequence - 1)) prior ∧
      prior.artifact.kind = .publicationSettled
  prepared : ∀ settled, envelope.artifact = .publicationSettled settled → ∃ prepared,
    Provided reviewArtifactHash rows envelope.binding (.prepared settled.sequence)
        ⟨envelope.binding, .publicationPrepared prepared⟩ ∧
      prepared.decisionId = settled.decisionId ∧
      reviewArtifactHash ⟨envelope.binding, .publicationPrepared prepared⟩ = settled.preparedHash

section Decoding

variable {key : LogicalKey} {row : ArtifactRow} {prior : ReviewArtifactEnvelope}

theorem decoded (found : decodeArtifact reviewArtifactHash key row binding = some prior) :
    row.envelope = prior ∧ prior.binding = binding ∧ key = prior.logicalKey ∧ row.payloadHash = reviewArtifactHash prior := by
  unfold decodeArtifact at found
  obtain ⟨valid, found⟩ := Option.ite_none_right_eq_some.mp found
  obtain rfl := Option.some.inj found
  exact ⟨rfl, valid.2.2.2.2.1, valid.1, valid.2.2.2.2.2⟩

theorem Provided.unique {other : ReviewArtifactEnvelope} (first : Provided reviewArtifactHash rows binding key prior)
    (second : Provided reviewArtifactHash rows binding key other) : prior = other := by
  obtain ⟨row, found, readFirst⟩ := first
  obtain ⟨row', found', readSecond⟩ := second
  rw [found] at found'
  obtain rfl := Option.some.inj found'
  rw [readFirst] at readSecond
  exact Option.some.inj readSecond

theorem Provided.binding_eq (provided : Provided reviewArtifactHash rows binding key prior) : prior.binding = binding := by
  obtain ⟨row, _, found⟩ := provided
  exact (decoded found).2.1

theorem Provided.key_eq (provided : Provided reviewArtifactHash rows binding key prior) : key = prior.logicalKey := by
  obtain ⟨row, _, found⟩ := provided
  exact (decoded found).2.2.1

end Decoding

-- The rows that a search has not read.
def DependencySearch.unread (rows : Table LogicalKey ArtifactRow) (search : DependencySearch) :
    Table LogicalKey ArtifactRow := rows.deleteWhere fun key _ => (search.loaded.get? key).isSome

def DependencySearch.remaining (rows : Table LogicalKey ArtifactRow) (search : DependencySearch) : Nat :=
  search.pending.length + (search.unread rows).sum fun _ _ => 1

section Rounds

variable (reviewArtifactHash rows binding)

-- Each row is read once, so a search ends after as many rounds as there are rows.
theorem unread_load (search : DependencySearch) (key : LogicalKey) (prior : ReviewArtifactEnvelope) :
    rows.deleteWhere (fun k _ => ((search.loaded.set key prior).get? k).isSome) = (search.unread rows).erase key := by
  have same : ∀ entry : LogicalKey × ArtifactRow, (!((search.loaded.set key prior).get? entry.1).isSome) =
      (decide (entry.1 ≠ key) && !(search.loaded.get? entry.1).isSome) := by
    intro entry
    rw [Table.get?_set]
    by_cases same : entry.1 = key
    · simp [same]
    · simp [same]
  have filtered : rows.rows.filter (fun entry => !((search.loaded.set key prior).get? entry.1).isSome) =
      (rows.rows.filter fun entry => !(search.loaded.get? entry.1).isSome).filter fun entry => entry.1 ≠ key := by
    rw [List.filter_filter]
    exact List.filter_congr fun entry _ => same entry
  rw [DependencySearch.unread, Table.erase, Table.deleteWhere, Table.mk.injEq]
  exact filtered

theorem unread_row {search : DependencySearch} {key : LogicalKey} (fresh : search.loaded.get? key = none) :
    (search.unread rows).get? key = rows.get? key := by
  rw [DependencySearch.unread, Table.get?_deleteWhere]
  cases rows.get? key with
  | none => rfl
  | some row => simp [fresh]

theorem read_remaining (key : LogicalKey) (search : DependencySearch) :
    (readPrior reviewArtifactHash rows binding key search).2.remaining rows ≤ search.remaining rows := by
  unfold readPrior
  cases loaded : search.loaded.get? key with
  | some cached => exact Nat.le_refl _
  | none =>
      cases stored : rows.get? key with
      | none => exact Nat.le_refl _
      | some row =>
          by_cases beyond : reviewArtifactBudgetBytes < search.bytes + row.envelope.encodedBytes
          · simp only [beyond, if_true]
            exact Nat.le_refl _
          · simp only [beyond, if_false]
            cases decodeArtifact reviewArtifactHash key row binding with
            | none => exact Nat.le_refl _
            | some prior =>
                have fewer := Table.sum_erase ((unread_row rows loaded).trans stored) fun _ _ => 1
                simp only [DependencySearch.remaining, DependencySearch.unread, unread_load, List.length_cons] at fewer ⊢
                omega

theorem dependencies_remaining (current : ReviewArtifactEnvelope) (dependencies : List ArtifactDependency)
    (seen : List LogicalKey) (search : DependencySearch) :
    (dependenciesMismatch reviewArtifactHash rows binding current seen dependencies search).2.remaining rows ≤
      search.remaining rows := by
  induction dependencies generalizing seen search with
  | nil => exact Nat.le_refl _
  | cons dependency rest ih =>
      have read := read_remaining reviewArtifactHash rows binding dependency.logicalKey search
      unfold dependenciesMismatch
      by_cases twice : dependency.logicalKey ∈ seen
      · rw [if_pos twice]
      · rw [if_neg twice]
        generalize readPrior reviewArtifactHash rows binding dependency.logicalKey search = found at read
        obtain ⟨prior, after⟩ := found
        cases prior with
        | none => exact read
        | some prior =>
            by_cases wrong : current.order ≤ prior.order ∨ reviewArtifactHash prior ≠ dependency.payloadHash
            · simp only [wrong, if_true]
              exact read
            · simp only [wrong, if_false]
              exact (ih _ _).trans read

theorem publication_remaining (current : ReviewArtifactEnvelope) (search : DependencySearch) :
    (publicationMismatch reviewArtifactHash rows binding current search).2.remaining rows ≤ search.remaining rows := by
  unfold publicationMismatch
  cases current.artifact with
  | publicationPrepared artifact =>
      by_cases later : 0 < artifact.sequence
      · simp only [later, if_true]
        have read := read_remaining reviewArtifactHash rows binding (.settled (artifact.sequence - 1)) search
        generalize readPrior reviewArtifactHash rows binding (.settled (artifact.sequence - 1)) search = found at read
        obtain ⟨prior, after⟩ := found
        cases prior with
        | none => exact read
        | some prior =>
            by_cases wrong : current.order ≤ prior.order ∨ prior.artifact.kind ≠ .publicationSettled
            · simp only [wrong, if_true]
              exact read
            · simp only [wrong, if_false]
              exact read
      · simp only [later, if_false]
        exact Nat.le_refl _
  | publicationSettled artifact =>
      have read := read_remaining reviewArtifactHash rows binding (.prepared artifact.sequence) search
      simp only
      generalize readPrior reviewArtifactHash rows binding (.prepared artifact.sequence) search = found at read
      obtain ⟨prior, after⟩ := found
      cases prior with
      | none => exact read
      | some prior =>
          by_cases wrong : current.order ≤ prior.order
          · simp only [wrong, if_true]
            exact read
          · simp only [wrong, if_false]
            cases prior.artifact with
            | publicationPrepared prepared =>
                by_cases other : prepared.decisionId ≠ artifact.decisionId ∨ reviewArtifactHash prior ≠ artifact.preparedHash
                · simp only [other, if_true]
                  exact read
                · simp only [other, if_false]
                  exact read
            | brief value paths => exact read
            | report specialist value evidence paths => exact read
            | openedPaths paths => exact read
            | publicationSettled settled => exact read
            | finalSummary payload dependencies inputs => exact read
  | brief value paths => exact Nat.le_refl _
  | report specialist value evidence paths => exact Nat.le_refl _
  | openedPaths paths => exact Nat.le_refl _
  | finalSummary payload dependencies inputs => exact Nat.le_refl _

theorem current_remaining (current : ReviewArtifactEnvelope) (search : DependencySearch) :
    (currentMismatch reviewArtifactHash rows binding current search).2.remaining rows ≤ search.remaining rows := by
  have read := dependencies_remaining reviewArtifactHash rows binding current current.reviewArtifactDependencies [] search
  unfold currentMismatch
  generalize dependenciesMismatch reviewArtifactHash rows binding current [] current.reviewArtifactDependencies search =
    outcome at read
  obtain ⟨reason, after⟩ := outcome
  cases reason with
  | some reason => exact read
  | none => exact (publication_remaining reviewArtifactHash rows binding current after).trans read

theorem first_mismatch_finishes (fuel : Nat) (search : DependencySearch) (enough : search.remaining rows ≤ fuel) :
    ∃ result, firstMismatch reviewArtifactHash rows binding fuel search = some result := by
  induction fuel generalizing search with
  | zero =>
      obtain ⟨pending, loaded, bytes, overBudget⟩ := search
      cases pending with
      | nil => exact ⟨_, rfl⟩
      | cons current pending =>
          simp only [DependencySearch.remaining, List.length_cons] at enough
          omega
  | succ fuel ih =>
      obtain ⟨pending, loaded, bytes, overBudget⟩ := search
      cases pending with
      | nil => exact ⟨_, rfl⟩
      | cons current pending =>
          have round := current_remaining reviewArtifactHash rows binding current ⟨pending, loaded, bytes, overBudget⟩
          have fewer : (⟨pending, loaded, bytes, overBudget⟩ : DependencySearch).remaining rows ≤ fuel := by
            simp only [DependencySearch.remaining, DependencySearch.unread, List.length_cons] at enough ⊢
            omega
          unfold firstMismatch
          simp only
          generalize currentMismatch reviewArtifactHash rows binding current ⟨pending, loaded, bytes, overBudget⟩ =
            outcome at round
          obtain ⟨reason, after⟩ := outcome
          cases reason with
          | some reason => exact ⟨_, rfl⟩
          | none => exact ih after (round.trans fewer)

theorem sum_deleted_le (weight : LogicalKey → ArtifactRow → Nat) (p : LogicalKey → ArtifactRow → Bool) :
    (rows.deleteWhere p).sum weight ≤ rows.sum weight := by
  have sublist : (rows.rows.filter fun entry => !p entry.1 entry.2).Sublist rows.rows := List.filter_sublist
  exact List.Sublist.sum_le_sum (sublist.map _) fun _ _ => Nat.zero_le _

theorem initial_remaining (envelope : ReviewArtifactEnvelope) :
    (initialSearch envelope).remaining rows ≤ rows.rows.length + 1 := by
  have unread := sum_deleted_le rows (fun _ _ => 1) fun key _ => ((initialSearch envelope).loaded.get? key).isSome
  have count : rows.sum (fun _ _ => 1) = rows.rows.length := by simp [Table.sum]
  simp only [DependencySearch.remaining, DependencySearch.unread, initialSearch, List.length_singleton] at unread ⊢
  omega

-- `dependencyMismatch` never runs out of fuel.
theorem dependency_search_finishes (envelope : ReviewArtifactEnvelope) : ∃ reason search,
    firstMismatch reviewArtifactHash rows envelope.binding (rows.rows.length + 1) (initialSearch envelope) =
        some (reason, search) ∧
      dependencyMismatch reviewArtifactHash rows envelope =
        if search.overBudget then some .artifactBudget else reason := by
  obtain ⟨⟨reason, search⟩, finished⟩ := first_mismatch_finishes reviewArtifactHash rows envelope.binding _ _
    (initial_remaining rows envelope)
  refine ⟨reason, search, finished, ?_⟩
  rw [dependencyMismatch, finished]

end Rounds

section Soundness

variable {target : ReviewArtifactEnvelope}

-- What a search has loaded is the artifact it started from, or stored.
def Loads (reviewArtifactHash : ReviewArtifactEnvelope → Digest) (rows : Table LogicalKey ArtifactRow)
    (target : ReviewArtifactEnvelope) (search : DependencySearch) : Prop :=
  ∀ key prior, search.loaded.get? key = some prior →
    Provided reviewArtifactHash rows target.binding key prior ∨ prior = target

theorem read_sound {key : LogicalKey} {search after : DependencySearch} {prior : ReviewArtifactEnvelope}
    (loads : Loads reviewArtifactHash rows target search)
    (read : readPrior reviewArtifactHash rows target.binding key search = (some prior, after)) :
    Loads reviewArtifactHash rows target after ∧
      (Provided reviewArtifactHash rows target.binding key prior ∨ prior = target) := by
  unfold readPrior at read
  cases loaded : search.loaded.get? key with
  | some cached =>
      rw [loaded] at read
      obtain ⟨same, rfl⟩ := Prod.mk.inj read
      obtain rfl := Option.some.inj same
      exact ⟨loads, loads key cached loaded⟩
  | none =>
      rw [loaded] at read
      cases stored : rows.get? key with
      | none =>
          rw [stored] at read
          cases read
      | some row =>
          rw [stored] at read
          by_cases beyond : reviewArtifactBudgetBytes < search.bytes + row.envelope.encodedBytes
          · simp only [beyond, if_true] at read
            cases read
          · simp only [beyond, if_false] at read
            cases decodes : decodeArtifact reviewArtifactHash key row target.binding with
            | none =>
                rw [decodes] at read
                cases read
            | some found =>
                rw [decodes] at read
                obtain ⟨same, rfl⟩ := Prod.mk.inj read
                obtain rfl := Option.some.inj same
                have provided : Provided reviewArtifactHash rows target.binding key found := ⟨row, stored, decodes⟩
                refine ⟨?_, .inl provided⟩
                intro k prior here
                rcases Table.get?_set_cases here with ⟨same, rfl⟩ | ⟨_, here⟩
                · exact .inl (same ▸ provided)
                · exact loads k prior here

theorem dependencies_sound (dependencies : List ArtifactDependency) (seen : List LogicalKey)
    {search after : DependencySearch} (loads : Loads reviewArtifactHash rows target search)
    (passed : dependenciesMismatch reviewArtifactHash rows target.binding target seen dependencies search = (none, after)) :
    Loads reviewArtifactHash rows target after ∧
      (dependencies.map ArtifactDependency.logicalKey).Nodup ∧
      ∀ dependency ∈ dependencies, dependency.logicalKey ∉ seen ∧ ∃ prior,
        Provided reviewArtifactHash rows target.binding dependency.logicalKey prior ∧ prior.order < target.order ∧
          reviewArtifactHash prior = dependency.payloadHash := by
  induction dependencies generalizing seen search with
  | nil =>
      obtain ⟨_, rfl⟩ := Prod.mk.inj passed
      exact ⟨loads, List.nodup_nil, nofun⟩
  | cons dependency rest ih =>
      unfold dependenciesMismatch at passed
      by_cases twice : dependency.logicalKey ∈ seen
      · rw [if_pos twice] at passed
        cases passed
      · rw [if_neg twice] at passed
        cases read : readPrior reviewArtifactHash rows target.binding dependency.logicalKey search with
        | mk prior between =>
            rw [read] at passed
            cases prior with
            | none => cases passed
            | some prior =>
                by_cases wrong : target.order ≤ prior.order ∨ reviewArtifactHash prior ≠ dependency.payloadHash
                · simp only [wrong, if_true] at passed
                  cases passed
                · simp only [wrong, if_false] at passed
                  obtain ⟨loadsBetween, found⟩ := read_sound loads read
                  obtain ⟨loadsAfter, distinct, others⟩ := ih (dependency.logicalKey :: seen) loadsBetween passed
                  have earlier : prior.order < target.order := by omega
                  have hashed : reviewArtifactHash prior = dependency.payloadHash :=
                    not_not.mp fun other => wrong (.inr other)
                  have provided : Provided reviewArtifactHash rows target.binding dependency.logicalKey prior := by
                    rcases found with provided | rfl
                    · exact provided
                    · exact absurd earlier (Nat.lt_irrefl _)
                  refine ⟨loadsAfter, ?_, ?_⟩
                  · rw [List.map_cons, List.nodup_cons]
                    refine ⟨?_, distinct⟩
                    intro listed
                    obtain ⟨other, later, same⟩ := List.mem_map.mp listed
                    exact (others other later).1 (same ▸ List.mem_cons_self)
                  · intro other listed
                    rcases List.mem_cons.mp listed with rfl | later
                    · exact ⟨twice, prior, provided, earlier, hashed⟩
                    · obtain ⟨unseen, support⟩ := others other later
                      exact ⟨fun before => unseen (List.mem_cons_of_mem _ before), support⟩

theorem publication_sound {search after : DependencySearch} (loads : Loads reviewArtifactHash rows target search)
    (passed : publicationMismatch reviewArtifactHash rows target.binding target search = (none, after)) :
    (∀ prepared, target.artifact = .publicationPrepared prepared → 0 < prepared.sequence → ∃ prior,
      Provided reviewArtifactHash rows target.binding (.settled (prepared.sequence - 1)) prior ∧
        prior.artifact.kind = .publicationSettled) ∧
    ∀ settled, target.artifact = .publicationSettled settled → ∃ prepared,
      Provided reviewArtifactHash rows target.binding (.prepared settled.sequence)
          ⟨target.binding, .publicationPrepared prepared⟩ ∧
        prepared.decisionId = settled.decisionId ∧
        reviewArtifactHash ⟨target.binding, .publicationPrepared prepared⟩ = settled.preparedHash := by
  unfold publicationMismatch at passed
  constructor
  · intro artifact kind later
    simp only [kind, later, if_true] at passed
    cases read : readPrior reviewArtifactHash rows target.binding (.settled (artifact.sequence - 1)) search with
    | mk prior between =>
        rw [read] at passed
        cases prior with
        | none => cases passed
        | some prior =>
            by_cases wrong : target.order ≤ prior.order ∨ prior.artifact.kind ≠ .publicationSettled
            · simp only [wrong, if_true] at passed
              cases passed
            · rcases (read_sound loads read).2 with provided | rfl
              · exact ⟨prior, provided, not_not.mp fun other => wrong (.inr other)⟩
              · exact absurd (.inl (Nat.le_refl _)) wrong
  · intro artifact kind
    simp only [kind] at passed
    cases read : readPrior reviewArtifactHash rows target.binding (.prepared artifact.sequence) search with
    | mk prior between =>
        rw [read] at passed
        cases prior with
        | none => cases passed
        | some prior =>
            by_cases wrong : target.order ≤ prior.order
            · simp only [wrong, if_true] at passed
              cases passed
            · simp only [wrong, if_false] at passed
              rcases (read_sound loads read).2 with provided | rfl
              · obtain ⟨priorBinding, priorArtifact⟩ := prior
                obtain rfl : priorBinding = target.binding := provided.binding_eq
                cases priorArtifact with
                | publicationPrepared prepared =>
                    by_cases other : prepared.decisionId ≠ artifact.decisionId ∨
                        reviewArtifactHash ⟨target.binding, .publicationPrepared prepared⟩ ≠ artifact.preparedHash
                    · simp only [other, if_true] at passed
                      cases passed
                    · exact ⟨prepared, provided, not_not.mp fun no => other (.inl no), not_not.mp fun no => other (.inr no)⟩
                | brief value paths => cases passed
                | report specialist value evidence paths => cases passed
                | openedPaths paths => cases passed
                | publicationSettled settled => cases passed
                | finalSummary payload dependencies inputs => cases passed
              · exact absurd (Nat.le_refl _) wrong

theorem initial_loads (target : ReviewArtifactEnvelope) (pending : List ReviewArtifactEnvelope) :
    Loads reviewArtifactHash rows target { initialSearch target with pending } := by
  intro key prior here
  simp only [initialSearch, Table.get?_set, Table.get?_empty] at here
  obtain ⟨_, here⟩ := Option.ite_none_right_eq_some.mp here
  exact .inr (Option.some.inj here).symm

theorem supported_of_no_mismatch (fits : dependencyMismatch reviewArtifactHash rows target = none) :
    Supported reviewArtifactHash rows target := by
  have loads : Loads reviewArtifactHash rows target { initialSearch target with pending := [] } := initial_loads target []
  obtain ⟨reason, search, finished, decided⟩ := dependency_search_finishes reviewArtifactHash rows target
  rw [fits] at decided
  have passed : reason = none := by
    by_cases beyond : search.overBudget = true
    · simp [beyond] at decided
    · simpa [beyond] using decided.symm
  subst passed
  simp only [initialSearch, firstMismatch] at finished
  have first : ∃ after, currentMismatch reviewArtifactHash rows target.binding target
      { initialSearch target with pending := [] } = (none, after) := by
    simp only [initialSearch]
    generalize currentMismatch reviewArtifactHash rows target.binding target _ = outcome at finished
    obtain ⟨reason, after⟩ := outcome
    cases reason with
    | none => exact ⟨after, rfl⟩
    | some reason => cases finished
  obtain ⟨after, passed⟩ := first
  unfold currentMismatch at passed
  cases checked : dependenciesMismatch reviewArtifactHash rows target.binding target [] target.reviewArtifactDependencies
      { initialSearch target with pending := [] } with
  | mk reason between =>
      rw [checked] at passed
      cases reason with
      | some reason => cases passed
      | none =>
          obtain ⟨loadsBetween, distinct, dependencies⟩ := dependencies_sound _ _ loads checked
          obtain ⟨previous, prepared⟩ := publication_sound loadsBetween passed
          exact ⟨distinct, fun dependency listed => (dependencies dependency listed).2, previous, prepared⟩

end Soundness

section Completeness

variable {target : ReviewArtifactEnvelope}

-- A search on its way, while it fits the budget with every row it has not read.
structure Reads (reviewArtifactHash : ReviewArtifactEnvelope → Digest) (rows : Table LogicalKey ArtifactRow)
    (target : ReviewArtifactEnvelope) (search : DependencySearch) : Prop where
  loads : ∀ key prior, search.loaded.get? key = some prior →
    Provided reviewArtifactHash rows target.binding key prior ∨ rows.get? key = none
  pending : ∀ envelope ∈ search.pending, envelope = target ∨ ∃ key, Provided reviewArtifactHash rows target.binding key envelope
  bytes : search.bytes + (search.unread rows).sum (fun _ row => row.envelope.encodedBytes) ≤ reviewArtifactBudgetBytes
  within : search.overBudget = false

variable {search : DependencySearch}

theorem read_finds {key : LogicalKey} {prior : ReviewArtifactEnvelope} (reads : Reads reviewArtifactHash rows target search)
    (provided : Provided reviewArtifactHash rows target.binding key prior) :
    ∃ after, readPrior reviewArtifactHash rows target.binding key search = (some prior, after) ∧
      Reads reviewArtifactHash rows target after := by
  obtain ⟨row, stored, decodes⟩ := provided
  unfold readPrior
  cases loaded : search.loaded.get? key with
  | some cached =>
      rcases reads.loads key cached loaded with before | absent
      · obtain rfl := before.unique ⟨row, stored, decodes⟩
        exact ⟨search, rfl, reads⟩
      · rw [absent] at stored
        cases stored
  | none =>
      have fewer := Table.sum_erase ((unread_row rows loaded).trans stored) fun _ row => row.envelope.encodedBytes
      have bytes := reads.bytes
      have within : ¬reviewArtifactBudgetBytes < search.bytes + row.envelope.encodedBytes := by omega
      simp only [stored, within, if_false, decodes]
      refine ⟨_, rfl, ?_, ?_, ?_, reads.within⟩
      · intro k found here
        rcases Table.get?_set_cases here with ⟨same, rfl⟩ | ⟨_, here⟩
        · exact .inl (same ▸ ⟨row, stored, decodes⟩)
        · exact reads.loads k found here
      · intro envelope listed
        rcases List.mem_cons.mp listed with rfl | before
        · exact .inr ⟨key, row, stored, decodes⟩
        · exact reads.pending envelope before
      · simp only [DependencySearch.unread, unread_load] at fewer bytes ⊢
        omega

variable {current : ReviewArtifactEnvelope}

theorem dependencies_pass (dependencies : List ArtifactDependency) (seen : List LogicalKey)
    (reads : Reads reviewArtifactHash rows target search)
    (distinct : (dependencies.map ArtifactDependency.logicalKey).Nodup)
    (unseen : ∀ dependency ∈ dependencies, dependency.logicalKey ∉ seen)
    (support : ∀ dependency ∈ dependencies, ∃ prior,
      Provided reviewArtifactHash rows target.binding dependency.logicalKey prior ∧ prior.order < current.order ∧
        reviewArtifactHash prior = dependency.payloadHash) :
    ∃ after, dependenciesMismatch reviewArtifactHash rows target.binding current seen dependencies search = (none, after) ∧
      Reads reviewArtifactHash rows target after := by
  induction dependencies generalizing seen search with
  | nil => exact ⟨search, rfl, reads⟩
  | cons dependency rest ih =>
      obtain ⟨prior, provided, earlier, hashed⟩ := support dependency List.mem_cons_self
      obtain ⟨between, read, readsBetween⟩ := read_finds reads provided
      obtain ⟨fresh, distinct⟩ := List.nodup_cons.mp distinct
      have right : ¬(current.order ≤ prior.order ∨ reviewArtifactHash prior ≠ dependency.payloadHash) := by
        rintro (late | other)
        · omega
        · exact other hashed
      unfold dependenciesMismatch
      rw [if_neg (unseen dependency List.mem_cons_self), read]
      simp only [right, if_false]
      refine ih (dependency.logicalKey :: seen) readsBetween distinct ?_ fun other listed =>
        support other (List.mem_cons_of_mem _ listed)
      intro other listed before
      rcases List.mem_cons.mp before with same | earlier
      · exact fresh (List.mem_map.mpr ⟨other, listed, same⟩)
      · exact unseen other (List.mem_cons_of_mem _ listed) earlier

theorem publication_pass (reads : Reads reviewArtifactHash rows target search)
    (sameBinding : current.binding = target.binding) (supported : Supported reviewArtifactHash rows current) :
    ∃ after, publicationMismatch reviewArtifactHash rows target.binding current search = (none, after) ∧
      Reads reviewArtifactHash rows target after := by
  obtain ⟨currentBinding, artifact⟩ := current
  obtain rfl : currentBinding = target.binding := sameBinding
  cases artifact with
  | publicationPrepared prepared =>
      by_cases later : 0 < prepared.sequence
      · obtain ⟨prior, provided, kind⟩ := supported.previous prepared rfl later
        obtain ⟨after, read, readsAfter⟩ := read_finds reads provided
        have key : prior.order = (LogicalKey.settled (prepared.sequence - 1)).order :=
          congrArg LogicalKey.order provided.key_eq.symm
        have right : ¬((⟨target.binding, .publicationPrepared prepared⟩ : ReviewArtifactEnvelope).order ≤ prior.order ∨
            prior.artifact.kind ≠ .publicationSettled) := by
          rintro (late | other)
          · rw [key] at late
            simp only [ReviewArtifactEnvelope.order, ReviewArtifactEnvelope.logicalKey, ReviewArtifact.logicalKey,
              LogicalKey.order] at late
            omega
          · exact other kind
        refine ⟨after, ?_, readsAfter⟩
        simp only [publicationMismatch, later, if_true, read, right, if_false]
      · refine ⟨search, ?_, reads⟩
        simp only [publicationMismatch, later, if_false]
  | publicationSettled settled =>
      obtain ⟨prepared, provided, decision, hashed⟩ := supported.prepared settled rfl
      obtain ⟨after, read, readsAfter⟩ := read_finds reads provided
      have key : (⟨target.binding, .publicationPrepared prepared⟩ : ReviewArtifactEnvelope).order =
          (LogicalKey.prepared settled.sequence).order := congrArg LogicalKey.order provided.key_eq.symm
      have right : ¬(⟨target.binding, .publicationSettled settled⟩ : ReviewArtifactEnvelope).order ≤
          (⟨target.binding, .publicationPrepared prepared⟩ : ReviewArtifactEnvelope).order := by
        rw [key]
        simp only [ReviewArtifactEnvelope.order, ReviewArtifactEnvelope.logicalKey, ReviewArtifact.logicalKey,
          LogicalKey.order]
        omega
      refine ⟨after, ?_, readsAfter⟩
      simp only [publicationMismatch, read, right, if_false]
      rw [if_neg]
      rintro (other | other)
      · exact other decision
      · exact other hashed
  | brief value paths => exact ⟨search, rfl, reads⟩
  | report specialist value evidence paths => exact ⟨search, rfl, reads⟩
  | openedPaths paths => exact ⟨search, rfl, reads⟩
  | finalSummary payload dependencies inputs => exact ⟨search, rfl, reads⟩

theorem current_pass (reads : Reads reviewArtifactHash rows target search)
    (sameBinding : current.binding = target.binding) (supported : Supported reviewArtifactHash rows current) :
    ∃ after, currentMismatch reviewArtifactHash rows target.binding current search = (none, after) ∧
      Reads reviewArtifactHash rows target after := by
  obtain ⟨between, passed, readsBetween⟩ := dependencies_pass current.reviewArtifactDependencies [] reads
    supported.distinct (fun _ _ => List.not_mem_nil) (sameBinding ▸ supported.dependencies)
  obtain ⟨after, passedAll, readsAfter⟩ := publication_pass readsBetween sameBinding supported
  refine ⟨after, ?_, readsAfter⟩
  rw [currentMismatch, passed]
  exact passedAll

theorem first_mismatch_passes
    (supported : ∀ envelope, (envelope = target ∨ ∃ key, Provided reviewArtifactHash rows target.binding key envelope) →
      Supported reviewArtifactHash rows envelope)
    (fuel : Nat) {search after : DependencySearch} {reason : Option DependencyMismatch}
    (reads : Reads reviewArtifactHash rows target search)
    (finished : firstMismatch reviewArtifactHash rows target.binding fuel search = some (reason, after)) :
    reason = none ∧ after.overBudget = false := by
  induction fuel generalizing search with
  | zero =>
      obtain ⟨pending, loaded, bytes, overBudget⟩ := search
      cases pending with
      | nil =>
          obtain ⟨rfl, rfl⟩ := Prod.mk.inj (Option.some.inj finished)
          exact ⟨rfl, reads.within⟩
      | cons current pending => cases finished
  | succ fuel ih =>
      obtain ⟨pending, loaded, bytes, overBudget⟩ := search
      cases pending with
      | nil =>
          obtain ⟨rfl, rfl⟩ := Prod.mk.inj (Option.some.inj finished)
          exact ⟨rfl, reads.within⟩
      | cons current pending =>
          have here := reads.pending current List.mem_cons_self
          have sameBinding : current.binding = target.binding := by
            rcases here with rfl | ⟨key, provided⟩
            · rfl
            · exact provided.binding_eq
          have popped : Reads reviewArtifactHash rows target ⟨pending, loaded, bytes, overBudget⟩ :=
            ⟨reads.loads, fun envelope listed => reads.pending envelope (List.mem_cons_of_mem _ listed), reads.bytes,
              reads.within⟩
          obtain ⟨next, passed, readsNext⟩ := current_pass popped sameBinding (supported current here)
          unfold firstMismatch at finished
          simp only [passed] at finished
          exact ih readsNext finished

theorem no_mismatch_of_supported
    (supported : ∀ envelope, (envelope = target ∨ ∃ key, Provided reviewArtifactHash rows target.binding key envelope) →
      Supported reviewArtifactHash rows envelope)
    (reads : Reads reviewArtifactHash rows target (initialSearch target)) :
    dependencyMismatch reviewArtifactHash rows target = none := by
  obtain ⟨reason, search, finished, decided⟩ := dependency_search_finishes reviewArtifactHash rows target
  obtain ⟨rfl, within⟩ := first_mismatch_passes supported _ reads finished
  rw [decided, within]
  rfl

end Completeness
end PrAgent
