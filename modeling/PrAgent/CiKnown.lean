import PrAgent.CiSummary
set_option autoImplicit false

namespace PrAgent

section Latest

-- An observation takes the place of an earlier one only when it is newer.
def newest (known : Option CiCheckFact) (fact : CiCheckFact) : Option CiCheckFact :=
  match known with
  | none => some fact
  | some old => if old.observedAt < fact.observedAt then some fact else some old

-- The latest observation of a check.
def latest (observed : List CiCheckFact) (name : String) : Option CiCheckFact :=
  (observed.filter fun fact => fact.name = name).foldl newest none

def knownOpen (observed : List CiCheckFact) (name : String) : Bool := (latest observed name).any blocksPassing

theorem latest_append_one (observed : List CiCheckFact) (fact : CiCheckFact) (name : String) :
    latest (observed ++ [fact]) name =
      if fact.name = name then newest (latest observed name) fact else latest observed name := by
  unfold latest
  by_cases named : fact.name = name
  · simp [List.filter_append, named]
  · simp [List.filter_append, named]

theorem latest_append_other {observed more : List CiCheckFact} {name : String} (others : ∀ fact ∈ more, fact.name ≠ name) :
    latest (observed ++ more) name = latest observed name := by
  have nothing : (more.filter fun fact => fact.name = name) = [] := by simpa using others
  rw [latest, List.filter_append, nothing, List.append_nil, latest]

variable {observed : List CiCheckFact}

theorem latest_ge {fact : CiCheckFact} (listed : fact ∈ observed) :
    ∃ known, latest observed fact.name = some known ∧ fact.observedAt ≤ known.observedAt := by
  induction observed using List.reverseRecOn with
  | nil => cases listed
  | append_singleton observed last ih =>
    rw [latest_append_one]
    rcases List.mem_append.mp listed with earlier | final
    · obtain ⟨known, found, le⟩ := ih earlier
      rw [found]
      split
      · unfold newest
        simp only
        split
        · next newer => exact ⟨last, rfl, le.trans newer.le⟩
        · exact ⟨known, rfl, le⟩
      · exact ⟨known, rfl, le⟩
    · obtain rfl := List.mem_singleton.mp final
      rw [if_pos rfl]
      cases found : latest observed fact.name with
      | none => exact ⟨fact, rfl, le_refl _⟩
      | some known =>
        unfold newest
        simp only
        split
        · exact ⟨fact, rfl, le_refl _⟩
        · next older => exact ⟨known, rfl, not_lt.mp older⟩

theorem latest_listed {name : String} {known : CiCheckFact}
    (found : latest observed name = some known) : known ∈ observed ∧ known.name = name := by
  induction observed using List.reverseRecOn generalizing known with
  | nil => cases found
  | append_singleton observed last ih =>
    rw [latest_append_one] at found
    have earlier : ∀ {old}, latest observed name = some old → old ∈ observed ++ [last] ∧ old.name = name := by
      intro old before
      exact ⟨List.mem_append_left _ (ih before).1, (ih before).2⟩
    split at found
    · next named =>
      have final : last ∈ observed ++ [last] ∧ last.name = name := ⟨by simp, named⟩
      cases before : latest observed name with
      | none =>
        rw [before] at found
        obtain rfl := Option.some.inj found
        exact final
      | some old =>
        rw [before, newest] at found
        split at found
        · obtain rfl := Option.some.inj found
          exact final
        · obtain rfl := Option.some.inj found
          exact earlier before
    · exact earlier found

-- More observations only make the latest one newer.
theorem latest_grows (more : List CiCheckFact) {name : String} {known : CiCheckFact} (found : latest observed name = some known) :
    ∃ known', latest (observed ++ more) name = some known' ∧ known.observedAt ≤ known'.observedAt := by
  obtain ⟨listed, rfl⟩ := latest_listed found
  exact latest_ge (List.mem_append_left more listed)

-- An observation that is no newer than the latest one is not remembered.
theorem latest_append_old {fact known : CiCheckFact}
    (found : latest observed fact.name = some known) (older : fact.observedAt ≤ known.observedAt) (name : String) :
    latest (observed ++ [fact]) name = latest observed name := by
  rw [latest_append_one]
  split
  · next named =>
    subst named
    rw [found, newest, if_neg (not_lt.mpr older)]
  · rfl

end Latest

section Remembering

variable (order : EntryOrder)

-- A fresh fact settles no check known to be open: not its own, and not the one that makes room for it.
def KeepsOpen (observed : List CiCheckFact) (checks : CiChecks) (incoming : CiCheckFact) : Prop :=
  (knownOpen observed incoming.name = true → blocksPassing incoming = true) ∧
    ∀ name ∈ evictee order ciStateMaxChecks checks incoming, knownOpen observed name = false

-- What the stored checks keep of what was observed, but for the entries of `pending` names: nothing newer, and an open
-- entry for each check known to be open.
structure Remembers (observed : List CiCheckFact) (checks : CiChecks) (pending : List String) : Prop where
  within : checks.rows.length ≤ ciStateMaxChecks
  bounded : ∀ name stored, checks.get? name = some stored →
    ∃ known, latest observed name = some known ∧ stored.observedAt ≤ known.observedAt
  kept : ∀ name, name ∉ pending → knownOpen observed name = true →
    ∃ stored, checks.get? name = some stored ∧ blocksPassing stored = true

variable {order} {observed : List CiCheckFact} {checks : CiChecks} {pending : List String}

theorem Remembers.empty : Remembers [] .empty [] where
  within := Nat.zero_le _
  bounded := by
    intro name stored found
    cases found
  kept := by
    intro name _ known
    cases known

theorem Remembers.observe (remembers : Remembers observed checks []) (more : List CiCheckFact) :
    Remembers (observed ++ more) checks (more.map CiCheckFact.name) where
  within := remembers.within
  bounded := by
    intro name stored found
    obtain ⟨known, before, le⟩ := remembers.bounded name stored found
    obtain ⟨known', after, le'⟩ := latest_grows more before
    exact ⟨known', after, le.trans le'⟩
  kept := by
    intro name other known
    have others : ∀ fact ∈ more, fact.name ≠ name := fun fact listed same =>
      other (List.mem_map.mpr ⟨fact, listed, same⟩)
    rw [knownOpen, latest_append_other others] at known
    exact remembers.kept name List.not_mem_nil known

theorem Remembers.mono {pending' : List String} (remembers : Remembers observed checks pending) (sub : pending ⊆ pending') :
    Remembers observed checks pending' :=
  { remembers with kept := fun name other => remembers.kept name fun listed => other (sub listed) }

-- A name is done with when its own stored entry is open if need be.
theorem Remembers.settle {name : String} (remembers : Remembers observed checks (name :: pending))
    (held : knownOpen observed name = true → ∃ stored, checks.get? name = some stored ∧ blocksPassing stored = true) :
    Remembers observed checks pending where
  within := remembers.within
  bounded := remembers.bounded
  kept := by
    intro name' other known
    by_cases same : name' = name
    · subst same
      exact held known
    · exact remembers.kept name' (List.not_mem_cons_of_ne_of_not_mem same other) known

theorem Remembers.merge {incoming : CiCheckFact} (remembers : Remembers observed checks (incoming.name :: pending))
    (listed : incoming ∈ observed) (fresh : ¬Stale checks incoming) (ok : KeepsOpen order observed checks incoming) :
    Remembers observed (applyCiCheckFact order checks incoming ciStateMaxChecks).checks pending := by
  obtain ⟨spec, within, _⟩ := apply_fresh_row order fresh remembers.within (by decide)
  refine ⟨within, ?_, ?_⟩
  · intro name stored found
    rw [spec] at found
    split at found
    · next named =>
      obtain rfl := Option.some.inj found
      rw [named]
      exact latest_ge listed
    · split at found
      · cases found
      · exact remembers.bounded name stored found
  · intro name other known
    rw [spec]
    by_cases named : name = incoming.name
    · rw [if_pos named]
      rw [named] at known
      exact ⟨incoming, rfl, ok.1 known⟩
    · rw [if_neg named]
      by_cases evicted : evictee order ciStateMaxChecks checks incoming = some name
      · have settled := ok.2 name evicted
        rw [known] at settled
        cases settled
      · rw [if_neg evicted]
        exact remembers.kept name (List.not_mem_cons_of_ne_of_not_mem named other) known

-- One more fact, applied or stale.
theorem Remembers.apply {incoming : CiCheckFact} (remembers : Remembers observed checks [])
    (ok : ¬Stale checks incoming → KeepsOpen order (observed ++ [incoming]) checks incoming) :
    Remembers (observed ++ [incoming]) (applyCiCheckFact order checks incoming ciStateMaxChecks).checks [] := by
  have seen : Remembers (observed ++ [incoming]) checks [incoming.name] := remembers.observe [incoming]
  by_cases stale : Stale checks incoming
  · rw [apply_stale stale]
    refine seen.settle fun known => ?_
    obtain ⟨existing, stored, older⟩ := stale
    obtain ⟨last, found, le⟩ := remembers.bounded _ _ stored
    rw [knownOpen, latest_append_old found (older.trans le)] at known
    exact remembers.kept _ List.not_mem_nil known
  · exact seen.merge (by simp) stale (ok stale)

end Remembering

section Snapshots

variable (order : EntryOrder)

-- The seeding loop settles no check known to be open.
def SeedKeepsOpen : List CiCheckFact → MergedSnapshot → List CiCheckFact → Prop
  | _, _, [] => True
  | observed, merging, fact :: facts =>
    (¬Stale merging.checks fact → KeepsOpen order (observed ++ [fact]) merging.checks fact) ∧
      SeedKeepsOpen (observed ++ [fact]) (seedFact order ciStateMaxChecks merging fact) facts

-- A refresh passes over the entry it picked for a name.
def passesOver (checks : CiChecks) (incoming : CiCheckFact) : Prop :=
  otherSource checks incoming = true ∨ Stale checks incoming

instance (checks : CiChecks) (fact : CiCheckFact) : Decidable (passesOver checks fact) :=
  inferInstanceAs (Decidable (_ ∨ _))

-- What the refreshing loop does for a name settles no check known to be open: the entry it leaves of the name is open
-- when the latest one is.
def NameKeepsOpen (observed : List CiCheckFact) (checks : CiChecks) (incoming : CiCheckFact) : Prop :=
  if passesOver checks incoming then
    knownOpen observed incoming.name = true → (checks.get? incoming.name).any blocksPassing = true
  else KeepsOpen order observed checks incoming

def picked (stored : CiChecks) (facts : List CiCheckFact) (name : String) : Option CiCheckFact :=
  pickSnapshotFactForName (facts.filter fun fact => fact.name = name) (stored.get? name)

def RefreshKeepsOpen (observed : List CiCheckFact) (stored : CiChecks) (facts : List CiCheckFact) :
    MergedSnapshot → List String → Prop
  | _, [] => True
  | merging, name :: names =>
    (∀ incoming ∈ picked stored facts name, NameKeepsOpen order observed merging.checks incoming) ∧
      RefreshKeepsOpen observed stored facts (refreshName order ciStateMaxChecks stored facts merging name) names

variable {order} {observed : List CiCheckFact} {stored : CiChecks} {facts : List CiCheckFact} {name : String}

theorem seedFact_checks (merging : MergedSnapshot) (fact : CiCheckFact) :
    (seedFact order ciStateMaxChecks merging fact).checks =
      (applyCiCheckFact order merging.checks fact ciStateMaxChecks).checks := by
  by_cases stale : Stale merging.checks fact
  · simp [seedFact, apply_stale stale]
  · have accepted := (accepted_iff order ciStateMaxChecks).mpr stale
    simp [seedFact, accepted]

variable {merging : MergedSnapshot}

theorem Remembers.seed (remembers : Remembers observed merging.checks []) (ok : SeedKeepsOpen order observed merging facts) :
    Remembers (observed ++ facts) (facts.foldl (seedFact order ciStateMaxChecks) merging).checks [] := by
  induction facts generalizing observed merging with
  | nil => simpa using remembers
  | cons fact facts ih =>
    have step := remembers.apply ok.1
    rw [← seedFact_checks] at step
    have rest := ih step ok.2
    rwa [List.append_assoc, List.singleton_append] at rest

theorem picked_listed {incoming : CiCheckFact} (found : picked stored facts name = some incoming) :
    incoming ∈ facts ∧ incoming.name = name := by
  have member : incoming ∈ facts.filter fun fact => fact.name = name := by
    unfold picked pickSnapshotFactForName at found
    rcases Option.or_eq_some_iff.mp found with matched | ⟨_, last⟩
    · split at matched
      · split at matched
        · exact List.mem_of_find?_eq_some matched
        · cases matched
      · cases matched
    · exact List.mem_of_getLast? last
  simpa using member

theorem picked_isSome (stored : CiChecks) (fact : CiCheckFact) (listed : fact ∈ facts) : (picked stored facts fact.name).isSome := by
  have member : fact ∈ facts.filter fun other => other.name = fact.name := by simp [listed]
  unfold picked pickSnapshotFactForName
  rw [Option.isSome_or, Bool.or_eq_true]
  right
  cases last : (facts.filter fun other => other.name = fact.name).getLast? with
  | none =>
    rw [List.getLast?_eq_none_iff.mp last] at member
    cases member
  | some _ => rfl

-- The two outcomes of the loop body for a name of the listing.
theorem refreshName_passed {incoming : CiCheckFact}
    (found : picked stored facts name = some incoming) (skips : passesOver merging.checks incoming) :
    refreshName order ciStateMaxChecks stored facts merging name = merging := by
  obtain ⟨_, rfl⟩ := picked_listed found
  unfold picked at found
  unfold refreshName
  rw [found]
  simp only
  split
  · rfl
  · next sources =>
    rcases skips with source | stale
    · exact absurd source sources
    · simp [apply_stale stale]

theorem refreshName_merged {incoming : CiCheckFact}
    (found : picked stored facts name = some incoming) (merged : ¬passesOver merging.checks incoming) :
    refreshName order ciStateMaxChecks stored facts merging name =
      { checks := (applyCiCheckFact order merging.checks incoming ciStateMaxChecks).checks
        truncated := merging.truncated || (applyCiCheckFact order merging.checks incoming ciStateMaxChecks).truncated
        materialChange := isMaterialCiFactChange (merging.checks.get? name) incoming || merging.materialChange } := by
  obtain ⟨_, rfl⟩ := picked_listed found
  unfold picked at found
  unfold refreshName
  rw [found]
  obtain ⟨sources, fresh⟩ := not_or.mp merged
  have accepted := (accepted_iff order ciStateMaxChecks).mpr fresh
  simp only [if_neg sources, accepted, Bool.not_true, Bool.false_eq_true, if_false]

theorem Remembers.refresh {names : List String}
    (seen : ∀ fact ∈ facts, fact ∈ observed) (listed : ∀ name ∈ names, ∃ fact ∈ facts, fact.name = name)
    (remembers : Remembers observed merging.checks names)
    (ok : RefreshKeepsOpen order observed stored facts merging names) :
    Remembers observed (names.foldl (refreshName order ciStateMaxChecks stored facts) merging).checks [] := by
  induction names generalizing merging with
  | nil => exact remembers
  | cons name names ih =>
    refine ih (fun name' later => listed name' (List.mem_cons_of_mem _ later)) ?_ ok.2
    obtain ⟨fact, member, rfl⟩ := listed name List.mem_cons_self
    obtain ⟨incoming, found⟩ := Option.isSome_iff_exists.mp (picked_isSome stored fact member)
    obtain ⟨incomingListed, named⟩ := picked_listed found
    have keeps := ok.1 incoming found
    unfold NameKeepsOpen at keeps
    by_cases skips : passesOver merging.checks incoming
    · rw [refreshName_passed found skips]
      rw [if_pos skips] at keeps
      refine remembers.settle fun known => ?_
      rw [named] at keeps
      exact (Option.any_eq_true _ _).mp (keeps known)
    · rw [refreshName_merged found skips]
      rw [if_neg skips] at keeps
      rw [← named] at remembers
      exact remembers.merge (seen incoming incomingListed) (not_or.mp skips).2 keeps

end Snapshots
end PrAgent
