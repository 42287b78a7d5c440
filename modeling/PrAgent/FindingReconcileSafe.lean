import PrAgent.FindingReconcile
set_option autoImplicit false

namespace PrAgent

section Safe

variable (localeCompare : String → String → Int) (inventory : ReconcileInventory) (acceptedThisRun : List AcceptedThisRun)
  (observation : ReconcileObservation) (relation : ObservationRelation)

def offeredCandidates : List OverlapCandidate := retrievalCandidates localeCompare observation.toFindingSpan inventory acceptedThisRun

-- The observation continues an offered finding of the inventory, and `canonical` is its canonical finding.
def ContinuesTo (canonical : ReconcileFinding) : Prop :=
  ∃ target, relation = .continues target ∧
    target ∈ (offeredCandidates localeCompare inventory acceptedThisRun observation).map OverlapCandidate.findingId ∧
    (inventory.findings.get? target).isSome = true ∧
    (inventory.canonicalOf target).bind inventory.findings.get? = some canonical

-- It continues an offered finding that this run has accepted and the inventory does not hold.
def ContinuesAccepted (target : String) : Prop :=
  relation = .continues target ∧
    target ∈ (offeredCandidates localeCompare inventory acceptedThisRun observation).map OverlapCandidate.findingId ∧
    inventory.findings.get? target = none ∧ ∃ accepted ∈ acceptedThisRun, accepted.id = target

def KnownAnswers : Prop :=
  ∀ id ∈ relation.answeredIds, (inventory.findings.get? id).isSome = true ∨ ∃ accepted ∈ acceptedThisRun, accepted.id = id

-- The findings that the observation was compared with, each of which it names.
structure AllAnswered : Prop where
  offered : ∀ candidate ∈ offeredCandidates localeCompare inventory acceptedThisRun observation,
    candidate.findingId ∈ relation.answeredIds
  overlapping : ∀ id finding, inventory.findings.get? id = some finding →
    observation.overlaps finding.toInventoryFinding = true → id ∈ relation.answeredIds
  accepted : ∀ accepted ∈ acceptedThisRun, acceptedOverlaps observation.toFindingSpan accepted = true → accepted.id ∈ relation.answeredIds

-- What an outcome says of the answer it was given for. `minted` is the fresh id.
def ReconcileOutcome.Safe (minted : String) : ReconcileOutcome → Prop
  | .postThread id none links =>
    id = minted ∧ inventory.completeness = .complete ∧ (∀ target, relation ≠ .continues target) ∧
      KnownAnswers inventory acceptedThisRun relation ∧
      AllAnswered localeCompare inventory acceptedThisRun observation relation ∧
      ∀ link ∈ links, (∃ findingIds, relation = .uncertain findingIds) ∧
        ∃ candidate ∈ offeredCandidates localeCompare inventory acceptedThisRun observation, candidate.url = link
  | .postThread id (some reopened) links =>
    id = minted ∧ inventory.completeness = .complete ∧ links = [] ∧
      ∃ canonical, ContinuesTo localeCompare inventory acceptedThisRun observation relation canonical ∧
        canonical.id = reopened ∧ canonical.state = .resolved ∧ canonical.resolution = some .fixed
  | .reaffirm id severity =>
    severity = observation.severity ∧
      (ContinuesAccepted localeCompare inventory acceptedThisRun observation relation id ∨
        ∃ canonical, ContinuesTo localeCompare inventory acceptedThisRun observation relation canonical ∧
          canonical.id = id ∧ canonical.state = .open)
  | .promote id =>
    inventory.completeness = .complete ∧
      ∃ canonical, ContinuesTo localeCompare inventory acceptedThisRun observation relation canonical ∧
        canonical.id = id ∧ canonical.state = .open ∧ canonical.source = .summary
  | .suppressedDismissed id =>
    ∃ canonical, ContinuesTo localeCompare inventory acceptedThisRun observation relation canonical ∧
      canonical.id = id ∧ canonical.state = .resolved ∧ canonical.resolution ≠ some .fixed
  | .summaryOnly id reason => id = minted ∧ (reason = .inventoryIncomplete → inventory.completeness ≠ .complete)

variable {localeCompare inventory acceptedThisRun observation relation}

theorem overlapping_offered {id : String} {finding : ReconcileFinding} (stored : inventory.findings.get? id = some finding)
    (overlapping : observation.overlaps finding.toInventoryFinding = true) :
    inventoryCandidate finding ∈ offeredCandidates localeCompare inventory acceptedThisRun observation := by
  have held : finding ∈ inventory.findings.values :=
    List.mem_map.mpr ⟨(id, finding), (Table.get?_eq_some_iff _ _ _).mp stored, rfl⟩
  have listed : finding ∈ overlappedFindings observation.toFindingSpan inventory := List.mem_filter.mpr ⟨held, overlapping⟩
  exact List.mem_append_left _ (List.mem_append_left _ (List.mem_map_of_mem listed))

-- An accepted finding that overlaps is offered, or a finding of the inventory with its id is.
theorem accepted_offered {accepted : AcceptedThisRun} (listed : accepted ∈ acceptedThisRun)
    (overlapping : acceptedOverlaps observation.toFindingSpan accepted = true) :
    accepted.id ∈ (offeredCandidates localeCompare inventory acceptedThisRun observation).map OverlapCandidate.findingId := by
  by_cases known : accepted.id ∈ (overlappedFindings observation.toFindingSpan inventory).map (·.id)
  · obtain ⟨finding, inside, same⟩ := List.mem_map.mp known
    rw [← same]
    exact List.mem_map.mpr ⟨inventoryCandidate finding,
      List.mem_append_left _ (List.mem_append_left _ (List.mem_map_of_mem inside)), rfl⟩
  · have inside : accepted ∈ overlappedAccepted observation.toFindingSpan inventory acceptedThisRun :=
      List.mem_filter.mpr ⟨listed, by simp [known, overlapping]⟩
    exact List.mem_map.mpr ⟨acceptedCandidate accepted,
      List.mem_append_left _ (List.mem_append_right _ (List.mem_map_of_mem inside)), rfl⟩

theorem mem_firsts_id {α : Type} [DecidableEq α] (elements : List α) (element : α) :
    element ∈ firsts id elements ↔ element ∈ elements := by
  have keys : element ∈ (firsts id elements).map id ↔ element ∈ elements.map id := mem_keys_firsts elements element
  rwa [List.map_id, List.map_id] at keys

theorem known_answers {known : List String}
    (isKnown : known = inventory.findings.rows.map Prod.fst ++ acceptedThisRun.map AcceptedThisRun.id)
    (unknown : ((firsts id relation.answeredIds).filter fun findingId => findingId ∉ known) = []) :
    KnownAnswers inventory acceptedThisRun relation := by
  intro answer answered
  have inside : answer ∈ known := by
    have passes := List.filter_eq_nil_iff.mp unknown answer ((mem_firsts_id _ _).mpr answered)
    simpa using passes
  rw [isKnown] at inside
  cases List.mem_append.mp inside with
  | inl held =>
    obtain ⟨⟨key, finding⟩, row, rfl⟩ := List.mem_map.mp held
    left
    rw [(Table.get?_eq_some_iff _ key finding).mpr row]
    rfl
  | inr accepted =>
    obtain ⟨entry, row, rfl⟩ := List.mem_map.mp accepted
    exact .inr ⟨entry, row, rfl⟩

theorem continue_safe (target minted : String) {outcome : ReconcileOutcome}
    (step : continueFinding target observation inventory acceptedThisRun
      ((offeredCandidates localeCompare inventory acceptedThisRun observation).map OverlapCandidate.findingId)
      (inventory.completeness = .complete) minted = .outcome outcome) :
    outcome.Safe localeCompare inventory acceptedThisRun observation (.continues target) minted := by
  rw [continueFinding] at step
  by_cases offered : target ∈
      (offeredCandidates localeCompare inventory acceptedThisRun observation).map OverlapCandidate.findingId
  · cases stored : inventory.findings.get? target with
    | none =>
      simp only [stored, offered, not_true_eq_false, if_false] at step
      by_cases unknown : (acceptedThisRun.all fun entry => decide (entry.id ≠ target)) = true
      · rw [if_pos unknown] at step
        cases step
      · rw [if_neg unknown] at step
        cases step
        have accepted : ∃ entry ∈ acceptedThisRun, entry.id = target := by simpa using unknown
        exact ⟨rfl, .inl ⟨rfl, offered, stored, accepted⟩⟩
    | some finding =>
      simp only [stored, offered, not_true_eq_false, if_false] at step
      cases found : (inventory.canonicalOf target).bind inventory.findings.get? with
      | none =>
        rw [found] at step
        cases step
      | some canonical =>
        have continues : ContinuesTo localeCompare inventory acceptedThisRun observation (.continues target) canonical :=
          ⟨target, rfl, offered, by rw [stored]; rfl, found⟩
        simp only [found] at step
        by_cases isOpen : canonical.state = .open
        · rw [if_pos isOpen] at step
          by_cases promotes : canonical.source = .summary ∧ decide (inventory.completeness = .complete) = true
          · rw [if_pos promotes] at step
            cases step
            exact ⟨of_decide_eq_true promotes.2, canonical, continues, rfl, isOpen, promotes.1⟩
          · rw [if_neg promotes] at step
            cases step
            exact ⟨rfl, .inr ⟨canonical, continues, rfl, isOpen⟩⟩
        · have resolved : canonical.state = .resolved := by
            cases state : canonical.state with
            | «open» => exact absurd state isOpen
            | resolved => rfl
          rw [if_neg isOpen] at step
          by_cases fixed : canonical.resolution = some .fixed
          · rw [if_pos fixed] at step
            by_cases complete : inventory.completeness = .complete
            · rw [if_pos (decide_eq_true complete)] at step
              cases step
              exact ⟨rfl, complete, rfl, canonical, continues, rfl, resolved, fixed⟩
            · rw [if_neg (by simpa using complete)] at step
              cases step
              exact ⟨rfl, fun _ => complete⟩
          · rw [if_neg fixed] at step
            cases step
            exact ⟨canonical, continues, rfl, resolved, fixed⟩
  · cases stored : inventory.findings.get? target with
    | none =>
      simp only [stored, offered, not_false_eq_true, if_true] at step
      split at step <;> cases step
    | some finding =>
      simp only [stored, offered, not_false_eq_true, if_true] at step
      cases step

theorem answered_safe (minted : String) (overlapRoundsLeft : Nat) (answers : ∀ target, relation ≠ .continues target)
    {outcome : ReconcileOutcome}
    (step : reconcileAnswered relation inventory acceptedThisRun
      (offeredCandidates localeCompare inventory acceptedThisRun observation) overlapRoundsLeft minted = .outcome outcome) :
    outcome.Safe localeCompare inventory acceptedThisRun observation relation minted := by
  simp only [reconcileAnswered] at step
  generalize isKnown : inventory.findings.rows.map Prod.fst ++ acceptedThisRun.map AcceptedThisRun.id = known at step
  by_cases unknown : ((firsts id relation.answeredIds).filter fun findingId => findingId ∉ known) = []
  · rw [if_neg (by simpa using unknown)] at step
    by_cases complete : inventory.completeness = .complete
    · rw [if_neg (by simpa using complete)] at step
      by_cases unanswered : ((offeredCandidates localeCompare inventory acceptedThisRun observation).filter fun candidate =>
          candidate.findingId ∉ relation.answeredIds) = []
      · rw [if_neg (by simpa using unanswered)] at step
        cases step
        have offered : ∀ candidate ∈ offeredCandidates localeCompare inventory acceptedThisRun observation,
            candidate.findingId ∈ relation.answeredIds := by
          intro candidate listed
          have passes := List.filter_eq_nil_iff.mp unanswered candidate listed
          simpa using passes
        have overlapping : ∀ id finding, inventory.findings.get? id = some finding →
            observation.overlaps finding.toInventoryFinding = true → id ∈ relation.answeredIds := by
          intro id finding stored near
          have answered := offered _ (overlapping_offered stored near)
          rwa [show (inventoryCandidate finding).findingId = id from inventory.keyed id finding stored] at answered
        have accepted : ∀ accepted ∈ acceptedThisRun, acceptedOverlaps observation.toFindingSpan accepted = true →
            accepted.id ∈ relation.answeredIds := by
          intro accepted listed near
          have inside : accepted.id ∈ (offeredCandidates localeCompare inventory acceptedThisRun observation).map
              OverlapCandidate.findingId := accepted_offered listed near
          obtain ⟨candidate, inside, same⟩ := List.mem_map.mp inside
          exact same ▸ offered candidate inside
        have links : ∀ link ∈ relatedLinks relation (offeredCandidates localeCompare inventory acceptedThisRun observation),
            (∃ findingIds, relation = .uncertain findingIds) ∧
              ∃ candidate ∈ offeredCandidates localeCompare inventory acceptedThisRun observation, candidate.url = link := by
          intro link listed
          cases relation with
          | uncertain findingIds =>
            obtain ⟨candidate, inside, same⟩ := List.mem_map.mp listed
            exact ⟨⟨findingIds, rfl⟩, candidate, List.mem_of_mem_filter inside, same⟩
          | new => cases listed
          | continues target => cases listed
          | distinctFrom findingIds reason => cases listed
        exact ⟨rfl, complete, answers, known_answers isKnown.symm unknown, ⟨offered, overlapping, accepted⟩, links⟩
      · rw [if_pos (by simpa using unanswered)] at step
        split at step
        · cases step
        · cases step
          exact ⟨rfl, fun incomplete => by cases incomplete⟩
    · rw [if_pos (by simpa using complete)] at step
      cases step
      exact ⟨rfl, fun _ => complete⟩
  · rw [if_pos (by simpa using unknown)] at step
    cases step

theorem reconcile_safe {minted : String} {overlapRoundsLeft : Nat} {outcome : ReconcileOutcome}
    (step : reconcileObservation localeCompare observation relation inventory acceptedThisRun overlapRoundsLeft minted =
      .outcome outcome) : outcome.Safe localeCompare inventory acceptedThisRun observation relation minted := by
  cases relation with
  | continues target => exact continue_safe target minted step
  | new => exact answered_safe minted overlapRoundsLeft (by simp) step
  | distinctFrom findingIds reason => exact answered_safe minted overlapRoundsLeft (by simp) step
  | uncertain findingIds => exact answered_safe minted overlapRoundsLeft (by simp) step

end Safe
end PrAgent
