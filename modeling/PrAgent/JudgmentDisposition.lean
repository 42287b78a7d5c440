import PrAgent.FindingBatchCall
set_option autoImplicit false

namespace PrAgent

-- What a candidate is told apart by.
structure CandidateIdentity where
  file : String
  startLine : Nat
  endLine : Nat
  title : String
  deriving DecidableEq, Repr

def BatchFinding.candidate (finding : BatchFinding) : CandidateIdentity :=
  ⟨finding.file, finding.startLine, finding.endLine, finding.title⟩

structure JudgmentDisposition where
  candidateId : String
  isAccepted : Bool
  deriving DecidableEq, Repr

section Awaiting

variable {Reaffirmed : Type} (minting : IdMinting) (specialist : SpecialistId)

def candidateFindingId (candidate : CandidateIdentity) : String :=
  minting.derivedFindingId
    [specialist.text, candidate.file, toString candidate.startLine, toString candidate.endLine, candidate.title]

def AcceptedPlacement.source {Finding : Type} : AcceptedPlacement Finding → FindingSource
  | .posted source _ _ _ _ => source
  | .resumed source _ _ _ => source
  | .summaryOnly source _ _ _ _ => source

def alreadyJudged (candidate : CandidateIdentity) (accepted : List (AcceptedPlacement BatchFinding)) : Bool :=
  accepted.any fun entry => entry.source = .specialist specialist && entry.placement.finding.candidate = candidate

-- The candidates of a report that still need a disposition, without the ids in `seen`.
def awaitingFrom (accepted : List (AcceptedPlacement BatchFinding)) (seen : List String) :
    List CandidateIdentity → List CandidateIdentity
  | [] => []
  | candidate :: rest =>
    if alreadyJudged specialist candidate accepted then awaitingFrom accepted seen rest
    else if candidateFindingId minting specialist candidate ∈ seen then awaitingFrom accepted seen rest
    else candidate :: awaitingFrom accepted (seen ++ [candidateFindingId minting specialist candidate]) rest

def awaitingCandidates (report : Option (List CandidateIdentity)) (ledger : FindingLedger BatchFinding Reaffirmed) :
    List CandidateIdentity :=
  match report with
  | none => []
  | some findings => awaitingFrom minting specialist ledger.accepted [] findings

end Awaiting

section Mismatch

-- The first disposition that is repeated or that nothing awaits.
def dispositionProblem (expected : List String) (seen : List String) : List JudgmentDisposition → Option String
  | [] => none
  | disposition :: rest =>
    if disposition.candidateId ∈ seen then some ("disposition candidate " ++ disposition.candidateId ++ " is repeated")
    else if disposition.candidateId ∉ expected then
      some ("disposition candidate " ++ disposition.candidateId ++ " is not awaiting judgment")
    else dispositionProblem expected (seen ++ [disposition.candidateId]) rest

def acceptedIds (dispositions : List JudgmentDisposition) : List String :=
  (dispositions.filter JudgmentDisposition.isAccepted).map JudgmentDisposition.candidateId

variable {Reaffirmed : Type} (minting : IdMinting) (specialist : SpecialistId)

def dispositionMismatch (report : Option (List CandidateIdentity)) (ledger : FindingLedger BatchFinding Reaffirmed)
    (findings : List CandidateIdentity) (dispositions : List JudgmentDisposition) : Option String :=
  let expected := (awaitingCandidates minting specialist report ledger).map (candidateFindingId minting specialist)
  let accepted := acceptedIds dispositions
  let published := findings.map (candidateFindingId minting specialist)
  (dispositionProblem expected [] dispositions).or <|
    ((expected.find? fun id => id ∉ dispositions.map JudgmentDisposition.candidateId).map fun id =>
      "disposition missing for candidate " ++ id).or <|
    ((published.find? fun id => id ∉ accepted).map fun id => "published finding " ++ id ++ " has no accepted disposition").or <|
    (accepted.find? fun id => id ∉ published).map fun id => "accepted disposition " ++ id ++ " is not in the published batch"

end Mismatch

section Lemmas

variable {Reaffirmed : Type} {minting : IdMinting} {specialist : SpecialistId}

theorem candidateFindingId_inj {first second : CandidateIdentity}
    (same : candidateFindingId minting specialist first = candidateFindingId minting specialist second) : first = second := by
  have parts := minting.derived_injective _ _ same
  simp only [List.cons.injEq, and_true, true_and] at parts
  obtain ⟨file, start, stop, title⟩ := parts
  cases first
  cases second
  simp only [CandidateIdentity.mk.injEq]
  exact ⟨file, toString_nat_inj start, toString_nat_inj stop, title⟩

variable {candidate : CandidateIdentity}

theorem alreadyJudged_iff {accepted : List (AcceptedPlacement BatchFinding)} :
    alreadyJudged specialist candidate accepted = true ↔
      ∃ entry ∈ accepted, entry.source = .specialist specialist ∧ entry.placement.finding.candidate = candidate := by
  simp [alreadyJudged]

theorem mem_awaitingFrom {accepted : List (AcceptedPlacement BatchFinding)} {seen : List String} {candidates : List CandidateIdentity} :
    candidate ∈ awaitingFrom minting specialist accepted seen candidates ↔
      candidate ∈ candidates ∧ alreadyJudged specialist candidate accepted = false ∧
        candidateFindingId minting specialist candidate ∉ seen := by
  induction candidates generalizing seen with
  | nil => simp [awaitingFrom]
  | cons head rest ih =>
      rw [awaitingFrom]
      by_cases judged : alreadyJudged specialist head accepted = true
      · rw [if_pos judged, ih, List.mem_cons]
        constructor
        · intro found
          exact ⟨.inr found.1, found.2⟩
        · intro found
          refine ⟨found.1.resolve_left ?_, found.2⟩
          intro same
          rw [same, judged] at found
          cases found.2.1
      · rw [if_neg judged]
        by_cases known : candidateFindingId minting specialist head ∈ seen
        · rw [if_pos known, ih, List.mem_cons]
          constructor
          · intro found
            exact ⟨.inr found.1, found.2⟩
          · intro found
            refine ⟨found.1.resolve_left ?_, found.2⟩
            intro same
            exact found.2.2 (same ▸ known)
        · rw [if_neg known, List.mem_cons, List.mem_cons, ih]
          constructor
          · intro found
            cases found with
            | inl here =>
                subst here
                exact ⟨.inl rfl, Bool.eq_false_iff.mpr judged, known⟩
            | inr later => exact ⟨.inr later.1, later.2.1, fun before => later.2.2 (List.mem_append_left _ before)⟩
          · intro found
            by_cases same : candidate = head
            · exact .inl same
            · refine .inr ⟨found.1.resolve_left same, found.2.1, ?_⟩
              intro either
              cases List.mem_append.mp either with
              | inl before => exact found.2.2 before
              | inr here => exact same (candidateFindingId_inj (List.mem_singleton.mp here))

-- A candidate is asked for when the report has it and no accepted entry is of its very file, lines and title.
theorem mem_awaiting {findings : List CandidateIdentity} {ledger : FindingLedger BatchFinding Reaffirmed} :
    candidate ∈ awaitingCandidates minting specialist (some findings) ledger ↔
      candidate ∈ findings ∧ alreadyJudged specialist candidate ledger.accepted = false := by
  rw [awaitingCandidates, mem_awaitingFrom]
  simp

theorem dispositionProblem_none {expected seen : List String} {dispositions : List JudgmentDisposition} :
    dispositionProblem expected seen dispositions = none ↔
      (dispositions.map JudgmentDisposition.candidateId).Nodup ∧
        ∀ disposition ∈ dispositions, disposition.candidateId ∉ seen ∧ disposition.candidateId ∈ expected := by
  induction dispositions generalizing seen with
  | nil => simp [dispositionProblem]
  | cons disposition rest ih =>
      rw [dispositionProblem, List.map_cons, List.nodup_cons]
      by_cases repeated : disposition.candidateId ∈ seen
      · rw [if_pos repeated]
        constructor
        · intro none_
          cases none_
        · intro whole
          exact absurd repeated (whole.2 disposition List.mem_cons_self).1
      · rw [if_neg repeated]
        by_cases asked : disposition.candidateId ∈ expected
        · rw [if_neg (not_not.mpr asked), ih]
          constructor
          · intro later
            refine ⟨⟨?_, later.1⟩, ?_⟩
            · intro again
              obtain ⟨other, listed, same⟩ := List.mem_map.mp again
              have apart := (later.2 other listed).1
              rw [same] at apart
              exact apart (List.mem_append_right _ (List.mem_singleton_self _))
            · intro other listed
              cases List.mem_cons.mp listed with
              | inl here =>
                  subst here
                  exact ⟨repeated, asked⟩
              | inr there => exact ⟨fun before => (later.2 other there).1 (List.mem_append_left _ before), (later.2 other there).2⟩
          · intro whole
            refine ⟨whole.1.2, ?_⟩
            intro other listed
            refine ⟨?_, (whole.2 other (List.mem_cons_of_mem _ listed)).2⟩
            intro either
            cases List.mem_append.mp either with
            | inl before => exact (whole.2 other (List.mem_cons_of_mem _ listed)).1 before
            | inr here =>
                apply whole.1.1
                rw [← List.mem_singleton.mp here]
                exact List.mem_map_of_mem listed
        · rw [if_pos asked]
          constructor
          · intro none_
            cases none_
          · intro whole
            exact absurd (whole.2 disposition List.mem_cons_self).2 asked

-- One disposition for each awaiting candidate, and the published candidates are the accepted ones.
structure Covers (awaiting : List String) (dispositions : List JudgmentDisposition) (published : List String) : Prop where
  once : (dispositions.map JudgmentDisposition.candidateId).Nodup
  asked : ∀ id, id ∈ dispositions.map JudgmentDisposition.candidateId ↔ id ∈ awaiting
  published : ∀ id, id ∈ published ↔ id ∈ acceptedIds dispositions

theorem mismatch_none_iff {report : Option (List CandidateIdentity)} {ledger : FindingLedger BatchFinding Reaffirmed}
    {findings : List CandidateIdentity} {dispositions : List JudgmentDisposition} :
    dispositionMismatch minting specialist report ledger findings dispositions = none ↔
      Covers ((awaitingCandidates minting specialist report ledger).map (candidateFindingId minting specialist)) dispositions
        (findings.map (candidateFindingId minting specialist)) := by
  rw [dispositionMismatch]
  simp only [Option.or_eq_none_iff, Option.map_eq_none_iff, List.find?_eq_none, decide_eq_true_eq, not_not,
    dispositionProblem_none]
  constructor
  · intro whole
    obtain ⟨⟨once, listed⟩, asked, accepted, published⟩ := whole
    refine ⟨once, ?_, fun id => ⟨accepted id, published id⟩⟩
    intro id
    constructor
    · intro given
      obtain ⟨disposition, here, rfl⟩ := List.mem_map.mp given
      exact (listed disposition here).2
    · exact asked id
  · intro covers
    refine ⟨⟨covers.once, ?_⟩, fun id => (covers.asked id).mpr, fun id => (covers.published id).mp,
      fun id => (covers.published id).mpr⟩
    intro disposition here
    exact ⟨List.not_mem_nil, (covers.asked _).mp (List.mem_map_of_mem here)⟩

end Lemmas

end PrAgent
