import PrAgent.FindingBatchTurns
set_option autoImplicit false

namespace PrAgent

section Kinds

inductive FindingEnd
  | held | postable | reaffirmed | dismissed
  deriving DecidableEq, Repr

def ending : Option ReconcileOutcome → FindingEnd
  | none => .postable
  | some (.postThread _ _ _) => .postable
  | some (.promote _) => .postable
  | some (.summaryOnly _ _) => .held
  | some (.reaffirm _ _) => .reaffirmed
  | some (.suppressedDismissed _) => .dismissed

theorem perm_of_endings {α : Type} (kind : α → FindingEnd) (entries : List α) :
    ((entries.filter fun entry => kind entry = .held) ++ (entries.filter fun entry => kind entry = .postable) ++
      ((entries.filter fun entry => kind entry = .reaffirmed) ++ (entries.filter fun entry => kind entry = .dismissed))).Perm
        entries := by
  induction entries with
  | nil => exact List.Perm.nil
  | cons entry rest ih =>
      refine List.Perm.trans ?_ (ih.cons entry)
      cases found : kind entry with
      | held => simp [found]
      | postable =>
          simp only [found, List.filter_cons, reduceCtorEq, decide_false, decide_true, if_true, Bool.false_eq_true, if_false,
            List.append_assoc, List.cons_append]
          exact List.perm_middle
      | reaffirmed =>
          simp only [found, List.filter_cons, reduceCtorEq, decide_false, decide_true, if_true, Bool.false_eq_true, if_false,
            List.cons_append]
          exact List.perm_middle
      | dismissed =>
          simp only [found, List.filter_cons, reduceCtorEq, decide_false, decide_true, if_true, Bool.false_eq_true, if_false]
          refine List.Perm.trans (List.Perm.append_left _ List.perm_middle) ?_
          exact List.perm_middle

theorem filterMap_eq_filter {α β : Type} {f : α → Option β} {p : α → Bool} {g : α → β} {entries : List α}
    (same : ∀ entry ∈ entries, f entry = if p entry then some (g entry) else none) :
    entries.filterMap f = (entries.filter p).map g := by
  induction entries with
  | nil => rfl
  | cons entry rest ih =>
      have rest' := ih fun other listed => same other (List.mem_cons_of_mem _ listed)
      have here := same entry List.mem_cons_self
      by_cases kept : p entry = true
      · rw [if_pos kept] at here
        rw [List.filterMap_cons_some here, List.filter_cons_of_pos kept, List.map_cons, rest']
      · rw [if_neg kept] at here
        rw [List.filterMap_cons_none here, List.filter_cons_of_neg kept, rest']

-- An entry of a list with keys of their own has no earlier one of its key.
theorem no_earlier {α : Type} {key : α → String} {entries : List α} (distinct : (entries.map key).Nodup) {entry : α} {index : Nat}
    (listed : (entry, index) ∈ entries.zipIdx) : ((entries.take index).filter fun other => key other = key entry) = [] := by
  apply List.filter_eq_nil_iff.mpr
  intro other earlier same
  have here : entries[index]? = some entry := List.mem_zipIdx_iff_getElem?.mp listed
  have later : entry ∈ entries.drop index := by
    have first : (entries.drop index)[0]? = some entry := by
      rw [List.getElem?_drop, Nat.add_zero, here]
    exact List.mem_of_getElem? first
  rw [← List.take_append_drop index entries, List.map_append, List.nodup_append] at distinct
  exact distinct.2.2 _ (List.mem_map_of_mem earlier) _ (List.mem_map_of_mem later) (of_decide_eq_true same)

end Kinds

namespace BatchCall

section Parts

variable {collation : Collation} {minting : IdMinting} {call : BatchCall}

def place (call : BatchCall) (turn : Turn) : InlinePlacement BatchFinding :=
  ⟨turn.1.1, call.resolveInlineAnchorLine turn.1.1, (call.resolveInlineAnchorLine turn.1.1).isSome⟩

def turnsEnding (collation : Collation) (minting : IdMinting) (call : BatchCall) (kind : FindingEnd) : List Turn :=
  (call.keptTurns collation).filter fun turn => ending (call.turnResult collation minting turn) = kind

-- The findings that were suppressed as dismissed.
def dismissed (collation : Collation) (minting : IdMinting) (call : BatchCall) : List BatchFinding :=
  (call.turnsEnding collation minting .dismissed).map fun turn => turn.1.1

theorem findings_turns : call.findings collation = (call.keptTurns collation).map fun turn => turn.1.1 := by
  have firsts : (call.turns collation).map Prod.fst = call.unrepeated collation := List.zipIdx_map_fst 0 _
  rw [findings, ← firsts, List.map_map, List.filter_map, keptTurns]
  rfl

theorem plan_turns : call.planInlinePlacements collation = (call.keptTurns collation).map call.place := by
  rw [planInlinePlacements, findings_turns, List.map_map]
  rfl

theorem kept_listed {turn : Turn} (kept : turn ∈ call.keptTurns collation) : turn ∈ call.turns collation :=
  (List.mem_filter.mp kept).1

theorem place_outcome {turn : Turn} (kept : turn ∈ call.keptTurns collation) :
    call.outcome collation minting (call.place turn) = call.turnResult collation minting turn :=
  turn_outcome (kept_listed kept)

theorem held_turns : (call.reconcileBatch collation minting).held.map (fun entry => entry.1.row) =
    (call.turnsEnding collation minting .held).map fun turn => (turn.1.1, call.heldId collation minting turn 0) := by
  have found : (call.reconcileBatch collation minting).held.map (fun entry => entry.1.row) =
      (call.keptTurns collation).filterMap fun turn =>
        ((call.outcome collation minting (call.place turn)).bind (ReconcileOutcome.held (call.place turn))).map
          fun entry => entry.1.row := by
    rw [reconcileBatch]
    dsimp only
    rw [plan_turns, List.filterMap_map, List.map_filterMap]
    rfl
  rw [found]
  apply filterMap_eq_filter
  intro turn kept
  rw [place_outcome kept]
  cases result : call.turnResult collation minting turn with
  | none => rfl
  | some outcome =>
      cases outcome with
      | summaryOnly id reason =>
          rw [(result_minted 0 result).2]
          rfl
      | postThread id reopens links => rfl
      | promote id => rfl
      | reaffirm id severity => rfl
      | suppressedDismissed id => rfl

theorem postable_turns : call.postable collation minting = (call.turnsEnding collation minting .postable).map call.place := by
  rw [postable, plan_turns, List.filter_map, turnsEnding]
  congr 1
  apply List.filter_congr
  intro turn kept
  change (call.outcome collation minting (call.place turn)).all (fun outcome => outcome.identity.isSome) = _
  rw [place_outcome kept]
  cases result : call.turnResult collation minting turn with
  | none => rfl
  | some outcome => cases outcome <;> rfl

theorem postable_keys (collation : Collation) (minting : IdMinting) (call : BatchCall) :
    ((call.postable collation minting).map fun placement => reviewFindingPlacementKey placement.finding).Nodup := by
  rw [postable_turns, List.map_map]
  exact (kept_keys collation call).sublist (List.filter_sublist.map _)

theorem identified_row (answered : (call.scan collation minting).isAnswered = true) {turn : Turn} {index : Nat}
    (listed : (turn, index) ∈ (call.turnsEnding collation minting .postable).zipIdx) :
    (((call.outcome collation minting (call.place turn)).bind ReconcileOutcome.identity).getD
      ⟨(mintOrigin call.scope ((call.scan collation minting).calls + index) (reviewFindingPlacementKey turn.1.1) 0).id minting.draw
        minting.derivedFindingId, none⟩).findingId =
      call.heldId collation minting turn ((call.scan collation minting).calls + index) := by
  have inside := List.fst_mem_of_mem_zipIdx listed
  obtain ⟨kept, postable⟩ := List.mem_filter.mp inside
  rw [place_outcome kept]
  cases result : call.turnResult collation minting turn with
  | none =>
      obtain ⟨minted, key⟩ := result_absent (kept_listed kept) answered result
      rw [heldId_minted minted, key, heldNumber, result]
      rfl
  | some outcome =>
      rw [result] at postable
      cases outcome with
      | postThread id reopens links => exact (result_posted _ result).2.symm
      | promote id => exact (result_promoted _ result).2.2.symm
      | summaryOnly id reason => cases of_decide_eq_true postable
      | reaffirm id severity => cases of_decide_eq_true postable
      | suppressedDismissed id => cases of_decide_eq_true postable

theorem identified_turns (answered : (call.scan collation minting).isAnswered = true) :
    (call.identified collation minting).map IdentifiedInlinePlacement.row =
      (call.turnsEnding collation minting .postable).zipIdx.map fun entry =>
        (entry.1.1.1, call.heldId collation minting entry.1 ((call.scan collation minting).calls + entry.2)) := by
  have keys := postable_keys collation minting call
  rw [identified, List.map_map]
  have zipped : (call.postable collation minting).zipIdx =
      (call.turnsEnding collation minting .postable).zipIdx.map fun entry => (call.place entry.1, entry.2) := by
    rw [postable_turns, List.zipIdx_map]
    rfl
  rw [zipped, List.map_map]
  apply List.map_congr_left
  intro entry listed
  have placed : (call.place entry.1, entry.2) ∈ (call.postable collation minting).zipIdx := by
    rw [zipped]
    exact List.mem_map_of_mem listed
  have none_ := no_earlier keys placed
  have row := identified_row answered listed
  simp only [Function.comp_apply, IdentifiedInlinePlacement.row]
  rw [none_]
  exact congrArg (Prod.mk entry.1.1.1) row

end Parts

section Ids

variable {collation : Collation} {minting : IdMinting} {call : BatchCall}

-- The turns whose findings are held, with the call number that a placement without an outcome has.
def heldTurns (collation : Collation) (minting : IdMinting) (call : BatchCall) : List (Turn × Nat) :=
  (call.turnsEnding collation minting .held).map (fun turn => (turn, 0)) ++
    (call.turnsEnding collation minting .postable).zipIdx.map fun entry =>
      (entry.1, (call.scan collation minting).calls + entry.2)

theorem heldTurns_firsts : (call.heldTurns collation minting).map Prod.fst =
    call.turnsEnding collation minting .held ++ call.turnsEnding collation minting .postable := by
  rw [heldTurns, List.map_append, List.map_map, List.map_map]
  have left : (call.turnsEnding collation minting .held).map (Prod.fst ∘ fun turn => (turn, 0)) =
      call.turnsEnding collation minting .held := List.map_id _
  have right : (call.turnsEnding collation minting .postable).zipIdx.map Prod.fst = call.turnsEnding collation minting .postable :=
    List.zipIdx_map_fst 0 _
  rw [left]
  congr 1

theorem heldTurns_rows (answered : (call.scan collation minting).isAnswered = true) :
    (call.reconcileBatch collation minting).held.map (fun entry => entry.1.row) ++
        (call.reconcileBatch collation minting).postable.map IdentifiedInlinePlacement.row =
      (call.heldTurns collation minting).map fun entry => (entry.1.1.1, call.heldId collation minting entry.1 entry.2) := by
  have postable : (call.reconcileBatch collation minting).postable = call.identified collation minting := rfl
  rw [held_turns, postable, identified_turns answered, heldTurns, List.map_append, List.map_map, List.map_map]
  rfl

-- What is known of a held finding: it has an id of its own or one of the inventory.
structure HeldTurn (collation : Collation) (minting : IdMinting) (call : BatchCall) (entry : Turn × Nat) : Prop where
  listed : entry.1 ∈ call.turns collation
  source : call.Minted collation minting entry.1 ∨
    ∃ id, call.promoted collation minting entry.1 = some id ∧ call.mints collation minting entry.1 = false
  planned : call.turnResult collation minting entry.1 = none → (call.scan collation minting).calls ≤ entry.2

theorem heldTurns_held (answered : (call.scan collation minting).isAnswered = true) :
    ∀ entry ∈ call.heldTurns collation minting, call.HeldTurn collation minting entry := by
  intro entry listed
  cases List.mem_append.mp listed with
  | inl held =>
      obtain ⟨turn, inside, rfl⟩ := List.mem_map.mp held
      obtain ⟨kept, kind⟩ := List.mem_filter.mp inside
      cases result : call.turnResult collation minting turn with
      | none =>
          rw [result] at kind
          cases of_decide_eq_true kind
      | some outcome =>
          rw [result] at kind
          cases outcome with
          | summaryOnly id reason =>
              refine ⟨kept_listed kept, .inl (result_minted 0 result).1, ?_⟩
              intro absent
              rw [result] at absent
              cases absent
          | postThread id reopens links => cases of_decide_eq_true kind
          | promote id => cases of_decide_eq_true kind
          | reaffirm id severity => cases of_decide_eq_true kind
          | suppressedDismissed id => cases of_decide_eq_true kind
  | inr postable =>
      obtain ⟨⟨turn, index⟩, inside, rfl⟩ := List.mem_map.mp postable
      obtain ⟨kept, kind⟩ := List.mem_filter.mp (List.fst_mem_of_mem_zipIdx inside)
      refine ⟨kept_listed kept, ?_, fun _ => Nat.le_add_right _ _⟩
      cases result : call.turnResult collation minting turn with
      | none => exact .inl (result_absent (kept_listed kept) answered result).1
      | some outcome =>
          rw [result] at kind
          cases outcome with
          | postThread id reopens links => exact .inl (result_posted 0 result).1
          | promote id =>
              obtain ⟨promotes, mints, _⟩ := result_promoted 0 result
              exact .inr ⟨id, promotes, mints⟩
          | summaryOnly id reason => cases of_decide_eq_true kind
          | reaffirm id severity => cases of_decide_eq_true kind
          | suppressedDismissed id => cases of_decide_eq_true kind

theorem turn_indices : ((call.turns collation).map Prod.snd).Nodup := by
  rw [turns, List.zipIdx_map_snd]
  exact List.nodup_range'

theorem turn_index {turn : Turn} (listed : turn ∈ call.turns collation) : turn.2 < (call.turns collation).length := by
  have bound := List.snd_lt_of_mem_zipIdx listed
  rw [turns, List.length_zipIdx]
  exact bound

-- The turns of different held findings, and the numbers of their placements without an outcome, differ.
structure Different (collation : Collation) (minting : IdMinting) (call : BatchCall) (first second : Turn × Nat) : Prop where
  turns : first.1.2 ≠ second.1.2
  numbers : call.turnResult collation minting first.1 = none → call.turnResult collation minting second.1 = none →
    first.2 ≠ second.2

theorem endings_perm (collation : Collation) (minting : IdMinting) (call : BatchCall) :
    (call.turnsEnding collation minting .held ++ call.turnsEnding collation minting .postable ++
    (call.turnsEnding collation minting .reaffirmed ++ call.turnsEnding collation minting .dismissed)).Perm
      (call.keptTurns collation) :=
  perm_of_endings (fun turn => ending (call.turnResult collation minting turn)) (call.keptTurns collation)

theorem heldTurns_different (collation : Collation) (minting : IdMinting) (call : BatchCall) :
    (call.heldTurns collation minting).Pairwise (call.Different collation minting) := by
  have whole : ((call.heldTurns collation minting).map fun entry => entry.1.2).Nodup := by
    have split : (call.heldTurns collation minting).map (fun entry => entry.1.2) =
        (call.turnsEnding collation minting .held ++ call.turnsEnding collation minting .postable).map Prod.snd := by
      rw [← heldTurns_firsts, List.map_map]
      rfl
    have kept : ((call.keptTurns collation).map Prod.snd).Nodup := turn_indices.sublist (List.filter_sublist.map _)
    rw [← ((endings_perm collation minting call).map Prod.snd).nodup_iff] at kept
    rw [split]
    exact kept.sublist ((List.sublist_append_left _ _).map _)
  have numbers : (call.heldTurns collation minting).Pairwise fun first second =>
      call.turnResult collation minting first.1 = none → call.turnResult collation minting second.1 = none →
        first.2 ≠ second.2 := by
    have settled : ∀ entry ∈ (call.turnsEnding collation minting .held).map (fun turn => (turn, 0)),
        call.turnResult collation minting entry.1 ≠ none := by
      intro entry listed absent
      obtain ⟨turn, inside, rfl⟩ := List.mem_map.mp listed
      have kind := (List.mem_filter.mp inside).2
      rw [absent] at kind
      cases of_decide_eq_true kind
    apply List.pairwise_append.mpr
    refine ⟨?_, ?_, ?_⟩
    · apply List.Pairwise.imp_of_mem _ (List.pairwise_of_forall fun _ _ => trivial)
      intro first _ here _ _ absent
      exact absurd absent (settled first here)
    · apply List.pairwise_map.mpr
      have indices : ((call.turnsEnding collation minting .postable).zipIdx.map Prod.snd).Nodup := by
        rw [List.zipIdx_map_snd]
        exact List.nodup_range'
      exact (List.pairwise_map.mp indices).imp fun apart _ _ same => apart (Nat.add_left_cancel same)
    · intro first here second _ absent
      exact absurd absent (settled first here)
  exact (List.pairwise_map.mp whole).imp₂ (fun _ _ apart differ => ⟨apart, differ⟩) numbers

theorem heldNumber_apart {first second : Turn × Nat} (here : call.HeldTurn collation minting first)
    (there : call.HeldTurn collation minting second) (differ : call.Different collation minting first second) :
    call.heldNumber collation minting first.1 first.2 ≠ call.heldNumber collation minting second.1 second.2 := by
  have bounds : ∀ {entry : Turn × Nat}, call.turnResult collation minting entry.1 ≠ none →
      call.heldNumber collation minting entry.1 entry.2 = call.calls + 2 * entry.1.2 ∨
        call.heldNumber collation minting entry.1 entry.2 = call.calls + 2 * entry.1.2 + 1 := by
    intro entry decided
    rw [heldNumber, if_neg (by simpa using decided)]
    cases call.step collation minting entry.1 with
    | outcome outcome => exact .inl rfl
    | question candidates => exact .inr rfl
    | rejected reason => exact .inr rfl
  have planned : ∀ {entry : Turn × Nat}, call.turnResult collation minting entry.1 = none →
      call.heldNumber collation minting entry.1 entry.2 = entry.2 := by
    intro entry absent
    rw [heldNumber, absent]
    rfl
  have total := scan_calls collation minting call
  have firstIndex := turn_index here.listed
  have secondIndex := turn_index there.listed
  have indices := differ.turns
  by_cases left : call.turnResult collation minting first.1 = none
  · have later := here.planned left
    rw [planned left]
    by_cases right : call.turnResult collation minting second.1 = none
    · rw [planned right]
      exact differ.numbers left right
    · cases bounds right <;> omega
  · by_cases right : call.turnResult collation minting second.1 = none
    · have later := there.planned right
      rw [planned right]
      cases bounds left <;> omega
    · cases bounds left <;> cases bounds right <;> omega

theorem mintOrigin_id (scope : List String) (number : Nat) (key : String) :
    (mintOrigin (some scope) number key 0).id minting.draw minting.derivedFindingId =
      minting.derivedFindingId (scope ++ [key, "0"]) := rfl

-- Two held findings have different ids when they are apart, and only then.
theorem heldId_apart (unseen : ∀ number, call.inventory.findings.get? (minting.draw number) = none) {first second : Turn × Nat}
    (here : call.HeldTurn collation minting first) (there : call.HeldTurn collation minting second)
    (differ : call.Different collation minting first second) :
    call.heldId collation minting first.1 first.2 ≠ call.heldId collation minting second.1 second.2 ↔
      call.Apart collation minting first.1 second.1 := by
  have numbers := heldNumber_apart here there differ
  have known : ∀ {turn : Turn} {id : String} {number : Nat}, call.promoted collation minting turn = some id →
      minting.draw number ≠ id := by
    intro turn id number promotes same
    have stored := promoted_known promotes
    rw [← same, unseen number] at stored
    cases stored
  cases here.source with
  | inl first_ =>
      cases there.source with
      | inl second_ =>
          rw [heldId_minted first_, heldId_minted second_]
          cases scoped_ : call.scope with
          | none =>
              constructor
              · intro _
                refine ⟨?_, ?_, ?_, fun inScope => absurd scoped_ inScope⟩
                · intro id promotes
                  rw [first_.promoted] at promotes
                  cases promotes
                · intro scope id inScope
                  rw [scoped_] at inScope
                  cases inScope
                · intro scope id inScope
                  rw [scoped_] at inScope
                  cases inScope
              · intro _ same
                exact numbers (minting.draw_injective _ _ same)
          | some scope =>
              rw [mintOrigin_id, mintOrigin_id]
              constructor
              · intro ids
                refine ⟨?_, ?_, ?_, ?_⟩
                · intro id promotes
                  rw [first_.promoted] at promotes
                  cases promotes
                · intro scope id _ promotes
                  rw [first_.promoted] at promotes
                  cases promotes
                · intro scope id _ promotes
                  rw [second_.promoted] at promotes
                  cases promotes
                · intro _ _ _ same
                  exact ids (by rw [same])
              · intro apart same
                have materials := List.append_cancel_left (minting.derived_injective _ _ same)
                rw [List.cons.injEq] at materials
                exact apart.keys (by rw [scoped_]; exact Option.some_ne_none scope) first_.mints second_.mints materials.1
      | inr second_ =>
          obtain ⟨id, promotes, mints⟩ := second_
          have named : call.heldId collation minting second.1 second.2 = id := by rw [heldId, promotes]
          rw [heldId_minted first_, named]
          constructor
          · intro ids
            refine ⟨?_, ?_, ?_, ?_⟩
            · intro other promotes'
              rw [first_.promoted] at promotes'
              cases promotes'
            · intro scope other _ promotes'
              rw [first_.promoted] at promotes'
              cases promotes'
            · intro scope other inScope promotes' _ same
              rw [promotes] at promotes'
              cases promotes'
              rw [inScope, mintOrigin_id] at ids
              exact ids same
            · intro _ _ mints'
              rw [mints] at mints'
              cases mints'
          · intro apart same
            cases scoped_ : call.scope with
            | none =>
                rw [scoped_] at same
                exact known promotes same
            | some scope =>
                rw [scoped_, mintOrigin_id] at same
                exact apart.minted' scope id scoped_ promotes first_.mints same
  | inr first_ =>
      obtain ⟨id, promotes, mints⟩ := first_
      have named : call.heldId collation minting first.1 first.2 = id := by rw [heldId, promotes]
      cases there.source with
      | inl second_ =>
          rw [heldId_minted second_, named]
          constructor
          · intro ids
            refine ⟨?_, ?_, ?_, ?_⟩
            · intro other _ promotes'
              rw [second_.promoted] at promotes'
              cases promotes'
            · intro scope other inScope promotes' _ same
              rw [promotes] at promotes'
              cases promotes'
              rw [inScope, mintOrigin_id] at ids
              exact ids same.symm
            · intro scope other _ promotes'
              rw [second_.promoted] at promotes'
              cases promotes'
            · intro _ mints'
              rw [mints] at mints'
              cases mints'
          · intro apart same
            cases scoped_ : call.scope with
            | none =>
                rw [scoped_] at same
                exact known promotes same.symm
            | some scope =>
                rw [scoped_, mintOrigin_id] at same
                exact apart.minted scope id scoped_ promotes second_.mints same.symm
      | inr second_ =>
          obtain ⟨other, promotes', mints'⟩ := second_
          have named' : call.heldId collation minting second.1 second.2 = other := by rw [heldId, promotes']
          rw [named, named']
          constructor
          · intro ids
            refine ⟨?_, ?_, ?_, ?_⟩
            · intro third one two
              rw [promotes] at one
              rw [promotes'] at two
              cases one
              cases two
              exact ids rfl
            · intro _ _ _ _ minted
              rw [mints'] at minted
              cases minted
            · intro _ _ _ _ minted
              rw [mints] at minted
              cases minted
            · intro _ minted
              rw [mints] at minted
              cases minted
          · intro apart same
            subst same
            exact apart.promoted id promotes promotes'

-- Any two of the findings that are no repeats and have evidence are apart.
def IdsApart (collation : Collation) (minting : IdMinting) (call : BatchCall) : Prop :=
  (call.keptTurns collation).Pairwise (call.Apart collation minting)

theorem apart_of_neither {first second : Turn} (promoted : call.promoted collation minting first = none)
    (mints : call.mints collation minting first = false) : call.Apart collation minting first second where
  promoted := by
    intro id promotes
    rw [promoted] at promotes
    cases promotes
  minted := by
    intro scope id _ promotes
    rw [promoted] at promotes
    cases promotes
  minted' := by
    intro scope id _ _ minted
    rw [mints] at minted
    cases minted
  keys := by
    intro _ minted
    rw [mints] at minted
    cases minted

theorem idsApart_held : call.IdsApart collation minting ↔
    (call.turnsEnding collation minting .held ++ call.turnsEnding collation minting .postable).Pairwise
      (call.Apart collation minting) := by
  have symmetric : ∀ {first second : Turn}, call.Apart collation minting first second → call.Apart collation minting second first :=
    fun apart => Apart.symm collation minting call apart
  have neither : ∀ turn ∈ call.turnsEnding collation minting .reaffirmed ++ call.turnsEnding collation minting .dismissed,
      call.promoted collation minting turn = none ∧ call.mints collation minting turn = false := by
    intro turn listed
    have kind : ending (call.turnResult collation minting turn) = .reaffirmed ∨
        ending (call.turnResult collation minting turn) = .dismissed := by
      cases List.mem_append.mp listed with
      | inl here => exact .inl (of_decide_eq_true (List.mem_filter.mp here).2)
      | inr here => exact .inr (of_decide_eq_true (List.mem_filter.mp here).2)
    cases result : call.turnResult collation minting turn with
    | none =>
        rw [result] at kind
        cases kind <;> contradiction
    | some outcome =>
        rw [result] at kind
        apply result_neither result
        cases outcome with
        | reaffirm id severity => exact .inl ⟨id, severity, rfl⟩
        | suppressedDismissed id => exact .inr ⟨id, rfl⟩
        | summaryOnly id reason => cases kind <;> contradiction
        | postThread id reopens links => cases kind <;> contradiction
        | promote id => cases kind <;> contradiction
  rw [IdsApart, ← (endings_perm collation minting call).pairwise_iff symmetric, List.pairwise_append]
  constructor
  · intro whole
    exact whole.1
  · intro held
    refine ⟨held, ?_, ?_⟩
    · apply List.Pairwise.imp_of_mem _ (List.pairwise_of_forall fun _ _ => trivial)
      intro first second here _ _
      exact apart_of_neither (neither first here).1 (neither first here).2
    · intro first _ second there
      exact symmetric (apart_of_neither (neither second there).1 (neither second there).2)

theorem heldIds_nodup (unseen : ∀ number, call.inventory.findings.get? (minting.draw number) = none)
    (answered : (call.scan collation minting).isAnswered = true) :
    ((call.heldTurns collation minting).map fun entry => call.heldId collation minting entry.1 entry.2).Nodup ↔
      call.IdsApart collation minting := by
  have held := heldTurns_held answered
  have different := heldTurns_different collation minting call
  rw [idsApart_held, ← heldTurns_firsts, List.pairwise_map]
  constructor
  · intro nodup
    apply List.Pairwise.imp_of_mem _ ((List.pairwise_map.mp nodup).and different)
    intro first second here there apart
    exact (heldId_apart unseen (held first here) (held second there) apart.2).mp apart.1
  · intro apart
    apply List.pairwise_map.mpr
    apply List.Pairwise.imp_of_mem _ (apart.and different)
    intro first second here there both
    exact (heldId_apart unseen (held first here) (held second there) both.2).mpr both.1

end Ids

section Main

variable (collation : Collation) (minting : IdMinting) (call : BatchCall)

-- Each finding that is no repeat ends in one place, under an id of its own.
structure NothingLost (delta : FindingLedgerDelta BatchFinding BatchReaffirmed) : Prop where
  ends : ((delta.accepted.map fun entry => entry.placement.finding) ++ (delta.reaffirmed.map fun entry => entry.placement.finding) ++
    call.dismissed collation minting).Perm (call.findings collation)
  distinct : (call.findings collation).Nodup
  dismissed : delta.suppressedDismissedCount = (call.dismissed collation minting).length
  placed : ∀ entry ∈ delta.accepted, entry.isPosted = true ∨ entry.reason.isSome = true
  ids : (delta.accepted.map AcceptedPlacement.findingId).Nodup
  posted : (delta.accepted.filter AcceptedPlacement.isPosted).length ≤ remainingInline call.caps call.ledger
  severe : ∀ entry ∈ delta.accepted, entry.isPosted = true → ∀ excluded ∈ delta.accepted, excluded.reason = some .cap →
    entry.placement.finding.severity.rank ≤ excluded.placement.finding.severity.rank

variable {collation minting call}

theorem reaffirmed_turns : (call.reconcileBatch collation minting).reaffirmed.map (fun entry => entry.placement.finding) =
    (call.turnsEnding collation minting .reaffirmed).map fun turn => turn.1.1 := by
  have found : (call.reconcileBatch collation minting).reaffirmed.map (fun entry => entry.placement.finding) =
      (call.keptTurns collation).filterMap fun turn =>
        ((call.outcome collation minting (call.place turn)).bind (ReconcileOutcome.reaffirmed call (call.place turn))).map
          fun entry => entry.placement.finding := by
    rw [reconcileBatch]
    dsimp only
    rw [plan_turns, List.filterMap_map, List.map_filterMap]
    rfl
  rw [found]
  apply filterMap_eq_filter
  intro turn kept
  rw [place_outcome kept]
  cases result : call.turnResult collation minting turn with
  | none => rfl
  | some outcome =>
      cases outcome with
      | reaffirm id severity =>
          have same : (reaffirmedFinding call (call.place turn) id severity).placement.finding = turn.1.1 := by
            rw [reaffirmedFinding]
            dsimp only
            split
            · split <;> rfl
            · rfl
          exact congrArg some same
      | summaryOnly id reason => rfl
      | postThread id reopens links => rfl
      | promote id => rfl
      | suppressedDismissed id => rfl

theorem dismissed_count : (call.reconcileBatch collation minting).suppressedDismissedCount =
    (call.dismissed collation minting).length := by
  rw [reconcileBatch, dismissed, List.length_map]
  dsimp only
  rw [plan_turns, List.filter_map, List.length_map, turnsEnding]
  congr 1
  apply List.filter_congr
  intro turn kept
  change (call.outcome collation minting (call.place turn)).any ReconcileOutcome.isDismissed = _
  rw [place_outcome kept]
  cases result : call.turnResult collation minting turn with
  | none => rfl
  | some outcome => cases outcome <;> rfl

theorem identified_lined (collation : Collation) (minting : IdMinting) (call : BatchCall) : ∀ placement ∈ (call.reconcileBatch collation minting).postable,
    placement.inlinePosted = true → placement.inlineLine.isSome = true := by
  intro placement listed posted
  obtain ⟨entry, inside, rfl⟩ := List.mem_map.mp listed
  have postable := List.fst_mem_of_mem_zipIdx inside
  rw [postable_turns] at postable
  obtain ⟨turn, _, same⟩ := List.mem_map.mp postable
  change entry.1.inlinePosted = true at posted
  change entry.1.inlineLine.isSome = true
  rw [← same] at posted ⊢
  exact posted

theorem identified_distinct (collation : Collation) (minting : IdMinting) (call : BatchCall) : DistinctKeys reviewFindingPlacementKey (call.reconcileBatch collation minting).postable := by
  have keys := postable_keys collation minting call
  have firsts : (call.postable collation minting).zipIdx.map Prod.fst = call.postable collation minting := List.zipIdx_map_fst 0 _
  have same : (call.identified collation minting).map (fun placement => reviewFindingPlacementKey placement.finding) =
      (call.postable collation minting).map fun placement => reviewFindingPlacementKey placement.finding := by
    calc (call.identified collation minting).map (fun placement => reviewFindingPlacementKey placement.finding)
        = (call.postable collation minting).zipIdx.map (fun entry => reviewFindingPlacementKey entry.1.finding) := by
          rw [identified, List.map_map]
          apply List.map_congr_left
          intro entry _
          rfl
      _ = (call.postable collation minting).map fun placement => reviewFindingPlacementKey placement.finding := by
          conv_rhs => rw [← firsts, List.map_map]
          apply List.map_congr_left
          intro entry _
          rfl
  rw [← same] at keys
  exact keys

theorem held_uncapped (collation : Collation) (minting : IdMinting) (call : BatchCall) : ∀ entry ∈ (call.reconcileBatch collation minting).held, entry.2 ≠ .cap := by
  intro entry listed capped
  obtain ⟨placement, _, found⟩ := List.mem_filterMap.mp listed
  obtain ⟨outcome, _, held⟩ := Option.bind_eq_some_iff.mp found
  cases outcome with
  | summaryOnly id reason =>
      cases held
      cases reason <;> cases capped
  | postThread id reopens links => cases held
  | promote id => cases held
  | reaffirm id severity => cases held
  | suppressedDismissed id => cases held

variable {delta : FindingLedgerDelta BatchFinding BatchReaffirmed}

theorem publish_answered {publication : InlinePublication BatchFinding}
    (published : call.publish collation minting publication = some delta) :
    (call.scan collation minting).isAnswered = true ∧ BatchAccounted (sortsBefore collation)
      (remainingInline call.caps call.ledger) (call.reconcileBatch collation minting) delta := by
  rw [publish] at published
  obtain ⟨answered, published⟩ := Option.ite_none_right_eq_some.mp published
  rw [plan] at published
  have trans : ∀ a b c, sortsBefore collation a b = true → sortsBefore collation b c = true → sortsBefore collation a c = true :=
    fun _ _ _ => sortsBefore_trans
  have total : ∀ a b, (sortsBefore collation a b || sortsBefore collation b a) = true := sortsBefore_total
  have accounted := @batch_accounted _ _ (sortsBefore collation) reviewFindingPlacementKey call.caps call.source call.ledger
    (call.reconcileBatch collation minting) call.headSha trans total (identified_lined collation minting call)
    (identified_distinct collation minting call) (held_uncapped collation minting call) publication delta published
  exact ⟨answered, accounted⟩

theorem accepted_rows (answered : (call.scan collation minting).isAnswered = true)
    (accounted : BatchAccounted (sortsBefore collation) (remainingInline call.caps call.ledger)
      (call.reconcileBatch collation minting) delta) :
    (delta.accepted.map AcceptedPlacement.row).Perm
      ((call.heldTurns collation minting).map fun entry => (entry.1.1.1, call.heldId collation minting entry.1 entry.2)) := by
  rw [← heldTurns_rows answered]
  exact accounted.rows

-- The findings of a published batch lie in one place each.
theorem ends_once (answered : (call.scan collation minting).isAnswered = true)
    (accounted : BatchAccounted (sortsBefore collation) (remainingInline call.caps call.ledger)
      (call.reconcileBatch collation minting) delta) :
    ((delta.accepted.map fun entry => entry.placement.finding) ++ (delta.reaffirmed.map fun entry => entry.placement.finding) ++
      call.dismissed collation minting).Perm (call.findings collation) := by
  have accepted : (delta.accepted.map fun entry => entry.placement.finding).Perm
      ((call.turnsEnding collation minting .held ++ call.turnsEnding collation minting .postable).map fun turn => turn.1.1) := by
    have rows := (accepted_rows answered accounted).map Prod.fst
    rw [List.map_map, List.map_map] at rows
    rw [← heldTurns_firsts, List.map_map]
    exact rows
  have whole := (endings_perm collation minting call).map fun turn : Turn => turn.1.1
  rw [List.map_append] at whole
  rw [findings_turns, accounted.reaffirmed, reaffirmed_turns, List.append_assoc, dismissed]
  have rest : (call.turnsEnding collation minting .reaffirmed ++ call.turnsEnding collation minting .dismissed).map
      (fun turn => turn.1.1) = (call.turnsEnding collation minting .reaffirmed).map (fun turn => turn.1.1) ++
        (call.turnsEnding collation minting .dismissed).map fun turn => turn.1.1 := List.map_append
  rw [← rest]
  exact (accepted.append_right _).trans whole

theorem findings_distinct : (call.findings collation).Nodup := by
  have keys := kept_keys collation call
  rw [findings_turns]
  apply List.Nodup.of_map reviewFindingPlacementKey
  rw [List.map_map]
  exact keys

theorem ids_nodup_iff (unseen : ∀ number, call.inventory.findings.get? (minting.draw number) = none)
    (answered : (call.scan collation minting).isAnswered = true)
    (accounted : BatchAccounted (sortsBefore collation) (remainingInline call.caps call.ledger)
      (call.reconcileBatch collation minting) delta) :
    (delta.accepted.map AcceptedPlacement.findingId).Nodup ↔ call.IdsApart collation minting := by
  have rows := (accepted_rows answered accounted).map Prod.snd
  rw [List.map_map, List.map_map] at rows
  rw [← heldIds_nodup unseen answered]
  exact rows.nodup_iff

-- No finding of a published batch is lost or doubled when any two of them are apart, and only then.
theorem nothing_lost_iff (unseen : ∀ number, call.inventory.findings.get? (minting.draw number) = none)
    {publication : InlinePublication BatchFinding} {delta : FindingLedgerDelta BatchFinding BatchReaffirmed}
    (published : call.publish collation minting publication = some delta) :
    call.NothingLost collation minting delta ↔ call.IdsApart collation minting := by
  obtain ⟨answered, accounted⟩ := publish_answered published
  have ids := ids_nodup_iff unseen answered accounted
  constructor
  · intro whole
    exact ids.mp whole.ids
  · intro apart
    exact
      { ends := ends_once answered accounted
        distinct := findings_distinct
        dismissed := by rw [accounted.suppressed, dismissed_count]
        placed := accounted.placed
        ids := ids.mpr apart
        posted := accounted.posted
        severe := fun entry listed posted excluded elsewhere reason =>
          rank_le_of_sortsBefore (accounted.severe entry listed posted excluded elsewhere reason) }

end Main

section Examples

def flatCollation : Collation := ⟨fun _ _ => 0, fun _ _ => Iff.rfl, fun _ _ _ _ _ => Int.le_refl 0⟩

def spelledId (material : List String) : List Char := material.flatMap fun part => jsonChars part.toList

theorem spelledId_injective {s t : List String} (same : spelledId s = spelledId t) : s = t := by
  induction s generalizing t with
  | nil =>
      cases t with
      | nil => rfl
      | cons part t => simp [spelledId, jsonChars] at same
  | cons part s ih =>
      cases t with
      | nil => simp [spelledId, jsonChars] at same
      | cons part' t =>
          rw [spelledId, spelledId, List.flatMap_cons, List.flatMap_cons] at same
          obtain ⟨here, rest⟩ := jsonChars_append same
          rw [String.toList_inj.mp here, ih rest]

def spelledMinting : IdMinting where
  draw := fun number => String.ofList ('d' :: (toString number).toList)
  derivedFindingId := fun material => String.ofList ('m' :: spelledId material)
  draw_injective := by
    intro m n same
    have chars := String.ofList_injective same
    rw [List.cons.injEq] at chars
    exact toString_nat_inj (String.toList_inj.mp chars.2)
  derived_injective := by
    intro s t same
    have chars := String.ofList_injective same
    rw [List.cons.injEq] at chars
    exact spelledId_injective chars.2
  apart := by
    intro number material same
    have chars := String.ofList_injective same
    rw [List.cons.injEq] at chars
    exact absurd chars.1 (by decide)

-- A summary of an earlier run holds a finding that has no thread.
def summaryHeld : ReconcileFinding where
  id := "f1"
  source := .summary
  url := ""
  path := "a.ts"
  startLine := some 1
  line := some 2
  positionStale := false
  state := .open
  severity := .known .p1
  createdAt := ""
  hasHumanReplies := false
  commentsComplete := true
  title := "Lost update"

def summaryInventory : ReconcileInventory where
  completeness := .complete
  findings := Table.empty.set "f1" summaryHeld
  canonicalOf := some
  keyed := by
    intro id finding stored
    rcases Table.get?_set_cases stored with ⟨same, rfl⟩ | ⟨_, stored⟩
    · exact same.symm
    · cases stored

def emptyLedger : FindingLedger BatchFinding BatchReaffirmed := createFindingLedger noDelta

-- Two findings of one batch continue the finding of the summary.
def doubledCall : BatchCall where
  submitted :=
    [(⟨"a.ts", 1, 2, .p1, "Lost update", "The write is not awaited."⟩, .ok (.continues "f1")),
      (⟨"a.ts", 1, 2, .p1, "Unchecked result", "The result is dropped."⟩, .ok (.continues "f1"))]
  scope := some ["work-1", "head", "correctness"]
  source := .specialist .correctness
  ledger := emptyLedger
  caps := ⟨10, 5⟩
  inventory := summaryInventory
  acceptedThisRun := []
  overlapRoundsLeft := 1
  calls := 0
  judged := true
  coverageGapCeiling := fun _ => none
  hasEvidence := fun _ => true
  resolveInlineAnchorLine := fun _ => none
  headSha := "head"

theorem doubledCall_repeated : doubledCall.repeated flatCollation = [] := by
  rw [repeated, repeatedInBatch, List.mergeSort_of_pairwise (by decide)]
  decide +kernel

theorem doubledCall_ids : ((doubledCall.publish flatCollation spelledMinting (.sent [])).map fun delta =>
    delta.accepted.map AcceptedPlacement.findingId) = some ["f1", "f1"] := by
  simp only [publish, plan, reconcileBatch, identified, postable, outcome, planInlinePlacements, findings, unrepeated, scan,
    reconcileInput, doubledCall_repeated]
  decide +kernel

-- One finding continues the one of the summary, the other is new.
def settledCall : BatchCall :=
  { doubledCall with
    submitted :=
      [(⟨"a.ts", 1, 2, .p1, "Lost update", "The write is not awaited."⟩, .ok (.continues "f1")),
        (⟨"b.ts", 4, 4, .p2, "Unchecked result", "The result is dropped."⟩, .ok .new)] }

theorem nothing_lost_settled : ∃ delta, settledCall.publish flatCollation spelledMinting (.sent []) = some delta ∧
    settledCall.NothingLost flatCollation spelledMinting delta := by
  have unrepeated_ : settledCall.repeated flatCollation = [] := by
    rw [repeated, repeatedInBatch, List.mergeSort_of_pairwise (by decide)]
    decide +kernel
  have published : (settledCall.publish flatCollation spelledMinting (.sent [])).isSome = true := by
    simp only [publish, plan, reconcileBatch, identified, postable, outcome, planInlinePlacements, findings, unrepeated, scan,
      reconcileInput, unrepeated_]
    decide +kernel
  have unseen : ∀ number, settledCall.inventory.findings.get? (spelledMinting.draw number) = none := by
    intro number
    apply Table.get?_set_of_ne
    intro same
    have chars := congrArg String.toList same
    simp [spelledMinting] at chars
  obtain ⟨delta, found⟩ := Option.isSome_iff_exists.mp published
  refine ⟨delta, found, (nothing_lost_iff unseen found).mpr ?_⟩
  have turns_ : settledCall.keptTurns flatCollation = settledCall.submitted.zipIdx := by
    simp only [keptTurns, turns, unrepeated, unrepeated_]
    rfl
  have apart : ∀ first second : Turn, settledCall.submitted.zipIdx = [first, second] →
      settledCall.promoted flatCollation spelledMinting first = some "f1" →
        settledCall.mints flatCollation spelledMinting first = false →
          settledCall.promoted flatCollation spelledMinting second = none →
            settledCall.Apart flatCollation spelledMinting first second := by
    intro first second _ promoted_ mints_ unpromoted
    refine ⟨?_, ?_, ?_, ?_⟩
    · intro id _
      rw [unpromoted]
      exact (Option.some_ne_none id).symm
    · intro scope id _ same _ derived
      rw [promoted_] at same
      cases same
      have chars := congrArg String.toList derived
      simp [spelledMinting] at chars
    · intro scope id _ same
      rw [unpromoted] at same
      cases same
    · intro _ mints'
      rw [mints_] at mints'
      cases mints'
  rw [IdsApart, turns_]
  apply List.pairwise_pair.mpr
  apply apart _ _ rfl <;> decide +kernel

-- Both are promoted to the one finding, and the ledger accepts two entries of its id.
theorem finding_doubled : ∃ delta, doubledCall.publish flatCollation spelledMinting (.sent []) = some delta ∧
    ¬ doubledCall.NothingLost flatCollation spelledMinting delta := by
  obtain ⟨delta, published, ids⟩ := Option.map_eq_some_iff.mp doubledCall_ids
  refine ⟨delta, published, ?_⟩
  intro whole
  have nodup := whole.ids
  rw [ids] at nodup
  exact absurd nodup (by decide)

end Examples

end BatchCall

end PrAgent
