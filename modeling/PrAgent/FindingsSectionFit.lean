import PrAgent.FindingsSection
set_option autoImplicit false

namespace PrAgent.CommentMarkers

section Order

variable {view : HeldView} {rows rows' : List ListedRow}

-- The size of the body with the first rows by rank.
def rankSize (view : HeldView) (count : Nat) : Nat :=
  rowsSize ((rankedRows (listedRows view)).take count) + noteSize ((listedRows view).length - count)

theorem rankSize_next {count : Nat} (more : count < (listedRows view).length) : rankSize view count ≤ rankSize view (count + 1) := by
  have inside : count < (rankedRows (listedRows view)).length := by
    rw [rankedRows_length]
    exact more
  have row := rowsSize_step ((rankedRows (listedRows view)).take count) (rankedRows (listedRows view))[count]
  rw [List.take_append_getElem inside] at row
  have omitted : (listedRows view).length - count = (listedRows view).length - (count + 1) + 1 := by omega
  have note := noteSize_next ((listedRows view).length - (count + 1))
  rw [rankSize, rankSize, omitted]
  omega

theorem rankSize_le {count count' : Nat} (order : count ≤ count') (most : count' ≤ (listedRows view).length) : rankSize view count ≤ rankSize view count' := by
  induction order with
  | refl => exact Nat.le_refl _
  | step order ih => exact Nat.le_trans (ih (by omega)) (rankSize_next (by omega))

theorem RankedSelection.size (selection : RankedSelection (listedRows view) rows) (some_listed : 0 < (listedRows view).length) :
    (bodyOf view rows).length = (findingsHeading view).length + 1 + (rankSize view rows.length + unavailableSize view) := by
  have filled : 0 < rows.length ∨ 0 < (listedRows view).length - rows.length := by omega
  rw [bodyOf, body_size filled, rankSize, rowsSize_perm selection.perm]
  omega

theorem RankedSelection.count (selection : RankedSelection (listedRows view) rows) : rows.length ≤ (listedRows view).length :=
  selection.ordered.length_le

-- More rows make a longer body, although the note gets shorter.
theorem RankedSelection.longer (selection : RankedSelection (listedRows view) rows) (selection' : RankedSelection (listedRows view) rows')
    (order : rows.length ≤ rows'.length) : (bodyOf view rows).length ≤ (bodyOf view rows').length := by
  have count := selection.count
  have count' := selection'.count
  by_cases some_listed : 0 < (listedRows view).length
  · have size := rankSize_le order count'
    rw [selection.size some_listed, selection'.size some_listed]
    omega
  · have none_left : rows = [] := List.eq_nil_of_length_eq_zero (by omega)
    have none_left' : rows' = [] := List.eq_nil_of_length_eq_zero (by omega)
    rw [none_left, none_left']

end Order

section Search

variable {view : HeldView}

def durableCount (view : HeldView) : Nat := ((listedRows view).filter isDurable).length

def droppableCount (view : HeldView) : Nat := ((listedRows view).filter isDroppable).length

theorem counts (view : HeldView) : durableCount view + droppableCount view = (listedRows view).length := filter_lengths _

-- The rows of a limit on the droppable rows, with all of the durable ones.
def droppableRows (view : HeldView) (limit : Int) : List ListedRow := keepRows limit (durableCount view) (listedRows view)

def durableRows (view : HeldView) (limit : Int) : List ListedRow := keepRows 0 limit (listedRows view)

theorem droppableRows_ranked (limit : Int) : RankedSelection (listedRows view) (droppableRows view limit) :=
  keepRows_ranked (.inr (Int.le_refl _))

theorem durableRows_ranked (limit : Int) : RankedSelection (listedRows view) (durableRows view limit) := keepRows_ranked (.inl (Int.le_refl 0))

theorem droppableRows_count {limit : Int} (least : 0 ≤ limit) (most : limit ≤ droppableCount view) :
    ((droppableRows view limit).length : Int) = durableCount view + limit := by
  have parts := filter_lengths (droppableRows view limit)
  have room : limit.toNat ≤ ((listedRows view).filter isDroppable).length := by
    rw [droppableCount] at most
    omega
  rw [droppableRows, keepRows_durable, keepRows_droppable, List.length_take, List.length_take, Int.toNat_natCast, durableCount, Nat.min_self,
    Nat.min_eq_left room] at parts
  rw [droppableRows, durableCount]
  omega

theorem durableRows_count {limit : Int} (least : 0 ≤ limit) (most : limit ≤ durableCount view) : ((durableRows view limit).length : Int) = limit := by
  have parts := filter_lengths (durableRows view limit)
  have room : limit.toNat ≤ ((listedRows view).filter isDurable).length := by
    rw [durableCount] at most
    omega
  rw [durableRows, keepRows_durable, keepRows_droppable, List.length_take, List.length_take, Int.toNat_zero, Nat.zero_min, Nat.min_eq_left room] at parts
  rw [durableRows]
  omega

-- A body of the section within the budget.
def Fitting (view : HeldView) (budget : Int) (rows : List ListedRow) : Prop :=
  RankedSelection (listedRows view) rows ∧ ((bodyOf view rows).length : Int) ≤ budget

-- No selection within the budget has more rows, or a longer body.
def LargestFitting (view : HeldView) (budget : Int) (rows : List ListedRow) : Prop :=
  Fitting view budget rows ∧
    ∀ other, Fitting view budget other → other.length ≤ rows.length ∧ (bodyOf view other).length ≤ (bodyOf view rows).length

theorem Fitting.largest {budget : Int} {rows : List ListedRow} (fitting : Fitting view budget rows)
    (most : ∀ other, Fitting view budget other → other.length ≤ rows.length) : LargestFitting view budget rows :=
  ⟨fitting, fun other fits => ⟨most other fits, fits.1.longer fitting.1 (most other fits)⟩⟩

def fitsIn (budget : Int) (body : JsString) : Bool := (body.length : Int) ≤ budget

theorem droppable_below (budget : Int) :
    FitsBelow (fun limit => bodyOf view (droppableRows view limit)) (fitsIn budget) 0 (droppableCount view) := by
  intro i j least order most fit
  have count := droppableRows_count least (by omega : i ≤ droppableCount view)
  have count' := droppableRows_count (by omega : 0 ≤ j) most
  have longer := (droppableRows_ranked i).longer (@droppableRows_ranked view j) (by omega)
  have within : ((bodyOf view (droppableRows view j)).length : Int) ≤ budget := of_decide_eq_true fit
  have smaller : ((bodyOf view (droppableRows view i)).length : Int) ≤ budget := by omega
  exact decide_eq_true smaller

theorem durable_below (budget : Int) :
    FitsBelow (fun limit => bodyOf view (durableRows view limit)) (fitsIn budget) 0 (durableCount view - 1) := by
  intro i j least order most fit
  have count := durableRows_count least (by omega : i ≤ durableCount view)
  have count' := durableRows_count (by omega : 0 ≤ j) (by omega : j ≤ durableCount view)
  have longer := (durableRows_ranked i).longer (@durableRows_ranked view j) (by omega)
  have within : ((bodyOf view (durableRows view j)).length : Int) ≤ budget := of_decide_eq_true fit
  have smaller : ((bodyOf view (durableRows view i)).length : Int) ≤ budget := by omega
  exact decide_eq_true smaller

-- A fitting selection with all of the durable rows shows that its limit fits.
theorem Fitting.droppable {budget : Int} {rows : List ListedRow} (fitting : Fitting view budget rows) (all_durable : durableCount view ≤ rows.length) :
    fitsIn budget (bodyOf view (droppableRows view (rows.length - durableCount view))) = true := by
  have whole := counts view
  have most := fitting.1.count
  have least : (0 : Int) ≤ rows.length - durableCount view := by omega
  have count := @droppableRows_count view _ least (by omega)
  have longer := (droppableRows_ranked (rows.length - durableCount view : Int)).longer fitting.1 (by omega)
  have size := fitting.2
  have smaller : ((bodyOf view (droppableRows view (rows.length - durableCount view))).length : Int) ≤ budget := by omega
  exact decide_eq_true smaller

theorem Fitting.durable {budget : Int} {rows : List ListedRow} (fitting : Fitting view budget rows) (some_missing : rows.length ≤ durableCount view) :
    fitsIn budget (bodyOf view (durableRows view rows.length)) = true := by
  have least : (0 : Int) ≤ rows.length := by omega
  have count := @durableRows_count view _ least (by omega)
  have longer := (durableRows_ranked (rows.length : Int)).longer fitting.1 (by omega)
  have size := fitting.2
  have smaller : ((bodyOf view (durableRows view rows.length)).length : Int) ≤ budget := by omega
  exact decide_eq_true smaller

-- The two searches, one after the other.
def searchedBody (view : HeldView) (budget : Int) : Option JsString :=
  (searchFit (fun limit => bodyOf view (droppableRows view limit)) (fitsIn budget) 0 (droppableCount view) none) <|>
    (searchFit (fun limit => bodyOf view (durableRows view limit)) (fitsIn budget) 0 (durableCount view - 1) none)

theorem droppable_found {budget limit : Int}
    (found : LastFit (fun limit => bodyOf view (droppableRows view limit)) (fitsIn budget) 0 (droppableCount view) limit) :
    LargestFitting view budget (droppableRows view limit) := by
  have count := droppableRows_count found.least found.most
  have fitting : Fitting view budget (droppableRows view limit) := ⟨droppableRows_ranked limit, of_decide_eq_true found.fit⟩
  apply fitting.largest
  intro other fits
  by_contra more
  have whole := counts view
  have most := fits.1.count
  have least := found.least
  have fit := fits.droppable (by omega)
  have missed := found.last (other.length - durableCount view) (by omega) (by omega)
  exact Bool.noConfusion (fit.symm.trans missed)

theorem durable_found {budget limit : Int} (refused : ∀ j : Int, 0 ≤ j → j ≤ droppableCount view → fitsIn budget (bodyOf view (droppableRows view j)) = false)
    (found : LastFit (fun limit => bodyOf view (durableRows view limit)) (fitsIn budget) 0 (durableCount view - 1) limit) :
    LargestFitting view budget (durableRows view limit) := by
  have least := found.least
  have below := found.most
  have count := @durableRows_count view limit least (by omega)
  have fitting : Fitting view budget (durableRows view limit) := ⟨durableRows_ranked limit, of_decide_eq_true found.fit⟩
  apply fitting.largest
  intro other fits
  by_contra more
  have whole := counts view
  have most := fits.1.count
  by_cases all_durable : durableCount view ≤ other.length
  · have fit := fits.droppable all_durable
    have missed := refused (other.length - durableCount view) (by omega) (by omega)
    exact Bool.noConfusion (fit.symm.trans missed)
  · have fit := fits.durable (by omega)
    have missed := found.last other.length (by omega) (by omega)
    exact Bool.noConfusion (fit.symm.trans missed)

theorem searchedBody_largest (view : HeldView) (budget : Int) :
    (∃ rows, LargestFitting view budget rows ∧ searchedBody view budget = some (bodyOf view rows)) ∨
      (searchedBody view budget = none ∧ ∀ rows, ¬Fitting view budget rows) := by
  rw [searchedBody]
  rcases @searchFit_last _ _ _ _ _ none (@droppable_below view budget) with ⟨limit, found, same⟩ | ⟨same, refused⟩
  · exact .inl ⟨droppableRows view limit, droppable_found found, by rw [same]; rfl⟩
  rw [same]
  rcases @searchFit_last _ _ _ _ _ none (@durable_below view budget) with ⟨limit, found, same⟩ | ⟨same, refused_durable⟩
  · exact .inl ⟨durableRows view limit, durable_found refused found, by rw [same]; rfl⟩
  · right
    constructor
    · rw [same]
      rfl
    · intro rows fits
      have whole := counts view
      have most := fits.1.count
      by_cases all_durable : durableCount view ≤ rows.length
      · have fit := fits.droppable all_durable
        have missed := refused (rows.length - durableCount view) (by omega) (by omega)
        exact Bool.noConfusion (fit.symm.trans missed)
      · have fit := fits.durable (by omega)
        have missed := refused_durable rows.length (by omega) (by omega)
        exact Bool.noConfusion (fit.symm.trans missed)

end Search

section Section

variable {view : HeldView}

theorem findings_rendered (budgetChars : Int) (some_rows : view.rows ≠ []) :
    renderFindingsSection view budgetChars = (searchedBody view (max 0 budgetChars)).getD [] := by
  have droppable : ((listedRows view).length : Int) - durableCount view = droppableCount view := by
    have whole := counts view
    omega
  have filled : ¬view.rows.length = 0 := fun empty => some_rows (List.eq_nil_of_length_eq_zero empty)
  rw [searchedBody, ← droppable, renderFindingsSection, if_neg filled]
  rfl

theorem note_rendered (budgetChars : Int) (no_rows : view.rows = []) : renderFindingsSection view budgetChars =
    if view.completeness ≠ .complete ∧ (findingInventoryUnavailableNote.length : Int) ≤ budgetChars then findingInventoryUnavailableNote else [] := by
  have positive : (findingInventoryUnavailableNote.length : Int) = 55 := by decide
  rw [renderFindingsSection, if_pos (by rw [no_rows]; rfl)]
  by_cases complete : view.completeness = .complete
  · have hidden : ¬(view.completeness ≠ .complete ∧ (findingInventoryUnavailableNote.length : Int) ≤ budgetChars) := fun shown => shown.1 complete
    rw [if_pos complete, if_neg hidden]
    exact ite_self []
  · rw [if_neg complete]
    by_cases fits : (findingInventoryUnavailableNote.length : Int) ≤ budgetChars
    · rw [if_pos (by omega), if_pos ⟨complete, fits⟩]
    · rw [if_neg (by omega), if_neg (fun shown => fits shown.2)]

-- Within the budget, and with rows the largest selection that is.
theorem findings_section_largest (view : HeldView) (budgetChars : Int) :
    ((renderFindingsSection view budgetChars).length : Int) ≤ max 0 budgetChars ∧
      (view.rows = [] → renderFindingsSection view budgetChars =
        if view.completeness ≠ .complete ∧ (findingInventoryUnavailableNote.length : Int) ≤ budgetChars then findingInventoryUnavailableNote else []) ∧
      (view.rows ≠ [] →
        (∃ rows, LargestFitting view (max 0 budgetChars) rows ∧ renderFindingsSection view budgetChars = bodyOf view rows) ∨
          (renderFindingsSection view budgetChars = [] ∧ ∀ rows, ¬Fitting view (max 0 budgetChars) rows)) := by
  by_cases no_rows : view.rows = []
  · have own := note_rendered budgetChars no_rows
    refine ⟨?_, fun _ => own, fun some_rows => absurd no_rows some_rows⟩
    rw [own]
    by_cases shown : view.completeness ≠ .complete ∧ (findingInventoryUnavailableNote.length : Int) ≤ budgetChars
    · rw [if_pos shown]
      omega
    · rw [if_neg shown]
      exact Int.le_max_left 0 budgetChars
  · have own := findings_rendered budgetChars no_rows
    rcases searchedBody_largest view (max 0 budgetChars) with ⟨rows, largest, same⟩ | ⟨same, refused⟩
    · rw [same] at own
      refine ⟨?_, fun empty => absurd empty no_rows, fun _ => .inl ⟨rows, largest, own⟩⟩
      rw [own]
      exact largest.1.2
    · rw [same] at own
      refine ⟨?_, fun empty => absurd empty no_rows, fun _ => .inr ⟨own, refused⟩⟩
      rw [own]
      exact Int.le_max_left 0 budgetChars

end Section
end PrAgent.CommentMarkers
