import PrAgent.FindingRows
set_option autoImplicit false

namespace PrAgent.CommentMarkers

variable {β : Type} {s after t r : Text} {found : RawFields}

section Matches

-- A reading that goes on from an end of its input.
def Leaves (k : Text → Option (β × Text)) : Prop := ∀ s found after, k s = some (found, after) → after <:+ s

theorem fields_leave {close : List Text → Text → Option (β × Text)} (leaves : ∀ values, Leaves (close values))
    (labels values : List Text) : Leaves (fieldsAt close labels values) := by
  induction labels generalizing values with
  | nil => exact leaves values
  | cons label labels ih =>
      intro s found after here
      obtain ⟨x, rest, _, rfl, captured⟩ := Pattern.skip_eq_some here
      obtain ⟨value, rest', _, rfl, later⟩ := Pattern.keep_eq_some captured
      have inner := ih _ _ _ _ later
      exact inner.trans ((List.suffix_append value rest').trans (List.suffix_append x _))

theorem optional_leaves {label : Text} (done : Option Text → β) :
    Leaves (optionalAt label fun reference after => some (done reference, after)) := by
  intro s found after here
  rw [optionalAt] at here
  rcases Option.or_eq_some_iff.mp here with first | ⟨_, second⟩
  · obtain ⟨x, rest, _, rfl, captured⟩ := Pattern.skip_eq_some first
    obtain ⟨value, rest', _, rfl, closed⟩ := Pattern.keep_eq_some captured
    obtain ⟨y, rest'', _, rfl, stop⟩ := Pattern.skip_eq_some closed
    cases stop
    exact (List.suffix_append y _).trans ((List.suffix_append value _).trans (List.suffix_append x _))
  · obtain ⟨x, rest, _, rfl, stop⟩ := Pattern.skip_eq_some second
    cases stop
    exact List.suffix_append x _

-- The text that a match starts with.
theorem fields_open {close : List Text → Text → Option β} {label : Text} {labels values : List Text} {found : β}
    (here : fieldsAt close (label :: labels) values s = some found) : ∃ rest, s = label ++ rest := by
  obtain ⟨x, rest, matched, rfl, _⟩ := Pattern.skip_eq_some here
  rw [Pattern.matches_literal.mp matched]
  exact ⟨rest, rfl⟩

theorem rowStart_of_match {result : RawFields × Text} (here : findingRowAt r = some result) : RowStart r := fields_open here

theorem findingRowAt_leaves : Leaves findingRowAt :=
  fields_leave (fun values => optional_leaves fun reference => RawFields.mk values reference) _ _

theorem findingRowAt_consumes : Consumes findingRowAt := by
  intro s found after here
  obtain ⟨x, rest, matched, rfl, captured⟩ := Pattern.skip_eq_some here
  obtain ⟨value, rest', _, rfl, later⟩ := Pattern.keep_eq_some captured
  have inner := fields_leave (fun values => optional_leaves fun reference => RawFields.mk values reference) _ _ _ _ _ later
  have bound := inner.length_le
  rw [Pattern.matches_literal.mp matched]
  have size : (text "<!-- pr-agent:finding-row v=").length = 28 := by decide
  simp only [List.length_append, size]
  omega

theorem findingRows_append (start : RowStart r) (t : Text) : findingRows (t ++ r) = findingRows t ++ findingRows r := by
  rw [findingRows, matchAll_append findingRowAt_consumes (fun v nonempty => findingRowAt_extended start nonempty),
    List.filterMap_append]
  rfl

theorem findingRows_match (here : findingRowAt s = some (found, after)) :
    findingRows s = (parseFindingRow found).toList ++ findingRows after := by
  have first : leftmost findingRowAt s = some ([], found, after) := by
    apply leftmost_eq_some_iff.mpr
    refine ⟨s, rfl, here, ?_⟩
    intro x y split nonempty
    exact absurd (List.append_eq_nil_iff.mp split.symm).2 nonempty
  rw [findingRows, matchAll_some findingRowAt_consumes first, List.filterMap_cons]
  cases parseFindingRow found <;> rfl

end Matches

section Bodies

-- A text with a row of its own somewhere.
def QuotesRow (t : Text) : Prop :=
  ∃ before rest found after, t = before ++ rest ∧ findingRowAt rest = some (found, after) ∧ (parseFindingRow found).isSome = true

theorem quotesRow_of_rows (rows : findingRows t ≠ []) : QuotesRow t := by
  induction length : t.length using Nat.strongRecOn generalizing t with
  | ind n ih =>
      cases here : leftmost findingRowAt t with
      | none =>
          rw [findingRows, matchAll_none here] at rows
          exact absurd rfl rows
      | some result =>
          obtain ⟨before, found, after⟩ := result
          have shorter := leftmost_shorter findingRowAt_consumes here
          obtain ⟨rest, split, first, _⟩ := leftmost_eq_some_iff.mp here
          by_cases parsed : (parseFindingRow found).isSome = true
          · exact ⟨before, rest, found, after, split, first, parsed⟩
          · have later : findingRows after ≠ [] := by
              intro empty
              rw [Bool.not_eq_true, Option.isSome_eq_false_iff, Option.isNone_iff_eq_none] at parsed
              rw [findingRows, matchAll_some findingRowAt_consumes here, List.filterMap_cons, parsed] at rows
              exact rows empty
            obtain ⟨before', rest', found', after', split', reads⟩ := ih after.length (by omega) later rfl
            obtain ⟨x, consumed⟩ := findingRowAt_leaves rest found after first
            exact ⟨before ++ (x ++ before'), rest', found', after',
              by rw [split, ← consumed, split']; simp only [List.append_assoc], reads⟩

theorem rows_of_quotesRow (quotes : QuotesRow t) : findingRows t ≠ [] := by
  obtain ⟨before, rest, found, after, rfl, reads, parsed⟩ := quotes
  obtain ⟨row, here⟩ := Option.isSome_iff_exists.mp parsed
  rw [findingRows_append (rowStart_of_match reads), findingRows_match reads, here]
  simp

theorem no_rows_iff : findingRows t = [] ↔ ¬QuotesRow t :=
  ⟨fun empty quotes => rows_of_quotesRow quotes empty, fun quotes => Classical.byContradiction fun rows => quotes (quotesRow_of_rows rows)⟩

-- A body: rendered rows, each behind a text of its own, and a text behind the last.
def rowsBody (parts : List (Text × RenderedRow)) (tail : Text) : Text :=
  parts.foldr (fun part rest => part.1 ++ (renderFindingRowMarker part.2.toFindingRowMarker ++ rest)) tail

theorem rendered_start (row : FindingRowMarker) (rest : Text) : RowStart (renderFindingRowMarker row ++ rest) :=
  ⟨_, by rw [renderFindingRowMarker, List.append_assoc]⟩

-- The rows of a body are the rendered ones and those that its texts quote, in their order.
theorem findingRows_body (parts : List (Text × RenderedRow)) (tail : Text) :
    findingRows (rowsBody parts tail) =
      parts.flatMap (fun part => findingRows part.1 ++ [part.2.toFindingRowMarker]) ++ findingRows tail := by
  induction parts with
  | nil => rfl
  | cons part parts ih =>
      have body : rowsBody (part :: parts) tail =
        part.1 ++ (renderFindingRowMarker part.2.toFindingRowMarker ++ rowsBody parts tail) := rfl
      rw [body, findingRows_append (rendered_start _ _), findingRows_match (findingRowAt_rendered part.2 _),
        parseRow_rendered, ih, List.flatMap_cons]
      simp only [Option.toList, List.append_assoc]

theorem rows_between (rows : Text → List FindingRowMarker) (parts : List (Text × RenderedRow)) :
    (parts.flatMap fun part => rows part.1 ++ [part.2.toFindingRowMarker]).length =
      parts.length + (parts.map fun part => (rows part.1).length).sum := by
  induction parts with
  | nil => rfl
  | cons part parts ih =>
      rw [List.flatMap_cons, List.length_append, ih, List.map_cons, List.sum_cons, List.length_append, List.length_cons]
      simp only [List.length_cons, List.length_nil]
      omega

theorem body_exact_iff (parts : List (Text × RenderedRow)) (tail : Text) :
    findingRows (rowsBody parts tail) = parts.map (fun part => part.2.toFindingRowMarker) ↔
      (∀ part ∈ parts, ¬QuotesRow part.1) ∧ ¬QuotesRow tail := by
  rw [findingRows_body]
  constructor
  · intro exact'
    have size := congrArg List.length exact'
    rw [List.length_append, rows_between, List.length_map] at size
    have total : (parts.map fun part => (findingRows part.1).length).sum = 0 := by omega
    have each := List.sum_eq_zero_iff_forall_eq_nat.mp total
    refine ⟨fun part listed => ?_, no_rows_iff.mp (List.length_eq_zero_iff.mp (by omega))⟩
    exact no_rows_iff.mp (List.length_eq_zero_iff.mp (each _ (List.mem_map_of_mem listed)))
  · intro ⟨texts, last⟩
    rw [no_rows_iff.mpr last, List.append_nil]
    induction parts with
    | nil => rfl
    | cons part parts ih =>
        rw [List.flatMap_cons, List.map_cons, no_rows_iff.mpr (texts part List.mem_cons_self), List.nil_append,
          ih fun other listed => texts other (List.mem_cons_of_mem _ listed)]
        rfl

end Bodies
end PrAgent.CommentMarkers
