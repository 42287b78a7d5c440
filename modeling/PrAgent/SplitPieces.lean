import Mathlib.Data.List.Infix
set_option autoImplicit false

namespace PrAgent

section Pieces

variable {T : Type} [DecidableEq T] {mark : T} {value piece first : List T} {more : List (List T)}

theorem splitOn_mark (rest : List T) : (mark :: rest).splitOn mark = [] :: rest.splitOn mark := by
  rw [List.splitOn_cons_eq_if_modifyHead, if_pos (beq_self_eq_true mark)]

theorem splitOn_other {c : T} (other : c ≠ mark) {rest : List T} (split : rest.splitOn mark = first :: more) :
    (c :: rest).splitOn mark = (c :: first) :: more := by
  rw [List.splitOn_cons_eq_if_modifyHead, if_neg (fun same => other (beq_iff_eq.mp same)), split, List.modifyHead_cons]

theorem splitOn_cons (mark : T) (rest : List T) : ∃ first more, rest.splitOn mark = first :: more :=
  List.exists_cons_of_ne_nil (List.splitOn_ne_nil mark rest)

theorem splitOn_pieces (split : value.splitOn mark = first :: more) :
    mark ∉ first ∧ first <+: value ∧ ∀ piece ∈ more, mark ∉ piece ∧ piece <:+: value := by
  induction value generalizing first more with
  | nil =>
      cases split
      exact ⟨List.not_mem_nil, List.nil_prefix, fun piece listed => absurd listed List.not_mem_nil⟩
  | cons c rest ih =>
      obtain ⟨head, tail, cut⟩ := splitOn_cons mark rest
      obtain ⟨plain, leads, inside⟩ := ih cut
      by_cases marked : c = mark
      · rw [marked, splitOn_mark, cut] at split
        cases split
        refine ⟨List.not_mem_nil, List.nil_prefix, ?_⟩
        intro piece listed
        rcases List.mem_cons.mp listed with rfl | listed
        · exact ⟨plain, leads.isInfix.trans (List.suffix_cons c rest).isInfix⟩
        · exact ⟨(inside piece listed).1, (inside piece listed).2.trans (List.suffix_cons c rest).isInfix⟩
      · rw [splitOn_other marked cut] at split
        cases split
        refine ⟨?_, List.prefix_cons_iff.mpr (.inr ⟨head, rfl, leads⟩), ?_⟩
        · intro listed
          rcases List.mem_cons.mp listed with same | listed
          · exact marked same.symm
          · exact plain listed
        · intro piece listed
          exact ⟨(inside piece listed).1, (inside piece listed).2.trans (List.suffix_cons c rest).isInfix⟩

-- A piece is a run of the value without the mark.
theorem splitOn_piece (listed : piece ∈ value.splitOn mark) : mark ∉ piece ∧ piece <:+: value := by
  obtain ⟨first, more, split⟩ := splitOn_cons mark value
  obtain ⟨plain, leads, inside⟩ := splitOn_pieces split
  rw [split] at listed
  rcases List.mem_cons.mp listed with rfl | listed
  · exact ⟨plain, leads.isInfix⟩
  · exact inside piece listed

theorem splitOn_count (mark : T) (value : List T) : (value.splitOn mark).length = value.count mark + 1 := by
  induction value with
  | nil => rfl
  | cons c rest ih =>
      by_cases marked : c = mark
      · rw [marked, splitOn_mark, List.count_cons_self, List.length_cons, ih]
      · obtain ⟨first, more, split⟩ := splitOn_cons mark rest
        rw [split] at ih
        rw [splitOn_other marked split, List.count_cons_of_ne marked, ← ih, List.length_cons, List.length_cons]

-- The pieces before the last mark of a part are those of the whole.
theorem splitOn_part (mark : T) (part rest : List T) {i : Nat} (before : i < part.count mark) :
    (part.splitOn mark)[i]? = ((part ++ rest).splitOn mark)[i]? := by
  induction part generalizing i with
  | nil => cases before
  | cons c part ih =>
      rw [List.cons_append]
      by_cases marked : c = mark
      · rw [marked, splitOn_mark, splitOn_mark]
        cases i with
        | zero => rfl
        | succ i =>
            rw [marked, List.count_cons_self] at before
            rw [List.getElem?_cons_succ, List.getElem?_cons_succ, ih (by omega)]
      · rw [List.count_cons_of_ne marked] at before
        have same := ih before
        obtain ⟨first, more, split⟩ := splitOn_cons mark part
        obtain ⟨first', more', split'⟩ := splitOn_cons mark (part ++ rest)
        rw [split, split'] at same
        rw [splitOn_other marked split, splitOn_other marked split']
        cases i with
        | zero => rw [List.getElem?_cons_zero, List.getElem?_cons_zero, Option.some.inj same]
        | succ i => exact same

theorem splitOn_terminated {lines : List (List T)} (single : ∀ line ∈ lines, mark ∉ line) :
    (lines.flatMap fun line => line ++ [mark]).splitOn mark = lines ++ [[]] := by
  induction lines with
  | nil => rfl
  | cons line lines ih =>
      have rest := ih fun other listed => single other (List.mem_cons_of_mem _ listed)
      have here : ∀ c ∈ line, (c == mark) = false := by
        intro c listed
        apply Bool.eq_false_iff.mpr
        intro same
        exact single line List.mem_cons_self (eq_of_beq same ▸ listed)
      rw [List.flatMap_cons, List.append_assoc, List.splitOn, List.singleton_append,
        List.splitOnP_append_cons_of_forall_mem here mark (beq_self_eq_true mark)]
      rw [List.splitOn] at rest
      rw [rest, List.cons_append]

omit [DecidableEq T] in
theorem intercalate_concat {lines : List (List T)} (filled : lines ≠ []) : [mark].intercalate (lines ++ [[]]) = [mark].intercalate lines ++ [mark] := by
  induction lines with
  | nil => exact absurd rfl filled
  | cons first rest ih =>
      cases rest with
      | nil => simp [List.intercalate_cons_cons]
      | cons second rest =>
          have later := ih (List.cons_ne_nil second rest)
          rw [List.cons_append] at later
          rw [List.cons_append, List.cons_append, List.intercalate_cons_cons, List.intercalate_cons_cons, later]
          simp only [List.append_assoc]

theorem last_piece (filled : value ≠ []) (open_ : value.getLast? ≠ some mark) : (value.splitOn mark).getLast? ≠ some [] := by
  intro ends
  obtain ⟨lines, split⟩ := List.getLast?_eq_some_iff.mp ends
  have joined : [mark].intercalate (value.splitOn mark) = value := List.intercalate_splitOn mark
  rw [split] at joined
  by_cases alone : lines = []
  · rw [alone] at joined
    exact filled joined.symm
  · rw [intercalate_concat alone] at joined
    rw [← joined, List.getLast?_concat] at open_
    exact open_ rfl

end Pieces
end PrAgent
