import PrAgent.CiSummaryCell
set_option autoImplicit false

namespace PrAgent

variable {x y : Text}

section Encoding

def bom : Char := Char.ofNat 0xFEFF

def startsWithBom (value : Text) : Bool := value.head? = some bom

def stripBom (value : Text) : Text := if startsWithBom value then value.drop 1 else value

-- `text.replace(/\r\n/g, "\n")`.
def crlfToLf : Text → Text
  | [] => []
  | '\r' :: '\n' :: rest => '\n' :: crlfToLf rest
  | c :: rest => c :: crlfToLf rest

-- `text.replace(/\n/g, "\r\n")`.
def lfToCrlf (value : Text) : Text := value.flatMap fun c => if c = '\n' then ['\r', '\n'] else [c]

def normalizeTextFileEncoding (value : Text) : Text := crlfToLf (stripBom value)

end Encoding

section Joins

-- A line feed that follows a carriage return across an edge.
def Joins (x y : Text) : Prop := x.getLast? = some '\r' ∧ y.head? = some '\n'

instance (x y : Text) : Decidable (Joins x y) := by delta Joins; infer_instance

theorem crlfToLf_cons {c : Char} {rest : Text} (single : ¬(c = '\r' ∧ rest.head? = some '\n')) :
    crlfToLf (c :: rest) = c :: crlfToLf rest := by
  rw [crlfToLf]
  intro rest' carriage pair
  apply single
  rw [pair]
  exact ⟨carriage, rfl⟩

theorem crlfToLf_append (apart : ¬Joins x y) : crlfToLf (x ++ y) = crlfToLf x ++ crlfToLf y := by
  induction x using crlfToLf.induct with
  | case1 => rfl
  | case2 rest ih =>
      rw [List.cons_append, List.cons_append, crlfToLf, crlfToLf, List.cons_append, ih]
      intro joins
      apply apart
      obtain ⟨d, rest', rfl⟩ := List.exists_cons_of_ne_nil (fun empty : rest = [] => by simp [empty, Joins] at joins)
      exact ⟨by simpa using joins.1, joins.2⟩
  | case3 c rest other ih =>
      have single : ¬(c = '\r' ∧ rest.head? = some '\n') := by
        intro ⟨carriage, feed⟩
        obtain ⟨rest', rfl⟩ := List.head?_eq_some_iff.mp feed
        exact other rest' carriage rfl
      have across : ¬(c = '\r' ∧ (rest ++ y).head? = some '\n') := by
        intro ⟨carriage, feed⟩
        cases rest with
        | nil => exact apart ⟨by rw [carriage]; rfl, feed⟩
        | cons d rest => exact single ⟨carriage, feed⟩
      rw [List.cons_append, crlfToLf_cons across, crlfToLf_cons single, List.cons_append, ih]
      intro joins
      apply apart
      obtain ⟨d, rest', rfl⟩ := List.exists_cons_of_ne_nil (fun empty : rest = [] => by simp [empty, Joins] at joins)
      exact ⟨by simpa using joins.1, joins.2⟩

end Joins

section Offsets

-- The loop of `rawOffsetForNormalizedOffset`, from a place in the raw text.
def rawOffsetFrom : Text → Nat → Nat → Nat
  | _, 0, rawIndex => rawIndex
  | [], _, rawIndex => rawIndex
  | '\r' :: '\n' :: rest, normalized + 1, rawIndex => rawOffsetFrom rest normalized (rawIndex + 2)
  | _ :: rest, normalized + 1, rawIndex => rawOffsetFrom rest normalized (rawIndex + 1)

def rawOffsetForNormalizedOffset (raw : Text) (normalizedOffset : Nat) : Nat :=
  rawOffsetFrom (stripBom raw) normalizedOffset (if startsWithBom raw then 1 else 0)

-- Every offset of the normalised text is the place of an edge in the raw text that no pair lies across.
structure EdgeAt (raw : Text) (normalizedOffset : Nat) (before after : Text) : Prop where
  split : raw = before ++ after
  normalBefore : crlfToLf before = (crlfToLf raw).take normalizedOffset
  normalAfter : crlfToLf after = (crlfToLf raw).drop normalizedOffset
  apart : ¬Joins before after
  offset : ∀ rawIndex, rawOffsetFrom raw normalizedOffset rawIndex = rawIndex + before.length
  later : ∀ more rawIndex, rawOffsetFrom raw (normalizedOffset + more) rawIndex =
    rawOffsetFrom after more (rawIndex + before.length)

theorem edge_start (raw : Text) : EdgeAt raw 0 [] raw where
  split := rfl
  normalBefore := rfl
  normalAfter := rfl
  apart joins := by cases joins.1
  offset rawIndex := by cases raw <;> rfl
  later more rawIndex := by rw [Nat.zero_add]; rfl

theorem edge_exists (raw : Text) (n : Nat) (inside : n ≤ (crlfToLf raw).length) : ∃ before after, EdgeAt raw n before after := by
  induction raw using crlfToLf.induct generalizing n with
  | case1 =>
      obtain rfl : n = 0 := Nat.le_zero.mp inside
      exact ⟨[], [], edge_start []⟩
  | case2 rest ih =>
      cases n with
      | zero => exact ⟨[], _, edge_start _⟩
      | succ n =>
          have short : n ≤ (crlfToLf rest).length := by
            rw [crlfToLf, List.length_cons] at inside
            omega
          obtain ⟨before, after, edge⟩ := ih n short
          refine ⟨'\r' :: '\n' :: before, after, by rw [edge.split]; rfl, ?_, ?_, ?_, fun rawIndex => ?_, fun more rawIndex => ?_⟩
          · rw [crlfToLf, crlfToLf, edge.normalBefore, List.take_succ_cons]
          · rw [crlfToLf, edge.normalAfter, List.drop_succ_cons]
          · intro joins
            apply edge.apart
            cases before with
            | nil => exact absurd joins.1 (by decide)
            | cons d before => exact ⟨by simpa using joins.1, joins.2⟩
          · rw [rawOffsetFrom, edge.offset, List.length_cons, List.length_cons]
            omega
          · rw [Nat.succ_add, rawOffsetFrom, edge.later, List.length_cons, List.length_cons]
            congr 1
            omega
  | case3 c rest other ih =>
      have single : ¬(c = '\r' ∧ rest.head? = some '\n') := by
        intro ⟨carriage, feed⟩
        obtain ⟨rest', rfl⟩ := List.head?_eq_some_iff.mp feed
        exact other rest' carriage rfl
      have step (n rawIndex : Nat) : rawOffsetFrom (c :: rest) (n + 1) rawIndex = rawOffsetFrom rest n (rawIndex + 1) := by
        rw [rawOffsetFrom]
        intro rest' carriage pair
        exact other rest' carriage pair
      cases n with
      | zero => exact ⟨[], _, edge_start _⟩
      | succ n =>
          rw [crlfToLf_cons single, List.length_cons] at inside
          obtain ⟨before, after, edge⟩ := ih n (by omega)
          have cut : ¬(c = '\r' ∧ before.head? = some '\n') := by
            intro ⟨carriage, feed⟩
            apply single
            rw [edge.split]
            exact ⟨carriage, by rw [List.head?_append, feed]; rfl⟩
          refine ⟨c :: before, after, by rw [edge.split]; rfl, ?_, ?_, ?_, fun rawIndex => ?_, fun more rawIndex => ?_⟩
          · rw [crlfToLf_cons cut, crlfToLf_cons single, edge.normalBefore, List.take_succ_cons]
          · rw [crlfToLf_cons single, edge.normalAfter, List.drop_succ_cons]
          · intro joins
            cases before with
            | nil =>
                have front := edge.split
                rw [List.nil_append] at front
                apply single
                rw [front]
                exact ⟨by simpa using joins.1, joins.2⟩
            | cons d before => exact edge.apart ⟨by simpa using joins.1, joins.2⟩
          · rw [step, edge.offset, List.length_cons]
            omega
          · rw [Nat.succ_add, step, edge.later, List.length_cons]
            congr 1
            omega

end Offsets
end PrAgent
