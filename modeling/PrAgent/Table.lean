import Mathlib.Algebra.GroupWithZero.Nat
import Mathlib.Data.List.Nodup
import Mathlib.Data.List.Lookmap
import Mathlib.Data.List.Induction
set_option autoImplicit false

namespace PrAgent

-- Rows under a unique key, kept in the order in which they were inserted.
structure Table (K R : Type) where
  rows : List (K × R)
  unique : (rows.map Prod.fst).Nodup

namespace Table

variable {K R : Type} [DecidableEq K]

def empty : Table K R := ⟨[], List.nodup_nil⟩

-- The first row stored under a key of a list of keyed rows.
def lookup (key : K) : List (K × R) → Option R
  | [] => none
  | (k, row) :: rest => if k = key then some row else lookup key rest

def get? (table : Table K R) (key : K) : Option R := lookup key table.rows

-- The list with the row under `key` replaced, or with a new last row when the key is fresh.
def write (key : K) (row : R) : List (K × R) → List (K × R)
  | [] => [(key, row)]
  | (k, old) :: rest => if k = key then (k, row) :: rest else (k, old) :: write key row rest

theorem mem_keys_write (key : K) (row : R) (rows : List (K × R)) (k : K) :
    k ∈ (write key row rows).map Prod.fst ↔ k = key ∨ k ∈ rows.map Prod.fst := by
  induction rows with
  | nil => simp [write]
  | cons head rest ih =>
    obtain ⟨k', old⟩ := head
    by_cases same : k' = key
    · simp [write, same]
    · simp only [write, same, if_false, List.map_cons, List.mem_cons, ih]
      tauto

theorem nodup_keys_write (key : K) (row : R) (rows : List (K × R))
    (nodup : (rows.map Prod.fst).Nodup) : ((write key row rows).map Prod.fst).Nodup := by
  induction rows with
  | nil => simp [write]
  | cons head rest ih =>
    obtain ⟨k, old⟩ := head
    obtain ⟨fresh, nodup⟩ := List.nodup_cons.mp nodup
    by_cases same : k = key
    · simpa only [write, same, if_true, List.map_cons, List.nodup_cons] using ⟨same ▸ fresh, nodup⟩
    · have fresh' : k ∉ (write key row rest).map Prod.fst := by
        rw [mem_keys_write]
        exact not_or.mpr ⟨same, fresh⟩
      simpa only [write, same, if_false, List.map_cons, List.nodup_cons] using ⟨fresh', ih nodup⟩

def set (table : Table K R) (key : K) (row : R) : Table K R :=
  ⟨write key row table.rows, nodup_keys_write key row table.rows table.unique⟩

theorem lookup_write (key : K) (row : R) (rows : List (K × R)) (k : K) :
    lookup k (write key row rows) = if k = key then some row else lookup k rows := by
  induction rows with
  | nil => simp [write, lookup, eq_comm]
  | cons head rest ih =>
    obtain ⟨k', old⟩ := head
    by_cases same : k' = key
    · subst same
      by_cases here : k' = k
      · simp [write, lookup, here]
      · simp [write, lookup, here, Ne.symm here]
    · by_cases here : k' = k
      · subst here
        simp [write, lookup, same]
      · simp [write, lookup, same, here, ih]

def erase (table : Table K R) (key : K) : Table K R :=
  ⟨table.rows.filter fun entry => entry.1 ≠ key, (table.unique.sublist (List.filter_sublist.map Prod.fst))⟩

theorem lookup_filter (key : K) (rows : List (K × R)) (k : K) :
    lookup k (rows.filter fun entry => entry.1 ≠ key) = if k = key then none else lookup k rows := by
  induction rows with
  | nil => simp [lookup]
  | cons head rest ih =>
    obtain ⟨k', row⟩ := head
    by_cases erased : k' = key
    · by_cases same : k = key
      · simp [erased, same] at ih ⊢
        exact ih
      · have ne : ¬key = k := Ne.symm same
        simp [erased, same, ne, lookup] at ih ⊢
        exact ih
    · by_cases same : k' = k
      · subst same
        simp [erased, lookup]
      · simp only [List.filter_cons, erased, ne_eq, not_false_eq_true, decide_true, if_true, lookup, same, if_false]
        exact ih

@[simp] theorem get?_empty (key : K) : (empty : Table K R).get? key = none := rfl

theorem get?_set (table : Table K R) (key : K) (row : R) (k : K) :
    (table.set key row).get? k = if k = key then some row else table.get? k :=
  lookup_write key row table.rows k

variable {table : Table K R}

theorem get?_set_cases {key k : K} {row found : R} (stored : (table.set key row).get? k = some found) :
    k = key ∧ row = found ∨ k ≠ key ∧ table.get? k = some found := by
  rw [get?_set] at stored
  by_cases same : k = key
  · rw [if_pos same] at stored
    exact .inl ⟨same, Option.some.inj stored⟩
  · rw [if_neg same] at stored
    exact .inr ⟨same, stored⟩

theorem isSome_set {key k : K} {row : R} :
    ((table.set key row).get? k).isSome = true ↔ k = key ∨ (table.get? k).isSome = true := by
  rw [get?_set]
  split
  · next same => simp [same]
  · next other => simp [other]

theorem ne_of_stored {key k : K} {row : R} (stored : table.get? k = some row) (fresh : table.get? key = none) : k ≠ key := by
  rintro rfl
  cases stored.symm.trans fresh

@[simp] theorem get?_set_self (table : Table K R) (key : K) (row : R) :
    (table.set key row).get? key = some row := by
  simp [get?_set]

theorem get?_set_of_ne (table : Table K R) (key : K) (row : R) {k : K} (ne : k ≠ key) :
    (table.set key row).get? k = table.get? k := by
  simp [get?_set, ne]

theorem get?_erase (table : Table K R) (key k : K) :
    (table.erase key).get? k = if k = key then none else table.get? k :=
  lookup_filter key table.rows k

theorem get?_erase_cases {key k : K} {found : R} (stored : (table.erase key).get? k = some found) :
    k ≠ key ∧ table.get? k = some found :=
  Option.ite_none_left_eq_some.mp ((get?_erase table key k).symm.trans stored)

theorem lookup_eq_some_iff (rows : List (K × R)) (nodup : (rows.map Prod.fst).Nodup) (key : K) (row : R) :
    lookup key rows = some row ↔ (key, row) ∈ rows := by
  induction rows with
  | nil => simp [lookup]
  | cons head rest ih =>
    obtain ⟨k, old⟩ := head
    obtain ⟨fresh, nodup⟩ := List.nodup_cons.mp nodup
    by_cases same : k = key
    · subst same
      have absent : (k, row) ∉ rest := fun mem => fresh (List.mem_map.mpr ⟨(k, row), mem, rfl⟩)
      simp [lookup, absent, eq_comm]
    · simp only [lookup, same, if_false, ih nodup, List.mem_cons, Prod.mk.injEq]
      exact ⟨Or.inr, fun mem => mem.elim (fun eq => absurd eq.1.symm same) id⟩

theorem get?_eq_some_iff (table : Table K R) (key : K) (row : R) :
    table.get? key = some row ↔ (key, row) ∈ table.rows :=
  lookup_eq_some_iff table.rows table.unique key row

theorem get?_eq_none_of_rows (none : table.rows = []) (key : K) : table.get? key = Option.none := by
  rw [get?, none, lookup]

-- `EXISTS (SELECT 1 FROM table WHERE p)`.
def any (table : Table K R) (p : K → R → Bool) : Bool := table.rows.any fun entry => p entry.1 entry.2

theorem any_iff (table : Table K R) (p : K → R → Bool) :
    table.any p = true ↔ ∃ key row, table.get? key = some row ∧ p key row = true := by
  simp only [any, List.any_eq_true, Prod.exists, get?_eq_some_iff]

-- The oldest row that satisfies `p`, as `SELECT … WHERE p ORDER BY created_at ASC LIMIT 1` returns it.
def first? (table : Table K R) (p : K → R → Bool) : Option (K × R) :=
  table.rows.find? fun entry => p entry.1 entry.2

variable {key : K}

theorem first?_some (table : Table K R) (p : K → R → Bool) {row : R}
    (found : table.first? p = some (key, row)) : table.get? key = some row ∧ p key row = true :=
  ⟨(get?_eq_some_iff table key row).mpr (List.mem_of_find?_eq_some found),
    by simpa using List.find?_some found⟩

theorem first?_none (table : Table K R) (p : K → R → Bool) (absent : table.first? p = none)
    {row : R} (stored : table.get? key = some row) : p key row = false := by
  have none := List.find?_eq_none.mp absent (key, row) ((get?_eq_some_iff table key row).mp stored)
  simpa using none

-- `UPDATE table SET … WHERE p`: every selected row is rewritten in place.
def updateWhere (table : Table K R) (p : K → R → Bool) (f : K → R → R) : Table K R :=
  ⟨table.rows.map fun entry => (entry.1, if p entry.1 entry.2 then f entry.1 entry.2 else entry.2), by
    rw [List.map_map]
    exact table.unique⟩

theorem lookup_map (rows : List (K × R)) (f : K → R → R) (key : K) :
    lookup key (rows.map fun entry => (entry.1, f entry.1 entry.2)) = (lookup key rows).map (f key) := by
  induction rows with
  | nil => rfl
  | cons head rest ih =>
    obtain ⟨k, row⟩ := head
    by_cases same : k = key
    · subst same
      simp [lookup]
    · simpa [lookup, same] using ih

theorem get?_updateWhere (table : Table K R) (p : K → R → Bool) (f : K → R → R) (key : K) :
    (table.updateWhere p f).get? key = (table.get? key).map fun row => if p key row then f key row else row :=
  lookup_map table.rows (fun k row => if p k row then f k row else row) key

-- An UPDATE that selects no row leaves the table as it is.
theorem updateWhere_none (table : Table K R) (p : K → R → Bool) (f : K → R → R)
    (none : ∀ key row, table.get? key = some row → p key row = false) : table.updateWhere p f = table := by
  have same : table.rows.map (fun entry => (entry.1, if p entry.1 entry.2 then f entry.1 entry.2 else entry.2)) =
      table.rows := by
    refine (List.map_congr_left ?_).trans (List.map_id _)
    intro entry listed
    simp [none entry.1 entry.2 ((get?_eq_some_iff table entry.1 entry.2).mpr listed)]
  cases table with
  | mk rows unique =>
      rw [updateWhere, mk.injEq]
      exact same

-- `DELETE FROM table WHERE p`.
def deleteWhere (table : Table K R) (p : K → R → Bool) : Table K R :=
  ⟨table.rows.filter fun entry => !p entry.1 entry.2, table.unique.sublist (List.filter_sublist.map Prod.fst)⟩

theorem get?_deleteWhere (table : Table K R) (p : K → R → Bool) (key : K) :
    (table.deleteWhere p).get? key = (table.get? key).filter fun row => !p key row := by
  cases stored : table.get? key with
  | none =>
    cases kept : (table.deleteWhere p).get? key with
    | none => rfl
    | some row =>
      have listed := ((get?_eq_some_iff _ key row).mp kept)
      have before := (get?_eq_some_iff table key row).mpr (List.mem_filter.mp listed).1
      rw [stored] at before
      cases before
  | some row =>
    have listed := (get?_eq_some_iff table key row).mp stored
    by_cases deleted : p key row = true
    · have gone : (some row).filter (fun row => !p key row) = none := by simp [deleted]
      rw [gone]
      cases kept : (table.deleteWhere p).get? key with
      | none => rfl
      | some other =>
        obtain ⟨listedOther, keptOther⟩ := List.mem_filter.mp ((get?_eq_some_iff _ key other).mp kept)
        have same := (get?_eq_some_iff table key other).mpr listedOther
        rw [stored] at same
        obtain rfl := Option.some.inj same
        simp [deleted] at keptOther
    · have stays : (some row).filter (fun row => !p key row) = some row := by simp [deleted]
      rw [stays, get?_eq_some_iff]
      exact List.mem_filter.mpr ⟨listed, by simp [deleted]⟩

-- The rows `SELECT … WHERE p` returns, oldest first.
def select (table : Table K R) (p : K → R → Bool) : List (K × R) :=
  table.rows.filter fun entry => p entry.1 entry.2

theorem mem_select (table : Table K R) (p : K → R → Bool) (key : K) (row : R) :
    (key, row) ∈ table.select p ↔ table.get? key = some row ∧ p key row = true := by
  rw [select, List.mem_filter, get?_eq_some_iff]

theorem select_eq_nil (table : Table K R) (p : K → R → Bool)
    (none : ∀ key row, table.get? key = some row → p key row = false) : table.select p = [] := by
  rw [select, List.filter_eq_nil_iff]
  intro entry listed
  simp [none entry.1 entry.2 ((get?_eq_some_iff table entry.1 entry.2).mpr listed)]

-- Every row of `patch` written over the table.
def override (table patch : Table K R) : Table K R :=
  patch.rows.foldl (fun written entry => written.set entry.1 entry.2) table

theorem lookup_eq_none_of_fresh {rows : List (K × R)} (fresh : key ∉ rows.map Prod.fst) :
    lookup key rows = none := by
  induction rows with
  | nil => rfl
  | cons head rest ih =>
    obtain ⟨k, row⟩ := head
    simp only [List.map_cons, List.mem_cons, not_or] at fresh
    rw [lookup, if_neg (Ne.symm fresh.1)]
    exact ih fresh.2

-- `SELECT SUM(weight) FROM table`.
def sum (table : Table K R) (weight : K → R → Nat) : Nat := (table.rows.map fun entry => weight entry.1 entry.2).sum

omit [DecidableEq K] in
@[simp] theorem sum_empty (weight : K → R → Nat) : (empty : Table K R).sum weight = 0 := rfl

theorem sum_write (key : K) (row : R) (rows : List (K × R)) (weight : K → R → Nat) :
    ((write key row rows).map fun entry => weight entry.1 entry.2).sum + ((lookup key rows).map (weight key)).getD 0 =
      (rows.map fun entry => weight entry.1 entry.2).sum + weight key row := by
  induction rows with
  | nil => simp [write, lookup]
  | cons head rest ih =>
    obtain ⟨k, old⟩ := head
    by_cases same : k = key
    · subst same
      simp only [write, lookup, if_true, List.map_cons, List.sum_cons, Option.map_some, Option.getD_some]
      omega
    · simp only [write, lookup, same, if_false, List.map_cons, List.sum_cons]
      omega

-- An upsert changes a sum by the new row less the row it replaces.
theorem sum_set (table : Table K R) (key : K) (row : R) (weight : K → R → Nat) :
    (table.set key row).sum weight + ((table.get? key).map (weight key)).getD 0 = table.sum weight + weight key row :=
  sum_write key row table.rows weight

theorem sum_set_fresh (fresh : table.get? key = none) (row : R) (weight : K → R → Nat) :
    (table.set key row).sum weight = table.sum weight + weight key row := by
  have total := sum_set table key row weight
  rw [fresh] at total
  simpa using total

theorem sum_set_stored {old : R} (stored : table.get? key = some old) (row : R)
    (weight : K → R → Nat) : (table.set key row).sum weight + weight key old = table.sum weight + weight key row := by
  have total := sum_set table key row weight
  rw [stored] at total
  simpa using total

theorem sum_filter_key (key : K) (rows : List (K × R)) (nodup : (rows.map Prod.fst).Nodup) (weight : K → R → Nat) :
    ((rows.filter fun entry => entry.1 ≠ key).map fun entry => weight entry.1 entry.2).sum +
      ((lookup key rows).map (weight key)).getD 0 = (rows.map fun entry => weight entry.1 entry.2).sum := by
  induction rows with
  | nil => rfl
  | cons head rest ih =>
    obtain ⟨k, row⟩ := head
    obtain ⟨fresh, nodup⟩ := List.nodup_cons.mp nodup
    have before := ih nodup
    by_cases same : k = key
    · subst same
      rw [lookup_eq_none_of_fresh fresh] at before
      simp only [lookup, if_true, Option.map_some, Option.getD_some, Option.map_none, Option.getD_none, List.map_cons,
        List.sum_cons, List.filter_cons, ne_eq, not_true_eq_false, decide_false, Bool.false_eq_true, if_false] at before ⊢
      omega
    · simp only [List.filter_cons, same, ne_eq, not_false_eq_true, decide_true, if_true, lookup, if_false, List.map_cons,
        List.sum_cons] at before ⊢
      omega

theorem sum_erase_add (table : Table K R) (key : K) (weight : K → R → Nat) :
    (table.erase key).sum weight + ((table.get? key).map (weight key)).getD 0 = table.sum weight :=
  sum_filter_key key table.rows table.unique weight

theorem sum_erase {old : R} (stored : table.get? key = some old)
    (weight : K → R → Nat) : (table.erase key).sum weight + weight key old = table.sum weight := by
  have total := sum_erase_add table key weight
  rw [stored] at total
  exact total

theorem le_sum {row : R} (stored : table.get? key = some row) (weight : K → R → Nat) :
    weight key row ≤ table.sum weight := by
  have total := sum_erase stored weight
  omega

theorem sum_eq_zero {weight : K → R → Nat} (none : ∀ key row, table.get? key = some row → weight key row = 0) : table.sum weight = 0 := by
  rw [sum, List.sum_eq_zero_iff_forall_eq_nat]
  intro term listed
  obtain ⟨entry, stored, rfl⟩ := List.mem_map.mp listed
  exact none entry.1 entry.2 ((get?_eq_some_iff table entry.1 entry.2).mpr stored)

end Table
end PrAgent
