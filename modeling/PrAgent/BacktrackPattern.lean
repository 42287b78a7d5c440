import Mathlib.Data.List.Basic
import Mathlib.Data.List.Infix
set_option autoImplicit false

namespace PrAgent

variable {α β : Type}

section Leftmost

-- The first position at which `find` succeeds, as the text before it.
def leftmost (find : List α → Option β) : List α → Option (List α × β)
  | [] => (find []).map fun found => ([], found)
  | c :: rest =>
    match find (c :: rest) with
    | some found => some ([], found)
    | none => (leftmost find rest).map fun result => (c :: result.1, result.2)

-- The positions in `before` that come first, with what follows them.
def FailsBefore (find : List α → Option β) (before rest : List α) : Prop :=
  ∀ x y, before = x ++ y → y ≠ [] → find (y ++ rest) = none

variable {find : List α → Option β}

theorem failsBefore_nil (rest : List α) : FailsBefore find [] rest := by
  intro x y split nonempty
  exact absurd (List.append_eq_nil_iff.mp split.symm).2 nonempty

theorem failsBefore_cons {c : α} {before rest : List α} :
    FailsBefore find (c :: before) rest ↔ find (c :: (before ++ rest)) = none ∧ FailsBefore find before rest := by
  constructor
  · intro fails
    refine ⟨fails [] (c :: before) rfl (by simp), ?_⟩
    intro x y split nonempty
    exact fails (c :: x) y (by rw [split, List.cons_append]) nonempty
  · intro ⟨here, fails⟩ x y split nonempty
    cases x with
    | nil =>
      obtain rfl : c :: before = y := split
      exact here
    | cons d x =>
      obtain ⟨_, split⟩ := List.cons.inj split
      exact fails x y split nonempty

theorem leftmost_eq_some_iff {s before : List α} {found : β} :
    leftmost find s = some (before, found) ↔
      ∃ rest, s = before ++ rest ∧ find rest = some found ∧ FailsBefore find before rest := by
  induction s generalizing before with
  | nil =>
    constructor
    · intro result
      obtain ⟨first, here, same⟩ := Option.map_eq_some_iff.mp result
      cases same
      exact ⟨[], rfl, here, failsBefore_nil []⟩
    · intro ⟨rest, split, here, _⟩
      obtain ⟨rfl, rfl⟩ := List.append_eq_nil_iff.mp split.symm
      simp [leftmost, here]
  | cons c s ih =>
    simp only [leftmost]
    cases here : find (c :: s) with
    | some first =>
      constructor
      · intro result
        cases result
        exact ⟨c :: s, rfl, here, failsBefore_nil _⟩
      · intro ⟨rest, split, found, fails⟩
        cases before with
        | nil =>
          obtain rfl : c :: s = rest := split
          rw [here] at found
          cases found
          rfl
        | cons d before =>
          obtain ⟨same, later⟩ := List.cons.inj split
          have none : find (c :: s) = none := by
            rw [same, show s = before ++ rest from later]
            exact (failsBefore_cons.mp fails).1
          rw [none] at here
          cases here
    | none =>
      constructor
      · intro result
        obtain ⟨⟨inner, first⟩, later, same⟩ := Option.map_eq_some_iff.mp result
        cases same
        obtain ⟨rest, rfl, found, fails⟩ := ih.mp later
        exact ⟨rest, rfl, found, failsBefore_cons.mpr ⟨here, fails⟩⟩
      · intro ⟨rest, split, found, fails⟩
        cases before with
        | nil =>
          obtain rfl : c :: s = rest := split
          rw [here] at found
          cases found
        | cons d before =>
          obtain ⟨same, later⟩ := List.cons.inj split
          rw [ih.mpr ⟨rest, later, found, (failsBefore_cons.mp fails).2⟩, same]
          rfl

theorem leftmost_eq_none_iff {s : List α} : leftmost find s = none ↔ ∀ x y, s = x ++ y → find y = none := by
  induction s with
  | nil => simp [leftmost]
  | cons c s ih =>
    simp only [leftmost]
    cases here : find (c :: s) with
    | some first =>
      constructor
      · nofun
      · intro fails
        rw [fails [] (c :: s) rfl] at here
        cases here
    | none =>
      rw [Option.map_eq_none_iff, ih]
      constructor
      · intro fails x y split
        cases x with
        | nil =>
          obtain rfl : c :: s = y := split
          exact here
        | cons d x => exact fails x y (List.cons.inj split).2
      · intro fails x y split
        exact fails (c :: x) y (by rw [split, List.cons_append])

end Leftmost

-- Patterns of a backtracking matcher; `many` is greedy.
inductive Pattern (α : Type)
  | empty
  | one (allows : α → Bool)
  | seq (first second : Pattern α)
  | many (body : Pattern α)

namespace Pattern

-- The ends of a greedy repetition in the order in which it tries them. An iteration consumes something.
def repeats (step : List α → List (List α)) : Nat → List α → List (List α)
  | 0, s => [s]
  | fuel + 1, s => ((step s).flatMap fun r => if r.length < s.length then repeats step fuel r else []) ++ [s]

-- What is left of the text after each match, in the order of the matcher.
def results : Pattern α → List α → List (List α)
  | .empty => fun s => [s]
  | .one allows => fun s =>
    match s with
    | [] => []
    | c :: rest => if allows c then [rest] else []
  | .seq first second => fun s => (first.results s).flatMap second.results
  | .many body => fun s => repeats body.results s.length s

def Matches : Pattern α → List α → Prop
  | .empty => fun s => s = []
  | .one allows => fun s => ∃ c, s = [c] ∧ allows c = true
  | .seq first second => fun s => ∃ x y, s = x ++ y ∧ first.Matches x ∧ second.Matches y
  | .many body => fun s => ∃ parts : List (List α), s = parts.flatten ∧ ∀ part ∈ parts, body.Matches part

def some1 (body : Pattern α) : Pattern α := .seq body (.many body)

def literal [DecidableEq α] : List α → Pattern α
  | [] => .empty
  | c :: rest => .seq (.one fun d => d = c) (literal rest)

-- `[\s\S]*?p`: what is left after the first match of the pattern.
def untilFirst (p : Pattern α) (s : List α) : Option (List α) :=
  (leftmost (fun rest => (p.results rest).head?) s).map Prod.snd

section Results

variable {p q : Pattern α} {s r t : List α}

theorem mem_repeats {step : List α → List (List α)} {holds : List α → Prop}
    (sound : ∀ s r, r ∈ step s ↔ ∃ x, holds x ∧ s = x ++ r) (fuel : Nat) (s r : List α) (enough : s.length ≤ fuel) :
    r ∈ repeats step fuel s ↔ ∃ parts : List (List α), (∀ part ∈ parts, holds part) ∧ s = parts.flatten ++ r := by
  induction fuel generalizing s with
  | zero =>
    have empty : s = [] := List.length_eq_zero_iff.mp (by omega)
    subst empty
    simp only [repeats, List.mem_singleton]
    constructor
    · intro same
      subst same
      exact ⟨[], by simp, rfl⟩
    · intro ⟨parts, _, split⟩
      exact (List.append_eq_nil_iff.mp split.symm).2
  | succ fuel ih =>
    simp only [repeats, List.mem_append, List.mem_flatMap, List.mem_singleton]
    constructor
    · rintro (⟨next, first, more⟩ | same)
      · split at more
        · next shorter =>
          obtain ⟨x, matched, split⟩ := (sound s next).mp first
          obtain ⟨parts, all, rest⟩ := (ih next (by omega)).mp more
          refine ⟨x :: parts, ?_, by rw [split, rest, List.flatten_cons, List.append_assoc]⟩
          intro part listed
          rcases List.mem_cons.mp listed with here | later
          · exact here ▸ matched
          · exact all part later
        · cases more
      · subst same
        exact ⟨[], by simp, rfl⟩
    · rintro ⟨parts, all, split⟩
      induction parts with
      | nil => exact .inr split.symm
      | cons x parts skip =>
        by_cases nonempty : x = []
        · subst nonempty
          exact skip (fun part listed => all part (List.mem_cons_of_mem _ listed)) split
        · rw [List.flatten_cons, List.append_assoc] at split
          have shorter : (parts.flatten ++ r).length < s.length := by
            have consumes := List.length_pos_iff.mpr nonempty
            have sizes := congrArg List.length split
            rw [List.length_append] at sizes
            omega
          refine .inl ⟨parts.flatten ++ r, (sound s _).mpr ⟨x, all x List.mem_cons_self, split⟩, ?_⟩
          rw [if_pos shorter]
          exact (ih _ (by omega)).mpr ⟨parts, fun part listed => all part (List.mem_cons_of_mem _ listed), rfl⟩

theorem mem_results (p : Pattern α) (s r : List α) : r ∈ p.results s ↔ ∃ x, p.Matches x ∧ s = x ++ r := by
  induction p generalizing s r with
  | empty =>
    constructor
    · intro here
      obtain rfl := List.mem_singleton.mp here
      exact ⟨[], rfl, rfl⟩
    · rintro ⟨x, rfl, rfl⟩
      exact List.mem_singleton_self _
  | one allows =>
    cases s with
    | nil =>
      constructor
      · nofun
      · rintro ⟨x, ⟨c, rfl, _⟩, split⟩
        cases split
    | cons c rest =>
      constructor
      · intro here
        simp only [results] at here
        split at here
        · next allowed =>
          obtain rfl := List.mem_singleton.mp here
          exact ⟨[c], ⟨c, rfl, allowed⟩, rfl⟩
        · cases here
      · rintro ⟨x, ⟨d, rfl, allowed⟩, split⟩
        obtain ⟨rfl, rfl⟩ := List.cons.inj split
        simp only [results]
        rw [if_pos allowed]
        exact List.mem_singleton_self _
  | seq first second ihFirst ihSecond =>
    simp only [results, List.mem_flatMap, ihFirst, ihSecond]
    constructor
    · rintro ⟨next, ⟨x, matched, rfl⟩, y, matched', rfl⟩
      exact ⟨x ++ y, ⟨x, y, rfl, matched, matched'⟩, by rw [List.append_assoc]⟩
    · rintro ⟨_, ⟨x, y, rfl, matched, matched'⟩, rfl⟩
      exact ⟨y ++ r, ⟨x, matched, by rw [List.append_assoc]⟩, y, matched', rfl⟩
  | many body ih =>
    rw [results, mem_repeats ih s.length s r (Nat.le_refl _)]
    constructor
    · rintro ⟨parts, all, split⟩
      exact ⟨parts.flatten, ⟨parts, rfl, all⟩, split⟩
    · rintro ⟨_, ⟨parts, rfl, all⟩, split⟩
      exact ⟨parts, all, split⟩

theorem results_eq_nil_iff : p.results s = [] ↔ ∀ x r, p.Matches x → s ≠ x ++ r := by
  rw [List.eq_nil_iff_forall_not_mem]
  constructor
  · intro fails x r matched split
    exact fails r ((mem_results p s r).mpr ⟨x, matched, split⟩)
  · intro fails r here
    obtain ⟨x, matched, split⟩ := (mem_results p s r).mp here
    exact fails x r matched split

theorem matches_literal [DecidableEq α] {text : List α} : (literal text).Matches s ↔ s = text := by
  induction text generalizing s with
  | nil => exact Iff.rfl
  | cons c text ih =>
    constructor
    · rintro ⟨_, y, rfl, ⟨d, rfl, same⟩, rest⟩
      rw [ih.mp rest, of_decide_eq_true same]
      rfl
    · rintro rfl
      exact ⟨[c], text, rfl, ⟨c, rfl, decide_eq_true rfl⟩, ih.mpr rfl⟩

theorem matches_many_one {allows : α → Bool} : (many (one allows)).Matches s ↔ ∀ c ∈ s, allows c = true := by
  constructor
  · rintro ⟨parts, rfl, all⟩ c listed
    obtain ⟨part, inParts, inPart⟩ := List.mem_flatten.mp listed
    obtain ⟨d, rfl, allowed⟩ := all part inParts
    obtain rfl := List.mem_singleton.mp inPart
    exact allowed
  · intro all
    have split : s = (s.map fun c => [c]).flatten := by
      induction s with
      | nil => rfl
      | cons c s ih => simpa using ih fun d listed => all d (List.mem_cons_of_mem _ listed)
    refine ⟨s.map fun c => [c], split, ?_⟩
    intro part listed
    obtain ⟨c, inText, rfl⟩ := List.mem_map.mp listed
    exact ⟨c, rfl, all c inText⟩

theorem matches_some1_one {allows : α → Bool} : (some1 (one allows)).Matches s ↔ s ≠ [] ∧ ∀ c ∈ s, allows c = true := by
  constructor
  · rintro ⟨_, y, rfl, ⟨c, rfl, allowed⟩, rest⟩
    refine ⟨by simp, ?_⟩
    intro d listed
    rcases List.mem_cons.mp listed with rfl | later
    · exact allowed
    · exact matches_many_one.mp rest d later
  · intro ⟨nonempty, all⟩
    obtain ⟨c, rest, rfl⟩ := List.exists_cons_of_ne_nil nonempty
    exact ⟨[c], rest, rfl, ⟨c, rfl, all c List.mem_cons_self⟩,
      matches_many_one.mpr fun d listed => all d (List.mem_cons_of_mem _ listed)⟩

theorem matches_many {body : Pattern α} :
    (many body).Matches s ↔ s = [] ∨ ∃ x y, s = x ++ y ∧ body.Matches x ∧ (many body).Matches y := by
  constructor
  · rintro ⟨parts, rfl, all⟩
    cases parts with
    | nil => exact .inl rfl
    | cons part parts =>
      exact .inr ⟨part, parts.flatten, rfl, all part List.mem_cons_self,
        parts, rfl, fun other listed => all other (List.mem_cons_of_mem _ listed)⟩
  · rintro (rfl | ⟨x, _, rfl, matched, parts, rfl, all⟩)
    · exact ⟨[], rfl, nofun⟩
    · refine ⟨x :: parts, rfl, ?_⟩
      intro part listed
      rcases List.mem_cons.mp listed with rfl | later
      · exact matched
      · exact all part later

end Results

section First

variable {p q : Pattern α} {s r t : List α}

-- The match that the matcher tries first leaves `r`.
def First (p : Pattern α) (s r : List α) : Prop := (p.results s).head? = some r

theorem First.results_cons (first : p.First s r) : ∃ others, p.results s = r :: others := by
  rw [First, List.head?_eq_some_iff] at first
  exact first

theorem First.seq (first : p.First s r) (second : q.First r t) : (Pattern.seq p q).First s t := by
  obtain ⟨others, results⟩ := first.results_cons
  obtain ⟨later, results'⟩ := second.results_cons
  simp [First, Pattern.results, results, results']

theorem First.one {allows : α → Bool} {c : α} (allowed : allows c = true) : (Pattern.one allows).First (c :: r) r := by
  simp [First, Pattern.results, allowed]

theorem First.literal [DecidableEq α] (text : List α) : (Pattern.literal text).First (text ++ r) r := by
  induction text with
  | nil => exact rfl
  | cons c text ih =>
    have head : (Pattern.one fun d => decide (d = c)).First (c :: (text ++ r)) (text ++ r) := First.one (decide_eq_true rfl)
    exact head.seq ih

theorem repeats_fuel {step : List α → List (List α)} (fuel fuel' : Nat) (s : List α) (enough : s.length ≤ fuel)
    (enough' : s.length ≤ fuel') : repeats step fuel s = repeats step fuel' s := by
  induction fuel generalizing fuel' s with
  | zero =>
    have empty : s = [] := List.length_eq_zero_iff.mp (by omega)
    subst empty
    cases fuel' with
    | zero => rfl
    | succ fuel' => simp [repeats]
  | succ fuel ih =>
    cases fuel' with
    | zero =>
      have empty : s = [] := List.length_eq_zero_iff.mp (by omega)
      subst empty
      simp [repeats]
    | succ fuel' =>
      have same : ∀ r, (if r.length < s.length then repeats step fuel r else []) =
          if r.length < s.length then repeats step fuel' r else [] := by
        intro r
        split
        · exact ih fuel' r (by omega) (by omega)
        · rfl
      simp only [repeats, same]

theorem First.more (first : p.First s r) (shorter : r.length < s.length) (rest : (Pattern.many p).First r t) :
    (Pattern.many p).First s t := by
  obtain ⟨others, results⟩ := first.results_cons
  obtain ⟨later, results'⟩ := rest.results_cons
  obtain ⟨fuel, length⟩ : ∃ fuel, s.length = fuel + 1 := ⟨s.length - 1, by omega⟩
  have inner : repeats p.results fuel r = t :: later := by
    rw [repeats_fuel fuel r.length r (by omega) (Nat.le_refl _)]
    exact results'
  simp only [First, Pattern.results, length, repeats, results, List.flatMap_cons]
  rw [if_pos (by omega), inner]
  rfl

theorem First.stop (fails : p.results s = []) : (Pattern.many p).First s s := by
  cases length : s.length with
  | zero => simp [First, Pattern.results, length, repeats]
  | succ fuel => simp [First, Pattern.results, length, repeats, fails]

theorem First.class {allows : α → Bool} (text : List α) (all : ∀ c ∈ text, allows c = true)
    (ends : ∀ c, r.head? = some c → allows c = false) : (Pattern.many (.one allows)).First (text ++ r) r := by
  induction text with
  | nil =>
    refine First.stop ?_
    cases r with
    | nil => rfl
    | cons c rest => simp [Pattern.results, ends c rfl]
  | cons c text ih =>
    refine First.more (First.one (all c List.mem_cons_self)) (by simp) ?_
    exact ih fun d listed => all d (List.mem_cons_of_mem _ listed)

theorem First.class1 {allows : α → Bool} (text : List α) (nonempty : text ≠ []) (all : ∀ c ∈ text, allows c = true)
    (ends : ∀ c, r.head? = some c → allows c = false) : (some1 (.one allows)).First (text ++ r) r := by
  obtain ⟨c, rest, rfl⟩ := List.exists_cons_of_ne_nil nonempty
  exact (First.one (all c List.mem_cons_self)).seq
    (First.class rest (fun d listed => all d (List.mem_cons_of_mem _ listed)) ends)

theorem untilFirst_of_first {before rest : List α} (first : p.First rest r)
    (fails : ∀ x y, before = x ++ y → y ≠ [] → p.results (y ++ rest) = []) : p.untilFirst (before ++ rest) = some r := by
  have found : leftmost (fun rest => (p.results rest).head?) (before ++ rest) = some (before, r) := by
    refine leftmost_eq_some_iff.mpr ⟨rest, rfl, first, ?_⟩
    intro x y split nonempty
    exact List.head?_eq_none_iff.mpr (fails x y split nonempty)
  rw [untilFirst, found]
  rfl

-- The first end is where no earlier position has one.
theorem untilFirst_eq_some (found : p.untilFirst s = some r) :
    ∃ before x, p.Matches x ∧ s = before ++ (x ++ r) ∧
      ∀ y z, before = y ++ z → z ≠ [] → p.results (z ++ (x ++ r)) = [] := by
  obtain ⟨⟨before, left⟩, first, same⟩ := Option.map_eq_some_iff.mp found
  obtain rfl : left = r := same
  obtain ⟨rest, rfl, here, fails⟩ := leftmost_eq_some_iff.mp first
  obtain ⟨x, matched, rfl⟩ := (mem_results p rest left).mp (List.mem_of_mem_head? here)
  refine ⟨before, x, matched, rfl, ?_⟩
  intro y z split nonempty
  exact List.head?_eq_none_iff.mp (fails y z split nonempty)

theorem untilFirst_isSome {before x : List α} (matched : p.Matches x) : ∃ left, p.untilFirst (before ++ (x ++ r)) = some left := by
  cases found : leftmost (fun rest => (p.results rest).head?) (before ++ (x ++ r)) with
  | some result => exact ⟨result.2, by rw [untilFirst, found]; rfl⟩
  | none =>
    have fails := List.head?_eq_none_iff.mp (leftmost_eq_none_iff.mp found before (x ++ r) rfl)
    exact absurd rfl (results_eq_nil_iff.mp fails x r matched)

end First

end Pattern
end PrAgent
