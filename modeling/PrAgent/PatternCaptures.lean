import PrAgent.BacktrackPattern
set_option autoImplicit false

namespace PrAgent

variable {α β : Type}

namespace Pattern

-- The first match of the pattern after which `next` succeeds.
def skip (p : Pattern α) (next : List α → Option β) (s : List α) : Option β := (p.results s).findSome? next

-- The same with the matched text as a capture.
def keep (p : Pattern α) (next : List α → List α → Option β) (s : List α) : Option β :=
  (p.results s).findSome? fun r => next (s.take (s.length - r.length)) r

variable {p : Pattern α} {s r x : List α} {found : β}

section Skip

variable {f : List α → Option β}

theorem skip_eq_some (here : p.skip f s = some found) : ∃ x r, p.Matches x ∧ s = x ++ r ∧ f r = some found := by
  obtain ⟨r, listed, after⟩ := List.exists_of_findSome?_eq_some here
  obtain ⟨x, matched, split⟩ := (mem_results p s r).mp listed
  exact ⟨x, r, matched, split, after⟩

theorem skip_ne_none (matched : p.Matches x) (after : f r ≠ none) : p.skip f (x ++ r) ≠ none := by
  intro none
  exact after (List.findSome?_eq_none_iff.mp none r ((mem_results p _ r).mpr ⟨x, matched, rfl⟩))

theorem skip_first (first : p.First s r) (after : f r = some found) : p.skip f s = some found := by
  obtain ⟨others, results⟩ := first.results_cons
  rw [skip, results, List.findSome?_cons, after]

end Skip

section Keep

variable {f : List α → List α → Option β}

theorem take_matched (x r : List α) : (x ++ r).take ((x ++ r).length - r.length) = x := by
  rw [List.length_append, Nat.add_sub_cancel, List.take_left]

theorem keep_eq_some (here : p.keep f s = some found) : ∃ x r, p.Matches x ∧ s = x ++ r ∧ f x r = some found := by
  obtain ⟨r, listed, after⟩ := List.exists_of_findSome?_eq_some here
  obtain ⟨x, matched, rfl⟩ := (mem_results p s r).mp listed
  rw [take_matched] at after
  exact ⟨x, r, matched, rfl, after⟩

theorem keep_ne_none (matched : p.Matches x) (after : f x r ≠ none) : p.keep f (x ++ r) ≠ none := by
  intro none
  have here := List.findSome?_eq_none_iff.mp none r ((mem_results p _ r).mpr ⟨x, matched, rfl⟩)
  rw [take_matched] at here
  exact after here

theorem keep_first (first : p.First (x ++ r) r) (after : f x r = some found) : p.keep f (x ++ r) = some found := by
  obtain ⟨others, results⟩ := first.results_cons
  rw [keep, results, List.findSome?_cons, take_matched, after]

end Keep

section Reading

variable {q : Pattern α} {f : List α → Option β} {capture : List α → List α → Option β} {allows : α → Bool}

theorem skip_seq (s : List α) : (seq p q).skip f s = p.skip (q.skip f) s := by
  simp only [skip, results]
  generalize p.results s = ends
  induction ends with
  | nil => rfl
  | cons r ends ih =>
      rw [List.flatMap_cons, List.findSome?_append, List.findSome?_cons, ih]
      cases here : (q.results r).findSome? f <;> simp [skip, here]

theorem skip_one (c : α) (s : List α) : (one allows).skip f (c :: s) = if allows c then f s else none := by
  cases allowed : allows c with
  | true => cases here : f s <;> simp [skip, results, allowed, here]
  | false => simp [skip, results, allowed]

theorem skip_literal [DecidableEq α] (text r : List α) : (literal text).skip f (text ++ r) = f r := by
  induction text with
  | nil => cases here : f r <;> simp [literal, skip, results, here]
  | cons c text ih =>
      rw [literal, skip_seq, List.cons_append, skip_one, ih]
      simp

theorem skip_literal_head [DecidableEq α] {c d : α} {text : List α} (other : d ≠ c) :
    (literal (c :: text)).skip f (d :: r) = none := by
  rw [literal, skip_seq, skip_one]
  simp [other]

-- A first difference within both texts.
def differs [DecidableEq α] : List α → List α → Bool
  | c :: text, d :: s => c ≠ d || differs text s
  | _, _ => false

theorem skip_literal_differs [DecidableEq α] {text s : List α} (differ : differs text s = true) (r : List α) :
    (literal text).skip f (s ++ r) = none := by
  induction text generalizing s with
  | nil => cases differ
  | cons c text ih =>
      cases s with
      | nil => cases differ
      | cons d s =>
          rw [literal, skip_seq, List.cons_append, skip_one]
          by_cases same : d = c
          · subst same
            rw [if_pos (decide_eq_true rfl)]
            exact ih (by simpa [differs] using differ)
          · rw [if_neg (by simp [same])]

theorem skip_literal_nil [DecidableEq α] {text : List α} (nonempty : text ≠ []) : (literal text).skip f [] = none := by
  obtain ⟨c, rest, rfl⟩ := List.exists_cons_of_ne_nil nonempty
  rfl

-- A greedy run ends where its class does, if what follows does not start inside of the class.
theorem skip_class (outside : ∀ c r, allows c = true → f (c :: r) = none) (s : List α) :
    (many (one allows)).skip f s = f (s.dropWhile allows) := by
  rw [skip, results]
  induction s with
  | nil => cases here : f [] <;> simp [repeats, here]
  | cons c s ih =>
      cases allowed : allows c with
      | true =>
          rw [List.dropWhile_cons_of_pos allowed, ← ih]
          simp [repeats, results, allowed, List.findSome?_append, outside c s allowed]
      | false =>
          rw [List.dropWhile_cons_of_neg (by simp [allowed])]
          cases here : f (c :: s) <;> simp [repeats, results, allowed, here]

theorem skip_class1 (outside : ∀ c r, allows c = true → f (c :: r) = none) (s : List α) :
    (some1 (one allows)).skip f s = if s.takeWhile allows = [] then none else f (s.dropWhile allows) := by
  rw [some1, skip_seq]
  cases s with
  | nil => rfl
  | cons c s => cases allowed : allows c <;> simp [skip_one, skip_class outside, allowed]

theorem takeWhile_all {x : List α} {c : α} (all : ∀ d ∈ x, allows d = true) (not : allows c = false) (s : List α) :
    (x ++ c :: s).takeWhile allows = x := by
  rw [List.takeWhile_append_of_pos all, List.takeWhile_cons_of_neg (by simp [not]), List.append_nil]

theorem dropWhile_all {x : List α} {c : α} (all : ∀ d ∈ x, allows d = true) (not : allows c = false) (s : List α) :
    (x ++ c :: s).dropWhile allows = c :: s := by
  rw [List.dropWhile_append_of_pos all, List.dropWhile_cons_of_neg (by simp [not])]

theorem take_class (s : List α) : s.take (s.length - (s.dropWhile allows).length) = s.takeWhile allows := by
  have split : s.takeWhile allows ++ s.dropWhile allows = s := List.takeWhile_append_dropWhile
  have taken := take_matched (s.takeWhile allows) (s.dropWhile allows)
  rwa [split] at taken

theorem keep_class1 (outside : ∀ x c r, allows c = true → capture x (c :: r) = none) (s : List α) :
    (some1 (one allows)).keep capture s =
      if s.takeWhile allows = [] then none else capture (s.takeWhile allows) (s.dropWhile allows) := by
  have reading := skip_class1 (f := fun r => capture (s.take (s.length - r.length)) r)
    (fun c r allowed => outside _ c r allowed) s
  rw [take_class] at reading
  exact reading

end Reading

end Pattern
end PrAgent
