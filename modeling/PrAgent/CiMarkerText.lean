import PrAgent.CiSummaryCell
set_option autoImplicit false

namespace PrAgent

section Splits

variable {x y l r t : Text} {b c : Char}

-- Where a character that the first text does not have stands.
theorem split_past (absent : c ∉ x) (split : x ++ y = l ++ c :: r) : ∃ l', l = x ++ l' ∧ y = l' ++ c :: r := by
  rcases List.append_eq_append_iff.mp split with ⟨l', rfl, rest⟩ | ⟨x', rfl, rest⟩
  · exact ⟨l', rfl, rest⟩
  · cases x' with
    | nil => exact ⟨[], by simp, by simpa using rest.symm⟩
    | cons d x' =>
      obtain ⟨rfl, _⟩ := List.cons.inj rest
      exact absurd (by simp) absent

-- A text without a character lies on one side of that character.
theorem split_around (absent : b ∉ t) (split : x ++ b :: y = l ++ (t ++ r)) :
    (∃ c, x = l ++ (t ++ c) ∧ r = c ++ b :: y) ∨ ∃ l', l = x ++ l' ∧ b :: y = l' ++ (t ++ r) := by
  rcases List.append_eq_append_iff.mp split with ⟨l', rfl, rest⟩ | ⟨x', rfl, rest⟩
  · exact .inr ⟨l', rfl, rest⟩
  · rcases List.append_eq_append_iff.mp rest with ⟨c, rfl, after⟩ | ⟨t', same, after⟩
    · exact .inl ⟨c, rfl, after⟩
    · cases t' with
      | nil => exact .inl ⟨[], by simpa using same.symm, by simpa using after.symm⟩
      | cons d t' =>
        obtain ⟨rfl, _⟩ := List.cons.inj after
        exact absurd (by simp [same]) absent

theorem solid_of_all (all : (t.all fun c => !isSpace c) = true) : ∀ c ∈ t, isSpace c = false := by
  simpa using all

theorem nil_of_head {holds : Char → Bool} (all : ∀ d ∈ x, holds d = true) (not : holds c = false)
    (split : x ++ y = c :: r) : x = [] := by
  cases x with
  | nil => rfl
  | cons d x =>
    obtain ⟨rfl, _⟩ := List.cons.inj split
    rw [all d List.mem_cons_self] at not
    cases not

theorem cons_of_head (nonempty : x ≠ []) (split : x ++ y = c :: r) : ∃ x', x = c :: x' ∧ x' ++ y = r := by
  obtain ⟨d, x', rfl⟩ := List.exists_cons_of_ne_nil nonempty
  obtain ⟨rfl, rest⟩ := List.cons.inj split
  exact ⟨x', rfl, rest⟩

end Splits

section Comments

-- A text in which no comment opens.
def NoComment (t : Text) : Prop := ¬text "<!--" <:+: t

theorem opensComment_eq : text "<!--" = ['<', '!', '-', '-'] := by decide

variable {t w s x y u z : Text}

-- Nor does one across the end of it, before a text that does not go on with one.
theorem noComment_cross (none : NoComment t) (split : t = x ++ y) (nonempty : y ≠ []) :
    y ++ '<' :: w ≠ text "<!--" ++ s := by
  rw [opensComment_eq]
  intro opens
  refine none ⟨x, ?_⟩
  rw [opensComment_eq, split]
  match y, nonempty with
  | [a], _ => simp at opens
  | [a, b], _ => simp at opens
  | [a, b, c], _ => simp at opens
  | a :: b :: c :: d :: rest, _ =>
    simp only [List.cons_append, List.cons.injEq, List.nil_append] at opens
    exact ⟨rest, by simp [opens.1, opens.2.1, opens.2.2.1, opens.2.2.2.1]⟩

theorem noComment_of_noAngle (absent : '<' ∉ t) : NoComment t := by
  intro inside
  rw [opensComment_eq] at inside
  exact absent (inside.subset (by simp))

theorem noComment_append_left (absent : '<' ∉ t) (none : NoComment s) : NoComment (t ++ s) := by
  rintro ⟨x, y, split⟩
  rw [opensComment_eq, List.append_assoc] at split
  obtain ⟨x', _, rest⟩ := split_past absent split.symm
  exact none ⟨x', y, by rw [opensComment_eq, List.append_assoc, rest]; rfl⟩

-- A text that does not start within a comment opening adds none.
theorem noComment_append (none : NoComment t) (none' : NoComment s)
    (starts : ∀ c, s.head? = some c → c ≠ '!' ∧ c ≠ '-') : NoComment (t ++ s) := by
  rintro ⟨x, y, split⟩
  rw [List.append_assoc] at split
  rcases List.append_eq_append_iff.mp split with ⟨t', rfl, rest⟩ | ⟨x', rfl, rest⟩
  · rw [opensComment_eq] at rest
    match t' with
    | [] => exact none' ⟨[], y, by rw [opensComment_eq]; exact rest⟩
    | [a] =>
      simp only [List.cons_append, List.nil_append, List.cons.injEq] at rest
      exact (starts '!' (by rw [← rest.2]; rfl)).1 rfl
    | [a, b] =>
      simp only [List.cons_append, List.nil_append, List.cons.injEq] at rest
      exact (starts '-' (by rw [← rest.2.2]; rfl)).2 rfl
    | [a, b, c] =>
      simp only [List.cons_append, List.nil_append, List.cons.injEq] at rest
      exact (starts '-' (by rw [← rest.2.2.2]; rfl)).2 rfl
    | a :: b :: c :: d :: rest' =>
      simp only [List.cons_append, List.nil_append, List.cons.injEq] at rest
      obtain ⟨rfl, rfl, rfl, rfl, _⟩ := rest
      exact none ⟨x, rest', by simp [opensComment_eq]⟩
  · exact none' ⟨x', y, by rw [List.append_assoc, rest]⟩

theorem NoComment.left (none : NoComment (t ++ s)) : NoComment t := fun inside => none (inside.trans ⟨[], s, by simp⟩)

theorem NoComment.right (none : NoComment (t ++ s)) : NoComment s := fun inside => none (inside.trans ⟨t, [], by simp⟩)

end Comments

section Tags

variable {marker other : CiMarker} {tag u w r s t x y z : Text} {label : Text}

def tagTail : Pattern Char := .seq (.many attributePattern) closeTag

def startMarker (marker : CiMarker) : Pattern Char := .seq (openMarker marker) tagTail

-- What every comment with a label is.
def IsComment (label tag : Text) : Prop :=
  ∃ gap rest, tag = text "<!--" ++ (gap ++ (label ++ rest)) ∧ ∀ c ∈ gap, isSpace c = true

theorem startMarker_split (matched : (startMarker marker).Matches tag) :
    ∃ gap tail, tag = text "<!--" ++ (gap ++ (marker.name ++ tail)) ∧ (∀ c ∈ gap, isSpace c = true) ∧ tagTail.Matches tail := by
  obtain ⟨_, tail, rfl, ⟨_, _, rfl, comment, gap, _, rfl, spaced, named⟩, ended⟩ := matched
  rw [Pattern.matches_literal.mp comment, Pattern.matches_literal.mp named]
  exact ⟨gap, tail, by simp, Pattern.matches_many_one.mp spaced, ended⟩

theorem startMarker_comment (matched : (startMarker marker).Matches tag) : IsComment marker.name tag := by
  obtain ⟨gap, tail, split, spaced, _⟩ := startMarker_split matched
  exact ⟨gap, tail, split, spaced⟩

theorem endMarker_split (matched : (endMarker marker).Matches tag) :
    ∃ gap gap', tag = text "<!--" ++ (gap ++ (('/' :: marker.name) ++ (gap' ++ text "-->"))) ∧
      (∀ c ∈ gap, isSpace c = true) ∧ ∀ c ∈ gap', isSpace c = true := by
  obtain ⟨_, _, rfl, comment, gap, _, rfl, spaced, _, _, rfl, named, gap', _, rfl, spaced', ended⟩ := matched
  rw [Pattern.matches_literal.mp comment, Pattern.matches_literal.mp named, Pattern.matches_literal.mp ended]
  exact ⟨gap, gap', rfl, Pattern.matches_many_one.mp spaced, Pattern.matches_many_one.mp spaced'⟩

theorem endMarker_comment (matched : (endMarker marker).Matches tag) : IsComment ('/' :: marker.name) tag := by
  obtain ⟨gap, gap', split, spaced, _⟩ := endMarker_split matched
  exact ⟨gap, gap' ++ text "-->", split, spaced⟩

theorem IsComment.ne_nil (comment : IsComment label tag) : tag ≠ [] := by
  obtain ⟨gap, rest, rfl, _⟩ := comment
  rw [opensComment_eq]
  exact List.cons_ne_nil _ _

theorem IsComment.opens (comment : IsComment label tag) : ∃ rest, tag = text "<!--" ++ rest := by
  obtain ⟨gap, rest, split, _⟩ := comment
  exact ⟨_, split⟩

-- A comment that starts where a rendered one does has its label.
theorem IsComment.labelled {c d : Char} {name : Text} (comment : IsComment (d :: name) tag) (solid : isSpace d = false)
    (split : tag ++ y = text "<!-- " ++ c :: s) (solid' : isSpace c = false) : (d :: name) <+: c :: s := by
  obtain ⟨gap, rest, rfl, spaced⟩ := comment
  have same : text "<!-- " = text "<!--" ++ [' '] := by decide
  rw [same] at split
  simp only [List.append_assoc, List.append_cancel_left_eq] at split
  cases gap with
  | nil =>
    have first : d = ' ' := by simpa using congrArg List.head? split
    rw [first] at solid
    exact absurd solid (by decide)
  | cons g gap =>
    obtain ⟨_, split⟩ := List.cons.inj split
    have none : gap = [] :=
      nil_of_head (fun e listed => spaced e (List.mem_cons_of_mem _ listed)) solid' (by simpa using split)
    subst none
    exact ⟨rest ++ y, by simpa using split⟩

theorem name_cons (marker : CiMarker) : ∃ name, marker.name = 'p' :: name := by
  cases marker
  · exact ⟨text "r-agent:ci-summary", by decide⟩
  · exact ⟨text "r-agent:ci-action", by decide⟩

theorem name_noAngle (marker : CiMarker) : '<' ∉ marker.name := by
  cases marker <;> decide

-- Neither name starts the other one.
theorem name_starts (named : marker.name <+: other.name ++ s) : marker = other := by
  have summary : CiMarker.summary.name = text "pr-agent:ci-s" ++ text "ummary" := by decide
  have action : CiMarker.action.name = text "pr-agent:ci-a" ++ text "ction" := by decide
  obtain ⟨rest, split⟩ := named
  cases marker with
  | summary =>
    cases other with
    | summary => rfl
    | action =>
      rw [summary, action, List.append_assoc, List.append_assoc] at split
      exact absurd (List.append_inj_left split (by decide)) (by decide)
  | action =>
    cases other with
    | action => rfl
    | summary =>
      rw [summary, action, List.append_assoc, List.append_assoc] at split
      exact absurd (List.append_inj_left split (by decide)) (by decide)

end Tags

section Crossing

variable {marker : CiMarker} {a r s t tag u w x y z : Text}

theorem attribute_split (matched : attributePattern.Matches a) :
    ∃ gap word value, a = gap ++ (word ++ '=' :: value) ∧ (gap ≠ [] ∧ ∀ c ∈ gap, isSpace c = true) ∧
      (word ≠ [] ∧ ∀ c ∈ word, isWord c = true) ∧ value ≠ [] ∧ ∀ c ∈ value, isSpace c = false := by
  obtain ⟨gap, _, rfl, spaced, word, _, rfl, named, _, value, rfl, equals, given⟩ := matched
  rw [Pattern.matches_literal.mp equals]
  have solid := Pattern.matches_some1_one.mp given
  exact ⟨gap, word, value, rfl, Pattern.matches_some1_one.mp spaced, Pattern.matches_some1_one.mp named, solid.1,
    fun c listed => by simpa using solid.2 c listed⟩

theorem closeTag_split (matched : closeTag.Matches s) : ∃ gap, s = gap ++ text "-->" ∧ ∀ c ∈ gap, isSpace c = true := by
  obtain ⟨gap, _, rfl, spaced, ended⟩ := matched
  rw [Pattern.matches_literal.mp ended]
  exact ⟨gap, rfl, Pattern.matches_many_one.mp spaced⟩

theorem tagTail_cases (matched : tagTail.Matches s) :
    closeTag.Matches s ∨ ∃ a z, s = a ++ z ∧ attributePattern.Matches a ∧ tagTail.Matches z := by
  obtain ⟨attrs, close, rfl, listed, ended⟩ := matched
  rcases Pattern.matches_many.mp listed with rfl | ⟨a, rest, rfl, first, later⟩
  · exact .inl ended
  · exact .inr ⟨a, rest ++ close, by simp, first, rest, close, rfl, later, ended⟩

theorem word_noAngle {c : Char} (word : isWord c = true) : c ≠ '<' := by
  rintro rfl
  exact absurd word (by decide)

theorem absent_of_class {holds : Char → Bool} {c : Char} (all : ∀ d ∈ x, holds d = true) (not : holds c = false) : c ∉ x := by
  intro listed
  rw [all c listed] at not
  cases not

theorem closeTag_noAngle (matched : closeTag.Matches s) : '<' ∉ s := by
  obtain ⟨gap, rfl, spaced⟩ := closeTag_split matched
  rw [List.mem_append, not_or]
  exact ⟨absent_of_class spaced (by decide), by decide⟩

-- An angle bracket stands in the value of an attribute only, and the rest of the tag follows that value.
theorem tagTail_angle (matched : tagTail.Matches s) (split : s = x ++ '<' :: t) :
    ∃ v z, t = v ++ z ∧ (∀ c ∈ v, isSpace c = false) ∧ tagTail.Matches z := by
  obtain ⟨attrs, close, rfl, ⟨parts, rfl, all⟩, ended⟩ := matched
  induction parts generalizing x with
  | nil => exact absurd (by rw [show close = x ++ '<' :: t from split]; simp) (closeTag_noAngle ended)
  | cons a parts ih =>
    have later : ∀ part ∈ parts, attributePattern.Matches part := fun part listed => all part (List.mem_cons_of_mem _ listed)
    have tail : tagTail.Matches (parts.flatten ++ close) := ⟨parts.flatten, close, rfl, ⟨parts, rfl, later⟩, ended⟩
    obtain ⟨gap, word, value, rfl, ⟨_, spaced⟩, ⟨_, named⟩, _, solid⟩ := attribute_split (all a List.mem_cons_self)
    have around : gap ++ (word ++ ('=' :: (value ++ (parts.flatten ++ close)))) = x ++ '<' :: t := by
      rw [← split]
      simp
    obtain ⟨x, _, around⟩ := split_past (absent_of_class spaced (by decide)) around
    obtain ⟨x, _, around⟩ := split_past (absent_of_class named (by decide)) around
    obtain ⟨x, _, around⟩ := split_past (x := ['=']) (by decide) around
    rcases List.append_eq_append_iff.mp around with ⟨x', rfl, rest⟩ | ⟨value', rfl, rest⟩
    · exact ih later rest
    · cases value' with
      | nil => exact ih (x := []) later (by simpa using rest.symm)
      | cons d value' =>
        obtain ⟨rfl, after⟩ := List.cons.inj rest
        exact ⟨value', parts.flatten ++ close, after, fun c listed => solid c (by simp [listed]), tail⟩

-- The start of a rendered comment, of an opening or of a closing one.
def Edge (w : Text) : Prop := text "<!-- pr-" <+: w ∨ text "<!-- /" <+: w

theorem Edge.append (edge : Edge w) (z : Text) : Edge (w ++ z) :=
  edge.imp (fun starts => starts.trans (List.prefix_append w z)) fun starts => starts.trans (List.prefix_append w z)

theorem Edge.angle (edge : Edge w) : ∃ rest, w = '<' :: rest := by
  rcases edge with ⟨rest, rfl⟩ | ⟨rest, rfl⟩
  · exact ⟨_, rfl⟩
  · exact ⟨_, rfl⟩

-- A blank before the label of a rendered comment starts neither an attribute nor the end of a tag.
theorem tagTail_not_label {rest : Text} (matched : tagTail.Matches z)
    (label : rest = 'p' :: 'r' :: '-' :: s ∨ rest = '/' :: s) : z ++ y ≠ ' ' :: rest := by
  intro split
  obtain ⟨c, rest', start, solid, noHyphen⟩ : ∃ c rest', rest = c :: rest' ∧ isSpace c = false ∧ c ≠ '-' := by
    rcases label with rfl | rfl
    · exact ⟨'p', _, rfl, by decide, by decide⟩
    · exact ⟨'/', _, rfl, by decide, by decide⟩
  subst start
  rcases tagTail_cases matched with close | ⟨a, z, rfl, attr, _⟩
  · obtain ⟨gap, rfl, spaced⟩ := closeTag_split close
    cases gap with
    | nil => exact absurd (List.cons.inj split).1 (by decide)
    | cons g gap =>
      obtain ⟨_, split⟩ := List.cons.inj split
      obtain rfl : gap = [] := nil_of_head (y := text "-->" ++ y) (fun d listed => spaced d (List.mem_cons_of_mem _ listed))
        solid (by simpa using split)
      exact noHyphen (List.cons.inj split).1.symm
  · obtain ⟨gap, word, value, rfl, ⟨nonempty, spaced⟩, ⟨named, words⟩, _, _⟩ := attribute_split attr
    obtain ⟨gap, rfl, afterBlank⟩ := cons_of_head (y := word ++ '=' :: (value ++ (z ++ y))) nonempty (by simpa using split)
    obtain rfl : gap = [] := nil_of_head (fun d listed => spaced d (List.mem_cons_of_mem _ listed)) solid afterBlank
    obtain ⟨word, rfl, afterFirst⟩ := cons_of_head named afterBlank
    rcases label with same | same
    · obtain ⟨_, rfl⟩ := List.cons.inj same
      cases word with
      | nil => exact absurd (List.cons.inj afterFirst).1 (by decide)
      | cons d word =>
        obtain ⟨_, afterSecond⟩ := List.cons.inj afterFirst
        obtain rfl : word = [] := @nil_of_head _ _ _ _ isWord
          (fun e listed => words e (List.mem_cons_of_mem _ (List.mem_cons_of_mem _ listed))) (by decide) afterSecond
        exact absurd (List.cons.inj afterSecond).1 (by decide)
    · obtain ⟨rfl, _⟩ := List.cons.inj same
      exact absurd (words '/' List.mem_cons_self) (by decide)

-- What is left of `<!-- ` after a part of it without blanks ends no tag either.
theorem tagTail_not_edge {rest : Text} (matched : tagTail.Matches z)
    (label : rest = 'p' :: 'r' :: '-' :: s ∨ rest = '/' :: s) {v : Text} (solid : ∀ c ∈ v, isSpace c = false) :
    v ++ (z ++ y) ≠ text "!-- " ++ rest := by
  have bang : text "!-- " = ['!', '-', '-', ' '] := by decide
  rw [bang]
  intro split
  have starts : ∀ {c d : Char} {more : Text}, z ++ y = c :: d :: more → isSpace c = true ∨ (c = '-' ∧ d = '-' ∧ more.head? = some '>') := by
    intro c d more split
    rcases tagTail_cases matched with close | ⟨a, z, rfl, attr, _⟩
    · obtain ⟨gap, rfl, spaced⟩ := closeTag_split close
      cases gap with
      | nil =>
        simp only [show text "-->" = ['-', '-', '>'] by decide, List.nil_append, List.cons_append, List.cons.injEq] at split
        exact .inr ⟨split.1.symm, split.2.1.symm, by rw [← split.2.2]; rfl⟩
      | cons g gap =>
        obtain ⟨rfl, _⟩ := List.cons.inj split
        exact .inl (spaced g List.mem_cons_self)
    · obtain ⟨gap, word, value, rfl, ⟨nonempty, spaced⟩, _⟩ := attribute_split attr
      obtain ⟨gap, rfl, _⟩ := cons_of_head (y := word ++ '=' :: (value ++ (z ++ y))) nonempty (by simpa using split)
      exact .inl (spaced c List.mem_cons_self)
  match v with
  | [] =>
    rcases starts split with spaced | ⟨bang, _⟩
    · exact absurd spaced (by decide)
    · exact absurd bang (by decide)
  | [a] =>
    obtain ⟨_, split⟩ := List.cons.inj split
    rcases starts split with spaced | ⟨_, _, more⟩
    · exact absurd spaced (by decide)
    · simp at more
  | [a, b] =>
    obtain ⟨_, split⟩ := List.cons.inj split
    obtain ⟨_, split⟩ := List.cons.inj split
    rcases starts split with spaced | ⟨_, blank, _⟩
    · exact absurd spaced (by decide)
    · exact absurd blank (by decide)
  | [a, b, c] =>
    obtain ⟨_, split⟩ := List.cons.inj split
    obtain ⟨_, split⟩ := List.cons.inj split
    obtain ⟨_, split⟩ := List.cons.inj split
    exact tagTail_not_label matched label split
  | a :: b :: c :: d :: v =>
    obtain ⟨_, split⟩ := List.cons.inj split
    obtain ⟨_, split⟩ := List.cons.inj split
    obtain ⟨_, split⟩ := List.cons.inj split
    obtain ⟨rfl, _⟩ := List.cons.inj split
    exact absurd (solid ' ' (by simp)) (by decide)

-- No tag that starts before a rendered comment goes on into it.
theorem startMarker_within (matched : (startMarker marker).Matches tag) (split : tag ++ r = u ++ w) (nonempty : u ≠ [])
    (edge : Edge w) : ∃ u', u = tag ++ u' ∧ r = u' ++ w := by
  rcases List.append_eq_append_iff.mp split with ⟨u', rfl, rest⟩ | ⟨t, rfl, rest⟩
  · exact ⟨u', rfl, rest⟩
  · cases t with
    | nil => exact ⟨[], by simp, by simpa using rest.symm⟩
    | cons d t =>
      obtain ⟨bracket, rfl⟩ := edge.angle
      obtain ⟨rfl, inside⟩ := List.cons.inj rest
      obtain ⟨gap, tail, around, spaced, ended⟩ := startMarker_split matched
      obtain ⟨c, u, rfl⟩ := List.exists_cons_of_ne_nil nonempty
      rw [opensComment_eq] at around
      obtain ⟨_, around⟩ := List.cons.inj around
      obtain ⟨x, _, around⟩ := split_past (x := ['!', '-', '-']) (by decide) (Eq.symm around)
      obtain ⟨x, _, around⟩ := split_past (absent_of_class spaced (by decide)) around
      obtain ⟨x, _, around⟩ := split_past (name_noAngle marker) around
      obtain ⟨v, z, rfl, solid, ended⟩ := tagTail_angle ended around
      exfalso
      rcases edge with ⟨more, start⟩ | ⟨more, start⟩
      · have bang : text "<!-- pr-" = '<' :: (text "!-- " ++ text "pr-") := by decide
        rw [bang, List.cons_append, List.append_assoc] at start
        obtain ⟨_, start⟩ := List.cons.inj start
        exact tagTail_not_edge (y := r) (s := more) ended (.inl rfl) solid
          ((List.append_assoc v z r).symm.trans (inside.symm.trans start.symm))
      · have bang : text "<!-- /" = '<' :: (text "!-- " ++ text "/") := by decide
        rw [bang, List.cons_append, List.append_assoc] at start
        obtain ⟨_, start⟩ := List.cons.inj start
        exact tagTail_not_edge (y := r) (s := more) ended (.inr rfl) solid
          ((List.append_assoc v z r).symm.trans (inside.symm.trans start.symm))

theorem endMarker_angle (matched : (endMarker marker).Matches tag) : ∃ rest, tag = '<' :: rest ∧ '<' ∉ rest := by
  obtain ⟨gap, gap', rfl, spaced, spaced'⟩ := endMarker_split matched
  refine ⟨['!', '-', '-'] ++ (gap ++ ('/' :: marker.name ++ (gap' ++ text "-->"))), by rw [opensComment_eq]; rfl, ?_⟩
  simp only [List.mem_append, List.mem_cons, not_or]
  refine ⟨by decide, absent_of_class spaced (by decide), ⟨by decide, name_noAngle marker⟩, ?_, by decide⟩
  exact absent_of_class spaced' (by decide)

theorem endMarker_within (matched : (endMarker marker).Matches tag) (split : tag ++ r = u ++ '<' :: w) (nonempty : u ≠ []) :
    ∃ u', u = tag ++ u' ∧ r = u' ++ '<' :: w := by
  obtain ⟨rest, rfl, absent⟩ := endMarker_angle matched
  obtain ⟨c, u, rfl⟩ := List.exists_cons_of_ne_nil nonempty
  obtain ⟨rfl, inside⟩ := List.cons.inj split
  obtain ⟨u', rfl, rest⟩ := split_past absent inside
  exact ⟨u', rfl, rest⟩

end Crossing

end PrAgent
