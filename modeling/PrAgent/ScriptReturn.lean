import PrAgent.ScriptBoundaries
set_option autoImplicit false

namespace PrAgent.ReturnInjection

open CommentMarkers (trimEnd)

section Scripts

-- A script with the place of its last statement's first token; the comments behind the statement count with it.
structure Script where
  front : Text
  last : Text
  tail : Text
  starts : (last.head?.any fun c => !isSpace c) = true
  ends : (last.getLast?.any fun c => !isSpace c) = true
  blank : tail.all isSpace = true

def Script.code (script : Script) : Text := script.front ++ script.last

def Script.Reads (script : Script) (parts : List ScriptPart) : Prop := Apart parts = true ∧ partsText parts = script.code

-- What injection makes of the script.
def Script.injected (script : Script) : Text := injectLastExpressionReturn (script.code ++ script.tail)

def Script.Returned (script : Script) : Prop := script.injected = script.front ++ (text "return " ++ script.last)

-- The same, with blanks that stand directly before the statement left out.
def Script.ReturnedTight (script : Script) : Prop :=
  ∃ kept blanks, script.front = kept ++ blanks ∧ blanks.all isSpace = true ∧ script.injected = kept ++ (text "return " ++ script.last)

def Script.Unchanged (script : Script) : Prop := script.injected = script.code

-- What stands behind a place, from its first character that is no space.
def Script.behind (script : Script) (place : Nat) : Text := trimStart (script.code.drop place)

def Script.BoundaryBefore (script : Script) (parts : List ScriptPart) : Prop :=
  ∃ kept blanks, script.front = kept ++ blanks ∧ blanks.all isSpace = true ∧ LastBoundary parts kept.length

end Scripts

section Words

theorem statement_return {value : Text} (starts : text "return " <+: value) : isStatementStart value = true := by
  obtain ⟨rest, rfl⟩ := starts
  exact List.any_eq_true.mpr ⟨text "return", by decide, rfl⟩

theorem statement_await {value : Text} (starts : startsWithWord (text "await") value = true) : isStatementStart value = false := by
  rw [startsWithWord, Bool.and_eq_true, decide_eq_true_iff] at starts
  obtain ⟨⟨rest, rfl⟩, _⟩ := starts
  rw [isStatementStart, List.any_eq_false]
  intro word listed begins
  rw [startsWithWord, Bool.and_eq_true, decide_eq_true_iff] at begins
  have two : word.take 2 = text "aw" := by
    obtain ⟨more, same⟩ := begins.1
    have long : ∀ word ∈ statementStart, 2 ≤ word.length := by decide
    have cut := congrArg (List.take 2) same
    rw [List.take_append_of_le_length (long word listed)] at cut
    exact cut
  exact absurd two ((by decide : ∀ word ∈ statementStart, word.take 2 ≠ text "aw") word listed)

end Words

section Placing

variable {a b d k s l u : Text}

-- The inserted word commutes with no shorter text.
theorem insertion_commutes (same : text "return " ++ u = u ++ text "return ") (apart : u ≠ []) : text "return " <+: u := by
  by_cases long : 7 ≤ u.length
  · have left : text "return " <+: u ++ text "return " := by
      rw [← same]
      exact List.prefix_append _ _
    exact List.prefix_of_prefix_length_le left (List.prefix_append _ _) long
  · have inside : u <+: text "return " := by
      have left : u <+: text "return " ++ u := by
        rw [same]
        exact List.prefix_append _ _
      have short : u.length ≤ (text "return ").length := by
        have seven : (text "return ").length = 7 := rfl
        omega
      exact List.prefix_of_prefix_length_le left (List.prefix_append _ _) short
    have cut : u = (text "return ").take u.length := List.prefix_iff_eq_take.mp inside
    have some_text : 0 < u.length := List.length_pos_of_ne_nil apart
    have none_commutes : ∀ n < 7, 0 < n → text "return " ++ (text "return ").take n ≠ (text "return ").take n ++ text "return " := by decide
    rw [cut] at same
    exact absurd same (none_commutes u.length (by omega) some_text)

-- Where the word goes in at two places with one outcome, the text behind the first place starts with the word.
theorem insertion_repeats (same : b ++ d = u ++ (s ++ l)) (out : text "return " ++ d = u ++ (text "return " ++ l)) (blank : b.all isSpace = true)
    (apart : u ≠ []) : text "return " <+: d := by
  obtain ⟨c, rest, rfl⟩ := List.exists_cons_of_ne_nil apart
  have first : c = 'r' := (List.cons.inj out).1.symm
  have gapless : b = [] := by
    cases b with
    | nil => rfl
    | cons x b =>
        have head : x = 'r' := (List.cons.inj same).1.trans first
        rw [head, List.all_cons] at blank
        cases blank
  subst gapless
  rw [List.nil_append] at same
  have none_left : s = [] := by
    have long := congrArg List.length out
    have whole := congrArg List.length same
    simp only [List.length_append] at long whole
    exact List.length_eq_zero_iff.mp (by omega)
  rw [none_left, List.nil_append] at same
  rw [same, ← List.append_assoc, ← List.append_assoc] at out
  rw [same]
  exact (insertion_commutes (List.append_cancel_right out) apart).trans (List.prefix_append _ _)

theorem insertion_place (same : a ++ (b ++ d) = k ++ (s ++ l)) (out : a ++ (text "return " ++ d) = k ++ (text "return " ++ l))
    (gap : b.all isSpace = true) (blank : s.all isSpace = true) (plain : ¬text "return " <+: d) (plain' : ¬text "return " <+: l) : a = k := by
  rcases List.append_eq_append_iff.mp same with ⟨u, split, rest⟩ | ⟨u, split, rest⟩
  · rw [split, List.append_assoc, List.append_right_inj] at out
    by_cases apart : u = []
    · rw [split, apart, List.append_nil]
    · exact absurd (insertion_repeats rest out gap apart) plain
  · rw [split, List.append_assoc, List.append_right_inj] at out
    by_cases apart : u = []
    · rw [split, apart, List.append_nil]
    · exact absurd (insertion_repeats rest out.symm blank apart) plain'

end Placing

section Outcome

theorem trimEnd_closed {value : Text} (ends : ∀ c, value.getLast? = some c → isSpace c = false) : trimEnd value = value := by
  refine List.rdropWhile_eq_self_iff.mpr fun some_text blank => ?_
  rw [ends _ (List.getLast?_eq_some_getLast some_text)] at blank
  cases blank

variable (script : Script)

theorem code_ends (c : Char) (last : script.code.getLast? = some c) : isSpace c = false := by
  have ends := script.ends
  cases found : script.last.getLast? with
  | none =>
      rw [found] at ends
      cases ends
  | some d =>
      rw [Script.code, List.getLast?_append, found] at last
      cases last
      rw [found] at ends
      simpa using ends

theorem behind_ends (place : Nat) : trimEnd (script.behind place) = script.behind place := by
  have inside : script.behind place <:+ script.code := (List.dropWhile_suffix isSpace).trans (List.drop_suffix place _)
  refine trimEnd_closed fun c last => code_ends script c ?_
  obtain ⟨before, whole⟩ := inside
  rw [← whole, List.getLast?_append, last]
  rfl

theorem trim_behind (place : Nat) : trim (script.code.drop place) = script.behind place := by
  rw [trim_eq]
  exact behind_ends script place

theorem trimmed : trimEnd (script.code ++ script.tail) = script.code := by
  rw [trimEnd_blank (List.all_eq_true.mp script.blank)]
  exact trimEnd_closed (code_ends script)

theorem last_shape : ∃ c rest, script.last = c :: rest ∧ isSpace c = false := by
  have starts := script.starts
  cases shape : script.last with
  | nil =>
      rw [shape] at starts
      cases starts
  | cons c rest =>
      rw [shape] at starts
      exact ⟨c, rest, rfl, by simpa using starts⟩

theorem code_solid : (trim script.code).length ≠ 0 := by
  obtain ⟨c, rest, shape, solid⟩ := last_shape script
  intro none_left
  have whole : trim script.code = script.behind 0 := trim_behind script 0
  rw [whole] at none_left
  have spaces := List.dropWhile_eq_nil_iff.mp (List.length_eq_zero_iff.mp none_left)
  have blank := spaces c (by simp [Script.code, shape])
  rw [solid] at blank
  cases blank

-- What injection gives, by the text behind the start that the loop finds.
theorem injected_eq : script.injected =
    if script.behind (lastTopLevelStatementStart script.code) = [] ∨ isStatementStart (script.behind (lastTopLevelStatementStart script.code)) = true then
      script.code
    else script.code.take (lastTopLevelStatementStart script.code) ++ (text "return " ++ script.behind (lastTopLevelStatementStart script.code)) := by
  rw [Script.injected, injectLastExpressionReturn, trimmed]
  simp only [if_neg (code_solid script), trim_behind]
  generalize script.behind (lastTopLevelStatementStart script.code) = behind
  by_cases empty : behind = []
  · rw [if_pos empty, if_pos (.inl empty)]
  · rw [if_neg empty]
    by_cases awaits : startsWithWord (text "await") behind = true
    · have plain := statement_await awaits
      rw [if_pos (by rw [awaits, Bool.or_true]), if_pos awaits, if_neg (by simp [empty, plain])]
    · rw [Bool.not_eq_true] at awaits
      rw [awaits, Bool.or_false, if_neg Bool.false_ne_true]
      by_cases returns : startsWithWord (text "return") behind = true
      · have listed : isStatementStart behind = true := List.any_eq_true.mpr ⟨text "return", by decide, returns⟩
        rw [if_pos returns, if_pos (.inr listed)]
      · rw [if_neg returns]
        by_cases listed : isStatementStart behind = true
        · rw [if_pos listed, if_pos (.inr listed)]
        · rw [if_neg listed, if_neg (by simp [empty, listed])]

end Outcome

section Exact

variable {script : Script} {parts : List ScriptPart} {place : Nat} {kept blanks : Text}

theorem Script.Reads.boundary (reads : script.Reads parts) : LastBoundary parts place ↔ lastTopLevelStatementStart script.code = place := by
  rw [← reads.2]
  exact last_statement_start reads.1 place

theorem code_split (script : Script) (place : Nat) :
    ∃ gap, gap.all isSpace = true ∧ script.code = script.code.take place ++ (gap ++ script.behind place) := by
  refine ⟨(script.code.drop place).takeWhile isSpace, List.all_takeWhile, ?_⟩
  have rest : (script.code.drop place).takeWhile isSpace ++ script.behind place = script.code.drop place := List.takeWhile_append_dropWhile
  rw [rest, List.take_append_drop]

theorem blanks_other (blank : blanks.all isSpace = true) (x : Text) : blanks ++ x ≠ text "return " ++ x := by
  intro same
  rw [List.append_cancel_right same] at blank
  cases blank

theorem unchanged_iff (reads : script.Reads parts) :
    script.Unchanged ↔ ∃ place, LastBoundary parts place ∧ (script.behind place = [] ∨ isStatementStart (script.behind place) = true) := by
  have outcome := injected_eq script
  constructor
  · intro same
    refine ⟨_, reads.boundary.mpr rfl, ?_⟩
    by_cases left : script.behind (lastTopLevelStatementStart script.code) = [] ∨
        isStatementStart (script.behind (lastTopLevelStatementStart script.code)) = true
    · exact left
    · obtain ⟨gap, blank, split⟩ := code_split script (lastTopLevelStatementStart script.code)
      rw [if_neg left] at outcome
      rw [Script.Unchanged, outcome] at same
      exact absurd (List.append_cancel_left (same.trans split)).symm (blanks_other blank _)
  · rintro ⟨place, last, left⟩
    rw [← reads.boundary.mp last] at left
    rw [if_pos left] at outcome
    exact outcome

theorem behind_last (split : script.front = kept ++ blanks) (blank : blanks.all isSpace = true) : script.behind kept.length = script.last := by
  obtain ⟨c, rest, shape, solid⟩ := last_shape script
  rw [Script.behind, Script.code, split, List.append_assoc, List.drop_left, trimStart, List.dropWhile_append_of_pos (List.all_eq_true.mp blank), shape]
  exact trimStart_cons solid rest

theorem returned_at (reads : script.Reads parts) (split : script.front = kept ++ blanks) (blank : blanks.all isSpace = true)
    (expression : ¬text "return " <+: script.last) :
    script.injected = kept ++ (text "return " ++ script.last) ↔ LastBoundary parts kept.length ∧ isStatementStart script.last = false := by
  have outcome := injected_eq script
  have whole : script.code = kept ++ (blanks ++ script.last) := by rw [Script.code, split, List.append_assoc]
  constructor
  · intro given
    have changed : ¬(script.behind (lastTopLevelStatementStart script.code) = [] ∨
        isStatementStart (script.behind (lastTopLevelStatementStart script.code)) = true) := by
      intro left
      rw [if_pos left, given, whole] at outcome
      exact blanks_other blank _ (List.append_cancel_left outcome).symm
    rw [if_neg changed, given] at outcome
    rw [not_or, Bool.not_eq_true] at changed
    obtain ⟨gap, spaces, parted⟩ := code_split script (lastTopLevelStatementStart script.code)
    have plain : ¬text "return " <+: script.behind (lastTopLevelStatementStart script.code) := by
      intro returns
      rw [statement_return returns] at changed
      cases changed.2
    have place : script.code.take (lastTopLevelStatementStart script.code) = kept :=
      insertion_place (parted.symm.trans whole) outcome.symm spaces blank plain expression
    rw [place] at outcome
    have same : script.last = script.behind (lastTopLevelStatementStart script.code) := List.append_cancel_left (List.append_cancel_left outcome)
    have inside : lastTopLevelStatementStart script.code < script.code.length := by
      by_contra outside
      have gone : script.code.drop (lastTopLevelStatementStart script.code) = [] := List.drop_eq_nil_of_le (by omega)
      exact changed.1 (by rw [Script.behind, gone]; rfl)
    have count : lastTopLevelStatementStart script.code = kept.length := by
      rw [← place, List.length_take]
      omega
    exact ⟨reads.boundary.mpr count, by rw [same]; exact changed.2⟩
  · rintro ⟨last, plain⟩
    obtain ⟨c, rest, shape, _⟩ := last_shape script
    have some_text : script.last ≠ [] := by
      rw [shape]
      exact List.cons_ne_nil c rest
    rw [reads.boundary.mp last, behind_last split blank, if_neg (by simp [some_text, plain]), whole, List.take_left] at outcome
    exact outcome

theorem returned_tight_iff (reads : script.Reads parts) (expression : ¬text "return " <+: script.last) :
    script.ReturnedTight ↔ script.BoundaryBefore parts ∧ isStatementStart script.last = false := by
  constructor
  · rintro ⟨kept, blanks, split, blank, given⟩
    obtain ⟨last, plain⟩ := (returned_at reads split blank expression).mp given
    exact ⟨⟨kept, blanks, split, blank, last⟩, plain⟩
  · rintro ⟨⟨kept, blanks, split, blank, last⟩, plain⟩
    exact ⟨kept, blanks, split, blank, (returned_at reads split blank expression).mpr ⟨last, plain⟩⟩

-- For every script and every place in it: an expression from there is returned, or else the script kept, when the loop's last boundary allows it.
theorem last_expression_returned (script : Script) : (∃ parts, script.Reads parts) ∧ ∀ parts, script.Reads parts →
    (¬text "return " <+: script.last →
      (script.Returned ↔ LastBoundary parts script.front.length ∧ isStatementStart script.last = false) ∧
      (script.ReturnedTight ↔ script.BoundaryBefore parts ∧ isStatementStart script.last = false)) ∧
    (script.Unchanged ↔ ∃ place, LastBoundary parts place ∧ (script.behind place = [] ∨ isStatementStart (script.behind place) = true)) := by
  refine ⟨parts_of_text script.code, fun parts reads => ⟨fun expression => ⟨?_, returned_tight_iff reads expression⟩, unchanged_iff reads⟩⟩
  exact returned_at reads (List.append_nil _).symm rfl expression

def sumScript : Script := ⟨text "const a = 1\n", text "a + 1 // sum", text "\n", rfl, rfl, rfl⟩

def sumParts : List ScriptPart :=
  [.word 'c' (text "onst") rfl rfl, .blank false, .word 'a' [] rfl rfl, .blank false, .sign '=' rfl, .blank false, .word '1' [] rfl rfl,
    .lineBreak .lf, .word 'a' [] rfl rfl, .blank false, .sign '+' rfl, .blank false, .word '1' [] rfl rfl, .blank false, .openComment (text " sum") rfl]

theorem sum_returned : sumScript.Returned ∧ sumScript.ReturnedTight := by
  have reads : sumScript.Reads sumParts := ⟨by decide +kernel, by decide +kernel⟩
  have last : LastBoundary sumParts sumScript.front.length := ⟨by decide +kernel, by decide +kernel⟩
  have plain : isStatementStart sumScript.last = false := by decide +kernel
  obtain ⟨returned, tight⟩ := ((last_expression_returned sumScript).2 sumParts reads).1 (by decide)
  exact ⟨returned.mpr ⟨last, plain⟩, tight.mpr ⟨⟨sumScript.front, [], (List.append_nil _).symm, rfl, last⟩, plain⟩⟩

-- The break that ends a comment starts no statement, and a sum that goes on in the next line is cut.
theorem break_misread :
    injectLastExpressionReturn (text "foo() // c\nbar()") = text "return foo() // c\nbar()" ∧
      injectLastExpressionReturn (text "foo() // c\nbar()") ≠ text "foo() // c\nreturn bar()" ∧
      injectLastExpressionReturn (text "a\n+ b") = text "a\nreturn + b" ∧ injectLastExpressionReturn (text "a\n+ b") ≠ text "return a\n+ b" := by
  decide +kernel

end Exact
end PrAgent.ReturnInjection
