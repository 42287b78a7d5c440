import PrAgent.CiMarkerText
set_option autoImplicit false

namespace PrAgent

section Search

variable {marker other : CiMarker} {body content s t tag u w x y z : Text}

def HasEnd (marker : CiMarker) (t : Text) : Prop :=
  ∃ before tag after, t = before ++ (tag ++ after) ∧ (endMarker marker).Matches tag

-- A marker opens in the text, which goes on with `y` after the tag.
def OpensIn (marker : CiMarker) (t y : Text) : Prop := ∃ x tag, t = x ++ (tag ++ y) ∧ (startMarker marker).Matches tag

def NoOpen (marker : CiMarker) (t : Text) : Prop := ∀ y, ¬OpensIn marker t y

-- Every marker that opens in the text is closed there.
def ClosedIn (marker : CiMarker) (t : Text) : Prop := ∀ y, OpensIn marker t y → HasEnd marker y

theorem HasEnd.append (ends : HasEnd marker t) (z : Text) : HasEnd marker (t ++ z) := by
  obtain ⟨before, tag, after, rfl, matched⟩ := ends
  exact ⟨before, tag, after ++ z, by simp, matched⟩

theorem HasEnd.prepend (ends : HasEnd marker t) (x : Text) : HasEnd marker (x ++ t) := by
  obtain ⟨before, tag, after, rfl, matched⟩ := ends
  exact ⟨x ++ before, tag, after, by simp, matched⟩

theorem OpensIn.append (opens : OpensIn marker t y) (z : Text) : OpensIn marker (t ++ z) (y ++ z) := by
  obtain ⟨x, tag, rfl, matched⟩ := opens
  exact ⟨x, tag, by simp, matched⟩

theorem OpensIn.prepend (opens : OpensIn marker t y) (x : Text) : OpensIn marker (x ++ t) y := by
  obtain ⟨x', tag, rfl, matched⟩ := opens
  exact ⟨x ++ x', tag, by simp, matched⟩

theorem NoOpen.left (none : NoOpen marker (t ++ s)) : NoOpen marker t := fun _ opens => none _ (opens.append s)

theorem NoOpen.right (none : NoOpen marker (t ++ s)) : NoOpen marker s := fun _ opens => none _ (opens.prepend t)

theorem noOpen_of_noAngle (absent : '<' ∉ t) : NoOpen marker t := by
  rintro y ⟨x, tag, rfl, matched⟩
  obtain ⟨rest, rfl⟩ := (startMarker_comment matched).opens
  rw [opensComment_eq] at absent
  exact absent (by simp)

-- Where a marker opens in a text and a rendered comment after it.
theorem opensIn_edge (edge : Edge w) (opens : OpensIn marker (u ++ w) y) :
    (∃ u', OpensIn marker u u' ∧ y = u' ++ w) ∨ OpensIn marker w y := by
  obtain ⟨x, tag, split, matched⟩ := opens
  rcases List.append_eq_append_iff.mp split with ⟨x', rfl, rest⟩ | ⟨u', rfl, rest⟩
  · exact .inr ⟨x', tag, rest, matched⟩
  · by_cases empty : u' = []
    · subst empty
      exact .inr ⟨[], tag, by simpa using rest.symm, matched⟩
    · obtain ⟨u'', rfl, after⟩ := startMarker_within matched rest empty edge
      exact .inl ⟨u'', ⟨x, tag, rfl, matched⟩, after⟩

theorem noOpen_append (edge : Edge w) (none : NoOpen marker u) (none' : NoOpen marker w) : NoOpen marker (u ++ w) := by
  intro y opens
  rcases opensIn_edge edge opens with ⟨u', opens, _⟩ | opens
  · exact none u' opens
  · exact none' y opens

variable {found : MarkerMatch}

theorem markerAt_eq_some (here : markerAt marker body = some found) :
    ∃ tag content, (startMarker marker).Matches tag ∧ body = tag ++ content ∧
      (endMarker marker).untilFirst content = some found.after := by
  obtain ⟨afterName, named, here⟩ := List.exists_of_findSome?_eq_some here
  obtain ⟨afterAttributes, listed, here⟩ := List.exists_of_findSome?_eq_some here
  obtain ⟨content, closed, here⟩ := List.exists_of_findSome?_eq_some here
  obtain ⟨after, ends, rfl⟩ := Option.map_eq_some_iff.mp here
  obtain ⟨a, first, rfl⟩ := (Pattern.mem_results _ _ _).mp named
  obtain ⟨b, second, rfl⟩ := (Pattern.mem_results _ _ _).mp listed
  obtain ⟨c, third, rfl⟩ := (Pattern.mem_results _ _ _).mp closed
  exact ⟨a ++ (b ++ c), content, ⟨a, b ++ c, rfl, first, b, c, rfl, second, third⟩, by simp, ends⟩

theorem markerAt_ne_none (matched : (startMarker marker).Matches tag) (ends : HasEnd marker content) :
    markerAt marker (tag ++ content) ≠ none := by
  intro fails
  obtain ⟨a, _, rfl, first, b, c, rfl, second, third⟩ := matched
  have named := (Pattern.mem_results (openMarker marker) (a ++ (b ++ c) ++ content) (b ++ (c ++ content))).mpr
    ⟨a, first, by simp⟩
  have listed := (Pattern.mem_results (.many attributePattern) (b ++ (c ++ content)) (c ++ content)).mpr ⟨b, second, rfl⟩
  have closed := (Pattern.mem_results closeTag (c ++ content) content).mpr ⟨c, third, rfl⟩
  have none := List.findSome?_eq_none_iff.mp (List.findSome?_eq_none_iff.mp (List.findSome?_eq_none_iff.mp fails _ named)
    _ listed) _ closed
  obtain ⟨before, e, after, rfl, matched⟩ := ends
  obtain ⟨left, found⟩ : ∃ left, (endMarker marker).untilFirst (before ++ (e ++ after)) = some left :=
    Pattern.untilFirst_isSome matched
  rw [found] at none
  cases none

theorem exec_eq_some {found : BodyMatch} (here : exec marker body = some found) :
    ∃ rest, body = found.before ++ rest ∧ markerAt marker rest = some ⟨found.attributes, found.after⟩ ∧
      FailsBefore (markerAt marker) found.before rest ∧
      found.matched = rest.take (rest.length - found.after.length) := by
  obtain ⟨⟨before, here'⟩, first, rfl⟩ := Option.map_eq_some_iff.mp here
  obtain ⟨rest, rfl, at_rest, fails⟩ := leftmost_eq_some_iff.mp first
  refine ⟨rest, rfl, at_rest, fails, ?_⟩
  simp

theorem exec_of_leftmost (here : markerAt marker w = some found) (fails : FailsBefore (markerAt marker) u w) :
    exec marker (u ++ w) =
      some { before := u, matched := w.take (w.length - found.after.length), attributes := found.attributes, after := found.after } := by
  rw [exec, leftmost_eq_some_iff.mpr ⟨w, rfl, here, fails⟩]
  simp

theorem exec_eq_none (fails : exec marker body = none) : ∀ y, OpensIn marker body y → ¬HasEnd marker y := by
  rintro y ⟨x, tag, rfl, matched⟩ ends
  exact markerAt_ne_none matched ends (leftmost_eq_none_iff.mp (Option.map_eq_none_iff.mp fails) x _ rfl)

-- Nothing opens before the first match, for its end would close it.
theorem exec_noOpen {found : BodyMatch} (here : exec marker body = some found) : NoOpen marker found.before := by
  obtain ⟨rest, _, at_rest, fails, _⟩ := exec_eq_some here
  rintro y ⟨x, tag, split, matched⟩
  obtain ⟨tag', content, _, rfl, ends⟩ := markerAt_eq_some at_rest
  obtain ⟨before, e, ended, rfl, _⟩ := Pattern.untilFirst_eq_some ends
  refine @markerAt_ne_none marker (y ++ (tag' ++ (before ++ (e ++ found.after)))) tag matched ?_ ?_
  · exact HasEnd.prepend (HasEnd.prepend ⟨before, e, found.after, rfl, ended⟩ tag') y
  · have nonempty : tag ++ y ≠ [] := by
      intro empty
      exact (startMarker_comment matched).ne_nil (List.append_eq_nil_iff.mp empty).1
    simpa using fails x (tag ++ y) split nonempty

-- Nothing opens before a rendered marker: it is the first match.
theorem exec_of_noOpen (none : NoOpen marker u) (edge : Edge w) (here : markerAt marker w = some found) :
    exec marker (u ++ w) =
      some { before := u, matched := w.take (w.length - found.after.length), attributes := found.attributes, after := found.after } := by
  refine exec_of_leftmost here ?_
  intro x u' split nonempty
  cases result : markerAt marker (u' ++ w) with
  | none => rfl
  | some first =>
    obtain ⟨tag, content, matched, around, _⟩ := markerAt_eq_some result
    obtain ⟨y, rfl, _⟩ := startMarker_within matched around.symm nonempty edge
    exact absurd ⟨x, tag, split, matched⟩ (none y)

-- A whole marker, from its start tag to its end tag.
def IsMarker (marker : CiMarker) (t : Text) : Prop :=
  ∃ tag inner e, t = tag ++ (inner ++ e) ∧ (startMarker marker).Matches tag ∧ (endMarker marker).Matches e

theorem markerAt_isMarker (here : markerAt marker body = some found) :
    ∃ old, IsMarker marker old ∧ body = old ++ found.after := by
  obtain ⟨tag, content, matched, rfl, ends⟩ := markerAt_eq_some here
  obtain ⟨inner, e, ended, rfl, _⟩ := Pattern.untilFirst_eq_some ends
  exact ⟨tag ++ (inner ++ e), ⟨tag, inner, e, rfl, matched, ended⟩, by simp⟩

-- A match that starts before a rendered comment in a text whose markers are closed ends before it.
theorem exec_within {found : BodyMatch} (edge : Edge w) (closed : ClosedIn marker u) (here : exec marker (u ++ w) = some found) :
    (∃ old c, IsMarker marker old ∧ u = found.before ++ (old ++ c) ∧ found.after = c ++ w) ∨
      ∃ before rest, found.before = u ++ before ∧ w = before ++ rest ∧ markerAt marker rest = some ⟨found.attributes, found.after⟩ := by
  obtain ⟨rest, split, at_rest, _, _⟩ := exec_eq_some here
  rcases List.append_eq_append_iff.mp split with ⟨before, same, around⟩ | ⟨u', rfl, around⟩
  · exact .inr ⟨before, rest, same, around, at_rest⟩
  · by_cases empty : u' = []
    · subst empty
      exact .inr ⟨[], rest, by simp, by simpa using around.symm, at_rest⟩
    · left
      obtain ⟨tag, content, matched, rfl, ends⟩ := markerAt_eq_some at_rest
      obtain ⟨y, rfl, rfl⟩ := startMarker_within matched around empty edge
      obtain ⟨b', e', c', rfl, ended'⟩ := closed y ⟨found.before, tag, rfl, matched⟩
      obtain ⟨b, e, ended, again, first⟩ := Pattern.untilFirst_eq_some ends
      obtain ⟨bracket, rfl⟩ := edge.angle
      -- the first end is not behind the one that closes the marker in the text
      have inside : ∃ y, b' ++ (e' ++ c') = b ++ y ∧ y ≠ [] ∧ e ++ found.after = y ++ '<' :: bracket := by
        have around : b' ++ (e' ++ (c' ++ '<' :: bracket)) = b ++ (e ++ found.after) := by
          rw [← again]
          simp
        rcases List.append_eq_append_iff.mp around with ⟨z, rfl, rest⟩ | ⟨z, rfl, rest⟩
        · by_cases empty : z = []
          · subst empty
            refine ⟨e' ++ c', by simp, ?_, by simpa using rest.symm⟩
            intro none
            exact (endMarker_comment ended').ne_nil (List.append_eq_nil_iff.mp none).1
          · have fails := first b' z rfl empty
            rw [← rest] at fails
            exact absurd rfl (Pattern.results_eq_nil_iff.mp fails e' (c' ++ '<' :: bracket) ended')
        · refine ⟨z ++ (e' ++ c'), by simp, ?_, by rw [rest]; simp⟩
          intro none
          exact (endMarker_comment ended').ne_nil (List.append_eq_nil_iff.mp (List.append_eq_nil_iff.mp none).2).1
      obtain ⟨y, same, nonempty, rest⟩ := inside
      obtain ⟨c, rfl, after⟩ := endMarker_within ended rest nonempty
      exact ⟨tag ++ (b ++ e), c, ⟨tag, b, e, rfl, matched, ended⟩, by rw [same]; simp, after⟩

end Search

section Rendered

def openingTag (marker : CiMarker) (attributes : Text) : Text :=
  text "<!-- " ++ (marker.name ++ (attributes ++ text " -->"))

def closingTag (marker : CiMarker) : Text := text "<!-- /" ++ (marker.name ++ text " -->")

def rendered (marker : CiMarker) (attributes content : Text) : Text :=
  openingTag marker attributes ++ (content ++ closingTag marker)

def renderAttrs (attrs : List (Text × Text)) : Text := attrs.flatMap fun attr => ' ' :: (attr.1 ++ '=' :: attr.2)

structure ValidAttr (attr : Text × Text) : Prop where
  word : attr.1 ≠ []
  words : ∀ c ∈ attr.1, isWord c = true
  value : attr.2 ≠ []
  solid : ∀ c ∈ attr.2, isSpace c = false

end Rendered

section Attributes

variable {attrs : List (Text × Text)} {s t : Text}

theorem word_solid {c : Char} (word : isWord c = true) : isSpace c = false := by
  have range : (48 ≤ c.toNat ∧ c.toNat ≤ 57) ∨ (65 ≤ c.toNat ∧ c.toNat ≤ 90) ∨ (97 ≤ c.toNat ∧ c.toNat ≤ 122) ∨ c.toNat = 95 := by
    have alphanum : isWord c = (((decide (c.val ≥ 65 ∧ c.val ≤ 90) || (decide (c.val ≥ 97) && decide (c.val ≤ 122))) ||
        (decide (c.val ≥ 48) && decide (c.val ≤ 57))) || decide (c = '_')) := rfl
    simp only [alphanum, Bool.or_eq_true, Bool.and_eq_true, decide_eq_true_eq] at word
    rcases word with ((⟨low, high⟩ | ⟨low, high⟩) | ⟨low, high⟩) | rfl
    · exact .inr (.inl ⟨low, high⟩)
    · exact .inr (.inr (.inl ⟨low, high⟩))
    · exact .inl ⟨low, high⟩
    · exact .inr (.inr (.inr rfl))
  simp only [isSpace, List.contains_eq_mem, List.mem_cons, List.not_mem_nil, or_false, Bool.or_eq_false_iff, decide_eq_false_iff_not,
    Bool.and_eq_false_iff]
  omega

theorem head_class {holds : Char → Bool} {c d : Char} {rest : Text} (here : (d :: rest).head? = some c) (not : holds d = false) :
    holds c = false := by
  cases here
  exact not

theorem attribute_first {attr : Text × Text} (valid : ValidAttr attr) :
    attributePattern.First (' ' :: (attr.1 ++ '=' :: attr.2) ++ ' ' :: s) (' ' :: s) := by
  obtain ⟨word, value⟩ := attr
  obtain ⟨c, word', rfl⟩ := List.exists_cons_of_ne_nil valid.word
  have blank : (Pattern.some1 (.one isSpace)).First ([' '] ++ (c :: word' ++ '=' :: (value ++ ' ' :: s)))
      (c :: word' ++ '=' :: (value ++ ' ' :: s)) := by
    refine Pattern.First.class1 [' '] (by simp) (List.all_eq_true.mp (by decide)) fun d here => ?_
    exact head_class here (word_solid (valid.words c List.mem_cons_self))
  have name : (Pattern.some1 (.one isWord)).First (c :: word' ++ '=' :: (value ++ ' ' :: s)) ('=' :: (value ++ ' ' :: s)) :=
    Pattern.First.class1 (c :: word') (by simp) valid.words fun d here => head_class here (by decide)
  have equals : (Pattern.literal (text "=")).First ('=' :: (value ++ ' ' :: s)) (value ++ ' ' :: s) :=
    Pattern.First.literal (text "=")
  have given : (Pattern.some1 (.one fun c => !isSpace c)).First (value ++ ' ' :: s) (' ' :: s) := by
    refine Pattern.First.class1 value valid.value (fun d listed => by simp [valid.solid d listed]) fun d here => ?_
    obtain rfl : ' ' = d := Option.some.inj here
    decide
  have whole := blank.seq (name.seq (equals.seq given))
  have same : ' ' :: ((c :: word') ++ '=' :: value) ++ ' ' :: s = [' '] ++ (c :: word' ++ '=' :: (value ++ ' ' :: s)) := by simp
  rw [same]
  exact whole

theorem attributes_stop : attributePattern.results (text " -->" ++ s) = [] := by
  refine Pattern.results_eq_nil_iff.mpr ?_
  intro a r matched split
  obtain ⟨gap, word, value, rfl, ⟨nonempty, spaced⟩, ⟨named, words⟩, _⟩ := attribute_split matched
  have blank : text " -->" = ' ' :: '-' :: text "->" := by decide
  rw [blank] at split
  obtain ⟨gap, rfl, afterBlank⟩ := cons_of_head (y := word ++ '=' :: (value ++ r)) nonempty (by simpa using split.symm)
  obtain rfl : gap = [] :=
    nil_of_head (fun d listed => spaced d (List.mem_cons_of_mem _ listed)) (by decide) afterBlank
  obtain ⟨word, rfl, _⟩ := cons_of_head named afterBlank
  exact absurd (words '-' List.mem_cons_self) (by decide)

theorem attributes_first (valid : ∀ attr ∈ attrs, ValidAttr attr) :
    (Pattern.many attributePattern).First (renderAttrs attrs ++ (text " -->" ++ s)) (text " -->" ++ s) := by
  induction attrs with
  | nil => exact Pattern.First.stop attributes_stop
  | cons attr attrs ih =>
    have later := ih fun other listed => valid other (List.mem_cons_of_mem _ listed)
    obtain ⟨rest, blank⟩ : ∃ rest, renderAttrs attrs ++ (text " -->" ++ s) = ' ' :: rest := by
      cases attrs with
      | nil => exact ⟨_, rfl⟩
      | cons next attrs => exact ⟨_, rfl⟩
    have here : attributePattern.First (renderAttrs (attr :: attrs) ++ (text " -->" ++ s))
        (renderAttrs attrs ++ (text " -->" ++ s)) := by
      have first := attribute_first (s := rest) (valid attr List.mem_cons_self)
      rw [← blank] at first
      simpa [renderAttrs] using first
    refine here.more ?_ later
    simp only [renderAttrs, List.flatMap_cons, List.cons_append, List.append_assoc, List.length_cons, List.length_append]
    omega

theorem words_cons {part : Text} (nonempty : part ≠ []) (solid : ∀ c ∈ part, isSpace c = false) (rest : Text) :
    words (part ++ ' ' :: rest) = part :: words rest := by
  unfold words
  rw [List.splitOnP_append_cons_of_forall_mem solid ' ' (by decide), List.filter_cons_of_pos (by simpa using nonempty)]

theorem words_blank (rest : Text) : words (' ' :: rest) = words rest := by
  unfold words
  have split : (' ' :: rest).splitOnP isSpace = [] :: rest.splitOnP isSpace := by
    rw [List.splitOnP_cons_eq_if_modifyHead, if_pos (by decide)]
  rw [split, List.filter_cons_of_neg (by simp)]

theorem words_last {part : Text} (nonempty : part ≠ []) (solid : ∀ c ∈ part, isSpace c = false) : words part = [part] := by
  unfold words
  rw [List.splitOnP_eq_singleton solid, List.filter_cons_of_pos (by simpa using nonempty), List.filter_nil]

theorem attrPart_solid {attr : Text × Text} (valid : ValidAttr attr) : ∀ c ∈ attr.1 ++ '=' :: attr.2, isSpace c = false := by
  intro c listed
  rcases List.mem_append.mp listed with word | rest
  · exact word_solid (valid.words c word)
  · rcases List.mem_cons.mp rest with rfl | value
    · decide
    · exact valid.solid c value

theorem words_renderAttrs (valid : ∀ attr ∈ attrs, ValidAttr attr) :
    words (renderAttrs attrs) = attrs.map fun attr => attr.1 ++ '=' :: attr.2 := by
  induction attrs with
  | nil => rfl
  | cons attr attrs ih =>
    have here := valid attr List.mem_cons_self
    have later := ih fun other listed => valid other (List.mem_cons_of_mem _ listed)
    have split : renderAttrs (attr :: attrs) = ' ' :: ((attr.1 ++ '=' :: attr.2) ++ renderAttrs attrs) := by simp [renderAttrs]
    rw [split, words_blank]
    cases attrs with
    | nil =>
      have alone : renderAttrs [] = [] := rfl
      rw [alone, List.append_nil, words_last (by simp) (attrPart_solid here)]
      rfl
    | cons next attrs =>
      have blank : renderAttrs (next :: attrs) = ' ' :: ((next.1 ++ '=' :: next.2) ++ renderAttrs attrs) := by simp [renderAttrs]
      rw [blank, words_blank] at later
      rw [blank, words_cons (by simp) (attrPart_solid here), later]
      rfl

-- What is rendered is read back.
theorem attrsFromMatch_renderAttrs (valid : ∀ attr ∈ attrs, ValidAttr attr) : attrsFromMatch (renderAttrs attrs) = attrs := by
  unfold attrsFromMatch
  rw [words_renderAttrs valid]
  induction attrs with
  | nil => rfl
  | cons attr attrs ih =>
    obtain ⟨word, value⟩ := attr
    have here := valid (word, value) List.mem_cons_self
    have absent : '=' ∉ word := absent_of_class here.words (by decide)
    have position : (word ++ '=' :: value).idxOf '=' = word.length := by
      rw [List.idxOf_append_of_notMem absent, List.idxOf_cons_self, Nat.add_zero]
    have positive : 0 < word.length := List.length_pos_iff.mpr here.word
    have after : (word ++ '=' :: value).drop (word.length + 1) = value := by simp
    simp only [List.map_cons]
    rw [List.filterMap_cons_some (b := (word, value)), ih fun other listed => valid other (List.mem_cons_of_mem _ listed)]
    simp only [position, after]
    simp [positive]

end Attributes

section Found

variable {marker other : CiMarker} {attrs : List (Text × Text)} {attributes content s x y z : Text}

theorem edge_opening (marker : CiMarker) (attributes : Text) : Edge (openingTag marker attributes) := by
  obtain ⟨rest, name⟩ : ∃ rest, marker.name = text "pr-" ++ rest := by
    cases marker
    · exact ⟨text "agent:ci-summary", by decide⟩
    · exact ⟨text "agent:ci-action", by decide⟩
  refine .inl ⟨rest ++ (attributes ++ text " -->"), ?_⟩
  have start : text "<!-- pr-" = text "<!-- " ++ text "pr-" := by decide
  rw [openingTag, name, start]
  simp

theorem edge_closing (marker : CiMarker) : Edge (closingTag marker) := .inr ⟨_, rfl⟩

theorem edge_rendered (marker : CiMarker) (attributes content z : Text) : Edge (rendered marker attributes content ++ z) := by
  rw [rendered, List.append_assoc]
  exact (edge_opening marker attributes).append _

-- No end tag starts in the content, with what follows it.
def NoEndIn (marker : CiMarker) (content z : Text) : Prop :=
  ∀ x y, content = x ++ y → y ≠ [] → (endMarker marker).results (y ++ z) = []

theorem noEndIn_of_noComment (none : NoComment content) (z : Text) : NoEndIn marker content ('<' :: z) := by
  intro x y split nonempty
  refine Pattern.results_eq_nil_iff.mpr ?_
  intro tag r matched around
  obtain ⟨rest, rfl⟩ := (endMarker_comment matched).opens
  exact noComment_cross (w := z) (s := rest ++ r) none split nonempty (by rw [around, List.append_assoc])

theorem spaces_first {r : Text} (solid : ∀ c, r.head? = some c → isSpace c = false) : spaces.First (' ' :: r) r :=
  Pattern.First.class [' '] (List.all_eq_true.mp (by decide)) solid

theorem name_solid (marker : CiMarker) (r : Text) : ∀ c, (marker.name ++ r).head? = some c → isSpace c = false := by
  obtain ⟨name, start⟩ := name_cons marker
  rw [start]
  intro c here
  exact head_class here (by decide)

theorem closeTag_first (s : Text) : closeTag.First (text " -->" ++ s) s := by
  have blank : spaces.First (' ' :: (text "-->" ++ s)) (text "-->" ++ s) :=
    spaces_first fun c here => head_class here (by decide)
  have whole := blank.seq (Pattern.First.literal (r := s) (text "-->"))
  exact whole

theorem openMarker_first (marker : CiMarker) (s : Text) : (openMarker marker).First (text "<!-- " ++ (marker.name ++ s)) s := by
  have comment : (Pattern.literal (text "<!--")).First (text "<!--" ++ (' ' :: (marker.name ++ s))) (' ' :: (marker.name ++ s)) :=
    Pattern.First.literal _
  have whole := comment.seq ((spaces_first (name_solid marker s)).seq (Pattern.First.literal (r := s) marker.name))
  exact whole

theorem endMarker_first (marker : CiMarker) (s : Text) : (endMarker marker).First (closingTag marker ++ s) s := by
  have comment : (Pattern.literal (text "<!--")).First (text "<!--" ++ (' ' :: '/' :: (marker.name ++ (text " -->" ++ s))))
      (' ' :: '/' :: (marker.name ++ (text " -->" ++ s))) := Pattern.First.literal _
  have blank : spaces.First (' ' :: '/' :: (marker.name ++ (text " -->" ++ s))) ('/' :: (marker.name ++ (text " -->" ++ s))) :=
    spaces_first fun c here => head_class here (by decide)
  have label : (Pattern.literal ('/' :: marker.name)).First ('/' :: marker.name ++ (text " -->" ++ s)) (text " -->" ++ s) :=
    Pattern.First.literal _
  have whole := comment.seq (blank.seq (label.seq (closeTag_first s)))
  have same : closingTag marker ++ s = text "<!--" ++ (' ' :: '/' :: (marker.name ++ (text " -->" ++ s))) := by
    rw [closingTag, List.append_assoc, List.append_assoc]
    rfl
  rw [same]
  exact whole

theorem findSome?_of_head {α β : Type} {f : α → Option β} {found : β} {list : List α} {first : α} (head : list.head? = some first)
    (here : f first = some found) : list.findSome? f = some found := by
  obtain ⟨rest, rfl⟩ := List.head?_eq_some_iff.mp head
  rw [List.findSome?_cons, here]

-- A rendered marker is found as it was rendered.
theorem markerAt_rendered (valid : ∀ attr ∈ attrs, ValidAttr attr) (unended : NoEndIn marker content (closingTag marker ++ z)) :
    markerAt marker (rendered marker (renderAttrs attrs) content ++ z) = some ⟨renderAttrs attrs, z⟩ := by
  have split : rendered marker (renderAttrs attrs) content ++ z = text "<!-- " ++ (marker.name ++ (renderAttrs attrs ++
      (text " -->" ++ (content ++ (closingTag marker ++ z))))) := by
    simp [rendered, openingTag]
  rw [split]
  refine findSome?_of_head (openMarker_first marker _) ?_
  refine findSome?_of_head (attributes_first valid) ?_
  refine findSome?_of_head (closeTag_first _) ?_
  rw [Pattern.untilFirst_of_first (endMarker_first marker z) unended]
  simp

theorem exec_rendered {u : Text} (none : NoOpen marker u) (valid : ∀ attr ∈ attrs, ValidAttr attr)
    (unended : NoEndIn marker content (closingTag marker ++ z)) :
    exec marker (u ++ (rendered marker (renderAttrs attrs) content ++ z)) =
      some { before := u, matched := rendered marker (renderAttrs attrs) content, attributes := renderAttrs attrs, after := z } := by
  rw [exec_of_noOpen none (edge_rendered _ _ _ _) (markerAt_rendered valid unended)]
  simp

-- The comments of a rendered marker are its two tags.
theorem comment_in_rendered (none : NoComment (attributes ++ (text " -->" ++ content)))
    (split : rendered marker attributes content ++ z = x ++ (text "<!--" ++ s)) :
    x = [] ∨ x = openingTag marker attributes ++ content ∨
      ∃ x', x = rendered marker attributes content ++ x' ∧ z = x' ++ (text "<!--" ++ s) := by
  cases x with
  | nil => exact .inl rfl
  | cons c x =>
    right
    have opening : openingTag marker attributes ++ content = '<' :: (text "!-- " ++ (marker.name ++ (attributes ++ (text " -->" ++ content)))) := by
      have bracket : text "<!-- " = '<' :: text "!-- " := by decide
      simp [openingTag, bracket]
    have closing : closingTag marker = '<' :: (text "!-- /" ++ (marker.name ++ text " -->")) := rfl
    have inner : NoComment (text "!-- " ++ (marker.name ++ (attributes ++ (text " -->" ++ content)))) :=
      noComment_append_left (by decide) (noComment_append_left (name_noAngle marker) none)
    have whole : rendered marker attributes content = (openingTag marker attributes ++ content) ++ closingTag marker := by
      simp [rendered]
    rw [whole, opening] at split ⊢
    generalize text "!-- " ++ (marker.name ++ (attributes ++ (text " -->" ++ content))) = first at *
    obtain ⟨rfl, after⟩ := List.cons.inj split
    rw [closing] at after
    have after : first ++ ('<' :: (text "!-- /" ++ (marker.name ++ text " -->") ++ z)) = x ++ (text "<!--" ++ s) := by
      simpa using after
    rcases List.append_eq_append_iff.mp after with ⟨x', rfl, rest⟩ | ⟨y, rfl, rest⟩
    · cases x' with
      | nil => exact .inl (by simp)
      | cons d x' =>
        obtain ⟨rfl, inside⟩ := List.cons.inj rest
        have absent : '<' ∉ text "!-- /" ++ (marker.name ++ text " -->") := by
          simp only [List.mem_append, not_or]
          exact ⟨by decide, name_noAngle marker, by decide⟩
        rw [opensComment_eq] at inside
        obtain ⟨x'', rfl, beyond⟩ := split_past absent inside
        exact .inr ⟨x'', by simp [closing], by rw [beyond, opensComment_eq]; rfl⟩
    · by_cases empty : y = []
      · subst empty
        exact .inl (by simp)
      · exact absurd rest.symm (noComment_cross inner rfl empty)

theorem rendered_opens {name : Text} (named : other.name = 'p' :: name) (z : Text) :
    rendered other attributes content ++ z =
      text "<!-- " ++ 'p' :: (name ++ (attributes ++ (text " -->" ++ (content ++ (closingTag other ++ z))))) := by
  simp [rendered, openingTag, named]

theorem rendered_closes {rest : Text} (split : rendered other attributes content ++ z = openingTag other attributes ++ content ++ rest) :
    rest = text "<!-- " ++ '/' :: (other.name ++ (text " -->" ++ z)) := by
  have bracket : text "<!-- /" = text "<!-- " ++ ['/'] := by decide
  have whole : rendered other attributes content ++ z = openingTag other attributes ++ content ++ (closingTag other ++ z) := by
    simp [rendered]
  rw [whole] at split
  rw [← List.append_cancel_left split, closingTag, bracket]
  simp

variable (ne : marker ≠ other)
include ne

variable (none : NoComment (attributes ++ (text " -->" ++ content)))
include none

-- Another marker opens behind a rendered one only.
theorem tag_past_rendered {tag : Text}
    (matched : (startMarker marker).Matches tag) (split : rendered other attributes content ++ z = x ++ (tag ++ y)) :
    ∃ x', x = rendered other attributes content ++ x' ∧ z = x' ++ (tag ++ y) := by
  have comment := startMarker_comment matched
  obtain ⟨rest, start⟩ := comment.opens
  obtain ⟨name, named⟩ := name_cons marker
  obtain ⟨name', named'⟩ := name_cons other
  rw [named] at comment
  have around := split
  rw [start, List.append_assoc] at around
  rcases comment_in_rendered none around with rfl | rfl | ⟨x', rfl, after⟩
  · have label := comment.labelled (by decide) (split.symm.trans (rendered_opens named' z)) (by decide)
    have whole : 'p' :: (name' ++ (attributes ++ (text " -->" ++ (content ++ (closingTag other ++ z))))) =
        other.name ++ (attributes ++ (text " -->" ++ (content ++ (closingTag other ++ z)))) := by rw [named']; rfl
    rw [← named, whole] at label
    exact absurd (name_starts label) ne
  · obtain ⟨more, label⟩ := comment.labelled (by decide) (rendered_closes split) (by decide)
    exact absurd (List.cons.inj label).1 (by decide)
  · exact ⟨x', rfl, by rw [after, start, List.append_assoc]⟩

-- So does the end of another one.
theorem end_past_rendered {tag : Text}
    (matched : (endMarker marker).Matches tag) (split : rendered other attributes content ++ z = x ++ (tag ++ y)) :
    ∃ x', x = rendered other attributes content ++ x' ∧ z = x' ++ (tag ++ y) := by
  have comment := endMarker_comment matched
  obtain ⟨rest, start⟩ := comment.opens
  obtain ⟨name', named'⟩ := name_cons other
  have around := split
  rw [start, List.append_assoc] at around
  rcases comment_in_rendered none around with rfl | rfl | ⟨x', rfl, after⟩
  · obtain ⟨more, label⟩ := comment.labelled (by decide) (split.symm.trans (rendered_opens named' z)) (by decide)
    exact absurd (List.cons.inj label).1 (by decide)
  · obtain ⟨more, label⟩ := comment.labelled (by decide) (rendered_closes split) (by decide)
    exact absurd (name_starts ⟨more, (List.cons.inj label).2⟩) ne
  · exact ⟨x', rfl, by rw [after, start, List.append_assoc]⟩

-- No end tag of one marker starts in a text with another marker rendered in it.
theorem noEndIn_rendered {l r : Text} (left : NoComment l) (right : NoComment r) (z : Text) :
    NoEndIn marker (l ++ (rendered other attributes content ++ r)) ('<' :: z) := by
  intro x y split nonempty
  refine Pattern.results_eq_nil_iff.mpr ?_
  intro tag rest matched around
  obtain ⟨opened, start⟩ := (endMarker_comment matched).opens
  have whole : l ++ (rendered other attributes content ++ (r ++ '<' :: z)) = x ++ (tag ++ rest) := by
    rw [← around, ← List.append_assoc x, ← split]
    simp
  obtain ⟨bracket, angle⟩ := (edge_rendered other attributes content (r ++ '<' :: z)).angle
  rcases List.append_eq_append_iff.mp whole with ⟨x', rfl, inside⟩ | ⟨l', rfl, inside⟩
  · obtain ⟨x', rfl, after⟩ := end_past_rendered ne none matched inside
    have same : r = x' ++ y := by simpa using split
    exact noComment_cross (w := z) (s := opened ++ rest) right same nonempty
      (by rw [around, start, List.append_assoc])
  · by_cases empty : l' = []
    · subst empty
      obtain ⟨x', same, _⟩ := end_past_rendered (x := []) ne none matched (by simpa using inside.symm)
      obtain ⟨_, starts⟩ := (edge_rendered other attributes content x').angle
      rw [starts] at same
      cases same
    · rw [angle, start] at inside
      exact noComment_cross (w := bracket) (s := opened ++ rest) left rfl empty (by rw [← inside, List.append_assoc])

theorem opensIn_rendered (opens : OpensIn marker (rendered other attributes content ++ z) y) : OpensIn marker z y := by
  obtain ⟨x, tag, split, matched⟩ := opens
  obtain ⟨x', _, after⟩ := tag_past_rendered ne none matched split
  exact ⟨x', tag, after, matched⟩

theorem noOpen_rendered (rest : NoOpen marker z) :
    NoOpen marker (rendered other attributes content ++ z) := fun y opens => rest y (opensIn_rendered ne none opens)

end Found
end PrAgent
