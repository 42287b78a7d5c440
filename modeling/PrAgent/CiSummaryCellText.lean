import PrAgent.CiMarkerRender
set_option autoImplicit false

namespace PrAgent

section Escaped

-- Every angle bracket opens a tag, none a comment.
def tagsOnly : Text → Bool
  | [] => true
  | c :: rest => (c ≠ '<' || rest.head?.any fun d => d ≠ '!') && tagsOnly rest

variable {s t : Text}

theorem tagsOnly_append (first : tagsOnly s = true) (second : tagsOnly t = true) : tagsOnly (s ++ t) = true := by
  induction s with
  | nil => exact second
  | cons c s ih =>
    simp only [tagsOnly, Bool.and_eq_true, Bool.or_eq_true, List.cons_append] at first ⊢
    refine ⟨?_, ih first.2⟩
    rcases first.1 with other | goes
    · exact .inl other
    · cases s with
      | nil => cases goes
      | cons d s => exact .inr goes

theorem tagsOnly_of_noAngle (absent : '<' ∉ t) : tagsOnly t = true := by
  induction t with
  | nil => rfl
  | cons c t ih =>
    simp only [List.mem_cons, not_or] at absent
    simp [tagsOnly, Ne.symm absent.1, ih absent.2]

theorem noComment_of_tagsOnly (tags : tagsOnly t = true) : NoComment t := by
  rintro ⟨x, y, rfl⟩
  rw [opensComment_eq] at tags
  induction x with
  | nil => simp [tagsOnly] at tags
  | cons c x ih =>
    simp only [List.cons_append, tagsOnly, Bool.and_eq_true] at tags
    exact ih tags.2

theorem tagsOnly_flatten {parts : List Text} (all : ∀ part ∈ parts, tagsOnly part = true) : tagsOnly parts.flatten = true := by
  induction parts with
  | nil => rfl
  | cons part parts ih =>
    exact tagsOnly_append (all part List.mem_cons_self) (ih fun other listed => all other (List.mem_cons_of_mem _ listed))

theorem mem_intersperse {separator part : Text} {parts : List Text} (listed : part ∈ parts.intersperse separator) :
    part = separator ∨ part ∈ parts := by
  induction parts with
  | nil => cases listed
  | cons first parts ih =>
    cases parts with
    | nil => exact .inr listed
    | cons second parts =>
      rw [List.intersperse_cons_cons] at listed
      rcases List.mem_cons.mp listed with rfl | listed
      · exact .inr List.mem_cons_self
      · rcases List.mem_cons.mp listed with rfl | listed
        · exact .inl rfl
        · exact (ih listed).imp id fun later => List.mem_cons_of_mem _ later

theorem tagsOnly_intercalate {separator : Text} {parts : List Text} (sep : tagsOnly separator = true)
    (all : ∀ part ∈ parts, tagsOnly part = true) : tagsOnly (separator.intercalate parts) = true := by
  refine tagsOnly_flatten fun part listed => ?_
  rcases mem_intersperse listed with rfl | inParts
  · exact sep
  · exact all part inParts

theorem escapeHtmlChar_noAngle (c : Char) : '<' ∉ escapeHtmlChar c := by
  unfold escapeHtmlChar
  split
  · decide
  · split
    · decide
    · split
      · decide
      · next other _ => simpa using Ne.symm other

theorem escapeTableHtml_noAngle (value : Text) : '<' ∉ escapeTableHtml value := by
  intro listed
  obtain ⟨c, _, inChar⟩ := List.mem_flatMap.mp listed
  exact escapeHtmlChar_noAngle c inChar

theorem escapeHtmlAttr_noAngle (value : Text) : '<' ∉ escapeHtmlAttr value := by
  intro listed
  obtain ⟨c, inText, inChar⟩ := List.mem_flatMap.mp listed
  unfold escapeAttrChar at inChar
  split at inChar
  · exact absurd inChar (by decide)
  · split at inChar
    · exact absurd inChar (by decide)
    · obtain rfl := List.mem_singleton.mp inChar
      exact escapeTableHtml_noAngle value inText

theorem escaped_tags (value : Text) : tagsOnly (escapeTableHtml value) = true :=
  tagsOnly_of_noAngle (escapeTableHtml_noAngle value)

theorem renderTableEm_tags (value : Text) : tagsOnly (renderTableEm value) = true :=
  tagsOnly_append (tagsOnly_append (by decide) (escaped_tags value)) (by decide)

theorem renderTableStrong_tags (value : Text) : tagsOnly (renderTableStrong value) = true :=
  tagsOnly_append (tagsOnly_append (by decide) (escaped_tags value)) (by decide)

theorem renderTableLink_tags (title href : Text) : tagsOnly (renderTableLink title href) = true := by
  have attr := tagsOnly_of_noAngle (escapeHtmlAttr_noAngle href)
  exact tagsOnly_append (tagsOnly_append (tagsOnly_append (tagsOnly_append (by decide) attr) (by decide)) (escaped_tags title))
    (by decide)

theorem renderFailure_tags (failure : CiFailureDetail) : tagsOnly (renderFailure failure) = true := by
  unfold renderFailure
  refine tagsOnly_append (tagsOnly_append (tagsOnly_append (tagsOnly_append ?_ (by decide)) (escaped_tags _)) (by decide))
    (renderTableEm_tags _)
  cases failure.url with
  | none => exact renderTableStrong_tags _
  | some url => exact renderTableLink_tags _ _

-- Escaping keeps comments out of a rendered cell, whatever the texts of the summary are.
theorem renderCellText_noComment (summary : CiSummary) : NoComment (renderCellText summary) := by
  refine noComment_of_tagsOnly (tagsOnly_intercalate (by decide) ?_)
  intro part listed
  rcases List.mem_append.mp listed with listed | note
  · rcases List.mem_cons.mp listed with rfl | failed
    · exact escaped_tags _
    · obtain ⟨failure, _, rfl⟩ := List.mem_map.mp failed
      exact renderFailure_tags failure
  · cases permission : (selectCiSummarySections summary).permissionNote with
    | none => simp [permission] at note
    | some value =>
      obtain rfl : part = renderTableEm value := by simpa [permission] using note
      exact renderTableEm_tags value

end Escaped

section Literal

-- What makes a pattern of the dollar sign before it: another one, the name of a part of the match, or the number of the one
-- capture, which may have a zero before it.
def startsPattern : Text → Bool
  | [] => false
  | c :: rest =>
    c = '$' || c = '&' || c.toNat = 96 || c.toNat = 39 || c = '1' || (c = '0' && rest.head?.any fun d => d = '1')

-- A template with a dollar sign that does not stand for itself.
def hasReplacementPattern : Text → Bool
  | [] => false
  | c :: rest => (c = '$' && startsPattern rest) || hasReplacementPattern rest

theorem getSubstitution_literal (found : BodyMatch) {template : Text} (literal : hasReplacementPattern template = false) :
    getSubstitution found template = template := by
  fun_induction getSubstitution found template with
  | case1 rest ih => simp [hasReplacementPattern, startsPattern] at literal
  | case2 rest _ ih => simp [hasReplacementPattern, startsPattern] at literal
  | case3 rest _ _ ih => simp [hasReplacementPattern, startsPattern] at literal
  | case4 d rest _ _ _ here ih => simp [hasReplacementPattern, startsPattern, here] at literal
  | case5 d rest _ _ _ _ here ih => simp [hasReplacementPattern, startsPattern, here] at literal
  | case6 rest _ _ _ _ _ ih => simp [hasReplacementPattern, startsPattern] at literal
  | case7 d rest _ _ _ _ _ _ ih =>
    simp only [hasReplacementPattern, Bool.or_eq_false_iff] at literal
    rw [ih (by simpa [hasReplacementPattern] using literal.2)]
  | case8 c rest _ _ ih =>
    simp only [hasReplacementPattern, Bool.or_eq_false_iff] at literal
    rw [ih literal.2]
  | case9 => rfl

theorem replacementPattern_append {s t : Text} (first : hasReplacementPattern s = false) (second : hasReplacementPattern t = false)
    (starts : startsPattern t = false) : hasReplacementPattern (s ++ t) = false := by
  -- A zero at the end of the first text may not get its one from the second.
  have noOne : (t.head?.any fun d => decide (d = '1')) = false := by
    cases t with
    | nil => rfl
    | cons d t =>
      simp only [startsPattern, Bool.or_eq_false_iff] at starts
      exact starts.1.2
  induction s with
  | nil => exact second
  | cons c s ih =>
    simp only [hasReplacementPattern, Bool.or_eq_false_iff, List.cons_append] at first ⊢
    refine ⟨?_, ih first.2⟩
    cases s with
    | nil => simp [starts]
    | cons d s =>
      cases s with
      | nil => simpa [startsPattern, noOne] using first.1
      | cons e s => exact first.1

theorem replacementPattern_of_noDollar {s t : Text} (absent : '$' ∉ s) : hasReplacementPattern (s ++ t) = hasReplacementPattern t := by
  induction s with
  | nil => rfl
  | cons c s ih =>
    simp only [List.mem_cons, not_or] at absent
    simp [hasReplacementPattern, Ne.symm absent.1, ih absent.2]

end Literal
end PrAgent
