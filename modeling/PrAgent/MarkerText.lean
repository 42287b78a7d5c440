import PrAgent.CiMarkerRender
import PrAgent.UriComponent
import Mathlib.Data.List.Chain
import Mathlib.Data.List.DropRight
set_option autoImplicit false

namespace PrAgent.CommentMarkers

variable {x y s t u r : Text}

-- `\S+`.
def solids : Pattern Char := .some1 (.one fun c => !isSpace c)

section Trim

def trimEnd (value : Text) : Text := (value.reverse.dropWhile isSpace).reverse

theorem trimEnd_newline (value : Text) : trimEnd (value ++ ['\n']) = trimEnd value :=
  List.rdropWhile_concat_pos isSpace value '\n' (by decide)

theorem trimEnd_split (value : Text) : ∃ blank, value = trimEnd value ++ blank ∧ ∀ c ∈ blank, isSpace c = true :=
  ⟨value.rtakeWhile isSpace, List.rdropWhile_append_rtakeWhile.symm, fun _ => List.mem_rtakeWhile_imp⟩

theorem trimEnd_trimEnd (value : Text) : trimEnd (trimEnd value) = trimEnd value := List.rdropWhile_idempotent isSpace value

end Trim

section Tight

-- White space is never followed by an angle.
def Tight (x : Text) : Prop := x.IsChain fun c d => d = '<' → isSpace c = false

theorem tight_of_noAngle (absent : '<' ∉ x) : Tight x := by
  apply List.isChain_iff_forall_rel_of_append_cons_cons.mpr
  intro c d u v split angle
  subst angle
  exact absurd (by simp [split]) absent

theorem tight_of_solid (solid : ∀ c ∈ x, isSpace c = false) : Tight x := by
  apply List.isChain_iff_forall_rel_of_append_cons_cons.mpr
  intro c d u v split _
  exact solid c (by simp [split])

theorem tight_append (left : Tight x) (right : Tight y) (starts : ∀ c, y.head? = some c → c ≠ '<') : Tight (x ++ y) :=
  List.IsChain.append left right fun _ _ d first angle => absurd angle (starts d first)

structure MarkerText (x : Text) : Prop where
  tight : Tight x
  opens : ∃ v, x = '<' :: v
  closes : ∃ u, x = u ++ ['>']

-- A marker does not reach over a line that starts with an angle.
theorem MarkerText.within (marker : MarkerText x) (split : x ++ r = y ++ '\n' :: '<' :: t) :
    ∃ z, y = x ++ z ∧ r = z ++ '\n' :: '<' :: t := by
  obtain ⟨u, ends⟩ := marker.closes
  rcases List.append_eq_append_iff.mp split with ⟨z, longer, rest⟩ | ⟨z, longer, rest⟩
  · exact ⟨z, longer, rest⟩
  · cases z with
    | nil => exact ⟨[], by simpa using longer.symm, by simpa using rest.symm⟩
    | cons c z =>
        obtain ⟨same, rest'⟩ := List.cons.inj rest
        subst same
        cases z with
        | nil =>
            rw [ends] at longer
            have last := congrArg List.getLast? longer
            simp at last
        | cons d z =>
            obtain ⟨same, _⟩ := List.cons.inj rest'
            subst same
            have chain := List.isChain_iff_forall_rel_of_append_cons_cons.mp marker.tight longer rfl
            exact absurd chain (by decide)

-- Nor does it end in white space.
theorem MarkerText.before_spaces (marker : MarkerText x) (spaced : ∀ c ∈ t, isSpace c = true)
    (split : u ++ (x ++ r) = y ++ t) : ∃ z, y = u ++ (x ++ z) ∧ r = z ++ t := by
  obtain ⟨v, ends⟩ := marker.closes
  rw [← List.append_assoc] at split
  rcases List.append_eq_append_iff.mp split with ⟨z, longer, rest⟩ | ⟨z, longer, rest⟩
  · exact ⟨z, by rw [longer, List.append_assoc], rest⟩
  · cases List.eq_nil_or_concat z with
    | inl empty =>
        subst empty
        exact ⟨[], by simpa using longer.symm, by simpa using rest.symm⟩
    | inr concat =>
        obtain ⟨z, c, rfl⟩ := concat
        rw [ends] at longer
        have last := congrArg List.getLast? longer
        simp only [List.concat_eq_append, ← List.append_assoc, List.getLast?_concat] at last
        obtain rfl := Option.some.inj last
        exact absurd (spaced '>' (by simp [rest])) (by decide)

-- A marker in front of a text is never the line behind it.
theorem MarkerText.not_line (marker : MarkerText x) (after : Text) : x ++ after ≠ after ++ '\n' :: '<' :: t := by
  induction length : after.length using Nat.strongRecOn generalizing after with
  | ind n ih =>
      intro same
      obtain ⟨z, longer, rest⟩ := marker.within same
      obtain ⟨v, opens⟩ := marker.opens
      have shorter : z.length < n := by
        have sizes := congrArg List.length longer
        rw [opens, List.length_append, List.length_cons] at sizes
        omega
      exact ih z.length shorter z rfl (longer.symm.trans rest)

end Tight

section Encoded

theorem encoded_solid {c : Char} (encoded : isEncoded c = true) : isSpace c = false := by
  have cases : c.isAlphanum = true ∨ c.toNat ∈ [33, 39, 40, 41, 42, 45, 46, 95, 126] ∨ c = '%' := by
    simpa [isEncoded, isUnreserved, or_assoc] using encoded
  rcases cases with letter | mark | percent
  · exact word_solid (by rw [isWord, letter, Bool.true_or])
  · simp only [List.mem_cons, List.not_mem_nil, or_false] at mark
    rcases mark with mark | mark | mark | mark | mark | mark | mark | mark | mark <;> simp [isSpace, mark]
  · rw [percent]
    decide

theorem encoded_noAngle : '<' ∉ encodeURIComponent x := fun listed =>
  absurd (encodeURIComponent_encoded listed) (by decide)

end Encoded

section Line

-- A marker that no angle but its own stands in.
theorem markerText_of_line (absent : '<' ∉ u) : MarkerText ('<' :: (u ++ ['>'])) := by
  refine ⟨?_, ⟨_, rfl⟩, '<' :: u, rfl⟩
  apply tight_append (x := ['<']) (tight_of_solid (solid_of_all (by decide))) (tight_of_noAngle (by simp [absent]))
  intro c first same
  cases u with
  | nil =>
      have close : '>' = c := Option.some.inj first
      exact absurd (close.trans same) (by decide)
  | cons d u =>
      have start : d = c := Option.some.inj first
      exact absent (by rw [start, same]; exact List.mem_cons_self)

-- Inside of lines that follow a text, a marker is in the text or in the lines.
theorem MarkerText.infix_line (marker : MarkerText x) :
    x <:+: s ++ '\n' :: '<' :: t ↔ x <:+: s ∨ x <:+: '<' :: t := by
  constructor
  · rintro ⟨a, b, split⟩
    rw [List.append_assoc] at split
    rcases List.append_eq_append_iff.mp split with ⟨s', front, rest⟩ | ⟨a', front, rest⟩
    · obtain ⟨z, inside, _⟩ := marker.within rest
      exact .inl ⟨a, z, by rw [front, inside, List.append_assoc]⟩
    · cases a' with
      | nil =>
          obtain ⟨v, opens⟩ := marker.opens
          rw [opens] at rest
          exact absurd (List.cons.inj rest).1 (by decide)
      | cons c a' =>
          have later : '<' :: t = a' ++ (x ++ b) := (List.cons.inj rest).2
          exact .inr ⟨a', b, by rw [later, List.append_assoc]⟩
  · rintro (inside | inside)
    · exact inside.trans (List.prefix_append _ _).isInfix
    · exact inside.trans ⟨s ++ ['\n'], [], by simp⟩

-- A line with one angle of each kind has no other marker in it.
theorem MarkerText.infix_single (marker : MarkerText x) (absent : '<' ∉ u) (inside : x <:+: '<' :: u) : x <+: '<' :: u := by
  obtain ⟨a, b, split⟩ := inside
  obtain ⟨v, opens⟩ := marker.opens
  cases a with
  | nil => exact ⟨b, by simpa using split⟩
  | cons c a =>
      have rest := (List.cons.inj split).2
      exact absurd (by rw [← rest, opens]; simp) absent

theorem MarkerText.prefix_line (marker : MarkerText x) (absent : '>' ∉ u) (starts : x <+: u ++ ['>']) : x = u ++ ['>'] := by
  obtain ⟨b, split⟩ := starts
  obtain ⟨v, closes⟩ := marker.closes
  rcases List.append_eq_append_iff.mp split with ⟨z, longer, _⟩ | ⟨z, longer, rest⟩
  · rw [longer, closes] at absent
    exact absurd (by simp) absent
  · cases z with
    | nil =>
        rw [List.append_nil] at longer
        exact absurd (by rw [← longer, closes]; simp) absent
    | cons c z =>
        obtain ⟨same, nothing⟩ := List.cons.inj rest
        obtain ⟨rfl, rfl⟩ := List.append_eq_nil_iff.mp nothing.symm
        rw [longer, ← same]

end Line
end PrAgent.CommentMarkers
