import PrAgent.CiSummaryCellText
import PrAgent.FindingRowBodies
import PrAgent.InlineThreadBody
set_option autoImplicit false

namespace PrAgent.CommentMarkers

variable {s t x y after gap : Text}

section Neutral

theorem opens_iff : opensControlMarker s = true ↔
    ∃ gap after, (∀ c ∈ gap, isSpace c = true) ∧ s = text "<!--" ++ (gap ++ (text "pr-agent:" ++ after)) := by
  have solid : text "pr-agent:" = 'p' :: text "r-agent:" := by decide
  have size : (text "<!--").length = 4 := by decide
  rw [opensControlMarker, Bool.and_eq_true, decide_eq_true_iff, decide_eq_true_iff]
  constructor
  · rintro ⟨⟨rest, rfl⟩, after, name⟩
    rw [List.drop_left' size] at name
    refine ⟨rest.takeWhile isSpace, after, fun c listed => List.mem_takeWhile_imp listed, ?_⟩
    rw [name, List.takeWhile_append_dropWhile]
  · rintro ⟨gap, after, spaced, rfl⟩
    refine ⟨⟨_, rfl⟩, after, ?_⟩
    rw [List.drop_left' size, solid, List.cons_append, Pattern.dropWhile_all spaced (by decide)]

theorem opens_angle (opens : opensControlMarker s = true) : ∃ rest, s = '<' :: rest := by
  obtain ⟨gap, after, _, rfl⟩ := opens_iff.mp opens
  have angle : text "<!--" = '<' :: text "!--" := by decide
  exact ⟨_, by rw [angle, List.cons_append]⟩

-- Neutralising keeps what stands before the first ampersand.
theorem neutralized_initial (plain : '&' ∉ x) (split : neutralizeControlMarkers s = x ++ y) :
    ∃ y', s = x ++ y' ∧ y = neutralizeControlMarkers y' := by
  induction x generalizing s with
  | nil => exact ⟨s, rfl, split.symm⟩
  | cons d x ih =>
      simp only [List.mem_cons, not_or] at plain
      cases s with
      | nil => cases split
      | cons c s =>
          rw [neutralizeControlMarkers] at split
          by_cases opens : opensControlMarker (c :: s) = true
          · rw [if_pos opens, show text "&lt;" = '&' :: text "lt;" by decide] at split
            exact absurd (List.cons.inj split).1 plain.1
          · rw [if_neg opens] at split
            obtain ⟨rfl, rest⟩ := List.cons.inj split
            obtain ⟨y', whole, last⟩ := ih plain.2 rest
            exact ⟨y', by rw [whole]; rfl, last⟩

theorem neutralized_opens (opens : opensControlMarker (neutralizeControlMarkers s) = true) : opensControlMarker s = true := by
  obtain ⟨gap, after, spaced, split⟩ := opens_iff.mp opens
  have plain : '&' ∉ text "<!--" ++ (gap ++ text "pr-agent:") := by
    intro listed
    rcases List.mem_append.mp listed with first | later
    · exact absurd first (by decide)
    · rcases List.mem_append.mp later with inGap | inName
      · exact absurd (spaced '&' inGap) (by decide)
      · exact absurd inName (by decide)
  obtain ⟨rest, whole, _⟩ := neutralized_initial plain (y := after) (by rw [split]; simp only [List.append_assoc])
  exact opens_iff.mpr ⟨gap, rest, spaced, by rw [whole]; simp only [List.append_assoc]⟩

-- No control marker opens in a neutralised text.
theorem neutralized_quiet (split : neutralizeControlMarkers s = x ++ y) : opensControlMarker y = false := by
  rw [← Bool.not_eq_true]
  intro opens
  induction s generalizing x with
  | nil =>
      rw [(List.append_eq_nil_iff.mp split.symm).2] at opens
      exact absurd opens (by decide)
  | cons c s ih =>
      by_cases here : opensControlMarker (c :: s) = true
      · rw [neutralizeControlMarkers, if_pos here] at split
        obtain ⟨rest, angle⟩ := opens_angle opens
        rw [angle] at split
        obtain ⟨x', _, later⟩ := split_past (by decide) split
        exact ih (by rw [angle]; exact later)
      · cases x with
        | nil =>
            apply here
            apply neutralized_opens
            rw [split]
            exact opens
        | cons d x =>
            rw [neutralizeControlMarkers, if_neg here] at split
            exact ih (List.cons.inj split).2

-- The opening of a marker of the agent.
structure ControlOpen (start : Text) : Prop where
  opens : opensControlMarker start = true
  oneLine : '\n' ∉ start

theorem ControlOpen.append {start : Text} (control : ControlOpen start) (rest : Text) :
    opensControlMarker (start ++ rest) = true := by
  obtain ⟨gap, after, spaced, split⟩ := opens_iff.mp control.opens
  exact opens_iff.mpr ⟨gap, after ++ rest, spaced, by rw [split]; simp only [List.append_assoc]⟩

theorem neutralized_no_open {start : Text} (control : ControlOpen start) (s : Text) :
    ¬start <:+: neutralizeControlMarkers s := by
  rintro ⟨before, after, split⟩
  rw [List.append_assoc] at split
  have quiet := neutralized_quiet split.symm
  rw [control.append] at quiet
  cases quiet

theorem infix_across {c : Char} {start : Text} (absent : c ∉ start) (inside : start <:+: x ++ c :: y) :
    start <:+: x ∨ start <:+: y := by
  obtain ⟨before, after, split⟩ := inside
  rw [List.append_assoc] at split
  rcases split_around absent split.symm with ⟨rest, front, _⟩ | ⟨l, _, back⟩
  · exact .inl ⟨before, rest, by rw [front, List.append_assoc]⟩
  · cases l with
    | nil =>
        cases start with
        | nil => exact .inl (List.nil_infix)
        | cons d start =>
            have same := (List.cons.inj back).1
            exact absurd (by rw [same]; exact List.mem_cons_self) absent
    | cons d l => exact .inr ⟨l, after, by rw [List.append_assoc]; exact (List.cons.inj back).2.symm⟩

theorem infix_angle {start u : Text} (control : ControlOpen start) (absent : '<' ∉ u) (inside : start <:+: '<' :: u) :
    start <+: '<' :: u := by
  obtain ⟨before, after, split⟩ := inside
  cases before with
  | nil => exact ⟨after, by simpa using split⟩
  | cons c before =>
      obtain ⟨rest, angle⟩ := opens_angle control.opens
      have later := (List.cons.inj split).2
      exact absurd (by rw [← later, angle]; simp) absent

-- Behind tags, a marker opens only where the tags end.
theorem infix_tags {start u p : Text} (control : ControlOpen start) (tags : tagsOnly p = true) (absent : '<' ∉ u)
    (inside : start <:+: p ++ '<' :: u) : start <+: '<' :: u := by
  induction p with
  | nil => exact infix_angle control absent inside
  | cons c p ih =>
      rw [tagsOnly, Bool.and_eq_true, Bool.or_eq_true] at tags
      obtain ⟨before, after, split⟩ := inside
      cases before with
      | nil =>
          obtain ⟨gap, rest, _, opens⟩ := opens_iff.mp control.opens
          rw [List.nil_append, opens, opensComment_eq] at split
          obtain ⟨rfl, later⟩ := List.cons.inj split
          cases p with
          | nil => simp at tags
          | cons d p =>
              obtain ⟨rfl, _⟩ := List.cons.inj later
              simp at tags
      | cons d before => exact ih tags.2 ⟨before, after, (List.cons.inj split).2⟩

end Neutral

section Lines

theorem bodyLines_parts (s : Text) :
    ∃ head rest, bodyLines s = head :: rest ∧ head <+: s ∧ ∀ line ∈ rest, line <:+: s := by
  induction s with
  | nil => exact ⟨[], [], rfl, List.nil_prefix, fun _ absent => absurd absent List.not_mem_nil⟩
  | cons c s ih =>
      obtain ⟨head, rest, split, first, others⟩ := ih
      have further (line : Text) (inside : line <:+: s) : line <:+: c :: s := inside.trans (List.suffix_cons c s).isInfix
      rw [bodyLines, List.splitOnP_cons_eq_if_modifyHead]
      rw [bodyLines] at split
      by_cases ends : isLineTerminator c = true
      · rw [if_pos ends, split]
        refine ⟨[], head :: rest, rfl, List.nil_prefix, fun line listed => ?_⟩
        rcases List.mem_cons.mp listed with rfl | later
        · exact further _ first.isInfix
        · exact further _ (others line later)
      · rw [if_neg ends, split]
        refine ⟨c :: head, rest, rfl, ?_, fun line listed => further _ (others line listed)⟩
        obtain ⟨tail, rfl⟩ := first
        exact ⟨tail, rfl⟩

theorem bodyLines_infix {line : Text} (listed : line ∈ bodyLines s) : line <:+: s := by
  obtain ⟨head, rest, split, first, others⟩ := bodyLines_parts s
  rw [split] at listed
  rcases List.mem_cons.mp listed with rfl | later
  · exact first.isInfix
  · exact others line later

theorem bodyLines_pair (plain : ∀ c ∈ t, isLineTerminator c = false) :
    bodyLines (s ++ '\n' :: '\n' :: t) = bodyLines s ++ [[], t] := by
  rw [bodyLines, List.splitOnP_append_cons s _ (by decide), ← List.nil_append ('\n' :: t),
    List.splitOnP_append_cons [] _ (by decide), List.splitOnP_eq_singleton plain]
  rfl

def rowOpen : Text := text "<!-- pr-agent:finding-row v="
def markerOpen : Text := text "<!-- pr-agent:finding v="
def receiptOpen : Text := text "<!-- pr-agent:receipt v="

theorem rowOpen_control : ControlOpen rowOpen := ⟨by decide, by decide⟩
theorem markerOpen_control : ControlOpen markerOpen := ⟨by decide, by decide⟩
theorem receiptOpen_control : ControlOpen receiptOpen := ⟨by decide, by decide⟩

theorem no_rows (quiet : ¬rowOpen <:+: s) : findingRows s = [] := by
  apply no_rows_iff.mpr
  rintro ⟨before, rest, found, after, rfl, reads, _⟩
  obtain ⟨tail, opens⟩ := rowStart_of_match reads
  exact quiet ⟨before, tail, by rw [opens, List.append_assoc]; rfl⟩

-- What a line reads, none of the lines of a text without its opening does.
theorem no_lines {β : Type} {start : Text} {read : Text → Option β}
    (opens : ∀ line found, read line = some found → ∃ rest, line = start ++ rest) (quiet : ¬start <:+: s) :
    (bodyLines s).filterMap read = [] := by
  rw [List.filterMap_eq_nil_iff]
  intro line listed
  cases here : read line with
  | none => rfl
  | some found =>
      obtain ⟨rest, front⟩ := opens line found here
      have inside := bodyLines_infix listed
      rw [front] at inside
      exact absurd ((List.prefix_append start rest).isInfix.trans inside) quiet

theorem marker_opens (line : Text) (found : RawFields) (here : findingMarkerAt line = some found) :
    ∃ rest, line = markerOpen ++ rest := fields_open here

theorem receipt_opens (line : Text) (found : ReceiptKind × RawFields) (here : receiptAt line = some found) :
    ∃ rest, line = receiptOpen ++ rest := fields_open here

theorem no_receipts (quiet : ¬receiptOpen <:+: s) (author : Option String) (botLogin : String) :
    parseOwnedReceipts [⟨s, author⟩] botLogin = [] := by
  simp only [parseOwnedReceipts, List.flatMap_cons, List.flatMap_nil, List.append_nil]
  by_cases own : isBotAuthor author botLogin = true
  · simp [own, no_lines receipt_opens quiet]
  · simp [own]

end Lines
end PrAgent.CommentMarkers
