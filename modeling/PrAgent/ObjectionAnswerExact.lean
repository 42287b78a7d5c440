import PrAgent.ObjectionAnswer
set_option autoImplicit false

namespace PrAgent.CommentMarkers

variable {s t r value body : Text} {revision other : ObjectionRevision}

section Timestamp

theorem fits_split {shape : List (Char → Bool)} {zone : Text} (found : fits shape value = some zone) :
    ∃ front, value = front ++ zone ∧ ∀ c ∈ front, ∃ allows ∈ shape, allows c = true := by
  induction shape generalizing value with
  | nil =>
      obtain rfl := Option.some.inj found
      exact ⟨[], rfl, by simp⟩
  | cons allows shape ih =>
      cases value with
      | nil => cases found
      | cons c value =>
          rw [fits] at found
          obtain ⟨allowed, found⟩ := Option.ite_none_right_eq_some.mp found
          obtain ⟨front, rfl, all⟩ := ih found
          refine ⟨c :: front, rfl, fun d listed => ?_⟩
          rcases List.mem_cons.mp listed with rfl | later
          · exact ⟨allows, List.mem_cons_self, allowed⟩
          · obtain ⟨other, inside, holds⟩ := all d later
            exact ⟨other, List.mem_cons_of_mem _ inside, holds⟩

-- What a timestamp is made of.
def isTimestampChar (c : Char) : Bool := c.isDigit || [45, 46, 58, 84, 90].contains c.toNat

theorem shape_timestampChar {allows : Char → Bool} (listed : allows ∈ timestampShape) {c : Char} (holds : allows c = true) :
    isTimestampChar c = true := by
  obtain ⟨shape, inside, rfl⟩ := List.mem_map.mp listed
  by_cases digit : shape = '0'
  · rw [if_pos digit] at holds
    rw [isTimestampChar, holds, Bool.true_or]
  · rw [if_neg digit] at holds
    obtain rfl := of_decide_eq_true holds
    have all : (text "0000-00-00T00:00:00").all isTimestampChar = true := by decide
    exact List.all_eq_true.mp all c inside

theorem usable_timestampChar (usable : isUsableReviewTimestamp value = true) : ∀ c ∈ value, isTimestampChar c = true := by
  rw [isUsableReviewTimestamp] at usable
  cases found : fits timestampShape value with
  | none => simp [found] at usable
  | some zone =>
      obtain ⟨front, rfl, all⟩ := fits_split found
      have zoned : ∀ c ∈ zone, isTimestampChar c = true := by
        simp only [found, Bool.or_eq_true, Bool.and_eq_true, decide_eq_true_eq] at usable
        rcases usable with rfl | ⟨⟨point, _⟩, ends⟩
        · exact List.all_eq_true.mp (by decide)
        · obtain ⟨rest, rfl⟩ := List.head?_eq_some_iff.mp point
          intro c listed
          rcases List.mem_cons.mp listed with rfl | later
          · decide
          · rw [← List.takeWhile_append_dropWhile (p := Char.isDigit) (l := rest)] at later
            rcases List.mem_append.mp later with digit | last
            · rw [isTimestampChar, List.mem_takeWhile_imp digit, Bool.true_or]
            · rw [show rest.dropWhile Char.isDigit = ['Z'] from ends, List.mem_singleton] at last
              rw [last]
              decide
      intro c listed
      rcases List.mem_append.mp listed with front | zone
      · obtain ⟨allows, inside, holds⟩ := all c front
        exact shape_timestampChar inside holds
      · exact zoned c zone

end Timestamp

section Marker

-- A marker without its angles.
def ObjectionRevision.inner (revision : ObjectionRevision) : Text :=
  text "!-- pr-agent:objection-answer v=1 c=" ++
    (Nat.toDigits 10 revision.commentId ++ (text " u=" ++ (revision.updatedAt ++ text " --")))

theorem answerMarker_eq (revision : ObjectionRevision) : renderObjectionAnswerMarker revision = '<' :: (revision.inner ++ ['>']) := by
  have opens : text "<!-- pr-agent:objection-answer v=1 c=" = '<' :: text "!-- pr-agent:objection-answer v=1 c=" := by decide
  have closes : text " -->" = text " --" ++ ['>'] := by decide
  rw [renderObjectionAnswerMarker, ObjectionRevision.inner, opens, closes]
  simp

theorem inner_plain (revision : ObjectionRevision) : '<' ∉ revision.inner ∧ '>' ∉ revision.inner := by
  have digits : ∀ c ∈ Nat.toDigits 10 revision.commentId, c.isDigit = true := fun c listed => toDigits_isDigit listed
  have stamp := usable_timestampChar revision.usable
  simp only [ObjectionRevision.inner, List.mem_append, not_or]
  exact ⟨⟨by decide, absent_of_class digits (by decide), by decide, absent_of_class stamp (by decide), by decide⟩,
    by decide, absent_of_class digits (by decide), by decide, absent_of_class stamp (by decide), by decide⟩

theorem rendered_marker (revision : ObjectionRevision) : MarkerText (renderObjectionAnswerMarker revision) := by
  rw [answerMarker_eq]
  exact markerText_of_line (inner_plain revision).1

theorem rendered_inj (same : renderObjectionAnswerMarker revision = renderObjectionAnswerMarker other) : revision = other := by
  have blank : text " u=" = ' ' :: text "u=" := by decide
  have rest := List.append_cancel_left same
  rw [blank, List.cons_append, List.cons_append] at rest
  have digits (n : Nat) : ∀ c ∈ Nat.toDigits 10 n, c.isDigit = true := fun c listed => toDigits_isDigit listed
  have numbers := congrArg (List.takeWhile Char.isDigit) rest
  rw [Pattern.takeWhile_all (digits _) (by decide), Pattern.takeWhile_all (digits _) (by decide)] at numbers
  have ids : revision.commentId = other.commentId := by
    have values := congrArg (fun digits => Nat.ofDigitChars 10 digits 0) numbers
    simpa [Nat.ofDigitChars_toDigits] using values
  rw [numbers] at rest
  have stamps := List.append_cancel_right (List.append_cancel_left (List.cons.inj (List.append_cancel_left rest)).2)
  obtain ⟨id, updatedAt, usable⟩ := revision
  obtain ⟨id', updatedAt', usable'⟩ := other
  cases ids
  cases stamps
  rfl

theorem rendered_ne_nil (revision : ObjectionRevision) : renderObjectionAnswerMarker revision ≠ [] := by
  rw [answerMarker_eq]
  exact List.cons_ne_nil _ _

end Marker

section Found

theorem objectionAnswer_consumes : Consumes objectionAnswerAt := by
  intro s found after here
  obtain ⟨x, _, opens, rfl, spaced⟩ := Pattern.skip_eq_some here
  obtain ⟨gap, _, _, rfl, named⟩ := Pattern.skip_eq_some spaced
  obtain ⟨label, rest, _, rfl, ends⟩ := Pattern.skip_eq_some named
  obtain ⟨_, ends⟩ := Option.ite_none_left_eq_some.mp ends
  obtain ⟨left, closed, same⟩ := Option.map_eq_some_iff.mp ends
  cases same
  obtain ⟨before, close, matched, rfl, _⟩ := Pattern.untilFirst_eq_some closed
  rw [Pattern.matches_literal.mp opens, Pattern.matches_literal.mp matched]
  have opening : (text "<!--").length = 4 := by decide
  simp only [List.length_append, opening]
  omega

theorem caseless_self (label : Text) : (caseless label).Matches label := by
  induction label with
  | nil => exact rfl
  | cons c label ih => exact ⟨[c], label, rfl, ⟨c, rfl, decide_eq_true rfl⟩, ih⟩

-- Every rendered marker is found where it starts.
theorem rendered_found_here (revision : ObjectionRevision) (r : Text) :
    objectionAnswerAt (renderObjectionAnswerMarker revision ++ r) ≠ none := by
  have front : text "<!-- pr-agent:objection-answer v=1 c=" =
      text "<!--" ++ ([' '] ++ (text "pr-agent:objection-answer" ++ ' ' :: text "v=1 c=")) := by decide
  have back : text " -->" = ' ' :: text "-->" := by decide
  have whole : renderObjectionAnswerMarker revision ++ r = text "<!--" ++ ([' '] ++ (text "pr-agent:objection-answer" ++
      (' ' :: (text "v=1 c=" ++ (Nat.toDigits 10 revision.commentId ++ (text " u=" ++ (revision.updatedAt ++ [' '])))) ++
        (text "-->" ++ r)))) := by
    rw [renderObjectionAnswerMarker, front, back]
    simp
  have blank : spaces.Matches [' '] := Pattern.matches_many_one.mpr (List.all_eq_true.mp (by decide))
  rw [whole]
  refine Pattern.skip_ne_none (Pattern.matches_literal.mpr rfl) ?_
  refine Pattern.skip_ne_none blank (Pattern.skip_ne_none (caseless_self _) ?_)
  rw [List.cons_append, if_neg (by rw [List.head?_cons]; decide), ← List.cons_append]
  obtain ⟨left, closed⟩ := Pattern.untilFirst_isSome (r := r) (Pattern.matches_literal.mpr rfl)
  intro nowhere
  rw [Option.map_eq_none_iff, closed] at nowhere
  cases nowhere

theorem rendered_not_in_stretch (revision : ObjectionRevision) (body : Text) :
    ¬∃ stretch ∈ stretches objectionAnswerAt body, renderObjectionAnswerMarker revision <:+: stretch := by
  rintro ⟨stretch, listed, u, v, split⟩
  obtain ⟨rest, fails⟩ := stretches_fail objectionAnswer_consumes body stretch listed
  rw [List.append_assoc] at split
  have nowhere := fails u _ split.symm (by simp [rendered_ne_nil])
  rw [List.append_assoc] at nowhere
  exact rendered_found_here revision _ nowhere

-- What is left of a body carries a marker exactly if its parts were spread over several stretches.
theorem carries_stripped_iff (body : Text) (revision : ObjectionRevision) :
    commentCarriesObjectionAnswer (withoutObjectionAnswerMarkers body) revision = true ↔
      Spread (renderObjectionAnswerMarker revision) (stretches objectionAnswerAt body) := by
  rw [commentCarriesObjectionAnswer, includes, decide_eq_true_iff, withoutObjectionAnswerMarkers, withoutMatches,
    infix_flatten_iff _ _ (rendered_ne_nil revision)]
  constructor
  · rintro (inside | spread)
    · exact absurd inside (rendered_not_in_stretch revision body)
    · exact spread
  · exact .inr

end Found

section Answer

theorem operationMarker_line (digest : BoundedText hexDigit 24 24) :
    ∃ u, operationIntentMarker digest = '<' :: u ∧ '<' ∉ u := by
  have opens : text "<!-- pr-agent:operation-intent " = '<' :: text "!-- pr-agent:operation-intent " := by decide
  have hex : ∀ c ∈ digest.text.toList, hexDigit c = true := List.all_eq_true.mp digest.pattern
  refine ⟨text "!-- pr-agent:operation-intent " ++ (digest.text.toList ++ text " -->"), ?_, ?_⟩
  · rw [operationIntentMarker, opens, List.cons_append]
  · simp only [List.mem_append, not_or]
    exact ⟨by decide, absent_of_class hex (by decide), by decide⟩

theorem rendered_not_operation (revision : ObjectionRevision) (digest : BoundedText hexDigit 24 24) :
    ¬renderObjectionAnswerMarker revision <:+: operationIntentMarker digest := by
  intro inside
  obtain ⟨u, line, absent⟩ := operationMarker_line digest
  rw [line] at inside
  obtain ⟨v, split⟩ := (rendered_marker revision).infix_single absent inside
  rw [← line, renderObjectionAnswerMarker, operationIntentMarker] at split
  have label : text "<!-- pr-agent:objection-answer v=1 c=" = text "<!-- pr-agent:o" ++ 'b' :: text "jection-answer v=1 c=" := by decide
  have label' : text "<!-- pr-agent:operation-intent " = text "<!-- pr-agent:o" ++ 'p' :: text "eration-intent " := by decide
  rw [label, label'] at split
  simp only [List.append_assoc, List.append_cancel_left_eq, List.cons_append] at split
  exact absurd (List.cons.inj split).1 (by decide)

theorem carries_rendered_iff (revision other : ObjectionRevision) :
    renderObjectionAnswerMarker revision <:+: renderObjectionAnswerMarker other ↔ revision = other := by
  constructor
  · intro inside
    have line := answerMarker_eq other
    rw [line] at inside
    have starts := (rendered_marker revision).infix_single (by simp [inner_plain]) inside
    rw [← List.cons_append] at starts
    have same := (rendered_marker revision).prefix_line (by simp [inner_plain]) starts
    exact rendered_inj (same.trans line.symm)
  · intro same
    rw [same]

-- The markers of an answer are its own and those left in what was stripped.
theorem carries_answer_iff (redactReviewText : Text → Text) (decision : ObjectionDecision) (fixedIn : Option Text)
    (authorized : Bool) (digest : BoundedText hexDigit 24 24) (revision : ObjectionRevision) :
    commentCarriesObjectionAnswer
        (objectionAnswerBody redactReviewText decision fixedIn authorized (operationIntentMarker digest)) revision = true ↔
      renderObjectionAnswerMarker revision <:+:
          trimEnd (withoutObjectionAnswerMarkers (redactReviewText (objectionAnswerProse decision fixedIn authorized))) ∨
        revision = decision.revision := by
  have marker := rendered_marker revision
  obtain ⟨u, line, _⟩ := operationMarker_line digest
  rw [commentCarriesObjectionAnswer, includes, decide_eq_true_iff, objectionAnswerBody]
  generalize trimEnd _ = redacted
  have answer : renderObjectionAnswerMarker revision <:+: redacted ++ '\n' :: renderObjectionAnswerMarker decision.revision ↔
      renderObjectionAnswerMarker revision <:+: redacted ∨ revision = decision.revision := by
    rw [← carries_rendered_iff, answerMarker_eq decision.revision]
    exact marker.infix_line
  split
  · exact answer
  · have lines := marker.infix_line (s := redacted ++ '\n' :: renderObjectionAnswerMarker decision.revision) (t := u)
    rw [← line, answer] at lines
    rw [lines]
    constructor
    · rintro (own | operation)
      · exact own
      · exact absurd operation (rendered_not_operation revision digest)
    · exact .inl

-- An answer answers its own objection and no other one, exactly if stripping joins no marker.
theorem objection_answer_exact_iff (redactReviewText : Text → Text) (decision : ObjectionDecision) (fixedIn : Option Text)
    (authorized : Bool) (digest : BoundedText hexDigit 24 24) (botLogin : String) :
    ((∀ revision, commentCarriesObjectionAnswer
          (withoutObjectionAnswerMarkers (redactReviewText (objectionAnswerProse decision fixedIn authorized))) revision = false) ∧
      ∀ replies revision,
        isAnswered botLogin (replies ++ [⟨some botLogin,
            objectionAnswerBody redactReviewText decision fixedIn authorized (operationIntentMarker digest)⟩]) revision = true ↔
          isAnswered botLogin replies revision = true ∨ revision = decision.revision) ↔
      ∀ revision, ¬Spread (renderObjectionAnswerMarker revision)
        (stretches objectionAnswerAt (redactReviewText (objectionAnswerProse decision fixedIn authorized))) := by
  constructor
  · intro ⟨stripped, _⟩ revision spread
    have carries := (carries_stripped_iff _ revision).mpr spread
    rw [stripped revision] at carries
    cases carries
  · intro joins
    have stripped (revision : ObjectionRevision) : ¬commentCarriesObjectionAnswer
        (withoutObjectionAnswerMarkers (redactReviewText (objectionAnswerProse decision fixedIn authorized))) revision = true :=
      fun carries => joins revision ((carries_stripped_iff _ revision).mp carries)
    refine ⟨fun revision => Bool.eq_false_of_not_eq_true (stripped revision), fun replies revision => ?_⟩
    have bot : isBotAuthor (some botLogin) botLogin = true := by simp [isBotAuthor]
    have lost : ¬renderObjectionAnswerMarker revision <:+:
        trimEnd (withoutObjectionAnswerMarkers (redactReviewText (objectionAnswerProse decision fixedIn authorized))) := by
      intro inside
      obtain ⟨blank, split, _⟩ := trimEnd_split
        (withoutObjectionAnswerMarkers (redactReviewText (objectionAnswerProse decision fixedIn authorized)))
      refine stripped revision (decide_eq_true ?_)
      rw [split]
      exact inside.trans (List.prefix_append _ _).isInfix
    have own := carries_answer_iff redactReviewText decision fixedIn authorized digest revision
    simp only [lost, false_or] at own
    rw [isAnswered, List.any_append, List.any_cons, List.any_nil, bot]
    simp [own, isAnswered]

end Answer

section Example

def foreignRevision : ObjectionRevision := ⟨99, text "2026-01-02T00:00:00Z", by decide⟩

def nestedDecision : ObjectionDecision where
  concede := false
  revision := ⟨50, text "2026-01-03T10:20:30.5Z", by decide⟩
  body := text "The write races.\n<!-- pr-a<!-- pr-agent:objection-answer -->gent:objection-answer v=1 c=99 u=2026-01-02T00:00:00Z -->"

theorem answerDigest_hex : ("0123456789abcdef01234567".toList.all hexDigit) = true := by decide

theorem answerDigest_least : 24 ≤ utf16Length "0123456789abcdef01234567" := by decide

theorem answerDigest_most : utf16Length "0123456789abcdef01234567" ≤ 24 := by decide

def answerDigest : BoundedText hexDigit 24 24 := ⟨"0123456789abcdef01234567", answerDigest_hex, answerDigest_least, answerDigest_most⟩

-- The inner marker goes, and what stood around it is the answer to another objection.
theorem nested_marker_survives :
    commentCarriesObjectionAnswer
        (objectionAnswerBody id nestedDecision none true (operationIntentMarker answerDigest)) foreignRevision = true ∧
      foreignRevision ≠ nestedDecision.revision := by
  decide +kernel

end Example
end PrAgent.CommentMarkers
