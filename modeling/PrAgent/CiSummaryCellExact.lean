import PrAgent.CiSummaryCellText
set_option autoImplicit false

namespace PrAgent

section Claim

-- A head without blanks in which no comment opens.
structure HeadOk (head : Text) : Prop where
  nonempty : head ≠ []
  solid : ∀ c ∈ head, isSpace c = false
  noComment : NoComment head

-- An action phrase of which no part is markup of a comment or a replacement pattern.
structure PhraseOk (phrase : Text) : Prop where
  noComment : NoComment phrase
  literal : hasReplacementPattern phrase = false

-- One action marker, or a known phrase where there is no marker, has become the marked phrase.
def PhraseReplaced (phrase old new : Text) : Prop :=
  ∃ before former after, old = before ++ (former ++ after) ∧ new = before ++ (renderCiActionPhrase phrase ++ after) ∧
    (IsMarker .action former ∨ former ∈ knownReviewActionCiPhrases)

-- The phrase was replaced in the text before the cell, in the cell, or in the text after it.
def PhraseReplacedAt (phrase before cell after before' cell' after' : Text) : Prop :=
  (PhraseReplaced phrase before before' ∧ cell' = cell ∧ after' = after) ∨
    (before' = before ∧ PhraseReplaced phrase cell cell' ∧ after' = after) ∨
      (before' = before ∧ cell' = cell ∧ PhraseReplaced phrase after after')

-- The rendered cell with the texts around it, as they stood or with the phrase replaced.
def CellKept (options : CiProjectionBodyOptions) (before cell after before' cell' after' : Text) : Prop :=
  (before' = before ∧ cell' = cell ∧ after' = after) ∨
    ∃ phrase, options.actionPhrase = some phrase ∧ PhraseReplacedAt phrase before cell after before' cell' after'

-- The action markers beside the cell are closed on the same side of it.
def ActionsClosed (body : Text) : Prop :=
  ∀ found, exec .summary body = some found → ClosedIn .action found.before ∧ ClosedIn .action found.after

structure CellUpdate (body cell head : Text) (version : Int) (options : CiProjectionBodyOptions) : Prop where
  updated : ∀ body', applyCiProjectionBodyUpdate body cell head version options = some { body := body', kind := .updated } →
    parseCiSummaryMarker body' = some { head := some head, version, format := ciProjectionFormat } ∧
      ∃ found found', exec .summary body = some found ∧ exec .summary body' = some found' ∧
        body' = found'.before ++ (found'.matched ++ found'.after) ∧
        CellKept options found.before cell found.after found'.before found'.matched found'.after
  again : ∀ result, applyCiProjectionBodyUpdate body cell head version options = some result →
    applyCiProjectionBodyUpdate result.body cell head version options = some { body := result.body, kind := .current }
  older : ∀ marker, parseCiSummaryMarker body = some marker → marker.head = none ∨ marker.head = some head →
    version < marker.version → applyCiProjectionBodyUpdate body cell head version options = none

end Claim

section Source

variable {head phrase : Text} {version : Int} {summary : CiSummary}

def cellAttrs (head : Text) (version : Int) : List (Text × Text) :=
  [(text "head", head), (text "v", integerText version), (text "fmt", text "1")]

def phraseAttrs : List (Text × Text) := [(text "fmt", text "1")]

theorem integerText_solid (n : Int) : ∀ c ∈ integerText n, isSpace c = false ∧ c ≠ '<' := by
  have digit : ∀ {m : Nat} {c : Char}, c ∈ Nat.toDigits 10 m → isSpace c = false ∧ c ≠ '<' := by
    intro m c listed
    have digits := toDigits_isDigit listed
    have word : isWord c = true := by simp [isWord, Char.isAlphanum, digits]
    exact ⟨word_solid word, word_noAngle word⟩
  cases n with
  | ofNat n => exact fun c listed => digit listed
  | negSucc n =>
    intro c listed
    rcases List.mem_cons.mp listed with rfl | later
    · exact ⟨by decide, by decide⟩
    · exact digit later

theorem integerText_ne_nil (n : Int) : integerText n ≠ [] := by
  cases n with
  | ofNat n => exact Nat.toDigits_ne_nil
  | negSucc n => exact List.cons_ne_nil _ _

theorem cellAttrs_valid (ok : HeadOk head) (version : Int) : ∀ attr ∈ cellAttrs head version, ValidAttr attr := by
  intro attr listed
  simp only [cellAttrs, List.mem_cons, List.not_mem_nil, or_false] at listed
  rcases listed with rfl | rfl | rfl
  · exact ⟨show text "head" ≠ [] by decide, (@List.all_eq_true _ isWord (text "head")).mp (by decide), ok.nonempty, ok.solid⟩
  · exact ⟨show text "v" ≠ [] by decide, (@List.all_eq_true _ isWord (text "v")).mp (by decide), integerText_ne_nil version,
      fun c listed => (integerText_solid version c listed).1⟩
  · exact ⟨by decide, List.all_eq_true.mp (by decide), by decide, solid_of_all (by decide)⟩

theorem phraseAttrs_valid : ∀ attr ∈ phraseAttrs, ValidAttr attr := by
  intro attr listed
  obtain rfl : attr = (text "fmt", text "1") := by simpa [phraseAttrs] using listed
  exact ⟨by decide, List.all_eq_true.mp (by decide), by decide, solid_of_all (by decide)⟩

theorem cellAttrs_text (head : Text) (version : Int) : renderAttrs (cellAttrs head version) =
    text " head=" ++ (head ++ (text " v=" ++ (integerText version ++ text " fmt=1"))) := by
  have first : text " head=" = ' ' :: (text "head" ++ ['=']) := by decide
  have second : text " v=" = ' ' :: (text "v" ++ ['=']) := by decide
  have third : text " fmt=1" = ' ' :: (text "fmt" ++ ['='] ++ text "1") := by decide
  simp [renderAttrs, cellAttrs, first, second, third]

theorem renderCiSummaryCell_rendered (ok : HeadOk head) (version : Int) (summary : CiSummary) :
    renderCiSummaryCell summary (some head) (some version) =
      rendered .summary (renderAttrs (cellAttrs head version)) (renderCellText summary) := by
  have start : text "<!-- pr-agent:ci-summary head=" = text "<!-- " ++ (CiMarker.summary.name ++ text " head=") := by decide
  have stop : ciSummaryCellEnd = closingTag .summary := by decide
  have format : text " fmt=" ++ (integerText ciProjectionFormat ++ text " -->") = text " fmt=1" ++ text " -->" := by decide
  rw [renderCiSummaryCell, ciSummaryCellStart, if_neg ok.nonempty, cellAttrs_text, stop, start, rendered, openingTag]
  simp only [List.append_assoc]
  rw [← List.append_assoc (text " fmt="), ← List.append_assoc (text " fmt=" ++ _), List.append_assoc (text " fmt=") _ (text " -->"), format]
  simp

theorem renderCiActionPhrase_rendered (phrase : Text) :
    renderCiActionPhrase phrase = rendered .action (renderAttrs phraseAttrs) phrase := by
  have start : text "<!-- pr-agent:ci-action fmt=" ++ integerText ciProjectionFormat ++ text " -->" =
      openingTag .action (renderAttrs phraseAttrs) := by decide
  have stop : text "<!-- /pr-agent:ci-action -->" = closingTag .action := by decide
  rw [renderCiActionPhrase, start, stop, rendered, List.append_assoc]

theorem phrase_noComment (ok : PhraseOk phrase) : NoComment (renderAttrs phraseAttrs ++ (text " -->" ++ phrase)) :=
  noComment_append_left (by decide) (noComment_append_left (by decide) ok.noComment)

theorem cell_noComment (ok : HeadOk head) (version : Int) {content : Text} (none : NoComment content) :
    NoComment (renderAttrs (cellAttrs head version) ++ (text " -->" ++ content)) := by
  have rest : NoComment (text " v=" ++ (integerText version ++ text " fmt=1") ++ (text " -->" ++ content)) := by
    simp only [List.append_assoc]
    refine noComment_append_left (by decide) (noComment_append_left ?_ (noComment_append_left (by decide)
      (noComment_append_left (by decide) none)))
    exact fun listed => (integerText_solid version '<' listed).2 rfl
  rw [cellAttrs_text]
  simp only [List.append_assoc] at rest ⊢
  refine noComment_append_left (by decide) (noComment_append ok.noComment rest ?_)
  intro c here
  obtain rfl : ' ' = c := Option.some.inj here
  exact ⟨by decide, by decide⟩

theorem phrase_literal (ok : PhraseOk phrase) : hasReplacementPattern (renderCiActionPhrase phrase) = false := by
  have start : '$' ∉ text "<!-- pr-agent:ci-action fmt=" ++ integerText ciProjectionFormat ++ text " -->" := by decide
  rw [renderCiActionPhrase, List.append_assoc, replacementPattern_of_noDollar start]
  exact replacementPattern_append ok.literal (by decide) (by decide)

-- The attributes of a rendered cell are read back.
theorem parse_of_exec {body : Text} {found : BodyMatch} (ok : HeadOk head) (safe : version.natAbs ≤ maxSafe)
    (here : exec .summary body = some found) (attributes : found.attributes = renderAttrs (cellAttrs head version)) :
    parseCiSummaryMarker body = some { head := some head, version, format := ciProjectionFormat } := by
  have attrs : attrsFromMatch found.attributes = cellAttrs head version := by
    rw [attributes, attrsFromMatch_renderAttrs (cellAttrs_valid ok version)]
  have headOf : attrOf (cellAttrs head version) (text "head") = some head := by
    simp [attrOf, cellAttrs, show text "fmt" ≠ text "head" by decide, show text "v" ≠ text "head" by decide]
  have versionOf : attrOf (cellAttrs head version) (text "v") = some (integerText version) := by
    simp [attrOf, cellAttrs, show text "fmt" ≠ text "v" by decide]
  have formatOf : parseFormatAttr (cellAttrs head version) = ciProjectionFormat := by
    have one : safeNumber (text "1") = some 1 := safeNumber_integerText (n := 1) (by decide)
    have given : attrOf (cellAttrs head version) (text "fmt") = some (text "1") := by
      simp [attrOf, cellAttrs]
    simp [parseFormatAttr, given, one, ciProjectionFormat]
  rw [parseCiSummaryMarker, here, Option.map_some, attrs]
  simp only [headOf, versionOf, formatOf, Option.bind_some, safeNumber_integerText safe, Option.getD_some]

theorem phraseAttrs_format {attributes : Text} (same : attributes = renderAttrs phraseAttrs) :
    parseFormatAttr (attrsFromMatch attributes) = ciProjectionFormat := by
  have one : safeNumber (text "1") = some 1 := safeNumber_integerText (n := 1) (by decide)
  have given : attrOf phraseAttrs (text "fmt") = some (text "1") := by decide
  rw [same, attrsFromMatch_renderAttrs phraseAttrs_valid]
  simp [parseFormatAttr, given, one, ciProjectionFormat]

end Source

section Legacy

variable {body s t x y : Text}

theorem splitAtPhrase_eq {segment phrase before after : Text} (here : splitAtPhrase segment phrase = some (before, after)) :
    segment = before ++ (phrase ++ after) := by
  obtain ⟨rest, rfl, found, _⟩ := leftmost_eq_some_iff.mp here
  split at found
  · next starts =>
    obtain ⟨after', rfl⟩ := starts
    obtain rfl : after' = after := by simpa using found
    rfl
  · cases found

theorem firstNoteAlertBody_eq {note : BodySpan} (here : firstNoteAlertBody body = some note) :
    body = note.before ++ (note.inside ++ note.after) := by
  obtain ⟨⟨start, rest⟩, _, found⟩ := Option.bind_eq_some_iff.mp here
  by_cases none : quotedLines rest = []
  · simp only [if_pos none] at found
    cases found
  · simp only [if_neg none] at found
    obtain rfl := Option.some.inj found
    simp

-- A legacy phrase is one of the known ones, with the texts around it.
theorem legacySpan_eq {legacy : BodySpan} (here : legacyActionCiPhraseSpan body = some legacy) :
    body = legacy.before ++ (legacy.inside ++ legacy.after) ∧ legacy.inside ∈ knownReviewActionCiPhrases := by
  obtain ⟨note, alert, found⟩ := Option.bind_eq_some_iff.mp here
  obtain ⟨phrase, known, found⟩ := List.exists_of_findSome?_eq_some found
  obtain ⟨⟨before, after⟩, split, rfl⟩ := Option.map_eq_some_iff.mp found
  refine ⟨?_, known⟩
  rw [firstNoteAlertBody_eq alert, splitAtPhrase_eq split]
  simp

-- What may follow a blank inside of a tag.
def tagSpaces : Text → Bool
  | [] => true
  | c :: rest =>
    (c ≠ ' ' || [text "pr", text "/p", text "he", text "v=", text "fm", text "--"].contains (rest.take 2)) && tagSpaces rest

theorem tagSpaces_right (spaced : tagSpaces (x ++ y) = true) : tagSpaces y = true := by
  induction x with
  | nil => exact spaced
  | cons c x ih =>
    simp only [List.cons_append, tagSpaces, Bool.and_eq_true] at spaced
    exact ih spaced.2

theorem tagSpaces_solid (solid : ∀ c ∈ x, isSpace c = false) : tagSpaces (x ++ y) = tagSpaces y := by
  induction x with
  | nil => rfl
  | cons c x ih =>
    have other : c ≠ ' ' := by
      rintro rfl
      exact absurd (solid ' ' List.mem_cons_self) (by decide)
    rw [List.cons_append, tagSpaces, ih fun d listed => solid d (List.mem_cons_of_mem _ listed)]
    simp [other]

theorem known_plain {phrase : Text} (known : phrase ∈ knownReviewActionCiPhrases) :
    '<' ∉ phrase ∧ '>' ∉ phrase ∧ ∀ rest, tagSpaces (phrase ++ rest) = false := by
  simp only [knownReviewActionCiPhrases, List.mem_cons, List.not_mem_nil, or_false] at known
  rcases known with rfl | rfl | rfl | rfl | rfl | rfl
  all_goals exact ⟨by decide, by decide, fun rest => rfl⟩

theorem known_nonempty {phrase : Text} (known : phrase ∈ knownReviewActionCiPhrases) : phrase ≠ [] := by
  rintro rfl
  exact absurd known (by decide)

-- No known phrase stands in the tags of a rendered cell.
theorem known_not_in_tag {phrase l r : Text} (known : phrase ∈ knownReviewActionCiPhrases) (spaced : tagSpaces t = true) :
    t ≠ l ++ (phrase ++ r) := by
  rintro rfl
  have wrong := (known_plain known).2.2 r
  rw [tagSpaces_right spaced] at wrong
  cases wrong

theorem closingTag_spaces : tagSpaces (closingTag .summary) = true := by decide

theorem openingTag_spaces {head : Text} (ok : HeadOk head) (version : Int) :
    tagSpaces (openingTag .summary (renderAttrs (cellAttrs head version))) = true := by
  have tail : tagSpaces (integerText version ++ (text " fmt=1" ++ text " -->")) = true := by
    rw [tagSpaces_solid fun c listed => (integerText_solid version c listed).1]
    decide
  have version' : tagSpaces (text " v=" ++ (integerText version ++ (text " fmt=1" ++ text " -->"))) = true := tail
  have head' : tagSpaces (head ++ (text " v=" ++ (integerText version ++ (text " fmt=1" ++ text " -->")))) = true := by
    rw [tagSpaces_solid ok.solid]
    exact version'
  have whole : openingTag .summary (renderAttrs (cellAttrs head version)) =
      text "<!-- pr-agent:ci-summary head=" ++ (head ++ (text " v=" ++ (integerText version ++ (text " fmt=1" ++ text " -->")))) := by
    have start : text "<!-- pr-agent:ci-summary head=" = text "<!-- " ++ (CiMarker.summary.name ++ text " head=") := by decide
    rw [openingTag, cellAttrs_text, start]
    simp
  rw [whole]
  exact head'

theorem openingTag_angles (marker : CiMarker) (attributes : Text) : ∃ o, openingTag marker attributes = '<' :: (o ++ ['>']) := by
  have start : text "<!-- " = '<' :: text "!-- " := by decide
  have stop : text " -->" = text " --" ++ ['>'] := by decide
  exact ⟨text "!-- " ++ (marker.name ++ (attributes ++ text " --")), by simp [openingTag, start, stop]⟩

theorem closingTag_angles (marker : CiMarker) : ∃ o, closingTag marker = '<' :: (o ++ ['>']) := by
  have start : text "<!-- /" = '<' :: text "!-- /" := by decide
  have stop : text " -->" = text " --" ++ ['>'] := by decide
  exact ⟨text "!-- /" ++ (marker.name ++ text " --"), by simp [closingTag, start, stop]⟩

-- A known phrase lies beside a tag.
theorem known_beside_tag {phrase l r tag : Text} (known : phrase ∈ knownReviewActionCiPhrases) (spaced : tagSpaces tag = true)
    (angles : ∃ o, tag = '<' :: (o ++ ['>'])) (split : x ++ (tag ++ y) = l ++ (phrase ++ r)) :
    (∃ c, x = l ++ (phrase ++ c) ∧ r = c ++ (tag ++ y)) ∨ ∃ l', l = x ++ (tag ++ l') ∧ y = l' ++ (phrase ++ r) := by
  obtain ⟨o, rfl⟩ := angles
  obtain ⟨noOpen, noClose, _⟩ := known_plain known
  obtain ⟨d, phrase', start⟩ : ∃ d phrase', phrase = d :: phrase' := List.exists_cons_of_ne_nil (known_nonempty known)
  rcases split_around noOpen split with ⟨c, before, after⟩ | ⟨l', rfl, inside⟩
  · exact .inl ⟨c, before, after⟩
  · right
    have inside : ('<' :: o) ++ '>' :: y = l' ++ (phrase ++ r) := by
      rw [← inside]
      simp
    rcases split_around noClose inside with ⟨c, wrong, _⟩ | ⟨l'', rfl, beyond⟩
    · have whole : '<' :: (o ++ ['>']) = l' ++ (phrase ++ (c ++ ['>'])) := by
        rw [← List.cons_append, wrong]
        simp
      exact absurd whole (known_not_in_tag known spaced)
    · cases l'' with
      | nil =>
        rw [start] at beyond noClose
        obtain ⟨rfl, _⟩ := List.cons.inj beyond
        exact absurd List.mem_cons_self noClose
      | cons d l'' =>
        obtain ⟨rfl, rest⟩ := List.cons.inj beyond
        exact ⟨l'', by simp, rest⟩

end Legacy

section Phrase

variable {attrs : List (Text × Text)} {phrase content u z before former after : Text}

-- A text with one cell, in which a phrase can be replaced.
structure CellText (attrs : List (Text × Text)) (u content z : Text) : Prop where
  valid : ∀ attr ∈ attrs, ValidAttr attr
  noComment : NoComment (renderAttrs attrs ++ (text " -->" ++ content))
  spaced : tagSpaces (openingTag .summary (renderAttrs attrs)) = true
  unopened : NoOpen .summary u
  closedBefore : ClosedIn .action u
  closedAfter : ClosedIn .action z

def CellText.whole (_ : CellText attrs u content z) : Text :=
  u ++ (rendered .summary (renderAttrs attrs) content ++ z)

-- A cell with the attributes that is found in the text `new`.
structure CellFound (attrs : List (Text × Text)) (new u cell z : Text) : Prop where
  whole : new = u ++ (cell ++ z)
  found : exec .summary new = some { before := u, matched := cell, attributes := renderAttrs attrs, after := z }

theorem cellText_noComment (cell : CellText attrs u content z) : NoComment content := cell.noComment.right.right

theorem closingTag_angle (marker : CiMarker) : ∃ o, closingTag marker = '<' :: o := (edge_closing marker).angle

theorem cellFound_rendered (cell : CellText attrs u content z) {u' z' : Text} (unopened : NoOpen .summary u') :
    CellFound attrs (u' ++ (rendered .summary (renderAttrs attrs) content ++ z')) u'
      (rendered .summary (renderAttrs attrs) content) z' := by
  obtain ⟨o, closing⟩ := closingTag_angle .summary
  refine ⟨rfl, exec_rendered unopened cell.valid ?_⟩
  rw [closing]
  exact noEndIn_of_noComment (cellText_noComment cell) _

theorem noOpen_replaced (ok : PhraseOk phrase) (none : NoOpen .summary (before ++ (former ++ after))) :
    NoOpen .summary (before ++ (renderCiActionPhrase phrase ++ after)) := by
  rw [renderCiActionPhrase_rendered]
  exact noOpen_append (edge_rendered _ _ _ _) none.left (noOpen_rendered (by decide) (phrase_noComment ok) none.right.right)

-- The marked phrase is found where nothing opens before it.
theorem exec_action_replaced (ok : PhraseOk phrase) (none : NoOpen .action before) :
    ∃ found, exec .action (before ++ (renderCiActionPhrase phrase ++ after)) = some found ∧
      found.attributes = renderAttrs phraseAttrs := by
  obtain ⟨o, closing⟩ := closingTag_angle .action
  rw [renderCiActionPhrase_rendered, exec_rendered none phraseAttrs_valid]
  · exact ⟨_, rfl, rfl⟩
  · rw [closing]
    exact noEndIn_of_noComment ok.noComment _

-- Where no action marker is found, none opens.
theorem noOpen_of_unfound (cell : CellText attrs u content z) (fails : exec .action cell.whole = none) : NoOpen .action cell.whole := by
  intro y opens
  have unclosed := exec_eq_none fails y opens
  rcases opensIn_edge (edge_rendered _ _ _ _) opens with ⟨u', opened, rfl⟩ | opened
  · exact unclosed ((cell.closedBefore u' opened).append _)
  · exact unclosed (cell.closedAfter y (opensIn_rendered (by decide) cell.noComment opened))

-- What replacing the phrase does to a text with one cell.
structure PhraseUpdate (attrs : List (Text × Text)) (phrase u cell z new : Text) : Prop where
  cellKept : ∃ u' cell' z', CellFound attrs new u' cell' z' ∧ PhraseReplacedAt phrase u cell z u' cell' z'
  marked : ∃ found, exec .action new = some found ∧ found.attributes = renderAttrs phraseAttrs

theorem phraseUpdate_before (cell : CellText attrs u content z) (ok : PhraseOk phrase) (split : u = before ++ (former ++ after))
    (unopened : NoOpen .action before) (replaced : IsMarker .action former ∨ former ∈ knownReviewActionCiPhrases) :
    PhraseUpdate attrs phrase u (rendered .summary (renderAttrs attrs) content) z
      (before ++ (renderCiActionPhrase phrase ++ (after ++ (rendered .summary (renderAttrs attrs) content ++ z)))) := by
  refine ⟨?_, exec_action_replaced ok unopened⟩
  have kept : CellFound attrs _ _ _ z := cellFound_rendered cell (noOpen_replaced ok (split ▸ cell.unopened))
  refine ⟨before ++ (renderCiActionPhrase phrase ++ after), _, z, ?_, .inl ⟨⟨before, former, after, split, rfl, replaced⟩, rfl, rfl⟩⟩
  simpa using kept

theorem phraseUpdate_after (cell : CellText attrs u content z) (ok : PhraseOk phrase) (split : z = before ++ (former ++ after))
    (unopened : NoOpen .action (u ++ (rendered .summary (renderAttrs attrs) content ++ before)))
    (replaced : IsMarker .action former ∨ former ∈ knownReviewActionCiPhrases) :
    PhraseUpdate attrs phrase u (rendered .summary (renderAttrs attrs) content) z
      (u ++ (rendered .summary (renderAttrs attrs) content ++ before) ++ (renderCiActionPhrase phrase ++ after)) := by
  refine ⟨?_, exec_action_replaced ok unopened⟩
  have kept : CellFound attrs _ _ _ (before ++ (renderCiActionPhrase phrase ++ after)) := cellFound_rendered cell cell.unopened
  refine ⟨u, _, before ++ (renderCiActionPhrase phrase ++ after), ?_,
    .inr (.inr ⟨rfl, rfl, ⟨before, former, after, split, rfl, replaced⟩⟩)⟩
  simpa using kept

theorem phraseUpdate_inside (cell : CellText attrs u content z) (ok : PhraseOk phrase) (split : content = before ++ (former ++ after))
    (unopened : NoOpen .action (u ++ (openingTag .summary (renderAttrs attrs) ++ before)))
    (known : former ∈ knownReviewActionCiPhrases) :
    PhraseUpdate attrs phrase u (rendered .summary (renderAttrs attrs) content) z
      (u ++ (openingTag .summary (renderAttrs attrs) ++ before) ++ (renderCiActionPhrase phrase ++ (after ++ (closingTag .summary ++ z)))) := by
  refine ⟨?_, exec_action_replaced ok unopened⟩
  obtain ⟨o, closing⟩ := closingTag_angle .summary
  have none := cellText_noComment cell
  rw [split] at none
  have unended : NoEndIn .summary (before ++ (renderCiActionPhrase phrase ++ after)) (closingTag .summary ++ z) := by
    rw [closing, renderCiActionPhrase_rendered]
    exact noEndIn_rendered (by decide) (phrase_noComment ok) none.left none.right.right _
  have found := exec_rendered cell.unopened cell.valid unended
  have same : u ++ (openingTag .summary (renderAttrs attrs) ++ before) ++
      (renderCiActionPhrase phrase ++ (after ++ (closingTag .summary ++ z))) =
      u ++ (rendered .summary (renderAttrs attrs) (before ++ (renderCiActionPhrase phrase ++ after)) ++ z) := by
    simp [rendered]
  refine ⟨u, rendered .summary (renderAttrs attrs) (before ++ (renderCiActionPhrase phrase ++ after)), z, ⟨same, same ▸ found⟩,
    .inr (.inl ⟨rfl, ?_, rfl⟩)⟩
  refine ⟨openingTag .summary (renderAttrs attrs) ++ before, former, after ++ closingTag .summary, ?_, ?_, .inr known⟩
  · simp [rendered, split]
  · simp [rendered]

theorem replaceMarker_action (ok : PhraseOk phrase) {body : Text} {found : BodyMatch} (here : exec .action body = some found) :
    replaceMarker .action body (renderCiActionPhrase phrase) = found.before ++ (renderCiActionPhrase phrase ++ found.after) := by
  rw [replaceMarker, here]
  simp only [getSubstitution_literal found (phrase_literal ok), List.append_assoc]

theorem replaceActionPhrase_marker (cell : CellText attrs u content z) (ok : PhraseOk phrase) {found : BodyMatch}
    (here : exec .action cell.whole = some found) :
    PhraseUpdate attrs phrase u (rendered .summary (renderAttrs attrs) content) z (replaceActionPhrase cell.whole phrase) := by
  have unopened := exec_noOpen here
  have result : replaceActionPhrase cell.whole phrase = found.before ++ (renderCiActionPhrase phrase ++ found.after) := by
    rw [replaceActionPhrase, here, if_pos Option.isSome_some, replaceMarker_action ok here]
  rw [result]
  rcases exec_within (edge_rendered _ _ _ _) cell.closedBefore here with ⟨old, c, marker, split, after⟩ | ⟨b, rest, before, split, at_rest⟩
  · rw [after]
    exact phraseUpdate_before cell ok split unopened (.inl marker)
  · obtain ⟨tag, inner, matched, around, _⟩ := markerAt_eq_some at_rest
    obtain ⟨x', rfl, past⟩ := tag_past_rendered (by decide) cell.noComment matched (split.trans (by rw [around]))
    obtain ⟨old, marker, ended⟩ := markerAt_isMarker at_rest
    rw [before] at unopened ⊢
    refine phraseUpdate_after cell ok ?_ unopened (.inl marker)
    rw [past, ← around, ended]

theorem replaceActionPhrase_legacy (cell : CellText attrs u content z) (ok : PhraseOk phrase) {legacy : BodySpan}
    (fails : exec .action cell.whole = none) (here : legacyActionCiPhraseSpan cell.whole = some legacy) :
    PhraseUpdate attrs phrase u (rendered .summary (renderAttrs attrs) content) z (replaceActionPhrase cell.whole phrase) := by
  obtain ⟨split, known⟩ := legacySpan_eq here
  have result : replaceActionPhrase cell.whole phrase = legacy.before ++ (renderCiActionPhrase phrase ++ legacy.after) := by
    rw [replaceActionPhrase, fails, here]
    simp
  have unopened : NoOpen .action legacy.before := (split ▸ noOpen_of_unfound cell fails).left
  have around : u ++ (openingTag .summary (renderAttrs attrs) ++ (content ++ (closingTag .summary ++ z))) =
      legacy.before ++ (legacy.inside ++ legacy.after) := by
    rw [← split, CellText.whole, rendered]
    simp
  rw [result]
  rcases known_beside_tag known cell.spaced (openingTag_angles _ _) around with ⟨c, before, after⟩ | ⟨l, before, inside⟩
  · have kept := phraseUpdate_before cell ok before unopened (.inr known)
    rw [after]
    simpa [rendered] using kept
  · rw [before] at unopened ⊢
    rcases known_beside_tag known closingTag_spaces (closingTag_angles _) inside with ⟨c, inContent, after⟩ | ⟨l', rfl, inRest⟩
    · rw [after]
      exact phraseUpdate_inside cell ok inContent unopened known
    · have same : u ++ (openingTag .summary (renderAttrs attrs) ++ (content ++ (closingTag .summary ++ l'))) =
          u ++ (rendered .summary (renderAttrs attrs) content ++ l') := by
        simp [rendered]
      rw [same] at unopened ⊢
      exact phraseUpdate_after cell ok inRest unopened (.inr known)

end Phrase
end PrAgent
