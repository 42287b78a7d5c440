import PrAgent.InlineThreadText
set_option autoImplicit false

namespace PrAgent.CommentMarkers

section Marker

def markerValues (marker : FindingMarker) : List Text :=
  [markerVersion, marker.id.value, sourceText marker.lens, severityText marker.severity]

theorem markerValues_solid (marker : FindingMarker) :
    ∀ value ∈ markerValues marker, value ≠ [] ∧ ∀ c ∈ value, isSolid c = true := by
  intro value listed
  simp only [markerValues, List.mem_cons, List.not_mem_nil, or_false] at listed
  rcases listed with rfl | rfl | rfl | rfl
  · exact ⟨by decide, List.all_eq_true.mp (by decide)⟩
  · exact findingId_solid _
  · exact sourceText_solid _
  · exact severityText_solid _

theorem renderedMarker_text (marker : FindingMarker) :
    renderFindingMarker marker =
      Labelled.text (markerLabels.zip (markerValues marker)) (renderReopens marker.reopens ++ (text " -->" ++ [])) := by
  simp only [renderFindingMarker, markerLabels, markerValues, List.zip_cons_cons, List.zip_nil_right, Labelled.text,
    List.foldr_cons, List.foldr_nil, List.append_nil]

theorem findingMarkerAt_rendered (marker : FindingMarker) :
    findingMarkerAt (renderFindingMarker marker) = some ⟨markerValues marker, marker.reopens.map FindingId.value⟩ := by
  obtain ⟨rest, blank⟩ := reopens_tail marker.reopens []
  have size : markerLabels.length = (markerValues marker).length := rfl
  have firsts : (markerLabels.zip (markerValues marker)).map Prod.fst = markerLabels := List.map_fst_zip (by omega)
  have seconds : (markerLabels.zip (markerValues marker)).map Prod.snd = markerValues marker := List.map_snd_zip (by omega)
  have fits : Labelled.Fits (markerLabels.zip (markerValues marker)) := by
    constructor
    · have labels : ∀ label ∈ markerLabels.drop 1, label.head? = some ' ' := by decide
      intro field listed
      have inside : field ∈ (markerLabels.drop 1).zip ((markerValues marker).drop 1) := listed
      exact labels _ (List.of_mem_zip inside).1
    · intro field listed
      exact markerValues_solid marker _ (List.of_mem_zip listed).2
  have solid (values : List Text) (c : Char) (after : Text) (here : isSolid c = true) :
      optionalAt reopensLabel (fun reference => atLineEnd (RawFields.mk values reference)) (c :: after) = none :=
    optional_solid (by decide) c after here
  have reading := fields_read solid _ fits [] rest
  rw [firsts, seconds, List.nil_append, ← blank, reference_read marker.reopens [] ⟨_, rfl⟩] at reading
  rw [renderedMarker_text]
  exact reading

end Marker

section Inner

-- What stands in a marker behind its first character.
def isInner (c : Char) : Bool := c ≠ '<' && !isLineTerminator c

theorem solid_inner {c : Char} (solid : isSolid c = true) (other : c ≠ '<') : isInner c = true := by
  have ends : isLineTerminator c = true → isSpace c = true := by
    intro terminator
    simp only [isLineTerminator, List.contains_cons, List.contains_nil, Bool.or_false, Bool.or_eq_true, beq_iff_eq] at terminator
    rcases terminator with code | code | code | code
    · rw [isSpace, code]; decide
    · rw [isSpace, code]; decide
    · rw [isSpace, code]; decide
    · rw [isSpace, code]; decide
  rw [isSolid, Bool.not_eq_true'] at solid
  rw [isInner, Bool.and_eq_true, decide_eq_true_iff, Bool.not_eq_true', ← Bool.not_eq_true]
  refine ⟨other, fun terminator => ?_⟩
  rw [ends terminator] at solid
  cases solid

theorem inner_of_all {t : Text} (all : t.all isInner = true) : ∀ c ∈ t, isInner c = true := List.all_eq_true.mp all

theorem idChar_inner {c : Char} (idChar : isIdChar c = true) : isInner c = true := by
  apply solid_inner (idChar_solid idChar)
  rintro rfl
  exact absurd idChar (by decide)

theorem findingId_inner (id : FindingId) : ∀ c ∈ id.value, isInner c = true := by
  have formed := id.wellFormed
  rw [isFindingId, Bool.and_eq_true, Bool.and_eq_true, Bool.or_eq_true, decide_eq_true_iff, decide_eq_true_iff,
    decide_eq_true_iff] at formed
  obtain ⟨⟨starts, _⟩, chars⟩ := formed
  obtain ⟨start, rest, split, size, inner⟩ :
      ∃ start rest, id.value = start ++ rest ∧ start.length = 2 ∧ start.all isInner = true := by
    rcases starts with ⟨rest, split⟩ | ⟨rest, split⟩
    · exact ⟨_, rest, split.symm, by decide, by decide⟩
    · exact ⟨_, rest, split.symm, by decide, by decide⟩
  intro c listed
  rw [split, List.drop_left' size] at chars
  rw [split] at listed
  rcases List.mem_append.mp listed with here | later
  · exact inner_of_all inner c here
  · exact idChar_inner (List.all_eq_true.mp chars c later)

theorem sourceText_inner (source : FindingSource) : ∀ c ∈ sourceText source, isInner c = true := by
  have all : ∀ source ∈ findingSources, (sourceText source).all isInner = true := by decide
  have listed : source ∈ findingSources := by
    cases source with
    | review => decide
    | specialist id => cases id <;> decide
  exact inner_of_all (all source listed)

theorem severityText_inner (severity : FindingSeverity) : ∀ c ∈ severityText severity, isInner c = true := by
  cases severity <;> exact inner_of_all (by decide)

theorem encoded_inner (value : Text) : ∀ c ∈ encodeURIComponent value, isInner c = true := by
  intro c listed
  have encoded := encodeURIComponent_encoded listed
  apply solid_inner
  · rw [isSolid, encoded_solid encoded]
    rfl
  · rintro rfl
    exact encoded_noAngle listed

theorem lineText_inner (line : Option Nat) : ∀ c ∈ lineText line, isInner c = true := by
  cases line with
  | none => exact inner_of_all (by decide)
  | some n =>
      intro c listed
      apply solid_inner ((lineText_solid (some n)).2 c listed)
      rintro rfl
      exact absurd (toDigits_isDigit listed) (by decide)

theorem close_inner (reopens : Option FindingId) (tail : Text) (last : ∀ c ∈ tail, isInner c = true) :
    ∀ c ∈ renderReopens reopens ++ (text " -->" ++ tail), isInner c = true := by
  intro c listed
  rcases List.mem_append.mp listed with reference | closing
  · cases reopens with
    | none => cases reference
    | some id =>
        rcases List.mem_append.mp reference with label | value
        · exact inner_of_all (by decide) c label
        · exact findingId_inner id c value
  · rcases List.mem_append.mp closing with close | later
    · exact inner_of_all (by decide) c close
    · exact last c later

theorem labelled_inner {fields : Labelled} {rest : Text} (fits : ∀ field ∈ fields, ∀ c ∈ field.1 ++ field.2, isInner c = true)
    (tail : ∀ c ∈ rest, isInner c = true) : ∀ c ∈ fields.text rest, isInner c = true := by
  induction fields with
  | nil => exact tail
  | cons field fields ih =>
      intro c listed
      have here := fits field List.mem_cons_self
      rcases List.mem_append.mp listed with label | listed
      · exact here c (List.mem_append_left _ label)
      · rcases List.mem_append.mp listed with value | later
        · exact here c (List.mem_append_right _ value)
        · exact ih (fun other inside => fits other (List.mem_cons_of_mem _ inside)) c later

theorem opened_inner {label value : Text} {labels values : List Text} {rest : Text}
    (labelled : ∀ other ∈ label :: labels, ∀ c ∈ other, isInner c = true)
    (valued : ∀ other ∈ value :: values, ∀ c ∈ other, isInner c = true) (tail : ∀ c ∈ rest, isInner c = true) :
    ∃ u, Labelled.text ((('<' :: label) :: labels).zip (value :: values)) rest = '<' :: u ∧ ∀ c ∈ u, isInner c = true := by
  refine ⟨Labelled.text ((label :: labels).zip (value :: values)) rest, rfl, ?_⟩
  apply labelled_inner _ tail
  intro field listed c inside
  obtain ⟨isLabel, isValue⟩ := List.of_mem_zip (a := field.1) (b := field.2) listed
  rcases List.mem_append.mp inside with inLabel | inValue
  · exact labelled _ isLabel c inLabel
  · exact valued _ isValue c inValue

theorem renderFindingMarker_inner (marker : FindingMarker) :
    ∃ u, renderFindingMarker marker = '<' :: u ∧ ∀ c ∈ u, isInner c = true := by
  have labels : markerLabels = ('<' :: text "!-- pr-agent:finding v=") :: markerLabels.drop 1 := by decide
  have plain : (text "!-- pr-agent:finding v=" :: markerLabels.drop 1).all (fun label => label.all isInner) = true := by decide
  rw [renderedMarker_text, labels, markerValues]
  apply opened_inner
  · exact fun label listed => inner_of_all (List.all_eq_true.mp plain label listed)
  · intro value listed
    simp only [List.mem_cons, List.not_mem_nil, or_false] at listed
    rcases listed with rfl | rfl | rfl | rfl
    · exact inner_of_all (by decide)
    · exact findingId_inner _
    · exact sourceText_inner _
    · exact severityText_inner _
  · exact close_inner _ _ fun c absent => absurd absent List.not_mem_nil

theorem renderFindingRowMarker_inner (row : FindingRowMarker) :
    ∃ u, renderFindingRowMarker row = '<' :: u ∧ ∀ c ∈ u, isInner c = true := by
  have labels : rowLabels = ('<' :: text "!-- pr-agent:finding-row v=") :: rowLabels.drop 1 := by decide
  have plain : (text "!-- pr-agent:finding-row v=" :: rowLabels.drop 1).all (fun label => label.all isInner) = true := by decide
  have whole := renderedRow_text row []
  rw [List.append_nil] at whole
  rw [whole, labels, rowValues]
  apply opened_inner
  · exact fun label listed => inner_of_all (List.all_eq_true.mp plain label listed)
  · intro value listed
    simp only [List.mem_cons, List.not_mem_nil, or_false] at listed
    rcases listed with rfl | rfl | rfl | rfl | rfl | rfl | rfl
    · exact inner_of_all (by decide)
    · exact findingId_inner _
    · exact sourceText_inner _
    · exact severityText_inner _
    · exact encoded_inner _
    · exact lineText_inner _
    · exact encoded_inner _
  · exact close_inner _ _ fun c absent => absurd absent List.not_mem_nil

theorem inner_noAngle {u : Text} (inner : ∀ c ∈ u, isInner c = true) : '<' ∉ u := fun listed =>
  absurd (inner '<' listed) (by decide)

end Inner

section Bodies

variable {marker : FindingMarker} {start : Text}

theorem threadBody_text (finding : ThreadFinding) (ctx : RenderContext) (identity : ThreadIdentity) (boundPaths : List Text) :
    ∃ s, renderInlineThreadBody finding ctx identity boundPaths =
      neutralizeControlMarkers s ++ '\n' :: '\n' :: renderFindingMarker (threadMarker finding identity) :=
  ⟨joinLines (threadLines finding ctx identity boundPaths), by
    simp [renderInlineThreadBody, joinLines, List.intercalate, text]⟩

-- An opening that is not the marker's own stands nowhere in the body of a thread.
theorem threadBody_quiet (control : ControlOpen start) (other : Pattern.differs start markerOpen = true) (s : Text) :
    ¬start <:+: neutralizeControlMarkers s ++ '\n' :: '\n' :: renderFindingMarker marker := by
  intro inside
  rcases infix_across control.oneLine inside with before | inside
  · exact neutralized_no_open control s before
  · have inside' : start <:+: [] ++ '\n' :: renderFindingMarker marker := inside
    rcases infix_across control.oneLine inside' with before | inside
    · obtain ⟨rest, angle⟩ := opens_angle control.opens
      rw [List.infix_nil.mp before] at angle
      cases angle
    · obtain ⟨u, shape, inner⟩ := renderFindingMarker_inner marker
      rw [shape] at inside
      obtain ⟨rest, split⟩ := infix_angle control (inner_noAngle inner) inside
      rw [← shape] at split
      have reads : (Pattern.literal start).skip some (renderFindingMarker marker) = some rest := by
        rw [← split, Pattern.skip_literal]
      rw [renderFindingMarker, show text "<!-- pr-agent:finding v=" = markerOpen from rfl,
        Pattern.skip_literal_differs other] at reads
      cases reads

theorem threadBody_marker (s : Text) :
    (bodyLines (neutralizeControlMarkers s ++ '\n' :: '\n' :: renderFindingMarker marker)).filterMap findingMarkerAt =
      [⟨markerValues marker, marker.reopens.map FindingId.value⟩] := by
  obtain ⟨u, shape, inner⟩ := renderFindingMarker_inner marker
  have plain : ∀ c ∈ renderFindingMarker marker, isLineTerminator c = false := by
    intro c listed
    rw [shape] at listed
    rcases List.mem_cons.mp listed with rfl | later
    · decide
    · have inside := inner c later
      rw [isInner, Bool.and_eq_true, Bool.not_eq_true'] at inside
      exact inside.2
  have blank : findingMarkerAt [] = none := by decide
  rw [bodyLines_pair plain, List.filterMap_append, no_lines marker_opens (neutralized_no_open markerOpen_control s),
    List.nil_append, List.filterMap_cons, blank, List.filterMap_cons, findingMarkerAt_rendered]
  rfl

theorem own_author (botLogin : String) : isBotAuthor (some botLogin) botLogin = true := by simp [isBotAuthor]

theorem inlineThread_exact (finding : ThreadFinding) (ctx : RenderContext) (identity : ThreadIdentity)
    (boundPaths : List Text) (botLogin : String) :
    parseOwnedFindingMarker ⟨renderInlineThreadBody finding ctx identity boundPaths, some botLogin⟩ true botLogin =
        some (threadMarker finding identity) ∧
      findingRows (renderInlineThreadBody finding ctx identity boundPaths) = [] ∧
      parseOwnedReceipts [⟨renderInlineThreadBody finding ctx identity boundPaths, some botLogin⟩] botLogin = [] := by
  obtain ⟨s, body⟩ := threadBody_text finding ctx identity boundPaths
  rw [body]
  refine ⟨?_, no_rows (threadBody_quiet rowOpen_control (by decide) s),
    no_receipts (threadBody_quiet receiptOpen_control (by decide) s) _ _⟩
  simp only [parseOwnedFindingMarker, own_author, threadBody_marker, markerValues]
  exact markerFields_read _

theorem cellParts_tags (placement : SummaryPlacement) (ctx : RenderContext) (compact : Bool) :
    ∀ part ∈ cellParts placement ctx compact, tagsOnly part = true := by
  intro part listed
  have code (value : Text) : tagsOnly (renderTableCode value) = true :=
    tagsOnly_append (tagsOnly_append (by decide) (escaped_tags value)) (by decide)
  simp only [cellParts, List.mem_append, List.mem_cons, List.not_mem_nil, or_false] at listed
  rcases listed with ((rfl | rfl) | detail) | rfl
  · exact renderTableLink_tags _ _
  · exact tagsOnly_append (tagsOnly_append (tagsOnly_append (tagsOnly_append (tagsOnly_append (tagsOnly_append (by decide)
      (escaped_tags _)) (by decide)) (code _)) (by decide)) (escaped_tags _)) (by decide)
  · by_cases shown : (!placement.inlinePosted && !compact) = true
    · rw [if_pos shown, List.mem_singleton] at detail
      rw [detail]
      exact escaped_tags _
    · rw [if_neg shown] at detail
      cases detail
  · exact renderTableEm_tags _

-- An opening that is not a row's stands nowhere in a cell.
theorem cell_quiet (control : ControlOpen start) (other : Pattern.differs start rowOpen = true) (placement : SummaryPlacement)
    (ctx : RenderContext) (compact : Bool) : ¬start <:+: renderFindingTableCellHtml placement ctx compact := by
  have separator : tagsOnly (text "<br>") = true := by decide
  have tags := tagsOnly_intercalate separator (cellParts_tags placement ctx compact)
  intro inside
  rw [renderFindingTableCellHtml] at inside
  cases marked : placement.findingRow with
  | none =>
      rw [marked, Option.elim, List.append_nil] at inside
      obtain ⟨gap, rest, _, opens⟩ := opens_iff.mp control.opens
      rw [opens] at inside
      exact noComment_of_tagsOnly tags ((List.prefix_append _ _).isInfix.trans inside)
  | some row =>
      obtain ⟨u, shape, inner⟩ := renderFindingRowMarker_inner row
      rw [marked, Option.elim, shape] at inside
      obtain ⟨rest, split⟩ := infix_tags control tags (inner_noAngle inner) inside
      rw [← shape] at split
      have reads : (Pattern.literal start).skip some (renderFindingRowMarker row) = some rest := by
        rw [← split, Pattern.skip_literal]
      rw [renderFindingRowMarker, show text "<!-- pr-agent:finding-row v=" = rowOpen from rfl,
        Pattern.skip_literal_differs other] at reads
      cases reads

theorem cell_rows (placement : SummaryPlacement) (row : Option RenderedRow) (ctx : RenderContext) (compact : Bool) :
    findingRows (renderFindingTableCellHtml { placement with findingRow := row.map RenderedRow.toFindingRowMarker } ctx compact) =
      (row.map RenderedRow.toFindingRowMarker).toList := by
  have separator : tagsOnly (text "<br>") = true := by decide
  have tags := tagsOnly_intercalate separator (cellParts_tags placement ctx compact)
  have opening : rowOpen = text "<!--" ++ text " pr-agent:finding-row v=" := by decide
  have quiet : ¬rowOpen <:+: (text "<br>").intercalate (cellParts placement ctx compact) := by
    intro inside
    rw [opening] at inside
    exact noComment_of_tagsOnly tags ((List.prefix_append _ _).isInfix.trans inside)
  cases row with
  | none =>
      rw [renderFindingTableCellHtml, Option.map, Option.elim, List.append_nil]
      exact no_rows quiet
  | some row =>
      have body := findingRows_body [((text "<br>").intercalate (cellParts placement ctx compact), row)] []
      have last : findingRows [] = [] := by decide
      simp only [List.flatMap_cons, List.flatMap_nil, no_rows quiet, last, List.append_nil, List.nil_append] at body
      have parts : cellParts { placement with findingRow := some row.toFindingRowMarker } ctx compact =
        cellParts placement ctx compact := rfl
      rw [renderFindingTableCellHtml, Option.map, Option.elim, parts]
      simpa [rowsBody] using body

end Bodies

section Exact

-- A body reads back exactly the rows rendered in it if and only if no text around them quotes a row. A thread body and a
-- table cell read back exactly their own marker, whatever the titles and descriptions are.
theorem finding_rows_exact_iff (botLogin : String) :
    (∀ (parts : List (Text × RenderedRow)) (tail : Text),
      parseOwnedFindingRows ⟨rowsBody parts tail, some botLogin⟩ botLogin =
          parts.map (fun part => part.2.toFindingRowMarker) ↔
        (∀ part ∈ parts, ¬QuotesRow part.1) ∧ ¬QuotesRow tail) ∧
    (∀ (finding : ThreadFinding) (ctx : RenderContext) (identity : ThreadIdentity) (boundPaths : List Text),
      parseOwnedFindingMarker ⟨renderInlineThreadBody finding ctx identity boundPaths, some botLogin⟩ true botLogin =
          some (threadMarker finding identity) ∧
        parseOwnedFindingRows ⟨renderInlineThreadBody finding ctx identity boundPaths, some botLogin⟩ botLogin = [] ∧
        parseOwnedReceipts [⟨renderInlineThreadBody finding ctx identity boundPaths, some botLogin⟩] botLogin = []) ∧
    (∀ (placement : SummaryPlacement) (row : Option RenderedRow) (ctx : RenderContext) (compact : Bool),
      let cell := renderFindingTableCellHtml { placement with findingRow := row.map RenderedRow.toFindingRowMarker } ctx compact
      parseOwnedFindingRows ⟨cell, some botLogin⟩ botLogin = (row.map RenderedRow.toFindingRowMarker).toList ∧
        parseOwnedFindingMarker ⟨cell, some botLogin⟩ true botLogin = none ∧
        parseOwnedReceipts [⟨cell, some botLogin⟩] botLogin = []) := by
  have rows (body : Text) : parseOwnedFindingRows ⟨body, some botLogin⟩ botLogin = findingRows body := by
    simp [parseOwnedFindingRows, own_author]
  refine ⟨fun parts tail => ?_, fun finding ctx identity boundPaths => ?_, fun placement row ctx compact => ?_⟩
  · rw [rows]
    exact body_exact_iff parts tail
  · rw [rows]
    exact inlineThread_exact finding ctx identity boundPaths botLogin
  · have noMarker := no_lines marker_opens (cell_quiet markerOpen_control (by decide)
      { placement with findingRow := row.map RenderedRow.toFindingRowMarker } ctx compact)
    have noReceipt := no_receipts (cell_quiet receiptOpen_control (by decide)
      { placement with findingRow := row.map RenderedRow.toFindingRowMarker } ctx compact) (some botLogin) botLogin
    refine ⟨by rw [rows]; exact cell_rows placement row ctx compact, ?_, noReceipt⟩
    simp only [parseOwnedFindingMarker, own_author, noMarker]
    rfl

def reportedRow : RenderedRow where
  id := ⟨text "f_00000000000000000000000000", by decide⟩
  lens := .review
  severity := .p1
  path := text "src/a.ts"
  line := some 3
  title := text "Row is dropped"
  pathed := by decide
  titled := by decide
  placed := by intro n given; cases given; decide

def quotedRow : RenderedRow where
  id := ⟨text "f_00000000000000000000000001", by decide⟩
  lens := .review
  severity := .p1
  path := text "src/b.ts"
  line := none
  title := text "Quoted"
  pathed := by decide
  titled := by decide
  placed := by intro n absent; cases absent

def reportedPlacement : SummaryPlacement where
  finding :=
    { severity := .p1, file := text "src/a.ts", startLine := 3, endLine := 3, title := text "Row is dropped",
      detail := text "The renderer drops the row.",
      fixPrompt := text "Keep " ++ renderFindingRowMarker quotedRow.toFindingRowMarker,
      suggestedCode := none }
  inlinePosted := false
  inlineCommentUrl := none
  findingRow := some reportedRow.toFindingRowMarker

def reportedContext : RenderContext where
  owner := text "o"
  repo := text "r"
  prNumber := 1
  headSha := text "abc"

-- The fix prompt below a summary is not neutralised: a row that it quotes is parsed as one more finding.
theorem quoted_row_is_parsed :
    let finding := reportedPlacement.finding
    let accordion := renderSummaryOnlyFixAccordion finding.severity finding.title finding.fixPrompt
    let body := joinLines (renderFindingTableCellHtml reportedPlacement reportedContext false :: [] :: accordion)
    body = rowsBody [((text "<br>").intercalate (cellParts reportedPlacement reportedContext false), reportedRow)]
        (joinLines ([] :: [] :: accordion)) ∧
      parseOwnedFindingRows ⟨body, some "agent"⟩ "agent" = [reportedRow.toFindingRowMarker, quotedRow.toFindingRowMarker] := by
  decide +kernel

end Exact
end PrAgent.CommentMarkers
