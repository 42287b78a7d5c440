import PrAgent.CiSummaryCellExact
set_option autoImplicit false

namespace PrAgent

section Projection

variable {head body content u z : Text} {version : Int} {summary : CiSummary} {options : CiProjectionBodyOptions}

theorem decide_current {action : Option BodyMatch}
    (parsed : parseCiSummaryMarker body = some { head := some head, version, format := ciProjectionFormat })
    (here : exec .action body = action)
    (marked : ∀ found, action = some found → found.attributes = renderAttrs phraseAttrs)
    (unmarked : action = none → legacyActionCiPhraseSpan body = none) :
    decideCiProjectionBodyUpdate body head version options = .current := by
  rw [decideCiProjectionBodyUpdate, parsed, here]
  cases action with
  | none => simp [unmarked rfl]
  | some found => simp [phraseAttrs_format (marked found rfl)]

theorem apply_of_current (current : decideCiProjectionBodyUpdate body head version options = .current) (cell : Text) :
    applyCiProjectionBodyUpdate body cell head version options = some { body, kind := .current } := by
  rw [applyCiProjectionBodyUpdate, current]

-- A body that the update writes as it stands is current, if the update is not rejected.
theorem apply_of_unchanged {cell : Text} (accepted : decideCiProjectionBodyUpdate body head version options ≠ .reject)
    (same : withActionPhrase (replaceMarker .summary body cell) options = body) :
    applyCiProjectionBodyUpdate body cell head version options = some { body, kind := .current } := by
  rw [applyCiProjectionBodyUpdate]
  cases decision : decideCiProjectionBodyUpdate body head version options with
  | reject => exact absurd decision accepted
  | current => rfl
  | update => simp [same]

theorem decide_not_reject (parsed : parseCiSummaryMarker body = some { head := some head, version, format := ciProjectionFormat }) :
    decideCiProjectionBodyUpdate body head version options ≠ .reject := by
  rw [decideCiProjectionBodyUpdate, parsed]
  cases exec .action body with
  | none =>
    by_cases legacy : legacyActionCiPhraseSpan body = none
    · simp [legacy]
    · simp [legacy]
  | some found =>
    by_cases old : parseFormatAttr (attrsFromMatch found.attributes) < ciProjectionFormat
    · simp [old]
    · simp [old]

theorem apply_cases {cell : Text} {result : ApplyCiProjectionBodyResult}
    (applied : applyCiProjectionBodyUpdate body cell head version options = some result) :
    result = { body, kind := .current } ∨
      ((parseCiSummaryMarker body).isSome ∧
        result = { body := withActionPhrase (replaceMarker .summary body cell) options, kind := .updated }) := by
  rw [applyCiProjectionBodyUpdate] at applied
  cases decision : decideCiProjectionBodyUpdate body head version options with
  | reject =>
    rw [decision] at applied
    cases applied
  | current =>
    rw [decision] at applied
    exact .inl (Option.some.inj applied).symm
  | update =>
    have parsed : (parseCiSummaryMarker body).isSome := by
      rw [decideCiProjectionBodyUpdate] at decision
      cases marker : parseCiSummaryMarker body with
      | none =>
        rw [marker] at decision
        cases decision
      | some marker => rfl
    simp only [decision] at applied
    by_cases same : withActionPhrase (replaceMarker .summary body cell) options = body
    · rw [if_pos same] at applied
      exact .inl (Option.some.inj applied).symm
    · rw [if_neg same] at applied
      exact .inr ⟨parsed, (Option.some.inj applied).symm⟩

theorem apply_older {cell : Text} {marker : CiSummaryMarker} (parsed : parseCiSummaryMarker body = some marker)
    (same : marker.head = none ∨ marker.head = some head) (older : version < marker.version) :
    applyCiProjectionBodyUpdate body cell head version options = none := by
  have kept : ¬(marker.head ≠ none ∧ marker.head ≠ some head) := by
    rintro ⟨given, other⟩
    exact same.elim given other
  rw [applyCiProjectionBodyUpdate, decideCiProjectionBodyUpdate, parsed]
  simp only [if_neg kept, if_pos older]

end Projection

section Cell

variable {head body : Text} {version : Int} {summary : CiSummary} {options : CiProjectionBodyOptions}

-- The text that an update writes, with its cell and what a second decision reads.
structure Written (attrs : List (Text × Text)) (options : CiProjectionBodyOptions) (u cell z new : Text) : Prop where
  cellKept : ∃ u' cell' z', CellFound attrs new u' cell' z' ∧ CellKept options u cell z u' cell' z'
  settled : (∃ found, exec .action new = some found ∧ found.attributes = renderAttrs phraseAttrs) ∨
    (exec .action new = none ∧ legacyActionCiPhraseSpan new = none) ∨
      (CellFound attrs new u cell z ∧ ∀ other, withActionPhrase other options = other)

variable {attrs : List (Text × Text)}

theorem written_kept {u content z : Text} (cell : CellText attrs u content z) :
    ∃ u' cell' z', CellFound attrs cell.whole u' cell' z' ∧
      CellKept options u (rendered .summary (renderAttrs attrs) content) z u' cell' z' :=
  ⟨u, _, z, cellFound_rendered cell cell.unopened, .inl ⟨rfl, rfl, rfl⟩⟩

theorem withActionPhrase_written {u content z : Text} (cell : CellText attrs u content z)
    (phrases : ∀ phrase, options.actionPhrase = some phrase → PhraseOk phrase) :
    Written attrs options u (rendered .summary (renderAttrs attrs) content) z (withActionPhrase cell.whole options) := by
  cases given : options.actionPhrase with
  | none =>
    have same : ∀ other, withActionPhrase other options = other := fun other => by simp [withActionPhrase, given]
    rw [same]
    exact ⟨written_kept cell, .inr (.inr ⟨cellFound_rendered cell cell.unopened, same⟩)⟩
  | some phrase =>
    by_cases empty : phrase = []
    · have same : ∀ other, withActionPhrase other options = other := fun other => by simp [withActionPhrase, given, empty]
      rw [same]
      exact ⟨written_kept cell, .inr (.inr ⟨cellFound_rendered cell cell.unopened, same⟩)⟩
    · have result : withActionPhrase cell.whole options = replaceActionPhrase cell.whole phrase := by
        simp [withActionPhrase, given, empty]
      have replaced : ∀ {new : Text}, PhraseUpdate attrs phrase u (rendered .summary (renderAttrs attrs) content) z new →
          Written attrs options u (rendered .summary (renderAttrs attrs) content) z new := by
        intro new update
        obtain ⟨u', cell', z', found, kept⟩ := update.cellKept
        exact ⟨⟨u', cell', z', found, .inr ⟨phrase, given, kept⟩⟩, .inl update.marked⟩
      rw [result]
      cases marker : exec .action cell.whole with
      | some found => exact replaced (replaceActionPhrase_marker cell (phrases phrase given) marker)
      | none =>
        cases legacy : legacyActionCiPhraseSpan cell.whole with
        | some span => exact replaced (replaceActionPhrase_legacy cell (phrases phrase given) marker legacy)
        | none =>
          have same : replaceActionPhrase cell.whole phrase = cell.whole := by
            simp [replaceActionPhrase, marker, legacy]
          rw [same]
          exact ⟨written_kept cell, .inr (.inl ⟨marker, legacy⟩)⟩

theorem replaceMarker_summary {found : BodyMatch} {cell : Text} (here : exec .summary body = some found)
    (literal : hasReplacementPattern cell = false) :
    replaceMarker .summary body cell = found.before ++ (cell ++ found.after) := by
  rw [replaceMarker, here]
  simp only [getSubstitution_literal found literal, List.append_assoc]

theorem cellText_of_found {found : BodyMatch} (ok : HeadOk head) (version : Int) (summary : CiSummary)
    (here : exec .summary body = some found) (closed : ActionsClosed body) :
    CellText (cellAttrs head version) found.before (renderCellText summary) found.after :=
  ⟨cellAttrs_valid ok version, cell_noComment ok version (renderCellText_noComment summary), openingTag_spaces ok version,
    exec_noOpen here, (closed found here).1, (closed found here).2⟩

-- A written body is current for the update that wrote it.
theorem again_of_written {cell new u z : Text}
    (parsed : parseCiSummaryMarker new = some { head := some head, version, format := ciProjectionFormat })
    (literal : hasReplacementPattern cell = false) (written : Written attrs options u cell z new) :
    applyCiProjectionBodyUpdate new cell head version options = some { body := new, kind := .current } := by
  rcases written.settled with ⟨found, here, marked⟩ | ⟨unmarked, legacy⟩ | ⟨kept, same⟩
  · refine apply_of_current (decide_current parsed here ?_ nofun) cell
    intro other same
    rw [← Option.some.inj same]
    exact marked
  · exact apply_of_current (decide_current parsed unmarked nofun fun _ => legacy) cell
  · refine apply_of_unchanged (decide_not_reject parsed) ?_
    rw [same, replaceMarker_summary kept.found literal]
    exact kept.whole.symm

-- The update is exact around one cell, a phrase apart.
theorem projection_update_exact (summary : CiSummary) (head : Text) (version : Int) (body : Text) (options : CiProjectionBodyOptions)
    (ok : HeadOk head) (safe : version.natAbs ≤ maxSafe)
    (literal : hasReplacementPattern (renderCiSummaryCell summary (some head) (some version)) = false)
    (phrases : ∀ phrase, options.actionPhrase = some phrase → PhraseOk phrase) (closed : ActionsClosed body) :
    CellUpdate body (renderCiSummaryCell summary (some head) (some version)) head version options := by
  have written : ∀ {found : BodyMatch}, exec .summary body = some found →
      Written (cellAttrs head version) options found.before (renderCiSummaryCell summary (some head) (some version)) found.after
        (withActionPhrase (replaceMarker .summary body (renderCiSummaryCell summary (some head) (some version))) options) := by
    intro found here
    have cell := cellText_of_found ok version summary here closed
    rw [replaceMarker_summary here literal, renderCiSummaryCell_rendered ok]
    exact withActionPhrase_written cell phrases
  have read : ∀ {found : BodyMatch} {new : Text}, Written (cellAttrs head version) options found.before
      (renderCiSummaryCell summary (some head) (some version)) found.after new →
      parseCiSummaryMarker new = some { head := some head, version, format := ciProjectionFormat } := by
    intro found new here
    obtain ⟨u', cell', z', kept, _⟩ := here.cellKept
    exact parse_of_exec ok safe kept.found rfl
  have parsed_found : (parseCiSummaryMarker body).isSome → ∃ found, exec .summary body = some found := by
    intro parsed
    obtain ⟨marker, here⟩ := Option.isSome_iff_exists.mp parsed
    obtain ⟨found, here, _⟩ := Option.map_eq_some_iff.mp here
    exact ⟨found, here⟩
  refine ⟨?_, ?_, fun marker parsed same older => apply_older parsed same older⟩
  · intro body' applied
    rcases apply_cases applied with wrong | ⟨parsed, result⟩
    · cases wrong
    · obtain ⟨found, here⟩ := parsed_found parsed
      obtain ⟨rfl, _⟩ := ApplyCiProjectionBodyResult.mk.inj result
      obtain ⟨u', cell', z', kept, beside⟩ := (written here).cellKept
      exact ⟨read (written here), found, _, here, kept.found, kept.whole, beside⟩
  · intro result applied
    rcases apply_cases applied with rfl | ⟨parsed, rfl⟩
    · exact applied
    · obtain ⟨found, here⟩ := parsed_found parsed
      exact again_of_written (read (written here)) literal (written here)

end Cell

section Bodies

def passingSummary : CiSummary :=
  { status := .passing, headline := "All checks pass", failures := [], permissionNote := none }

def passingCell : Text := renderCiSummaryCell passingSummary (some (text "abc")) (some 2)

def bodyWithCell : Text :=
  text "Review" ++ renderCiSummaryCell passingSummary (some (text "abc")) (some 1) ++ text "Footer"

def bodyWithPhrase : Text := renderCiActionPhrase (text "CI is pending") ++ bodyWithCell

theorem bodyWithCell_closed : ActionsClosed bodyWithCell := by
  intro found here
  have around : (exec .summary bodyWithCell).map (fun found => (found.before, found.after)) = some (text "Review", text "Footer") := by
    decide +kernel
  rw [here] at around
  obtain ⟨before, after⟩ := Prod.mk.inj (Option.some.inj around)
  rw [show found.before = text "Review" from before, show found.after = text "Footer" from after]
  exact ⟨fun y opens => absurd opens (noOpen_of_noAngle (by decide) y), fun y opens => absurd opens (noOpen_of_noAngle (by decide) y)⟩

theorem projection_update_exact_example :
    CellUpdate bodyWithCell passingCell (text "abc") 2 {} ∧
      (applyCiProjectionBodyUpdate bodyWithCell passingCell (text "abc") 2 {}).map (fun result => result.kind) = some .updated :=
  ⟨projection_update_exact passingSummary (text "abc") 2 bodyWithCell {}
    ⟨by decide, solid_of_all (by decide), noComment_of_noAngle (by decide)⟩ (by decide) (by decide +kernel) nofun bodyWithCell_closed,
    by decide +kernel⟩

-- A phrase before the cell is replaced with the cell: the text outside does not stay.
theorem phrase_outside_cell_changes :
    ¬∀ (body head phrase : Text) (version : Int) (summary : CiSummary) (body' : Text) (found found' : BodyMatch),
      applyCiProjectionBodyUpdate body (renderCiSummaryCell summary (some head) (some version)) head version
          { actionPhrase := some phrase } = some { body := body', kind := .updated } →
        exec .summary body = some found → exec .summary body' = some found' →
          found'.before = found.before ∧ found'.after = found.after := by
  intro claimed
  have updated : ((applyCiProjectionBodyUpdate bodyWithPhrase passingCell (text "abc") 2
      { actionPhrase := some (text "CI is passing") }).bind fun result =>
        (exec .summary bodyWithPhrase).bind fun found => (exec .summary result.body).map fun found' =>
          (result.kind, decide (found'.before = found.before))) = some (.updated, false) := by
    decide +kernel
  obtain ⟨⟨body', kind⟩, applied, rest⟩ := Option.bind_eq_some_iff.mp updated
  obtain ⟨found, here, rest⟩ := Option.bind_eq_some_iff.mp rest
  obtain ⟨found', here', outcome⟩ := Option.map_eq_some_iff.mp rest
  obtain ⟨rfl, differs⟩ := Prod.mk.inj outcome
  exact of_decide_eq_false differs
    (claimed bodyWithPhrase (text "abc") (text "CI is passing") 2 passingSummary body' found found' applied here here').1

end Bodies
end PrAgent
