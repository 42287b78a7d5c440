import PrAgent.FindingView
import PrAgent.InlineThreadBody
import PrAgent.JsonQuote
import PrAgent.LargestFit
set_option autoImplicit false

namespace PrAgent.CommentMarkers

section CodeUnits

-- The code units of a character.
def charUnits (c : Char) : JsString :=
  if c.toNat < 0x10000 then [unit c]
  else [Fin.ofNat 65536 (0xD800 + (c.toNat - 0x10000) / 0x400), Fin.ofNat 65536 (0xDC00 + (c.toNat - 0x10000) % 0x400)]

def textUnits (value : Text) : JsString := value.flatMap charUnits

def isSpaceUnit (u : CodeUnit) : Bool := isSpace (Char.ofNat u.val)

def trimEndUnits (value : JsString) : JsString := (value.reverse.dropWhile isSpaceUnit).reverse

def escapeHtmlUnit (u : CodeUnit) : JsString :=
  if u = unit '&' then units "&amp;" else if u = unit '<' then units "&lt;" else if u = unit '>' then units "&gt;" else [u]

def joinUnits (parts : List JsString) : JsString := (units "\n").intercalate parts

-- `renderTableLink` of a title that was cut at a code unit.
def renderCutTableLink (title : JsString) (href : Text) : JsString :=
  units "<strong><a href=\"" ++ (textUnits (escapeHtmlAttr href) ++ (units "\">" ++ (title.flatMap escapeHtmlUnit ++ units "</a></strong>")))

end CodeUnits

section Rows

-- What the section reads of an `InventoryFinding`; a lens is `none` where it is unknown.
structure HeldFinding where
  id : FindingId
  source : FindingPlace
  lens : Option FindingSource
  severity : HeldSeverity
  path : Text
  startLine : Option Nat
  line : Option Nat
  title : Text
  url : Text
  reopens : Option FindingId
  fileDeleted : Bool

structure HeldRow where
  status : FindingStatus
  severity : HeldSeverity
  held : Option HeldFinding
  observedThisRun : Bool

structure HeldView where
  completeness : InventoryCompleteness
  rows : List HeldRow
  blockingCount : Nat

def statusLabel : FindingStatus → Text
  | .new => text "New"
  | .confirmedAtHead => text "Confirmed at head"
  | .openUnverified => text "Open, not rechecked"
  | .outdatedLocation => text "Outdated location"
  | .summaryOnly => text "Summary only"

def locationLabel (finding : HeldFinding) : Text :=
  match finding.line with
  | none => text "line unknown"
  | some line =>
    match finding.startLine with
    | none => text "line " ++ natText line
    | some startLine =>
      if startLine = line then text "line " ++ natText line else text "lines " ++ (natText startLine ++ (text "-" ++ natText line))

def carriedTitleMaxChars : Nat := 80

def shortTitle (title : Text) : JsString :=
  if (textUnits title).length ≤ carriedTitleMaxChars then textUnits title
  else (textUnits title).take (carriedTitleMaxChars - 1) ++ units "…"

def findingSeverityLabel : HeldSeverity → Text
  | .known severity => severityText severity
  | .unknown => text "Unrated"

def carriedMarker (finding : HeldFinding) : Text :=
  match finding.source, finding.lens, finding.severity with
  | .summary, some lens, .known severity =>
    renderFindingRowMarker
      { id := finding.id, lens, severity, reopens := finding.reopens, path := finding.path, line := finding.line, title := finding.title }
  | _, _, _ => []

def renderCarriedFindingCell (row : HeldRow) (finding : HeldFinding) : JsString :=
  let label := if finding.fileDeleted then statusLabel row.status ++ text ", file deleted" else statusLabel row.status
  renderCutTableLink (shortTitle finding.title) finding.url ++ (units "<br>" ++
    (textUnits (renderTableLocationMeta label finding.path (locationLabel finding)) ++ textUnits (carriedMarker finding)))

end Rows

section Section

abbrev ListedRow := HeldRow × HeldFinding

def findingInventoryUnavailableNote : JsString := units "Open findings from earlier reviews could not be loaded."

def findingsHeading (view : HeldView) : JsString :=
  textUnits (renderTableStrong (text "Findings")) ++ (units " · " ++ (textUnits (natText view.rows.length) ++ (units " open · " ++
    (textUnits (natText view.blockingCount) ++ units " blocking"))))

def listedCells (entry : ListedRow) : JsString × JsString :=
  (textUnits (renderTableStrong (findingSeverityLabel entry.1.severity)), renderCarriedFindingCell entry.1 entry.2)

def tableRow (cells : JsString × JsString) : JsString :=
  units "<tr><td>" ++ (cells.1 ++ (units "</td><td>" ++ (cells.2 ++ units "</td></tr>")))

def renderKeyValueTable (rows : List (JsString × JsString)) : JsString :=
  units "<table>\n<tbody>\n" ++ (joinUnits (rows.map tableRow) ++ units "\n</tbody>\n</table>")

def omittedNote (omitted : Nat) : JsString :=
  textUnits (escapeTableHtml (natText omitted ++ text " more open findings are listed on their threads."))

def sectionParts (view : HeldView) (rows : List ListedRow) (omitted : Nat) : List JsString :=
  [findingsHeading view, []] ++
    ((if 0 < rows.length then [renderKeyValueTable (rows.map listedCells)] else []) ++
      ((if 0 < omitted then [[], omittedNote omitted] else []) ++
        (if view.completeness = .complete then [] else [[], findingInventoryUnavailableNote])))

def sectionBody (view : HeldView) (rows : List ListedRow) (omitted : Nat) : JsString := trimEndUnits (joinUnits (sectionParts view rows omitted))

def listedRows (view : HeldView) : List ListedRow :=
  view.rows.flatMap fun row =>
    match row.held with
    | none => []
    | some held => if row.observedThisRun then [] else [(row, held)]

def isDurable (entry : ListedRow) : Bool := entry.2.source = .summary

-- The rows that pass while the two counters are not used up.
def keepRows : Int → Int → List ListedRow → List ListedRow
  | _, _, [] => []
  | droppableLeft, durableLeft, entry :: rest =>
    if isDurable entry then
      if 0 ≤ durableLeft - 1 then entry :: keepRows droppableLeft (durableLeft - 1) rest else keepRows droppableLeft (durableLeft - 1) rest
    else if 0 ≤ droppableLeft - 1 then entry :: keepRows (droppableLeft - 1) durableLeft rest
    else keepRows (droppableLeft - 1) durableLeft rest

def bodyOf (view : HeldView) (rows : List ListedRow) : JsString := sectionBody view rows ((listedRows view).length - rows.length)

def withLimits (view : HeldView) (droppableLimit durableLimit : Int) : JsString :=
  bodyOf view (keepRows droppableLimit durableLimit (listedRows view))

def largestFittingBody (maxLimit maxBodyChars : Int) (render : Int → JsString) : Option JsString :=
  searchFit render (fun body => (body.length : Int) ≤ maxBodyChars) 0 maxLimit none

def renderFindingsSection (view : HeldView) (budgetChars : Int) : JsString :=
  let budget := max 0 budgetChars
  if view.rows.length = 0 then
    let note := if view.completeness = .complete then [] else findingInventoryUnavailableNote
    if (note.length : Int) ≤ budget then note else []
  else
    let durableCount : Int := ((listedRows view).filter isDurable).length
    let droppableCount : Int := (listedRows view).length - durableCount
    ((largestFittingBody droppableCount budget fun limit => withLimits view limit durableCount) <|>
      (largestFittingBody (durableCount - 1) budget fun limit => withLimits view 0 limit)).getD []

end Section

section Kept

def isDroppable (entry : ListedRow) : Bool := !isDurable entry

-- Rows in the order of the list: the first durable ones, and droppable ones only behind all of the durable ones.
structure RankedSelection (listed rows : List ListedRow) : Prop where
  ordered : rows.Sublist listed
  durable : rows.filter isDurable <+: listed.filter isDurable
  droppable : rows.filter isDroppable <+: listed.filter isDroppable
  durableFirst : (∃ entry ∈ rows, isDurable entry = false) → rows.filter isDurable = listed.filter isDurable

theorem keepRows_sublist (droppableLeft durableLeft : Int) (listed : List ListedRow) : (keepRows droppableLeft durableLeft listed).Sublist listed := by
  induction listed generalizing droppableLeft durableLeft with
  | nil => exact List.Sublist.refl []
  | cons entry rest ih =>
      rw [keepRows]
      by_cases durable : isDurable entry = true
      · rw [if_pos durable]
        by_cases left : 0 ≤ durableLeft - 1
        · rw [if_pos left]
          exact (ih _ _).cons_cons entry
        · rw [if_neg left]
          exact (ih _ _).cons entry
      · rw [if_neg durable]
        by_cases left : 0 ≤ droppableLeft - 1
        · rw [if_pos left]
          exact (ih _ _).cons_cons entry
        · rw [if_neg left]
          exact (ih _ _).cons entry

theorem keepRows_durable (droppableLeft durableLeft : Int) (listed : List ListedRow) :
    (keepRows droppableLeft durableLeft listed).filter isDurable = (listed.filter isDurable).take durableLeft.toNat := by
  induction listed generalizing droppableLeft durableLeft with
  | nil => simp [keepRows]
  | cons entry rest ih =>
      rw [keepRows]
      by_cases durable : isDurable entry = true
      · rw [if_pos durable, List.filter_cons_of_pos durable]
        by_cases left : 0 ≤ durableLeft - 1
        · have count : durableLeft.toNat = (durableLeft - 1).toNat + 1 := by omega
          rw [if_pos left, List.filter_cons_of_pos durable, ih, count, List.take_succ_cons]
        · have count : durableLeft.toNat = 0 ∧ (durableLeft - 1).toNat = 0 := by omega
          rw [if_neg left, ih, count.1, count.2, List.take_zero, List.take_zero]
      · rw [if_neg durable, List.filter_cons_of_neg durable]
        by_cases left : 0 ≤ droppableLeft - 1
        · rw [if_pos left, List.filter_cons_of_neg durable, ih]
        · rw [if_neg left, ih]

theorem keepRows_droppable (droppableLeft durableLeft : Int) (listed : List ListedRow) :
    (keepRows droppableLeft durableLeft listed).filter isDroppable =
      (listed.filter isDroppable).take droppableLeft.toNat := by
  induction listed generalizing droppableLeft durableLeft with
  | nil => simp [keepRows]
  | cons entry rest ih =>
      rw [keepRows]
      cases durable : isDurable entry with
      | true =>
          have other : ¬isDroppable entry = true := by simp [isDroppable, durable]
          rw [if_pos rfl, List.filter_cons_of_neg other]
          by_cases left : 0 ≤ durableLeft - 1
          · rw [if_pos left, List.filter_cons_of_neg other, ih]
          · rw [if_neg left, ih]
      | false =>
          have own : isDroppable entry = true := by simp [isDroppable, durable]
          rw [if_neg Bool.false_ne_true, List.filter_cons_of_pos own]
          by_cases left : 0 ≤ droppableLeft - 1
          · have count : droppableLeft.toNat = (droppableLeft - 1).toNat + 1 := by omega
            rw [if_pos left, List.filter_cons_of_pos own, ih, count, List.take_succ_cons]
          · have count : droppableLeft.toNat = 0 ∧ (droppableLeft - 1).toNat = 0 := by omega
            rw [if_neg left, ih, count.1, count.2, List.take_zero, List.take_zero]

theorem filter_lengths (rows : List ListedRow) :
    (rows.filter isDurable).length + (rows.filter isDroppable).length = rows.length := by
  have parts := (List.filter_append_perm isDurable rows).length_eq
  rw [List.length_append] at parts
  exact parts

-- No droppable row is kept, or every durable one is.
theorem keepRows_ranked {droppableLeft durableLeft : Int} {listed : List ListedRow}
    (ranked : droppableLeft ≤ 0 ∨ ((listed.filter isDurable).length : Int) ≤ durableLeft) :
    RankedSelection listed (keepRows droppableLeft durableLeft listed) where
  ordered := keepRows_sublist _ _ _
  durable := by
    rw [keepRows_durable]
    exact List.take_prefix _ _
  droppable := by
    rw [keepRows_droppable]
    exact List.take_prefix _ _
  durableFirst := by
    intro some_droppable
    obtain ⟨entry, kept, droppable⟩ := some_droppable
    rw [keepRows_durable]
    rcases ranked with none_left | all_left
    · have listed_in : entry ∈ (keepRows droppableLeft durableLeft listed).filter isDroppable :=
        List.mem_filter.mpr ⟨kept, by rw [isDroppable, droppable]; rfl⟩
      have zero : droppableLeft.toNat = 0 := by omega
      rw [keepRows_droppable, zero, List.take_zero] at listed_in
      exact absurd listed_in List.not_mem_nil
    · exact List.take_of_length_le (by omega)

def rankedRows (listed : List ListedRow) : List ListedRow := listed.filter isDurable ++ listed.filter isDroppable

theorem rankedRows_length (listed : List ListedRow) : (rankedRows listed).length = listed.length := by
  rw [rankedRows, List.length_append, filter_lengths]

-- A selection has the first rows by rank, in the order of the list.
theorem RankedSelection.perm {listed rows : List ListedRow} (selection : RankedSelection listed rows) :
    rows.Perm ((rankedRows listed).take rows.length) := by
  have parts : ((rows.filter isDurable) ++ rows.filter isDroppable).Perm rows := List.filter_append_perm isDurable rows
  have count := filter_lengths rows
  obtain ⟨rest, durable⟩ := selection.durable
  have droppable := List.prefix_iff_eq_take.mp selection.droppable
  have same : (rankedRows listed).take rows.length = rows.filter isDurable ++ rows.filter isDroppable := by
    cases dropped : rows.filter isDroppable with
    | nil =>
        rw [dropped, List.length_nil, Nat.add_zero] at count
        rw [rankedRows, ← durable, List.append_assoc, List.append_nil, ← count]
        exact List.take_left' rfl
    | cons entry more =>
        have inside : entry ∈ rows.filter isDroppable := by
          rw [dropped]
          exact List.mem_cons_self
        obtain ⟨kept, own⟩ := List.mem_filter.mp inside
        have whole := selection.durableFirst ⟨entry, kept, by simpa [isDroppable] using own⟩
        rw [rankedRows, ← dropped, ← whole, ← count, List.take_length_add_append, ← droppable]
  rw [same]
  exact parts.symm

end Kept

section Units

theorem textUnits_append (x y : Text) : textUnits (x ++ y) = textUnits x ++ textUnits y := List.flatMap_append

theorem charUnits_length (c : Char) : 1 ≤ (charUnits c).length := by
  rw [charUnits]
  by_cases low : c.toNat < 0x10000
  · rw [if_pos low]
    exact Nat.le_refl 1
  · rw [if_neg low]
    exact Nat.le_succ 1

theorem textUnits_length (x : Text) : x.length ≤ (textUnits x).length := by
  induction x with
  | nil => exact Nat.le_refl 0
  | cons c x ih =>
      have first := charUnits_length c
      have text : textUnits (c :: x) = charUnits c ++ textUnits x := rfl
      rw [text, List.length_append, List.length_cons]
      omega

theorem textUnits_low {x : Text} (low : ∀ c ∈ x, c.toNat < 0x10000) : (textUnits x).length = x.length := by
  induction x with
  | nil => rfl
  | cons c x ih =>
      have text : textUnits (c :: x) = charUnits c ++ textUnits x := rfl
      have first : (charUnits c).length = 1 := by
        rw [charUnits, if_pos (low c List.mem_cons_self)]
        rfl
      rw [text, List.length_append, ih (fun d inside => low d (List.mem_cons_of_mem c inside)), first, List.length_cons, Nat.add_comm]

theorem escapeTableHtml_plain {x : Text} (plain : ∀ c ∈ x, c ≠ '&' ∧ c ≠ '<' ∧ c ≠ '>') : escapeTableHtml x = x := by
  induction x with
  | nil => rfl
  | cons c x ih =>
      obtain ⟨amp, less, more⟩ := plain c List.mem_cons_self
      have text : escapeTableHtml (c :: x) = escapeHtmlChar c ++ escapeTableHtml x := rfl
      rw [text, ih (fun d inside => plain d (List.mem_cons_of_mem c inside)), escapeHtmlChar, if_neg amp, if_neg less, if_neg more]
      rfl

-- What ends in a solid unit is not trimmed.
theorem trimEndUnits_solid {value : JsString} {u : CodeUnit} (ends : value.getLast? = some u) (solid : isSpaceUnit u = false) :
    trimEndUnits value = value := by
  obtain ⟨rest, rfl⟩ := List.getLast?_eq_some_iff.mp ends
  rw [trimEndUnits, List.reverse_append, List.reverse_singleton, List.singleton_append, List.dropWhile_cons_of_neg (by rw [solid]; decide),
    List.reverse_cons, List.reverse_reverse]

theorem joinUnits_cons (part : JsString) (rest : List JsString) : joinUnits (part :: rest) = part ++ rest.flatMap fun next => unit '\n' :: next := by
  induction rest generalizing part with
  | nil =>
      rw [joinUnits, List.intercalate_singleton]
      exact (List.append_nil part).symm
  | cons next rest ih =>
      have later := ih next
      rw [joinUnits] at later
      rw [joinUnits, List.intercalate_cons_cons, later, List.append_assoc]
      rfl

def partsSize (parts : List JsString) : Nat := (parts.map fun part => part.length + 1).sum

theorem joinUnits_length (part : JsString) (rest : List JsString) : (joinUnits (part :: rest)).length = part.length + partsSize rest := by
  rw [joinUnits_cons, List.length_append, List.length_flatMap, partsSize]
  rfl

end Units

section Sizes

def rowSize (entry : ListedRow) : Nat := (tableRow (listedCells entry)).length

def rowsSize (rows : List ListedRow) : Nat := if 0 < rows.length then (rows.map fun entry => rowSize entry + 1).sum + 34 else 0

def noteSize (omitted : Nat) : Nat := if 0 < omitted then (omittedNote omitted).length + 2 else 0

def unavailableSize (view : HeldView) : Nat := if view.completeness = .complete then 0 else findingInventoryUnavailableNote.length + 2

theorem table_size {rows : List ListedRow} (filled : 0 < rows.length) :
    (renderKeyValueTable (rows.map listedCells)).length + 1 = rowsSize rows := by
  obtain ⟨entry, rest, rfl⟩ := List.exists_cons_of_length_pos filled
  have joined : (joinUnits ((listedCells entry :: rest.map listedCells).map tableRow)).length = rowSize entry + partsSize ((rest.map listedCells).map tableRow) := by
    rw [List.map_cons, joinUnits_length]
    rfl
  have sums : partsSize ((rest.map listedCells).map tableRow) = (rest.map fun entry => rowSize entry + 1).sum := by
    rw [partsSize, List.map_map, List.map_map]
    rfl
  have opens : (units "<table>\n<tbody>\n").length = 16 := by decide
  have closes : (units "\n</tbody>\n</table>").length = 18 := by decide
  rw [renderKeyValueTable, List.length_append, List.length_append, List.map_cons, joined, sums, opens, closes, rowsSize, if_pos filled,
    List.map_cons, List.sum_cons]
  omega

-- The row's own marks alone are longer than the note.
theorem rowSize_least (entry : ListedRow) : 74 ≤ rowSize entry := by
  have strong : 17 ≤ (listedCells entry).1.length := by
    have text_size := textUnits_length (renderTableStrong (findingSeverityLabel entry.1.severity))
    have opens : (text "<strong>").length = 8 := by decide
    have closes : (text "</strong>").length = 9 := by decide
    rw [renderTableStrong, List.length_append, List.length_append, opens, closes] at text_size
    have own : 17 ≤ (textUnits (renderTableStrong (findingSeverityLabel entry.1.severity))).length := by
      rw [renderTableStrong]
      omega
    exact own
  have cell : 36 ≤ (listedCells entry).2.length := by
    have opens : (units "<strong><a href=\"").length = 17 := by decide
    have middle : (units "\">").length = 2 := by decide
    have closes : (units "</a></strong>").length = 13 := by decide
    have line_break : (units "<br>").length = 4 := by decide
    rw [listedCells, renderCarriedFindingCell, renderCutTableLink]
    simp only [List.length_append, opens, middle, closes, line_break]
    omega
  have opens : (units "<tr><td>").length = 8 := by decide
  have between : (units "</td><td>").length = 9 := by decide
  have closes : (units "</td></tr>").length = 10 := by decide
  rw [rowSize, tableRow]
  simp only [List.length_append, opens, between, closes]
  omega

theorem natText_plain (n : Nat) : ∀ c ∈ natText n, (c ≠ '&' ∧ c ≠ '<' ∧ c ≠ '>') ∧ c.toNat < 0x10000 := by
  intro c listed
  have digit : c.isDigit = true := toDigits_isDigit listed
  have low : c.toNat ≤ 57 := by
    rw [Char.isDigit, Bool.and_eq_true, decide_eq_true_iff, decide_eq_true_iff] at digit
    exact digit.2
  constructor
  · refine ⟨?_, ?_, ?_⟩
    · rintro rfl
      exact absurd digit (by decide)
    · rintro rfl
      exact absurd digit (by decide)
    · rintro rfl
      exact absurd digit (by decide)
  · omega

theorem omittedNote_length (omitted : Nat) : (omittedNote omitted).length = (natText omitted).length + 48 := by
  have rest : ((text " more open findings are listed on their threads.").all fun c => decide (c ≠ '&' ∧ c ≠ '<' ∧ c ≠ '>') && decide (c.toNat < 0x10000)) = true := by
    decide
  have plain : ∀ c ∈ natText omitted ++ text " more open findings are listed on their threads.", (c ≠ '&' ∧ c ≠ '<' ∧ c ≠ '>') ∧ c.toNat < 0x10000 := by
    intro c listed
    rcases List.mem_append.mp listed with number | words
    · exact natText_plain omitted c number
    · have here := List.all_eq_true.mp rest c words
      rw [Bool.and_eq_true, decide_eq_true_iff, decide_eq_true_iff] at here
      exact here
  have words : (text " more open findings are listed on their threads.").length = 48 := by decide
  rw [omittedNote, escapeTableHtml_plain (fun c listed => (plain c listed).1), textUnits_low (fun c listed => (plain c listed).2), List.length_append, words]

theorem natText_next {n : Nat} : (natText (n + 1)).length ≤ (natText n).length + 1 := by
  have positive : 0 < (natText n).length := Nat.length_toDigits_pos
  have below : n < 10 ^ (natText n).length := (Nat.length_toDigits_le_iff (by decide) positive).mp (Nat.le_refl _)
  have next : n + 1 < 10 ^ ((natText n).length + 1) := by
    rw [Nat.pow_succ]
    omega
  exact (Nat.length_toDigits_le_iff (by decide) (Nat.succ_pos _)).mpr next

-- One more row in the table takes at most the whole note away.
theorem noteSize_next (omitted : Nat) : noteSize (omitted + 1) ≤ noteSize omitted + 51 := by
  rw [noteSize, noteSize, if_pos (Nat.succ_pos omitted), omittedNote_length]
  by_cases some_omitted : 0 < omitted
  · have digits := @natText_next omitted
    rw [if_pos some_omitted, omittedNote_length]
    omega
  · have zero : omitted = 0 := by omega
    have one : (natText (0 + 1)).length = 1 := by decide
    rw [if_neg some_omitted, zero, one]

theorem rowsSize_perm {rows rows' : List ListedRow} (same : rows.Perm rows') : rowsSize rows = rowsSize rows' := by
  rw [rowsSize, rowsSize, same.length_eq, (same.map _).sum_eq]

theorem rowsSize_step (rows : List ListedRow) (entry : ListedRow) : rowsSize rows + 75 ≤ rowsSize (rows ++ [entry]) := by
  have own := rowSize_least entry
  have filled : 0 < (rows ++ [entry]).length := by simp
  rw [rowsSize, rowsSize, if_pos filled, List.map_append, List.sum_append, List.map_singleton, List.sum_singleton]
  by_cases some_rows : 0 < rows.length
  · rw [if_pos some_rows]
    omega
  · rw [if_neg some_rows]
    omega

end Sizes

section Bodies

-- Behind the heading and the blank line.
def laterParts (view : HeldView) (rows : List ListedRow) (omitted : Nat) : List JsString :=
  (if 0 < rows.length then [renderKeyValueTable (rows.map listedCells)] else []) ++
    ((if 0 < omitted then [[], omittedNote omitted] else []) ++
      (if view.completeness = .complete then [] else [[], findingInventoryUnavailableNote]))

theorem laterParts_size (view : HeldView) (rows : List ListedRow) (omitted : Nat) :
    partsSize (laterParts view rows omitted) = rowsSize rows + (noteSize omitted + unavailableSize view) := by
  have table : partsSize (if 0 < rows.length then [renderKeyValueTable (rows.map listedCells)] else []) = rowsSize rows := by
    by_cases filled : 0 < rows.length
    · rw [if_pos filled, ← table_size filled]
      rfl
    · rw [if_neg filled, rowsSize, if_neg filled]
      rfl
  have note : partsSize (if 0 < omitted then [[], omittedNote omitted] else []) = noteSize omitted := by
    by_cases some_omitted : 0 < omitted
    · rw [if_pos some_omitted, noteSize, if_pos some_omitted]
      simp only [partsSize, List.map_cons, List.map_nil, List.sum_cons, List.sum_nil, List.length_nil]
      omega
    · rw [if_neg some_omitted, noteSize, if_neg some_omitted]
      rfl
  have unavailable : partsSize (if view.completeness = .complete then [] else [[], findingInventoryUnavailableNote]) = unavailableSize view := by
    by_cases complete : view.completeness = .complete
    · rw [if_pos complete, unavailableSize, if_pos complete]
      rfl
    · rw [if_neg complete, unavailableSize, if_neg complete]
      simp only [partsSize, List.map_cons, List.map_nil, List.sum_cons, List.sum_nil, List.length_nil]
      omega
  have split (x y : List JsString) : partsSize (x ++ y) = partsSize x + partsSize y := by rw [partsSize, List.map_append, List.sum_append, partsSize, partsSize]
  rw [laterParts, split, split, table, note, unavailable]

-- The last part ends in a letter, a full stop or an angle.
def SolidEnd (part : JsString) : Prop := ∃ u, part.getLast? = some u ∧ isSpaceUnit u = false

theorem table_solid (rows : List ListedRow) : SolidEnd (renderKeyValueTable (rows.map listedCells)) := by
  have last : (units "\n</tbody>\n</table>").getLast? = some (unit '>') := by decide
  refine ⟨unit '>', ?_, by decide⟩
  rw [renderKeyValueTable]
  simp only [List.getLast?_append, last, Option.some_or]

theorem note_solid (omitted : Nat) : SolidEnd (omittedNote omitted) := by
  have last : (textUnits (escapeTableHtml (text " more open findings are listed on their threads."))).getLast? = some (unit '.') := by decide
  refine ⟨unit '.', ?_, by decide⟩
  have split : omittedNote omitted = textUnits (escapeTableHtml (natText omitted)) ++
      textUnits (escapeTableHtml (text " more open findings are listed on their threads.")) := by
    rw [omittedNote, escapeTableHtml, List.flatMap_append, textUnits_append]
    rfl
  rw [split, List.getLast?_append, last, Option.some_or]

theorem unavailable_solid : SolidEnd findingInventoryUnavailableNote := ⟨unit '.', by decide, by decide⟩

theorem laterParts_last {view : HeldView} {rows : List ListedRow} {omitted : Nat} (filled : 0 < rows.length ∨ 0 < omitted) :
    ∃ before last, laterParts view rows omitted = before ++ [last] ∧ SolidEnd last := by
  rw [laterParts]
  by_cases complete : view.completeness = .complete
  · rw [if_pos complete, List.append_nil]
    by_cases some_omitted : 0 < omitted
    · rw [if_pos some_omitted]
      exact ⟨_ ++ [[]], omittedNote omitted, by rw [List.append_assoc]; rfl, note_solid omitted⟩
    · have some_rows : 0 < rows.length := by omega
      rw [if_neg some_omitted, if_pos some_rows]
      exact ⟨[], _, rfl, table_solid rows⟩
  · rw [if_neg complete]
    have last_two (x y : List JsString) (part last : JsString) : x ++ (y ++ [part, last]) = (x ++ (y ++ [part])) ++ [last] := by simp
    exact ⟨_, findingInventoryUnavailableNote, last_two _ _ _ _, unavailable_solid⟩

theorem joinUnits_last {first last : JsString} (before : List JsString) (solid : SolidEnd last) : SolidEnd (joinUnits (first :: (before ++ [last]))) := by
  obtain ⟨u, ends, own⟩ := solid
  refine ⟨u, ?_, own⟩
  obtain ⟨rest, rfl⟩ := List.getLast?_eq_some_iff.mp ends
  rw [joinUnits_cons, List.flatMap_append, List.flatMap_singleton, ← List.cons_append, ← List.append_assoc, ← List.append_assoc]
  exact List.getLast?_concat

theorem body_size {view : HeldView} {rows : List ListedRow} {omitted : Nat} (filled : 0 < rows.length ∨ 0 < omitted) :
    (sectionBody view rows omitted).length = (findingsHeading view).length + 1 + (rowsSize rows + (noteSize omitted + unavailableSize view)) := by
  have parts : sectionParts view rows omitted = findingsHeading view :: [] :: laterParts view rows omitted := rfl
  obtain ⟨before, last, split, solid⟩ := @laterParts_last view rows omitted filled
  have shape : findingsHeading view :: [] :: (before ++ [last]) = findingsHeading view :: ([] :: before ++ [last]) := rfl
  have kept : trimEndUnits (joinUnits (sectionParts view rows omitted)) = joinUnits (sectionParts view rows omitted) := by
    rw [parts, split, shape]
    obtain ⟨u, ends, own⟩ := joinUnits_last ([] :: before) solid
    exact trimEndUnits_solid ends own
  have size : partsSize ([] :: laterParts view rows omitted) = 1 + partsSize (laterParts view rows omitted) := rfl
  rw [sectionBody, kept, parts, joinUnits_length, size, laterParts_size]
  omega

end Bodies
end PrAgent.CommentMarkers
