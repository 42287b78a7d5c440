import PrAgent.FindingMarkers
set_option autoImplicit false

namespace PrAgent.CommentMarkers

variable {γ : Type} {s r v : Text}

section Boundary

def isSolid (c : Char) : Bool := !isSpace c

-- A reading that stands behind a capture: it starts with a space, and the text `r` behind its input changes nothing.
structure Boundary (r : Text) (k : Text → Option (γ × Text)) : Prop where
  stable : ∀ v, k (v ++ r) = (k v).map (extended r)
  nothing : k [] = none
  solid : ∀ c s, isSolid c = true → k (c :: s) = none
  cut : k (r.dropWhile isSolid) = none

-- A label that follows a capture, and that does not go on where a rendered row starts.
structure FieldLabel (label : Text) : Prop where
  blank : label.head? = some ' '
  plain : '<' ∉ label
  apart : Pattern.differs label (text " pr-agent:finding-row") = true

-- A text that starts as a rendered row.
def RowStart (r : Text) : Prop := ∃ rest, r = text "<!-- pr-agent:finding-row v=" ++ rest

variable {k : Text → Option (γ × Text)} {label : Text}

theorem RowStart.angle (start : RowStart r) : ∃ rest, r = '<' :: rest := by
  obtain ⟨rest, rfl⟩ := start
  have opens : text "<!-- pr-agent:finding-row v=" = '<' :: text "!-- pr-agent:finding-row v=" := by decide
  exact ⟨_, by rw [opens, List.cons_append]⟩

theorem RowStart.dropSolid (start : RowStart r) : ∃ rest, r.dropWhile isSolid = text " pr-agent:finding-row" ++ rest := by
  obtain ⟨rest, rfl⟩ := start
  have parts : text "<!-- pr-agent:finding-row v=" = text "<!--" ++ ' ' :: text "pr-agent:finding-row v=" := by decide
  have tail : ' ' :: text "pr-agent:finding-row v=" = text " pr-agent:finding-row" ++ text " v=" := by decide
  refine ⟨text " v=" ++ rest, ?_⟩
  rw [parts, List.append_assoc, List.cons_append, Pattern.dropWhile_all (List.all_eq_true.mp (by decide)) (by decide),
    ← List.cons_append, tail, List.append_assoc]

theorem literal_stable (plain : '<' ∉ label) (start : RowStart r) (stable : ∀ v, k (v ++ r) = (k v).map (extended r)) (v : Text) :
    (Pattern.literal label).skip k (v ++ r) = ((Pattern.literal label).skip k v).map (extended r) := by
  obtain ⟨rest, angle⟩ := start.angle
  induction label generalizing v with
  | nil =>
      have whole (s : Text) : (Pattern.literal []).skip k s = k s := Pattern.skip_literal [] s
      rw [whole, whole, stable]
  | cons c label ih =>
      simp only [List.mem_cons, not_or] at plain
      cases v with
      | nil => rw [List.nil_append, angle, Pattern.skip_literal_head plain.1, Pattern.skip_literal_nil (List.cons_ne_nil _ _)]; rfl
      | cons d v =>
          rw [Pattern.literal, List.cons_append, Pattern.skip_seq, Pattern.skip_seq, Pattern.skip_one, Pattern.skip_one]
          by_cases same : decide (d = c) = true
          · rw [if_pos same, if_pos same, ih plain.2]
          · rw [if_neg same, if_neg same]
            rfl

theorem boundary_literal (field : FieldLabel label) (start : RowStart r) (stable : ∀ v, k (v ++ r) = (k v).map (extended r)) :
    Boundary r ((Pattern.literal label).skip k) where
  stable := literal_stable field.plain start stable
  nothing := by
    apply Pattern.skip_literal_nil
    intro empty
    have blank := field.blank
    rw [empty] at blank
    cases blank
  solid c s solid := by
    obtain ⟨rest, split⟩ := List.head?_eq_some_iff.mp field.blank
    rw [split]
    apply Pattern.skip_literal_head
    intro same
    rw [same] at solid
    exact absurd solid (by decide)
  cut := by
    obtain ⟨rest, drop⟩ := start.dropSolid
    rw [drop]
    exact Pattern.skip_literal_differs field.apart rest

theorem solids_keep {β : Type} {k : Text → Text → Option β} (solid : ∀ value c s, isSolid c = true → k value (c :: s) = none)
    (s : Text) : solids.keep k s = if s.takeWhile isSolid = [] then none else k (s.takeWhile isSolid) (s.dropWhile isSolid) :=
  Pattern.keep_class1 solid s

theorem solids_stable {k : Text → Text → Option (γ × Text)} (boundary : ∀ value, Boundary r (k value)) (v : Text) :
    solids.keep k (v ++ r) = (solids.keep k v).map (extended r) := by
  have solid := fun value => (boundary value).solid
  rw [solids_keep solid, solids_keep solid]
  by_cases all : ∀ c ∈ v, isSolid c = true
  · have run : v.takeWhile isSolid = v := List.takeWhile_eq_self_iff.mpr all
    have rest : v.dropWhile isSolid = [] := List.dropWhile_eq_nil_iff.mpr all
    rw [List.takeWhile_append_of_pos all, List.dropWhile_append_of_pos all, run, rest, (boundary _).nothing, (boundary _).cut]
    simp
  · obtain ⟨c, rest, drop⟩ : ∃ c rest, v.dropWhile isSolid = c :: rest :=
      List.exists_cons_of_ne_nil fun empty => all (List.dropWhile_eq_nil_iff.mp empty)
    have stops : isSolid c = false := by
      have head := List.head?_dropWhile_not isSolid v
      simpa [drop] using head
    have inside : ∀ d ∈ v.takeWhile isSolid, isSolid d = true := fun d listed => List.mem_takeWhile_imp listed
    have split : v ++ r = v.takeWhile isSolid ++ c :: (rest ++ r) := by
      rw [← List.cons_append, ← drop, ← List.append_assoc, List.takeWhile_append_dropWhile]
    rw [split, Pattern.takeWhile_all inside stops, Pattern.dropWhile_all inside stops, drop, ← List.cons_append,
      (boundary _).stable]
    by_cases empty : v.takeWhile isSolid = []
    · rw [if_pos empty, if_pos empty]
      rfl
    · rw [if_neg empty, if_neg empty]

theorem boundary_field {k : Text → Text → Option (γ × Text)} (field : FieldLabel label) (start : RowStart r)
    (boundary : ∀ value, Boundary r (k value)) : Boundary r ((Pattern.literal label).skip (solids.keep k)) :=
  boundary_literal field start (solids_stable boundary)

theorem boundary_or {f : Text → Option (γ × Text)} (first : Boundary r f) (second : Boundary r k) :
    Boundary r fun s => (f s).or (k s) where
  stable v := by
    simp only [first.stable, second.stable]
    cases f v <;> cases k v <;> rfl
  nothing := by simp [first.nothing, second.nothing]
  solid c s solid := by simp [first.solid c s solid, second.solid c s solid]
  cut := by simp [first.cut, second.cut]

theorem fieldLabel_close : FieldLabel (text " -->") := ⟨by decide, by decide, by decide⟩

theorem boundary_optional (field : FieldLabel label) (start : RowStart r) (done : Option Text → γ) :
    Boundary r (optionalAt label fun reference after => some (done reference, after)) :=
  boundary_or
    (boundary_field field start fun _ => boundary_literal fieldLabel_close start fun _ => rfl)
    (boundary_literal fieldLabel_close start fun _ => rfl)

theorem boundary_fields {close : List Text → Text → Option (γ × Text)} (boundary : ∀ values, Boundary r (close values))
    (start : RowStart r) (labels : List Text) (fields : ∀ label ∈ labels, FieldLabel label) (values : List Text) :
    Boundary r (fieldsAt close labels values) := by
  induction labels generalizing values with
  | nil => exact boundary values
  | cons label labels ih =>
      refine boundary_field (fields label List.mem_cons_self) start fun value => ?_
      exact ih (fun other listed => fields other (List.mem_cons_of_mem _ listed)) _

theorem reopens_label : FieldLabel reopensLabel := ⟨by decide, by decide, by decide⟩

theorem row_labels : ∃ labels, rowLabels = ('<' :: text "!-- pr-agent:finding-row v=") :: labels ∧
    ∀ label ∈ labels, FieldLabel label := by
  refine ⟨rowLabels.drop 1, by decide, fun label listed => ?_⟩
  have all : (rowLabels.drop 1).all (fun label =>
      label.head? = some ' ' && !(label.contains '<') && Pattern.differs label (text " pr-agent:finding-row")) = true := by decide
  have holds := List.all_eq_true.mp all label listed
  simp only [Bool.and_eq_true, decide_eq_true_eq, Bool.not_eq_true', List.contains_eq_mem, decide_eq_false_iff_not] at holds
  exact ⟨holds.1.1, holds.1.2, holds.2⟩

theorem closeRow_boundary (start : RowStart r) (values : List Text) :
    Boundary r (optionalAt reopensLabel fun reference after => some (RawFields.mk values reference, after)) :=
  boundary_optional reopens_label start fun reference => RawFields.mk values reference

-- A rendered row behind a text changes no row that starts in the text.
theorem findingRowAt_extended (start : RowStart r) (nonempty : v ≠ []) :
    findingRowAt (v ++ r) = (findingRowAt v).map (extended r) := by
  obtain ⟨c, v, rfl⟩ := List.exists_cons_of_ne_nil nonempty
  obtain ⟨labels, first, fields⟩ := row_labels
  have rest (value : Text) := boundary_fields (closeRow_boundary start) start labels fields ([] ++ [value])
  rw [findingRowAt, first, fieldsAt, Pattern.literal, List.cons_append, Pattern.skip_seq, Pattern.skip_seq, Pattern.skip_one,
    Pattern.skip_one]
  by_cases same : decide (c = '<') = true
  · rw [if_pos same, if_pos same]
    exact literal_stable (by decide) start (solids_stable rest) v
  · rw [if_neg same, if_neg same]
    rfl

end Boundary

section Read

variable {β : Type} {value : Text}

-- A capture with a label behind it ends where the label starts.
theorem field_read {label : Text} {k : Text → Text → Option β} (solid : ∀ value c s, isSolid c = true → k value (c :: s) = none)
    (nonempty : value ≠ []) (all : ∀ c ∈ value, isSolid c = true) (s : Text) :
    (Pattern.literal label).skip (solids.keep k) (label ++ (value ++ ' ' :: s)) = k value (' ' :: s) := by
  have run := Pattern.takeWhile_all all (show isSolid ' ' = false by decide) s
  have rest := Pattern.dropWhile_all all (show isSolid ' ' = false by decide) s
  rw [Pattern.skip_literal, solids_keep solid, run, rest, if_neg nonempty]

theorem label_solid {label : Text} {k : Text → Option β} (blank : label.head? = some ' ') (c : Char) (s : Text)
    (solid : isSolid c = true) : (Pattern.literal label).skip k (c :: s) = none := by
  obtain ⟨rest, rfl⟩ := List.head?_eq_some_iff.mp blank
  apply Pattern.skip_literal_head
  intro same
  rw [same] at solid
  exact absurd solid (by decide)

theorem fields_solid {close : List Text → Text → Option β}
    (solid : ∀ values c s, isSolid c = true → close values (c :: s) = none) {labels : List Text}
    (blanks : ∀ label ∈ labels, label.head? = some ' ') (values : List Text) (c : Char) (s : Text) (here : isSolid c = true) :
    fieldsAt close labels values (c :: s) = none := by
  cases labels with
  | nil => exact solid values c s here
  | cons label labels => exact label_solid (blanks label List.mem_cons_self) c s here

theorem optional_solid {label : Text} {done : Option Text → Text → Option β} (blank : label.head? = some ' ') (c : Char)
    (s : Text) (here : isSolid c = true) : optionalAt label done (c :: s) = none := by
  rw [optionalAt, label_solid blank c s here, label_solid (by decide) c s here]
  rfl

-- A value with the label that it stands behind.
abbrev Labelled := List (Text × Text)

def Labelled.text (fields : Labelled) (s : Text) : Text := fields.foldr (fun field rest => field.1 ++ (field.2 ++ rest)) s

structure Labelled.Fits (fields : Labelled) : Prop where
  blanks : ∀ field ∈ fields.drop 1, field.1.head? = some ' '
  values : ∀ field ∈ fields, field.2 ≠ [] ∧ ∀ c ∈ field.2, isSolid c = true

theorem Labelled.text_blank {fields : Labelled} (blanks : ∀ field ∈ fields, field.1.head? = some ' ') (s : Text) :
    ∃ rest, Labelled.text fields (' ' :: s) = ' ' :: rest := by
  cases fields with
  | nil => exact ⟨s, rfl⟩
  | cons field fields =>
      obtain ⟨label, split⟩ := List.head?_eq_some_iff.mp (blanks field List.mem_cons_self)
      exact ⟨_, by rw [Labelled.text, List.foldr_cons, split]; rfl⟩

theorem fields_read {close : List Text → Text → Option β}
    (solid : ∀ values c s, isSolid c = true → close values (c :: s) = none) (fields : Labelled) (fits : fields.Fits)
    (values : List Text) (s : Text) :
    fieldsAt close (fields.map Prod.fst) values (fields.text (' ' :: s)) = close (values ++ fields.map Prod.snd) (' ' :: s) := by
  induction fields generalizing values with
  | nil => rw [List.map_nil, List.map_nil, List.append_nil]; rfl
  | cons field fields ih =>
      obtain ⟨nonempty, all⟩ := fits.values field List.mem_cons_self
      have blanks : ∀ other ∈ fields, other.1.head? = some ' ' := fits.blanks
      have later : Labelled.Fits fields :=
        ⟨fun other listed => blanks other (List.mem_of_mem_drop listed),
          fun other listed => fits.values other (List.mem_cons_of_mem _ listed)⟩
      obtain ⟨rest, behind⟩ := Labelled.text_blank blanks s
      have labels : ∀ label ∈ fields.map Prod.fst, label.head? = some ' ' := by
        intro label listed
        obtain ⟨other, inside, rfl⟩ := List.mem_map.mp listed
        exact blanks other inside
      rw [List.map_cons, fieldsAt, show Labelled.text (field :: fields) (' ' :: s) =
        field.1 ++ (field.2 ++ Labelled.text fields (' ' :: s)) from rfl, behind]
      rw [field_read (fun value => fields_solid solid labels _) nonempty all, ← behind, ih later]
      rw [List.append_assoc]
      rfl

-- The end of a marker with its reference, if it has one.
theorem optional_read {label : Text} {done : Option Text → Text → Option β}
    (apart : Pattern.differs label (text " -->") = true) (reference : Option Text)
    (given : ∀ value, reference = some value → value ≠ [] ∧ ∀ c ∈ value, isSolid c = true) (s : Text)
    (reads : ∃ found, done reference s = some found) :
    optionalAt label done (reference.elim [] (fun value => label ++ value) ++ (text " -->" ++ s)) = done reference s := by
  have close : text " -->" = ' ' :: text "-->" := by decide
  obtain ⟨found, here⟩ := reads
  cases reference with
  | none =>
      rw [optionalAt, Option.elim, List.nil_append, Pattern.skip_literal_differs apart, Pattern.skip_literal]
      rfl
  | some value =>
      obtain ⟨nonempty, all⟩ := given value rfl
      rw [optionalAt, Option.elim, List.append_assoc, close, List.cons_append]
      rw [field_read (fun value c s => label_solid (by decide) c s) nonempty all, ← List.cons_append, Pattern.skip_literal, here]
      rfl

end Read

section Round

-- A row as it is rendered: its path and title have a character, its line is a line number.
structure RenderedRow extends FindingRowMarker where
  pathed : path ≠ []
  titled : title ≠ []
  placed : ∀ n, line = some n → 0 < n ∧ n ≤ maxSafe

theorem idChar_solid {c : Char} (idChar : isIdChar c = true) : isSolid c = true := by
  have alphanum : c.isAlphanum = true := by
    rw [isIdChar, Bool.or_eq_true, Bool.and_eq_true] at idChar
    rcases idChar with digit | upper
    · rw [Char.isAlphanum, digit, Bool.or_true]
    · have letter : c.isAlpha = (c.isUpper || c.isLower) := rfl
      rw [Char.isAlphanum, letter, upper.1, Bool.true_or, Bool.true_or]
  rw [isSolid, word_solid (by rw [isWord, alphanum, Bool.true_or])]
  rfl

theorem findingId_solid (id : FindingId) : id.value ≠ [] ∧ ∀ c ∈ id.value, isSolid c = true := by
  have formed := id.wellFormed
  rw [isFindingId, Bool.and_eq_true, Bool.and_eq_true, Bool.or_eq_true, decide_eq_true_iff, decide_eq_true_iff,
    decide_eq_true_iff] at formed
  obtain ⟨⟨starts, _⟩, chars⟩ := formed
  have front : ∃ start rest, id.value = start ++ rest ∧ start.length = 2 ∧ start.all isSolid = true := by
    rcases starts with ⟨rest, split⟩ | ⟨rest, split⟩
    · exact ⟨_, rest, split.symm, by decide, by decide⟩
    · exact ⟨_, rest, split.symm, by decide, by decide⟩
  obtain ⟨start, rest, split, size, solid⟩ := front
  rw [split, List.drop_append_of_le_length (by omega), List.drop_of_length_le (by omega), List.nil_append] at chars
  constructor
  · intro empty
    rw [split] at empty
    rw [(List.append_eq_nil_iff.mp empty).1] at size
    cases size
  · rw [split]
    intro c listed
    rcases List.mem_append.mp listed with here | later
    · exact List.all_eq_true.mp solid c here
    · exact idChar_solid (List.all_eq_true.mp chars c later)

theorem sourceText_solid (source : FindingSource) : sourceText source ≠ [] ∧ ∀ c ∈ sourceText source, isSolid c = true := by
  have all : ∀ source ∈ findingSources, sourceText source ≠ [] ∧ (sourceText source).all isSolid = true := by decide
  have listed : source ∈ findingSources := by
    cases source with
    | review => decide
    | specialist id => cases id <;> decide
  exact ⟨(all source listed).1, List.all_eq_true.mp (all source listed).2⟩

theorem severityText_solid (severity : FindingSeverity) :
    severityText severity ≠ [] ∧ ∀ c ∈ severityText severity, isSolid c = true := by
  cases severity <;> exact ⟨by decide, List.all_eq_true.mp (by decide)⟩

theorem encoded_isSolid {value : Text} (nonempty : value ≠ []) :
    encodeURIComponent value ≠ [] ∧ ∀ c ∈ encodeURIComponent value, isSolid c = true := by
  refine ⟨encodeURIComponent_ne_nil nonempty, fun c listed => ?_⟩
  rw [isSolid, encoded_solid (encodeURIComponent_encoded listed)]
  rfl

theorem lineText_solid (line : Option Nat) : lineText line ≠ [] ∧ ∀ c ∈ lineText line, isSolid c = true := by
  cases line with
  | none => exact ⟨by decide, List.all_eq_true.mp (by decide)⟩
  | some n =>
      refine ⟨Nat.toDigits_ne_nil, fun c listed => ?_⟩
      have digit : c.isDigit = true := toDigits_isDigit listed
      rw [isSolid, word_solid (by rw [isWord, Char.isAlphanum, digit]; simp)]
      rfl

theorem findingId_read (id : FindingId) : findingId? id.value = some id := by
  rw [findingId?, dif_pos id.wellFormed]

theorem findingSource_read (source : FindingSource) : findingSource? (sourceText source) = some source := by
  cases source with
  | review => decide
  | specialist id => cases id <;> decide

theorem findingSeverity_read (severity : FindingSeverity) : findingSeverity? (severityText severity) = some severity := by
  cases severity <;> decide

theorem markerFields_read (marker : FindingMarker) :
    parseMarkerFields markerVersion marker.id.value (sourceText marker.lens) (severityText marker.severity)
      (marker.reopens.map FindingId.value) = some marker := by
  obtain ⟨id, lens, severity, reopens⟩ := marker
  simp only [parseMarkerFields, findingId_read, findingSource_read, findingSeverity_read]
  cases reopens with
  | none => rfl
  | some reopens => simp [findingId_read]

theorem rowLine_read {line : Option Nat} (placed : ∀ n, line = some n → 0 < n ∧ n ≤ maxSafe) :
    parseRowLine (lineText line) = some line := by
  cases line with
  | none => decide
  | some n =>
      obtain ⟨positive, safe⟩ := placed n rfl
      have digits : ∀ c ∈ Nat.toDigits 10 n, c.isDigit = true := fun c listed => toDigits_isDigit listed
      have other : Nat.toDigits 10 n ≠ ['-'] := by
        intro dash
        exact absurd (digits '-' (by rw [dash]; exact List.mem_singleton_self _)) (by decide)
      have value : decimalDigits (Nat.toDigits 10 n) = n := Nat.ofDigitChars_toDigits (by decide) (by decide)
      rw [lineText, Option.elim, parseRowLine, if_neg other, value, nearestDouble_of_safe safe]
      rw [if_pos (by simp [List.all_eq_true.mpr digits, digits_not_zero positive, Nat.toDigits_ne_nil])]

-- The values of a row behind their labels.
def rowValues (row : FindingRowMarker) : List Text :=
  [markerVersion, row.id.value, sourceText row.lens, severityText row.severity, encodeURIComponent row.path,
    lineText row.line, encodeURIComponent row.title]

theorem reopens_tail (reopens : Option FindingId) (s : Text) : ∃ rest, renderReopens reopens ++ (text " -->" ++ s) = ' ' :: rest := by
  have close : text " -->" = ' ' :: text "-->" := by decide
  have label : text " reopens=" = ' ' :: text "reopens=" := by decide
  cases reopens with
  | none => exact ⟨_, by rw [renderReopens, Option.elim, close]; rfl⟩
  | some id => exact ⟨_, by rw [renderReopens, Option.elim, label]; rfl⟩

theorem rowValues_solid (row : RenderedRow) :
    ∀ value ∈ rowValues row.toFindingRowMarker, value ≠ [] ∧ ∀ c ∈ value, isSolid c = true := by
  intro value listed
  simp only [rowValues, List.mem_cons, List.not_mem_nil, or_false] at listed
  rcases listed with rfl | rfl | rfl | rfl | rfl | rfl | rfl
  · exact ⟨by decide, List.all_eq_true.mp (by decide)⟩
  · exact findingId_solid _
  · exact sourceText_solid _
  · exact severityText_solid _
  · exact encoded_isSolid row.pathed
  · exact lineText_solid _
  · exact encoded_isSolid row.titled

theorem renderedRow_text (row : FindingRowMarker) (s : Text) :
    renderFindingRowMarker row ++ s =
      Labelled.text (rowLabels.zip (rowValues row)) (renderReopens row.reopens ++ (text " -->" ++ s)) := by
  simp only [renderFindingRowMarker, rowLabels, rowValues, List.zip_cons_cons, List.zip_nil_right, Labelled.text,
    List.foldr_cons, List.foldr_nil, List.append_assoc]

theorem reference_read {β : Type} {done : Option Text → Text → Option β} (reopens : Option FindingId) (s : Text)
    (reads : ∃ found, done (reopens.map FindingId.value) s = some found) :
    optionalAt reopensLabel done (renderReopens reopens ++ (text " -->" ++ s)) = done (reopens.map FindingId.value) s := by
  have shape : renderReopens reopens = (reopens.map FindingId.value).elim [] fun value => reopensLabel ++ value := by
    cases reopens <;> rfl
  rw [shape]
  apply optional_read (by decide) _ _ _ reads
  intro value given
  obtain ⟨id, _, rfl⟩ := Option.map_eq_some_iff.mp given
  exact findingId_solid id

-- A rendered row is read where it starts, whatever follows it.
theorem findingRowAt_rendered (row : RenderedRow) (s : Text) :
    findingRowAt (renderFindingRowMarker row.toFindingRowMarker ++ s) =
      some (⟨rowValues row.toFindingRowMarker, row.reopens.map FindingId.value⟩, s) := by
  obtain ⟨rest, blank⟩ := reopens_tail row.reopens s
  have size : rowLabels.length = (rowValues row.toFindingRowMarker).length := rfl
  have firsts : (rowLabels.zip (rowValues row.toFindingRowMarker)).map Prod.fst = rowLabels := List.map_fst_zip (by omega)
  have seconds : (rowLabels.zip (rowValues row.toFindingRowMarker)).map Prod.snd = rowValues row.toFindingRowMarker :=
    List.map_snd_zip (by omega)
  have fits : Labelled.Fits (rowLabels.zip (rowValues row.toFindingRowMarker)) := by
    constructor
    · have labels : ∀ label ∈ rowLabels.drop 1, label.head? = some ' ' := by decide
      intro field listed
      have inside : field ∈ (rowLabels.drop 1).zip ((rowValues row.toFindingRowMarker).drop 1) := listed
      exact labels _ (List.of_mem_zip inside).1
    · intro field listed
      exact rowValues_solid row _ (List.of_mem_zip listed).2
  have solid (values : List Text) (c : Char) (after : Text) (here : isSolid c = true) :
      optionalAt reopensLabel (fun reference after => some (RawFields.mk values reference, after)) (c :: after) = none :=
    optional_solid (by decide) c after here
  have reading := fields_read solid _ fits [] rest
  rw [firsts, seconds, List.nil_append, ← blank, reference_read row.reopens s ⟨_, rfl⟩] at reading
  rw [renderedRow_text]
  exact reading

theorem parseRow_rendered (row : RenderedRow) :
    parseFindingRow ⟨rowValues row.toFindingRowMarker, row.reopens.map FindingId.value⟩ = some row.toFindingRowMarker := by
  simp only [parseFindingRow, rowValues, markerFields_read, decode_encode, rowLine_read row.placed]
  rw [if_neg row.pathed]

end Round
end PrAgent.CommentMarkers
