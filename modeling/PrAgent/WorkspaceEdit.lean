import PrAgent.LineEnds
import PrAgent.PatternGlobal
import PrAgent.Utf8Text
set_option autoImplicit false

namespace PrAgent

section Occurrences

def occurrenceAt (needle : Text) (s : Text) : Option (Unit × Text) :=
  if needle <+: s then some ((), s.drop needle.length) else none

-- The search goes on behind an occurrence.
def countOccurrences (haystack needle : Text) : Nat :=
  if needle = [] then 0 else (matchAll (occurrenceAt needle) haystack).length

-- What stands before and after the first occurrence.
def firstOccurrence (haystack needle : Text) : Option (Text × Text) :=
  (leftmost (occurrenceAt needle) haystack).map fun found => (found.1, found.2.2)

def indexOf (haystack needle : Text) : Nat := ((firstOccurrence haystack needle).map fun found => found.1.length).getD 0

-- `content.replace(needle, () => replacement)`.
def replaceFirst (content needle replacement : Text) : Text :=
  match firstOccurrence content needle with
  | none => content
  | some (before, after) => before ++ (replacement ++ after)

end Occurrences

section Edit

inductive EditError
  | ambiguous | notFound
  deriving DecidableEq, Repr

def hasCrlf (content : Text) : Bool := decide (['\r', '\n'] <:+: content)

-- The text in the place of the span, with the line ends of the file.
def spanReplacement (content newText : Text) : Text :=
  if hasCrlf content then lfToCrlf (crlfToLf newText) else crlfToLf newText

def editNormalized (content oldText newText : Text) : Except EditError Text :=
  let normalized := normalizeTextFileEncoding content
  let normalizedOldText := normalizeTextFileEncoding oldText
  let normalizedMatches := countOccurrences normalized normalizedOldText
  if normalizedMatches = 0 then .error .notFound
  else if 1 < normalizedMatches then .error .ambiguous
  else
    let matchStart := indexOf normalized normalizedOldText
    let rawStart := rawOffsetForNormalizedOffset content matchStart
    let rawEnd := rawOffsetForNormalizedOffset content (matchStart + normalizedOldText.length)
    .ok (content.take rawStart ++ (spanReplacement content newText ++ content.drop rawEnd))

def editText (content oldText newText : Text) : Except EditError Text :=
  let found := countOccurrences content oldText
  if found = 1 then .ok (replaceFirst content oldText newText)
  else if 1 < found then .error .ambiguous
  else if !startsWithBom content && !hasCrlf content then .error .notFound
  else editNormalized content oldText newText

-- The answer of the tool with the file that it leaves.
def editWorkspaceFile (file : List UInt8) (oldText newText : Text) : Except EditError Unit × List UInt8 :=
  match editText (readUtf8 file) oldText newText with
  | .ok content => (.ok (), writeUtf8 content)
  | .error error => (.error error, file)

end Edit

variable {content oldText newText haystack needle before after span x y z : Text}

section Occurrences

theorem occurrenceAt_eq_some {result : Unit × Text} : occurrenceAt needle x = some result ↔ x = needle ++ result.2 := by
  rw [occurrenceAt]
  constructor
  · intro here
    obtain ⟨starts, here⟩ := Option.ite_none_right_eq_some.mp here
    obtain ⟨rest, rfl⟩ := starts
    obtain rfl := Option.some.inj here
    rw [List.drop_left]
  · intro split
    rw [if_pos ⟨result.2, split.symm⟩, split, List.drop_left]

theorem occurrenceAt_eq_none : occurrenceAt needle x = none ↔ ¬needle <+: x := by
  rw [occurrenceAt]
  by_cases starts : needle <+: x
  · simp [starts]
  · simp [starts]

theorem occurrenceAt_consumes (nonempty : needle ≠ []) : Consumes (occurrenceAt needle) := by
  intro s found after here
  have positive := List.length_pos_of_ne_nil nonempty
  have split : s = needle ++ after := occurrenceAt_eq_some.mp here
  rw [split, List.length_append]
  omega

-- The first occurrence of a text, with what stands before and after it.
structure FirstAt (haystack needle before after : Text) : Prop where
  split : haystack = before ++ (needle ++ after)
  first : ∀ x y, before = x ++ y → y ≠ [] → ¬needle <+: y ++ (needle ++ after)

theorem leftmost_occurrence : (∃ hit, leftmost (occurrenceAt needle) haystack = some (before, hit, after)) ↔
    FirstAt haystack needle before after := by
  constructor
  · intro ⟨hit, here⟩
    obtain ⟨rest, split, found, fails⟩ := leftmost_eq_some_iff.mp here
    have shape := occurrenceAt_eq_some.mp found
    rw [shape] at split fails
    exact ⟨split, fun x y parts nonempty => occurrenceAt_eq_none.mp (fails x y parts nonempty)⟩
  · intro first
    refine ⟨(), leftmost_eq_some_iff.mpr ⟨_, first.split, occurrenceAt_eq_some.mpr rfl, ?_⟩⟩
    exact fun x y parts nonempty => occurrenceAt_eq_none.mpr (first.first x y parts nonempty)

theorem firstOccurrence_eq_some : firstOccurrence haystack needle = some (before, after) ↔ FirstAt haystack needle before after := by
  rw [← leftmost_occurrence, firstOccurrence, Option.map_eq_some_iff]
  constructor
  · intro ⟨found, here, same⟩
    obtain ⟨first, hit, last⟩ := found
    cases same
    exact ⟨hit, here⟩
  · intro ⟨hit, here⟩
    exact ⟨_, here, rfl⟩

theorem leftmost_absent : leftmost (occurrenceAt needle) haystack = none ↔ ¬needle <:+: haystack := by
  rw [leftmost_eq_none_iff]
  constructor
  · intro nowhere ⟨x, y, split⟩
    exact occurrenceAt_eq_none.mp (nowhere x (needle ++ y) (by rw [← split, List.append_assoc])) (List.prefix_append _ _)
  · intro absent x y split
    rw [occurrenceAt_eq_none]
    intro ⟨rest, starts⟩
    exact absent ⟨x, rest, by rw [split, ← starts, List.append_assoc]⟩

-- Found once from left to right, without overlaps.
def FoundOnce (haystack needle : Text) : Prop :=
  needle ≠ [] ∧ ∃ before after, FirstAt haystack needle before after ∧ ¬needle <:+: after

theorem count_eq_zero_iff (nonempty : needle ≠ []) : countOccurrences haystack needle = 0 ↔ ¬needle <:+: haystack := by
  rw [countOccurrences, if_neg nonempty, ← leftmost_absent]
  cases here : leftmost (occurrenceAt needle) haystack with
  | none => simp [matchAll_none here]
  | some found =>
      obtain ⟨first, hit, last⟩ := found
      simp [matchAll_some (occurrenceAt_consumes nonempty) here]

theorem count_eq_one_iff : countOccurrences haystack needle = 1 ↔ FoundOnce haystack needle := by
  by_cases empty : needle = []
  · simp [countOccurrences, FoundOnce, empty]
  · have later (rest : Text) : (matchAll (occurrenceAt needle) rest).length = 0 ↔ ¬needle <:+: rest := by
      rw [← count_eq_zero_iff empty, countOccurrences, if_neg empty]
    rw [countOccurrences, if_neg empty]
    cases here : leftmost (occurrenceAt needle) haystack with
    | none =>
        rw [matchAll_none here]
        refine ⟨fun one => absurd one (by decide), fun ⟨_, before, after, first, _⟩ => ?_⟩
        obtain ⟨hit, found⟩ := leftmost_occurrence.mpr first
        rw [here] at found
        cases found
    | some found =>
        obtain ⟨before, hit, after⟩ := found
        have first := leftmost_occurrence.mp ⟨hit, here⟩
        rw [matchAll_some (occurrenceAt_consumes empty) here, List.length_cons]
        constructor
        · intro one
          exact ⟨empty, before, after, first, (later after).mp (by omega)⟩
        · intro ⟨_, before', after', first', absent⟩
          obtain ⟨hit', here'⟩ := leftmost_occurrence.mpr first'
          rw [here] at here'
          cases here'
          rw [(later after).mpr absent]

end Occurrences

section Normal

theorem stripBom_append (nonempty : x ≠ []) : stripBom (x ++ y) = stripBom x ++ y := by
  obtain ⟨c, x, rfl⟩ := List.exists_cons_of_ne_nil nonempty
  by_cases marked : c = bom
  · simp [stripBom, startsWithBom, marked]
  · simp [stripBom, startsWithBom, marked]

theorem stripBom_unmarked (unmarked : startsWithBom x = false) : stripBom x = x := by
  rw [stripBom, if_neg (by simp [unmarked])]

theorem stripBom_last (joins : Joins (stripBom x) y) : Joins x y := by
  refine ⟨?_, joins.2⟩
  have last := joins.1
  rw [stripBom] at last
  by_cases marked : startsWithBom x = true
  · rw [if_pos marked] at last
    cases x with
    | nil => cases last
    | cons c x =>
        obtain ⟨d, x, rfl⟩ := List.exists_cons_of_ne_nil (fun empty : x = [] => by simp [empty] at last)
        simpa using last
  · rwa [if_neg marked] at last

theorem crlfToLf_head (c : Char) (other : c ≠ '\r') (feed : c ≠ '\n') : (crlfToLf x).head? = some c ↔ x.head? = some c := by
  cases x using crlfToLf.fun_cases with
  | case1 => rfl
  | case2 rest =>
      rw [crlfToLf]
      simp [Ne.symm other, Ne.symm feed]
  | case3 d rest pair =>
      rw [crlfToLf]
      · simp
      · exact pair

theorem crlfToLf_bom (rest : Text) : crlfToLf (bom :: rest) = bom :: crlfToLf rest :=
  crlfToLf_cons fun pair => absurd pair.1 (by decide)

theorem normalize_congr (same : crlfToLf x = crlfToLf y) : normalizeTextFileEncoding x = normalizeTextFileEncoding y := by
  have head (z : Text) : startsWithBom z = true ↔ (crlfToLf z).head? = some bom := by
    rw [crlfToLf_head bom (by decide) (by decide), startsWithBom, decide_eq_true_iff]
  have marks : startsWithBom x = true ↔ startsWithBom y = true := by rw [head, head, same]
  rw [normalizeTextFileEncoding, normalizeTextFileEncoding, stripBom, stripBom]
  by_cases marked : startsWithBom x = true
  · rw [if_pos marked, if_pos (marks.mp marked)]
    obtain ⟨x', rfl⟩ := List.head?_eq_some_iff.mp (of_decide_eq_true marked)
    obtain ⟨y', rfl⟩ := List.head?_eq_some_iff.mp (of_decide_eq_true (marks.mp marked))
    rw [crlfToLf_bom, crlfToLf_bom] at same
    exact (List.cons.inj same).2
  · rw [if_neg marked, if_neg fun other => marked (marks.mpr other), same]

-- The normal form of what stands before a span: a carriage return goes to the line feed behind it.
def normalFront (before : Text) (rest : Text) : Text :=
  normalizeTextFileEncoding (if Joins before rest then before.dropLast else before)

-- The normal form of a span: only at the start of a file a mark goes.
def normalSpan (before span : Text) : Text := if before = [] then normalizeTextFileEncoding span else crlfToLf span

theorem normalize_span (apart : ¬Joins span after)
    (mark : before = [] → span = [] → startsWithBom after = false) :
    normalizeTextFileEncoding (before ++ (span ++ after)) =
      normalFront before (span ++ after) ++ (normalSpan before span ++ crlfToLf after) := by
  by_cases empty : before = []
  · have noJoin : ¬Joins [] (span ++ after) := fun joins => by cases joins.1
    rw [empty, List.nil_append, normalFront, normalSpan, if_neg noJoin, if_pos rfl]
    by_cases bare : span = []
    · rw [bare, List.nil_append, normalizeTextFileEncoding, stripBom_unmarked (mark empty bare)]
      rfl
    · rw [normalizeTextFileEncoding, stripBom_append bare, crlfToLf_append fun joins => apart (stripBom_last joins)]
      rfl
  · have inner : crlfToLf (span ++ after) = crlfToLf span ++ crlfToLf after := crlfToLf_append apart
    rw [normalFront, normalSpan, if_neg empty, normalizeTextFileEncoding, stripBom_append empty, ← inner]
    by_cases joins : Joins before (span ++ after)
    · rw [if_pos joins]
      obtain ⟨carriage, feed⟩ := joins
      obtain ⟨rest, split⟩ := List.head?_eq_some_iff.mp feed
      obtain ⟨front, rfl⟩ := List.getLast?_eq_some_iff.mp carriage
      have marked : stripBom (front ++ ['\r']) = stripBom front ++ ['\r'] := by
        by_cases bare : front = []
        · rw [bare]
          decide
        · exact stripBom_append bare
      rw [split, List.dropLast_concat, marked, List.append_assoc, crlfToLf_append, List.singleton_append, crlfToLf,
        crlfToLf_cons, normalizeTextFileEncoding]
      · intro pair
        exact absurd pair.1 (by decide)
      · intro joins
        cases joins.2
    · rw [if_neg joins, crlfToLf_append fun cut => joins (stripBom_last cut)]
      rfl

end Normal

section Edit

variable {replacement written : Text}

-- A successful edit: the span that is replaced, between what stands before and after it. The span is the old text, or its
-- normal form is and no pair lies across its edges.
structure Edited (content oldText newText written before span replacement after : Text) : Prop where
  read : content = before ++ (span ++ after)
  written : written = before ++ (replacement ++ after)
  located : (span = oldText ∧ replacement = newText ∧ FirstAt content oldText before after) ∨
    (crlfToLf span = normalizeTextFileEncoding oldText ∧ replacement = spanReplacement content newText ∧
      FirstAt (normalizeTextFileEncoding content) (normalizeTextFileEncoding oldText) (normalizeTextFileEncoding before)
        (crlfToLf after) ∧
      ¬Joins before (span ++ after) ∧ ¬Joins span after ∧ (before = [] → startsWithBom span = false))

theorem edited_exact (once : FoundOnce content oldText) :
    ∃ before after, replaceFirst content oldText newText = before ++ (newText ++ after) ∧
      Edited content oldText newText (replaceFirst content oldText newText) before oldText newText after := by
  obtain ⟨_, before, after, first, _⟩ := once
  have shape : replaceFirst content oldText newText = before ++ (newText ++ after) := by
    rw [replaceFirst, firstOccurrence_eq_some.mpr first]
  exact ⟨before, after, shape, first.split, shape, .inl ⟨rfl, rfl, first⟩⟩

-- The places of two offsets of the normal form.
theorem edges_exist (raw : Text) (start size : Nat) (inside : start + size ≤ (crlfToLf raw).length) :
    ∃ before span after, raw = before ++ (span ++ after) ∧
      crlfToLf before = (crlfToLf raw).take start ∧ crlfToLf span = ((crlfToLf raw).drop start).take size ∧
      crlfToLf after = (crlfToLf raw).drop (start + size) ∧
      ¬Joins before (span ++ after) ∧ ¬Joins span after ∧
      (∀ rawIndex, rawOffsetFrom raw start rawIndex = rawIndex + before.length) ∧
      ∀ rawIndex, rawOffsetFrom raw (start + size) rawIndex = rawIndex + before.length + span.length := by
  obtain ⟨before, rest, first⟩ := edge_exists raw start (by omega)
  have room : size ≤ (crlfToLf rest).length := by
    rw [first.normalAfter, List.length_drop]
    omega
  obtain ⟨span, after, second⟩ := edge_exists rest size room
  refine ⟨before, span, after, by rw [first.split, second.split], first.normalBefore, ?_, ?_, ?_, second.apart, first.offset, ?_⟩
  · rw [second.normalBefore, first.normalAfter]
  · rw [second.normalAfter, first.normalAfter, List.drop_drop]
  · rw [← second.split]
    exact first.apart
  · intro rawIndex
    rw [first.later, second.offset]

theorem edited_normalized (once : FoundOnce (normalizeTextFileEncoding content) (normalizeTextFileEncoding oldText)) :
    ∃ written before span replacement after, editNormalized content oldText newText = .ok written ∧
      Edited content oldText newText written before span replacement after := by
  have count := count_eq_one_iff.mpr once
  obtain ⟨_, front, back, first, _⟩ := once
  have start : indexOf (normalizeTextFileEncoding content) (normalizeTextFileEncoding oldText) = front.length := by
    rw [indexOf, firstOccurrence_eq_some.mpr first]
    rfl
  have whole : crlfToLf (stripBom content) = front ++ (normalizeTextFileEncoding oldText ++ back) := first.split
  obtain ⟨before, span, after, split, normalBefore, normalMiddle, normalAfter, apart, apart', offset, offset'⟩ :=
    edges_exist (stripBom content) front.length (normalizeTextFileEncoding oldText).length
      (by rw [whole]; simp only [List.length_append]; omega)
  rw [whole] at normalBefore normalMiddle normalAfter
  rw [List.take_left] at normalBefore
  rw [List.drop_left, List.take_left] at normalMiddle
  rw [← List.drop_drop, List.drop_left, List.drop_left] at normalAfter
  have head (x y : Text) (starts : startsWithBom x = true) : startsWithBom (x ++ y) = true := by
    obtain ⟨rest, shape⟩ := List.head?_eq_some_iff.mp (of_decide_eq_true starts)
    rw [shape]
    exact decide_eq_true rfl
  obtain ⟨mark, marked, size, stripped, joined, bare⟩ : ∃ mark, content = mark ++ (before ++ (span ++ after)) ∧
      mark.length = (if startsWithBom content then 1 else 0) ∧ stripBom (mark ++ before) = before ∧
      ¬Joins (mark ++ before) (span ++ after) ∧ (mark ++ before = [] → startsWithBom span = false) := by
    by_cases starts : startsWithBom content = true
    · obtain ⟨rest, shape⟩ := List.head?_eq_some_iff.mp (of_decide_eq_true starts)
      have inner : stripBom content = rest := by rw [stripBom, if_pos starts, shape]; rfl
      refine ⟨[bom], by rw [← split, inner, shape]; rfl, by rw [if_pos starts]; rfl, rfl, ?_,
        fun empty => absurd empty (List.cons_ne_nil _ _)⟩
      intro joins
      cases before with
      | nil => exact absurd joins.1 (by decide)
      | cons d before => exact apart ⟨by simpa using joins.1, joins.2⟩
    · have inner : stripBom content = content := stripBom_unmarked (by simpa using starts)
      rw [inner] at split
      refine ⟨[], split, by rw [if_neg starts]; rfl, ?_, apart, fun empty => ?_⟩
      · apply stripBom_unmarked
        rw [← Bool.not_eq_true]
        intro marked
        exact starts (by rw [split]; exact head _ _ marked)
      · rw [← Bool.not_eq_true]
        intro marked
        have none : before = [] := empty
        exact starts (by rw [split, none, List.nil_append]; exact head _ _ marked)
  have rawStart : rawOffsetForNormalizedOffset content front.length = (mark ++ before).length := by
    rw [rawOffsetForNormalizedOffset, offset, ← size, List.length_append]
  have rawEnd : rawOffsetForNormalizedOffset content (front.length + (normalizeTextFileEncoding oldText).length) =
      (mark ++ before).length + span.length := by
    rw [rawOffsetForNormalizedOffset, offset', ← size, List.length_append]
  have read : content = (mark ++ before) ++ (span ++ after) := by rw [marked, List.append_assoc]
  refine ⟨(mark ++ before) ++ (spanReplacement content newText ++ after), mark ++ before, span, spanReplacement content newText,
    after, ?_, read, rfl, .inr ⟨normalMiddle, rfl, ?_, joined, apart', bare⟩⟩
  · rw [editNormalized]
    simp only [count, start, rawStart, rawEnd]
    rw [if_neg (by decide), if_neg (by decide)]
    have taken : content.take (mark ++ before).length = mark ++ before := by rw [read, List.take_left]
    have dropped : content.drop ((mark ++ before).length + span.length) = after := by
      rw [← List.drop_drop, read, List.drop_left, List.drop_left]
    rw [taken, dropped]
  · rw [show normalizeTextFileEncoding (mark ++ before) = front by rw [normalizeTextFileEncoding, stripped, normalBefore],
      normalAfter]
    exact first

theorem norm_count_cases (content oldText newText : Text) :
    (∃ written, editNormalized content oldText newText = .ok written) ↔
      FoundOnce (normalizeTextFileEncoding content) (normalizeTextFileEncoding oldText) := by
  rw [← count_eq_one_iff, editNormalized]
  by_cases absent : countOccurrences (normalizeTextFileEncoding content) (normalizeTextFileEncoding oldText) = 0
  · simp [absent]
  · by_cases many : 1 < countOccurrences (normalizeTextFileEncoding content) (normalizeTextFileEncoding oldText)
    · simp only [absent, many]
      constructor
      · intro ⟨written, failed⟩
        cases failed
      · intro one
        omega
    · simp only [absent, many]
      exact ⟨fun _ => by omega, fun _ => ⟨_, rfl⟩⟩

-- When an edit goes through.
def Editable (content oldText : Text) : Prop :=
  FoundOnce content oldText ∨
    ¬oldText <:+: content ∧ (startsWithBom content = true ∨ hasCrlf content = true) ∧
      FoundOnce (normalizeTextFileEncoding content) (normalizeTextFileEncoding oldText)

theorem editText_ok_iff : (∃ written, editText content oldText newText = .ok written) ↔ Editable content oldText := by
  rw [editText, Editable, ← count_eq_one_iff]
  by_cases once : countOccurrences content oldText = 1
  · simp [once]
  · simp only [once, if_false, false_or]
    by_cases empty : oldText = []
    · have none : ¬FoundOnce (normalizeTextFileEncoding content) (normalizeTextFileEncoding oldText) := by
        rw [empty]
        exact fun found => found.1 rfl
      have zero : countOccurrences content oldText = 0 := by rw [countOccurrences, if_pos empty]
      rw [if_neg (by omega)]
      constructor
      · intro ⟨written, done⟩
        by_cases plain : (!startsWithBom content && !hasCrlf content) = true
        · rw [if_pos plain] at done
          cases done
        · rw [if_neg plain] at done
          exact absurd ((norm_count_cases content oldText newText).mp ⟨written, done⟩) none
      · intro found
        exact absurd found.2.2 none
    · rw [← count_eq_zero_iff empty, ← norm_count_cases content oldText newText]
      by_cases many : 1 < countOccurrences content oldText
      · rw [if_pos many]
        constructor
        · intro ⟨written, failed⟩
          cases failed
        · intro found
          omega
      · rw [if_neg many]
        have zero : countOccurrences content oldText = 0 := by omega
        by_cases plain : (!startsWithBom content && !hasCrlf content) = true
        · rw [if_pos plain]
          simp only [Bool.and_eq_true, Bool.not_eq_true'] at plain
          simp [plain.1, plain.2]
        · rw [if_neg plain]
          have other : startsWithBom content = true ∨ hasCrlf content = true := by
            by_cases marked : startsWithBom content = true
            · exact .inl marked
            · exact .inr (by simpa [marked] using plain)
          simp [zero, other]

theorem editText_edited (done : editText content oldText newText = .ok written) :
    ∃ before span replacement after, Edited content oldText newText written before span replacement after := by
  rw [editText] at done
  by_cases once : countOccurrences content oldText = 1
  · rw [if_pos once] at done
    obtain ⟨before, after, _, edited⟩ := @edited_exact _ _ newText (count_eq_one_iff.mp once)
    rw [Except.ok.inj done] at edited
    exact ⟨before, oldText, newText, after, edited⟩
  · rw [if_neg once] at done
    by_cases many : 1 < countOccurrences content oldText
    · rw [if_pos many] at done
      cases done
    · rw [if_neg many] at done
      by_cases plain : (!startsWithBom content && !hasCrlf content) = true
      · rw [if_pos plain] at done
        cases done
      · rw [if_neg plain] at done
        obtain ⟨written', before, span, replacement, after, result, edited⟩ :=
          @edited_normalized _ _ newText ((norm_count_cases content oldText newText).mp ⟨written, done⟩)
        rw [done] at result
        rw [← Except.ok.inj result] at edited
        exact ⟨before, span, replacement, after, edited⟩

end Edit

section Exact

variable {replacement written : Text}

-- The edit neither cuts nor makes a pair at the edges of the span, and no mark within the file comes or goes.
structure Settled (newText before span replacement after : Text) : Prop where
  front : Joins before (span ++ after) ↔ Joins before (replacement ++ after)
  spanEnd : ¬Joins span after
  replacementEnd : ¬Joins replacement after
  pairs : crlfToLf replacement = crlfToLf newText
  mark : before ≠ [] → startsWithBom newText = false
  start : before = [] → span = [] ∨ replacement = [] → startsWithBom after = false

-- In normal form the old text is replaced by the new one, and nothing else changes.
theorem edited_normal (edited : Edited content oldText newText written before span replacement after)
    (settled : Settled newText before span replacement after) :
    ∃ front middle back, normalizeTextFileEncoding content = front ++ (middle ++ back) ∧
      (middle = normalizeTextFileEncoding oldText ∨ middle = crlfToLf oldText) ∧
      normalizeTextFileEncoding written = front ++ (normalizeTextFileEncoding newText ++ back) := by
  have fronts : normalFront before (span ++ after) = normalFront before (replacement ++ after) := by
    simp only [normalFront, settled.front]
  have old := normalize_span settled.spanEnd fun bare empty => settled.start bare (.inl empty)
  have new := normalize_span settled.replacementEnd fun bare empty => settled.start bare (.inr empty)
  have middle : normalSpan before replacement = normalizeTextFileEncoding newText := by
    rw [normalSpan]
    by_cases bare : before = []
    · rw [if_pos bare]
      exact normalize_congr settled.pairs
    · rw [if_neg bare, settled.pairs, normalizeTextFileEncoding, stripBom_unmarked (settled.mark bare)]
  refine ⟨normalFront before (span ++ after), normalSpan before span, crlfToLf after, by rw [edited.read]; exact old, ?_,
    by rw [edited.written, fronts, ← middle]; exact new⟩
  rw [normalSpan]
  rcases edited.located with ⟨same, _⟩ | ⟨same, _, _, _, _, unmarked⟩
  · rw [same]
    by_cases bare : before = []
    · rw [if_pos bare]
      exact .inl rfl
    · rw [if_neg bare]
      exact .inr rfl
  · by_cases bare : before = []
    · rw [if_pos bare, normalizeTextFileEncoding, stripBom_unmarked (unmarked bare)]
      exact .inl same
    · rw [if_neg bare]
      exact .inl same

-- Which edits go through, what they leave of the file, and what is read back. A failed edit leaves the file alone.
theorem edit_one_span (file : List UInt8) (oldText newText : Text) :
    ((editWorkspaceFile file oldText newText).1 = .ok () ↔ Editable (readUtf8 file) oldText) ∧
      ((editWorkspaceFile file oldText newText).1 ≠ .ok () → (editWorkspaceFile file oldText newText).2 = file) ∧
      ((editWorkspaceFile file oldText newText).1 = .ok () →
        ∃ written before span replacement after,
          Edited (readUtf8 file) oldText newText written before span replacement after ∧
          (file = writeUtf8 (readUtf8 file) →
            file = writeUtf8 before ++ (writeUtf8 span ++ writeUtf8 after)) ∧
          (editWorkspaceFile file oldText newText).2 =
            writeUtf8 before ++ (writeUtf8 replacement ++ writeUtf8 after) ∧
          (Settled newText before span replacement after →
            ∃ front middle back, normalizeTextFileEncoding (readUtf8 file) = front ++ (middle ++ back) ∧
              (middle = normalizeTextFileEncoding oldText ∨ middle = crlfToLf oldText) ∧
              normalizeTextFileEncoding (readUtf8 (editWorkspaceFile file oldText newText).2) =
                front ++ (normalizeTextFileEncoding newText ++ back))) := by
  have parts (x y z : Text) : writeUtf8 (x ++ (y ++ z)) = writeUtf8 x ++ (writeUtf8 y ++ writeUtf8 z) := by
    rw [writeUtf8_append, writeUtf8_append]
  rw [← @editText_ok_iff _ _ newText, editWorkspaceFile]
  cases result : editText (readUtf8 file) oldText newText with
  | error error =>
      refine ⟨⟨fun done => ?_, fun done => ?_⟩, fun _ => rfl, fun done => ?_⟩
      · cases done
      · obtain ⟨written, failed⟩ := done
        cases failed
      · cases done
  | ok written =>
      refine ⟨⟨fun _ => ⟨written, rfl⟩, fun _ => rfl⟩, fun failed => absurd rfl failed, fun _ => ?_⟩
      obtain ⟨before, span, replacement, after, edited⟩ := editText_edited result
      refine ⟨written, before, span, replacement, after, edited, fun valid => ?_, ?_, fun settled => ?_⟩
      · rw [← parts, ← edited.read]
        exact valid
      · rw [← parts, ← edited.written]
      · rw [read_writeUtf8]
        exact edited_normal edited settled

def crlfFile : List UInt8 := writeUtf8 (text "x\r\ny\r\nz")

-- The span is found in the normal form only; the new text takes the line ends of the file.
theorem edit_one_span_crlf :
    Settled (text "p\nq") [] (text "x\r\ny") (text "p\r\nq") (text "\r\nz") ∧
      (editWorkspaceFile crlfFile (text "x\ny") (text "p\nq")).1 = .ok () ∧
      ∃ before replacement after, (editWorkspaceFile crlfFile (text "x\ny") (text "p\nq")).2 =
        writeUtf8 before ++ (writeUtf8 replacement ++ writeUtf8 after) := by
  have whole := edit_one_span crlfFile (text "x\ny") (text "p\nq")
  have read : readUtf8 crlfFile = text "x\r\ny\r\nz" := read_writeUtf8 _
  have result : editText (text "x\r\ny\r\nz") (text "x\ny") (text "p\nq") = .ok (text "p\r\nq\r\nz") := by decide +kernel
  rw [read, ← @editText_ok_iff _ _ (text "p\nq")] at whole
  have done := whole.1.mpr ⟨_, result⟩
  obtain ⟨_, before, _, replacement, after, _, _, left, _⟩ := whole.2.2 done
  have settled : Settled (text "p\nq") [] (text "x\r\ny") (text "p\r\nq") (text "\r\nz") :=
    ⟨by decide, by decide, by decide, by decide, fun nonempty => absurd rfl nonempty, by decide⟩
  exact ⟨settled, done, before, replacement, after, left⟩

-- Old text with CRLF is not looked for in a file without: its normal form, which the file has once, is never compared.
theorem edit_skips_lf_file :
    let file := writeUtf8 (text "a\nb")
    let oldText := text "a\r\nb"
    countOccurrences (readUtf8 file) oldText = 0 ∧
      countOccurrences (normalizeTextFileEncoding (readUtf8 file)) (normalizeTextFileEncoding oldText) = 1 ∧
      (editWorkspaceFile file oldText (text "c")).1 = .error .notFound := by
  have read : readUtf8 (writeUtf8 (text "a\nb")) = text "a\nb" := read_writeUtf8 _
  simp only [read, editWorkspaceFile]
  decide +kernel

end Exact
end PrAgent
