import PrAgent.CommentableRanges
import PrAgent.SplitPieces
set_option autoImplicit false

namespace PrAgent

section Patches

inductive DiffLine
  | context (content : List Char)
  -- an empty line of both sides that has lost its blank
  | emptyContext
  | added (content : List Char)
  | removed (content : List Char)
  -- `\ No newline at end of file`
  | noNewline (content : List Char)
  deriving DecidableEq, Repr

def DiffLine.content : DiffLine → List Char
  | .emptyContext => []
  | .context content | .added content | .removed content | .noNewline content => content

def DiffLine.text : DiffLine → List Char
  | .context content => ' ' :: content
  | .emptyContext => []
  | .added content => '+' :: content
  | .removed content => '-' :: content
  | .noNewline content => '\\' :: content

def DiffLine.right : DiffLine → Bool
  | .context _ | .emptyContext | .added _ => true
  | .removed _ | .noNewline _ => false

def DiffLine.left : DiffLine → Bool
  | .context _ | .emptyContext | .removed _ => true
  | .added _ | .noNewline _ => false

-- A line that looks like a file header: `+++..` or `---..`.
def DiffLine.stops : DiffLine → Bool
  | .added content => ['+', '+'].isPrefixOf content
  | .removed content => ['-', '-'].isPrefixOf content
  | .context _ | .emptyContext | .noNewline _ => false

-- A count of one may be left out.
structure Hunk where
  oldStart : Nat
  newStart : Nat
  showOldCount : Bool := true
  showNewCount : Bool := true
  heading : List Char := []
  lines : List DiffLine
  deriving DecidableEq, Repr

def Hunk.leftCount (hunk : Hunk) : Nat := hunk.lines.countP DiffLine.left

def Hunk.rightCount (hunk : Hunk) : Nat := hunk.lines.countP DiffLine.right

-- The count of the right side, where the header shows it.
def Hunk.shownCount (hunk : Hunk) : Option Nat :=
  if hunk.rightCount = 1 ∧ hunk.showNewCount = false then none else some hunk.rightCount

def countText (count : Nat) (shown : Bool) : List Char :=
  if count = 1 ∧ shown = false then [] else ',' :: Nat.toDigits 10 count

def Hunk.header (hunk : Hunk) : List Char :=
  "@@ -".toList ++ (Nat.toDigits 10 hunk.oldStart ++ (countText hunk.leftCount hunk.showOldCount ++ (" +".toList ++
    (Nat.toDigits 10 hunk.newStart ++ (countText hunk.rightCount hunk.showNewCount ++ (" @@".toList ++ hunk.heading))))))

def Hunk.textLines (hunk : Hunk) : List (List Char) := hunk.header :: hunk.lines.map DiffLine.text

-- The numbers of the lines of the right side, from the first one on.
def rightFrom : Nat → List DiffLine → List Nat
  | _, [] => []
  | n, line :: rest => if line.right then n :: rightFrom (n + 1) rest else rightFrom n rest

def Hunk.rightLines (hunk : Hunk) : List Nat := rightFrom hunk.newStart hunk.lines

-- A well-formed patch of one file. Line numbers of a file are numbers of the language, exact below 2^53.
structure FilePatch where
  -- what precedes the hunks, such as `--- a/file` and `+++ b/file`
  preamble : List (List Char)
  hunks : List Hunk
  trailingNewline : Bool
  preambleLines : ∀ line ∈ preamble, line ≠ [] ∧ '\n' ∉ line ∧ ¬['@', '@'].isPrefixOf line
  headings : ∀ hunk ∈ hunks, '\n' ∉ hunk.heading
  contents : ∀ hunk ∈ hunks, ∀ line ∈ hunk.lines, '\n' ∉ line.content
  ascending : hunks.Pairwise fun hunk later => 0 < later.rightCount → hunk.newStart + hunk.rightCount ≤ later.newStart
  safe : ∀ hunk ∈ hunks, hunk.newStart + hunk.rightCount ≤ maxSafe

def FilePatch.textLines (patch : FilePatch) : List (List Char) := patch.preamble ++ patch.hunks.flatMap Hunk.textLines

def FilePatch.text (patch : FilePatch) : List Char :=
  ['\n'].intercalate patch.textLines ++ if patch.trailingNewline then ['\n'] else []

def FilePatch.rightLines (patch : FilePatch) : List Nat := patch.hunks.flatMap Hunk.rightLines

def FilePatch.diffLines (patch : FilePatch) : List DiffLine := patch.hunks.flatMap Hunk.lines

-- The text ends in an empty line of a hunk, whose line feed is taken for the final one.
def FilePatch.LosesLine (patch : FilePatch) : Prop := patch.trailingNewline = false ∧ patch.textLines.getLast? = some []

instance (patch : FilePatch) : Decidable patch.LosesLine := inferInstanceAs (Decidable (_ ∧ _))

-- How many lines the parser goes through.
def FilePatch.linesRead (patch : FilePatch) : Nat := patch.textLines.length - if patch.LosesLine then 1 else 0

-- No line of the right side stands at or after the first line that looks like a file header.
def FilePatch.ReadToEnd (patch : FilePatch) : Prop :=
  ∀ line ∈ patch.diffLines.dropWhile fun line => !line.stops, line.right = false

end Patches

section Headers

theorem literal_append (literal text : List Char) : literal? literal (literal ++ text) = some text := by
  induction literal with
  | nil => rfl
  | cons c rest ih => simpa [literal?] using ih

theorem digits_natural (n : Nat) {text : List Char} (stops : ∀ c, text.head? = some c → c.isDigit = false) :
    digits? (Nat.toDigits 10 n ++ text) = some (n, text) := by
  have all : ∀ c ∈ Nat.toDigits 10 n, c.isDigit = true := fun c listed => toDigits_isDigit listed
  have value : decimalDigits (Nat.toDigits 10 n) = n := Nat.ofDigitChars_toDigits (by decide) (by decide)
  have taken : text.takeWhile Char.isDigit = [] := by
    cases text with
    | nil => rfl
    | cons c rest => simp [stops c rfl]
  have dropped : text.dropWhile Char.isDigit = text := by
    cases text with
    | nil => rfl
    | cons c rest => simp [stops c rfl]
  rw [digits?, List.takeWhile_append_of_pos all, List.dropWhile_append_of_pos all, taken, dropped, List.append_nil, value,
    if_neg Nat.toDigits_ne_nil]

theorem count_text (count : Nat) (shown : Bool) {text : List Char} (stops : ∀ c, text.head? = some c → c = ' ') :
    count? (countText count shown ++ text) = (if count = 1 ∧ shown = false then none else some count, text) := by
  by_cases omitted : count = 1 ∧ shown = false
  · have absent : literal? [','] text = none := by
      cases text with
      | nil => rfl
      | cons c rest =>
        obtain rfl := stops c rfl
        rfl
    simp [countText, omitted, count?, absent]
  · have digit : ∀ c, text.head? = some c → c.isDigit = false := by
      intro c first
      obtain rfl := stops c first
      decide
    have comma : literal? [','] (',' :: (Nat.toDigits 10 count ++ text)) = some (Nat.toDigits 10 count ++ text) := rfl
    simp only [countText, if_neg omitted, List.cons_append, count?, comma, Option.bind_some, digits_natural count digit]

theorem countText_stops (count : Nat) (shown : Bool) {text : List Char} (stops : ∀ c, text.head? = some c → c.isDigit = false) :
    ∀ c, (countText count shown ++ text).head? = some c → c.isDigit = false := by
  intro c first
  by_cases omitted : count = 1 ∧ shown = false
  · rw [countText, if_pos omitted] at first
    exact stops c first
  · rw [countText, if_neg omitted] at first
    cases first
    decide

theorem shownCount_getD (hunk : Hunk) : hunk.shownCount.getD 1 = hunk.rightCount := by
  rw [Hunk.shownCount]
  split
  · rename_i one
    exact one.1.symm
  · rfl

theorem matchHunkHeader_header (hunk : Hunk) : matchHunkHeader hunk.header = some (hunk.newStart, hunk.shownCount) := by
  have afterCount : ∀ (text : List Char) c, (" @@".toList ++ text).head? = some c → c = ' ' := by
    intro text c first
    exact (Option.some.inj first).symm
  have afterOld : ∀ (text : List Char) c, (" +".toList ++ text).head? = some c → c = ' ' := by
    intro text c first
    exact (Option.some.inj first).symm
  have space : ∀ {text : List Char}, (∀ c, text.head? = some c → c = ' ') →
      ∀ c, text.head? = some c → c.isDigit = false := by
    intro text blank c first
    rw [blank c first]
    decide
  rw [matchHunkHeader, Hunk.header, literal_append, Option.bind_eq_bind, Option.bind_some,
    digits_natural _ (countText_stops _ _ (space (afterOld _))), Option.bind_eq_bind, Option.bind_some]
  simp only [count_text _ _ (afterOld _)]
  rw [literal_append, Option.bind_some, digits_natural _ (countText_stops _ _ (space (afterCount _))), Option.bind_some]
  simp only [count_text _ _ (afterCount _)]
  rw [literal_append]
  rfl

end Headers

section Lines

def PatchScan.line (scan : PatchScan) (line : DiffLine) : PatchScan := if line.right then scan.commentable else scan

-- The lines of the right side are among those that are left of the count of the header.
structure PatchScan.Promises (scan : PatchScan) (lines : List DiffLine) : Prop where
  within : lines.countP DiffLine.right ≤ scan.rightLinesRemaining
  safe : scan.rightLinesRemaining ≤ maxSafe

variable {scan : PatchScan} {line : DiffLine}

theorem PatchScan.Promises.next {lines : List DiffLine} (promises : scan.Promises (line :: lines)) :
    (scan.line line).Promises lines := by
  obtain ⟨within, safe⟩ := promises
  rw [PatchScan.line]
  cases right : line.right with
  | false =>
    rw [List.countP_cons_of_neg (by simp [right])] at within
    exact ⟨within, safe⟩
  | true =>
    rw [List.countP_cons_of_pos (by simp [right])] at within
    have left : scan.commentable.rightLinesRemaining = scan.rightLinesRemaining - 1 := nearestDouble_of_safe (by omega)
    exact ⟨by rw [if_pos rfl, left]; omega, by rw [if_pos rfl, left]; omega⟩

theorem PatchScan.Promises.first {lines : List DiffLine} (promises : scan.Promises (line :: lines))
    (right : line.right = true) : 0 < scan.rightLinesRemaining := by
  have within := promises.within
  rw [List.countP_cons_of_pos right] at within
  omega

theorem scan_line (seen : scan.seenHunk = true) (passes : line.stops = false)
    (promised : line.right = true → 0 < scan.rightLinesRemaining) (rest : List (List Char)) :
    scanPatch scan (line.text :: rest) = scanPatch (scan.line line) rest := by
  cases line with
  | context content => simp [scanPatch, seen, DiffLine.text, PatchScan.line, DiffLine.right]
  | emptyContext => simp [scanPatch, seen, DiffLine.text, PatchScan.line, DiffLine.right, promised rfl]
  | added content =>
    have short : ['+', '+', '+'].isPrefixOf ('+' :: content) = false := by simpa [DiffLine.stops] using passes
    simp [scanPatch, seen, DiffLine.text, PatchScan.line, DiffLine.right, short]
  | removed content =>
    have short : ['-', '-', '-'].isPrefixOf ('-' :: content) = false := by simpa [DiffLine.stops] using passes
    simp [scanPatch, seen, DiffLine.text, PatchScan.line, DiffLine.right, short]
  | noNewline content => simp [scanPatch, seen, DiffLine.text, PatchScan.line, DiffLine.right]

theorem scan_stop (seen : scan.seenHunk = true) (stops : line.stops = true)
    (rest : List (List Char)) : scanPatch scan (line.text :: rest) = scan.finishRanges := by
  cases line with
  | context content => cases stops
  | emptyContext => cases stops
  | added content =>
    have long : ['+', '+', '+'].isPrefixOf ('+' :: content) = true := by simpa [DiffLine.stops] using stops
    simp [scanPatch, seen, DiffLine.text, long]
  | removed content =>
    have long : ['-', '-', '-'].isPrefixOf ('-' :: content) = true := by simpa [DiffLine.stops] using stops
    simp [scanPatch, seen, DiffLine.text, long]
  | noNewline content => cases stops

theorem line_seen (scan : PatchScan) (line : DiffLine) : (scan.line line).seenHunk = scan.seenHunk := by
  rw [PatchScan.line]
  split <;> rfl

-- The lines of a hunk up to the first one that stops the scan.
def readLines (lines : List DiffLine) : List DiffLine := lines.takeWhile fun line => !line.stops

theorem scan_lines (seen : scan.seenHunk = true) (lines : List DiffLine) (promises : scan.Promises lines)
    (rest : List (List Char)) : scanPatch scan (lines.map DiffLine.text ++ rest) =
      if lines.any DiffLine.stops then ((readLines lines).foldl PatchScan.line scan).finishRanges
      else scanPatch ((readLines lines).foldl PatchScan.line scan) rest := by
  induction lines generalizing scan with
  | nil => rfl
  | cons line lines ih =>
    rw [List.map_cons, List.cons_append, List.any_cons]
    cases stops : line.stops with
    | true => simp [scan_stop seen stops, readLines, stops]
    | false =>
      rw [scan_line seen stops promises.first, ih ((line_seen scan line).trans seen) promises.next]
      simp [readLines, stops]

-- Where the right side is safe, the scan adds the numbers of its lines.
theorem fold_lines (lines : List DiffLine) (safe : scan.rightLine + lines.countP DiffLine.right ≤ maxSafe) :
    (lines.foldl PatchScan.line scan).toRangeScan =
      (rightFrom scan.rightLine lines).foldl RangeScan.addCommentableLine scan.toRangeScan := by
  induction lines generalizing scan with
  | nil => rfl
  | cons line lines ih =>
    rw [List.foldl_cons, rightFrom]
    cases right : line.right with
    | false =>
      rw [List.countP_cons_of_neg (by simp [right])] at safe
      simp [PatchScan.line, right, ih safe]
    | true =>
      rw [List.countP_cons_of_pos (by simp [right])] at safe
      have next : nearestDouble (scan.rightLine + 1) = scan.rightLine + 1 := nearestDouble_of_safe (by omega)
      have moved : scan.commentable.rightLine = scan.rightLine + 1 := next
      have later := @ih scan.commentable (by rw [moved]; omega)
      have pushed : scan.commentable.toRangeScan = scan.addCommentableLine scan.rightLine := rfl
      rw [moved, pushed] at later
      simpa [PatchScan.line, right] using later

theorem rightFrom_length (n : Nat) (lines : List DiffLine) : (rightFrom n lines).length = lines.countP DiffLine.right := by
  induction lines generalizing n with
  | nil => rfl
  | cons line lines ih =>
    cases right : line.right with
    | false => simp [rightFrom, right, ih]
    | true => simp [rightFrom, right, ih]

theorem rightFrom_range (n : Nat) (lines : List DiffLine) : rightFrom n lines = List.range' n (lines.countP DiffLine.right) := by
  induction lines generalizing n with
  | nil => rfl
  | cons line lines ih =>
    cases right : line.right with
    | false => simp [rightFrom, right, ih]
    | true => simp [rightFrom, right, ih, List.range'_succ]

end Lines

section Hunks

-- The lines of the hunks among the first lines of their text.
def linesWithin : Nat → List Hunk → List DiffLine
  | _, [] => []
  | 0, _ :: _ => []
  | k + 1, hunk :: rest => hunk.lines.take k ++ linesWithin (k - hunk.lines.length) rest

-- The numbers that the scan of those lines adds.
def readTake : Nat → List Hunk → List Nat
  | _, [] => []
  | 0, _ :: _ => []
  | k + 1, hunk :: rest =>
    rightFrom hunk.newStart (readLines (hunk.lines.take k)) ++
      if (hunk.lines.take k).any DiffLine.stops then [] else readTake (k - hunk.lines.length) rest

theorem header_opens (hunk : Hunk) : ['@', '@'].isPrefixOf hunk.header = true := rfl

theorem scan_header (scan : PatchScan) (hunk : Hunk) (rest : List (List Char)) :
    scanPatch scan (hunk.header :: rest) = scanPatch (scan.openHunk hunk.newStart hunk.shownCount) rest := by
  rw [scanPatch, header_opens, if_pos rfl, matchHunkHeader_header]

theorem readLines_take (k : Nat) (lines : List DiffLine) : readLines (lines.take k) <+: lines :=
  (List.takeWhile_prefix _).trans (List.take_prefix k lines)

theorem readLines_through {lines : List DiffLine} (through : lines.any DiffLine.stops = false) : readLines lines = lines := by
  apply List.takeWhile_eq_self_iff.mpr
  simpa using through

theorem textLines_take (hunk : Hunk) (k : Nat) (rest : List (List Char)) : (hunk.textLines ++ rest).take (k + 1) =
    hunk.header :: ((hunk.lines.take k).map DiffLine.text ++ rest.take (k - hunk.lines.length)) := by
  rw [Hunk.textLines, List.cons_append, List.take_succ_cons, List.take_append, List.length_map, List.map_take]

theorem scan_take (scan : PatchScan) (k : Nat) (hunks : List Hunk) (safe : ∀ hunk ∈ hunks, hunk.newStart + hunk.rightCount ≤ maxSafe) :
    scanPatch scan ((hunks.flatMap Hunk.textLines).take k) =
      ((readTake k hunks).foldl RangeScan.addCommentableLine scan.toRangeScan).finishRanges := by
  induction hunks generalizing scan k with
  | nil =>
    rw [List.flatMap_nil, List.take_nil]
    cases k <;> rfl
  | cons hunk rest ih =>
    cases k with
    | zero => rfl
    | succ k =>
      have here := safe hunk List.mem_cons_self
      have start : nearestDouble hunk.newStart = hunk.newStart := nearestDouble_of_safe (by omega)
      have first : (scan.openHunk hunk.newStart hunk.shownCount).rightLine = hunk.newStart := start
      have left : (scan.openHunk hunk.newStart hunk.shownCount).rightLinesRemaining = hunk.rightCount :=
        (congrArg nearestDouble (shownCount_getD hunk)).trans (nearestDouble_of_safe (by omega))
      have promises : (scan.openHunk hunk.newStart hunk.shownCount).Promises (hunk.lines.take k) :=
        ⟨left.symm ▸ (List.take_sublist k hunk.lines).countP_le, by rw [left]; omega⟩
      have bound : (readLines (hunk.lines.take k)).countP DiffLine.right ≤ hunk.rightCount :=
        (readLines_take k hunk.lines).sublist.countP_le
      have folded := @fold_lines (scan.openHunk hunk.newStart hunk.shownCount) (readLines (hunk.lines.take k)) (by rw [first]; omega)
      rw [first] at folded
      rw [List.flatMap_cons, textLines_take, scan_header, scan_lines rfl _ promises, readTake, List.foldl_append]
      cases (hunk.lines.take k).any DiffLine.stops with
      | true =>
        rw [if_pos rfl, if_pos rfl, folded]
        rfl
      | false =>
        rw [if_neg Bool.false_ne_true, if_neg Bool.false_ne_true,
          ih _ _ fun later listed => safe later (List.mem_cons_of_mem hunk listed), folded]
        rfl

theorem scan_preamble (preamble rest : List (List Char)) (plain : ∀ line ∈ preamble, ¬['@', '@'].isPrefixOf line) :
    scanPatch {} (preamble ++ rest) = scanPatch {} rest := by
  induction preamble with
  | nil => rfl
  | cons line preamble ih =>
    have here : ['@', '@'].isPrefixOf line = false := Bool.eq_false_iff.mpr (plain line List.mem_cons_self)
    have unseen : (!({} : PatchScan).seenHunk) = true := rfl
    rw [List.cons_append, scanPatch, here, if_neg (by simp), if_pos unseen]
    exact ih fun later listed => plain later (List.mem_cons_of_mem line listed)

-- The numbers added are those of the lines before the first one that stops the scan.
theorem readTake_length (k : Nat) (hunks : List Hunk) :
    (readTake k hunks).length = (readLines (linesWithin k hunks)).countP DiffLine.right := by
  induction hunks generalizing k with
  | nil => cases k <;> rfl
  | cons hunk rest ih =>
    cases k with
    | zero => rfl
    | succ k =>
      rw [readTake, List.length_append, rightFrom_length, linesWithin]
      generalize hunk.lines.take k = lines
      cases stops : lines.any DiffLine.stops with
      | false =>
        have through : ∀ line ∈ lines, (!line.stops) = true := by simpa using stops
        rw [if_neg (by simp), ih, readLines_through stops]
        simp only [readLines]
        rw [List.takeWhile_append_of_pos through, List.countP_append]
      | true =>
        have shorter : (lines.takeWhile fun line => !line.stops).length ≠ lines.length := by
          intro same
          have whole := (List.takeWhile_prefix fun line : DiffLine => !line.stops).eq_of_length same
          obtain ⟨line, listed, stop⟩ := List.any_eq_true.mp stops
          have passes := List.takeWhile_eq_self_iff.mp whole line listed
          rw [stop] at passes
          cases passes
        rw [if_pos rfl, readLines, readLines, List.takeWhile_append, if_neg shorter]
        rfl

theorem rightFrom_initial (n : Nat) {some_ lines : List DiffLine} (first : some_ <+: lines) : rightFrom n some_ <+: rightFrom n lines := by
  obtain ⟨more, total⟩ := Nat.exists_eq_add_of_le (first.sublist.countP_le (p := DiffLine.right))
  rw [rightFrom_range, rightFrom_range, total, ← List.range'_append_1]
  exact List.prefix_append _ _

theorem readTake_initial (k : Nat) (hunks : List Hunk) : readTake k hunks <+: hunks.flatMap Hunk.rightLines := by
  induction hunks generalizing k with
  | nil => cases k <;> exact List.nil_prefix
  | cons hunk rest ih =>
    cases k with
    | zero => exact List.nil_prefix
    | succ k =>
      have here := rightFrom_initial hunk.newStart (readLines_take k hunk.lines)
      rw [readTake, List.flatMap_cons]
      cases stops : (hunk.lines.take k).any DiffLine.stops with
      | true =>
        rw [if_pos rfl, List.append_nil]
        exact here.trans (List.prefix_append _ _)
      | false =>
        rw [if_neg Bool.false_ne_true]
        by_cases part : k < hunk.lines.length
        · have none' : readTake (k - hunk.lines.length) rest = [] := by
            rw [Nat.sub_eq_zero_of_le (by omega)]
            cases rest <;> rfl
          rw [none', List.append_nil]
          exact here.trans (List.prefix_append _ _)
        · rw [readLines_through stops, List.take_of_length_le (by omega)]
          exact (List.prefix_append_right_inj _).mpr (ih _)

theorem linesWithin_whole (hunks : List Hunk) : linesWithin (hunks.flatMap Hunk.textLines).length hunks = hunks.flatMap Hunk.lines := by
  induction hunks with
  | nil => rfl
  | cons hunk rest ih =>
    have length : ((hunk :: rest).flatMap Hunk.textLines).length = hunk.lines.length + (rest.flatMap Hunk.textLines).length + 1 := by
      simp [Hunk.textLines]
    rw [length, linesWithin, List.take_of_length_le (by omega), Nat.add_sub_cancel_left, ih, List.flatMap_cons]

-- A last line without text is an empty line of the last hunk.
theorem linesWithin_last {hunks : List Hunk} {texts : List (List Char)} (ends : hunks.flatMap Hunk.textLines = texts ++ [[]]) :
    linesWithin texts.length hunks ++ [.emptyContext] = hunks.flatMap Hunk.lines := by
  induction hunks generalizing texts with
  | nil => simp at ends
  | cons hunk rest ih =>
    rw [List.flatMap_cons, Hunk.textLines, List.cons_append] at ends
    rw [List.flatMap_cons]
    rcases List.eq_nil_or_concat (rest.flatMap Hunk.textLines) with none' | ⟨front, last, some_⟩
    · have alone : rest = [] := by
        cases rest with
        | nil => rfl
        | cons later rest => simp [Hunk.textLines] at none'
      subst alone
      rcases List.eq_nil_or_concat hunk.lines with empty | ⟨body, line, split⟩
      · rw [empty] at ends
        have header : hunk.header = [] := by
          cases texts with
          | nil => simpa using ends
          | cons first texts => simp at ends
        cases header
      · rw [split, List.concat_eq_append, List.map_append, List.flatMap_nil, List.append_nil] at ends
        obtain ⟨rfl, last⟩ := List.append_inj' (show (hunk.header :: body.map DiffLine.text) ++ [line.text] = texts ++ [[]] from ends) rfl
        have blank : line = .emptyContext := by cases line <;> simp_all [DiffLine.text]
        simp [linesWithin, split, blank]
    · rw [some_, List.concat_eq_append] at ends
      obtain ⟨rfl, last'⟩ := List.append_inj'
        (show (hunk.header :: (hunk.lines.map DiffLine.text ++ front)) ++ [last] = texts ++ [[]] by simpa using ends) rfl
      have later := @ih front (by rw [some_, List.concat_eq_append, last'])
      have length : (hunk.header :: (hunk.lines.map DiffLine.text ++ front)).length = hunk.lines.length + front.length + 1 := by simp
      rw [length, linesWithin, List.take_of_length_le (by omega), Nat.add_sub_cancel_left, List.append_assoc, later]

end Hunks

section Text

theorem header_plain {hunk : Hunk} (plain : '\n' ∉ hunk.heading) : '\n' ∉ hunk.header := by
  have digits : ∀ n, '\n' ∉ Nat.toDigits 10 n := by
    intro n listed
    have digit := toDigits_isDigit listed
    revert digit
    decide
  have counts : ∀ count shown, '\n' ∉ countText count shown := by
    intro count shown
    rw [countText]
    split
    · simp
    · simp [digits]
  simp [Hunk.header, digits, counts, plain]

variable (patch : FilePatch)

theorem textLines_plain : ∀ line ∈ patch.textLines, '\n' ∉ line := by
  intro line listed
  cases List.mem_append.mp listed with
  | inl before => exact (patch.preambleLines line before).2.1
  | inr inside =>
    obtain ⟨hunk, within, listed⟩ := List.mem_flatMap.mp inside
    cases List.mem_cons.mp listed with
    | inl header =>
      subst header
      exact header_plain (patch.headings hunk within)
    | inr body =>
      obtain ⟨diffLine, within', rfl⟩ := List.mem_map.mp body
      have content := patch.contents hunk within diffLine within'
      cases diffLine <;> simp_all [DiffLine.text, DiffLine.content]

theorem textLines_first : patch.textLines.head? ≠ some [] := by
  intro first
  rw [FilePatch.textLines] at first
  cases before : patch.preamble with
  | nil =>
    cases hunks : patch.hunks with
    | nil => simp [before, hunks] at first
    | cons hunk rest => simp [before, hunks, Hunk.textLines, Hunk.header] at first
  | cons line preamble =>
    have nonempty := (patch.preambleLines line (before ▸ List.mem_cons_self)).1
    simp [before, nonempty] at first

-- The lines that the parser goes through.
def patchLines (diff : List Char) : List (List Char) := (if ['\n'].isSuffixOf diff then diff.dropLast else diff).splitOn '\n'

theorem splitOn_patchLines (diff : List Char) :
    diff.splitOn '\n' = patchLines diff ++ if ['\n'].isSuffixOf diff then [[]] else [] := by
  rw [patchLines]
  by_cases ends : ['\n'].isSuffixOf diff = true
  · obtain ⟨before, split⟩ := List.isSuffixOf_iff_suffix.mp ends
    have pieces : (before ++ ['\n']).splitOn '\n' = before.splitOn '\n' ++ [[]] := List.splitOn_append_cons_self ..
    rw [if_pos ends, if_pos ends, ← split, List.dropLast_concat, pieces]
  · rw [if_neg ends, if_neg ends, List.append_nil]

theorem patchLines_text (filled : patch.textLines ≠ []) :
    patch.text ≠ [] ∧ patchLines patch.text = patch.textLines.take patch.linesRead := by
  have first := textLines_first patch
  have split := List.splitOn_intercalate '\n' (textLines_plain patch) filled
  have nonempty : ['\n'].intercalate patch.textLines ≠ [] := by
    intro empty
    rw [empty] at split
    rw [← split] at first
    exact first rfl
  rw [FilePatch.text, FilePatch.linesRead]
  cases newline : patch.trailingNewline with
  | true =>
    have kept : ¬patch.LosesLine := fun loses => Bool.noConfusion (newline.symm.trans loses.1)
    rw [if_pos rfl, if_neg kept, Nat.sub_zero, List.take_length, patchLines, if_pos (by simp), List.dropLast_concat, split]
    exact ⟨by simp, rfl⟩
  | false =>
    rw [if_neg Bool.false_ne_true, List.append_nil]
    refine ⟨nonempty, ?_⟩
    have lines := splitOn_patchLines (['\n'].intercalate patch.textLines)
    rw [split] at lines
    by_cases ends : ['\n'].isSuffixOf (['\n'].intercalate patch.textLines) = true
    · rw [if_pos ends] at lines
      have loses : patch.LosesLine := ⟨newline, by rw [lines, List.getLast?_concat]⟩
      rw [if_pos loses, ← List.dropLast_eq_take]
      conv_rhs => rw [lines]
      rw [List.dropLast_concat]
    · have open_ : (['\n'].intercalate patch.textLines).getLast? ≠ some '\n' := by
        intro last
        obtain ⟨before, split⟩ := List.getLast?_eq_some_iff.mp last
        exact ends (List.isSuffixOf_iff_suffix.mpr ⟨before, split.symm⟩)
      have kept : ¬patch.LosesLine := by
        intro loses
        have last := last_piece nonempty open_
        rw [split] at last
        exact last loses.2
      rw [if_neg ends, List.append_nil] at lines
      rw [if_neg kept, Nat.sub_zero, List.take_length, ← lines]

theorem parse_text : parseCommentableRightLineRanges patch.text = scanPatch {} (patch.textLines.take patch.linesRead) := by
  by_cases none' : patch.textLines = []
  · rw [FilePatch.text, none', List.take_nil]
    cases patch.trailingNewline <;> rfl
  · obtain ⟨filled, lines⟩ := patchLines_text patch none'
    rw [parseCommentableRightLineRanges, if_neg filled, ← lines]
    rfl

end Text

section Main

theorem rightLines_ascending {hunks : List Hunk}
    (ascending : hunks.Pairwise fun hunk later => 0 < later.rightCount → hunk.newStart + hunk.rightCount ≤ later.newStart) :
    (hunks.flatMap Hunk.rightLines).Pairwise (· < ·) := by
  induction hunks with
  | nil => exact List.Pairwise.nil
  | cons hunk rest ih =>
    obtain ⟨here, later⟩ := List.pairwise_cons.mp ascending
    rw [List.flatMap_cons, List.pairwise_append]
    have inside : hunk.rightLines.Pairwise (· < ·) := by
      rw [Hunk.rightLines, rightFrom_range]
      exact List.pairwise_lt_range'
    refine ⟨inside, ih later, ?_⟩
    intro n first m second
    obtain ⟨other, listed, second⟩ := List.mem_flatMap.mp second
    rw [Hunk.rightLines, rightFrom_range, List.mem_range'_1] at first second
    have gap := here other listed
    simp only [Hunk.rightCount] at gap
    omega

theorem rightLines_safe (patch : FilePatch) : ∀ n ∈ patch.rightLines, n ≤ maxSafe := by
  intro n listed
  obtain ⟨hunk, within, inside⟩ := List.mem_flatMap.mp listed
  rw [Hunk.rightLines, rightFrom_range, List.mem_range'_1] at inside
  have bound := patch.safe hunk within
  simp only [Hunk.rightCount] at bound
  omega

theorem scan_first_lines (patch : FilePatch) (k : Nat) : ExactRanges (readTake (k - patch.preamble.length) patch.hunks)
    (scanPatch {} (patch.textLines.take k)) := by
  have sub := (readTake_initial (k - patch.preamble.length) patch.hunks).sublist
  rw [FilePatch.textLines, List.take_append,
    scan_preamble _ _ fun line listed => (patch.preambleLines line (List.mem_of_mem_take listed)).2.2, scan_take _ _ _ patch.safe]
  exact (scan_all ((rightLines_ascending patch.ascending).sublist sub)
    fun n listed => rightLines_safe patch n (sub.subset listed)).exact

theorem rightLines_length (hunks : List Hunk) :
    (hunks.flatMap Hunk.rightLines).length = (hunks.flatMap Hunk.lines).countP DiffLine.right := by
  induction hunks with
  | nil => rfl
  | cons hunk rest ih =>
    rw [List.flatMap_cons, List.length_append, ih, List.flatMap_cons, List.countP_append, Hunk.rightLines, rightFrom_length]

-- The lines of the hunks that the parser goes through.
def FilePatch.linesScanned (patch : FilePatch) : List DiffLine := linesWithin (patch.linesRead - patch.preamble.length) patch.hunks

theorem linesScanned_whole {patch : FilePatch} (kept : ¬patch.LosesLine) : patch.linesScanned = patch.diffLines := by
  rw [FilePatch.linesScanned, FilePatch.linesRead, if_neg kept, FilePatch.textLines, List.length_append, Nat.sub_zero, Nat.add_sub_cancel_left]
  exact linesWithin_whole patch.hunks

theorem linesScanned_loses {patch : FilePatch} (loses : patch.LosesLine) : patch.linesScanned ++ [.emptyContext] = patch.diffLines := by
  have last := loses.2
  rw [FilePatch.textLines] at last
  rcases List.eq_nil_or_concat (patch.hunks.flatMap Hunk.textLines) with none' | ⟨texts, text, ends⟩
  · rw [none', List.append_nil] at last
    exact absurd rfl (patch.preambleLines [] (List.mem_of_getLast? last)).1
  · rw [ends, List.concat_eq_append, ← List.append_assoc, List.getLast?_concat] at last
    rw [Option.some.inj last, List.concat_eq_append] at ends
    have count : patch.linesRead - patch.preamble.length = texts.length := by
      rw [FilePatch.linesRead, if_pos loses, FilePatch.textLines, ends]
      simp
    rw [FilePatch.linesScanned, count]
    exact linesWithin_last ends

theorem readTake_eq_iff (patch : FilePatch) :
    readTake (patch.linesRead - patch.preamble.length) patch.hunks = patch.rightLines ↔ patch.ReadToEnd ∧ ¬patch.LosesLine := by
  have total : patch.rightLines.length = patch.diffLines.countP DiffLine.right := rightLines_length patch.hunks
  have read : _ = (readLines patch.linesScanned).countP DiffLine.right := readTake_length (patch.linesRead - patch.preamble.length) patch.hunks
  have split : patch.linesScanned.countP DiffLine.right = (readLines patch.linesScanned).countP DiffLine.right +
      (patch.linesScanned.dropWhile fun line => !line.stops).countP DiffLine.right := by
    rw [← List.countP_append, readLines, List.takeWhile_append_dropWhile]
  by_cases loses : patch.LosesLine
  · rw [← linesScanned_loses loses, List.countP_append] at total
    have last : [DiffLine.emptyContext].countP DiffLine.right = 1 := rfl
    refine ⟨fun same => ?_, fun condition => absurd loses condition.2⟩
    have lengths := congrArg List.length same
    omega
  · rw [linesScanned_whole loses] at read split
    have none' : (patch.diffLines.dropWhile fun line => !line.stops).countP DiffLine.right = 0 ↔ patch.ReadToEnd := by
      simp [List.countP_eq_zero, FilePatch.ReadToEnd]
    rw [← none']
    constructor
    · intro same
      have lengths := congrArg List.length same
      exact ⟨by omega, loses⟩
    · intro zero
      have zero := zero.1
      have initial : readTake (patch.linesRead - patch.preamble.length) patch.hunks <+: patch.rightLines := readTake_initial _ patch.hunks
      exact initial.eq_of_length (by omega)

theorem ingest_first {files : List ListedPrFile} {listed : ListedPrFile} {table : Table String CachedPrFileDiff}
    (fresh : table.get? listed.filename = none)
    (first : files.find? (fun file => file.filename = listed.filename) = some listed) :
    (files.foldl ingestFile table).get? listed.filename = some listed.cached := by
  have kept : ∀ (files : List ListedPrFile) (table : Table String CachedPrFileDiff) (entry : CachedPrFileDiff),
      table.get? listed.filename = some entry → (files.foldl ingestFile table).get? listed.filename = some entry := by
    intro files
    induction files with
    | nil => exact fun _ _ stored => stored
    | cons file rest ih =>
      intro table entry stored
      apply ih
      rw [ingestFile]
      by_cases known : (table.get? file.filename).isSome
      · rw [if_pos known]
        exact stored
      · have other : listed.filename ≠ file.filename := by
          intro same
          rw [← same, stored] at known
          exact known rfl
        rw [if_neg known, Table.get?_set_of_ne _ _ _ other]
        exact stored
  induction files generalizing table with
  | nil => cases first
  | cons file rest ih =>
    rw [List.foldl_cons]
    by_cases here : file.filename = listed.filename
    · rw [List.find?_cons_of_pos (by simpa using here)] at first
      cases first
      apply kept
      simp [ingestFile, fresh]
    · rw [List.find?_cons_of_neg (by simpa using here)] at first
      apply ih _ first
      rw [ingestFile]
      split
      · exact fresh
      · rw [Table.get?_set_of_ne _ _ _ (Ne.symm here)]
        exact fresh

structure CommentableExactly (patch : FilePatch) : Prop where
  ranges : ExactRanges patch.rightLines (parseCommentableRightLineRanges patch.text)
  -- in an index that has the patch from the first listing of its file
  anchors : ∀ (index : CachedPrDiffIndex) (files : List ListedPrFile) (listed : ListedPrFile),
    index.files.get? listed.filename = none →
    files.find? (fun file => file.filename = listed.filename) = some listed →
    listed.patch = some patch.text → listed.patchOmitted ≠ some true →
    ∀ startLine endLine, IsAnchor (· ∈ patch.rightLines) (min startLine endLine) (max startLine endLine)
      (resolveInlineAnchorLine (some (ingestListPullRequestFilesResult index { files := some files })) listed.filename
        startLine endLine)

theorem anchors_of_ranges {patch : FilePatch}
    (exact' : ExactRanges patch.rightLines (parseCommentableRightLineRanges patch.text)) : CommentableExactly patch where
  ranges := exact'
  anchors := by
    intro index files listed fresh first delivered kept startLine endLine
    have stored : (ingestListPullRequestFilesResult index { files := some files }).files.get? listed.filename =
        some listed.cached := ingest_first fresh first
    by_cases empty : patch.text = []
    · have omitted : listed.omitted = true := by simp [ListedPrFile.omitted, delivered, empty]
      simp only [resolveInlineAnchorLine, Option.bind_some, stored, ListedPrFile.cached, omitted, Bool.true_or, if_true]
      intro n inside
      rw [empty] at exact'
      obtain ⟨range, absent, _⟩ := (exact'.union n).mpr inside
      cases absent
    · have omitted : listed.omitted = false := by simp [ListedPrFile.omitted, delivered, empty, kept]
      have ranges : listed.cached.commentableRightLineRanges = parseCommentableRightLineRanges patch.text := by
        simp [ListedPrFile.cached, omitted, delivered]
      exact resolve_anchor stored omitted (ranges ▸ exact') startLine endLine

-- The scan takes a line such as `+++ x` or `--- x` of a hunk for a file header, and drops what follows. An empty line at the end of a
-- patch without a final newline it takes for that newline.
theorem commentable_lines_exact_iff (patch : FilePatch) : CommentableExactly patch ↔ patch.ReadToEnd ∧ ¬patch.LosesLine := by
  rw [← readTake_eq_iff]
  have read := scan_first_lines patch patch.linesRead
  rw [← parse_text] at read
  constructor
  · intro exactly
    have lines := exactly.ranges.lines_subset read
    have nodup : patch.rightLines.Nodup := (rightLines_ascending patch.ascending).imp Nat.ne_of_lt
    have lengths := (nodup.subperm lines).length_le
    exact (readTake_initial _ patch.hunks).eq_of_length_le lengths
  · intro same
    rw [same] at read
    exact anchors_of_ranges read

-- A removed SQL comment before a line that stays.
def removedComment : FilePatch where
  preamble := []
  hunks := [{ oldStart := 1, newStart := 1, lines := [.removed "-- users".toList, .context "select 1;".toList] }]
  trailingNewline := false
  preambleLines := by simp
  headings := by simp
  contents := by simp [DiffLine.content]
  ascending := by simp
  safe := by simp [Hunk.rightCount, DiffLine.right, maxSafe]

theorem removed_comment_hides_line : ¬CommentableExactly removedComment := by
  intro exactly
  have none' : parseCommentableRightLineRanges removedComment.text = [] := by decide
  have listed : 1 ∈ removedComment.rightLines := by decide
  obtain ⟨range, absent, _⟩ := (exactly.ranges.union 1).mpr listed
  rw [none'] at absent
  cases absent

-- An empty second line, and no final newline.
example : parseCommentableRightLineRanges "@@ -1,2 +1,2 @@\n a\n".toList = [(1, 1)] := by decide

end Main
end PrAgent
