import PrAgent.GitDiffText
import PrAgent.SplitPieces
set_option autoImplicit false

namespace PrAgent

section Readers

-- `.`
def dot : Pattern Char := .one fun c => !isLineTerminator c

-- The second group of `/^diff --git a\/(.+) b\/(.+)$/`, from its capture on and from each of its literals on.
def lastGroup (s : Text) : Option Text :=
  (Pattern.some1 dot).keep (fun path rest => if rest = [] then some path else none) s

def separatedGroup (s : Text) : Option Text := (Pattern.literal (text " b/")).skip lastGroup s

def headerGroup (line : Text) : Option Text :=
  (Pattern.literal (text "diff --git a/")).skip ((Pattern.some1 dot).skip separatedGroup) line

def headerPath (line : Text) : Option Text :=
  if !(text "diff --git ").isPrefixOf line then none else (headerGroup line).filter fun path => path.length > 0

def pathsFromUnifiedDiff (diff : Text) : List Text := firsts id ((diff.splitOn '\n').filterMap headerPath)

def countsAsChange (line : Text) : Bool :=
  (line.head? = some '+' || line.head? = some '-') && !(text "+++").isPrefixOf line && !(text "---").isPrefixOf line

def changedLineCount (diff : Text) : Nat := ((diff.splitOn '\n').filter countsAsChange).length

end Readers

section Shown

theorem of_all_bytes {holds : UInt8 → Prop} (all : ∀ n < 256, holds (UInt8.ofNat n)) (byte : UInt8) : holds byte := by
  have here := all byte.toNat byte.toNat_lt
  rwa [UInt8.ofNat_toNat] at here

theorem escapeByte_single (byte : UInt8) : '\n' ∉ GitName.escapeByte byte := by
  have all : ∀ n < 256, '\n' ∉ GitName.escapeByte (UInt8.ofNat n) := by decide +kernel
  exact @of_all_bytes (fun byte => '\n' ∉ GitName.escapeByte byte) all byte

-- A byte that needs no quoting is printed as a character of its own.
structure PlainByte (byte : UInt8) : Prop where
  shown : isLineTerminator (GitName.byteChar byte) = false
  single : GitName.byteChar byte ≠ '\n'
  unescaped : GitName.byteChar byte ≠ '\\'
  written : String.utf8EncodeChar (GitName.byteChar byte) = [byte]

instance (byte : UInt8) : Decidable (PlainByte byte) :=
  decidable_of_iff (isLineTerminator (GitName.byteChar byte) = false ∧ GitName.byteChar byte ≠ '\n' ∧
    GitName.byteChar byte ≠ '\\' ∧ String.utf8EncodeChar (GitName.byteChar byte) = [byte])
    ⟨fun ⟨shown, single, unescaped, written⟩ => ⟨shown, single, unescaped, written⟩,
      fun plain => ⟨plain.shown, plain.single, plain.unescaped, plain.written⟩⟩

theorem plainByte (byte : UInt8) : GitName.quotesByte byte = false → PlainByte byte := by
  have all : ∀ n < 256, GitName.quotesByte (UInt8.ofNat n) = false → PlainByte (UInt8.ofNat n) := by decide +kernel
  exact @of_all_bytes (fun byte => GitName.quotesByte byte = false → PlainByte byte) all byte

theorem plain_of_not_quoted {name : GitName} (plain : name.quoted = false) {byte : UInt8} (listed : byte ∈ name.bytes) :
    PlainByte byte := by
  rw [GitName.quoted, List.any_eq_false] at plain
  exact plainByte byte (by simpa using plain byte listed)

theorem side_single {mark : Text} (single : '\n' ∉ mark) (name : GitName) : '\n' ∉ name.side mark := by
  rw [GitName.side]
  cases quoted : name.quoted with
  | true =>
      rw [if_pos rfl]
      intro listed
      have cases_ : '\n' = '"' ∨ '\n' ∈ mark ∨ '\n' ∈ name.bytes.flatMap GitName.escapeByte ∨ '\n' = '"' := by
        simpa using listed
      rcases cases_ with wrong | here | here | wrong
      · exact absurd wrong (by decide)
      · exact single here
      · obtain ⟨byte, _, inside⟩ := List.mem_flatMap.mp here
        exact escapeByte_single byte inside
      · exact absurd wrong (by decide)
  | false =>
      rw [if_neg (by decide)]
      intro listed
      cases List.mem_append.mp listed with
      | inl here => exact single here
      | inr here =>
          obtain ⟨byte, inside, same⟩ := List.mem_map.mp here
          exact (plain_of_not_quoted quoted inside).single same

theorem tab_single (name : GitName) : '\n' ∉ name.tab := by
  rw [GitName.tab]
  split <;> decide

theorem hunkLine_single (line : HunkLine) : '\n' ∉ line.shown := by
  cases line with
  | noNewline => decide
  | context content =>
      have single := content.single
      simp [HunkLine.shown, single]
  | removed content =>
      have single := content.single
      simp [HunkLine.shown, single]
  | added content =>
      have single := content.single
      simp [HunkLine.shown, single]

theorem hunk_single (hunk : DiffHunk) : ∀ line ∈ hunk.shown, '\n' ∉ line := by
  intro line listed
  cases List.mem_cons.mp listed with
  | inl first =>
      subst first
      intro here
      cases List.mem_append.mp here with
      | inl word => exact absurd word (by decide)
      | inr range => exact hunk.range.single range
  | inr rest =>
      obtain ⟨inner, _, same⟩ := List.mem_map.mp rest
      exact same ▸ hunkLine_single inner

theorem header_single (file : FileDiff) : '\n' ∉ file.header := by
  have left := @side_single (text "a/") (by decide) file.path
  have right := @side_single (text "b/") (by decide) file.path
  have word : '\n' ∉ text "diff --git " := by decide
  simp [FileDiff.header, left, right, word]

theorem bodyLines_single (file : FileDiff) : ∀ line ∈ file.bodyLines, '\n' ∉ line := by
  have left := @side_single (text "a/") (by decide) file.path
  have right := @side_single (text "b/") (by decide) file.path
  have tab := tab_single file.path
  intro line listed
  rw [FileDiff.bodyLines] at listed
  cases body : file.body with
  | unchanged =>
      rw [body] at listed
      cases listed
  | binary =>
      rw [body] at listed
      obtain rfl := List.mem_singleton.mp listed
      have first : '\n' ∉ text "Binary files " := by decide
      have second : '\n' ∉ text " and " := by decide
      have third : '\n' ∉ text " differ" := by decide
      simp [left, right, first, second, third]
  | hunks fromNothing toNothing parts =>
      rw [body] at listed
      have nothing : '\n' ∉ text "/dev/null" := by decide
      have old : '\n' ∉ text "--- " := by decide
      have new : '\n' ∉ text "+++ " := by decide
      rcases List.mem_cons.mp listed with rfl | rest
      · cases fromNothing <;> simp [old, nothing, left, tab]
      · rcases List.mem_cons.mp rest with rfl | rest
        · cases toNothing <;> simp [new, nothing, right, tab]
        · obtain ⟨hunk, _, inside⟩ := List.mem_flatMap.mp rest
          exact hunk_single hunk line inside

theorem shown_single (file : FileDiff) : ∀ line ∈ file.shown, '\n' ∉ line := by
  intro line listed
  cases List.mem_cons.mp listed with
  | inl first => exact first ▸ header_single file
  | inr rest =>
      cases List.mem_append.mp rest with
      | inl extended =>
          obtain ⟨⟨kind, content⟩, _, same⟩ := List.mem_map.mp extended
          subst same
          have single := content.single
          have word : '\n' ∉ kind.word := by cases kind <;> decide
          simp [single, word]
      | inr body => exact bodyLines_single file line body

theorem diffText_lines (files : List FileDiff) : (diffText files).splitOn '\n' = files.flatMap FileDiff.shown ++ [[]] := by
  apply splitOn_terminated
  intro line listed
  obtain ⟨file, _, inside⟩ := List.mem_flatMap.mp listed
  exact shown_single file line inside

end Shown
section Greedy

open Pattern

theorem skip_many_cons {allows : Char → Bool} {f : Text → Option Text} (c : Char) (s : Text) :
    (many (.one allows)).skip f (c :: s) =
      if allows c then ((many (.one allows)).skip f s).or (f (c :: s)) else f (c :: s) := by
  cases allowed : allows c with
  | true =>
      have step : (many (.one allows)).results (c :: s) = (many (.one allows)).results s ++ [c :: s] := by
        simp [results, repeats, allowed]
      rw [if_pos rfl, skip, step, List.findSome?_append]
      cases here : f (c :: s) <;> simp [skip, here]
  | false =>
      have stop : (many (.one allows)).results (c :: s) = [c :: s] := by simp [results, repeats, allowed]
      rw [if_neg (by decide), skip, stop]
      cases here : f (c :: s) <;> simp [here]

-- What a greedy run finds in the end of a text it finds in the whole of it.
theorem skip_many_later {allows : Char → Bool} {f : Text → Option Text} {found : Text} (before : Text) {s : Text}
    (all : ∀ c ∈ before, allows c = true) (later : (many (.one allows)).skip f s = some found) :
    (many (.one allows)).skip f (before ++ s) = some found := by
  induction before with
  | nil => exact later
  | cons c before ih =>
      have rest := ih fun d listed => all d (List.mem_cons_of_mem _ listed)
      rw [List.cons_append, skip_many_cons, if_pos (all c List.mem_cons_self), rest, Option.some_or]

theorem exists_last_infix {part s : Text} (inside : part <:+: s) (nonempty : part ≠ []) :
    ∃ before after, s = before ++ (part ++ after) ∧ ¬ part <:+: after := by
  induction length : s.length using Nat.strong_induction_on generalizing s with
  | h n ih =>
      obtain ⟨before, after, split⟩ := inside
      rw [List.append_assoc] at split
      by_cases again : part <:+: after
      · have shorter : after.length < n := by
          have positive := List.length_pos_iff.mpr nonempty
          have sizes := congrArg List.length split
          simp only [List.length_append] at sizes
          omega
        obtain ⟨inner, rest, split', last⟩ := ih after.length shorter again rfl
        refine ⟨before ++ (part ++ inner), rest, ?_, last⟩
        rw [← split, split']
        simp [List.append_assoc]
      · exact ⟨before, after, split.symm, again⟩

def separator : Text := text " b/"

theorem lastGroup_eq_some {s path : Text} (here : lastGroup s = some path) : s = path := by
  obtain ⟨x, r, _, split, read⟩ := keep_eq_some here
  obtain ⟨done, read⟩ := Option.ite_none_right_eq_some.mp read
  cases read
  rw [split, done, List.append_nil]

theorem lastGroup_solid {s : Text} (nonempty : s ≠ []) (solid : ∀ c ∈ s, isLineTerminator c = false) :
    lastGroup s = some s := by
  have first : (some1 dot).First (s ++ []) [] :=
    First.class1 s nonempty (fun c listed => by simp [solid c listed]) (by simp)
  have read := keep_first (f := fun path rest => if rest = [] then some path else none) (x := s) first (if_pos rfl)
  rwa [List.append_nil] at read

theorem separatedGroup_eq_some {s path : Text} (here : separatedGroup s = some path) : s = separator ++ path := by
  obtain ⟨x, r, matched, split, read⟩ := skip_eq_some here
  rw [split, matches_literal.mp matched, lastGroup_eq_some read]
  rfl

theorem skip_many_absent {s : Text} (absent : ¬ separator <:+: s) : (many dot).skip separatedGroup s = none := by
  cases here : (many dot).skip separatedGroup s with
  | none => rfl
  | some path =>
      obtain ⟨x, r, _, split, read⟩ := skip_eq_some here
      exact absurd ⟨x, path, by rw [split, separatedGroup_eq_some read, List.append_assoc]⟩ absent

theorem skip_many_separator {s : Text} (nonempty : s ≠ []) (solid : ∀ c ∈ s, isLineTerminator c = false)
    (absent : ¬ separator <:+: s) : (many dot).skip separatedGroup (separator ++ s) = some s := by
  have read : separatedGroup (separator ++ s) = some s := by
    rw [separatedGroup, separator, skip_literal, lastGroup_solid nonempty solid]
  have here : (many dot).skip separatedGroup s = none := skip_many_absent absent
  have slash : separatedGroup ('/' :: s) = none := skip_literal_head (by decide)
  have mark : separatedGroup ('b' :: '/' :: s) = none := skip_literal_head (by decide)
  have letters : separator ++ s = ' ' :: 'b' :: '/' :: s := rfl
  rw [letters] at read ⊢
  rw [dot, skip_many_cons, if_pos (by decide), skip_many_cons, if_pos (by decide), skip_many_cons, if_pos (by decide)]
  rw [dot] at here
  rw [here, slash, mark, read]
  rfl

end Greedy
section Headers

open Pattern

theorem GitName.filled (name : GitName) : name.bytes ≠ [] := by
  intro empty
  have accepted := name.accepted
  rw [gitAccepts, empty] at accepted
  exact absurd accepted (by decide)

theorem GitName.ends (name : GitName) (before : List UInt8) : name.bytes ≠ before ++ [47] := by
  intro split
  have accepted := name.accepted
  rw [gitAccepts, split, Bool.and_eq_true, List.all_eq_true] at accepted
  have last : [] ∈ (before ++ [47]).splitOn (47 : UInt8) := by
    rw [List.splitOn, List.splitOnP_append_cons _ _ (by decide)]
    simp
  exact absurd (accepted.2 [] last) (by decide)

theorem plainText_solid {name : GitName} (plain : name.quoted = false) : ∀ c ∈ name.plainText, isLineTerminator c = false := by
  intro c listed
  obtain ⟨byte, inside, same⟩ := List.mem_map.mp listed
  exact same ▸ (plain_of_not_quoted plain inside).shown

theorem plainText_written {name : GitName} (plain : name.quoted = false) {part : Text} (inside : part <:+: name.plainText) :
    (writeUtf8 part).length = part.length := by
  have single : ∀ c ∈ part, (String.utf8EncodeChar c).length = 1 := by
    intro c listed
    obtain ⟨byte, here, same⟩ := List.mem_map.mp (inside.subset listed)
    rw [← same, (plain_of_not_quoted plain here).written, List.length_singleton]
  rw [writeUtf8, List.length_flatMap, List.map_congr_left single]
  simp

theorem writeUtf8_plainText {name : GitName} (plain : name.quoted = false) : writeUtf8 name.plainText = name.bytes := by
  have single : ∀ byte ∈ name.bytes, String.utf8EncodeChar (GitName.byteChar byte) = [byte] :=
    fun byte listed => (plain_of_not_quoted plain listed).written
  rw [writeUtf8, GitName.plainText, List.flatMap_map, List.flatMap_congr single]
  simp

-- The text before the last separator is taken, and what follows it is the path.
theorem headerGroup_last {name before after : Text} (solid : ∀ c ∈ name, isLineTerminator c = false) (nonempty : name ≠ [])
    (split : separator ++ name = before ++ (separator ++ after)) (filled : after ≠ []) (last : ¬ separator <:+: after) :
    (some1 dot).skip separatedGroup (name ++ (separator ++ name)) = some after := by
  have all : ∀ c ∈ separator ++ name, isLineTerminator c = false := by
    intro c listed
    cases List.mem_append.mp listed with
    | inl here =>
        have letters : (separator.all fun c => !isLineTerminator c) = true := rfl
        simpa using List.all_eq_true.mp letters c here
    | inr here => exact solid c here
  have found : (many dot).skip separatedGroup (separator ++ after) = some after := by
    apply skip_many_separator filled _ last
    intro c listed
    exact all c (by rw [split]; simp [listed])
  obtain ⟨c, rest, rfl⟩ := List.exists_cons_of_ne_nil nonempty
  have later : (many dot).skip separatedGroup ((rest ++ before) ++ (separator ++ after)) = some after := by
    apply skip_many_later (rest ++ before) _ found
    intro d listed
    have inside : isLineTerminator d = false := by
      cases List.mem_append.mp listed with
      | inl here => exact solid d (List.mem_cons_of_mem _ here)
      | inr here => exact all d (by rw [split]; simp [here])
    simp [inside]
  rw [List.append_assoc, ← split] at later
  rw [some1, skip_seq, List.cons_append]
  have first := solid c List.mem_cons_self
  rw [dot, skip_one, if_pos (by simp [first])]
  exact later

-- A name that the pattern reads back.
structure ReadBack (name : GitName) : Prop where
  plain : name.quoted = false
  whole : ¬ separator <:+: name.plainText

instance (name : GitName) : Decidable (ReadBack name) :=
  decidable_of_iff (name.quoted = false ∧ ¬ separator <:+: name.plainText)
    ⟨fun ⟨plain, whole⟩ => ⟨plain, whole⟩, fun read => ⟨read.plain, read.whole⟩⟩

theorem header_quoted {file : FileDiff} (quoted : file.path.quoted = true) : headerPath file.header = none := by
  have letters : file.header = text "diff --git \"" ++ (text "a/" ++ (file.path.bytes.flatMap GitName.escapeByte ++ ['"']) ++
      ' ' :: file.path.side (text "b/")) := by
    rw [FileDiff.header, GitName.side, if_pos quoted]
    rfl
  rw [headerPath, headerGroup, letters, skip_literal_differs (by decide)]
  split <;> rfl

theorem header_unquoted {file : FileDiff} (plain : file.path.quoted = false) :
    headerPath file.header = ((some1 dot).skip separatedGroup
      (file.path.plainText ++ (separator ++ file.path.plainText))).filter fun path => path.length > 0 := by
  have letters : file.header = text "diff --git a/" ++ (file.path.plainText ++ (separator ++ file.path.plainText)) := by
    rw [FileDiff.header, GitName.side, GitName.side, plain, if_neg (by decide), if_neg (by decide)]
    simp [text, separator]
  have starts : (text "diff --git ").isPrefixOf file.header = true := by
    rw [letters]
    rfl
  rw [headerPath, starts, headerGroup, letters, skip_literal]
  rfl

theorem plainText_ne_nil (name : GitName) : name.plainText ≠ [] := by
  intro empty
  exact name.filled (List.map_eq_nil_iff.mp empty)

theorem header_readBack {file : FileDiff} (read : ReadBack file.path) : headerPath file.header = some file.path.plainText := by
  have nonempty := plainText_ne_nil file.path
  have group := @headerGroup_last file.path.plainText [] file.path.plainText (plainText_solid read.plain) nonempty rfl nonempty
    read.whole
  have positive := List.length_pos_iff.mpr nonempty
  rw [header_unquoted read.plain, group, Option.filter_some, if_pos (decide_eq_true positive)]

-- Of any other name that is printed plain, the pattern reads a proper part.
theorem header_shorter {file : FileDiff} (plain : file.path.quoted = false) (separated : separator <:+: file.path.plainText) :
    ∃ path, headerPath file.header = some path ∧ path <:+: file.path.plainText ∧ path.length < file.path.bytes.length := by
  obtain ⟨before, after, split, last⟩ := exists_last_infix separated (by decide)
  have size : file.path.bytes.length = before.length + (3 + after.length) := by
    have sizes := congrArg List.length split
    rw [GitName.plainText, List.length_map, List.length_append, List.length_append] at sizes
    exact sizes
  have filled : after ≠ [] := by
    intro empty
    rw [empty, List.append_nil] at split
    have bytes : file.path.bytes = writeUtf8 before ++ [32, 98] ++ [47] := by
      rw [← writeUtf8_plainText plain, split, writeUtf8_append, List.append_assoc]
      rfl
    exact file.path.ends _ bytes
  have group := @headerGroup_last file.path.plainText (separator ++ before) after (plainText_solid plain)
    (plainText_ne_nil file.path) (by rw [List.append_assoc, ← split]) filled last
  have positive := List.length_pos_iff.mpr filled
  refine ⟨after, ?_, ⟨before ++ separator, [], by rw [split]; simp⟩, by omega⟩
  rw [header_unquoted plain, group, Option.filter_some, if_pos (decide_eq_true positive)]

end Headers

section Paths

open Pattern

theorem isPrefixOf_differs {word start : Text} (differ : differs word start = true) (rest : Text) :
    word.isPrefixOf (start ++ rest) = false := by
  induction word generalizing start with
  | nil => cases differ
  | cons c word ih =>
      cases start with
      | nil => cases differ
      | cons d start =>
          by_cases same : c = d
          · subst same
            have later := @ih start (by simpa [differs] using differ)
            simp [later]
          · simp [List.isPrefixOf, same]

-- No other line of a diff is taken for a header or for a change.
structure OtherLine (line : Text) : Prop where
  unread : headerPath line = none
  uncounted : countsAsChange line = false

theorem otherLine {c : Char} {start : Text} (differ : differs (text "diff --git ") (c :: start) = true)
    (plus : c ≠ '+') (minus : c ≠ '-') (rest : Text) : OtherLine ((c :: start) ++ rest) where
  unread := by
    rw [headerPath, isPrefixOf_differs differ]
    rfl
  uncounted := by simp [countsAsChange, plus, minus]

theorem other_mark (mark rest : Text) (listed : mark = text "--- " ∨ mark = text "+++ ") : OtherLine (mark ++ rest) := by
  cases listed with
  | inl old =>
      subst old
      constructor
      · rw [headerPath, @isPrefixOf_differs (text "diff --git ") (text "--- ") (by decide)]
        rfl
      · rfl
  | inr new =>
      subst new
      constructor
      · rw [headerPath, @isPrefixOf_differs (text "diff --git ") (text "+++ ") (by decide)]
        rfl
      · rfl

theorem other_extended (kind : ExtendedHeader) (rest : Text) : OtherLine (kind.word ++ rest) := by
  cases kind with
  | oldMode => exact @otherLine 'o' (text "ld mode ") (by decide) (by decide) (by decide) rest
  | newMode => exact @otherLine 'n' (text "ew mode ") (by decide) (by decide) (by decide) rest
  | deletedFileMode => exact @otherLine 'd' (text "eleted file mode ") (by decide) (by decide) (by decide) rest
  | newFileMode => exact @otherLine 'n' (text "ew file mode ") (by decide) (by decide) (by decide) rest
  | index => exact @otherLine 'i' (text "ndex ") (by decide) (by decide) (by decide) rest

theorem header_uncounted (file : FileDiff) : countsAsChange file.header = false := by
  have letters : file.header = 'd' :: (text "iff --git " ++ (file.path.side (text "a/") ++ ' ' :: file.path.side (text "b/"))) := rfl
  simp [letters, countsAsChange]

-- Content that the count takes for the header of a file.
def HunkLine.hidden : HunkLine → Bool
  | .removed content => (text "--").isPrefixOf content.chars
  | .added content => (text "++").isPrefixOf content.chars
  | _ => false

theorem hunkLine_counted (line : HunkLine) :
    headerPath line.shown = none ∧ countsAsChange line.shown = (line.isChange && !line.hidden) := by
  cases line with
  | context content =>
      have other := @otherLine ' ' [] (by decide) (by decide) (by decide) content.chars
      exact ⟨other.unread, other.uncounted⟩
  | noNewline =>
      have other := @otherLine '\\' (text " No newline at end of file") (by decide) (by decide) (by decide) []
      exact ⟨other.unread, other.uncounted⟩
  | removed content =>
      constructor
      · rw [headerPath, HunkLine.shown, ← List.singleton_append, @isPrefixOf_differs (text "diff --git ") ['-'] (by decide)]
        rfl
      · rfl
  | added content =>
      constructor
      · rw [headerPath, HunkLine.shown, ← List.singleton_append, @isPrefixOf_differs (text "diff --git ") ['+'] (by decide)]
        rfl
      · have minus : ['-', '-', '-'].isPrefixOf ('+' :: content.chars) = false := rfl
        simp [countsAsChange, HunkLine.shown, HunkLine.isChange, HunkLine.hidden, text, minus]

theorem hunks_counted (parts : List DiffHunk) :
    (parts.flatMap DiffHunk.shown).filterMap headerPath = [] ∧
      (parts.flatMap DiffHunk.shown).countP countsAsChange =
        (parts.flatMap DiffHunk.lines).countP fun line => line.isChange && !line.hidden := by
  induction parts with
  | nil => exact ⟨rfl, rfl⟩
  | cons hunk parts ih =>
      have range : OtherLine (text "@@ " ++ hunk.range.chars) :=
        @otherLine '@' (text "@ ") (by decide) (by decide) (by decide) hunk.range.chars
      have unread : (hunk.lines.map HunkLine.shown).filterMap headerPath = [] := by
        apply List.filterMap_eq_nil_iff.mpr
        intro line listed
        obtain ⟨inner, _, same⟩ := List.mem_map.mp listed
        exact same ▸ (hunkLine_counted inner).1
      have counted : (hunk.lines.map HunkLine.shown).countP countsAsChange =
          hunk.lines.countP fun line => line.isChange && !line.hidden := by
        rw [List.countP_map]
        apply List.countP_congr
        intro line _
        rw [Function.comp_apply, (hunkLine_counted line).2]
      constructor
      · rw [List.flatMap_cons, List.filterMap_append, ih.1, DiffHunk.shown, List.filterMap_cons_none range.unread, unread]
        rfl
      · rw [List.flatMap_cons, List.flatMap_cons, List.countP_append, List.countP_append, ih.2, DiffHunk.shown,
          List.countP_cons_of_neg (by simp [range.uncounted]), counted]

theorem body_counted (file : FileDiff) :
    file.bodyLines.filterMap headerPath = [] ∧
      file.bodyLines.countP countsAsChange = file.hunkLines.countP fun line => line.isChange && !line.hidden := by
  rw [FileDiff.bodyLines, FileDiff.hunkLines]
  cases file.body with
  | unchanged => exact ⟨rfl, rfl⟩
  | binary =>
      have other (rest : Text) : OtherLine (text "Binary files " ++ rest) :=
        @otherLine 'B' (text "inary files ") (by decide) (by decide) (by decide) rest
      constructor
      · rw [List.filterMap_cons_none (other _).unread, List.filterMap_nil]
      · rw [List.countP_cons_of_neg (by simp [(other _).uncounted])]
        rfl
  | hunks fromNothing toNothing parts =>
      have old (rest : Text) : OtherLine (text "--- " ++ rest) := other_mark _ rest (.inl rfl)
      have new (rest : Text) : OtherLine (text "+++ " ++ rest) := other_mark _ rest (.inr rfl)
      constructor
      · rw [List.filterMap_cons_none (old _).unread, List.filterMap_cons_none (new _).unread, (hunks_counted parts).1]
      · rw [List.countP_cons_of_neg (by simp [(old _).uncounted]), List.countP_cons_of_neg (by simp [(new _).uncounted]),
          (hunks_counted parts).2]

theorem shown_counted (file : FileDiff) :
    file.shown.filterMap headerPath = (headerPath file.header).toList ∧
      file.shown.countP countsAsChange = file.hunkLines.countP fun line => line.isChange && !line.hidden := by
  have unread : (file.extended.map fun line => line.1.word ++ line.2.chars).filterMap headerPath = [] := by
    apply List.filterMap_eq_nil_iff.mpr
    intro line listed
    obtain ⟨inner, _, same⟩ := List.mem_map.mp listed
    exact same ▸ (other_extended inner.1 inner.2.chars).unread
  have uncounted : (file.extended.map fun line => line.1.word ++ line.2.chars).countP countsAsChange = 0 := by
    apply List.countP_eq_zero.mpr
    intro line listed
    obtain ⟨inner, _, same⟩ := List.mem_map.mp listed
    simp [← same, (other_extended inner.1 inner.2.chars).uncounted]
  constructor
  · rw [FileDiff.shown, List.filterMap_cons, List.filterMap_append, unread, (body_counted file).1]
    cases headerPath file.header <;> rfl
  · rw [FileDiff.shown, List.countP_cons_of_neg (by simp [header_uncounted file]), List.countP_append, uncounted,
      (body_counted file).2, Nat.zero_add]

theorem mem_pathsFromUnifiedDiff {files : List FileDiff} {path : Text} :
    path ∈ pathsFromUnifiedDiff (diffText files) ↔ ∃ file ∈ files, headerPath file.header = some path := by
  have keys := @mem_keys_firsts _ _ _ id (((diffText files).splitOn '\n').filterMap headerPath) path
  rw [List.map_id, List.map_id] at keys
  have empty : headerPath [] = none := rfl
  rw [pathsFromUnifiedDiff, keys, diffText_lines, List.filterMap_append, List.filterMap_cons_none empty, List.filterMap_nil,
    List.append_nil, List.mem_filterMap]
  constructor
  · intro ⟨line, listed, read⟩
    obtain ⟨file, inside, shown⟩ := List.mem_flatMap.mp listed
    have here : path ∈ file.shown.filterMap headerPath := List.mem_filterMap.mpr ⟨line, shown, read⟩
    rw [(shown_counted file).1, Option.mem_toList] at here
    exact ⟨file, inside, here⟩
  · intro ⟨file, inside, read⟩
    exact ⟨file.header, List.mem_flatMap.mpr ⟨file, inside, List.mem_cons_self⟩, read⟩

-- The names that the paths of a diff are for git.
def namedBy (diff : Text) : List (List UInt8) := (pathsFromUnifiedDiff diff).map writeUtf8

def changedNames (files : List FileDiff) : List (List UInt8) := files.map fun file => file.path.bytes

theorem mem_namedBy {files : List FileDiff} {name : List UInt8} :
    name ∈ namedBy (diffText files) ↔ ∃ file ∈ files, (headerPath file.header).map writeUtf8 = some name := by
  rw [namedBy, List.mem_map]
  constructor
  · intro ⟨path, listed, same⟩
    obtain ⟨file, inside, read⟩ := mem_pathsFromUnifiedDiff.mp listed
    exact ⟨file, inside, by rw [read, ← same, Option.map_some]⟩
  · intro ⟨file, inside, read⟩
    obtain ⟨path, here, same⟩ := Option.map_eq_some_iff.mp read
    exact ⟨path, mem_pathsFromUnifiedDiff.mpr ⟨file, inside, here⟩, same⟩

-- What is read of a name is the name, or is shorter.
theorem header_name {file : FileDiff} {name : List UInt8} (read : (headerPath file.header).map writeUtf8 = some name) :
    ReadBack file.path ∧ name = file.path.bytes ∨ name.length < file.path.bytes.length := by
  cases quoted : file.path.quoted with
  | true =>
      rw [header_quoted quoted] at read
      cases read
  | false =>
      by_cases separated : separator <:+: file.path.plainText
      · obtain ⟨path, here, inside, shorter⟩ := header_shorter quoted separated
        rw [here] at read
        cases read
        rw [plainText_written quoted inside]
        exact .inr shorter
      · have back : ReadBack file.path := ⟨quoted, separated⟩
        rw [header_readBack back] at read
        cases read
        exact .inl ⟨back, writeUtf8_plainText quoted⟩

theorem readBack_of_exact {files : List FileDiff} (exact_ : ∀ name, name ∈ changedNames files → name ∈ namedBy (diffText files))
    (bound : Nat) (file : FileDiff) (listed : file ∈ files) (longest : ∀ other ∈ files, other.path.bytes.length ≤ bound)
    (missing : Nat) (near : bound ≤ file.path.bytes.length + missing) : ReadBack file.path := by
  induction missing using Nat.strong_induction_on generalizing file with
  | h missing ih =>
      have named := exact_ _ (List.mem_map_of_mem listed)
      obtain ⟨source, inside, read⟩ := mem_namedBy.mp named
      cases header_name read with
      | inl same =>
          have names : file.path = source.path := GitName.ext same.2
          rw [names]
          exact same.1
      | inr shorter =>
          have most := longest source inside
          have least := longest file listed
          have back := ih (missing - 1) (by omega) source inside (by omega)
          rw [header_readBack back, Option.map_some, writeUtf8_plainText back.plain] at read
          have same := congrArg List.length (Option.some.inj read)
          omega

-- The paths read from a diff are the changed ones if and only if every one of these is read back.
theorem namedBy_exact_iff (files : List FileDiff) :
    (∀ name, name ∈ namedBy (diffText files) ↔ name ∈ changedNames files) ↔ ∀ file ∈ files, ReadBack file.path := by
  constructor
  · intro exact_ file listed
    have longest : ∀ other ∈ files, other.path.bytes.length ≤ (files.map fun file => file.path.bytes.length).sum :=
      fun other inside => List.le_sum_of_mem (List.mem_map_of_mem inside)
    exact readBack_of_exact (fun name => (exact_ name).mpr) _ file listed longest _ (Nat.le_add_left _ _)
  · intro back name
    rw [mem_namedBy]
    constructor
    · intro ⟨file, inside, read⟩
      rw [header_readBack (back file inside), Option.map_some, writeUtf8_plainText (back file inside).plain] at read
      cases read
      exact List.mem_map_of_mem inside
    · intro listed
      obtain ⟨file, inside, same⟩ := List.mem_map.mp listed
      refine ⟨file, inside, ?_⟩
      rw [header_readBack (back file inside), Option.map_some, writeUtf8_plainText (back file inside).plain, same]

end Paths

section Count

def hiddenChanges (files : List FileDiff) : Nat := (files.flatMap FileDiff.hunkLines).countP HunkLine.hidden

theorem changedLineCount_add (files : List FileDiff) :
    changedLineCount (diffText files) + hiddenChanges files = lineChanges files := by
  have counted : ∀ files : List FileDiff, (files.flatMap FileDiff.shown).countP countsAsChange =
      (files.flatMap FileDiff.hunkLines).countP fun line => line.isChange && !line.hidden := by
    intro files
    induction files with
    | nil => rfl
    | cons file files ih =>
        rw [List.flatMap_cons, List.flatMap_cons, List.countP_append, List.countP_append, ih, (shown_counted file).2]
  have parts : ∀ lines : List HunkLine, (lines.countP fun line => line.isChange && !line.hidden) +
      lines.countP HunkLine.hidden = lines.countP HunkLine.isChange := by
    intro lines
    induction lines with
    | nil => rfl
    | cons line lines ih =>
        rw [List.countP_cons, List.countP_cons, List.countP_cons]
        have hidden : line.hidden = true → line.isChange = true := by
          intro here
          cases line with
          | removed content => rfl
          | added content => rfl
          | context content => cases here
          | noNewline => cases here
        cases shown : line.isChange with
        | true => cases line.hidden <;> simp <;> omega
        | false =>
            have visible : line.hidden = false := by
              apply Bool.eq_false_iff.mpr
              intro here
              rw [hidden here] at shown
              cases shown
            simp [visible]
            omega
  have last : countsAsChange [] = false := rfl
  rw [changedLineCount, ← List.countP_eq_length_filter, diffText_lines, List.countP_append, counted, hiddenChanges, lineChanges,
    ← parts]
  simp [last]

end Count
end PrAgent
