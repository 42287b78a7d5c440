import PrAgent.PathGlobParts
set_option autoImplicit false

namespace PrAgent

section Plain

-- Two globstars in a row are the last two segments.
def globstarsApart : List Units → Bool
  | g :: next :: rest => !(g = globstarSegment && next = globstarSegment && !rest.isEmpty) && globstarsApart (next :: rest)
  | _ => true

-- The usual rules, with no line terminators in what a globstar takes, but for the last segment of a last pair of globstars.
def matchesPlainSegments : List Units → List Units → Bool
  | [], path => path.isEmpty
  | [g], path =>
    if g = globstarSegment then !path.isEmpty && path.all fun p => p.all isDotUnit
    else path.length = 1 && matchesSegment g (path.headD [])
  | g :: next :: rest, path =>
    if g = globstarSegment then
      if next = globstarSegment ∧ rest = [] then !path.isEmpty && path.dropLast.all fun p => p.all isDotUnit
      else withoutDirs (matchesPlainSegments (next :: rest)) path
    else !path.isEmpty && matchesSegment g (path.headD []) && matchesPlainSegments (next :: rest) (path.drop 1)

def matchesPlain (filename pattern : Units) : Bool := matchesPlainSegments (pattern.splitOn slashUnit) (filename.splitOn slashUnit)

theorem matchesPlain_text {g : Units} (other : g ≠ globstarSegment) (rest path : List Units) :
    matchesPlainSegments (g :: rest) path = (!path.isEmpty && (matchesSegment g (path.headD []) && matchesPlainSegments rest (path.drop 1))) := by
  cases rest with
  | nil =>
      have own : matchesPlainSegments [g] path = (decide (path.length = 1) && matchesSegment g (path.headD [])) := if_neg other
      rw [own]
      cases path with
      | nil => rfl
      | cons p path =>
          cases path with
          | nil => simp [matchesPlainSegments]
          | cons q path => simp [matchesPlainSegments]
  | cons next rest => rw [matchesPlainSegments, if_neg other, Bool.and_assoc]

theorem matchesSegment_globstar (p : Units) : matchesSegment globstarSegment p = true := by
  have last : (p.tails.any fun r => matchesSegment [starUnit] r) = true := by
    apply List.any_eq_true.mpr
    refine ⟨p, List.mem_tails _ _ |>.mpr List.suffix_rfl, ?_⟩
    have own : matchesSegment [starUnit] p = p.tails.any fun r => matchesSegment [] r := if_pos rfl
    rw [own]
    exact List.any_eq_true.mpr ⟨[], List.mem_tails _ _ |>.mpr (List.nil_suffix), rfl⟩
  have own : matchesSegment globstarSegment p = p.tails.any fun r => matchesSegment [starUnit] r := if_pos rfl
  rw [own]
  exact last

theorem last_pair (path : List Units) :
    withoutDirs (fun later => !later.isEmpty && (matchesSegment globstarSegment (later.headD []) && matchesAsRead [] (later.drop 1))) path =
      (!path.isEmpty && path.dropLast.all fun p => p.all isDotUnit) := by
  induction path with
  | nil => rfl
  | cons p path ih =>
      rw [withoutDirs, ih, matchesSegment_globstar]
      cases path with
      | nil => rfl
      | cons q path => rfl

theorem read_plain (segments : List Units) (apart : globstarsApart segments = true) (path : List Units) :
    matchesAsRead segments path = matchesPlainSegments segments path := by
  induction segments using slashPieces.induct generalizing path with
  | case1 => rfl
  | case2 => rfl
  | case3 g other => rfl
  | case4 next rest ih =>
      rw [globstarsApart, Bool.and_eq_true] at apart
      rw [matchesAsRead, if_pos rfl, matchesPlainSegments, if_pos rfl]
      by_cases pair : next = globstarSegment
      · cases rest with
        | nil => rw [pair, if_pos ⟨rfl, rfl⟩, last_pair]
        | cons last rest =>
            rw [pair] at apart
            exact absurd apart.1 (by simp)
      · have apart_rest : globstarsApart rest = true := by
          cases rest with
          | nil => rfl
          | cons last rest =>
              have both := apart.2
              rw [globstarsApart, Bool.and_eq_true] at both
              exact both.2
        rw [if_neg (fun both => pair both.1)]
        congr 1
        funext later
        rw [matchesPlain_text pair, ih apart_rest]
  | case5 g next rest other ih =>
      rw [globstarsApart, Bool.and_eq_true] at apart
      rw [matchesAsRead_text other, matchesPlain_text other, ih apart.2]

end Plain

section Least

-- The shortest path of a pattern.
def leastSegment (g : Units) : Units := g.flatMap fun c => if c = starUnit then [] else if c = questionUnit then [120] else [c]

def leastPath : List Units → List Units
  | [] => []
  | [g] => if g = globstarSegment then [[]] else [leastSegment g]
  | g :: next :: rest => if g = globstarSegment then leastPath (next :: rest) else leastSegment g :: leastPath (next :: rest)

-- The segments that the expression of a pattern asks for.
def asked : List Units → Nat
  | [] => 0
  | [_] => 1
  | g :: next :: rest => if g = globstarSegment then asked rest + 1 else asked (next :: rest) + 1

theorem matchesSegment_least (g : Units) : matchesSegment g (leastSegment g) = true := by
  induction g with
  | nil => rfl
  | cons c g ih =>
      have split : leastSegment (c :: g) = (if c = starUnit then [] else if c = questionUnit then [120] else [c]) ++ leastSegment g := rfl
      rw [matchesSegment, split]
      by_cases star : c = starUnit
      · rw [if_pos star, if_pos star]
        exact List.any_eq_true.mpr ⟨leastSegment g, List.mem_tails _ _ |>.mpr List.suffix_rfl, ih⟩
      rw [if_neg star, if_neg star]
      by_cases question : c = questionUnit
      · rw [if_pos question, if_pos question]
        exact ih
      · rw [if_neg question, if_neg question]
        simp [ih]

theorem withoutDirs_self {f : List Units → Bool} {path : List Units} (taken : f path = true) : withoutDirs f path = true := by
  cases path with
  | nil => exact taken
  | cons p path => rw [withoutDirs, taken, Bool.true_or]

theorem withoutDirs_later {f : List Units → Bool} {path : List Units} (taken : withoutDirs f path = true) :
    ∃ later, f later = true ∧ later.length ≤ path.length := by
  induction path with
  | nil => exact ⟨[], taken, Nat.le_refl 0⟩
  | cons p path ih =>
      rw [withoutDirs, Bool.or_eq_true, Bool.and_eq_true] at taken
      rcases taken with here | ⟨_, behind⟩
      · exact ⟨p :: path, here, Nat.le_refl _⟩
      · obtain ⟨later, own, shorter⟩ := ih behind
        exact ⟨later, own, Nat.le_succ_of_le shorter⟩

theorem plain_least (segments : List Units) : matchesPlainSegments segments (leastPath segments) = true := by
  induction segments using leastPath.induct with
  | case1 => rfl
  | case2 => rfl
  | case3 g other =>
      rw [leastPath, if_neg other, matchesPlain_text other, List.headD_cons, matchesSegment_least]
      rfl
  | case4 next rest ih =>
      rw [leastPath, if_pos rfl, matchesPlainSegments, if_pos rfl]
      by_cases pair : next = globstarSegment ∧ rest = []
      · rw [if_pos pair, pair.1, pair.2]
        rfl
      · rw [if_neg pair]
        exact withoutDirs_self ih
  | case5 g next rest other ih =>
      rw [leastPath, if_neg other, matchesPlain_text other, List.headD_cons, matchesSegment_least, List.drop_one, List.tail_cons, ih]
      rfl

theorem segments_least (segments : List Units) : matchesSegments segments (leastPath segments) = true := by
  induction segments using leastPath.induct with
  | case1 => rfl
  | case2 => rfl
  | case3 g other =>
      rw [leastPath, if_neg other, matchesSegments, if_neg other, List.headD_cons, matchesSegment_least]
      rfl
  | case4 next rest ih =>
      rw [leastPath, if_pos rfl, matchesSegments, if_pos rfl]
      exact List.any_eq_true.mpr ⟨leastPath (next :: rest), List.mem_tails _ _ |>.mpr List.suffix_rfl, ih⟩
  | case5 g next rest other ih =>
      rw [leastPath, if_neg other, matchesSegments, if_neg other, List.headD_cons, matchesSegment_least, List.drop_one, List.tail_cons, ih]
      rfl

theorem asked_enough (segments : List Units) {path : List Units} (taken : matchesAsRead segments path = true) : asked segments ≤ path.length := by
  have filled {path : List Units} {b : Bool} (both : (!path.isEmpty && b) = true) : (path.drop 1).length + 1 = path.length ∧ b = true := by
    cases path with
    | nil => cases both
    | cons p path => exact ⟨rfl, both⟩
  induction segments using slashPieces.induct generalizing path with
  | case1 => exact Nat.zero_le _
  | case2 =>
      rw [matchesAsRead, if_pos rfl] at taken
      have count := (filled taken).1
      rw [asked]
      omega
  | case3 g other =>
      rw [matchesAsRead_text other] at taken
      have count := (filled taken).1
      rw [asked]
      omega
  | case4 next rest ih =>
      rw [matchesAsRead, if_pos rfl] at taken
      obtain ⟨later, own, shorter⟩ := withoutDirs_later taken
      obtain ⟨count, both⟩ := filled own
      have inner := ih (Bool.and_eq_true _ _ |>.mp both).2
      rw [asked, if_pos rfl]
      omega
  | case5 g next rest other ih =>
      rw [matchesAsRead_text other] at taken
      obtain ⟨count, both⟩ := filled taken
      have inner := ih (Bool.and_eq_true _ _ |>.mp both).2
      rw [asked, if_neg other]
      omega

theorem leastPath_text {g : Units} (other : g ≠ globstarSegment) (rest : List Units) : leastPath (g :: rest) = leastSegment g :: leastPath rest := by
  cases rest with
  | nil => exact if_neg other
  | cons next rest => rw [leastPath, if_neg other]

-- A globstar behind a globstar asks for a segment more than it should, unless it is the last one.
theorem leastPath_asked (segments : List Units) :
    (leastPath segments).length ≤ asked segments ∧ (globstarsApart segments = false → (leastPath segments).length < asked segments) := by
  induction segments using slashPieces.induct with
  | case1 => exact ⟨Nat.le_refl 0, fun bad => absurd bad (by decide)⟩
  | case2 => exact ⟨Nat.le_refl 1, fun bad => absurd bad (by decide)⟩
  | case3 g other =>
      rw [leastPath, if_neg other]
      exact ⟨Nat.le_refl 1, fun bad => absurd bad (by simp [globstarsApart])⟩
  | case4 next rest ih =>
      rw [leastPath, if_pos rfl, asked, if_pos rfl]
      by_cases second : next = globstarSegment
      · cases rest with
        | nil =>
            rw [second]
            exact ⟨Nat.le_refl 1, fun bad => absurd bad (by decide)⟩
        | cons last rest =>
            rw [leastPath, if_pos second]
            exact ⟨Nat.le_succ_of_le ih.1, fun _ => Nat.lt_succ_of_le ih.1⟩
      · have apart : globstarsApart (globstarSegment :: next :: rest) = globstarsApart rest := by
          cases rest with
          | nil => simp [globstarsApart]
          | cons last rest => simp [globstarsApart, second]
        rw [leastPath_text second, List.length_cons, apart]
        exact ⟨Nat.succ_le_succ ih.1, fun bad => Nat.succ_lt_succ (ih.2 bad)⟩
  | case5 g next rest other ih =>
      have apart : globstarsApart (g :: next :: rest) = globstarsApart (next :: rest) := by simp [globstarsApart, other]
      rw [leastPath_text other, List.length_cons, asked, if_neg other, apart]
      exact ⟨Nat.succ_le_succ ih.1, fun bad => Nat.succ_lt_succ (ih.2 bad)⟩

theorem read_least {segments : List Units} (bad : globstarsApart segments = false) : matchesAsRead segments (leastPath segments) = false := by
  cases taken : matchesAsRead segments (leastPath segments) with
  | false => rfl
  | true =>
      have enough := asked_enough segments taken
      have short := (leastPath_asked segments).2 bad
      omega

theorem leastPath_units {segments : List Units} {p : Units} (listed : p ∈ leastPath segments) {c : UInt16} (inside : c ∈ p) :
    c = 120 ∨ ∃ g ∈ segments, c ∈ g := by
  have least {g : Units} (inside : c ∈ leastSegment g) : c = 120 ∨ c ∈ g := by
    obtain ⟨d, own, here⟩ := List.mem_flatMap.mp inside
    by_cases star : d = starUnit
    · rw [if_pos star] at here
      exact absurd here List.not_mem_nil
    rw [if_neg star] at here
    by_cases question : d = questionUnit
    · rw [if_pos question] at here
      exact .inl (List.mem_singleton.mp here)
    · rw [if_neg question] at here
      exact .inr (List.mem_singleton.mp here ▸ own)
  induction segments using leastPath.induct with
  | case1 => exact absurd listed List.not_mem_nil
  | case2 =>
      cases List.mem_singleton.mp listed
      exact absurd inside List.not_mem_nil
  | case3 g other =>
      rw [leastPath, if_neg other] at listed
      cases List.mem_singleton.mp listed
      exact (least inside).imp id fun own => ⟨g, List.mem_cons_self, own⟩
  | case4 next rest ih =>
      rw [leastPath, if_pos rfl] at listed
      rcases ih listed with unit | ⟨g, own, here⟩
      · exact .inl unit
      · exact .inr ⟨g, List.mem_cons_of_mem _ own, here⟩
  | case5 g next rest other ih =>
      rw [leastPath, if_neg other] at listed
      rcases List.mem_cons.mp listed with rfl | listed
      · exact (least inside).imp id fun own => ⟨g, List.mem_cons_self, own⟩
      · rcases ih listed with unit | ⟨h, own, here⟩
        · exact .inl unit
        · exact .inr ⟨h, List.mem_cons_of_mem _ own, here⟩

theorem leastPath_filled {segments : List Units} (some_segment : segments ≠ []) : leastPath segments ≠ [] := by
  induction segments using leastPath.induct with
  | case1 => exact absurd rfl some_segment
  | case2 => exact List.cons_ne_nil _ _
  | case3 g other =>
      rw [leastPath, if_neg other]
      exact List.cons_ne_nil _ _
  | case4 next rest ih =>
      rw [leastPath, if_pos rfl]
      exact ih (List.cons_ne_nil _ _)
  | case5 g next rest other ih =>
      rw [leastPath, if_neg other]
      exact List.cons_ne_nil _ _

def leastFilename (pattern : Units) : Units := [slashUnit].intercalate (leastPath (segmentsOf pattern))

theorem leastFilename_unit {pattern : Units} {p : Units} (listed : p ∈ leastPath (segmentsOf pattern)) {c : UInt16} (inside : c ∈ p) :
    c ≠ slashUnit ∧ c ≠ backslashUnit := by
  rcases leastPath_units listed inside with rfl | ⟨g, own, here⟩
  · decide
  · have split := splitOn_piece own
    obtain ⟨d, _, same⟩ := List.mem_map.mp (split.2.subset here)
    constructor
    · intro slash
      exact split.1 (slash ▸ here)
    · intro back
      by_cases first : d = backslashUnit
      · rw [if_pos first, back] at same
        exact absurd same (by decide)
      · rw [if_neg first, back] at same
        exact first same

theorem toSlashes_least (pattern : Units) : toSlashes (leastFilename pattern) = leastFilename pattern := by
  have plain : ∀ c ∈ leastFilename pattern, c ≠ backslashUnit := by
    intro c inside
    obtain ⟨p, path, split⟩ := List.exists_cons_of_ne_nil (leastPath_filled (segmentsOf_ne_nil pattern))
    rw [leastFilename, split, intercalate_tail] at inside
    have unit {q : Units} (listed : q ∈ p :: path) (here : c ∈ q) : c ≠ backslashUnit := (leastFilename_unit (split ▸ listed) here).2
    rcases List.mem_append.mp inside with first | later
    · exact unit List.mem_cons_self first
    · obtain ⟨q, listed, here⟩ := List.mem_flatMap.mp later
      rcases List.mem_cons.mp here with rfl | here
      · decide
      · exact unit (List.mem_cons_of_mem p listed) here
  have each : ∀ c ∈ leastFilename pattern, (if c = backslashUnit then slashUnit else c) = id c := fun c inside => if_neg (plain c inside)
  rw [toSlashes, List.map_congr_left each, List.map_id]

theorem segmentsOf_least (pattern : Units) : segmentsOf (leastFilename pattern) = leastPath (segmentsOf pattern) := by
  rw [segmentsOf, toSlashes_least]
  exact List.splitOn_intercalate slashUnit (fun p listed inside => (leastFilename_unit listed inside).1 rfl) (leastPath_filled (segmentsOf_ne_nil pattern))

end Least

section Dots

variable {path : List Units} (dots : ∀ p ∈ path, p.all isDotUnit = true)
include dots

theorem withoutDirs_tails (f : List Units → Bool) : withoutDirs f path = path.tails.any f := by
  induction path with
  | nil => simp [withoutDirs]
  | cons p path ih =>
      rw [withoutDirs, dots p List.mem_cons_self, Bool.true_and, ih fun q listed => dots q (List.mem_cons_of_mem p listed)]
      rfl

theorem plain_segments (segments : List Units) : matchesPlainSegments segments path = matchesSegments segments path := by
  induction segments using leastPath.induct generalizing path with
  | case1 => rfl
  | case2 => rw [matchesPlainSegments, matchesSegments, if_pos rfl, if_pos rfl, List.all_eq_true.mpr dots, Bool.and_true]
  | case3 g other => rw [matchesPlainSegments, matchesSegments, if_neg other, if_neg other]
  | case4 next rest ih =>
      rw [matchesPlainSegments, if_pos rfl, matchesSegments, if_pos rfl]
      split
      · next pair =>
        rw [List.all_eq_true.mpr fun p listed => dots p (List.mem_of_mem_dropLast listed), Bool.and_true, pair.1, pair.2]
        cases path with
        | nil => rfl
        | cons p path => rfl
      · rw [withoutDirs_tails dots, Bool.eq_iff_iff, List.any_eq_true, List.any_eq_true]
        refine exists_congr fun later => and_congr_right fun listed => ?_
        rw [ih fun p inside => dots p (((List.mem_tails _ _).mp listed).subset inside)]
  | case5 g next rest other ih =>
      rw [matchesPlainSegments, if_neg other, matchesSegments, if_neg other,
        ih fun p inside => dots p (List.mem_of_mem_drop inside)]

end Dots

section Marks

variable {name replacement : Units}

-- A mark that another mark does not fit.
theorem mark_kept {more : Units} (nulfree : nulUnit ∉ more) (other : ¬(placeholder name).take (more.length + 1) <+: nulUnit :: more) (w : Units) :
    replaceAllUnits (placeholder name) replacement 0 (nulUnit :: more ++ w) = nulUnit :: more ++ replaceAllUnits (placeholder name) replacement 0 w := by
  apply replaceAll_skip
  intro before here split filled starts
  cases before with
  | nil =>
      rw [List.nil_append] at split
      have cut := starts.take (more.length + 1)
      have whole : (nulUnit :: more ++ w).take (more.length + 1) = nulUnit :: more := List.take_left' rfl
      rw [← split, whole] at cut
      exact other cut
  | cons c before =>
      obtain ⟨d, here, rfl⟩ := List.exists_cons_of_ne_nil filled
      have first : nulUnit = d := (List.cons_prefix_cons.mp starts).1
      have rest : more = before ++ d :: here := (List.cons.inj split).2
      exact nulfree (by rw [rest, first]; simp)

theorem marked_middle (z : Units) : ∃ w,
    unmark (placeholder globstarLeading ++ (globstarMiddle ++ nulUnit :: z)) = nulUnit :: w := by
  have shape : placeholder globstarLeading ++ (globstarMiddle ++ nulUnit :: z) = nulUnit :: globstarLeading ++ (placeholder globstarMiddle ++ z) := by
    simp [placeholder]
  have filled : placeholder globstarMiddle ≠ [] := List.cons_ne_nil _ _
  have slash (w : Units) : nulUnit :: globstarLeading ++ (middleText ++ w) = nulUnit :: (globstarLeading ++ [slashUnit]) ++ (middleText.drop 1 ++ w) := by
    have split : middleText = [slashUnit] ++ middleText.drop 1 := by decide
    rw [split]
    simp
  have plain : nulUnit ∉ globstarLeading ++ [slashUnit] := by decide
  rw [unmark, shape, mark_kept names_plain.2.2.1 (by decide), replaceAll_hit filled, slash, mark_kept plain (by decide), mark_kept plain (by decide),
    mark_kept plain (by decide)]
  exact ⟨_, rfl⟩

theorem leastPath_behind {next : Units} (other : next ≠ globstarSegment) (rest : List Units) :
    leastPath (globstarSegment :: next :: rest) = leastSegment next :: leastPath rest := by
  rw [leastPath, if_pos rfl, leastPath_text other]

theorem leastFilename_head {pattern : Units} {p : Units} {path : List Units} (split : leastPath (segmentsOf pattern) = p :: path)
    (letter : p.head? = some 71) : (leastFilename pattern).head? ≠ some nulUnit := by
  rw [leastFilename, split, intercalate_tail, List.head?_append, letter]
  intro same
  exact absurd (Option.some.inj same) (by decide)

-- Where the rewriting takes a text between two globstars for a mark, a mark is left at the start.
theorem marks_left {pattern : Units} (bad : marksApart (segmentsOf pattern) = false) :
    (∃ w, regexString pattern = nulUnit :: w) ∧ (leastFilename pattern).head? ≠ some nulUnit := by
  have shape : ∃ next rest, segmentsOf pattern = globstarSegment :: next :: globstarSegment :: rest ∧
      (next = globstarMiddle ∨ next = globstarTrailing ∧ rest = []) := by
    cases segments : segmentsOf pattern with
    | nil =>
        rw [segments] at bad
        cases bad
    | cons g later =>
        cases later with
        | nil =>
            rw [segments] at bad
            cases bad
        | cons next later =>
            cases later with
            | nil =>
                rw [segments] at bad
                cases bad
            | cons last rest =>
                rw [segments, marksApart, Bool.not_eq_false', Bool.and_eq_true, Bool.and_eq_true, Bool.or_eq_true, Bool.and_eq_true,
                  decide_eq_true_iff, decide_eq_true_iff, decide_eq_true_iff, decide_eq_true_iff, List.isEmpty_iff] at bad
                exact ⟨next, rest, by rw [bad.1.1, bad.1.2], bad.2⟩
  obtain ⟨next, rest, split, own⟩ := shape
  rcases own with rfl | ⟨rfl, rfl⟩
  · have behind : ∃ z, (slashPieces (globstarSegment :: rest)).flatMap marked = nulUnit :: z := by
      cases rest with
      | nil => exact ⟨_, rfl⟩
      | cons later rest =>
          rw [slashPieces, if_pos rfl]
          exact ⟨_, rfl⟩
    obtain ⟨z, behind⟩ := behind
    have own : renderedUnits globstarMiddle = globstarMiddle := by decide
    have text : (startPieces (segmentsOf pattern)).flatMap marked = placeholder globstarLeading ++ (globstarMiddle ++ nulUnit :: z) := by
      rw [split, startPieces, if_pos rfl, List.flatMap_cons, List.flatMap_cons, behind]
      have middle : marked (.text globstarMiddle) = globstarMiddle := own
      rw [middle]
      rfl
    obtain ⟨w, left⟩ := marked_middle z
    rw [regexString_marked, text]
    exact ⟨⟨w, left⟩, leastFilename_head (by rw [split]; exact leastPath_behind (by decide) _) (by decide)⟩
  · have head : (regexString pattern).head? = some nulUnit := by
      rw [regexString_marked, split]
      decide +kernel
    exact ⟨List.head?_eq_some_iff.mp head, leastFilename_head (by rw [split]; exact leastPath_behind (by decide) _) (by decide)⟩

theorem matchesPathGlob_left {filename pattern : Units} (left : ∃ w, regexString pattern = nulUnit :: w)
    (other : (toSlashes filename).head? ≠ some nulUnit) : matchesPathGlob filename pattern = false := by
  obtain ⟨w, left⟩ := left
  have text : (GlobAtom.one nulUnit).text = [nulUnit] := by decide
  have own : readAtom ((GlobAtom.one nulUnit).text ++ w) = some (.one nulUnit, w) := readAtom_one (by decide) (by decide) w
  rw [text] at own
  have read : readRegex (w.length + 1) (nulUnit :: w) = (readRegex w.length w).map fun atoms => .one nulUnit :: atoms := by
    have single : nulUnit :: w = [nulUnit] ++ w := rfl
    rw [readRegex, single, own]
    · rfl
    · exact List.cons_ne_nil _ _
  rw [matchesPathGlob, left, List.length_cons, read]
  cases readRegex w.length w with
  | none => rfl
  | some atoms =>
      have none_left : GlobAtom.rests true (toSlashes filename) (.one nulUnit) = [] := if_neg other
      have tested : testAtoms (.one nulUnit :: atoms) true (toSlashes filename) = false := by
        rw [testAtoms, none_left]
        rfl
      exact tested

end Marks

section Globs

-- The patterns whose globstars keep their meaning.
def globstarsKept (pattern : Units) : Bool := globstarsApart (pattern.splitOn slashUnit) && marksApart (pattern.splitOn slashUnit)

-- On a path without line terminators, what a globstar takes makes no difference.
theorem plain_by_segments {filename : Units} (dots : ∀ c ∈ filename, isDotUnit c = true) (pattern : Units) :
    matchesPlain filename pattern = matchesBySegments filename pattern :=
  plain_segments (fun _ listed => List.all_eq_true.mpr fun c inside => dots c ((splitOn_piece listed).2.subset inside)) _

-- Backslashes are slashes, in the pattern and in the path.
theorem glob_by_segments (pattern : Units) (nulfree : nulUnit ∉ pattern) :
    (∀ filename, matchesPathGlob filename pattern = matchesBySegments (toSlashes filename) (toSlashes pattern) ↔
      matchesPlain (toSlashes filename) (toSlashes pattern) = matchesBySegments (toSlashes filename) (toSlashes pattern)) ↔
      globstarsKept (toSlashes pattern) = true := by
  have plain : matchesPlain (toSlashes (leastFilename pattern)) (toSlashes pattern) = true := by
    have least := plain_least (segmentsOf pattern)
    rw [← segmentsOf_least] at least
    exact least
  have whole : matchesBySegments (toSlashes (leastFilename pattern)) (toSlashes pattern) = true := by
    have least := segments_least (segmentsOf pattern)
    rw [← segmentsOf_least] at least
    exact least
  rw [globstarsKept, Bool.and_eq_true]
  constructor
  · intro same
    have taken : matchesPathGlob (leastFilename pattern) pattern = true := by
      rw [(same (leastFilename pattern)).mpr (plain.trans whole.symm), whole]
    have apart : marksApart (segmentsOf pattern) = true := by
      by_contra bad
      obtain ⟨left, other⟩ := marks_left (Bool.not_eq_true _ |>.mp bad)
      rw [matchesPathGlob_left left (by rw [toSlashes_least]; exact other)] at taken
      cases taken
    constructor
    · by_contra bad
      rw [matchesPathGlob_read nulfree apart, segmentsOf_least] at taken
      have refused := read_least (Bool.not_eq_true _ |>.mp bad)
      rw [segmentsOf] at taken
      rw [refused] at taken
      cases taken
    · exact apart
  · intro kept filename
    have read := read_plain (segmentsOf pattern) kept.1 (segmentsOf filename)
    rw [matchesPathGlob_read nulfree kept.2, read]
    exact Iff.rfl

-- A directory of sources, with a globstar between two segments.
theorem source_glob_plain : nulUnit ∉ unitsOf "src/**/*.ts" ∧ ∀ filename,
    matchesPathGlob filename (unitsOf "src/**/*.ts") = matchesBySegments (toSlashes filename) (toSlashes (unitsOf "src/**/*.ts")) ↔
      matchesPlain (toSlashes filename) (toSlashes (unitsOf "src/**/*.ts")) =
        matchesBySegments (toSlashes filename) (toSlashes (unitsOf "src/**/*.ts")) :=
  ⟨by decide, (glob_by_segments (unitsOf "src/**/*.ts") (by decide)).mpr (by decide +kernel)⟩

-- Two globstars in a row ask for a segment.
theorem adjacent_globs_differ : ¬∀ filename pattern, matchesPathGlob filename pattern = matchesBySegments filename pattern := by
  intro same
  have read := same (unitsOf "a/b") (unitsOf "a/**/**/b")
  have missed : matchesPathGlob (unitsOf "a/b") (unitsOf "a/**/**/b") = false ∧ matchesBySegments (unitsOf "a/b") (unitsOf "a/**/**/b") = true := by
    decide +kernel
  rw [missed.1, missed.2] at read
  cases read

end Globs
end PrAgent
