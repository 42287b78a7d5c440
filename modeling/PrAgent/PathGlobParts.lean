import PrAgent.PathGlobReading
set_option autoImplicit false

namespace PrAgent

section Tests

theorem testAtoms_later (atom : GlobAtom) (rest : List GlobAtom) (s : Units) :
    testAtoms (atom :: rest) false s = (atom.rests false s).any fun r => testAtoms rest false r := by
  rw [testAtoms]
  simp only [Bool.false_and]

-- Only the leading globstar asks where the path begins.
theorem testAtoms_anywhere {atoms : List GlobAtom} (inner : GlobAtom.leadingDirs ∉ atoms) (atStart : Bool) (s : Units) :
    testAtoms atoms atStart s = testAtoms atoms false s := by
  induction atoms generalizing atStart s with
  | nil => rfl
  | cons atom rest ih =>
      have inner_rest : GlobAtom.leadingDirs ∉ rest := fun inside => inner (List.mem_cons_of_mem atom inside)
      have same : atom.rests atStart s = atom.rests false s := by
        cases atom with
        | leadingDirs => exact absurd List.mem_cons_self inner
        | one c => rfl
        | segmentChar => rfl
        | segmentRun => rfl
        | anything => rfl
        | someDirs => rfl
      have each (r : Units) : testAtoms rest (atStart && r.length = s.length) r = testAtoms rest false r := ih inner_rest _ r
      rw [testAtoms_later, testAtoms, same]
      simp only [each]

theorem test_one (c : UInt16) (rest : List GlobAtom) (d : UInt16) (s : Units) :
    testAtoms (.one c :: rest) false (d :: s) = (decide (d = c) && testAtoms rest false s) := by
  rw [testAtoms_later, GlobAtom.rests]
  by_cases same : d = c
  · simp [same]
  · simp [same]

theorem test_char (rest : List GlobAtom) (d : UInt16) (s : Units) :
    testAtoms (.segmentChar :: rest) false (d :: s) = (decide (d ≠ slashUnit) && testAtoms rest false s) := by
  rw [testAtoms_later, GlobAtom.rests]
  by_cases same : d = slashUnit
  · simp [same]
  · simp [same]

-- A run of units other than slashes, in a segment before a slash or the end.
theorem restsOfRun_segment {p : Units} (plain : slashUnit ∉ p) {y : Units} (ends : y = [] ∨ y.head? = some slashUnit) :
    restsOfRun (fun c => c ≠ slashUnit) (p ++ y) = p.tails.map fun r => r ++ y := by
  induction p with
  | nil =>
      cases y with
      | nil => rfl
      | cons c y =>
          rcases ends with empty | slash
          · cases empty
          · have own : c = slashUnit := Option.some.inj slash
            simp [restsOfRun, own]
  | cons c p ih =>
      have other : c ≠ slashUnit := fun same => plain (same ▸ List.mem_cons_self)
      have later := ih fun inside => plain (List.mem_cons_of_mem c inside)
      rw [List.cons_append, restsOfRun, later, if_pos (decide_eq_true other), List.tails_cons, List.map_cons]
      rfl

theorem restsOfRun_whole (allows : UInt16 → Bool) (s : Units) : ((restsOfRun allows s).any fun r => r.isEmpty) = s.all allows := by
  induction s with
  | nil => rfl
  | cons c s ih =>
      rw [restsOfRun, List.any_cons, List.all_cons, ← ih]
      by_cases allowed : allows c = true
      · rw [if_pos allowed, allowed]
        rfl
      · rw [if_neg allowed, Bool.not_eq_true _ |>.mp allowed]
        rfl

theorem any_same {α : Type} {l : List α} {f g : α → Bool} (each : ∀ x ∈ l, f x = g x) : l.any f = l.any g := by
  induction l with
  | nil => rfl
  | cons x l ih => rw [List.any_cons, List.any_cons, each x List.mem_cons_self, ih fun y inside => each y (List.mem_cons_of_mem x inside)]

theorem any_const_and {α : Type} (l : List α) (f : α → Bool) (b : Bool) : (l.any fun x => f x && b) = (l.any f && b) := by
  cases b with
  | true => simp
  | false => simp

-- What follows a segment's text begins with a slash or is nothing.
def QuietAtoms (more : List GlobAtom) : Prop := ∀ r : Units, r ≠ [] → slashUnit ∉ r → ∀ y, testAtoms more false (r ++ y) = false

theorem test_text {t : Units} (plain_text : slashUnit ∉ t) {more : List GlobAtom} (quiet : QuietAtoms more) {p : Units} (plain : slashUnit ∉ p)
    {y : Units} (ends : y = [] ∨ y.head? = some slashUnit) :
    testAtoms (t.map unitAtom ++ more) false (p ++ y) = (matchesSegment t p && testAtoms more false y) := by
  induction t generalizing p with
  | nil =>
      rw [List.map_nil, List.nil_append, matchesSegment]
      cases p with
      | nil => rfl
      | cons c p =>
          rw [quiet (c :: p) (List.cons_ne_nil c p) plain y]
          rfl
  | cons c t ih =>
      have later {q : Units} (plain : slashUnit ∉ q) := ih (fun inside => plain_text (List.mem_cons_of_mem c inside)) plain
      rw [List.map_cons, List.cons_append, matchesSegment, unitAtom]
      by_cases star : c = starUnit
      · rw [if_pos star, if_pos star, testAtoms_later, GlobAtom.rests, restsOfRun_segment plain ends, List.any_map, ← any_const_and]
        have each (r : Units) (listed : r ∈ p.tails) : testAtoms (t.map unitAtom ++ more) false (r ++ y) = (matchesSegment t r && testAtoms more false y) :=
          later fun inside => plain ((List.mem_tails _ _ |>.mp listed).subset inside)
        exact any_same each
      rw [if_neg star, if_neg star]
      by_cases question : c = questionUnit
      · rw [if_pos question, if_pos question]
        cases p with
        | nil =>
            rcases ends with rfl | slash
            · rfl
            · obtain ⟨rest, rfl⟩ := List.head?_eq_some_iff.mp slash
              rw [List.nil_append, test_char]
              rfl
        | cons d p =>
            have other : d ≠ slashUnit := fun same => plain (same ▸ List.mem_cons_self)
            rw [List.cons_append, test_char, later fun inside => plain (List.mem_cons_of_mem d inside)]
            simp [other]
      · rw [if_neg question, if_neg question]
        cases p with
        | nil =>
            rcases ends with rfl | slash
            · rfl
            · obtain ⟨rest, rfl⟩ := List.head?_eq_some_iff.mp slash
              have other : slashUnit ≠ c := fun same => plain_text (same ▸ List.mem_cons_self)
              rw [List.nil_append, test_one, decide_eq_false other]
              rfl
        | cons d p =>
            rw [List.cons_append, test_one, later fun inside => plain (List.mem_cons_of_mem d inside), ← Bool.and_assoc]
            simp

end Tests

section Directories

def pathTail (path : List Units) : Units := path.flatMap fun p => slashUnit :: p

-- Any number of directories without line terminators are taken away.
def withoutDirs (f : List Units → Bool) : List Units → Bool
  | [] => f []
  | p :: rest => f (p :: rest) || (p.all isDotUnit && withoutDirs f rest)

theorem pathTail_ends (path : List Units) : pathTail path = [] ∨ (pathTail path).head? = some slashUnit := by
  cases path with
  | nil => exact .inl rfl
  | cons p rest => exact .inr rfl

theorem behindSlash_other {c : UInt16} (other : c ≠ slashUnit) (s : Units) (rests : List Units) :
    behindSlash ((c :: s) :: rests) = behindSlash rests := by
  rw [behindSlash, List.filter_cons_of_neg]
  · rfl
  · simp [other]

theorem behindSlash_slash (s : Units) (rests : List Units) : behindSlash ((slashUnit :: s) :: rests) = s :: behindSlash rests := by
  rw [behindSlash, List.filter_cons_of_pos]
  · rfl
  · simp

theorem behind_step {c : UInt16} (other : c ≠ slashUnit) (s : Units) (g : Units → Bool) :
    (behindSlash (restsOfRun isDotUnit (c :: s))).any g = (isDotUnit c && (behindSlash (restsOfRun isDotUnit s)).any g) := by
  rw [restsOfRun, behindSlash_other other]
  by_cases dot : isDotUnit c = true
  · rw [if_pos dot, dot, Bool.true_and]
  · rw [if_neg dot, Bool.not_eq_true _ |>.mp dot, Bool.false_and]
    rfl

variable {f : List Units → Bool} {g : Units → Bool}

theorem behind_dirs (none_left : f [] = false) (each : ∀ q path, slashUnit ∉ q → (∀ p ∈ path, slashUnit ∉ p) → g (q ++ pathTail path) = f (q :: path))
    {p : Units} (plain : slashUnit ∉ p) {path : List Units} (plain_path : ∀ p ∈ path, slashUnit ∉ p) :
    (behindSlash (restsOfRun isDotUnit (p ++ pathTail path))).any g = (p.all isDotUnit && withoutDirs f path) := by
  induction path generalizing p with
  | nil =>
      rw [withoutDirs, none_left, Bool.and_false]
      induction p with
      | nil => rfl
      | cons c p ih =>
          have other : c ≠ slashUnit := fun same => plain (same ▸ List.mem_cons_self)
          rw [List.cons_append, behind_step other, ih fun inside => plain (List.mem_cons_of_mem c inside), Bool.and_false]
  | cons q rest ih_path =>
      induction p with
      | nil =>
          have own := plain_path q List.mem_cons_self
          have plain_rest : ∀ p ∈ rest, slashUnit ∉ p := fun p inside => plain_path p (List.mem_cons_of_mem q inside)
          have text : [] ++ pathTail (q :: rest) = slashUnit :: (q ++ pathTail rest) := rfl
          have dot : isDotUnit slashUnit = true := by decide
          rw [text, restsOfRun, behindSlash_slash, if_pos dot, List.any_cons, ih_path own plain_rest, each q rest own plain_rest]
          rfl
      | cons c p ih =>
          have other : c ≠ slashUnit := fun same => plain (same ▸ List.mem_cons_self)
          rw [List.cons_append, behind_step other, ih fun inside => plain (List.mem_cons_of_mem c inside), List.all_cons, Bool.and_assoc]

theorem some_dirs (none_left : f [] = false) (each : ∀ q path, slashUnit ∉ q → (∀ p ∈ path, slashUnit ∉ p) → g (q ++ pathTail path) = f (q :: path))
    {p : Units} (plain : slashUnit ∉ p) {path : List Units} (plain_path : ∀ p ∈ path, slashUnit ∉ p) :
    ((p ++ pathTail path) :: behindSlash (restsOfRun isDotUnit (p ++ pathTail path))).any g = withoutDirs f (p :: path) := by
  rw [List.any_cons, behind_dirs none_left each plain plain_path, each p path plain plain_path]
  rfl

theorem pathTail_all (path : List Units) : (pathTail path).all isDotUnit = path.all fun p => p.all isDotUnit := by
  induction path with
  | nil => rfl
  | cons p rest ih =>
      have dot : isDotUnit slashUnit = true := by decide
      have text : pathTail (p :: rest) = slashUnit :: (p ++ pathTail rest) := rfl
      rw [text, List.all_cons, List.all_append, ih, List.all_cons, dot, Bool.true_and]

end Directories

section Expressions

-- What the expression of a pattern takes: a globstar behind a globstar is a segment of two stars.
def matchesAsRead : List Units → List Units → Bool
  | [], path => path.isEmpty
  | [g], path =>
    if g = globstarSegment then !path.isEmpty && path.all fun p => p.all isDotUnit
    else path.length = 1 && matchesSegment g (path.headD [])
  | g :: next :: rest, path =>
    if g = globstarSegment then
      withoutDirs (fun later => !later.isEmpty && (matchesSegment next (later.headD []) && matchesAsRead rest (later.drop 1))) path
    else !path.isEmpty && (matchesSegment g (path.headD []) && matchesAsRead (next :: rest) (path.drop 1))

theorem matchesAsRead_text {g : Units} (other : g ≠ globstarSegment) (rest path : List Units) :
    matchesAsRead (g :: rest) path = (!path.isEmpty && (matchesSegment g (path.headD []) && matchesAsRead rest (path.drop 1))) := by
  cases rest with
  | nil =>
      have own : matchesAsRead [g] path = (decide (path.length = 1) && matchesSegment g (path.headD [])) := if_neg other
      rw [own]
      cases path with
      | nil => rfl
      | cons p path =>
          cases path with
          | nil => simp [matchesAsRead]
          | cons q path => simp [matchesAsRead]
  | cons next rest => rw [matchesAsRead, if_neg other]

theorem quiet_pieces (segments : List Units) : QuietAtoms (piecesAtoms (slashPieces segments)) := by
  intro r filled plain y
  obtain ⟨c, r, rfl⟩ := List.exists_cons_of_ne_nil filled
  have other : c ≠ slashUnit := fun same => plain (same ▸ List.mem_cons_self)
  have slash (rest : List GlobAtom) : testAtoms (.one slashUnit :: rest) false (c :: r ++ y) = false := by
    rw [List.cons_append, test_one, decide_eq_false other]
    rfl
  cases segments with
  | nil => rfl
  | cons g rest =>
      cases rest with
      | nil =>
          rw [slashPieces]
          by_cases globstar : g = globstarSegment
          · rw [if_pos globstar]
            exact slash _
          · rw [if_neg globstar]
            exact slash _
      | cons next rest =>
          rw [slashPieces]
          by_cases globstar : g = globstarSegment
          · rw [if_pos globstar]
            exact slash _
          · rw [if_neg globstar]
            exact slash _

theorem unitAtom_inner (t : Units) : GlobAtom.leadingDirs ∉ t.map unitAtom := by
  intro listed
  obtain ⟨c, _, same⟩ := List.mem_map.mp listed
  rw [unitAtom] at same
  by_cases star : c = starUnit
  · rw [if_pos star] at same
    cases same
  by_cases question : c = questionUnit
  · rw [if_neg star, if_pos question] at same
    cases same
  · rw [if_neg star, if_neg question] at same
    cases same

theorem text_inner (t : Units) {pieces : List GlobPiece} (inner : GlobAtom.leadingDirs ∉ piecesAtoms pieces) :
    GlobAtom.leadingDirs ∉ piecesAtoms (.text t :: pieces) := by
  intro listed
  rcases List.mem_append.mp listed with own | later
  · exact unitAtom_inner t own
  · exact inner later

theorem inner_pieces (segments : List Units) : GlobAtom.leadingDirs ∉ piecesAtoms (slashPieces segments) := by
  have skip {atoms later : List GlobAtom} (own : GlobAtom.leadingDirs ∉ atoms) (inner : GlobAtom.leadingDirs ∉ later) :
      GlobAtom.leadingDirs ∉ atoms ++ later := fun listed => (List.mem_append.mp listed).elim own inner
  have slash : GlobAtom.leadingDirs ∉ [.one slashUnit] := by decide
  induction segments using slashPieces.induct with
  | case1 => exact List.not_mem_nil
  | case2 =>
      rw [slashPieces, if_pos rfl]
      decide
  | case3 g other =>
      rw [slashPieces, if_neg other]
      exact skip slash (text_inner g List.not_mem_nil)
  | case4 next rest ih =>
      rw [slashPieces, if_pos rfl]
      have dirs : GlobAtom.leadingDirs ∉ [.one slashUnit, .someDirs] := by decide
      exact skip dirs (text_inner next ih)
  | case5 g next rest other ih =>
      rw [slashPieces, if_neg other]
      exact skip slash (text_inner g ih)

-- A segment's text and what follows, on a path of whole segments.
theorem test_segment {t : Units} (plain_text : slashUnit ∉ t) (segments : List Units) {p : Units} (plain : slashUnit ∉ p) (path : List Units) :
    testAtoms (piecesAtoms (.text t :: slashPieces segments)) false (p ++ pathTail path) =
      (matchesSegment t p && testAtoms (piecesAtoms (slashPieces segments)) false (pathTail path)) :=
  test_text plain_text (quiet_pieces segments) plain (pathTail_ends path)

theorem test_slash (rest : List GlobAtom) (path : List Units) : testAtoms (.one slashUnit :: rest) false (pathTail path) =
    (!path.isEmpty && testAtoms rest false (path.headD [] ++ pathTail (path.drop 1))) := by
  cases path with
  | nil => rfl
  | cons p path =>
      have text : pathTail (p :: path) = slashUnit :: (p ++ pathTail path) := rfl
      rw [text, test_one]
      rfl

-- A text behind a globstar, wherever the globstar ends.
theorem test_behind {next : Units} {rest : List Units} (plain_next : slashUnit ∉ next)
    (later : ∀ {path : List Units}, (∀ p ∈ path, slashUnit ∉ p) → testAtoms (piecesAtoms (slashPieces rest)) false (pathTail path) = matchesAsRead rest path)
    {p : Units} (plain : slashUnit ∉ p) {path : List Units} (plain_path : ∀ p ∈ path, slashUnit ∉ p) :
    ((p ++ pathTail path) :: behindSlash (restsOfRun isDotUnit (p ++ pathTail path))).any
        (testAtoms (piecesAtoms (.text next :: slashPieces rest)) false) =
      withoutDirs (fun later => !later.isEmpty && (matchesSegment next (later.headD []) && matchesAsRead rest (later.drop 1))) (p :: path) := by
  apply some_dirs rfl _ plain plain_path
  intro q path own plain_path
  rw [test_segment plain_next rest own, later plain_path]
  rfl

theorem test_slashPieces (segments : List Units) (plain : ∀ g ∈ segments, slashUnit ∉ g) {path : List Units} (plain_path : ∀ p ∈ path, slashUnit ∉ p) :
    testAtoms (piecesAtoms (slashPieces segments)) false (pathTail path) = matchesAsRead segments path := by
  induction segments using slashPieces.induct generalizing path with
  | case1 =>
      cases path with
      | nil => rfl
      | cons p path => rfl
  | case2 =>
      have atoms : piecesAtoms [.trailing] = [.one slashUnit, .anything] := rfl
      rw [slashPieces, if_pos rfl, matchesAsRead, if_pos rfl, atoms, test_slash]
      cases path with
      | nil => rfl
      | cons p path =>
          have whole : testAtoms [.anything] false (p ++ pathTail path) = ((restsOfRun isDotUnit (p ++ pathTail path)).any fun r => r.isEmpty) :=
            testAtoms_later _ _ _
          rw [List.headD_cons, List.drop_one, List.tail_cons, whole, restsOfRun_whole, List.all_append, pathTail_all]
          rfl
  | case3 g other =>
      have own := plain g List.mem_cons_self
      have atoms : piecesAtoms [.between, .text g] = .one slashUnit :: piecesAtoms (.text g :: slashPieces []) := rfl
      rw [slashPieces, if_neg other, matchesAsRead_text other, atoms, test_slash]
      cases path with
      | nil => rfl
      | cons p path =>
          rw [List.headD_cons, List.drop_one, List.tail_cons, test_segment own [] (plain_path p List.mem_cons_self)]
          cases path with
          | nil => rfl
          | cons q path => rfl
  | case4 next rest ih =>
      have own := plain next (by simp)
      have later {path : List Units} (plain_path : ∀ p ∈ path, slashUnit ∉ p) := ih (fun g inside => plain g (by simp [inside])) plain_path
      have atoms : piecesAtoms (.middle :: .text next :: slashPieces rest) =
          .one slashUnit :: .someDirs :: piecesAtoms (.text next :: slashPieces rest) := rfl
      rw [slashPieces, if_pos rfl, matchesAsRead, if_pos rfl, atoms, test_slash]
      cases path with
      | nil => rfl
      | cons p path =>
          have plain_rest : ∀ p ∈ path, slashUnit ∉ p := fun q inside => plain_path q (List.mem_cons_of_mem p inside)
          rw [List.headD_cons, List.drop_one, List.tail_cons, testAtoms_later, GlobAtom.rests, ← test_behind own later (plain_path p List.mem_cons_self) plain_rest]
          rfl
  | case5 g next rest other ih =>
      have own := plain g List.mem_cons_self
      have atoms : piecesAtoms (.between :: .text g :: slashPieces (next :: rest)) =
          .one slashUnit :: piecesAtoms (.text g :: slashPieces (next :: rest)) := rfl
      rw [slashPieces, if_neg other, matchesAsRead, if_neg other, atoms, test_slash]
      cases path with
      | nil => rfl
      | cons p path =>
          have plain_rest : ∀ p ∈ path, slashUnit ∉ p := fun q inside => plain_path q (List.mem_cons_of_mem p inside)
          rw [List.headD_cons, List.drop_one, List.tail_cons, test_segment own _ (plain_path p List.mem_cons_self),
            ih (fun h inside => plain h (List.mem_cons_of_mem g inside)) plain_rest]

theorem test_startPieces (segments : List Units) (some_segment : segments ≠ []) (plain : ∀ g ∈ segments, slashUnit ∉ g) {p : Units}
    (plain_first : slashUnit ∉ p) {path : List Units} (plain_path : ∀ p ∈ path, slashUnit ∉ p) :
    testAtoms (piecesAtoms (startPieces segments)) true (p ++ pathTail path) = matchesAsRead segments (p :: path) := by
  cases segments with
  | nil => exact absurd rfl some_segment
  | cons g rest =>
      have own := plain g List.mem_cons_self
      have plain_rest : ∀ g ∈ rest, slashUnit ∉ g := fun h inside => plain h (List.mem_cons_of_mem g inside)
      by_cases globstar : g = globstarSegment
      · cases rest with
        | nil =>
            have atoms : piecesAtoms [.standalone] = [.anything] := rfl
            have whole : testAtoms [.anything] false (p ++ pathTail path) = ((restsOfRun isDotUnit (p ++ pathTail path)).any fun r => r.isEmpty) :=
              testAtoms_later _ _ _
            rw [startPieces, if_pos globstar, matchesAsRead, if_pos globstar, atoms, testAtoms_anywhere (by decide), whole, restsOfRun_whole,
              List.all_append, pathTail_all]
            rfl
        | cons next rest =>
            have own_next := plain_rest next List.mem_cons_self
            have later {path : List Units} (plain_path : ∀ p ∈ path, slashUnit ∉ p) :=
              test_slashPieces rest (fun h inside => plain_rest h (List.mem_cons_of_mem next inside)) plain_path
            have inner := text_inner next (inner_pieces rest)
            have atoms : piecesAtoms (.leading :: .text next :: slashPieces rest) = .leadingDirs :: piecesAtoms (.text next :: slashPieces rest) := rfl
            have anywhere (s r : Units) : testAtoms (piecesAtoms (.text next :: slashPieces rest)) (true && r.length = s.length) r =
                testAtoms (piecesAtoms (.text next :: slashPieces rest)) false r := testAtoms_anywhere inner _ r
            rw [startPieces, if_pos globstar, matchesAsRead, if_pos globstar, atoms, testAtoms, ← test_behind own_next later plain_first plain_path]
            simp only [anywhere]
            rfl
      · cases rest with
        | nil =>
            have inner := text_inner g (inner_pieces [])
            have atoms : startPieces [g] = .text g :: slashPieces [] := by
              rw [startPieces, if_neg globstar]
              rfl
            rw [atoms, testAtoms_anywhere inner, test_segment own [] plain_first, test_slashPieces [] plain_rest plain_path, matchesAsRead_text globstar]
            rfl
        | cons next rest =>
            have inner := text_inner g (inner_pieces (next :: rest))
            rw [startPieces, if_neg globstar, matchesAsRead, if_neg globstar, testAtoms_anywhere inner, test_segment own _ plain_first,
              test_slashPieces _ plain_rest plain_path]
            rfl

theorem intercalate_tail (p : Units) (path : List Units) : [slashUnit].intercalate (p :: path) = p ++ pathTail path := by
  induction path generalizing p with
  | nil =>
      rw [List.intercalate_singleton]
      exact (List.append_nil p).symm
  | cons q path ih =>
      rw [List.intercalate_cons_cons, ih, List.append_assoc]
      rfl

-- The path is matched segment by segment, as the expression reads the pattern's segments.
theorem matchesPathGlob_read {pattern : Units} (nulfree : nulUnit ∉ pattern) (apart : marksApart (segmentsOf pattern) = true) (filename : Units) :
    matchesPathGlob filename pattern = matchesAsRead (segmentsOf pattern) (segmentsOf filename) := by
  obtain ⟨p, path, split⟩ := List.exists_cons_of_ne_nil (segmentsOf_ne_nil filename)
  have plain (q : Units) (inside : q ∈ p :: path) : slashUnit ∉ q := segmentsOf_plain (split ▸ inside)
  rw [matchesPathGlob_atoms nulfree apart, ← toSlashes_segments filename, split, intercalate_tail]
  exact test_startPieces _ (segmentsOf_ne_nil pattern) (fun g inside => segmentsOf_plain inside) (plain p List.mem_cons_self)
    fun q inside => plain q (List.mem_cons_of_mem p inside)

end Expressions
end PrAgent
