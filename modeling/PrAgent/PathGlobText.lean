import Mathlib.Data.List.Basic
import Mathlib.Data.List.Infix
set_option autoImplicit false

namespace PrAgent

section Rewrites

-- The code units of a string.
abbrev Units := List UInt16

def unitsOf (value : String) : Units := value.toList.map fun c => UInt16.ofNat c.toNat

def nulUnit : UInt16 := 0

def starUnit : UInt16 := 42

def slashUnit : UInt16 := 47

def questionUnit : UInt16 := 63

def backslashUnit : UInt16 := 92

-- `.replace(/\\/g, "/")`.
def toSlashes (value : Units) : Units := value.map fun c => if c = backslashUnit then slashUnit else c

def regexSpecials : Units := unitsOf ".+^$\x7b\x7d()|[]\\"

def escapeUnit (c : UInt16) : Units := if c ∈ regexSpecials then [backslashUnit, c] else [c]

def placeholder (name : Units) : Units := nulUnit :: (name ++ [nulUnit])

def globstarMiddle : Units := unitsOf "GLOBSTAR_MIDDLE"

def globstarTrailing : Units := unitsOf "GLOBSTAR_TRAILING"

def globstarLeading : Units := unitsOf "GLOBSTAR_LEADING"

def globstarStandalone : Units := unitsOf "GLOBSTAR_STANDALONE"

-- Two stars before a slash or the end.
def isGlobstar : Units → Bool
  | a :: b :: after => a = starUnit && b = starUnit && (after.isEmpty || after.head? = some slashUnit)
  | _ => false

-- `.replace(/(^|\/)\*\*(\/|$)/g, ...)`; the first argument counts the units of a match that are left.
def replaceGlobstars : Nat → Bool → Units → Units
  | _, _, [] => []
  | left + 1, _, _ :: rest => replaceGlobstars left false rest
  | 0, atStart, c :: rest =>
    if atStart && isGlobstar (c :: rest) then
      if rest.length = 1 then placeholder globstarStandalone ++ replaceGlobstars 1 false rest
      else placeholder globstarLeading ++ replaceGlobstars 2 false rest
    else if c = slashUnit && isGlobstar rest then
      if rest.length = 2 then placeholder globstarTrailing ++ replaceGlobstars 2 false rest
      else placeholder globstarMiddle ++ replaceGlobstars 3 false rest
    else c :: replaceGlobstars 0 false rest

def replaceStar (c : UInt16) : Units := if c = starUnit then unitsOf "[^/]*" else [c]

def replaceQuestion (c : UInt16) : Units := if c = questionUnit then unitsOf "[^/]" else [c]

-- `replaceAll`; the first argument counts the units of an occurrence that are left.
def replaceAllUnits (needle replacement : Units) : Nat → Units → Units
  | _, [] => []
  | left + 1, _ :: rest => replaceAllUnits needle replacement left rest
  | 0, c :: rest =>
    if needle <+: c :: rest then replacement ++ replaceAllUnits needle replacement (needle.length - 1) rest
    else c :: replaceAllUnits needle replacement 0 rest

def regexString (pattern : Units) : Units :=
  let rewritten := ((replaceGlobstars 0 true ((toSlashes pattern).flatMap escapeUnit)).flatMap replaceStar).flatMap replaceQuestion
  let middle := replaceAllUnits (placeholder globstarMiddle) (unitsOf "/(?:.*/)?") 0 rewritten
  let trailing := replaceAllUnits (placeholder globstarTrailing) (unitsOf "/.*") 0 middle
  let leading := replaceAllUnits (placeholder globstarLeading) (unitsOf "(?:^|.*/)") 0 trailing
  replaceAllUnits (placeholder globstarStandalone) (unitsOf ".*") 0 leading

end Rewrites

section Regex

-- The parts of the regular expressions that the rewrites make.
inductive GlobAtom where
  | one (c : UInt16)
  | segmentChar
  | segmentRun
  | anything
  | someDirs
  | leadingDirs
  deriving DecidableEq

def readAtom (s : Units) : Option (GlobAtom × Units) :=
  if unitsOf "[^/]*" <+: s then some (.segmentRun, s.drop 5)
  else if unitsOf "[^/]" <+: s then some (.segmentChar, s.drop 4)
  else if unitsOf "(?:.*/)?" <+: s then some (.someDirs, s.drop 8)
  else if unitsOf "(?:^|.*/)" <+: s then some (.leadingDirs, s.drop 9)
  else if unitsOf ".*" <+: s then some (.anything, s.drop 2)
  else
    match s with
    | [] => none
    | c :: rest =>
      if c = backslashUnit then rest.head?.map fun escaped => (.one escaped, rest.drop 1)
      else if c ∈ regexSpecials ∨ c = starUnit ∨ c = questionUnit then none
      else some (.one c, rest)

def readRegex : Nat → Units → Option (List GlobAtom)
  | _, [] => some []
  | 0, _ => none
  | fuel + 1, s => (readAtom s).bind fun found => (readRegex fuel found.2).map fun atoms => found.1 :: atoms

-- What `.` takes.
def isDotUnit (c : UInt16) : Bool := c ≠ 0x0A && c ≠ 0x0D && c ≠ 0x2028 && c ≠ 0x2029

-- What is left behind a run of units.
def restsOfRun (allows : UInt16 → Bool) : Units → List Units
  | [] => [[]]
  | c :: rest => (c :: rest) :: if allows c then restsOfRun allows rest else []

def behindSlash (rests : List Units) : List Units := (rests.filter fun rest => rest.head? = some slashUnit).map fun rest => rest.drop 1

def GlobAtom.rests (atStart : Bool) (s : Units) : GlobAtom → List Units
  | .one c => if s.head? = some c then [s.drop 1] else []
  | .segmentChar => if s.head?.any fun c => c ≠ slashUnit then [s.drop 1] else []
  | .segmentRun => restsOfRun (fun c => c ≠ slashUnit) s
  | .anything => restsOfRun isDotUnit s
  | .someDirs => s :: behindSlash (restsOfRun isDotUnit s)
  | .leadingDirs => (if atStart then [s] else []) ++ behindSlash (restsOfRun isDotUnit s)

-- `test` of the expression between `^` and `$`.
def testAtoms : List GlobAtom → Bool → Units → Bool
  | [], _, s => s.isEmpty
  | atom :: rest, atStart, s => (atom.rests atStart s).any fun r => testAtoms rest (atStart && r.length = s.length) r

def matchesPathGlob (filename pattern : Units) : Bool :=
  match readRegex (regexString pattern).length (regexString pattern) with
  | some atoms => testAtoms atoms true (toSlashes filename)
  | none => false

end Regex

section Segments

def globstarSegment : Units := [starUnit, starUnit]

-- A segment of a path, by the usual rules.
def matchesSegment : Units → Units → Bool
  | [], s => s.isEmpty
  | c :: rest, s =>
    if c = starUnit then s.tails.any fun r => matchesSegment rest r
    else if c = questionUnit then !s.isEmpty && matchesSegment rest (s.drop 1)
    else s.head? = some c && matchesSegment rest (s.drop 1)

-- A globstar takes any number of segments, and at the end at least one.
def matchesSegments : List Units → List Units → Bool
  | [], path => path.isEmpty
  | [g], path => if g = globstarSegment then !path.isEmpty else path.length = 1 && matchesSegment g (path.headD [])
  | g :: next :: rest, path =>
    if g = globstarSegment then path.tails.any fun later => matchesSegments (next :: rest) later
    else !path.isEmpty && matchesSegment g (path.headD []) && matchesSegments (next :: rest) (path.drop 1)

def matchesBySegments (filename pattern : Units) : Bool := matchesSegments (pattern.splitOn slashUnit) (filename.splitOn slashUnit)

end Segments

section Pieces

-- What the rewrites make of the segments of a pattern.
inductive GlobPiece where
  | text (t : Units)
  | between
  | middle
  | trailing
  | leading
  | standalone

-- The segments behind a slash that no globstar has taken.
def slashPieces : List Units → List GlobPiece
  | [] => []
  | [g] => if g = globstarSegment then [.trailing] else [.between, .text g]
  | g :: next :: rest =>
    if g = globstarSegment then .middle :: .text next :: slashPieces rest else .between :: .text g :: slashPieces (next :: rest)

def startPieces : List Units → List GlobPiece
  | [] => []
  | [g] => if g = globstarSegment then [.standalone] else [.text g]
  | g :: next :: rest =>
    if g = globstarSegment then .leading :: .text next :: slashPieces rest else .text g :: slashPieces (next :: rest)

def unitAtom (c : UInt16) : GlobAtom := if c = starUnit then .segmentRun else if c = questionUnit then .segmentChar else .one c

def GlobPiece.atoms : GlobPiece → List GlobAtom
  | .text t => t.map unitAtom
  | .between => [.one slashUnit]
  | .middle => [.one slashUnit, .someDirs]
  | .trailing => [.one slashUnit, .anything]
  | .leading => [.leadingDirs]
  | .standalone => [.anything]

def GlobAtom.text : GlobAtom → Units
  | .one c => escapeUnit c
  | .segmentChar => unitsOf "[^/]"
  | .segmentRun => unitsOf "[^/]*"
  | .anything => unitsOf ".*"
  | .someDirs => unitsOf "(?:.*/)?"
  | .leadingDirs => unitsOf "(?:^|.*/)"

def renderedUnits (t : Units) : Units := t.flatMap fun c => (unitAtom c).text

-- The text of a piece while the globstars have the given texts.
def GlobPiece.stage (m t l a : Units) : GlobPiece → Units
  | .text s => renderedUnits s
  | .between => [slashUnit]
  | .middle => m
  | .trailing => t
  | .leading => l
  | .standalone => a

end Pieces

section Globstars

def escaped (t : Units) : Units := t.flatMap escapeUnit

def tailText (segments : List Units) : Units := segments.flatMap fun g => slashUnit :: escaped g

-- The text of a piece before the other rewrites.
def GlobPiece.raw : GlobPiece → Units
  | .text s => escaped s
  | .between => [slashUnit]
  | .middle => placeholder globstarMiddle
  | .trailing => placeholder globstarTrailing
  | .leading => placeholder globstarLeading
  | .standalone => placeholder globstarStandalone

theorem escaped_intercalate (g : Units) (rest : List Units) : escaped ([slashUnit].intercalate (g :: rest)) = escaped g ++ tailText rest := by
  induction rest generalizing g with
  | nil =>
      rw [List.intercalate_singleton, tailText]
      exact (List.append_nil _).symm
  | cons next rest ih =>
      have slash : escaped [slashUnit] = [slashUnit] := by decide
      rw [List.intercalate_cons_cons, escaped, List.flatMap_append, List.flatMap_append]
      have later := ih next
      rw [escaped] at later slash
      rw [later, slash, tailText, tailText, List.flatMap_cons, List.append_assoc]
      rfl

theorem escapeUnit_head {c : UInt16} (other : c ≠ slashUnit) : ∃ d more, escapeUnit c = d :: more ∧ d ≠ slashUnit ∧ (d = starUnit → c = starUnit ∧ more = []) := by
  rw [escapeUnit]
  by_cases special : c ∈ regexSpecials
  · rw [if_pos special]
    exact ⟨backslashUnit, [c], rfl, by decide, fun same => absurd same (by decide)⟩
  · rw [if_neg special]
    exact ⟨c, [], rfl, other, fun same => ⟨same, rfl⟩⟩

theorem escaped_star (more : Units) : escaped (starUnit :: more) = starUnit :: escaped more := by
  have own : escapeUnit starUnit = [starUnit] := by decide
  rw [escaped, List.flatMap_cons, own]
  rfl

theorem mem_escapeUnit {u c : UInt16} (here : u ∈ escapeUnit c) : u = backslashUnit ∨ u = c := by
  rw [escapeUnit] at here
  split at here
  · exact (List.mem_cons.mp here).imp_right List.mem_singleton.mp
  · exact .inr (List.mem_singleton.mp here)

theorem escaped_slashless {g : Units} (plain : slashUnit ∉ g) : slashUnit ∉ escaped g := by
  intro listed
  obtain ⟨c, inside, here⟩ := List.mem_flatMap.mp listed
  rcases mem_escapeUnit here with same | rfl
  · exact absurd same (by decide)
  · exact plain inside

theorem tailText_head (rest : List Units) : (tailText rest).isEmpty = true ∨ (tailText rest).head? = some slashUnit := by
  cases rest with
  | nil => exact .inl rfl
  | cons g rest => exact .inr rfl

theorem tailText_star (segments : List Units) : (tailText segments).head? ≠ some starUnit := by
  rcases tailText_head segments with empty | slash
  · rw [List.isEmpty_iff.mp empty]
    intro same
    cases same
  · rw [slash]
    intro same
    exact absurd (Option.some.inj same) (by decide)

-- Two stars that are not a whole segment.
theorem not_globstar_third {c : UInt16} (other : c ≠ slashUnit) (g more : Units) :
    isGlobstar (starUnit :: starUnit :: (escaped (c :: g) ++ more)) = false := by
  obtain ⟨d, rest, split, apart, _⟩ := escapeUnit_head other
  have shape : escaped (c :: g) ++ more = d :: (rest ++ (escaped g ++ more)) := by
    rw [escaped, List.flatMap_cons, split, List.cons_append, List.cons_append, List.append_assoc]
    rfl
  rw [shape, isGlobstar]
  simp [apart]

theorem not_globstar_second {s : Units} (other : s.head? ≠ some starUnit) : isGlobstar (starUnit :: s) = false := by
  cases s with
  | nil => rfl
  | cons d rest =>
      have apart : d ≠ starUnit := fun same => other (same ▸ rfl)
      rw [isGlobstar]
      simp [apart]

theorem not_globstar_first {s : Units} (other : s.head? ≠ some starUnit) : isGlobstar s = false := by
  cases s with
  | nil => rfl
  | cons c rest =>
      have apart : c ≠ starUnit := fun same => other (same ▸ rfl)
      cases rest with
      | nil => rfl
      | cons d rest =>
          rw [isGlobstar]
          simp [apart]

theorem escaped_head {c : UInt16} (other : c ≠ slashUnit) (star : c ≠ starUnit) (g more : Units) :
    (escaped (c :: g) ++ more).head? ≠ some starUnit := by
  obtain ⟨d, rest, split, _, own⟩ := escapeUnit_head other
  rw [escaped, List.flatMap_cons, split]
  intro same
  exact star (own (Option.some.inj same)).1

-- A segment is a globstar exactly where the rewriting sees two stars.
theorem isGlobstar_segment {g : Units} (plain : slashUnit ∉ g) (rest : List Units) :
    isGlobstar (escaped g ++ tailText rest) = decide (g = globstarSegment) := by
  have apart {c : UInt16} (inside : c ∈ g) : c ≠ slashUnit := fun same => plain (same ▸ inside)
  cases g with
  | nil =>
      have none_own : escaped [] ++ tailText rest = tailText rest := rfl
      rw [none_own, not_globstar_first (tailText_star rest)]
      rfl
  | cons c g =>
      by_cases first : c = starUnit
      · subst first
        rw [escaped_star, List.cons_append]
        cases g with
        | nil =>
            have none_own : escaped [] ++ tailText rest = tailText rest := rfl
            rw [none_own, not_globstar_second (tailText_star rest)]
            rfl
        | cons d g =>
            have second_plain : d ≠ slashUnit := apart (List.mem_cons_of_mem _ List.mem_cons_self)
            by_cases second : d = starUnit
            · subst second
              rw [escaped_star, List.cons_append]
              cases g with
              | nil =>
                  have none_own : escaped [] ++ tailText rest = tailText rest := rfl
                  rw [none_own, isGlobstar]
                  rcases tailText_head rest with empty | slash
                  · rw [empty]
                    simp [globstarSegment]
                  · rw [slash]
                    simp [globstarSegment]
              | cons e g =>
                  have third : e ≠ slashUnit := apart (List.mem_cons_of_mem _ (List.mem_cons_of_mem _ List.mem_cons_self))
                  rw [not_globstar_third third]
                  simp [globstarSegment]
            · rw [not_globstar_second (escaped_head second_plain second g _)]
              simp [globstarSegment, second]
      · rw [not_globstar_first (escaped_head (apart List.mem_cons_self) first g _)]
        simp [globstarSegment, first]

theorem replaceGlobstars_emit {x : Units} (plain : slashUnit ∉ x) (y : Units) :
    replaceGlobstars 0 false (x ++ y) = x ++ replaceGlobstars 0 false y := by
  induction x with
  | nil => rfl
  | cons c x ih =>
      have other : c ≠ slashUnit := fun same => plain (same ▸ List.mem_cons_self)
      rw [List.cons_append, replaceGlobstars]
      simp only [Bool.false_and, Bool.false_eq_true, if_false, other, decide_false]
      rw [ih (fun inside => plain (List.mem_cons_of_mem c inside))]
      rfl

theorem replaceGlobstars_slash (s : Units) : replaceGlobstars 0 false (slashUnit :: s) =
    if isGlobstar s then
      if s.length = 2 then placeholder globstarTrailing ++ replaceGlobstars 2 false s else placeholder globstarMiddle ++ replaceGlobstars 3 false s
    else slashUnit :: replaceGlobstars 0 false s := by
  rw [replaceGlobstars]
  simp only [Bool.false_and, Bool.false_eq_true, if_false, decide_true, Bool.true_and]

theorem escaped_globstar : escaped globstarSegment = globstarSegment := by decide

theorem replaceGlobstars_tail (segments : List Units) (plain : ∀ g ∈ segments, slashUnit ∉ g) :
    replaceGlobstars 0 false (tailText segments) = (slashPieces segments).flatMap GlobPiece.raw := by
  induction segments using slashPieces.induct with
  | case1 => rfl
  | case2 =>
      rw [slashPieces, if_pos rfl]
      decide
  | case3 g other =>
      have own := plain g List.mem_cons_self
      have text : tailText [g] = slashUnit :: (escaped g ++ tailText []) := rfl
      rw [text, replaceGlobstars_slash, isGlobstar_segment own, if_neg (by simpa using other), replaceGlobstars_emit (escaped_slashless own),
        slashPieces, if_neg other]
      rfl
  | case4 next rest ih =>
      have own := plain next (by simp)
      have later := ih fun g inside => plain g (by simp [inside])
      have text : tailText (globstarSegment :: next :: rest) =
          slashUnit :: (escaped globstarSegment ++ tailText (next :: rest)) := rfl
      have more : (escaped globstarSegment ++ tailText (next :: rest)).length ≠ 2 := by
        rw [escaped_globstar, tailText, List.flatMap_cons]
        simp [globstarSegment]
      have behind : replaceGlobstars 3 false (escaped globstarSegment ++ tailText (next :: rest)) =
          replaceGlobstars 0 false (escaped next ++ tailText rest) := rfl
      rw [text, replaceGlobstars_slash, isGlobstar_segment (by decide), if_pos (by decide), if_neg more, behind,
        replaceGlobstars_emit (escaped_slashless own), later, slashPieces, if_pos rfl]
      rfl
  | case5 g next rest other ih =>
      have own := plain g List.mem_cons_self
      have later := ih fun g inside => plain g (List.mem_cons_of_mem _ inside)
      have text : tailText (g :: next :: rest) = slashUnit :: (escaped g ++ tailText (next :: rest)) := rfl
      rw [text, replaceGlobstars_slash, isGlobstar_segment own, if_neg (by simpa using other), replaceGlobstars_emit (escaped_slashless own), later,
        slashPieces, if_neg other]
      rfl

theorem replaceGlobstars_first {g : Units} (other : g ≠ globstarSegment) (plain : slashUnit ∉ g) (rest : List Units)
    (plain_rest : ∀ g ∈ rest, slashUnit ∉ g) :
    replaceGlobstars 0 true (escaped g ++ tailText rest) = escaped g ++ (slashPieces rest).flatMap GlobPiece.raw := by
  rw [← replaceGlobstars_tail rest plain_rest, ← replaceGlobstars_emit (escaped_slashless plain)]
  cases text : escaped g ++ tailText rest with
  | nil => rfl
  | cons c more =>
      have sees := isGlobstar_segment plain rest
      rw [text, decide_eq_false other] at sees
      rw [replaceGlobstars, replaceGlobstars, sees]
      rfl

theorem replaceGlobstars_start (segments : List Units) (some_segment : segments ≠ []) (plain : ∀ g ∈ segments, slashUnit ∉ g) :
    replaceGlobstars 0 true (escaped ([slashUnit].intercalate segments)) = (startPieces segments).flatMap GlobPiece.raw := by
  cases segments with
  | nil => exact absurd rfl some_segment
  | cons g rest =>
      have own := plain g List.mem_cons_self
      have plain_rest : ∀ g ∈ rest, slashUnit ∉ g := fun g inside => plain g (List.mem_cons_of_mem _ inside)
      rw [escaped_intercalate]
      by_cases globstar : g = globstarSegment
      · subst globstar
        cases rest with
        | nil => decide
        | cons next rest =>
            have more : (starUnit :: tailText (next :: rest)).length ≠ 1 := by
              rw [tailText, List.flatMap_cons]
              simp
            have sees := isGlobstar_segment own (next :: rest)
            have text : escaped globstarSegment ++ tailText (next :: rest) = starUnit :: starUnit :: tailText (next :: rest) := rfl
            have behind : replaceGlobstars 2 false (starUnit :: tailText (next :: rest)) = replaceGlobstars 0 false (escaped next ++ tailText rest) := rfl
            rw [text, decide_eq_true rfl] at sees
            rw [text, replaceGlobstars, sees, Bool.true_and, if_pos rfl, if_neg more, behind,
              replaceGlobstars_emit (escaped_slashless (plain_rest next List.mem_cons_self)),
              replaceGlobstars_tail rest (fun g inside => plain_rest g (List.mem_cons_of_mem _ inside)), startPieces, if_pos rfl]
            rfl
      · rw [replaceGlobstars_first globstar own rest plain_rest]
        cases rest with
        | nil =>
            rw [startPieces, if_neg globstar]
            rfl
        | cons next rest =>
            rw [startPieces, if_neg globstar]
            rfl

end Globstars
end PrAgent
