import PrAgent.PathGlobText
import PrAgent.SplitPieces
set_option autoImplicit false

namespace PrAgent

section Replace

variable {needle replacement : Units}

theorem replaceAll_left (x y : Units) : replaceAllUnits needle replacement x.length (x ++ y) = replaceAllUnits needle replacement 0 y := by
  induction x with
  | nil => rfl
  | cons c x ih =>
      rw [List.cons_append, List.length_cons, replaceAllUnits]
      exact ih

theorem replaceAll_hit (some_unit : needle ≠ []) (y : Units) :
    replaceAllUnits needle replacement 0 (needle ++ y) = replacement ++ replaceAllUnits needle replacement 0 y := by
  obtain ⟨c, n, rfl⟩ := List.exists_cons_of_ne_nil some_unit
  rw [List.cons_append, replaceAllUnits, if_pos ⟨y, rfl⟩, List.length_cons, Nat.add_sub_cancel, replaceAll_left]

-- No occurrence begins in the part before.
theorem replaceAll_skip (x y : Units) (quiet : ∀ before here, x = before ++ here → here ≠ [] → ¬needle <+: here ++ y) :
    replaceAllUnits needle replacement 0 (x ++ y) = x ++ replaceAllUnits needle replacement 0 y := by
  induction x with
  | nil => rfl
  | cons c x ih =>
      have here := quiet [] (c :: x) rfl (List.cons_ne_nil c x)
      rw [List.cons_append] at here ⊢
      rw [replaceAllUnits, if_neg here, ih]
      · rfl
      · intro before later split
        exact quiet (c :: before) later (congrArg (List.cons c) split)

variable {name other : Units}

theorem replaceAll_nulfree {x : Units} (nulfree : nulUnit ∉ x) (y : Units) :
    replaceAllUnits (placeholder name) replacement 0 (x ++ y) = x ++ replaceAllUnits (placeholder name) replacement 0 y := by
  apply replaceAll_skip
  intro before here split filled starts
  obtain ⟨c, rest, rfl⟩ := List.exists_cons_of_ne_nil filled
  obtain ⟨more, same⟩ := starts
  have first : nulUnit = c := (List.cons.inj same).1
  exact nulfree (by rw [split, first]; simp)

theorem replaceAll_none {x : Units} (nulfree : nulUnit ∉ x) : replaceAllUnits (placeholder name) replacement 0 x = x := by
  have whole := @replaceAll_nulfree replacement name x nulfree []
  rw [List.append_nil] at whole
  rw [whole]
  exact List.append_nil x

-- A name with its closing mark, before what may follow.
theorem name_before {x y : Units} (nulfree : nulUnit ∉ x) (own_nul : nulUnit ∉ name) (own_slash : slashUnit ∉ name)
    (ends : y = [] ∨ y.head? = some slashUnit ∨ y.head? = some nulUnit) (starts : name ++ [nulUnit] <+: x ++ y) :
    x = name ∧ y.head? = some nulUnit := by
  induction name generalizing x with
  | nil =>
      obtain ⟨more, same⟩ := starts
      cases x with
      | nil =>
          constructor
          · rfl
          · have own : nulUnit :: more = y := same
            rw [← own]
            rfl
      | cons c x =>
          have first : nulUnit = c := (List.cons.inj same).1
          exact absurd (first ▸ List.mem_cons_self) nulfree
  | cons c name ih =>
      cases x with
      | nil =>
          obtain ⟨more, same⟩ := starts
          rw [List.nil_append] at same
          have first : y.head? = some c := by
            rw [← same]
            rfl
          rcases ends with rfl | slash | nul
          · cases first
          · rw [slash] at first
            exact absurd (Option.some.inj first ▸ List.mem_cons_self) own_slash
          · rw [nul] at first
            exact absurd (Option.some.inj first ▸ List.mem_cons_self) own_nul
      | cons d x =>
          obtain ⟨same, later⟩ := List.cons_prefix_cons.mp starts
          have inner := ih (fun inside => nulfree (List.mem_cons_of_mem d inside)) (fun inside => own_nul (List.mem_cons_of_mem c inside))
            (fun inside => own_slash (List.mem_cons_of_mem c inside)) later
          exact ⟨by rw [inner.1, same], inner.2⟩

-- Another placeholder is left as it is, unless its closing mark opens an occurrence.
theorem replaceAll_other (different : other ≠ name) (own_nul : nulUnit ∉ name) (own_slash : slashUnit ∉ name) (other_nul : nulUnit ∉ other)
    {y : Units} (behind : ¬name ++ [nulUnit] <+: y) :
    replaceAllUnits (placeholder name) replacement 0 (placeholder other ++ y) = placeholder other ++ replaceAllUnits (placeholder name) replacement 0 y := by
  apply replaceAll_skip
  intro before here split filled starts
  have closing (c : Units) (own : other = before.drop 1 ++ c) (same : here = c ++ [nulUnit]) : False := by
    cases c with
    | nil =>
        rw [same] at starts
        exact behind (List.cons_prefix_cons.mp starts).2
    | cons d c =>
        rw [same] at starts
        have first : nulUnit = d := (List.cons_prefix_cons.mp starts).1
        exact other_nul (by rw [own, first]; simp)
  cases before with
  | nil =>
      rw [List.nil_append] at split
      rw [← split, placeholder, placeholder, List.cons_append, List.cons_prefix_cons, List.append_assoc] at starts
      exact different (name_before other_nul own_nul own_slash (.inr (.inr rfl)) starts.2).1
  | cons c before =>
      have rest : other ++ [nulUnit] = before ++ here := (List.cons.inj split).2
      rcases List.append_eq_append_iff.mp rest with ⟨a, own, same⟩ | ⟨a, own, same⟩
      · cases a with
        | nil => exact closing [] (by simpa using own.symm) same.symm
        | cons d a =>
            have empty : a ++ here = [] := (List.cons.inj same).2.symm
            exact filled (List.append_eq_nil_iff.mp empty).2
      · exact closing a own same

end Replace

section Stages

theorem nulUnit_rendered {t : Units} (nulfree : nulUnit ∉ t) : nulUnit ∉ renderedUnits t := by
  intro listed
  obtain ⟨c, inside, here⟩ := List.mem_flatMap.mp listed
  rw [unitAtom] at here
  by_cases star : c = starUnit
  · rw [if_pos star] at here
    exact absurd here (by decide)
  rw [if_neg star] at here
  by_cases question : c = questionUnit
  · rw [if_pos question] at here
    exact absurd here (by decide)
  rw [if_neg question] at here
  rcases mem_escapeUnit here with same | rfl
  · exact absurd same (by decide)
  · exact nulfree inside

theorem rendered_unit (c : UInt16) : ((escapeUnit c).flatMap replaceStar).flatMap replaceQuestion = (unitAtom c).text := by
  by_cases star : c = starUnit
  · subst star
    decide
  by_cases question : c = questionUnit
  · subst question
    decide
  rw [unitAtom, if_neg star, if_neg question, GlobAtom.text, escapeUnit]
  have own : (([c] : Units).flatMap replaceStar).flatMap replaceQuestion = [c] := by simp [replaceStar, replaceQuestion, star, question]
  by_cases special : c ∈ regexSpecials
  · rw [if_pos special]
    have mark : (([backslashUnit] : Units).flatMap replaceStar).flatMap replaceQuestion = [backslashUnit] := by decide
    have split : ([backslashUnit, c] : Units) = [backslashUnit] ++ [c] := rfl
    rw [split, List.flatMap_append, List.flatMap_append, own, mark]
  · rw [if_neg special, own]

theorem rendered_escaped (t : Units) : ((escaped t).flatMap replaceStar).flatMap replaceQuestion = renderedUnits t := by
  induction t with
  | nil => rfl
  | cons c t ih =>
      have shape : escaped (c :: t) = escapeUnit c ++ escaped t := rfl
      rw [shape, List.flatMap_append, List.flatMap_append, ih, rendered_unit]
      rfl

def marked : GlobPiece → Units :=
  GlobPiece.stage (placeholder globstarMiddle) (placeholder globstarTrailing) (placeholder globstarLeading) (placeholder globstarStandalone)

theorem marked_pieces (pieces : List GlobPiece) :
    ((pieces.flatMap GlobPiece.raw).flatMap replaceStar).flatMap replaceQuestion = pieces.flatMap marked := by
  induction pieces with
  | nil => rfl
  | cons piece rest ih =>
      rw [List.flatMap_cons, List.flatMap_append, List.flatMap_append, ih, List.flatMap_cons]
      congr 1
      cases piece with
      | text t => exact rendered_escaped t
      | between => decide
      | middle => decide
      | trailing => decide
      | leading => decide
      | standalone => decide

-- The names have no mark and no slash, and are not rewritten.
theorem names_plain : (nulUnit ∉ globstarMiddle ∧ slashUnit ∉ globstarMiddle) ∧ (nulUnit ∉ globstarTrailing ∧ slashUnit ∉ globstarTrailing) ∧
    nulUnit ∉ globstarLeading ∧ nulUnit ∉ globstarStandalone := by decide

theorem names_letters : ∀ c ∈ globstarMiddle ++ globstarTrailing, c ≠ backslashUnit ∧ c ≠ 91 := by
  have all : ((globstarMiddle ++ globstarTrailing).all fun c => decide (c ≠ backslashUnit) && decide (c ≠ 91)) = true := by decide
  intro c inside
  have here := List.all_eq_true.mp all c inside
  rw [Bool.and_eq_true, decide_eq_true_iff, decide_eq_true_iff] at here
  exact here

-- A segment that is rendered as a name is that name.
theorem rendered_name {t name : Units} (letters : ∀ c ∈ name, c ≠ backslashUnit ∧ c ≠ 91) (same : renderedUnits t = name) : t = name := by
  induction t generalizing name with
  | nil => exact same
  | cons c t ih =>
      have shape : renderedUnits (c :: t) = (unitAtom c).text ++ renderedUnits t := rfl
      rw [shape] at same
      have bracket (rest : Units) (starts : (unitAtom c).text = 91 :: rest) : False :=
        (letters 91 (by rw [← same, starts]; exact List.mem_cons_self)).2 rfl
      by_cases star : c = starUnit
      · exact (bracket _ (by rw [unitAtom, if_pos star]; rfl)).elim
      by_cases question : c = questionUnit
      · exact (bracket _ (by rw [unitAtom, if_neg star, if_pos question]; rfl)).elim
      rw [unitAtom, if_neg star, if_neg question, GlobAtom.text, escapeUnit] at same
      by_cases special : c ∈ regexSpecials
      · rw [if_pos special] at same
        exact absurd rfl (letters backslashUnit (by rw [← same]; exact List.mem_cons_self)).1
      · rw [if_neg special] at same
        cases name with
        | nil => cases same
        | cons d name =>
            obtain ⟨first, rest⟩ := List.cons.inj same
            rw [first, ih (fun e inside => letters e (List.mem_cons_of_mem d inside)) rest]

-- Behind a slash there are texts, slashes, globstars between segments, and at the end perhaps a globstar.
inductive BehindSlash : List GlobPiece → Prop
  | nil : BehindSlash []
  | trailing : BehindSlash [.trailing]
  | text {t : Units} {rest : List GlobPiece} (nulfree : nulUnit ∉ t) (later : BehindSlash rest) : BehindSlash (.text t :: rest)
  | between {rest : List GlobPiece} (later : BehindSlash rest) : BehindSlash (.between :: rest)
  | middle {rest : List GlobPiece} (later : BehindSlash rest) : BehindSlash (.middle :: rest)

theorem slashPieces_behind {segments : List Units} (nulfree : ∀ g ∈ segments, nulUnit ∉ g) : BehindSlash (slashPieces segments) := by
  induction segments using slashPieces.induct with
  | case1 => exact .nil
  | case2 =>
      rw [slashPieces, if_pos rfl]
      exact .trailing
  | case3 g other =>
      rw [slashPieces, if_neg other]
      exact .between (.text (nulfree g List.mem_cons_self) .nil)
  | case4 next rest ih =>
      rw [slashPieces, if_pos rfl]
      exact .middle (.text (nulfree next (by simp)) (ih fun g inside => nulfree g (by simp [inside])))
  | case5 g next rest other ih =>
      rw [slashPieces, if_neg other]
      exact .between (.text (nulfree g List.mem_cons_self) (ih fun h inside => nulfree h (List.mem_cons_of_mem _ inside)))

def middleText : Units := unitsOf "/(?:.*/)?"

def trailingText : Units := unitsOf "/.*"

def leadingText : Units := unitsOf "(?:^|.*/)"

def standaloneText : Units := unitsOf ".*"

variable {l a : Units}

theorem replace_text {name replacement t : Units} (nulfree : nulUnit ∉ t) (y : Units) :
    replaceAllUnits (placeholder name) replacement 0 (renderedUnits t ++ y) = renderedUnits t ++ replaceAllUnits (placeholder name) replacement 0 y :=
  replaceAll_nulfree (nulUnit_rendered nulfree) y

theorem replace_slash {name replacement : Units} (y : Units) :
    replaceAllUnits (placeholder name) replacement 0 ([slashUnit] ++ y) = [slashUnit] ++ replaceAllUnits (placeholder name) replacement 0 y :=
  replaceAll_nulfree (by decide) y

theorem slash_middle {pieces : List GlobPiece} (behind : BehindSlash pieces) :
    replaceAllUnits (placeholder globstarMiddle) middleText 0
        (pieces.flatMap (GlobPiece.stage (placeholder globstarMiddle) (placeholder globstarTrailing) l a)) =
      pieces.flatMap (GlobPiece.stage middleText (placeholder globstarTrailing) l a) := by
  induction behind with
  | nil => rfl
  | trailing =>
      have behind : ¬globstarMiddle ++ [nulUnit] <+: [] := by decide
      exact replaceAll_other (by decide) names_plain.1.1 names_plain.1.2 names_plain.2.1.1 behind
  | text nulfree later ih =>
      rw [List.flatMap_cons, List.flatMap_cons, ← ih]
      exact replace_text nulfree _
  | between later ih =>
      rw [List.flatMap_cons, List.flatMap_cons, ← ih]
      exact replace_slash _
  | middle later ih =>
      rw [List.flatMap_cons, List.flatMap_cons, ← ih]
      exact replaceAll_hit (List.cons_ne_nil _ _) _

theorem slash_trailing {pieces : List GlobPiece} (behind : BehindSlash pieces) :
    replaceAllUnits (placeholder globstarTrailing) trailingText 0
        (pieces.flatMap (GlobPiece.stage middleText (placeholder globstarTrailing) l a)) =
      pieces.flatMap (GlobPiece.stage middleText trailingText l a) := by
  induction behind with
  | nil => rfl
  | trailing => exact replaceAll_hit (List.cons_ne_nil _ _) []
  | text nulfree later ih =>
      rw [List.flatMap_cons, List.flatMap_cons, ← ih]
      exact replace_text nulfree _
  | between later ih =>
      rw [List.flatMap_cons, List.flatMap_cons, ← ih]
      exact replace_slash _
  | middle later ih =>
      have plain : nulUnit ∉ middleText := by decide
      rw [List.flatMap_cons, List.flatMap_cons, ← ih]
      exact replaceAll_nulfree plain _

theorem slash_nulfree {pieces : List GlobPiece} (behind : BehindSlash pieces) :
    nulUnit ∉ pieces.flatMap (GlobPiece.stage middleText trailingText l a) := by
  induction behind with
  | nil => exact List.not_mem_nil
  | trailing =>
      have plain : nulUnit ∉ trailingText ++ [] := by decide
      exact plain
  | text nulfree later ih =>
      rw [List.flatMap_cons, List.mem_append]
      exact fun either => either.elim (nulUnit_rendered nulfree) ih
  | between later ih =>
      have plain : nulUnit ∉ [slashUnit] := by decide
      rw [List.flatMap_cons, List.mem_append]
      exact fun either => either.elim plain ih
  | middle later ih =>
      have plain : nulUnit ∉ middleText := by decide
      rw [List.flatMap_cons, List.mem_append]
      exact fun either => either.elim plain ih

end Stages

section Patterns

-- A text between two globstars at the start that the rewriting takes for a mark of its own.
def marksApart : List Units → Bool
  | g :: next :: last :: rest =>
    !(g = globstarSegment && last = globstarSegment && (next = globstarMiddle || next = globstarTrailing && rest.isEmpty))
  | _ => true

def regexText (pieces : List GlobPiece) : Units := pieces.flatMap (GlobPiece.stage middleText trailingText leadingText standaloneText)

-- What begins the pieces behind a slash.
theorem slashPieces_head (m t l a : Units) (segments : List Units) (globstar : segments.head? ≠ some globstarSegment) :
    (slashPieces segments).flatMap (GlobPiece.stage m t l a) = [] ∨
      ((slashPieces segments).flatMap (GlobPiece.stage m t l a)).head? = some slashUnit := by
  cases segments with
  | nil => exact .inl rfl
  | cons g rest =>
      have other : g ≠ globstarSegment := fun same => globstar (same ▸ rfl)
      cases rest with
      | nil =>
          rw [slashPieces, if_neg other]
          exact .inr rfl
      | cons next rest =>
          rw [slashPieces, if_neg other]
          exact .inr rfl

def staged (m t l a : Units) (pieces : List GlobPiece) : Units := pieces.flatMap (GlobPiece.stage m t l a)

theorem pieces_end (m t l a : Units) (t_head : t.head? = some nulUnit ∨ t.head? = some slashUnit)
    (m_head : m.head? = some nulUnit ∨ m.head? = some slashUnit) (segments : List Units) :
    staged m t l a (slashPieces segments) = [] ∨ (staged m t l a (slashPieces segments)).head? = some slashUnit ∨
      (staged m t l a (slashPieces segments)).head? = some nulUnit := by
  by_cases globstar : segments.head? = some globstarSegment
  · cases segments with
    | nil => cases globstar
    | cons g rest =>
        have first : g = globstarSegment := Option.some.inj globstar
        have headed {x : Units} (x_head : x.head? = some nulUnit ∨ x.head? = some slashUnit) (y : Units) :
            x ++ y = [] ∨ (x ++ y).head? = some slashUnit ∨ (x ++ y).head? = some nulUnit := by
          rcases x_head with nul | slash
          · exact .inr (.inr (by rw [List.head?_append, nul]; rfl))
          · exact .inr (.inl (by rw [List.head?_append, slash]; rfl))
        cases rest with
        | nil =>
            rw [slashPieces, if_pos first]
            exact headed t_head []
        | cons next rest =>
            rw [slashPieces, if_pos first]
            exact headed m_head _
  · exact (slashPieces_head m t l a segments globstar).imp id .inl

theorem behind_text {l a : Units} {pieces : List GlobPiece} (behind : BehindSlash pieces) :
    pieces.flatMap (GlobPiece.stage middleText trailingText l a) = regexText pieces := by
  induction behind with
  | nil => rfl
  | trailing => rfl
  | text nulfree later ih =>
      rw [List.flatMap_cons, ih]
      rfl
  | between later ih =>
      rw [List.flatMap_cons, ih]
      rfl
  | middle later ih =>
      rw [List.flatMap_cons, ih]
      rfl

-- The last rewrites: the expressions of the marks.
def unmark (value : Units) : Units :=
  replaceAllUnits (placeholder globstarStandalone) standaloneText 0 (replaceAllUnits (placeholder globstarLeading) leadingText 0
    (replaceAllUnits (placeholder globstarTrailing) trailingText 0 (replaceAllUnits (placeholder globstarMiddle) middleText 0 value)))

theorem replace_behind {pieces : List GlobPiece} (behind : BehindSlash pieces) : unmark (pieces.flatMap marked) = regexText pieces := by
  have nulfree : nulUnit ∉ regexText pieces := slash_nulfree behind
  rw [unmark, marked, slash_middle behind, slash_trailing behind, behind_text behind, replaceAll_none nulfree, replaceAll_none nulfree]

theorem replace_leading {next : Units} {rest : List Units} (nulfree : nulUnit ∉ next) (nulfree_rest : ∀ g ∈ rest, nulUnit ∉ g)
    (apart : marksApart (globstarSegment :: next :: rest) = true) :
    unmark ((GlobPiece.leading :: .text next :: slashPieces rest).flatMap marked) =
      regexText (.leading :: .text next :: slashPieces rest) := by
  have behind : BehindSlash (.text next :: slashPieces rest) := .text nulfree (slashPieces_behind nulfree_rest)
  have plain := nulUnit_rendered nulfree
  have no_mark {m t l a : Units} (at_slash : ¬rest.head? = some globstarSegment)
      (mark : (staged m t l a (slashPieces rest)).head? = some nulUnit) : False := by
    rcases slashPieces_head m t l a rest at_slash with empty | slash
    · rw [staged, empty] at mark
      cases mark
    · rw [staged, slash] at mark
      exact absurd (Option.some.inj mark) (by decide)
  have no_middle {l a : Units} : ¬globstarMiddle ++ [nulUnit] <+:
      renderedUnits next ++ staged (placeholder globstarMiddle) (placeholder globstarTrailing) l a (slashPieces rest) := by
    intro starts
    obtain ⟨same, mark⟩ := name_before plain names_plain.1.1 names_plain.1.2 (pieces_end _ _ _ _ (.inl rfl) (.inl rfl) rest) starts
    have own : next = globstarMiddle := rendered_name (fun c inside => names_letters c (List.mem_append_left _ inside)) same
    by_cases globstar : rest.head? = some globstarSegment
    · obtain ⟨more, rfl⟩ := List.head?_eq_some_iff.mp globstar
      rw [marksApart, own] at apart
      simp at apart
    · exact no_mark globstar mark
  have no_trailing {l a : Units} : ¬globstarTrailing ++ [nulUnit] <+:
      renderedUnits next ++ staged middleText (placeholder globstarTrailing) l a (slashPieces rest) := by
    intro starts
    obtain ⟨same, mark⟩ := name_before plain names_plain.2.1.1 names_plain.2.1.2 (pieces_end _ _ _ _ (.inl rfl) (.inr rfl) rest) starts
    have own : next = globstarTrailing := rendered_name (fun c inside => names_letters c (List.mem_append_right _ inside)) same
    by_cases globstar : rest.head? = some globstarSegment
    · obtain ⟨more, rfl⟩ := List.head?_eq_some_iff.mp globstar
      cases more with
      | nil =>
          rw [marksApart, own] at apart
          simp at apart
      | cons later more =>
          rw [slashPieces, if_pos rfl] at mark
          exact absurd (Option.some.inj mark) (by decide)
    · exact no_mark globstar mark
  have shape (m t l a : Units) : (GlobPiece.leading :: .text next :: slashPieces rest).flatMap (GlobPiece.stage m t l a) =
      l ++ (renderedUnits next ++ staged m t l a (slashPieces rest)) := rfl
  have inner (m t l a : Units) : renderedUnits next ++ staged m t l a (slashPieces rest) =
      (GlobPiece.text next :: slashPieces rest).flatMap (GlobPiece.stage m t l a) := rfl
  have first : replaceAllUnits (placeholder globstarMiddle) middleText 0 ((GlobPiece.leading :: .text next :: slashPieces rest).flatMap marked) =
      (GlobPiece.leading :: .text next :: slashPieces rest).flatMap
        (GlobPiece.stage middleText (placeholder globstarTrailing) (placeholder globstarLeading) (placeholder globstarStandalone)) := by
    rw [marked, shape, replaceAll_other (by decide) names_plain.1.1 names_plain.1.2 names_plain.2.2.1 no_middle, inner, slash_middle behind]
    rfl
  have second : replaceAllUnits (placeholder globstarTrailing) trailingText 0 ((GlobPiece.leading :: .text next :: slashPieces rest).flatMap
      (GlobPiece.stage middleText (placeholder globstarTrailing) (placeholder globstarLeading) (placeholder globstarStandalone))) =
      placeholder globstarLeading ++ regexText (.text next :: slashPieces rest) := by
    rw [shape, replaceAll_other (by decide) names_plain.2.1.1 names_plain.2.1.2 names_plain.2.2.1 no_trailing, inner, slash_trailing behind,
      behind_text behind]
  have nulfree_later : nulUnit ∉ regexText (.text next :: slashPieces rest) := slash_nulfree behind
  have nulfree_all : nulUnit ∉ leadingText ++ regexText (.text next :: slashPieces rest) := by
    have plain_leading : nulUnit ∉ leadingText := by decide
    rw [List.mem_append]
    exact fun either => either.elim plain_leading nulfree_later
  have third : replaceAllUnits (placeholder globstarLeading) leadingText 0 (placeholder globstarLeading ++ regexText (.text next :: slashPieces rest)) =
      leadingText ++ regexText (.text next :: slashPieces rest) := by
    have filled : placeholder globstarLeading ≠ [] := List.cons_ne_nil _ _
    rw [replaceAll_hit filled, replaceAll_none nulfree_later]
  rw [unmark, first, second, third, replaceAll_none nulfree_all]
  rfl

theorem replace_marks {segments : List Units} (some_segment : segments ≠ []) (nulfree : ∀ g ∈ segments, nulUnit ∉ g)
    (apart : marksApart segments = true) :
    unmark ((startPieces segments).flatMap marked) = regexText (startPieces segments) := by
  cases segments with
  | nil => exact absurd rfl some_segment
  | cons g rest =>
      have own := nulfree g List.mem_cons_self
      have nulfree_rest : ∀ g ∈ rest, nulUnit ∉ g := fun h inside => nulfree h (List.mem_cons_of_mem g inside)
      by_cases globstar : g = globstarSegment
      · subst globstar
        cases rest with
        | nil => decide
        | cons next rest =>
            rw [startPieces, if_pos rfl]
            exact replace_leading (nulfree_rest next List.mem_cons_self) (fun h inside => nulfree_rest h (List.mem_cons_of_mem next inside)) apart
      · have behind : BehindSlash (.text g :: slashPieces rest) := .text own (slashPieces_behind nulfree_rest)
        cases rest with
        | nil =>
            rw [startPieces, if_neg globstar]
            exact replace_behind behind
        | cons next rest =>
            rw [startPieces, if_neg globstar]
            exact replace_behind behind

def segmentsOf (value : Units) : List Units := (toSlashes value).splitOn slashUnit

theorem toSlashes_segments (pattern : Units) : [slashUnit].intercalate (segmentsOf pattern) = toSlashes pattern :=
  List.intercalate_splitOn _

theorem segmentsOf_ne_nil (pattern : Units) : segmentsOf pattern ≠ [] := List.splitOn_ne_nil _ _

theorem segmentsOf_plain {pattern g : Units} (inside : g ∈ segmentsOf pattern) : slashUnit ∉ g := (splitOn_piece inside).1

theorem segmentsOf_nulfree {pattern g : Units} (nulfree : nulUnit ∉ pattern) (inside : g ∈ segmentsOf pattern) : nulUnit ∉ g := by
  intro nul
  obtain ⟨c, own, same⟩ := List.mem_map.mp ((splitOn_piece inside).2.subset nul)
  by_cases back : c = backslashUnit
  · rw [if_pos back] at same
    exact absurd same (by decide)
  · rw [if_neg back] at same
    exact nulfree (same ▸ own)

theorem regexString_marked (pattern : Units) : regexString pattern = unmark ((startPieces (segmentsOf pattern)).flatMap marked) := by
  have raw := replaceGlobstars_start (segmentsOf pattern) (segmentsOf_ne_nil pattern) fun g inside => segmentsOf_plain inside
  rw [toSlashes_segments] at raw
  rw [← marked_pieces, ← raw]
  rfl

-- The expression of a pattern is read off its segments.
theorem regexString_segments {pattern : Units} (nulfree : nulUnit ∉ pattern) (apart : marksApart (segmentsOf pattern) = true) :
    regexString pattern = regexText (startPieces (segmentsOf pattern)) := by
  rw [regexString_marked]
  exact replace_marks (segmentsOf_ne_nil pattern) (fun g inside => segmentsOf_nulfree nulfree inside) apart

end Patterns
end PrAgent
