import PrAgent.MarkerText
import PrAgent.PatternCaptures
set_option autoImplicit false

namespace PrAgent.CommentMarkers

section Marker

structure ProgressStamp where
  revision : Nat
  workItemId : Option Text
  safe : revision ≤ maxSafe

structure ProgressRevisionState where
  revision : Int
  workItemId : Option Text
  deriving DecidableEq, Repr

def ProgressStamp.state (stamp : ProgressStamp) : ProgressRevisionState := ⟨stamp.revision, stamp.workItemId⟩

def renderProgressRevisionComment (stamp : ProgressStamp) : Text :=
  match stamp.workItemId with
  | none => text "<!-- pr-agent:progress-revision " ++ (Nat.toDigits 10 stamp.revision ++ text " -->")
  | some workItemId =>
    text "<!-- pr-agent:progress-revision workItemId=" ++
      (encodeURIComponent workItemId ++ (text " value=" ++ (Nat.toDigits 10 stamp.revision ++ text " -->")))

structure ProgressMatch where
  workItemId : Option Text
  revision : Text
  after : Text
  deriving DecidableEq, Repr

def blanks : Pattern Char := .some1 (.one isSpace)

def progressName : Pattern Char :=
  .seq (.literal (text "<!--")) (.seq spaces (.literal (text "pr-agent:progress-revision")))

def workItemStart : Pattern Char := .seq blanks (.literal (text "workItemId="))

def valueStart : Pattern Char := .seq blanks (.literal (text "value="))

-- `(\d+)\s*-->`.
def revisionEnd (workItemId : Option Text) : Text → Option ProgressMatch :=
  (Pattern.some1 (.one Char.isDigit)).keep fun revision => closeTag.skip fun after => some { workItemId, revision, after }

-- `(?:\s+workItemId=([^\s]+)\s+value=|\s+)` and what follows it.
def revisionTail (s : Text) : Option ProgressMatch :=
  (workItemStart.skip (solids.keep fun workItemId => valueStart.skip (revisionEnd (some workItemId))) s).or
    (blanks.skip (revisionEnd none) s)

-- A match of `PROGRESS_REVISION_RE` that starts right here.
def progressRevisionAt : Text → Option ProgressMatch := progressName.skip revisionTail

end Marker

section Comment

-- `body.replace(PROGRESS_REVISION_RE, "")`: the expression is not global.
def replaceProgressRevision (body : Text) : Text :=
  match leftmost progressRevisionAt body with
  | none => body
  | some (before, found) => before ++ found.after

def withProgressRevisionComment (body : Text) (stamp : ProgressStamp) : Text :=
  trimEnd (replaceProgressRevision body) ++ '\n' :: renderProgressRevisionComment stamp

def ProgressMatch.state (found : ProgressMatch) : Option ProgressRevisionState :=
  (safeNumber found.revision).bind fun revision =>
    match found.workItemId with
    | none => some { revision, workItemId := none }
    | some raw => (decodeURIComponent raw).map fun workItemId => { revision, workItemId := some workItemId }

def parseProgressRevisionState (body : Text) : Option ProgressRevisionState :=
  (leftmost progressRevisionAt body).bind fun (_, found) => found.state

end Comment

variable {x y s t u v r : Text}

section Matches

variable {found : ProgressMatch} {workItemId : Option Text}

theorem blanks_matches (matched : blanks.Matches x) : x ≠ [] ∧ ∀ c ∈ x, isSpace c = true :=
  Pattern.matches_some1_one.mp matched

theorem spaced_noAngle (spaced : ∀ c ∈ x, isSpace c = true) : '<' ∉ x := absent_of_class spaced (by decide)

theorem digit_noAngle (digits : ∀ c ∈ x, c.isDigit = true) : '<' ∉ x := absent_of_class digits (by decide)

theorem revisionEnd_split (here : revisionEnd workItemId s = some found) :
    ∃ x, s = x ++ found.after ∧ '<' ∉ x ∧ (∃ u, x = u ++ ['>']) ∧ ∀ r, revisionEnd workItemId (x ++ r) ≠ none := by
  obtain ⟨digits, _, numbers, rfl, closed⟩ := Pattern.keep_eq_some here
  obtain ⟨close, after, ends, rfl, same⟩ := Pattern.skip_eq_some closed
  obtain rfl := Option.some.inj same
  obtain ⟨gap, split, _⟩ := closeTag_split ends
  have plain := closeTag_noAngle ends
  refine ⟨digits ++ close, by rw [List.append_assoc], ?_, ⟨digits ++ (gap ++ text "--"), ?_⟩, ?_⟩
  · rw [List.mem_append, not_or]
    exact ⟨digit_noAngle (Pattern.matches_some1_one.mp numbers).2, plain⟩
  · rw [split, List.append_assoc, List.append_assoc]
    rfl
  · intro r
    rw [List.append_assoc]
    exact Pattern.keep_ne_none numbers (Pattern.skip_ne_none ends (by simp))

theorem workItem_split (here : workItemStart.skip
    (solids.keep fun workItemId => valueStart.skip (revisionEnd (some workItemId))) s = some found) :
    ∃ x, s = x ++ found.after ∧ Tight x ∧ (∀ c, x.head? = some c → c ≠ '<') ∧ (∃ u, x = u ++ ['>']) ∧
      ∀ r, workItemStart.skip (solids.keep fun workItemId => valueStart.skip (revisionEnd (some workItemId))) (x ++ r) ≠
        none := by
  obtain ⟨start, _, begins, rfl, owned⟩ := Pattern.skip_eq_some here
  obtain ⟨owner, _, solid, rfl, valued⟩ := Pattern.keep_eq_some owned
  obtain ⟨value, _, values, rfl, ended⟩ := Pattern.skip_eq_some valued
  obtain ⟨close, rfl, plain, ⟨u, ends⟩, reads⟩ := revisionEnd_split ended
  obtain ⟨gap, label, start_eq, blank, named⟩ := id begins
  obtain ⟨gap', label', value_eq, blank', named'⟩ := id values
  rw [Pattern.matches_literal.mp named] at start_eq
  rw [Pattern.matches_literal.mp named'] at value_eq
  subst start_eq value_eq
  obtain ⟨nonempty, spaced⟩ := blanks_matches blank
  obtain ⟨_, spaced'⟩ := blanks_matches blank'
  have given : ∀ c ∈ owner, isSpace c = false := fun c listed => by
    simpa using (Pattern.matches_some1_one.mp solid).2 c listed
  have word : Tight (text "workItemId=" ++ owner) := by
    apply tight_of_solid
    intro c listed
    rcases List.mem_append.mp listed with here | later
    · exact solid_of_all (by decide) c here
    · exact given c later
  have behind : '<' ∉ gap' ++ (text "value=" ++ close) := by
    simp only [List.mem_append, not_or]
    exact ⟨spaced_noAngle spaced', by decide, plain⟩
  have behind_head : ∀ c, (gap' ++ (text "value=" ++ close)).head? = some c → c ≠ '<' := by
    intro c first same
    exact behind (same ▸ List.mem_of_mem_head? first)
  refine ⟨gap ++ (text "workItemId=" ++ owner ++ (gap' ++ (text "value=" ++ close))), by simp, ?_, ?_, ?_, ?_⟩
  · apply tight_append (tight_of_noAngle (spaced_noAngle spaced)) (tight_append word (tight_of_noAngle behind) behind_head)
    intro c first
    have initial : some 'w' = some c := first
    cases initial
    decide
  · intro c first same
    obtain ⟨d, gap, rfl⟩ := List.exists_cons_of_ne_nil nonempty
    obtain rfl : d = c := Option.some.inj first
    exact spaced_noAngle spaced (same ▸ List.mem_cons_self)
  · exact ⟨gap ++ (text "workItemId=" ++ owner ++ (gap' ++ (text "value=" ++ u))), by simp [ends]⟩
  · intro r
    have whole : gap ++ (text "workItemId=" ++ owner ++ (gap' ++ (text "value=" ++ close))) ++ r =
        gap ++ text "workItemId=" ++ (owner ++ (gap' ++ text "value=" ++ (close ++ r))) := by simp
    rw [whole]
    exact Pattern.skip_ne_none begins (Pattern.keep_ne_none solid (Pattern.skip_ne_none values (reads r)))

theorem revisionTail_split (here : revisionTail s = some found) :
    ∃ x, s = x ++ found.after ∧ Tight x ∧ (∀ c, x.head? = some c → c ≠ '<') ∧ (∃ u, x = u ++ ['>']) ∧
      ∀ r, revisionTail (x ++ r) ≠ none := by
  rcases Option.or_eq_some_iff.mp here with owned | ⟨_, unowned⟩
  · obtain ⟨x, split, tight, starts, ends, reads⟩ := workItem_split owned
    refine ⟨x, split, tight, starts, ends, fun r none => ?_⟩
    exact reads r (Option.or_eq_none_iff.mp none).1
  · obtain ⟨gap, _, spaced, rfl, ended⟩ := Pattern.skip_eq_some unowned
    obtain ⟨close, rfl, plain, ⟨u, ends⟩, reads⟩ := revisionEnd_split ended
    have absent : '<' ∉ gap ++ close := by
      rw [List.mem_append, not_or]
      exact ⟨spaced_noAngle (blanks_matches spaced).2, plain⟩
    refine ⟨gap ++ close, by simp, tight_of_noAngle absent, ?_, ⟨gap ++ u, by simp [ends]⟩, fun r none => ?_⟩
    · intro c first same
      exact absent (same ▸ List.mem_of_mem_head? first)
    · rw [List.append_assoc] at none
      exact Pattern.skip_ne_none spaced (reads r) (Option.or_eq_none_iff.mp none).2

-- A match is a marker, and it is found again in front of any other text.
theorem progressRevisionAt_split (here : progressRevisionAt s = some found) :
    ∃ x, s = x ++ found.after ∧ MarkerText x ∧ ∀ r, progressRevisionAt (x ++ r) ≠ none := by
  obtain ⟨name, _, named, rfl, later⟩ := Pattern.skip_eq_some here
  obtain ⟨tail, rfl, tight, starts, ⟨u, ends⟩, reads⟩ := revisionTail_split later
  obtain ⟨_, _, split, comment, gap, _, rfl, spaced, label⟩ := id named
  rw [Pattern.matches_literal.mp comment, Pattern.matches_literal.mp label] at split
  subst split
  have absent : '<' ∉ text "!--" ++ (gap ++ text "pr-agent:progress-revision") := by
    simp only [List.mem_append, not_or]
    exact ⟨by decide, spaced_noAngle (Pattern.matches_many_one.mp spaced), by decide⟩
  have front : Tight (text "<!--" ++ (gap ++ text "pr-agent:progress-revision")) := by
    apply tight_append (x := ['<']) (tight_of_solid (solid_of_all (by decide))) (tight_of_noAngle absent)
    intro c first same
    exact absent (same ▸ List.mem_of_mem_head? first)
  refine ⟨text "<!--" ++ (gap ++ text "pr-agent:progress-revision") ++ tail, by simp,
    ⟨tight_append front tight starts, ⟨_, rfl⟩, ?_⟩, fun r => ?_⟩
  · exact ⟨text "<!--" ++ (gap ++ text "pr-agent:progress-revision") ++ u, by simp [ends]⟩
  · rw [List.append_assoc]
    exact Pattern.skip_ne_none named (reads r)

end Matches

section Render

variable {found : ProgressMatch} {stamp : ProgressStamp} {f : Text → Option ProgressMatch}
  {capture : Text → Text → Option ProgressMatch}

theorem blanks_skip {c : Char} (outside : ∀ c r, isSpace c = true → f (c :: r) = none) (solid : isSpace c = false) (s : Text) :
    blanks.skip f (' ' :: c :: s) = f (c :: s) := by
  have run := Pattern.takeWhile_all (x := [' ']) (List.all_eq_true.mp (by decide)) solid s
  have rest := Pattern.dropWhile_all (x := [' ']) (List.all_eq_true.mp (by decide)) solid s
  rw [List.singleton_append] at run rest
  rw [blanks, Pattern.skip_class1 outside, run, rest]
  simp

theorem literal_not_space {label : Text} (solid : label.head?.map isSpace = some false) (d : Char) (r : Text)
    (spaced : isSpace d = true) : (Pattern.literal label).skip f (d :: r) = none := by
  obtain ⟨c, first, outside⟩ := Option.map_eq_some_iff.mp solid
  obtain ⟨label, rfl⟩ := List.head?_eq_some_iff.mp first
  apply Pattern.skip_literal_head
  intro same
  rw [same, outside] at spaced
  cases spaced

theorem progressName_skip (s : Text) : progressName.skip f (text "<!-- pr-agent:progress-revision" ++ s) = f s := by
  rw [progressName, Pattern.skip_seq]
  have comment := Pattern.skip_literal (f := (Pattern.seq spaces (.literal (text "pr-agent:progress-revision"))).skip f)
    (text "<!--") (' ' :: (text "pr-agent:progress-revision" ++ s))
  have gap := Pattern.skip_class (f := (Pattern.literal (text "pr-agent:progress-revision")).skip f)
    (fun c r => literal_not_space (by decide) c r) (' ' :: (text "pr-agent:progress-revision" ++ s))
  have label := Pattern.skip_literal (f := f) (text "pr-agent:progress-revision") s
  rw [Pattern.skip_seq, show Pattern.many (.one isSpace) = spaces from rfl] at *
  exact comment.trans (gap.trans label)

theorem valueStart_solid (c : Char) (r : Text) (solid : (!isSpace c) = true) : valueStart.skip f (c :: r) = none := by
  rw [valueStart, Pattern.skip_seq, blanks, Pattern.skip_class1 fun d r => literal_not_space (by decide) d r]
  rw [List.takeWhile_cons_of_neg (by simpa using solid), if_pos rfl]

theorem workItemStart_skip (s : Text) : workItemStart.skip f (text " workItemId=" ++ s) = f s := by
  rw [workItemStart, Pattern.skip_seq]
  have gap := blanks_skip (f := (Pattern.literal (text "workItemId=")).skip f) (c := 'w')
    (fun d r => literal_not_space (by decide) d r) (by decide) (text "orkItemId=" ++ s)
  exact gap.trans (Pattern.skip_literal (text "workItemId=") s)

theorem valueStart_skip (s : Text) : valueStart.skip f (text " value=" ++ s) = f s := by
  rw [valueStart, Pattern.skip_seq]
  have gap := blanks_skip (f := (Pattern.literal (text "value=")).skip f) (c := 'v')
    (fun d r => literal_not_space (by decide) d r) (by decide) (text "alue=" ++ s)
  exact gap.trans (Pattern.skip_literal (text "value=") s)

theorem closeTag_digit (c : Char) (r : Text) (digit : c.isDigit = true) : closeTag.skip f (c :: r) = none := by
  have solid : isSpace c = false := word_solid (by rw [isWord, Char.isAlphanum, digit]; simp)
  rw [closeTag, Pattern.skip_seq, spaces, Pattern.skip_class fun d r => literal_not_space (by decide) d r]
  rw [List.dropWhile_cons_of_neg (by simp [solid])]
  apply Pattern.skip_literal_head
  intro same
  rw [same] at digit
  exact absurd digit (by decide)

theorem revisionEnd_render (workItemId : Option Text) (revision : Nat) :
    revisionEnd workItemId (Nat.toDigits 10 revision ++ text " -->") = some ⟨workItemId, Nat.toDigits 10 revision, []⟩ := by
  have digits : ∀ d ∈ Nat.toDigits 10 revision, d.isDigit = true := fun d listed => toDigits_isDigit listed
  rw [revisionEnd, Pattern.keep_class1 fun x c r => closeTag_digit c r]
  have run := Pattern.takeWhile_all (c := ' ') digits (by decide) (text "-->")
  have rest := Pattern.dropWhile_all (c := ' ') digits (by decide) (text "-->")
  rw [show text " -->" = ' ' :: text "-->" by decide, run, rest, if_neg Nat.toDigits_ne_nil]
  exact Pattern.skip_first (closeTag_first []) rfl

theorem revisionEnd_space (workItemId : Option Text) (c : Char) (r : Text) (spaced : isSpace c = true) :
    revisionEnd workItemId (c :: r) = none := by
  have other : ¬c.isDigit = true := by
    intro digit
    rw [word_solid (by rw [isWord, Char.isAlphanum, digit]; simp)] at spaced
    cases spaced
  rw [revisionEnd, Pattern.keep_class1 fun x c r => closeTag_digit c r, List.takeWhile_cons_of_neg other, if_pos rfl]

theorem revisionTail_unowned (revision : Nat) :
    revisionTail (' ' :: (Nat.toDigits 10 revision ++ text " -->")) = some ⟨none, Nat.toDigits 10 revision, []⟩ := by
  have found := revisionEnd_render none revision
  obtain ⟨c, digits, cons⟩ := List.exists_cons_of_ne_nil (Nat.toDigits_ne_nil (b := 10) (n := revision))
  have digit : c.isDigit = true := toDigits_isDigit (n := revision) (cons ▸ List.mem_cons_self)
  have solid : isSpace c = false := word_solid (by rw [isWord, Char.isAlphanum, digit]; simp)
  rw [cons] at found ⊢
  have other : c ≠ 'w' := by
    intro same
    rw [same] at digit
    exact absurd digit (by decide)
  rw [revisionTail, workItemStart, Pattern.skip_seq, List.cons_append]
  rw [blanks_skip (fun d r => literal_not_space (by decide) d r) solid]
  rw [show text "workItemId=" = 'w' :: text "orkItemId=" by decide, Pattern.skip_literal_head other]
  rw [blanks_skip (revisionEnd_space none) solid, ← List.cons_append, found]
  rfl

theorem revisionTail_owned {workItemId : Text} (nonempty : workItemId ≠ []) (revision : Nat) :
    revisionTail (text " workItemId=" ++
      (encodeURIComponent workItemId ++ (text " value=" ++ (Nat.toDigits 10 revision ++ text " -->")))) =
        some ⟨some (encodeURIComponent workItemId), Nat.toDigits 10 revision, []⟩ := by
  have solid : ∀ c ∈ encodeURIComponent workItemId, (!isSpace c) = true := by
    intro c listed
    simp [encoded_solid (encodeURIComponent_encoded listed)]
  have run := Pattern.takeWhile_all (c := ' ') solid (by decide) (text "value=" ++ (Nat.toDigits 10 revision ++ text " -->"))
  have rest := Pattern.dropWhile_all (c := ' ') solid (by decide) (text "value=" ++ (Nat.toDigits 10 revision ++ text " -->"))
  have value := valueStart_skip (f := revisionEnd (some (encodeURIComponent workItemId)))
    (Nat.toDigits 10 revision ++ text " -->")
  rw [revisionTail, workItemStart_skip, solids, Pattern.keep_class1 fun x c r => valueStart_solid c r]
  rw [show text " value=" = ' ' :: text "value=" by decide, List.cons_append] at *
  rw [run, rest, if_neg (encodeURIComponent_ne_nil nonempty), value, revisionEnd_render]
  rfl

def ProgressStamp.Owned (stamp : ProgressStamp) : Prop := stamp.workItemId ≠ some []

-- What follows the name of the marker.
def ProgressStamp.tail (stamp : ProgressStamp) : Text :=
  (stamp.workItemId.elim [' '] fun workItemId => text " workItemId=" ++ (encodeURIComponent workItemId ++ text " value=")) ++
    (Nat.toDigits 10 stamp.revision ++ text " -->")

theorem progressMarker_eq (stamp : ProgressStamp) :
    renderProgressRevisionComment stamp = text "<!-- pr-agent:progress-revision" ++ stamp.tail := by
  obtain ⟨revision, workItemId, safe⟩ := stamp
  have blank : text "<!-- pr-agent:progress-revision " = text "<!-- pr-agent:progress-revision" ++ [' '] := by decide
  have label : text "<!-- pr-agent:progress-revision workItemId=" =
      text "<!-- pr-agent:progress-revision" ++ text " workItemId=" := by decide
  cases workItemId with
  | none => simp only [renderProgressRevisionComment, ProgressStamp.tail, blank, Option.elim, List.append_assoc]
  | some workItemId => simp only [renderProgressRevisionComment, ProgressStamp.tail, label, Option.elim, List.append_assoc]

theorem rendered_found (owned : stamp.Owned) :
    progressRevisionAt (renderProgressRevisionComment stamp) =
      some ⟨stamp.workItemId.map encodeURIComponent, Nat.toDigits 10 stamp.revision, []⟩ := by
  rw [progressMarker_eq, progressRevisionAt, progressName_skip, ProgressStamp.tail]
  obtain ⟨revision, workItemId, safe⟩ := stamp
  cases workItemId with
  | none => exact revisionTail_unowned revision
  | some workItemId =>
      have nonempty : workItemId ≠ [] := fun empty => owned (congrArg some empty)
      simp only [Option.elim, List.append_assoc]
      exact revisionTail_owned nonempty revision

-- Without an id behind `workItemId=`, the comment is no marker.
theorem rendered_lost (unowned : ¬stamp.Owned) : progressRevisionAt (renderProgressRevisionComment stamp) = none := by
  rw [progressMarker_eq, progressRevisionAt, progressName_skip, ProgressStamp.tail]
  obtain ⟨revision, workItemId, safe⟩ := stamp
  obtain rfl : workItemId = some [] := Classical.byContradiction unowned
  have value : text " value=" = ' ' :: text "value=" := by decide
  have label : text " workItemId=" = ' ' :: 'w' :: text "orkItemId=" := by decide
  have owner (s : Text) : (solids.keep fun workItemId => valueStart.skip (revisionEnd (some workItemId))) (' ' :: s) = none := by
    rw [solids, Pattern.keep_class1 fun x c r => valueStart_solid c r, List.takeWhile_cons_of_neg (by decide), if_pos rfl]
  have number (s : Text) : revisionEnd none ('w' :: s) = none := by
    rw [revisionEnd, Pattern.keep_class1 fun x c r => closeTag_digit c r, List.takeWhile_cons_of_neg (by decide), if_pos rfl]
  simp only [Option.elim, List.append_assoc, encodeURIComponent, List.flatMap_nil, List.nil_append]
  rw [revisionTail, workItemStart_skip, value, List.cons_append, owner, label]
  simp only [List.cons_append]
  rw [blanks_skip (revisionEnd_space none) (by decide), number]
  rfl

theorem rendered_line (stamp : ProgressStamp) :
    ∃ v, renderProgressRevisionComment stamp = '<' :: v ∧ '<' ∉ v ∧ ∃ u, v = u ++ ['>'] := by
  have digits : '<' ∉ Nat.toDigits 10 stamp.revision := digit_noAngle fun c listed => toDigits_isDigit listed
  have opens : text "<!-- pr-agent:progress-revision" = '<' :: text "!-- pr-agent:progress-revision" := by decide
  have closes : text " -->" = text " --" ++ ['>'] := by decide
  have start : '<' ∉ (stamp.workItemId.elim [' '] fun workItemId =>
      text " workItemId=" ++ (encodeURIComponent workItemId ++ text " value=")) := by
    cases stamp.workItemId with
    | none => decide
    | some workItemId =>
        simp only [Option.elim, List.mem_append, not_or]
        exact ⟨by decide, encoded_noAngle, by decide⟩
  rw [progressMarker_eq, opens, ProgressStamp.tail, closes, List.cons_append]
  refine ⟨_, rfl, ?_, _, by simp only [← List.append_assoc]; rfl⟩
  simp only [List.mem_append, not_or]
  exact ⟨by decide, start, digits, by decide⟩

end Render

section Search

variable {found : ProgressMatch} {body : Text} {first last : ProgressStamp}

def Unmarked (s : Text) : Prop := leftmost progressRevisionAt s = none

theorem Unmarked.left (unmarked : Unmarked (s ++ t)) : Unmarked s := by
  apply leftmost_eq_none_iff.mpr
  intro u v split
  cases here : progressRevisionAt v with
  | none => rfl
  | some found =>
      obtain ⟨x, rest, _, reads⟩ := progressRevisionAt_split here
      have longer := leftmost_eq_none_iff.mp unmarked u (v ++ t) (by rw [split, List.append_assoc])
      rw [rest, List.append_assoc] at longer
      exact absurd longer (reads _)

theorem unmarked_of_noAngle (absent : '<' ∉ s) : Unmarked s := by
  apply leftmost_eq_none_iff.mpr
  intro u v split
  cases here : progressRevisionAt v with
  | none => rfl
  | some found =>
      obtain ⟨x, rest, marker, _⟩ := progressRevisionAt_split here
      obtain ⟨w, opens⟩ := marker.opens
      exact absurd (by simp [split, rest, opens]) absent

-- No marker starts before the line of a new one and ends in it.
theorem line_fails (t : Text) (fails : progressRevisionAt v = none) :
    progressRevisionAt (v ++ '\n' :: '<' :: t) = none := by
  cases here : progressRevisionAt (v ++ '\n' :: '<' :: t) with
  | none => rfl
  | some found =>
      obtain ⟨x, split, marker, reads⟩ := progressRevisionAt_split here
      obtain ⟨z, inside, _⟩ := marker.within split.symm
      rw [inside] at fails
      exact absurd fails (reads z)

theorem before_line (unmarked : Unmarked s) : FailsBefore progressRevisionAt (s ++ ['\n']) ('<' :: t) := by
  intro u v split nonempty
  obtain ⟨w, c, concat⟩ : ∃ w c, v = w ++ [c] := ⟨_, _, (List.dropLast_append_getLast nonempty).symm⟩
  rw [concat, ← List.append_assoc] at split
  obtain ⟨inside, same⟩ := List.append_inj' split rfl
  obtain rfl : '\n' = c := List.singleton_inj.mp same
  have fails := line_fails t (leftmost_eq_none_iff.mp unmarked u w inside)
  rw [concat, List.append_assoc]
  exact fails

theorem leftmost_line (unmarked : Unmarked s) (here : progressRevisionAt ('<' :: t) = some found) :
    leftmost progressRevisionAt (s ++ '\n' :: '<' :: t) = some (s ++ ['\n'], found) :=
  leftmost_eq_some_iff.mpr ⟨'<' :: t, by simp, here, before_line unmarked⟩

theorem unmarked_line (unmarked : Unmarked s) (here : progressRevisionAt ('<' :: t) = none) (absent : '<' ∉ t) :
    Unmarked (s ++ '\n' :: '<' :: t) := by
  apply leftmost_eq_none_iff.mpr
  intro u v split
  have whole : s ++ '\n' :: '<' :: t = (s ++ ['\n']) ++ '<' :: t := by simp
  rw [whole] at split
  rcases List.append_eq_append_iff.mp split with ⟨z, _, rest⟩ | ⟨z, inside, rest⟩
  · cases z with
    | nil => rwa [← show '<' :: t = v from rest]
    | cons c z =>
        obtain ⟨_, later⟩ := List.cons.inj rest
        have none := unmarked_of_noAngle absent
        exact leftmost_eq_none_iff.mp none z v later
  · by_cases empty : z = []
    · rw [rest, empty]
      exact here
    · rw [rest]
      exact before_line unmarked u z inside empty

-- A marker in front of the line stays the first one.
theorem leftmost_front (marked : ¬Unmarked s) (t : Text) :
    ∃ u x z found, s = u ++ (x ++ z) ∧ MarkerText x ∧ found.after = z ++ '\n' :: '<' :: t ∧
      leftmost progressRevisionAt (s ++ '\n' :: '<' :: t) = some (u, found) := by
  cases searched : leftmost progressRevisionAt s with
  | none => exact absurd searched marked
  | some result =>
      obtain ⟨u, found⟩ := result
      obtain ⟨v, split, here, fails⟩ := leftmost_eq_some_iff.mp searched
      obtain ⟨x, rest, _, reads⟩ := progressRevisionAt_split here
      cases again : progressRevisionAt (v ++ '\n' :: '<' :: t) with
      | none =>
          rw [rest, List.append_assoc] at again
          exact absurd again (reads _)
      | some found' =>
          obtain ⟨x', rest', marker, _⟩ := progressRevisionAt_split again
          obtain ⟨z, inside, after⟩ := marker.within rest'.symm
          refine ⟨u, x', z, found', by rw [split, inside], marker, after, ?_⟩
          apply leftmost_eq_some_iff.mpr
          refine ⟨v ++ '\n' :: '<' :: t, by rw [split, List.append_assoc], again, ?_⟩
          intro a b parts nonempty
          rw [← List.append_assoc]
          exact line_fails t (fails a b parts nonempty)

end Search

section Trim

variable {c : Char} {stamp : ProgressStamp}

theorem trimEnd_line (s : Text) (stamp : ProgressStamp) :
    trimEnd (s ++ '\n' :: renderProgressRevisionComment stamp) = s ++ '\n' :: renderProgressRevisionComment stamp := by
  obtain ⟨v, opens, _, u, closes⟩ := rendered_line stamp
  have whole : s ++ '\n' :: renderProgressRevisionComment stamp = (s ++ '\n' :: '<' :: u) ++ ['>'] := by
    rw [opens, closes]
    simp
  rw [whole]
  exact List.rdropWhile_concat_neg isSpace _ '>' (by decide)

theorem unmarked_trimEnd {value : Text} : Unmarked (trimEnd value) ↔ Unmarked value := by
  obtain ⟨blank, split, spaced⟩ := trimEnd_split value
  constructor
  · intro unmarked
    apply leftmost_eq_none_iff.mpr
    intro u v parts
    cases here : progressRevisionAt v with
    | none => rfl
    | some found =>
        obtain ⟨x, rest, marker, reads⟩ := progressRevisionAt_split here
        rw [parts, rest] at split
        obtain ⟨z, inside, _⟩ := marker.before_spaces spaced split
        exact absurd (leftmost_eq_none_iff.mp unmarked u (x ++ z) (by rw [← inside, ← rest, ← parts])) (reads z)
  · intro unmarked
    rw [split] at unmarked
    exact unmarked.left

end Trim

section Exact

variable {body s : Text} {first last : ProgressStamp}

-- No marker is left when the first one is taken out.
def OneMarker (body : Text) : Prop :=
  ∀ before found, leftmost progressRevisionAt body = some (before, found) → Unmarked (before ++ found.after)

theorem oneMarker_iff : OneMarker body ↔ Unmarked (trimEnd (replaceProgressRevision body)) := by
  rw [unmarked_trimEnd, OneMarker, replaceProgressRevision]
  cases searched : leftmost progressRevisionAt body with
  | none => exact ⟨fun _ => searched, fun _ _ _ here => by cases here⟩
  | some result =>
      obtain ⟨before, found⟩ := result
      constructor
      · intro one
        exact one before found rfl
      · intro unmarked before' found' same
        cases same
        exact unmarked

theorem state_rendered (stamp : ProgressStamp) :
    ProgressMatch.state ⟨stamp.workItemId.map encodeURIComponent, Nat.toDigits 10 stamp.revision, []⟩ = some stamp.state := by
  obtain ⟨revision, workItemId, safe⟩ := stamp
  have number : safeNumber (Nat.toDigits 10 revision) = some (revision : Int) := safeNumber_integerText (n := revision) safe
  cases workItemId with
  | none => simp [ProgressMatch.state, ProgressStamp.state, number]
  | some workItemId => simp [ProgressMatch.state, ProgressStamp.state, number, decode_encode]

theorem parse_line (unmarked : Unmarked s) (owned : last.Owned) :
    parseProgressRevisionState (s ++ '\n' :: renderProgressRevisionComment last) = some last.state := by
  obtain ⟨v, opens, _⟩ := rendered_line last
  have here := rendered_found owned
  rw [opens] at here
  rw [parseProgressRevisionState, opens, leftmost_line unmarked here]
  exact state_rendered last

theorem restamp_line (unmarked : Unmarked s) (trimmed : trimEnd s = s) (owned : first.Owned) (last : ProgressStamp) :
    withProgressRevisionComment (s ++ '\n' :: renderProgressRevisionComment first) last =
      s ++ '\n' :: renderProgressRevisionComment last := by
  obtain ⟨v, opens, _⟩ := rendered_line first
  have here := rendered_found owned
  rw [opens] at here
  rw [withProgressRevisionComment, replaceProgressRevision, opens, leftmost_line unmarked here]
  simp only [List.append_nil]
  rw [trimEnd_newline, trimmed]

theorem unmarked_unowned (unmarked : Unmarked s) (unowned : ¬last.Owned) :
    Unmarked (s ++ '\n' :: renderProgressRevisionComment last) := by
  obtain ⟨v, opens, absent, _⟩ := rendered_line last
  have here := rendered_lost unowned
  rw [opens] at here ⊢
  exact unmarked_line unmarked here absent

-- A marker in front of the stamp is the one that the next stamp takes out.
theorem restamp_marked (marked : ¬Unmarked s) (first last : ProgressStamp) :
    withProgressRevisionComment (s ++ '\n' :: renderProgressRevisionComment first) last ≠
      s ++ '\n' :: renderProgressRevisionComment last := by
  obtain ⟨v, opens, _⟩ := rendered_line first
  obtain ⟨u, x, z, found, split, marker, after, searched⟩ := leftmost_front marked v
  rw [withProgressRevisionComment, replaceProgressRevision, opens, searched]
  simp only [after]
  intro same
  rw [← opens, ← List.append_assoc, trimEnd_line] at same
  have fronts := List.append_cancel_right same
  rw [split, List.append_assoc, opens] at fronts
  exact marker.not_line z (List.append_cancel_left fronts).symm

theorem restamp_unowned (unmarked : Unmarked s) (unowned : ¬first.Owned) (last : ProgressStamp) :
    withProgressRevisionComment (s ++ '\n' :: renderProgressRevisionComment first) last ≠
      s ++ '\n' :: renderProgressRevisionComment last := by
  have nowhere : leftmost progressRevisionAt _ = none := unmarked_unowned unmarked unowned
  rw [withProgressRevisionComment, replaceProgressRevision, nowhere]
  simp only [trimEnd_line]
  intro same
  have lengths := congrArg List.length same
  simp only [List.length_append, List.length_cons] at lengths
  omega

-- The reader gives back what was stamped last, and an earlier stamp leaves nothing behind.
theorem progress_revision_round_trips_iff (body : Text) (first last : ProgressStamp) :
    (parseProgressRevisionState (withProgressRevisionComment body last) = some last.state ∧
      withProgressRevisionComment (withProgressRevisionComment body first) last = withProgressRevisionComment body last) ↔
        OneMarker body ∧ first.workItemId ≠ some [] ∧ last.workItemId ≠ some [] := by
  have trimmed := trimEnd_trimEnd (replaceProgressRevision body)
  rw [oneMarker_iff]
  simp only [withProgressRevisionComment.eq_1 body]
  generalize trimEnd (replaceProgressRevision body) = s at trimmed ⊢
  constructor
  · intro ⟨parsed, restamped⟩
    have unmarked : Unmarked s := Classical.byContradiction fun marked => restamp_marked marked first last restamped
    have owned : first.Owned := Classical.byContradiction fun unowned => restamp_unowned unmarked unowned last restamped
    refine ⟨unmarked, owned, fun unowned => ?_⟩
    have nowhere : leftmost progressRevisionAt _ = none := unmarked_unowned unmarked (not_not_intro unowned)
    rw [parseProgressRevisionState, nowhere] at parsed
    cases parsed
  · intro ⟨unmarked, owned, owned'⟩
    exact ⟨parse_line unmarked owned', restamp_line unmarked trimmed owned last⟩

end Exact

section Example

def twiceMarked : Text := text "Reviewing.\n<!-- pr-agent:progress-revision 1 -->\n<!-- pr-agent:progress-revision 2 -->"

def fifthRevision : ProgressStamp := ⟨5, some (text "run-7"), by decide⟩

theorem second_marker_is_read_back :
    parseProgressRevisionState (withProgressRevisionComment twiceMarked fifthRevision) = some ⟨2, none⟩ ∧
      withProgressRevisionComment (withProgressRevisionComment twiceMarked fifthRevision) fifthRevision ≠
        withProgressRevisionComment twiceMarked fifthRevision := by
  decide +kernel

end Example
end PrAgent.CommentMarkers
