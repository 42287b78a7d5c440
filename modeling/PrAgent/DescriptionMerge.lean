import PrAgent.InlineThreadText
import PrAgent.WorkspaceEdit
set_option autoImplicit false

namespace PrAgent

open CommentMarkers (trimEnd trimEnd_newline infix_across)

section Body

def descriptionAgentBodyBegin : Text := text "<!-- PR_AGENT_DESCRIPTION_BEGIN -->"

def descriptionAgentBodyEnd : Text := text "<!-- PR_AGENT_DESCRIPTION_END -->"

def descriptionAgentHeader : Text := text "## PR Agent Description"

def trimStart (value : Text) : Text := value.dropWhile isSpace

def wrapDescriptionAgentBlock (agentBlock : Text) : Text :=
  descriptionAgentBodyBegin ++ '\n' :: (trim agentBlock ++ '\n' :: descriptionAgentBodyEnd)

-- The parts that are not empty, with a blank line between them.
def joinParts (before after : Text) : Text :=
  trim ((text "\n\n").intercalate ([before, after].filter fun part => part ≠ []))

def extractUserAuthoredPrBody (body : Option Text) : Text :=
  let current := body.getD []
  match firstOccurrence current descriptionAgentBodyBegin with
  | some (before, rest) =>
    let after := (firstOccurrence (descriptionAgentBodyBegin ++ rest) descriptionAgentBodyEnd).map fun found => trimStart found.2
    joinParts (trimEnd before) (after.getD [])
  | none =>
    match firstOccurrence current descriptionAgentHeader with
    | some (before, _) => trimEnd before
    | none => trim current

-- `value || null`.
def orNull (value : Text) : Option Text := if value = [] then none else some value

def extractAgentDescriptionBlock (body : Option Text) : Option Text :=
  let current := body.getD []
  match firstOccurrence current descriptionAgentBodyBegin with
  | some (_, rest) =>
    match firstOccurrence rest descriptionAgentBodyEnd with
    | none => orNull (trim rest)
    | some (inside, _) => orNull (trim inside)
  | none => (firstOccurrence current descriptionAgentHeader).bind fun found => orNull (trim (descriptionAgentHeader ++ found.2))

def mergeDescriptionIntoPrBody (currentBody : Option Text) (agentBlock : Text) : Text :=
  let userPart := extractUserAuthoredPrBody currentBody
  if userPart = [] then wrapDescriptionAgentBlock agentBlock
  else userPart ++ (text "\n\n" ++ wrapDescriptionAgentBlock agentBlock)

end Body

section Search

variable {haystack needle before after : Text}

theorem firstOccurrence_eq_none : firstOccurrence haystack needle = none ↔ ¬needle <:+: haystack := by
  rw [firstOccurrence, Option.map_eq_none_iff, leftmost_absent]

-- A text with one angle, at its start, is found where it first stands whole.
theorem firstOccurrence_angle {rest : Text} (single : '<' ∉ rest) (absent : ¬ '<' :: rest <:+: before) :
    firstOccurrence (before ++ ('<' :: rest ++ after)) ('<' :: rest) = some (before, after) := by
  rw [firstOccurrence_eq_some]
  constructor
  · rfl
  · intro x y parts nonempty ⟨rest', starts⟩
    rcases List.append_eq_append_iff.mp starts with ⟨z, longer, _⟩ | ⟨z, longer, ends⟩
    · exact absent ⟨x, z, by rw [parts, longer, List.append_assoc]⟩
    · cases y with
      | nil => exact nonempty rfl
      | cons d y =>
          cases z with
          | nil => exact absent ⟨x, [], by rw [parts, longer]; simp⟩
          | cons c z =>
              obtain ⟨same, _⟩ := List.cons.inj ends
              obtain ⟨_, inside⟩ := List.cons.inj longer
              exact single (by rw [inside, ← same]; simp)

-- No occurrence is earlier than the first.
theorem firstOccurrence_le {x y : Text} (first : FirstAt haystack needle before after) (there : haystack = x ++ (needle ++ y)) :
    before.length ≤ x.length := by
  by_contra late
  have split := first.split
  rw [there] at split
  rcases List.append_eq_append_iff.mp split with ⟨z, longer, ends⟩ | ⟨z, longer, _⟩
  · cases z with
    | nil => simp [longer] at late
    | cons c z => exact first.first x (c :: z) longer (List.cons_ne_nil _ _) ⟨y, ends⟩
  · have length := congrArg List.length longer
    rw [List.length_append] at length
    omega

end Search

section Blocks

variable {lead trail agentBlock : Text}

-- A block that its own end marker does not cut, and that is not empty.
def Intact (agentBlock : Text) : Prop := trim agentBlock ≠ [] ∧ ¬descriptionAgentBodyEnd <:+: trim agentBlock

-- Text of the author has no marker and no header.
structure AuthorText (value : Text) : Prop where
  noBegin : ¬descriptionAgentBodyBegin <:+: value
  noEnd : ¬descriptionAgentBodyEnd <:+: value
  noHeader : ¬descriptionAgentHeader <:+: value

instance (value : Text) : Decidable (AuthorText value) :=
  decidable_of_iff (¬descriptionAgentBodyBegin <:+: value ∧ ¬descriptionAgentBodyEnd <:+: value ∧ ¬descriptionAgentHeader <:+: value)
    ⟨fun own => ⟨own.1, own.2.1, own.2.2⟩, fun own => ⟨own.noBegin, own.noEnd, own.noHeader⟩⟩

instance (agentBlock : Text) : Decidable (Intact agentBlock) := by
  delta Intact
  infer_instance

theorem begin_angle : ∃ rest, descriptionAgentBodyBegin = '<' :: rest ∧ '<' ∉ rest ∧ '\n' ∉ '<' :: rest :=
  ⟨text "!-- PR_AGENT_DESCRIPTION_BEGIN -->", by decide, by decide, by decide⟩

theorem end_angle : ∃ rest, descriptionAgentBodyEnd = '<' :: rest ∧ '<' ∉ rest ∧ '\n' ∉ '<' :: rest :=
  ⟨text "!-- PR_AGENT_DESCRIPTION_END -->", by decide, by decide, by decide⟩

theorem find_begin (absent : ¬descriptionAgentBodyBegin <:+: lead) (rest : Text) :
    firstOccurrence (lead ++ (descriptionAgentBodyBegin ++ rest)) descriptionAgentBodyBegin = some (lead, rest) := by
  obtain ⟨tail, shape, single, _⟩ := begin_angle
  rw [shape] at absent ⊢
  exact firstOccurrence_angle single absent

theorem find_end (absent : ¬descriptionAgentBodyEnd <:+: lead) (rest : Text) :
    firstOccurrence (lead ++ (descriptionAgentBodyEnd ++ rest)) descriptionAgentBodyEnd = some (lead, rest) := by
  obtain ⟨tail, shape, single, _⟩ := end_angle
  rw [shape] at absent ⊢
  exact firstOccurrence_angle single absent

theorem end_not_in_line {x y : Text} (left : ¬descriptionAgentBodyEnd <:+: x) (right : ¬descriptionAgentBodyEnd <:+: y) :
    ¬descriptionAgentBodyEnd <:+: x ++ '\n' :: y := by
  obtain ⟨tail, shape, _, line⟩ := end_angle
  intro inside
  rw [shape] at left right inside
  exact (infix_across line inside).elim left right

theorem begin_not_in_line {x y : Text} (left : ¬descriptionAgentBodyBegin <:+: x) (right : ¬descriptionAgentBodyBegin <:+: y) :
    ¬descriptionAgentBodyBegin <:+: x ++ '\n' :: y := by
  obtain ⟨tail, shape, _, line⟩ := begin_angle
  intro inside
  rw [shape] at left right inside
  exact (infix_across line inside).elim left right

theorem marker_not_empty : ¬descriptionAgentBodyEnd <:+: [] ∧ ¬descriptionAgentBodyBegin <:+: [] :=
  ⟨fun inside => absurd (List.infix_nil.mp inside) (by decide), fun inside => absurd (List.infix_nil.mp inside) (by decide)⟩

theorem end_not_in_begin : ¬descriptionAgentBodyEnd <:+: descriptionAgentBodyBegin := by decide

theorem wrap_split (agentBlock trail : Text) : wrapDescriptionAgentBlock agentBlock ++ trail =
    descriptionAgentBodyBegin ++ (('\n' :: (trim agentBlock ++ ['\n'])) ++ (descriptionAgentBodyEnd ++ trail)) := by
  simp [wrapDescriptionAgentBlock]

theorem extractUser_wrapped (quiet : ¬descriptionAgentBodyBegin <:+: lead) (whole : ¬descriptionAgentBodyEnd <:+: trim agentBlock) :
    extractUserAuthoredPrBody (some (lead ++ (wrapDescriptionAgentBlock agentBlock ++ trail))) =
      joinParts (trimEnd lead) (trimStart trail) := by
  have inner : ¬descriptionAgentBodyEnd <:+: descriptionAgentBodyBegin ++ '\n' :: (trim agentBlock ++ '\n' :: []) :=
    end_not_in_line end_not_in_begin (end_not_in_line whole marker_not_empty.1)
  rw [extractUserAuthoredPrBody, Option.getD_some, wrap_split, find_begin quiet]
  simp only
  rw [← List.append_assoc descriptionAgentBodyBegin, find_end inner]
  rfl

theorem extractAgent_wrapped (quiet : ¬descriptionAgentBodyBegin <:+: lead) (whole : ¬descriptionAgentBodyEnd <:+: trim agentBlock) :
    extractAgentDescriptionBlock (some (lead ++ (wrapDescriptionAgentBlock agentBlock ++ trail))) =
      orNull (trim ('\n' :: (trim agentBlock ++ ['\n']))) := by
  have inner : ¬descriptionAgentBodyEnd <:+: '\n' :: (trim agentBlock ++ '\n' :: []) :=
    end_not_in_line (x := []) marker_not_empty.1 (end_not_in_line whole marker_not_empty.1)
  rw [extractAgentDescriptionBlock, Option.getD_some, wrap_split, find_begin quiet]
  simp only
  rw [find_end inner]

end Blocks

section Trimming

variable {x y : Text}

theorem trim_eq (value : Text) : trim value = trimEnd (trimStart value) := rfl

theorem trim_length (value : Text) : (trim value).length ≤ value.length := by
  have start := (List.dropWhile_suffix (l := value) isSpace).length_le
  have end_ := (List.rdropWhile_prefix isSpace (l := trimStart value)).length_le
  exact Nat.le_trans end_ start

theorem trimStart_cons {c : Char} (solid : isSpace c = false) (x : Text) : trimStart (c :: x) = c :: x :=
  List.dropWhile_cons_of_neg (by simp [solid])

theorem trimEnd_cons {c : Char} (solid : isSpace c = false) (x : Text) : ∃ y, trimEnd (c :: x) = c :: y := by
  obtain ⟨blank, split, spaces⟩ := CommentMarkers.trimEnd_split (c :: x)
  cases kept : trimEnd (c :: x) with
  | nil =>
      rw [kept, List.nil_append] at split
      have spaced := spaces c (by rw [← split]; exact List.mem_cons_self)
      rw [solid] at spaced
      cases spaced
  | cons d y =>
      rw [kept, List.cons_append] at split
      exact ⟨y, by rw [(List.cons.inj split).1]⟩

theorem trimStart_shape (value : Text) : trimStart value = [] ∨ ∃ c rest, trimStart value = c :: rest ∧ isSpace c = false := by
  cases kept : trimStart value with
  | nil => exact .inl rfl
  | cons c rest =>
      have head := List.head?_dropWhile_not isSpace value
      rw [trimStart] at kept
      rw [kept] at head
      exact .inr ⟨c, rest, rfl, head⟩

theorem trimStart_trim (value : Text) : trimStart (trim value) = trim value := by
  rw [trim_eq]
  rcases trimStart_shape value with empty | ⟨c, rest, shape, solid⟩
  · rw [empty]
    rfl
  · obtain ⟨kept, whole⟩ := trimEnd_cons solid rest
    rw [shape, whole, trimStart_cons solid]

theorem trimEnd_trim (value : Text) : trimEnd (trim value) = trim value := by rw [trim_eq, CommentMarkers.trimEnd_trimEnd]

theorem trim_trim (value : Text) : trim (trim value) = trim value := by rw [trim_eq (trim value), trimStart_trim, trimEnd_trim]

theorem trim_lines (value : Text) : trim ('\n' :: (trim value ++ ['\n'])) = trim value := by
  have skip : trimStart ('\n' :: (trim value ++ ['\n'])) = trimStart (trim value ++ ['\n']) := List.dropWhile_cons_of_pos (by decide)
  rw [trim_eq, skip]
  cases kept : trim value with
  | nil => decide
  | cons c rest =>
      have start := trimStart_trim value
      rw [kept] at start
      rcases trimStart_shape (c :: rest) with empty | ⟨d, rest', shape, solid⟩
      · rw [start] at empty
        cases empty
      · rw [start] at shape
        obtain ⟨rfl, rfl⟩ := List.cons.inj shape
        rw [List.cons_append, trimStart_cons solid, ← List.cons_append, trimEnd_newline, ← kept, trimEnd_trim]

theorem joinParts_trimmed (x y : Text) : trim (joinParts x y) = joinParts x y := trim_trim _

theorem joinParts_left (x : Text) : joinParts x [] = trim x := by
  by_cases empty : x = []
  · subst empty
    rfl
  · simp [joinParts, empty]

theorem trimEnd_blank {blank : Text} (spaces : ∀ c ∈ blank, isSpace c = true) (x : Text) : trimEnd (x ++ blank) = trimEnd x := by
  rw [trimEnd, trimEnd, List.reverse_append, List.dropWhile_append_of_pos]
  intro c inside
  exact spaces c (List.mem_reverse.mp inside)

theorem trim_trimEnd (value : Text) : trim (trimEnd value) = trim value := by
  obtain ⟨blank, split, spaces⟩ := CommentMarkers.trimEnd_split value
  have whole : trim value = trimEnd (trimStart (trimEnd value ++ blank)) := by
    rw [← split]
    rfl
  rw [whole, trim_eq, trimStart, trimStart, List.dropWhile_append]
  by_cases empty : ((trimEnd value).dropWhile isSpace).isEmpty = true
  · have gone : blank.dropWhile isSpace = [] := List.dropWhile_eq_nil_iff.mpr spaces
    rw [if_pos empty, gone, List.isEmpty_iff.mp empty]
  · rw [if_neg empty, trimEnd_blank spaces]

-- What the author's text reads as after a merge.
theorem joinParts_user {user : Text} (trimmed : trim user = user) : joinParts (trimEnd (user ++ text "\n\n")) [] = user := by
  have lines : user ++ text "\n\n" = (user ++ ['\n']) ++ ['\n'] := by
    rw [List.append_assoc]
    rfl
  rw [lines, trimEnd_newline, trimEnd_newline, joinParts_left, ← trimmed, trimEnd_trim, trim_trim]

theorem begin_not_in_trimEnd (quiet : ¬descriptionAgentBodyBegin <:+: x) : ¬descriptionAgentBodyBegin <:+: trimEnd x := by
  intro inside
  obtain ⟨blank, split, _⟩ := CommentMarkers.trimEnd_split x
  rw [split] at quiet
  exact quiet (inside.trans (List.infix_append' [] _ _))

theorem begin_not_in_trimStart (quiet : ¬descriptionAgentBodyBegin <:+: x) : ¬descriptionAgentBodyBegin <:+: trimStart x :=
  fun inside => quiet (inside.trans (List.dropWhile_suffix _).isInfix)

theorem begin_not_in_trim (quiet : ¬descriptionAgentBodyBegin <:+: x) : ¬descriptionAgentBodyBegin <:+: trim x :=
  begin_not_in_trimEnd (begin_not_in_trimStart quiet)

theorem begin_not_in_join (left : ¬descriptionAgentBodyBegin <:+: x) (right : ¬descriptionAgentBodyBegin <:+: y) :
    ¬descriptionAgentBodyBegin <:+: joinParts x y := by
  apply begin_not_in_trim
  by_cases noLeft : x = []
  · by_cases noRight : y = []
    · simpa [noLeft, noRight] using marker_not_empty.2
    · simpa [noLeft, noRight] using right
  · by_cases noRight : y = []
    · simpa [noLeft, noRight] using left
    · have shape : (text "\n\n").intercalate ([x, y].filter fun part => part ≠ []) = x ++ '\n' :: ([] ++ '\n' :: y) := by
        simp [noLeft, noRight, List.intercalate, text]
      rw [shape]
      exact begin_not_in_line left (begin_not_in_line marker_not_empty.2 right)

end Trimming

section Runs

-- The body, the author's text before and after the block, and the block last merged.
structure PrBody where
  body : Option Text
  before : Text
  after : Text
  agentBlock : Option Text

def PrBody.empty : PrBody := ⟨none, [], [], none⟩

inductive BodyEvent where
  | edit (before after : Text)
  | merge (agentBlock : Text)

-- The author keeps the block as it is; without a block the body is the author's text.
def bodyStep (state : PrBody) : BodyEvent → Option PrBody
  | .edit before after =>
    match state.agentBlock with
    | none => some { state with body := some before, before := before, after := [] }
    | some agentBlock =>
      some { state with body := some (before ++ (wrapDescriptionAgentBlock agentBlock ++ after)), before := before, after := after }
  | .merge agentBlock => some { state with body := some (mergeDescriptionIntoPrBody state.body agentBlock), agentBlock := some agentBlock }

def BodyAllowed (_ : PrBody) : BodyEvent → Prop
  | .edit before after => AuthorText before ∧ AuthorText after
  | .merge agentBlock => Intact agentBlock

instance (state : PrBody) : (event : BodyEvent) → Decidable (BodyAllowed state event)
  | .edit before after => inferInstanceAs (Decidable (AuthorText before ∧ AuthorText after))
  | .merge agentBlock => inferInstanceAs (Decidable (Intact agentBlock))

-- The author's text, with a blank line between the parts and no white space around it.
def PrBody.authorText (state : PrBody) : Text := joinParts (trimEnd state.before) (trimStart state.after)

-- What one more merge keeps.
structure MergeKeeps (state : PrBody) (agentBlock : Text) : Prop where
  user : extractUserAuthoredPrBody (some (mergeDescriptionIntoPrBody state.body agentBlock)) = state.authorText
  block : extractAgentDescriptionBlock (some (mergeDescriptionIntoPrBody state.body agentBlock)) = some (trim agentBlock)
  again : ∃ lead, mergeDescriptionIntoPrBody state.body agentBlock = lead ++ wrapDescriptionAgentBlock agentBlock ∧
    ∀ other, mergeDescriptionIntoPrBody (some (mergeDescriptionIntoPrBody state.body agentBlock)) other = lead ++ wrapDescriptionAgentBlock other

variable {state next : PrBody} {agentBlock : Text}

-- The author's text as it is read, and that no marker opens in it.
structure BodyOk (state : PrBody) : Prop where
  user : extractUserAuthoredPrBody state.body = state.authorText
  quiet : ¬descriptionAgentBodyBegin <:+: state.authorText
  whole : ∀ agentBlock, state.agentBlock = some agentBlock → ¬descriptionAgentBodyEnd <:+: trim agentBlock

-- What stands before the block after a merge.
def mergeLead (user : Text) : Text := if user = [] then [] else user ++ text "\n\n"

theorem merge_eq (body : Option Text) (agentBlock : Text) :
    mergeDescriptionIntoPrBody body agentBlock = mergeLead (extractUserAuthoredPrBody body) ++ wrapDescriptionAgentBlock agentBlock := by
  rw [mergeDescriptionIntoPrBody, mergeLead]
  by_cases empty : extractUserAuthoredPrBody body = []
  · simp only [if_pos empty, List.nil_append]
  · simp only [if_neg empty, List.append_assoc]

theorem mergeLead_quiet {user : Text} (quiet : ¬descriptionAgentBodyBegin <:+: user) : ¬descriptionAgentBodyBegin <:+: mergeLead user := by
  rw [mergeLead]
  by_cases empty : user = []
  · rw [if_pos empty]
    exact marker_not_empty.2
  · rw [if_neg empty]
    exact begin_not_in_line quiet (begin_not_in_line (x := []) marker_not_empty.2 marker_not_empty.2)

theorem mergeLead_user {user : Text} (trimmed : trim user = user) : joinParts (trimEnd (mergeLead user)) [] = user := by
  rw [mergeLead]
  by_cases empty : user = []
  · rw [if_pos empty, empty]
    rfl
  · rw [if_neg empty]
    exact joinParts_user trimmed

theorem merged_user (ok : BodyOk state) (whole : ¬descriptionAgentBodyEnd <:+: trim agentBlock) :
    extractUserAuthoredPrBody (some (mergeDescriptionIntoPrBody state.body agentBlock)) = state.authorText := by
  rw [merge_eq, ok.user, ← List.append_nil (wrapDescriptionAgentBlock agentBlock), extractUser_wrapped (mergeLead_quiet ok.quiet) whole]
  exact mergeLead_user (joinParts_trimmed _ _)

theorem merged_block (ok : BodyOk state) (whole : ¬descriptionAgentBodyEnd <:+: trim agentBlock) :
    extractAgentDescriptionBlock (some (mergeDescriptionIntoPrBody state.body agentBlock)) = orNull (trim agentBlock) := by
  rw [merge_eq, ok.user, ← List.append_nil (wrapDescriptionAgentBlock agentBlock), extractAgent_wrapped (mergeLead_quiet ok.quiet) whole,
    trim_lines]

theorem bodyOk_empty : BodyOk .empty := by
  constructor
  · decide +kernel
  · decide +kernel
  · intro agentBlock none_yet
    cases none_yet

theorem extractUser_plain {value : Text} (own : AuthorText value) : extractUserAuthoredPrBody (some value) = trim value := by
  rw [extractUserAuthoredPrBody, Option.getD_some, firstOccurrence_eq_none.mpr own.noBegin, firstOccurrence_eq_none.mpr own.noHeader]

theorem body_step (ok : BodyOk state) (event : BodyEvent) (allowed : BodyAllowed state event) (moved : bodyStep state event = some next) :
    BodyOk next := by
  cases event with
  | edit before after =>
      obtain ⟨own, own'⟩ := allowed
      rw [bodyStep] at moved
      cases last : state.agentBlock with
      | none =>
          rw [last] at moved
          cases moved
          constructor
          · rw [extractUser_plain own, PrBody.authorText, ← trim_trimEnd, ← joinParts_left]
            rfl
          · exact begin_not_in_join (begin_not_in_trimEnd own.noBegin) marker_not_empty.2
          · intro agentBlock merged
            exact ok.whole agentBlock (last.trans merged)
      | some agentBlock =>
          rw [last] at moved
          cases moved
          constructor
          · exact extractUser_wrapped own.noBegin (ok.whole agentBlock last)
          · exact begin_not_in_join (begin_not_in_trimEnd own.noBegin) (begin_not_in_trimStart own'.noBegin)
          · intro other merged
            exact ok.whole other (last.trans merged)
  | merge agentBlock =>
      cases moved
      constructor
      · exact merged_user ok allowed.2
      · exact ok.quiet
      · intro other merged
        cases merged
        exact allowed.2

abbrev BodyRun : PrBody → PrBody → Prop := Reaches bodyStep BodyAllowed

theorem bodyOk_run (reached : BodyRun .empty state) : BodyOk state :=
  reached.invariant BodyOk bodyOk_empty fun _ event _ ok allowed moved => body_step ok event allowed moved

theorem merge_keeps (ok : BodyOk state) (intact : Intact agentBlock) : MergeKeeps state agentBlock := by
  constructor
  · exact merged_user ok intact.2
  · rw [merged_block ok intact.2, orNull, if_neg intact.1]
  · refine ⟨mergeLead state.authorText, by rw [merge_eq, ok.user], ?_⟩
    intro other
    rw [merge_eq, merged_user ok intact.2]

-- A block with the end marker in it is read back shorter.
theorem cut_block (ok : BodyOk state) (inside : descriptionAgentBodyEnd <:+: trim agentBlock) :
    extractAgentDescriptionBlock (some (mergeDescriptionIntoPrBody state.body agentBlock)) ≠ some (trim agentBlock) := by
  obtain ⟨x, y, split⟩ := inside
  rw [merge_eq, ok.user, ← List.append_nil (wrapDescriptionAgentBlock agentBlock), extractAgentDescriptionBlock, Option.getD_some, wrap_split,
    find_begin (mergeLead_quiet ok.quiet)]
  simp only
  generalize rest_eq : '\n' :: (trim agentBlock ++ ['\n']) ++ (descriptionAgentBodyEnd ++ []) = rest
  have there : rest = ('\n' :: x) ++ (descriptionAgentBodyEnd ++ (y ++ ('\n' :: (descriptionAgentBodyEnd ++ [])))) := by
    rw [← rest_eq, ← split]
    simp
  cases found : firstOccurrence rest descriptionAgentBodyEnd with
  | none =>
      have absent := firstOccurrence_eq_none.mp found
      exact absurd ⟨_, _, by rw [there, List.append_assoc]⟩ absent
  | some parts =>
      have early := firstOccurrence_le (firstOccurrence_eq_some.mp found) there
      have kept := trim_length parts.1
      have whole := congrArg List.length split
      have size : 2 ≤ descriptionAgentBodyEnd.length := by decide
      rw [List.length_cons] at early
      rw [List.length_append, List.length_append] at whole
      simp only [orNull]
      by_cases empty : trim parts.1 = []
      · rw [if_pos empty]
        intro same
        cases same
      · rw [if_neg empty]
        intro same
        rw [Option.some.inj same] at kept
        omega

-- The laws hold of a merge just when its block is intact, after any run of edits and merges of intact blocks.
theorem description_merges (state : PrBody) (reached : BodyRun .empty state) (agentBlock : Text) :
    MergeKeeps state agentBlock ↔ Intact agentBlock := by
  have ok := bodyOk_run reached
  constructor
  · intro keeps
    constructor
    · intro empty
      have block := keeps.block
      have whole : ¬descriptionAgentBodyEnd <:+: trim agentBlock := by
        rw [empty]
        exact marker_not_empty.1
      rw [merged_block ok whole, empty] at block
      cases block
    · intro inside
      exact cut_block ok inside keeps.block
  · exact merge_keeps ok

end Runs

section Examples

-- A rendered block whose description writes of the end marker.
def leakyBlock : Text :=
  text "## PR Agent Description\n\n### PR Type\n\nTests\n\n### Description\n\nChecks <!-- PR_AGENT_DESCRIPTION_END --> in bodies."

def plainBlock : Text := text "## PR Agent Description\n\n### PR Type\n\nTests\n\n### Description\n\nChecks bodies."

def authoredBody : PrBody := ⟨some (text "Fixes the parser."), text "Fixes the parser.", [], none⟩

-- The rest of the block is read as text of the author from then on.
theorem leaky_block_kept :
    extractUserAuthoredPrBody (some (mergeDescriptionIntoPrBody authoredBody.body leakyBlock)) =
        text "Fixes the parser.\n\nin bodies.\n<!-- PR_AGENT_DESCRIPTION_END -->" ∧
      ¬MergeKeeps authoredBody leakyBlock := by
  have leaked : extractUserAuthoredPrBody (some (mergeDescriptionIntoPrBody authoredBody.body leakyBlock)) =
      text "Fixes the parser.\n\nin bodies.\n<!-- PR_AGENT_DESCRIPTION_END -->" := by decide +kernel
  refine ⟨leaked, ?_⟩
  intro keeps
  have user := keeps.user
  rw [leaked] at user
  exact absurd user (by decide +kernel)

-- The author edits both sides of a merged block, and it is merged again.
def editedAround : List BodyEvent :=
  [.edit (text "Fixes the parser.") [], .merge plainBlock, .edit (text "Fixes the parser.\n\n") (text "\nSee the tests.")]

theorem edited_around_merges : ∃ state, BodyRun .empty state ∧ state.after = text "\nSee the tests." ∧ MergeKeeps state plainBlock := by
  have reached : BodyRun .empty (runTo bodyStep (fun s event => decide (BodyAllowed s event)) editedAround .empty .empty) :=
    reaches_runTo editedAround PrBody.empty PrBody.empty (by decide +kernel)
  exact ⟨_, reached, by decide +kernel, (description_merges _ reached plainBlock).mpr (by decide +kernel)⟩

end Examples
end PrAgent
