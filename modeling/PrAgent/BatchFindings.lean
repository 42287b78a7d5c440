import PrAgent.FindingReconcile
import Mathlib.Data.List.Pairwise
import Mathlib.Data.List.Enum
set_option autoImplicit false

namespace PrAgent

-- A finding as it is published: its text is redacted and its severity capped.
structure BatchFinding where
  file : String
  startLine : Nat
  endLine : Nat
  severity : FindingSeverity
  title : String
  detail : String
  deriving DecidableEq, Repr

def reviewFindingPlacementKey (finding : BatchFinding) : String :=
  finding.file ++ ":" ++ toString finding.startLine ++ ":" ++ toString finding.endLine ++ ":" ++ finding.severity.text ++ ":" ++
    finding.title

section Keys

-- The characters that `JSON.stringify` escapes in a well-formed string.
def jsonEscape (code : Nat) : Option (List Char) :=
  if code = 8 then some ['\\', 'b']
  else if code = 9 then some ['\\', 't']
  else if code = 10 then some ['\\', 'n']
  else if code = 12 then some ['\\', 'f']
  else if code = 13 then some ['\\', 'r']
  else if code = 34 then some ['\\', '"']
  else if code = 92 then some ['\\', '\\']
  else if code < 32 then some ['\\', 'u', '0', '0', Nat.digitChar (code / 16), Nat.digitChar (code % 16)]
  else none

def jsonChar (c : Char) : List Char := (jsonEscape c.toNat).getD [c]

def jsonChars (text : List Char) : List Char := '"' :: (text.flatMap jsonChar ++ ['"'])

-- `JSON.stringify` of the placement key with the detail.
def reconciledFindingKey (finding : BatchFinding) : String :=
  String.ofList ('[' :: (jsonChars (reviewFindingPlacementKey finding).toList ++
    ',' :: (jsonChars finding.detail.toList ++ [']'])))

theorem jsonEscape_starts {m n : Nat} {s t : List Char} (here : jsonEscape m = some s) (there : jsonEscape n = some t)
    (starts : s <+: t) : m = n := by
  have all : ∀ m < 93, ∀ n < 93, ∀ s ∈ jsonEscape m, ∀ t ∈ jsonEscape n, s.isPrefixOf t = true → m = n := by
    decide +kernel
  have low : ∀ {k : Nat} {r : List Char}, jsonEscape k = some r → k < 93 := by
    intro k r escaped
    by_contra high
    have plain : jsonEscape k = none := by
      simp only [jsonEscape]
      split_ifs <;> first | rfl | omega
    rw [plain] at escaped
    cases escaped
  exact all m (low here) n (low there) s here t there (List.isPrefixOf_iff_prefix.mpr starts)

-- An escape starts with the backslash, which is escaped itself, and so is the quote.
theorem jsonEscape_head {code : Nat} {s : List Char} (escaped : jsonEscape code = some s) : ∃ rest, s = '\\' :: rest := by
  simp only [jsonEscape] at escaped
  split_ifs at escaped <;> cases escaped <;> exact ⟨_, rfl⟩

theorem jsonChar_plain {c : Char} (plain : jsonEscape c.toNat = none) : c ≠ '\\' ∧ c ≠ '"' := by
  constructor
  · intro same
    subst same
    revert plain
    decide
  · intro same
    subst same
    revert plain
    decide

theorem jsonChar_head {c : Char} {x rest : List Char} : jsonChar c ++ x ≠ '"' :: rest := by
  intro same
  rw [jsonChar] at same
  cases escaped : jsonEscape c.toNat with
  | none =>
      rw [escaped] at same
      simp only [Option.getD_none, List.singleton_append, List.cons.injEq] at same
      exact (jsonChar_plain escaped).2 same.1
  | some s =>
      obtain ⟨tail, rfl⟩ := jsonEscape_head escaped
      rw [escaped] at same
      simp at same

theorem jsonChar_append {c d : Char} {x y : List Char} (same : jsonChar c ++ x = jsonChar d ++ y) : c = d ∧ x = y := by
  simp only [jsonChar] at same
  cases left : jsonEscape c.toNat with
  | none =>
      cases right : jsonEscape d.toNat with
      | none =>
          rw [left, right] at same
          simpa using same
      | some t =>
          obtain ⟨tail, rfl⟩ := jsonEscape_head right
          rw [left, right] at same
          simp only [Option.getD_none, Option.getD_some, List.cons_append, List.cons.injEq] at same
          exact absurd same.1 (jsonChar_plain left).1
  | some s =>
      cases right : jsonEscape d.toNat with
      | none =>
          obtain ⟨tail, rfl⟩ := jsonEscape_head left
          rw [left, right] at same
          simp only [Option.getD_none, Option.getD_some, List.cons_append, List.cons.injEq] at same
          exact absurd same.1.symm (jsonChar_plain right).1
      | some t =>
          rw [left, right] at same
          simp only [Option.getD_some] at same
          have codes : c.toNat = d.toNat := by
            cases List.append_eq_append_iff.mp same with
            | inl shorter =>
                obtain ⟨rest, longer, _⟩ := shorter
                exact jsonEscape_starts left right ⟨rest, longer.symm⟩
            | inr longer =>
                obtain ⟨rest, shorter, _⟩ := longer
                exact (jsonEscape_starts right left ⟨rest, shorter.symm⟩).symm
          have chars : c = d := Char.toNat_inj.mp codes
          subst chars
          rw [left] at right
          cases right
          exact ⟨rfl, List.append_cancel_left same⟩

-- A quoted text can be read off whatever it stands in front of.
theorem jsonChars_append {s t x y : List Char} (same : jsonChars s ++ x = jsonChars t ++ y) : s = t ∧ x = y := by
  simp only [jsonChars, List.cons_append, List.append_assoc, List.cons.injEq, true_and] at same
  induction s generalizing t with
  | nil =>
      cases t with
      | nil => simpa using same
      | cons d t =>
          rw [List.flatMap_nil, List.flatMap_cons, List.append_assoc] at same
          exact absurd same.symm jsonChar_head
  | cons c s ih =>
      cases t with
      | nil =>
          rw [List.flatMap_nil, List.flatMap_cons, List.append_assoc] at same
          exact absurd same jsonChar_head
      | cons d t =>
          rw [List.flatMap_cons, List.flatMap_cons, List.append_assoc, List.append_assoc] at same
          obtain ⟨rfl, rest⟩ := jsonChar_append same
          obtain ⟨rfl, tails⟩ := ih rest
          exact ⟨rfl, tails⟩

-- Findings of one key with detail have one key without.
theorem placementKey_of_reconciledKey {first second : BatchFinding} (same : reconciledFindingKey first = reconciledFindingKey second) :
    reviewFindingPlacementKey first = reviewFindingPlacementKey second := by
  have chars := String.ofList_injective same
  rw [List.cons.injEq] at chars
  exact String.toList_inj.mp (jsonChars_append chars.2).1

end Keys

section Repeats

-- What lower case leaves of a character for `/[^a-z0-9]+/`; two letters outside of ASCII have one in it.
def substanceChar (c : Char) : List Char :=
  if 'A' ≤ c ∧ c ≤ 'Z' then [Char.ofNat (c.toNat + 32)]
  else if 'a' ≤ c ∧ c ≤ 'z' ∨ '0' ≤ c ∧ c ≤ '9' then [c]
  else if c = Char.ofNat 0x212A then ['k']
  else if c = Char.ofNat 0x130 then ['i', ' ']
  else [' ']

def normalizedSubstance (text : String) : String :=
  let words := ((text.toList.flatMap substanceChar).splitOn ' ').filter fun word => !word.isEmpty
  String.ofList (List.intercalate [' '] words)

def repeatsFinding (earlier candidate : BatchFinding) : Bool :=
  reviewFindingPlacementKey earlier = reviewFindingPlacementKey candidate ||
    (earlier.file = candidate.file && earlier.startLine ≤ candidate.endLine && candidate.startLine ≤ earlier.endLine &&
      normalizedSubstance earlier.title = normalizedSubstance candidate.title &&
      normalizedSubstance earlier.detail = normalizedSubstance candidate.detail)

-- `localeCompare` of the language: a consistent comparison, whatever the locale.
structure Collation where
  localeCompare : String → String → Int
  flip : ∀ a b, localeCompare a b < 0 ↔ 0 < localeCompare b a
  trans : ∀ a b c, localeCompare a b ≤ 0 → localeCompare b c ≤ 0 → localeCompare a c ≤ 0

variable (collation : Collation)

def compareReviewFindingsBySeverityFileLine (a b : BatchFinding) : Int :=
  if a.severity.rank ≠ b.severity.rank then (a.severity.rank : Int) - b.severity.rank
  else if collation.localeCompare a.file b.file ≠ 0 then collation.localeCompare a.file b.file
  else (a.startLine : Int) - b.startLine

def sortsBefore (a b : BatchFinding) : Bool := compareReviewFindingsBySeverityFileLine collation a b ≤ 0

-- The indices of the findings that repeat one before them; every one before counts, repeated or not.
def repeatedFrom (seen : List BatchFinding) : List (BatchFinding × Nat) → List Nat
  | [] => []
  | entry :: rest =>
    (if seen.any fun earlier => repeatsFinding earlier entry.1 then [entry.2] else []) ++ repeatedFrom (seen ++ [entry.1]) rest

def repeatedInBatch (findings : List BatchFinding) : List Nat :=
  repeatedFrom [] (findings.zipIdx.mergeSort fun left right => sortsBefore collation left.1 right.1)

variable {collation}

theorem sortsBefore_iff {a b : BatchFinding} : sortsBefore collation a b = true ↔
    a.severity.rank < b.severity.rank ∨ a.severity.rank = b.severity.rank ∧ (collation.localeCompare a.file b.file < 0 ∨
      collation.localeCompare a.file b.file = 0 ∧ a.startLine ≤ b.startLine) := by
  rw [sortsBefore, decide_eq_true_eq, compareReviewFindingsBySeverityFileLine]
  by_cases severity : a.severity.rank = b.severity.rank
  · rw [if_neg (not_not.mpr severity)]
    by_cases file : collation.localeCompare a.file b.file = 0
    · rw [if_neg (not_not.mpr file)]
      omega
    · rw [if_pos file]
      omega
  · rw [if_pos severity]
    omega

theorem sortsBefore_trans {a b c : BatchFinding} (first : sortsBefore collation a b = true)
    (second : sortsBefore collation b c = true) : sortsBefore collation a c = true := by
  rw [sortsBefore_iff] at first second ⊢
  have whole := collation.trans a.file b.file c.file
  have back := collation.trans b.file c.file a.file
  have back' := collation.trans c.file a.file b.file
  have ab := collation.flip a.file b.file
  have bc := collation.flip b.file c.file
  have ca := collation.flip c.file a.file
  have ac := collation.flip a.file c.file
  omega

theorem sortsBefore_total (a b : BatchFinding) : (sortsBefore collation a b || sortsBefore collation b a) = true := by
  rw [Bool.or_eq_true, sortsBefore_iff, sortsBefore_iff]
  have ab := collation.flip a.file b.file
  have ba := collation.flip b.file a.file
  omega

-- A finding that sorts before another is at least as severe.
theorem rank_le_of_sortsBefore {a b : BatchFinding} (sorted : sortsBefore collation a b = true) :
    a.severity.rank ≤ b.severity.rank := by
  rw [sortsBefore_iff] at sorted
  omega

-- A finding that is not repeated has another key than all before it.
theorem repeatedFrom_spec {seen : List BatchFinding} {entries : List (BatchFinding × Nat)}
    (indexed : (entries.map Prod.snd).Nodup) :
    (∀ entry ∈ entries, entry.2 ∉ repeatedFrom seen entries → ∀ earlier ∈ seen,
      reviewFindingPlacementKey earlier ≠ reviewFindingPlacementKey entry.1) ∧
    entries.Pairwise fun first second => second.2 ∉ repeatedFrom seen entries →
      reviewFindingPlacementKey first.1 ≠ reviewFindingPlacementKey second.1 := by
  induction entries generalizing seen with
  | nil =>
      constructor
      · intro entry listed
        cases listed
      · exact List.Pairwise.nil
  | cons head rest ih =>
      rw [List.map_cons, List.nodup_cons] at indexed
      obtain ⟨fresh, indexed⟩ := indexed
      obtain ⟨before, among⟩ := @ih (seen ++ [head.1]) indexed
      have later : ∀ {index : Nat}, index ∉ repeatedFrom seen (head :: rest) →
          index ∉ repeatedFrom (seen ++ [head.1]) rest := by
        intro index absent listed
        exact absent (List.mem_append_right _ listed)
      constructor
      · intro entry listed kept earlier known same
        cases List.mem_cons.mp listed with
        | inl here =>
            subst here
            apply kept
            have repeats : (seen.any fun earlier => repeatsFinding earlier entry.1) = true := by
              apply List.any_eq_true.mpr
              exact ⟨earlier, known, by simp [repeatsFinding, same]⟩
            rw [repeatedFrom, if_pos repeats]
            exact List.mem_append_left _ (List.mem_singleton_self _)
        | inr below => exact before entry below (later kept) earlier (List.mem_append_left _ known) same
      · rw [List.pairwise_cons]
        constructor
        · intro entry below kept
          exact before entry below (later kept) head.1 (List.mem_append_right _ (List.mem_singleton_self _))
        · exact among.imp fun apart kept => apart (later kept)

-- Findings that are not repeated differ in their placement keys.
theorem unrepeated_keys (collation : Collation) (findings : List BatchFinding) :
    (findings.zipIdx.filter fun entry => entry.2 ∉ repeatedInBatch collation findings).Pairwise fun first second =>
      reviewFindingPlacementKey first.1 ≠ reviewFindingPlacementKey second.1 := by
  have sorted := List.mergeSort_perm findings.zipIdx fun left right => sortsBefore collation left.1 right.1
  have indexed : ((findings.zipIdx.mergeSort fun left right => sortsBefore collation left.1 right.1).map Prod.snd).Nodup := by
    rw [(sorted.map Prod.snd).nodup_iff, List.zipIdx_map_snd]
    exact List.nodup_range'
  have symmetric : ∀ {first second : BatchFinding × Nat},
      reviewFindingPlacementKey first.1 ≠ reviewFindingPlacementKey second.1 →
        reviewFindingPlacementKey second.1 ≠ reviewFindingPlacementKey first.1 := fun apart => apart.symm
  rw [← (sorted.filter fun entry => decide (entry.2 ∉ repeatedInBatch collation findings)).pairwise_iff symmetric,
    List.pairwise_filter]
  exact (repeatedFrom_spec indexed).2.imp fun apart _ kept => apart (of_decide_eq_true kept)

end Repeats

end PrAgent
