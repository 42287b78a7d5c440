import PrAgent.PathGlobRegex
set_option autoImplicit false

namespace PrAgent

section Reading

def atomsText (atoms : List GlobAtom) : Units := atoms.flatMap GlobAtom.text

-- The atoms whose text stands for themselves.
def GlobAtom.plain : GlobAtom → Bool
  | .one c => c ≠ starUnit && c ≠ questionUnit
  | _ => true

theorem one_text {c : UInt16} (star : c ≠ starUnit) : ∃ d more, (GlobAtom.one c).text = d :: more ∧ d ≠ starUnit := by
  rw [GlobAtom.text, escapeUnit]
  by_cases special : c ∈ regexSpecials
  · rw [if_pos special]
    exact ⟨backslashUnit, [c], rfl, by decide⟩
  · rw [if_neg special]
    exact ⟨c, [], rfl, star⟩

theorem atom_head {atom : GlobAtom} (plain : atom.plain = true) : ∃ d more, atom.text = d :: more ∧ d ≠ starUnit := by
  cases atom with
  | one c =>
      rw [GlobAtom.plain, Bool.and_eq_true, decide_eq_true_iff] at plain
      exact one_text plain.1
  | segmentChar => exact ⟨91, _, rfl, by decide⟩
  | segmentRun => exact ⟨91, _, rfl, by decide⟩
  | anything => exact ⟨46, _, rfl, by decide⟩
  | someDirs => exact ⟨40, _, rfl, by decide⟩
  | leadingDirs => exact ⟨40, _, rfl, by decide⟩

theorem atomsText_head {atoms : List GlobAtom} (plain : ∀ atom ∈ atoms, atom.plain = true) : (atomsText atoms).head? ≠ some starUnit := by
  cases atoms with
  | nil =>
      intro same
      cases same
  | cons atom rest =>
      obtain ⟨d, more, split, other⟩ := atom_head (plain atom List.mem_cons_self)
      rw [atomsText, List.flatMap_cons, split]
      exact fun same => other (Option.some.inj same)

theorem not_starts {x y : Units} {c d : UInt16} (different : c ≠ d) : ¬c :: x <+: d :: y := fun starts => different (List.cons_prefix_cons.mp starts).1

theorem run_starts : ∃ more, unitsOf "[^/]*" = 91 :: more := ⟨unitsOf "^/]*", by decide⟩

theorem char_starts : ∃ more, unitsOf "[^/]" = 91 :: more := ⟨unitsOf "^/]", by decide⟩

theorem some_starts : ∃ more, unitsOf "(?:.*/)?" = 40 :: more := ⟨unitsOf "?:.*/)?", by decide⟩

theorem leading_starts : ∃ more, unitsOf "(?:^|.*/)" = 40 :: more := ⟨unitsOf "?:^|.*/)", by decide⟩

theorem any_starts : ∃ more, unitsOf ".*" = 46 :: more := ⟨unitsOf "*", by decide⟩

theorem other_start {mark y : Units} {c d : UInt16} (starts : ∃ more, mark = c :: more) (different : c ≠ d) : ¬mark <+: d :: y := by
  obtain ⟨more, rfl⟩ := starts
  exact not_starts different

theorem readAtom_one {c : UInt16} (star : c ≠ starUnit) (question : c ≠ questionUnit) (y : Units) :
    readAtom ((GlobAtom.one c).text ++ y) = some (.one c, y) := by
  rw [GlobAtom.text, escapeUnit]
  by_cases special : c ∈ regexSpecials
  · rw [if_pos special, List.cons_append, readAtom, if_neg (other_start run_starts (by decide)), if_neg (other_start char_starts (by decide)),
      if_neg (other_start some_starts (by decide)), if_neg (other_start leading_starts (by decide)), if_neg (other_start any_starts (by decide))]
    rfl
  · have apart {d : UInt16} (listed : d ∈ regexSpecials) : d ≠ c := fun same => special (same ▸ listed)
    have bracket : 91 ≠ c := apart (by decide)
    have paren : 40 ≠ c := apart (by decide)
    have dot : 46 ≠ c := apart (by decide)
    have back : backslashUnit ≠ c := apart (by decide)
    rw [if_neg special, List.cons_append, readAtom, if_neg (other_start run_starts bracket), if_neg (other_start char_starts bracket),
      if_neg (other_start some_starts paren), if_neg (other_start leading_starts paren), if_neg (other_start any_starts dot)]
    simp [back.symm, special, star, question]

theorem readAtom_text {atom : GlobAtom} (plain : atom.plain = true) {y : Units} (behind : y.head? ≠ some starUnit) :
    readAtom (atom.text ++ y) = some (atom, y) := by
  cases atom with
  | one c =>
      rw [GlobAtom.plain, Bool.and_eq_true, decide_eq_true_iff, decide_eq_true_iff] at plain
      exact readAtom_one plain.1 plain.2 y
  | segmentRun =>
      have own : unitsOf "[^/]*" <+: GlobAtom.segmentRun.text ++ y := ⟨y, rfl⟩
      rw [readAtom.eq_def, if_pos own]
      rfl
  | segmentChar =>
      have other : ¬unitsOf "[^/]*" <+: GlobAtom.segmentChar.text ++ y := by
        intro starts
        have split : unitsOf "[^/]*" = unitsOf "[^/]" ++ unitsOf "*" := by decide
        rw [split] at starts
        have later : unitsOf "*" <+: y := (List.prefix_append_right_inj (unitsOf "[^/]")).mp starts
        obtain ⟨more, same⟩ := later
        exact behind (by rw [← same]; rfl)
      have own : unitsOf "[^/]" <+: GlobAtom.segmentChar.text ++ y := ⟨y, rfl⟩
      rw [readAtom.eq_def, if_neg other, if_pos own]
      rfl
  | anything =>
      have shape : GlobAtom.anything.text ++ y = 46 :: (42 :: y) := rfl
      have own : unitsOf ".*" <+: 46 :: (42 :: y) := ⟨y, rfl⟩
      rw [shape, readAtom, if_neg (other_start run_starts (by decide)), if_neg (other_start char_starts (by decide)),
        if_neg (other_start some_starts (by decide)), if_neg (other_start leading_starts (by decide)), if_pos own]
      rfl
  | someDirs =>
      have shape : GlobAtom.someDirs.text ++ y = 40 :: (unitsOf "?:.*/)?" ++ y) := rfl
      have own : unitsOf "(?:.*/)?" <+: 40 :: (unitsOf "?:.*/)?" ++ y) := ⟨y, rfl⟩
      rw [shape, readAtom, if_neg (other_start run_starts (by decide)), if_neg (other_start char_starts (by decide)), if_pos own]
      rfl
  | leadingDirs =>
      have shape : GlobAtom.leadingDirs.text ++ y = 40 :: (unitsOf "?:^|.*/)" ++ y) := rfl
      have own : unitsOf "(?:^|.*/)" <+: 40 :: (unitsOf "?:^|.*/)" ++ y) := ⟨y, rfl⟩
      have other : ¬unitsOf "(?:.*/)?" <+: 40 :: (unitsOf "?:^|.*/)" ++ y) := by
        intro starts
        have split : unitsOf "(?:.*/)?" = unitsOf "(?:" ++ (46 :: unitsOf "*/)?") := by decide
        have behind_mark : 40 :: (unitsOf "?:^|.*/)" ++ y) = unitsOf "(?:" ++ (94 :: (unitsOf "|.*/)" ++ y)) := rfl
        rw [split, behind_mark] at starts
        exact not_starts (by decide) ((List.prefix_append_right_inj (unitsOf "(?:")).mp starts)
      rw [shape, readAtom, if_neg (other_start run_starts (by decide)), if_neg (other_start char_starts (by decide)), if_neg other, if_pos own]
      rfl

theorem readRegex_text (atoms : List GlobAtom) (plain : ∀ atom ∈ atoms, atom.plain = true) {fuel : Nat} (enough : atoms.length ≤ fuel) :
    readRegex fuel (atomsText atoms) = some atoms := by
  induction atoms generalizing fuel with
  | nil =>
      cases fuel with
      | zero => rfl
      | succ fuel => rfl
  | cons atom rest ih =>
      have plain_rest : ∀ atom ∈ rest, atom.plain = true := fun atom inside => plain atom (List.mem_cons_of_mem _ inside)
      have own := plain atom List.mem_cons_self
      have read := readAtom_text own (atomsText_head plain_rest)
      obtain ⟨d, more, split, _⟩ := atom_head own
      have filled : atomsText (atom :: rest) = d :: (more ++ atomsText rest) := by
        rw [atomsText, List.flatMap_cons, split]
        rfl
      have text : atomsText (atom :: rest) = atom.text ++ atomsText rest := rfl
      rw [List.length_cons] at enough
      cases fuel with
      | zero => omega
      | succ fuel =>
          rw [filled, readRegex, ← filled, text, read]
          · rw [Option.bind_some, ih plain_rest (by omega)]
            rfl
          · exact List.cons_ne_nil _ _

theorem atoms_length {atoms : List GlobAtom} (plain : ∀ atom ∈ atoms, atom.plain = true) : atoms.length ≤ (atomsText atoms).length := by
  induction atoms with
  | nil => exact Nat.le_refl 0
  | cons atom rest ih =>
      obtain ⟨d, more, split, _⟩ := atom_head (plain atom List.mem_cons_self)
      have later := ih fun atom inside => plain atom (List.mem_cons_of_mem _ inside)
      have text : atomsText (atom :: rest) = atom.text ++ atomsText rest := rfl
      rw [text, List.length_append, split, List.length_cons, List.length_cons]
      omega

theorem piece_text (piece : GlobPiece) : GlobPiece.stage middleText trailingText leadingText standaloneText piece = atomsText piece.atoms := by
  cases piece with
  | text t =>
      rw [GlobPiece.stage, GlobPiece.atoms, renderedUnits, atomsText, List.flatMap_map]
  | between => decide
  | middle => decide
  | trailing => decide
  | leading => decide
  | standalone => decide

theorem piece_plain (piece : GlobPiece) : ∀ atom ∈ piece.atoms, atom.plain = true := by
  cases piece with
  | text t =>
      intro atom listed
      obtain ⟨c, _, rfl⟩ := List.mem_map.mp listed
      rw [unitAtom]
      by_cases star : c = starUnit
      · rw [if_pos star]
        rfl
      by_cases question : c = questionUnit
      · rw [if_neg star, if_pos question]
        rfl
      rw [if_neg star, if_neg question, GlobAtom.plain, decide_eq_true star, decide_eq_true question]
      rfl
  | between => decide
  | middle => decide
  | trailing => decide
  | leading => decide
  | standalone => decide

def piecesAtoms (pieces : List GlobPiece) : List GlobAtom := pieces.flatMap GlobPiece.atoms

theorem regexText_atoms (pieces : List GlobPiece) : regexText pieces = atomsText (piecesAtoms pieces) := by
  rw [regexText, piecesAtoms, atomsText, List.flatMap_assoc]
  congr 1
  funext piece
  exact piece_text piece

theorem piecesAtoms_plain (pieces : List GlobPiece) : ∀ atom ∈ piecesAtoms pieces, atom.plain = true := by
  intro atom listed
  obtain ⟨piece, _, own⟩ := List.mem_flatMap.mp listed
  exact piece_plain piece atom own

-- The path is tested by the atoms of the pattern's segments.
theorem matchesPathGlob_atoms {pattern : Units} (nulfree : nulUnit ∉ pattern) (apart : marksApart (segmentsOf pattern) = true) (filename : Units) :
    matchesPathGlob filename pattern = testAtoms (piecesAtoms (startPieces (segmentsOf pattern))) true (toSlashes filename) := by
  have plain := piecesAtoms_plain (startPieces (segmentsOf pattern))
  rw [matchesPathGlob, regexString_segments nulfree apart, regexText_atoms, readRegex_text _ plain (atoms_length plain)]

end Reading
end PrAgent
