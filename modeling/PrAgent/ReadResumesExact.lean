import PrAgent.ReadResumes
set_option autoImplicit false

namespace PrAgent

section Files

variable {opts : BudgetedReadOptions} {window : FileReadWindowParams}

def WorkspaceFile.text : WorkspaceFile → Text
  | .regular bytes => normalizeTextFileEncoding (readUtf8 bytes)
  | _ => []

-- A read of a file is that of its text, with a note of its own.
theorem budgeted_shape (file : WorkspaceFile) :
    (∃ kind reason, readBudgetedWorkspaceTextFile file opts window = .refused kind reason) ∨
      (opts.spills = true ∧ ∃ content, readBudgetedWorkspaceTextFile file opts window = .spilled content) ∨
        ∃ note, readBudgetedWorkspaceTextFile file opts window =
          .read { readTextWithOutputBudget file.text opts.maxResponseBytes window with note := note } := by
  cases file with
  | missing => exact .inl ⟨_, _, rfl⟩
  | special kind => exact .inl ⟨_, _, rfl⟩
  | regular bytes =>
      rw [readBudgetedWorkspaceTextFile]
      by_cases large : opts.maxFileBytes < bytes.length
      · exact .inl ⟨_, _, if_pos large⟩
      rw [if_neg large]
      simp only
      by_cases binary : (takeUnits binarySampleBytes (normalizeTextFileEncoding (readUtf8 bytes))).contains (Char.ofNat 0) = true
      · exact .inl ⟨_, _, if_pos binary⟩
      rw [if_neg binary]
      by_cases spills : opts.spills = true
      · apply Or.inr
        by_cases spilled : (readTextWithOutputBudget (normalizeTextFileEncoding (readUtf8 bytes)) opts.maxResponseBytes window).truncated = true ∧
            (readTextWithOutputBudget (normalizeTextFileEncoding (readUtf8 bytes)) opts.maxResponseBytes window).truncationReason =
              some responseByteBudgetTruncationReason ∧ opts.spills = true ∧
            shouldSpillToFile (readTextWithOutputBudget (normalizeTextFileEncoding (readUtf8 bytes)) opts.maxResponseBytes window).size
              localWorkspaceReadSpillThresholdBytes = true
        · exact .inl ⟨spills, _, if_pos spilled⟩
        · exact .inr ⟨_, if_neg spilled⟩
      · exact .inr (.inr ⟨_, if_neg fun spilled => spills spilled.2.2.1⟩)

theorem budgeted_read {file : WorkspaceFile} {output : FileReadOutput} (done : readBudgetedWorkspaceTextFile file opts window = .read output) :
    ∃ note, output = { readTextWithOutputBudget file.text opts.maxResponseBytes window with note := note } := by
  rcases @budgeted_shape opts window file with ⟨kind, reason, refused⟩ | ⟨_, content, spilled⟩ | ⟨note, made⟩
  · rw [done] at refused
    cases refused
  · rw [done] at spilled
    cases spilled
  · rw [done] at made
    cases made
    exact ⟨note, rfl⟩

theorem budgeted_stop {file : WorkspaceFile} {content : Text} (done : readBudgetedWorkspaceTextFile file opts window = .spilled content) :
    opts.spills = true := by
  rcases @budgeted_shape opts window file with ⟨kind, reason, refused⟩ | ⟨spills, _⟩ | ⟨note, made⟩
  · rw [done] at refused
    cases refused
  · exact spills
  · rw [done] at made
    cases made

theorem readStep_note {lines : List Text} {start : Nat} {output : FileReadOutput} (step : ReadStep lines start output) (note : Option Text) :
    ReadStep lines start { output with note := note } := ⟨step.ended, step.resumed⟩

end Files

section Claims

-- `maxLines` is at least one, as the tools have it, and a budget has room for two lines of the largest size that is not clamped.
theorem resumed_reads_cover {window : FileReadWindowParams} {maxBytes : Nat} (promised : window.promised) (budget : 2 * maxLineBytes ≤ maxBytes) :
    (∀ value : Text, unitLength value < 2 ^ 53 →
      ∃ pieces, followReads (fun window => .read (readTextWithOutputBudget value maxBytes window)) ((fileLines value).length + 2) window =
          some (pieces, none) ∧ Resumed (fileLines value) (firstLine window) pieces none) ∧
      ∀ (file : WorkspaceFile) (opts : BudgetedReadOptions), opts.maxResponseBytes = maxBytes → unitLength file.text < 2 ^ 53 →
        ∃ pieces stop, followReads (readBudgetedWorkspaceTextFile file opts) ((fileLines file.text).length + 2) window = some (pieces, stop) ∧
          Resumed (fileLines file.text) (firstLine window) pieces stop ∧
          ∀ result, stop = some result → (∃ kind reason, result = .refused kind reason) ∨ opts.spills = true ∧ ∃ content, result = .spilled content := by
  constructor
  · intro value bounded
    have steps (window : FileReadWindowParams) (output : FileReadOutput) (promised : window.promised)
        (done : BudgetedRead.read (readTextWithOutputBudget value maxBytes window) = .read output) :
        ReadStep (fileLines value) (firstLine window) output := by
      cases done
      exact readText_step bounded budget promised
    obtain ⟨pieces, stop, followed, resumed, stopped⟩ := followReads_resumed steps ((fileLines value).length + 2) window promised (by omega)
    cases stop with
    | none => exact ⟨pieces, followed, resumed⟩
    | some result =>
        obtain ⟨other, same, unread⟩ := stopped result rfl
        exact absurd same.symm (unread _)
  · intro file opts same bounded
    have steps (window : FileReadWindowParams) (output : FileReadOutput) (promised : window.promised)
        (done : readBudgetedWorkspaceTextFile file opts window = .read output) : ReadStep (fileLines file.text) (firstLine window) output := by
      obtain ⟨note, made⟩ := budgeted_read done
      rw [made, same]
      exact readStep_note (readText_step bounded budget promised) note
    obtain ⟨pieces, stop, followed, resumed, stopped⟩ :=
      followReads_resumed steps ((fileLines file.text).length + 2) window promised (by omega)
    refine ⟨pieces, stop, followed, resumed, ?_⟩
    intro result ended
    obtain ⟨other, done, unread⟩ := stopped result ended
    cases result with
    | refused kind reason => exact .inl ⟨kind, reason, rfl⟩
    | spilled content => exact .inr ⟨budgeted_stop done, content, rfl⟩
    | read output => exact absurd rfl (unread output)

-- Two lines, read one at a time.
theorem two_lines_resumed :
    ∃ pieces, followReads (fun window => .read (readTextWithOutputBudget (text "a\nb\n") 12000 window)) 4 ⟨none, some 1⟩ = some (pieces, none) ∧
      Resumed (fileLines (text "a\nb\n")) 1 pieces none := by
  have promised : FileReadWindowParams.promised ⟨none, some 1⟩ := by
    intro maxLines same
    cases same
    exact Nat.le_refl 1
  exact (resumed_reads_cover promised (Nat.le_refl 12000)).1 (text "a\nb\n") (by decide)

-- A window without lines resumes where it starts.
theorem empty_window_stays :
    ¬∀ (value : Text) (maxBytes : Nat) (window : FileReadWindowParams), 2 * maxLineBytes ≤ maxBytes →
      ∀ next, (readTextWithOutputBudget value maxBytes window).resumeStartLine = some next →
        (readTextWithOutputBudget value maxBytes window).startLine < next := by
  intro claimed
  have resumes : (readTextWithOutputBudget (text "a\nb\n") 12000 ⟨some 1, some 0⟩).resumeStartLine = some 1 := by decide +kernel
  have starts : ¬(readTextWithOutputBudget (text "a\nb\n") 12000 ⟨some 1, some 0⟩).startLine < 1 := by decide +kernel
  exact starts (claimed _ _ _ (Nat.le_refl 12000) 1 resumes)

end Claims
end PrAgent
