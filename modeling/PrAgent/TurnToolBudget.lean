import PrAgent.CiSummaryCell
set_option autoImplicit false

namespace PrAgent

section Budget

structure TurnToolOptions where
  maxToolRounds : Option Nat
  reservedTerminalTool : Option Text

structure BudgetToolResult where
  toolName : Text
  isError : Bool

structure TurnToolBudget where
  investigationTurnCount : Nat
  reservedTerminalSuccessCount : Nat
  reservedTerminalAttemptCount : Nat
  toolBudgetStopped : Bool

def TurnToolBudget.fresh : TurnToolBudget := ⟨0, 0, 0, false⟩

variable (opts : TurnToolOptions)

def turnContainsReservedTool (toolResults : List BudgetToolResult) : Bool :=
  match opts.reservedTerminalTool with
  | none => false
  | some reserved => toolResults.any fun result => result.toolName = reserved

def isSuccessfulReservedTurn (toolResults : List BudgetToolResult) : Bool :=
  match opts.reservedTerminalTool with
  | none => false
  | some reserved => toolResults.any fun result => result.toolName = reserved && !result.isError

-- Whether the turn ends the run.
def finishTurn (budget : TurnToolBudget) (toolResults : List BudgetToolResult) : Bool :=
  match opts.maxToolRounds with
  | none => false
  | some maxToolRounds =>
    if toolResults = [] then false
    else if isSuccessfulReservedTurn opts toolResults then true
    else if turnContainsReservedTool opts toolResults then
      0 < budget.reservedTerminalSuccessCount || 2 ≤ budget.reservedTerminalAttemptCount + 1
    else if budget.toolBudgetStopped || maxToolRounds ≤ budget.investigationTurnCount + 1 then
      !(opts.reservedTerminalTool.isSome && budget.reservedTerminalSuccessCount = 0 && budget.investigationTurnCount < maxToolRounds)
    else false

-- The reason for which a call is blocked.
def beforeToolCall (budget : TurnToolBudget) (toolName : Text) : Option Text :=
  match opts.maxToolRounds, opts.reservedTerminalTool with
  | some maxToolRounds, some reserved =>
    if toolName = reserved then
      if 0 < budget.reservedTerminalSuccessCount then
        some (text "Reserved terminal " ++ reserved ++ text " already used this turn.")
      else if 2 ≤ budget.reservedTerminalAttemptCount then
        some (text "Reserved terminal " ++ reserved ++ text " attempt budget exhausted.")
      else none
    else if maxToolRounds ≤ budget.investigationTurnCount then
      some (text "Tool budget exhausted: only " ++ reserved ++ text " is allowed.")
    else none
  | _, _ => none

def hasNonReserved (toolResults : List BudgetToolResult) : Bool :=
  match opts.reservedTerminalTool with
  | none => false
  | some reserved => toolResults.any fun result => result.toolName ≠ reserved

def TurnToolBudget.countMixed (budget : TurnToolBudget) (toolResults : List BudgetToolResult) : TurnToolBudget :=
  if hasNonReserved opts toolResults then { budget with investigationTurnCount := budget.investigationTurnCount + 1 } else budget

def observeTurn (budget : TurnToolBudget) (toolResults : List BudgetToolResult) : TurnToolBudget :=
  if toolResults = [] then budget
  else if isSuccessfulReservedTurn opts toolResults then
    { budget with
      reservedTerminalAttemptCount := budget.reservedTerminalAttemptCount + 1
      reservedTerminalSuccessCount := budget.reservedTerminalSuccessCount + 1 }.countMixed opts toolResults
  else if turnContainsReservedTool opts toolResults then
    let counted := { budget with reservedTerminalAttemptCount := budget.reservedTerminalAttemptCount + 1 }.countMixed opts toolResults
    { counted with
      toolBudgetStopped := budget.toolBudgetStopped ||
        (opts.maxToolRounds.isSome && (0 < counted.reservedTerminalSuccessCount || 2 ≤ counted.reservedTerminalAttemptCount)) }
  else
    let investigated := budget.investigationTurnCount + 1
    { budget with
      investigationTurnCount := investigated
      toolBudgetStopped := budget.toolBudgetStopped ||
        opts.maxToolRounds.any fun maxToolRounds => maxToolRounds ≤ investigated &&
          (opts.reservedTerminalTool.isNone || 0 < budget.reservedTerminalSuccessCount || maxToolRounds < investigated) }

end Budget

section Session

-- A call of the model, and whether its tool fails when it is not blocked.
structure ModelToolCall where
  toolName : Text
  fails : Bool

structure BudgetedSession where
  budget : TurnToolBudget
  toolTurns : Nat
  ended : Bool

def BudgetedSession.start : BudgetedSession := ⟨.fresh, 0, false⟩

variable (opts : TurnToolOptions)

-- A blocked call has an error for its result.
def callResult (budget : TurnToolBudget) (call : ModelToolCall) : BudgetToolResult :=
  ⟨call.toolName, (beforeToolCall opts budget call.toolName).isSome || call.fails⟩

-- A turn of the model; `finishTurn` decides before `observeTurn` counts. A turn without calls, also one that a provider error cut off,
-- leaves the budget as it is, and the session may go on after it.
def sessionTurn (session : BudgetedSession) (calls : List ModelToolCall) : Option BudgetedSession :=
  if session.ended then none
  else
    let toolResults := calls.map (callResult opts session.budget)
    some
      { budget := observeTurn opts session.budget toolResults
        toolTurns := if toolResults = [] then session.toolTurns else session.toolTurns + 1
        ended := finishTurn opts session.budget toolResults }

abbrev SessionRun : BudgetedSession → BudgetedSession → Prop := Reaches (sessionTurn opts) fun _ _ => True

end Session

section Runs

variable {opts : TurnToolOptions} {max : Nat} {session next : BudgetedSession} {calls : List ModelToolCall}

-- What holds of a run that the budget has not ended.
structure Underway (max : Nat) (session : BudgetedSession) : Prop where
  success : session.budget.reservedTerminalSuccessCount = 0
  attempts : session.budget.reservedTerminalAttemptCount ≤ 1
  stopped : session.budget.toolBudgetStopped = false
  turns : session.toolTurns ≤ min session.budget.investigationTurnCount max + session.budget.reservedTerminalAttemptCount

structure SessionOk (max : Nat) (session : BudgetedSession) : Prop where
  underway : session.ended = false → Underway max session
  bound : session.toolTurns ≤ max + 2

theorem Underway.bound (underway : Underway max session) : session.toolTurns ≤ max + 1 := by
  have turns := underway.turns
  have attempts := underway.attempts
  omega

theorem sessionOk_start (max : Nat) : SessionOk max .start := by
  constructor
  · intro _
    constructor <;> simp [BudgetedSession.start, TurnToolBudget.fresh]
  · exact Nat.zero_le _

variable (opts) in
theorem countMixed_counts (budget : TurnToolBudget) (toolResults : List BudgetToolResult) :
    (budget.countMixed opts toolResults).reservedTerminalSuccessCount = budget.reservedTerminalSuccessCount ∧
      (budget.countMixed opts toolResults).reservedTerminalAttemptCount = budget.reservedTerminalAttemptCount ∧
      budget.investigationTurnCount ≤ (budget.countMixed opts toolResults).investigationTurnCount := by
  rw [TurnToolBudget.countMixed]
  by_cases mixed : hasNonReserved opts toolResults = true
  · rw [if_pos mixed]
    exact ⟨rfl, rfl, Nat.le_succ _⟩
  · rw [if_neg mixed]
    exact ⟨rfl, rfl, Nat.le_refl _⟩

-- A turn that does not end the run: it had no results, or a failed attempt of the terminal tool, or it was an investigation.
theorem turn_underway (limited : opts.maxToolRounds = some max) (underway : Underway max session)
    {toolResults : List BudgetToolResult} (filled : toolResults ≠ [])
    (goes : finishTurn opts session.budget toolResults = false) :
    Underway max ⟨observeTurn opts session.budget toolResults, session.toolTurns + 1, false⟩ := by
  have turns := underway.turns
  have attempts := underway.attempts
  rw [finishTurn, limited] at goes
  simp only [if_neg filled] at goes
  rw [observeTurn, if_neg filled]
  by_cases success : isSuccessfulReservedTurn opts toolResults = true
  · rw [if_pos success] at goes
    cases goes
  rw [if_neg success] at goes ⊢
  by_cases reserved : turnContainsReservedTool opts toolResults = true
  · rw [if_pos reserved] at goes ⊢
    simp only [Bool.or_eq_false_iff, decide_eq_false_iff_not] at goes
    obtain ⟨none_used, first⟩ := goes
    obtain ⟨successes, attempts', investigated⟩ := countMixed_counts opts
      { session.budget with reservedTerminalAttemptCount := session.budget.reservedTerminalAttemptCount + 1 } toolResults
    generalize TurnToolBudget.countMixed opts _ toolResults = counted at successes attempts' investigated ⊢
    simp only at successes attempts' investigated
    constructor
    · exact successes.trans underway.success
    · simp only [attempts']
      omega
    · simp only [successes, attempts', underway.stopped, decide_eq_false none_used, decide_eq_false first, Bool.or_false, Bool.and_false]
    · simp only [attempts']
      omega
  · rw [if_neg reserved] at goes ⊢
    rw [underway.stopped, underway.success, Bool.false_or] at goes
    have room : session.budget.investigationTurnCount < max ∧
        (max ≤ session.budget.investigationTurnCount + 1 → opts.reservedTerminalTool.isSome = true) := by
      by_cases last : max ≤ session.budget.investigationTurnCount + 1
      · rw [if_pos (decide_eq_true last)] at goes
        simp only [Bool.not_eq_false', Bool.and_eq_true, decide_eq_true_iff] at goes
        exact ⟨goes.2, fun _ => goes.1.1⟩
      · exact ⟨by omega, fun late => absurd late last⟩
    obtain ⟨less, offered⟩ := room
    constructor
    · exact underway.success
    · exact attempts
    · simp only [underway.stopped, underway.success, limited, Bool.false_or, Option.any_some, Nat.lt_irrefl, decide_false, Bool.or_false]
      by_cases last : max ≤ session.budget.investigationTurnCount + 1
      · have some_offered := offered last
        have not_past : ¬max < session.budget.investigationTurnCount + 1 := by omega
        rw [decide_eq_false not_past, Bool.or_false, Option.isNone_eq_false_iff.mpr some_offered, Bool.and_false]
      · rw [decide_eq_false last, Bool.false_and]
    · simp only
      omega

theorem session_step (limited : opts.maxToolRounds = some max) (ok : SessionOk max session)
    (moved : sessionTurn opts session calls = some next) : SessionOk max next := by
  obtain ⟨runs, made⟩ := Option.ite_none_left_eq_some.mp moved
  cases made
  have live : session.ended = false := by simpa using runs
  have underway := ok.underway live
  by_cases empty : calls.map (callResult opts session.budget) = []
  · rw [empty]
    constructor
    · intro _
      exact ⟨underway.success, underway.attempts, underway.stopped, underway.turns⟩
    · exact ok.bound
  · constructor
    · intro goes
      simp only [if_neg empty]
      have later := turn_underway limited underway empty goes
      exact ⟨later.success, later.attempts, later.stopped, later.turns⟩
    · simp only [if_neg empty]
      exact Nat.succ_le_succ underway.bound

theorem sessionOk_run (limited : opts.maxToolRounds = some max) (reached : SessionRun opts .start session) : SessionOk max session :=
  reached.invariant (SessionOk max) (sessionOk_start max) fun _ _ _ ok _ moved => session_step limited ok moved

theorem Underway.offers (underway : Underway max session) {terminal : Text} (reserved : opts.reservedTerminalTool = some terminal) :
    beforeToolCall opts session.budget terminal = none := by
  have attempts := underway.attempts
  have unused : ¬0 < session.budget.reservedTerminalSuccessCount := by
    rw [underway.success]
    exact Nat.lt_irrefl 0
  have room : ¬2 ≤ session.budget.reservedTerminalAttemptCount := by omega
  rw [beforeToolCall, reserved]
  cases opts.maxToolRounds with
  | none => rfl
  | some rounds =>
      simp only [if_true]
      rw [if_neg unused, if_neg room]

-- A run is ended by a turn without the terminal tool only when nothing else was allowed in it.
theorem Underway.last_chance (limited : opts.maxToolRounds = some max) (underway : Underway max session) {terminal : Text}
    (reserved : opts.reservedTerminalTool = some terminal) (moved : sessionTurn opts session calls = some next)
    (ends : next.ended = true) (others : ∀ call ∈ calls, call.toolName ≠ terminal) {toolName : Text} (other : toolName ≠ terminal) :
    (beforeToolCall opts session.budget toolName).isSome = true := by
  obtain ⟨_, made⟩ := Option.ite_none_left_eq_some.mp moved
  cases made
  have absent : turnContainsReservedTool opts (calls.map (callResult opts session.budget)) = false := by
    rw [turnContainsReservedTool, reserved]
    simp only [List.any_map, List.any_eq_false]
    intro call inside same
    exact others call inside (of_decide_eq_true same)
  have unsuccessful : isSuccessfulReservedTurn opts (calls.map (callResult opts session.budget)) = false := by
    rw [isSuccessfulReservedTurn, reserved]
    simp only [List.any_map, List.any_eq_false]
    intro call inside same
    rw [Function.comp_apply, Bool.and_eq_true] at same
    exact others call inside (of_decide_eq_true same.1)
  have spent : max ≤ session.budget.investigationTurnCount := by
    simp only [finishTurn, limited, absent, unsuccessful, reserved, underway.success, underway.stopped] at ends
    by_contra less
    simp [Nat.lt_of_not_le less] at ends
  rw [beforeToolCall, limited, reserved]
  simp only
  rw [if_neg other, if_pos spent]
  rfl

theorem last_turn (reached : SessionRun opts .start session) (ended : session.ended = true) :
    ∃ before calls, SessionRun opts .start before ∧ sessionTurn opts before calls = some session := by
  cases reached with
  | start => cases ended
  | next before _ moved => exact ⟨_, _, before, moved⟩

-- No more turns with tool calls than the rounds and two attempts; the terminal tool is allowed in each of them.
theorem tool_budget_ends (opts : TurnToolOptions) (max : Nat) (limited : opts.maxToolRounds = some max) (session : BudgetedSession)
    (reached : SessionRun opts .start session) :
    session.toolTurns ≤ max + 2 ∧ (session.toolTurns = max + 2 → session.ended = true) ∧
      ∀ terminal, opts.reservedTerminalTool = some terminal →
        (session.ended = false → beforeToolCall opts session.budget terminal = none) ∧
        (session.ended = true → ∃ before calls, SessionRun opts .start before ∧ sessionTurn opts before calls = some session ∧
          beforeToolCall opts before.budget terminal = none ∧
          ((∀ call ∈ calls, call.toolName ≠ terminal) →
            ∀ toolName, toolName ≠ terminal → (beforeToolCall opts before.budget toolName).isSome = true)) := by
  have ok := sessionOk_run limited reached
  refine ⟨ok.bound, ?_, ?_⟩
  · intro full
    by_contra live
    have bound := (ok.underway (by simpa using live)).bound
    omega
  · intro terminal reserved
    constructor
    · intro live
      exact (ok.underway live).offers reserved
    · intro ended
      obtain ⟨before, calls, earlier, moved⟩ := last_turn reached ended
      obtain ⟨runs, _⟩ := Option.ite_none_left_eq_some.mp moved
      have underway := (sessionOk_run limited earlier).underway (by simpa using runs)
      exact ⟨before, calls, earlier, moved, underway.offers reserved,
        fun others toolName other => underway.last_chance limited reserved moved ended others other⟩

end Runs

section Examples

def oneRound : TurnToolOptions := ⟨some 1, some (text "publish_thread")⟩

-- An investigation and two failed attempts.
def failedAttempts : List (List ModelToolCall) :=
  [[⟨text "execute", false⟩], [⟨text "publish_thread", true⟩, ⟨text "execute", false⟩], [⟨text "publish_thread", true⟩]]

def afterAttempts : BudgetedSession := runTo (sessionTurn oneRound) (fun _ _ => decide True) failedAttempts .start .start

theorem failed_attempts_end : afterAttempts.toolTurns = 3 ∧ afterAttempts.ended = true := by
  have reached : SessionRun oneRound .start afterAttempts := reaches_runTo _ _ _ (by decide +kernel)
  have turns : afterAttempts.toolTurns = 3 := by decide +kernel
  exact ⟨turns, (tool_budget_ends oneRound 1 rfl afterAttempts reached).2.1 turns⟩

end Examples
end PrAgent
