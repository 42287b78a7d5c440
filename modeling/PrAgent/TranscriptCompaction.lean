import PrAgent.InlineThreadBody
import PrAgent.JsonSize
set_option autoImplicit false

namespace PrAgent

section Messages

-- `argumentsText` is what `safeJsonStringify` gives for the arguments.
inductive ContentBlock where
  | text (content : Text)
  | image
  | thinking (content : Text)
  | toolCall (id name argumentsText : Text)
  deriving DecidableEq

inductive MessageContent where
  | plain (content : Text)
  | blocks (blocks : List ContentBlock)
  deriving DecidableEq

inductive StopReason where
  | stop
  | length
  | toolUse
  | error
  | aborted
  deriving DecidableEq

structure Usage where
  totalTokens : Nat
  input : Nat
  output : Nat
  cacheRead : Nat
  cacheWrite : Nat
  deriving DecidableEq

inductive AgentMessage where
  | system (content : MessageContent)
  | user (content : MessageContent)
  | assistant (content : List ContentBlock) (stopReason : StopReason) (usage : Option Usage)
  | toolResult (toolCallId toolName : Text) (content : List ContentBlock)
  deriving DecidableEq

def AgentMessage.isSystem : AgentMessage → Bool
  | .system _ => true
  | _ => false

def AgentMessage.isToolResult : AgentMessage → Bool
  | .toolResult _ _ _ => true
  | _ => false

end Messages

section Estimates

def compactionReserveTokens : Nat := 16384

def compactionKeepRecentTokens : Nat := 20000

def estimatedImageChars : Nat := 4800

def ContentBlock.textAndImageChars : ContentBlock → Nat
  | .text content => unitLength content
  | .image => estimatedImageChars
  | _ => 0

def estimateTextAndImageChars : MessageContent → Nat
  | .plain content => unitLength content
  | .blocks blocks => (blocks.map ContentBlock.textAndImageChars).sum

def ContentBlock.assistantChars : ContentBlock → Nat
  | .text content => unitLength content
  | .thinking content => unitLength content
  | .toolCall _ name argumentsText => unitLength name + unitLength argumentsText
  | .image => 0

-- `Math.ceil(chars / 4)`.
def quarter (chars : Nat) : Nat := (chars + 3) / 4

def estimateTokens : AgentMessage → Nat
  | .system _ => 0
  | .user content => quarter (estimateTextAndImageChars content)
  | .assistant content _ _ => quarter (content.map ContentBlock.assistantChars).sum
  | .toolResult _ _ content => quarter (estimateTextAndImageChars (.blocks content))

def contextTokens (usage : Usage) : Nat :=
  if usage.totalTokens = 0 then usage.input + usage.output + usage.cacheRead + usage.cacheWrite else usage.totalTokens

def assistantUsage : AgentMessage → Option Usage
  | .assistant _ stopReason usage =>
    if stopReason = .aborted ∨ stopReason = .error then none else usage.filter fun usage => 0 < contextTokens usage
  | _ => none

def tokensOf (messages : List AgentMessage) : Nat := (messages.map estimateTokens).sum

-- The last reported usage, and the messages after it.
def estimateContextTokens (messages : List AgentMessage) : Nat :=
  match messages.reverse.findIdx? fun message => (assistantUsage message).isSome with
  | none => tokensOf messages
  | some back =>
    let trailing := tokensOf (messages.reverse.take back)
    (((messages.reverse[back]?).bind assistantUsage).map contextTokens).getD 0 + trailing

def contextNeedsCompaction (tokens contextWindow : Nat) : Bool := contextWindow < tokens + compactionReserveTokens

end Estimates

section Cut

-- The walk back over the messages before `index`, with the tokens of those from it on.
def budgetIndex (messages : List AgentMessage) (keepRecentTokens : Nat) : Nat → Nat → Nat
  | 0, _ => 0
  | index + 1, tokens =>
    match messages[index]? with
    | none => index + 1
    | some previous =>
      let nextTokens := tokens + estimateTokens previous
      if 0 < tokens ∧ keepRecentTokens < nextTokens then index + 1 else budgetIndex messages keepRecentTokens index nextTokens

-- Back to the message before a run of tool results.
def boundaryIndex (messages : List AgentMessage) : Nat → Nat
  | 0 => 0
  | index + 1 =>
    match messages[index + 1]? with
    | none => index + 1
    | some current => if current.isToolResult then boundaryIndex messages index else index + 1

def findSafeCutIndex (messages : List AgentMessage) (keepRecentTokens : Nat) : Nat :=
  if messages.length = 0 then 0 else boundaryIndex messages (budgetIndex messages keepRecentTokens messages.length 0)

end Cut

section Compaction

structure CompactionModel where
  api : Text
  forceAdaptiveThinking : Option Bool
  contextWindow : Nat

-- `content` is the text of the reply.
structure SummaryReply where
  stopReason : StopReason
  content : Text

-- `contentText` joins the text of blocks, and `respond` is what the model answers, or `none` when the call throws.
variable (contentText : List ContentBlock → Text) (respond : Text → Option SummaryReply)

def serializeMessage : AgentMessage → Option Text
  | .user (.plain content) => some (text "User: " ++ content)
  | .user (.blocks blocks) => some (text "User: " ++ contentText blocks)
  | .assistant content _ _ => if contentText content = [] then none else some (text "Assistant: " ++ contentText content)
  | .toolResult _ toolName content => some (text "Tool " ++ toolName ++ text ": " ++ contentText content)
  | .system _ => none

def serializeForSummary (messages : List AgentMessage) : Text := CommentMarkers.joinLines (messages.filterMap (serializeMessage contentText))

-- `respond` renders the prompt around the conversation.
def summarizeMessages (messages : List AgentMessage) : Option Text :=
  let conversationText := serializeForSummary contentText messages
  if conversationText = [] then none
  else
    (respond conversationText).bind fun response =>
      if response.stopReason = .error ∨ response.stopReason = .aborted then none
      else if trim response.content = [] then none
      else some (trim response.content)

def thinkingBoundToPrefix (model : CompactionModel) : Bool :=
  model.api = text "anthropic-messages" ∧ model.forceAdaptiveThinking = some true

def ContentBlock.isThinking : ContentBlock → Bool
  | .thinking _ => true
  | _ => false

def withoutThinking : AgentMessage → AgentMessage
  | .assistant content stopReason usage => .assistant (content.filter fun part => !part.isThinking) stopReason usage
  | message => message

def compactionSummaryPrefix : Text :=
  text "The conversation history before this point was compacted into the following summary:\n\n<summary>\n"

def compactionSummarySuffix : Text := text "\n</summary>"

def summaryMessage (summary : Text) : AgentMessage := .user (.plain ( compactionSummaryPrefix ++ summary ++ compactionSummarySuffix))

def retainedMessages (model : CompactionModel) (messages : List AgentMessage) : List AgentMessage :=
  if thinkingBoundToPrefix model then messages.map withoutThinking else messages

-- `compactAgentMessages` for any number of tokens to keep.
def compactKeeping (keepRecentTokens : Nat) (model : CompactionModel) (messages : List AgentMessage) : Option (List AgentMessage) :=
  let leadingSystem := messages.takeWhile AgentMessage.isSystem
  let rest := messages.drop leadingSystem.length
  let cut := findSafeCutIndex rest keepRecentTokens
  if cut = 0 then none
  else
    (summarizeMessages contentText respond (rest.take cut)).map fun summary =>
      leadingSystem ++ summaryMessage summary :: retainedMessages model (rest.drop cut)

def compactAgentMessages (model : CompactionModel) (messages : List AgentMessage) : Option (List AgentMessage) :=
  compactKeeping contentText respond compactionKeepRecentTokens model messages

def compactIfNeeded (model : CompactionModel) (messages : List AgentMessage) : Option (List AgentMessage) :=
  if contextNeedsCompaction (estimateContextTokens messages) model.contextWindow then compactAgentMessages contentText respond model messages
  else none

end Compaction

section Cutting

variable {messages : List AgentMessage} {keepRecentTokens : Nat}

theorem tokens_drop {index : Nat} {message : AgentMessage} (here : messages[index]? = some message) :
    tokensOf (messages.drop index) = estimateTokens message + tokensOf (messages.drop (index + 1)) := by
  obtain ⟨inside, rfl⟩ := List.getElem?_eq_some_iff.mp here
  rw [List.drop_eq_getElem_cons inside, tokensOf, List.map_cons, List.sum_cons]
  rfl

variable (messages keepRecentTokens) in
-- From here on the messages are within the budget, or only the first of them has tokens.
def Fits (index : Nat) : Prop :=
  tokensOf (messages.drop index) ≤ keepRecentTokens ∨ tokensOf (messages.drop (index + 1)) = 0

variable (keepRecentTokens) in
theorem budgetIndex_fits (index : Nat) (inside : index ≤ messages.length) (fits : Fits messages keepRecentTokens index) :
    budgetIndex messages keepRecentTokens index (tokensOf (messages.drop index)) ≤ index ∧
      Fits messages keepRecentTokens (budgetIndex messages keepRecentTokens index (tokensOf (messages.drop index))) := by
  induction index with
  | zero => exact ⟨Nat.le_refl 0, fits⟩
  | succ index ih =>
      have listed : index < messages.length := inside
      have here : messages[index]? = some messages[index] := List.getElem?_eq_getElem listed
      have total := tokens_drop here
      rw [budgetIndex, here]
      simp only
      by_cases stops : 0 < tokensOf (messages.drop (index + 1)) ∧
          keepRecentTokens < tokensOf (messages.drop (index + 1)) + estimateTokens messages[index]
      · rw [if_pos stops]
        exact ⟨Nat.le_refl _, fits⟩
      · rw [if_neg stops]
        have next : Fits messages keepRecentTokens index := by
          rw [Fits, total]
          omega
        rw [Nat.add_comm (tokensOf _) (estimateTokens _), ← total]
        obtain ⟨less, found⟩ := ih (Nat.le_of_lt listed) next
        exact ⟨Nat.le_succ_of_le less, found⟩

variable (keepRecentTokens) in
-- The last message is always within what is kept.
theorem budgetIndex_lt (filled : 0 < messages.length) :
    budgetIndex messages keepRecentTokens messages.length 0 < messages.length ∧
      Fits messages keepRecentTokens (budgetIndex messages keepRecentTokens messages.length 0) := by
  obtain ⟨last, length⟩ : ∃ last, messages.length = last + 1 := ⟨messages.length - 1, by omega⟩
  have listed : last < messages.length := by omega
  have here : messages[last]? = some messages[last] := List.getElem?_eq_getElem listed
  have total := tokens_drop here
  have none_after : tokensOf (messages.drop (last + 1)) = 0 := by
    rw [List.drop_eq_nil_of_le (Nat.le_of_eq length)]
    rfl
  rw [length, budgetIndex, here]
  simp only [Nat.lt_irrefl, false_and, if_false, Nat.zero_add]
  rw [none_after, Nat.add_zero] at total
  rw [← total]
  obtain ⟨less, found⟩ := budgetIndex_fits keepRecentTokens last (Nat.le_of_lt listed) (.inr none_after)
  exact ⟨Nat.lt_succ_of_le less, found⟩

-- Between the boundary and the index there are only tool results.
theorem boundaryIndex_spec (index : Nat) (inside : index < messages.length) :
    boundaryIndex messages index ≤ index ∧
      (boundaryIndex messages index ≠ 0 → ∃ first, messages[boundaryIndex messages index]? = some first ∧ first.isToolResult = false) ∧
      ∀ between, boundaryIndex messages index < between → between ≤ index →
        ∃ result, messages[between]? = some result ∧ result.isToolResult = true := by
  induction index with
  | zero =>
      refine ⟨Nat.le_refl 0, fun cut => absurd rfl cut, ?_⟩
      intro between after before
      have := Nat.lt_of_lt_of_le after before
      exact absurd this (Nat.lt_irrefl _)
  | succ index ih =>
      have here : messages[index + 1]? = some messages[index + 1] := List.getElem?_eq_getElem inside
      rw [boundaryIndex, here]
      simp only
      by_cases result : messages[index + 1].isToolResult = true
      · rw [if_pos result]
        obtain ⟨less, first, results⟩ := ih (Nat.lt_of_succ_lt inside)
        refine ⟨Nat.le_succ_of_le less, first, ?_⟩
        intro between after before
        by_cases last : between = index + 1
        · subst last
          exact ⟨messages[index + 1], here, result⟩
        · exact results between after (by omega)
      · rw [if_neg result]
        refine ⟨Nat.le_refl _, fun _ => ⟨messages[index + 1], here, by simpa using result⟩, ?_⟩
        intro between after before
        omega

variable (messages keepRecentTokens) in
-- The boundary that the budget chose, and the cut before the turn it falls in.
structure CutAt (cut index : Nat) : Prop where
  before : cut ≤ index
  inside : index < messages.length
  fits : Fits messages keepRecentTokens index
  first : ∃ first, messages[cut]? = some first ∧ first.isToolResult = false
  results : ∀ between, cut < between → between ≤ index → ∃ result, messages[between]? = some result ∧ result.isToolResult = true

theorem findSafeCutIndex_spec (cuts : findSafeCutIndex messages keepRecentTokens ≠ 0) :
    ∃ index, CutAt messages keepRecentTokens (findSafeCutIndex messages keepRecentTokens) index := by
  by_cases empty : messages.length = 0
  · rw [findSafeCutIndex, if_pos empty] at cuts
    exact absurd rfl cuts
  · rw [findSafeCutIndex, if_neg empty] at cuts ⊢
    obtain ⟨less, fits⟩ := budgetIndex_lt keepRecentTokens (Nat.pos_of_ne_zero empty)
    obtain ⟨before, first, results⟩ := boundaryIndex_spec _ less
    exact ⟨_, before, less, fits, first cuts, results⟩

theorem tokens_suffix {later all : List AgentMessage} (suffix : later <:+ all) : tokensOf later ≤ tokensOf all := by
  obtain ⟨before, rfl⟩ := suffix
  rw [tokensOf, tokensOf, List.map_append, List.sum_append]
  exact Nat.le_add_left _ _

-- What follows the first turn: a message and the tool results after it.
def afterFirstTurn (messages : List AgentMessage) : List AgentMessage := messages.tail.dropWhile AgentMessage.isToolResult

theorem dropWhile_results {low : Nat} (index : Nat) (start : low ≤ index + 1)
    (results : ∀ between, low ≤ between → between ≤ index → ∃ result, messages[between]? = some result ∧ result.isToolResult = true) :
    (messages.drop low).dropWhile AgentMessage.isToolResult = (messages.drop (index + 1)).dropWhile AgentMessage.isToolResult := by
  obtain ⟨more, length⟩ := Nat.exists_eq_add_of_le start
  induction more generalizing low with
  | zero => rw [length, Nat.add_zero]
  | succ more ih =>
      obtain ⟨result, here, tool⟩ := results low (Nat.le_refl _) (by omega)
      obtain ⟨inside, rfl⟩ := List.getElem?_eq_some_iff.mp here
      rw [List.drop_eq_getElem_cons inside, List.dropWhile_cons_of_pos tool]
      exact ih (by omega) (fun between after before => results between (by omega) before) (by omega)

theorem CutAt.first_turn {cut index : Nat} (chosen : CutAt messages keepRecentTokens cut index) :
    tokensOf (afterFirstTurn (messages.drop cut)) ≤ keepRecentTokens := by
  have before := chosen.before
  rw [afterFirstTurn, List.tail_drop, dropWhile_results index (by omega) chosen.results]
  have short := tokens_suffix (List.dropWhile_suffix (l := messages.drop (index + 1)) AgentMessage.isToolResult)
  have total := tokens_drop (List.getElem?_eq_getElem chosen.inside)
  cases chosen.fits with
  | inl fits => omega
  | inr none_after => omega

end Cutting

section WellFormed

def ContentBlock.callId : ContentBlock → Option Text
  | .toolCall id _ _ => some id
  | _ => none

-- Each tool result follows the message with its call, with other results in between at most.
def resultsFollow : List Text → List AgentMessage → Bool
  | _, [] => true
  | calls, .toolResult toolCallId _ _ :: rest => toolCallId ∈ calls && resultsFollow calls rest
  | _, .assistant content _ _ :: rest => resultsFollow (content.filterMap ContentBlock.callId) rest
  | _, .user _ :: rest => resultsFollow [] rest
  | _, .system _ :: rest => resultsFollow [] rest

def WellFormed (messages : List AgentMessage) : Prop := resultsFollow [] messages = true

variable {messages : List AgentMessage}

theorem resultsFollow_first (calls : List Text) {first : AgentMessage} (other : first.isToolResult = false) (rest : List AgentMessage) :
    resultsFollow calls (first :: rest) = resultsFollow [] (first :: rest) := by
  cases first with
  | system content => rfl
  | user content => rfl
  | assistant content stopReason usage => rfl
  | toolResult toolCallId toolName content => cases other

theorem resultsFollow_after (calls : List Text) (before : List AgentMessage) {first : AgentMessage} (other : first.isToolResult = false)
    (rest : List AgentMessage) (follow : resultsFollow calls (before ++ first :: rest) = true) : WellFormed (first :: rest) := by
  induction before generalizing calls with
  | nil => exact (resultsFollow_first calls other rest).symm.trans follow
  | cons message before ih =>
      cases message with
      | system content => exact ih [] follow
      | user content => exact ih [] follow
      | assistant content stopReason usage => exact ih _ follow
      | toolResult toolCallId toolName content =>
          rw [List.cons_append, resultsFollow, Bool.and_eq_true] at follow
          exact ih calls follow.2

theorem resultsFollow_systems (systems : List AgentMessage) (all : ∀ message ∈ systems, message.isSystem = true)
    (rest : List AgentMessage) : resultsFollow [] (systems ++ rest) = resultsFollow [] rest := by
  induction systems with
  | nil => rfl
  | cons message systems ih =>
      have first := all message List.mem_cons_self
      cases message with
      | system content => exact ih fun other inside => all other (List.mem_cons_of_mem _ inside)
      | user content => cases first
      | assistant content stopReason usage => cases first
      | toolResult toolCallId toolName content => cases first

theorem callIds_withoutThinking (content : List ContentBlock) :
    (content.filter fun part => !part.isThinking).filterMap ContentBlock.callId = content.filterMap ContentBlock.callId := by
  rw [List.filterMap_filter]
  apply List.filterMap_congr
  intro part _
  cases part <;> rfl

theorem resultsFollow_withoutThinking (calls : List Text) (messages : List AgentMessage) :
    resultsFollow calls (messages.map withoutThinking) = resultsFollow calls messages := by
  induction messages generalizing calls with
  | nil => rfl
  | cons message rest ih =>
      cases message with
      | system content => exact ih []
      | user content => exact ih []
      | assistant content stopReason usage =>
          rw [List.map_cons, withoutThinking, resultsFollow, resultsFollow, callIds_withoutThinking, ih]
      | toolResult toolCallId toolName content =>
          have same : withoutThinking (.toolResult toolCallId toolName content) = .toolResult toolCallId toolName content := rfl
          rw [List.map_cons, same, resultsFollow, resultsFollow, ih]

theorem resultsFollow_retained (model : CompactionModel) (messages : List AgentMessage) :
    resultsFollow [] (retainedMessages model messages) = resultsFollow [] messages := by
  rw [retainedMessages]
  by_cases bound : thinkingBoundToPrefix model = true
  · rw [if_pos bound, resultsFollow_withoutThinking]
  · rw [if_neg bound]

end WellFormed

section Result

variable {messages : List AgentMessage} {keepRecentTokens : Nat}

-- The kept tail, split where the budget chose.
theorem CutAt.tail {cut index : Nat} (chosen : CutAt messages keepRecentTokens cut index) :
    ∃ moved kept, messages.drop cut = moved ++ kept ∧ (tokensOf kept ≤ keepRecentTokens ∨ tokensOf kept.tail = 0) ∧
      (moved = [] ∨ ∃ call results result, moved = call :: results ∧ (∀ other ∈ results, other.isToolResult = true) ∧
        kept.head? = some result ∧ result.isToolResult = true) := by
  refine ⟨(messages.drop cut).take (index - cut), messages.drop index, ?_, ?_, ?_⟩
  · have whole := List.take_append_drop (index - cut) (messages.drop cut)
    rw [List.drop_drop, Nat.add_sub_cancel' chosen.before] at whole
    exact whole.symm
  · rw [List.tail_drop]
    exact chosen.fits
  · by_cases same : cut = index
    · left
      rw [same, Nat.sub_self, List.take_zero]
    · right
      have less : cut < index := Nat.lt_of_le_of_ne chosen.before same
      have inside : cut < messages.length := Nat.lt_trans less chosen.inside
      obtain ⟨result, here, tool⟩ := chosen.results index less (Nat.le_refl _)
      refine ⟨messages[cut], (messages.drop (cut + 1)).take (index - cut - 1), result, ?_, ?_, ?_, tool⟩
      · obtain ⟨more, length⟩ : ∃ more, index - cut = more + 1 := ⟨index - cut - 1, by omega⟩
        rw [length, List.drop_eq_getElem_cons inside, List.take_succ_cons, Nat.add_sub_cancel]
      · intro other listed
        obtain ⟨place, short, rfl⟩ := List.mem_iff_getElem.mp listed
        rw [List.length_take] at short
        obtain ⟨found, here, tool'⟩ := chosen.results (cut + 1 + place) (by omega) (by omega)
        rw [List.getElem_take, List.getElem_drop]
        obtain ⟨_, rfl⟩ := List.getElem?_eq_some_iff.mp here
        exact tool'
      · rw [List.head?_drop]
        exact here

variable (contentText : List ContentBlock → Text) (respond : Text → Option SummaryReply)

-- What compaction leaves of a transcript; `kept` starts where the budget chose, and `moved` is the start of the turn that this falls in.
theorem compaction_keeps_transcript (keepRecentTokens : Nat) (model : CompactionModel) (messages out : List AgentMessage)
    (done : compactKeeping contentText respond keepRecentTokens model messages = some out) :
    ∃ summarized summary moved kept,
      messages = messages.takeWhile AgentMessage.isSystem ++ (summarized ++ (moved ++ kept)) ∧
      out = messages.takeWhile AgentMessage.isSystem ++ summaryMessage summary :: retainedMessages model (moved ++ kept) ∧
      (∃ first, (moved ++ kept).head? = some first ∧ first.isToolResult = false) ∧
      (WellFormed messages → WellFormed out) ∧
      (tokensOf kept ≤ keepRecentTokens ∨ tokensOf kept.tail = 0) ∧
      (moved = [] ∨ ∃ call results result, moved = call :: results ∧ (∀ other ∈ results, other.isToolResult = true) ∧
        kept.head? = some result ∧ result.isToolResult = true) ∧
      tokensOf (afterFirstTurn (moved ++ kept)) ≤ keepRecentTokens := by
  have systems : ∀ message ∈ messages.takeWhile AgentMessage.isSystem, message.isSystem = true :=
    fun message inside => List.mem_takeWhile_imp inside
  have split : messages.takeWhile AgentMessage.isSystem ++ messages.drop (messages.takeWhile AgentMessage.isSystem).length = messages :=
    List.prefix_iff_eq_append.mp (List.takeWhile_prefix _)
  obtain ⟨cuts, done⟩ := Option.ite_none_left_eq_some.mp done
  obtain ⟨summary, _, rfl⟩ := Option.map_eq_some_iff.mp done
  obtain ⟨index, chosen⟩ := findSafeCutIndex_spec cuts
  generalize findSafeCutIndex _ keepRecentTokens = cut at chosen
  generalize messages.drop (messages.takeWhile AgentMessage.isSystem).length = rest at split chosen
  generalize messages.takeWhile AgentMessage.isSystem = leadingSystem at systems split
  obtain ⟨moved, kept, tail, fits, turn⟩ := chosen.tail
  have halves : rest.take cut ++ rest.drop cut = rest := List.take_append_drop cut rest
  obtain ⟨first, here, other⟩ := chosen.first
  have head : (rest.drop cut).head? = some first := by
    rw [List.head?_drop]
    exact here
  refine ⟨rest.take cut, summary, moved, kept, ?_, ?_, ⟨first, tail ▸ head, other⟩, ?_, fits, turn, tail ▸ chosen.first_turn⟩
  · rw [← tail, halves, split]
  · rw [← tail]
  · intro well
    obtain ⟨after, cons⟩ : ∃ after, rest.drop cut = first :: after := List.head?_eq_some_iff.mp head
    rw [WellFormed, ← split, resultsFollow_systems leadingSystem systems, ← halves, cons] at well
    have kept_well := resultsFollow_after [] _ other after well
    have skip (later : List AgentMessage) : resultsFollow [] (summaryMessage summary :: later) = resultsFollow [] later := rfl
    rw [WellFormed, resultsFollow_systems leadingSystem systems, skip, resultsFollow_retained, cons]
    exact kept_well

end Result

section Examples

def images (count : Nat) : List ContentBlock := List.replicate count .image

-- Two calls in one message with large results, and an answer.
def parallelResults : List AgentMessage :=
  [.user (.plain (text "go")),
    .assistant [.toolCall (text "a") (text "read") (text "\x7b\x7d"), .toolCall (text "b") (text "read") (text "\x7b\x7d")] .toolUse none,
    .toolResult (text "a") (text "read") (images 10), .toolResult (text "b") (text "read") (images 10),
    .assistant [.text (text "done")] .stop none]

def thoughtfulAnswer : List AgentMessage :=
  [.user (.blocks (images 17)), .assistant [.thinking (text "plan"), .text (text "done")] .stop none]

def plainModel : CompactionModel := ⟨text "openai-completions", none, 100000⟩

def adaptiveModel : CompactionModel := ⟨text "anthropic-messages", some true, 100000⟩

def briefReply (_ : Text) : Option SummaryReply := some ⟨.stop, text "so far"⟩

def compactBriefly (model : CompactionModel) (messages : List AgentMessage) : List AgentMessage :=
  (compactAgentMessages (fun _ => text "notes") briefReply model messages).getD []

-- The tail as it was, and in the budget unless it is a single turn.
def TailKept (messages out : List AgentMessage) : Prop :=
  ∃ before tail summary, messages = before ++ tail ∧ out = messages.takeWhile AgentMessage.isSystem ++ summaryMessage summary :: tail ∧
    (tokensOf tail ≤ compactionKeepRecentTokens ∨ afterFirstTurn tail = [])

theorem tail_over_budget_or_rewritten :
    (WellFormed parallelResults ∧ ¬TailKept parallelResults (compactBriefly plainModel parallelResults)) ∧
      (WellFormed thoughtfulAnswer ∧ ¬TailKept thoughtfulAnswer (compactBriefly adaptiveModel thoughtfulAnswer)) := by
  refine ⟨⟨by delta WellFormed; decide, ?_⟩, ⟨by delta WellFormed; decide, ?_⟩⟩
  · intro ⟨before, tail, summary, split, shape, budget⟩
    have shape' := congrArg List.tail shape
    have whole : compactBriefly plainModel parallelResults =
        summaryMessage (text "so far") :: parallelResults.drop 1 := by decide +kernel
    rw [whole] at shape'
    have same : tail = parallelResults.drop 1 := shape'.symm
    subst same
    cases budget with
    | inl fits => exact absurd fits (by decide +kernel)
    | inr single => exact absurd single (by decide +kernel)
  · intro ⟨before, tail, summary, split, shape, budget⟩
    have shape' := congrArg List.tail shape
    have whole : compactBriefly adaptiveModel thoughtfulAnswer =
        summaryMessage (text "so far") :: [.assistant [.text (text "done")] .stop none] := by decide +kernel
    rw [whole] at shape'
    have same : tail = [.assistant [.text (text "done")] .stop none] := shape'.symm
    subst same
    have last := congrArg List.getLast? split
    rw [List.getLast?_concat] at last
    exact absurd last (by decide +kernel)

theorem parallel_results_compacted : ∃ out, compactAgentMessages (fun _ => text "notes") briefReply plainModel parallelResults = some out ∧
    WellFormed out := by
  obtain ⟨out, done⟩ : ∃ out, compactAgentMessages (fun _ => text "notes") briefReply plainModel parallelResults = some out :=
    Option.isSome_iff_exists.mp (by decide +kernel)
  obtain ⟨_, _, _, _, _, _, _, well, _⟩ := compaction_keeps_transcript _ _ compactionKeepRecentTokens plainModel parallelResults out done
  exact ⟨out, done, well (by delta WellFormed; decide)⟩

end Examples
end PrAgent
