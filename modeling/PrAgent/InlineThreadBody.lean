import PrAgent.FindingMarkers
set_option autoImplicit false

namespace PrAgent.CommentMarkers

section Finding

structure ThreadFinding where
  severity : FindingSeverity
  file : Text
  startLine : Nat
  endLine : Nat
  title : Text
  detail : Text
  fixPrompt : Text
  suggestedCode : Option Text

structure RenderContext where
  owner : Text
  repo : Text
  prNumber : Nat
  headSha : Text

structure ThreadIdentity where
  id : FindingId
  lens : FindingSource
  reopens : Option FindingId := none
  relatedLinks : List Text := []

structure SummaryPlacement where
  finding : ThreadFinding
  inlinePosted : Bool
  inlineCommentUrl : Option Text
  findingRow : Option FindingRowMarker

end Finding

section Escapes

-- `/<!--(?=\s*pr-agent:)/`.
def opensControlMarker (s : Text) : Bool :=
  text "<!--" <+: s && text "pr-agent:" <+: (s.drop 4).dropWhile isSpace

def neutralizeControlMarkers : Text → Text
  | [] => []
  | c :: rest =>
    if opensControlMarker (c :: rest) then text "&lt;" ++ neutralizeControlMarkers rest
    else c :: neutralizeControlMarkers rest

def codeFence : Text := text "```"

def escapeCodeFenceBreakers : Text → Text
  | a :: b :: c :: rest =>
    if [a, b, c] = codeFence then text "\\`\\`\\`" ++ escapeCodeFenceBreakers rest
    else a :: escapeCodeFenceBreakers (b :: c :: rest)
  | short => short

def natText (n : Nat) : Text := Nat.toDigits 10 n

def formatLineRange (startLine endLine : Nat) : Text :=
  if startLine = endLine then text "line " ++ natText startLine
  else text "lines " ++ (natText startLine ++ ('-' :: natText endLine))

def joinLines (lines : List Text) : Text := (text "\n").intercalate lines

end Escapes

section Thread

def agentFixPromptPreamble : Text :=
  text "Verify each finding against current code. Fix only still-valid issues, skip the rest with a brief reason, and keep changes minimal."

def renderFindingFixBlock (finding : ThreadFinding) (inlinePosted : Bool) : Text :=
  joinLines <|
    [text "[" ++ (severityText finding.severity ++ (text "] @" ++ (finding.file ++
        (' ' :: formatLineRange finding.startLine finding.endLine)))),
      escapeCodeFenceBreakers finding.fixPrompt] ++
    (if inlinePosted then [] else [text "[inline thread omitted — summary only]"])

def renderSingleFindingAgentFixPrompt (finding : ThreadFinding) (ctx : RenderContext) : Text :=
  joinLines
    [agentFixPromptPreamble, [], text "Repository: " ++ (ctx.owner ++ ('/' :: ctx.repo)),
      text "Pull request: #" ++ natText ctx.prNumber, text "Head SHA: " ++ ctx.headSha, [],
      renderFindingFixBlock finding true]

def renderSuggestedCodeBlock (finding : ThreadFinding) : List Text :=
  match finding.suggestedCode with
  | none => []
  | some suggestedCode =>
    if finding.startLine ≠ finding.endLine then []
    else if neutralizeControlMarkers (escapeCodeFenceBreakers suggestedCode) ≠ suggestedCode then []
    else [[], text "```suggestion", suggestedCode, codeFence]

def renderBoundPolicyFooter (boundPaths : List Text) : List Text :=
  if boundPaths = [] then []
  else [] :: boundPaths.map fun path => text "<sub>Bound · " ++ (escapeTableHtml path ++ text "</sub>")

def renderRelatedLinks (relatedLinks : List Text) : List Text :=
  if relatedLinks = [] then []
  else [[], text "Possibly related: " ++
    (text ", ").intercalate (relatedLinks.map fun url => text "[thread](" ++ (url ++ text ")"))]

def threadLines (finding : ThreadFinding) (ctx : RenderContext) (identity : ThreadIdentity) (boundPaths : List Text) :
    List Text :=
  [text "**" ++ (severityText finding.severity ++ (text "** · **" ++ (finding.title ++ text "**"))), [],
    text "`" ++ (finding.file ++ (text "` · " ++ formatLineRange finding.startLine finding.endLine)), [],
    finding.detail] ++
  renderSuggestedCodeBlock finding ++
  [[], text "<details>", text "<summary>Prompt to fix</summary>", [], codeFence,
    renderSingleFindingAgentFixPrompt finding ctx, codeFence, [], text "</details>"] ++
  renderBoundPolicyFooter boundPaths ++ renderRelatedLinks identity.relatedLinks

def threadMarker (finding : ThreadFinding) (identity : ThreadIdentity) : FindingMarker :=
  { id := identity.id, lens := identity.lens, severity := finding.severity, reopens := identity.reopens }

def renderInlineThreadBody (finding : ThreadFinding) (ctx : RenderContext) (identity : ThreadIdentity)
    (boundPaths : List Text) : Text :=
  joinLines [neutralizeControlMarkers (joinLines (threadLines finding ctx identity boundPaths)), [],
    renderFindingMarker (threadMarker finding identity)]

end Thread

section Summary

def renderTableCode (value : Text) : Text := text "<code>" ++ escapeTableHtml value ++ text "</code>"

def renderTableLocationMeta (marker file lineRange : Text) : Text :=
  text "<em>" ++ escapeTableHtml marker ++ text " · " ++ renderTableCode file ++ text " · " ++ escapeTableHtml lineRange ++
    text "</em>"

def blobLineUrl (ctx : RenderContext) (file : Text) (startLine endLine : Nat) : Text :=
  text "https://github.com/" ++ ctx.owner ++ text "/" ++ ctx.repo ++ text "/blob/" ++ ctx.headSha ++ text "/" ++ file ++
    text "#L" ++ natText startLine ++ (if startLine = endLine then [] else text "-L" ++ natText endLine)

def footnoteInline : Text := text "Fix prompt on the inline thread."
def footnoteSummary : Text := text "Expand Prompt to fix below (summary-only)."
def footnoteSummaryP3 : Text := text "Included in Fix all findings below."

def SummaryPlacement.link (placement : SummaryPlacement) (ctx : RenderContext) : Text :=
  let blob := blobLineUrl ctx placement.finding.file placement.finding.startLine placement.finding.endLine
  if placement.inlinePosted then (placement.inlineCommentUrl.filter fun url => url ≠ []).getD blob else blob

def SummaryPlacement.footnote (placement : SummaryPlacement) : Text :=
  if placement.inlinePosted then footnoteInline
  else if placement.finding.severity = .p3 then footnoteSummaryP3 else footnoteSummary

def cellParts (placement : SummaryPlacement) (ctx : RenderContext) (compact : Bool) : List Text :=
  let finding := placement.finding
  [renderTableLink finding.title (placement.link ctx),
    renderTableLocationMeta (if placement.inlinePosted then text "On the diff" else text "Summary only") finding.file
      (formatLineRange finding.startLine finding.endLine)] ++
  (if !placement.inlinePosted && !compact then [escapeTablePlainCell finding.detail] else []) ++
  [renderTableEm placement.footnote]

def renderFindingTableCellHtml (placement : SummaryPlacement) (ctx : RenderContext) (compact : Bool) : Text :=
  (text "<br>").intercalate (cellParts placement ctx compact) ++ placement.findingRow.elim [] renderFindingRowMarker

def renderSummaryOnlyFixAccordion (severity : FindingSeverity) (title fixPrompt : Text) : List Text :=
  [text "<details>",
    text "<summary>Prompt to fix — " ++ (severityText severity ++ (text " · " ++ (escapeTableHtml title ++ text "</summary>"))),
    [], codeFence, escapeCodeFenceBreakers fixPrompt, codeFence, [], text "</details>"]

end Summary
end PrAgent.CommentMarkers
