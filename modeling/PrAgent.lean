import PrAgent.AskQuotaUsage
import PrAgent.AskReplyRuns
import PrAgent.CiSeedRefresh
import PrAgent.CiSummaryCellProjection
import PrAgent.DuplicateCleanupSafe
import PrAgent.FindingBlockers
import PrAgent.InlineCapRuns
import PrAgent.LeaseFencing
import PrAgent.ProgressCommentSafe
import PrAgent.PublishSuccess
import PrAgent.ReviewArtifactRuns
import PrAgent.ReviewLifecycleRuns
import PrAgent.SlashFollowUpRuns
import PrAgent.WebhookAcceptance
import PrAgent.GithubCapabilityRuns
import PrAgent.QueuedCancellation
import PrAgent.StableEncodeUnique
import PrAgent.BatchRecovery
import PrAgent.JudgmentRuns
import PrAgent.ObjectionAnswerExact
import PrAgent.ProgressRevision
import PrAgent.PreviewReplayRuns
import PrAgent.CommentThreads
import PrAgent.HostCallGate
import PrAgent.TranscriptCompaction
import PrAgent.TurnToolBudget
import PrAgent.ChangedFilePageExact
import PrAgent.SessionLockRuns
import PrAgent.PathGlobExact
import PrAgent.FindingsSectionFit
import PrAgent.ScriptReturn
import PrAgent.StaleHeadRescheduleRuns
import PrAgent.EvidenceCoverage
import PrAgent.CodeModeSessionRuns
import PrAgent.CompletionPump
import PrAgent.SharedRateLimitCircuit
import PrAgent.ReviewApprovalRuns
