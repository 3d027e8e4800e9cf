import Recode.Compaction.Repeated
import Recode.Compaction.PreviousSummary
import Recode.CodingAgent.FailedAppend
import Recode.Session.StorageAgreement
import Recode.Session.AppendGuarantees
import Recode.Orchestrator.TurnGuarantees
import Recode.Orchestrator.RpcGuarantees
import Recode.Orchestrator.UiGuarantees
import Recode.Agent.Events
import Recode.Ai.TransformGuarantees
import Recode.Harness.JournalGuarantees
import Recode.Agent.ToolBatchGuarantees
import Recode.Tui.Stack
import Recode.Tui.WordWrap
import Recode.Tools.OutputGuarantees
import Recode.Tools.FileMutationGuarantees
import Recode.MemoryIndex.Search
import Recode.Delegation.WorkerGuarantees
import Recode.Lsp.ClientGuarantees
import Recode.Lsp.DocumentGuarantees
import Recode.Auth.AuthGuarantees
import Recode.Lsp.LifecycleGuarantees
import Recode.Harness.Retry
import Recode.Shiori.ReviewGuarantees
import Recode.Shiori.Candidates
import Recode.Ai.CodexGuarantees
import Recode.Ai.EventStream
import Recode.Ai.JsonRepair
import Recode.CodingAgent.SessionGuarantees
import Recode.SessionV4.Paging
import Recode.Compaction.BranchSummarization
import Recode.SessionV4.AttemptSeries
import Recode.SessionV4.Configuration
import Recode.CodingAgent.Migration
import Recode.CodingAgent.LoadedWalks
import Recode.CodingAgent.CompactedContext
import Recode.Orchestrator.OwnershipGuarantees
import Recode.Orchestrator.StdoutFraming
import Recode.Orchestrator.StorageGuarantees
import Recode.Harness.ReadGuarantees
import Recode.Tools.EditLineEndings
import Recode.Lsp.Diagnostics
import Recode.Lsp.MessageFramer
import Recode.Lsp.TextEdits
import Recode.Ai.RetryCall
