import RaytSystem.WorkflowRetry
import RaytSystem.WorkflowFinality
import RaytSystem.AuditRuns
import RaytSystem.BudgetConservation
import RaytSystem.WorkflowFinality
import RaytSystem.DraftEdits
import RaytSystem.ReplaceRuns
import RaytSystem.IdentityRuns
import RaytSystem.PackageResume
import RaytSystem.PublicationRuns
import RaytSystem.BackupFidelity
import RaytSystem.GraphBuilds
import RaytSystem.CacheTransparency
import RaytSystem.AcpRuns
import RaytSystem.ReplayRuns
import RaytSystem.EvalVerdicts
import RaytSystem.NoticeRuns
import RaytSystem.MigrationRuns
import RaytSystem.QueryAnswers
import RaytSystem.CheckpointConvergence
import RaytSystem.PrepareRetry
import RaytSystem.PromotionRuns
import RaytSystem.McpApproval
import RaytSystem.BootstrapRuns
import RaytSystem.TaskAccord
import RaytSystem.WorkflowTopology
import RaytSystem.ProtectedRoots
import RaytSystem.PolicyApprovals
import RaytSystem.RecordStores
import RaytSystem.RuntimeGrammar
import RaytSystem.SessionResumption
import RaytSystem.CanonicalDecimals
import RaytSystem.BlockedHeartbeats
import RaytSystem.MoveRecovery
import RaytSystem.FocusedGraph
import RaytSystem.MarkdownBlocks
import RaytSystem.LinkResolution
import RaytSystem.ApprovalRevocation
import RaytSystem.TranscriptRuns
import RaytSystem.FrontmatterUpdate
import RaytSystem.ExcerptRecords
import RaytSystem.UniverseGraph
import RaytSystem.EscapedText
import RaytSystem.SecretFiles
import RaytSystem.PackageCoverage
import RaytSystem.SkillVersions
import RaytSystem.BrowserBoundary
import RaytSystem.JsonSchemaSubset
