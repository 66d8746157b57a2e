import Tesbo.Reasoning.Runs
import Tesbo.Reasoning.Service
import Tesbo.Reasoning.Table
import Tesbo.Reasoning.Fresh
import Tesbo.Reasoning.Forest
import Tesbo.Schema
import Tesbo.Access
import Tesbo.Text
import Tesbo.ExternalIds
import Tesbo.Roles
import Tesbo.Suites
import Tesbo.TestCases
import Tesbo.ImportTestCases
import Tesbo.ImportRules
import Tesbo.TenantIsolation
import Tesbo.SuiteTree
import Tesbo.CaseIds
import Tesbo.GhostSuites
import Tesbo.Reasoning.Procedures
import Tesbo.Team
import Tesbo.Ownership
import Tesbo.InvitationOutcomes
import Tesbo.AccessSteps
import Tesbo.DueDates
import Tesbo.Schedules
import Tesbo.ScheduleOrder
import Tesbo.Executions
import Tesbo.ReportedResults
import Tesbo.DefectsOnFailures
import Tesbo.Bugs
import Tesbo.BugLinks
import Tesbo.ProjectMembers
import Tesbo.Assignees
import Tesbo.CustomFields
import Tesbo.FieldRoundTrip
import Tesbo.StepRoundTrip
import Tesbo.ZyraSave
import Tesbo.Reasoning.Phases
import Tesbo.KnowledgeBase
import Tesbo.KnowledgeHandlers
import Tesbo.DeletionRecord
import Tesbo.StoredFiles
import Tesbo.Uploads
import Tesbo.PlanLimits
import Tesbo.Signup
import Tesbo.SignupCodes
import Tesbo.TicketComments
import Tesbo.CommentedOnce
import Tesbo.Listings
import Tesbo.Reasoning.History
import Tesbo.ListCaches
import Tesbo.FreshLists
import Tesbo.Billing
import Tesbo.Redelivery
import Tesbo.TwoSubscriptions
import Tesbo.SyncRuns
import Tesbo.SettledRuns
import Tesbo.SyncTickets
import Tesbo.CountedTickets
import Tesbo.Migrations
import Tesbo.MigrationRuns
import Tesbo.EmbeddingJobs
import Tesbo.FreshIndex
import Tesbo.EmbeddingModels
import Tesbo.OneVectorSpace
import Tesbo.McpTools
import Tesbo.KeepsOmitted
import Tesbo.NyraApprovals
import Tesbo.KeptEdits
import Tesbo.Entitlements
import Tesbo.AutomationRuns
import Tesbo.PlaywrightReporter
import Tesbo.LatestAttempt
import Tesbo.ClosingCounts
import Tesbo.ShardedRuns
import Tesbo.CountedStatuses
import Tesbo.ReviewAnalysis
import Tesbo.ReviewBoard
import Tesbo.ReviewedOnce
import Tesbo.ReviewHistory
import Tesbo.LastingDecisions
import Tesbo.Reasoning.Calls
import Tesbo.Reasoning.Disturbed
import Tesbo.Reasoning.Groups
import Tesbo.OtpCodes
import Tesbo.ApiTokens
import Tesbo.PasswordReset
import Tesbo.ResetsOnce
import Tesbo.LoginLockout
import Tesbo.Sessions
import Tesbo.RevokedSessions
import Tesbo.Reasoning.Batches
import Tesbo.ChunkVectors
import Tesbo.Reasoning.Pool
import Tesbo.ArchiveSweep
import Tesbo.Slices
import Tesbo.Reasoning.Ranked
import Tesbo.Retrieval
import Tesbo.RetrievalBudget
import Tesbo.EvidenceRanking
import Tesbo.RetrievedItems
import Tesbo.PairedDrafts
import Tesbo.AttributedDrafts
import Tesbo.RegeneratedCases
import Tesbo.ImportedLines
import Tesbo.Reasoning.Sections
import Tesbo.ZyraMemory
import Tesbo.BulkResults
import Tesbo.LeavesNoTrace
import Tesbo.Reasoning.Paging
import Tesbo.PagedCases
import Tesbo.BugMentions
import Tesbo.SpreadsheetSafe
import Tesbo.FileDelivery
import Tesbo.ClientKeys
import Tesbo.CaseDifferences
import Tesbo.DuplicateFindings
import Tesbo.SafeFetch
import Tesbo.WrappedAddresses
import Tesbo.DefaultValues
import Tesbo.OrphanRuns
import Tesbo.CommentWording
import Tesbo.RunHistory
import Tesbo.RepeatedImports
import Tesbo.ConfigRewrites
import Tesbo.Breadcrumbs
import Tesbo.LoginRedirects
import Tesbo.ProductDocuments
import Tesbo.WarnedClimbs
import Tesbo.RemindedOnce
import Tesbo.LosslessChunks
import Tesbo.NotionComments
import Tesbo.ChangedFields
import Tesbo.MirroredPages
import Tesbo.LiveDrafts
import Tesbo.SafeMarkdown
import Tesbo.FolderTrees
