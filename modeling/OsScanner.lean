import OsScanner.Lib.Method
import OsScanner.Lib.Keeps
import OsScanner.Lib.Run
import OsScanner.Lib.Dict
import OsScanner.Lib.Table
import OsScanner.Lib.Connection
import OsScanner.Lib.Chain
import OsScanner.Lib.Text
import OsScanner.Lib.Hierarchy
import OsScanner.Lib.Pattern
import OsScanner.Json.Value
import OsScanner.Runtime
import OsScanner.Json.Canonical
import OsScanner.Json.Size
import OsScanner.Json.Equality
import OsScanner.Json.Dump
import OsScanner.Storage.Snapshots
import OsScanner.Storage.Database
import OsScanner.Storage.Texts
import OsScanner.Storage.Audit
import OsScanner.Storage.UploadQueue
import OsScanner.Storage.QueueChanges
import OsScanner.Storage.CausalOrder
import OsScanner.Storage.OutboxRows
import OsScanner.Storage.ScanJobs
import OsScanner.Storage.PolicyCache
import OsScanner.Storage.SnapshotStore
import OsScanner.Storage.SnapshotOrder
import OsScanner.Storage.Transactions
import OsScanner.Storage.AtomicBlocks
import OsScanner.Storage.AuditChain
import OsScanner.Security.Redaction
import OsScanner.Cloud.Records
import OsScanner.Cloud.Inventory
import OsScanner.Cloud.Bounds
import OsScanner.Cloud.Dispatch
import OsScanner.Cloud.Repository
import OsScanner.Cloud.Effects
import OsScanner.Cloud.ScanEffects
import OsScanner.Cloud.Api
import OsScanner.Cloud.Calls
import OsScanner.Cloud.Answers
import OsScanner.Cloud.Idempotency
import OsScanner.Cloud.Credentials
import OsScanner.Cloud.ScanLifecycle
import OsScanner.Cloud.Atomicity
import OsScanner.Cloud.ScanApi
import OsScanner.Cloud.Noninterference
import OsScanner.Cloud.PostgresDispatch
import OsScanner.Cloud.TaskStore
import OsScanner.Cloud.Fencing
import OsScanner.Cloud.AnalysisWorker
import OsScanner.Cloud.Attempts
import OsScanner.Cloud.LostLease
import OsScanner.Cloud.ScanUpload
import OsScanner.Cloud.FinalReport
import OsScanner.Cloud.StoredEvidence
import OsScanner.Cloud.GraceWindow
import OsScanner.Cloud.Enrollment
import OsScanner.Endpoint.Credentials
import OsScanner.Endpoint.ServedRotation
import OsScanner.Endpoint.Rotation
import OsScanner.Cloud.ReportLimits
import OsScanner.Endpoint.Sbom
import OsScanner.Endpoint.SbomLimits
import OsScanner.Endpoint.Domains
import OsScanner.Endpoint.Discovery
import OsScanner.Endpoint.DiscoveryScope
import OsScanner.Endpoint.Redelivery
import OsScanner.Endpoint.Policies
import OsScanner.Endpoint.LocalPolicy
import OsScanner.Endpoint.Executability
import OsScanner.Cloud.Interference
import OsScanner.Endpoint.JobSource
import OsScanner.Endpoint.JobRejections
import OsScanner.Lib.Part
import OsScanner.Storage.ScanResults
import OsScanner.Storage.CarryForward
import OsScanner.Lib.Forest
import OsScanner.Lib.Groups
import OsScanner.Normalization.Vulnerabilities
import OsScanner.Normalization.Components
import OsScanner.Normalization.StagedMerge
import OsScanner.Storage.Leases
import OsScanner.Transport.Worker
import OsScanner.Transport.Recording
import OsScanner.Transport.Isolation
import OsScanner.Normalization.Validation
import OsScanner.Normalization.MergedRecords
import OsScanner.Lib.Traced
import OsScanner.Policies.Models
import OsScanner.Policies.Engine
import OsScanner.Policies.Findings
import OsScanner.Policies.Raising
import OsScanner.Policies.EvidenceBounds
import OsScanner.Policies.Totality
import OsScanner.Policies.Conditions
import OsScanner.Policies.Entries
import OsScanner.Policies.Witnesses
import OsScanner.Policies.Telemetry
import OsScanner.Lib.Rounding
import OsScanner.Analyzers.Risk
import OsScanner.Analyzers.RiskScore
import OsScanner.Storage.Findings
import OsScanner.Policies.FirstSeen
import OsScanner.Policies.FindingIds
import OsScanner.Lib.PercentEncoding
import OsScanner.Lib.UrlSplit
import OsScanner.Security.UrlPaths
import OsScanner.Transport.CloudUrl
import OsScanner.Lib.CalendarDate
import OsScanner.Endpoint.SbomComponents
import OsScanner.Transport.RetryDelay
import OsScanner.Analyzers.Posture
import OsScanner.Analyzers.UnknownPosture
import OsScanner.Lib.Threads
import OsScanner.Tools.Osquery
import OsScanner.Tools.OsqueryBatches
import OsScanner.Tools.OsqueryTasks
import OsScanner.Tools.OsqueryCache
import OsScanner.Lib.PdfSyntax
import OsScanner.Reporting.Layout
import OsScanner.Reporting.PdfFile
import OsScanner.Reporting.Table
import OsScanner.Reporting.Drawing
import OsScanner.Reporting.TableRows
import OsScanner.Reporting.PdfReading
import OsScanner.Reporting.PdfStructure
import OsScanner.Lib.Merge
import OsScanner.Json.Texts
import OsScanner.Observability.Redaction
import OsScanner.Observability.Logging
import OsScanner.Storage.Retention
import OsScanner.Endpoint.Execution
import OsScanner.Endpoint.ExecutionRecords
import OsScanner.Endpoint.RecordedRuns
import OsScanner.Endpoint.ReconciledStatuses
import OsScanner.Endpoint.AuditedRuns
