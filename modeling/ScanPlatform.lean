import ScanPlatform.Agent.Audit
import ScanPlatform.Agent.Cancellation
import ScanPlatform.Agent.Envelope
import ScanPlatform.Ai.Budget
import ScanPlatform.Assessment.Issue
import ScanPlatform.Assets.Merging
import ScanPlatform.Assets.Upsert
import ScanPlatform.Attack.Coverage
import ScanPlatform.Attack.Graph
import ScanPlatform.Auth.Lockout
import ScanPlatform.Auth.Reuse
import ScanPlatform.Billing.Limits
import ScanPlatform.Core.Logging
import ScanPlatform.Core.RateLimit
import ScanPlatform.Dr.Encryption
import ScanPlatform.Dr.Objects
import ScanPlatform.Dr.Retention
import ScanPlatform.Egress.DefaultRoute
import ScanPlatform.Egress.Routing
import ScanPlatform.Engine.Adaptive
import ScanPlatform.Engine.CompletedScans
import ScanPlatform.Engine.OriginIndex
import ScanPlatform.Manager.Fencing
import ScanPlatform.Manager.Isolation
import ScanPlatform.Manager.LeaseHandover
import ScanPlatform.Manager.LeaseRetry
import ScanPlatform.Manager.Liveness
import ScanPlatform.Manager.ReapAudit
import ScanPlatform.Manager.WriteScope
import ScanPlatform.Net.SiteDns
import ScanPlatform.Net.SiteTargets
import ScanPlatform.Nuclei.LineLocal
import ScanPlatform.Remediation.Endings
import ScanPlatform.Remediation.EvidenceConfidence
import ScanPlatform.Remediation.ExpirySweep
import ScanPlatform.Remediation.OwnIssue
import ScanPlatform.Reports.ConfirmedAccess
import ScanPlatform.Reports.Reconciliation
import ScanPlatform.Reports.Signals
import ScanPlatform.Retention.Sweep
import ScanPlatform.Scan.DeadLetters
import ScanPlatform.Scan.Ownership
import ScanPlatform.Scan.Relay
import ScanPlatform.Scan.Shutdown
import ScanPlatform.Schedules.Race
import ScanPlatform.Tenancy.InsertGuard
import ScanPlatform.Tenancy.Isolation
import ScanPlatform.Tenancy.Teardown
import ScanPlatform.Tools.CrawlReport
import ScanPlatform.Users.Erasure
import ScanPlatform.Vulnerabilities.BatchOrder
import ScanPlatform.Vulnerabilities.ChangeLog
import ScanPlatform.Vulnerabilities.Guidance
import ScanPlatform.Vulnerabilities.Mappings
import ScanPlatform.Vulnerabilities.Retest
import ScanPlatform.Web.Session
import ScanPlatform.Worker.Announcement
import ScanPlatform.Worker.JobAnswers
import ScanPlatform.Worker.LeaseLoop
import ScanPlatform.Worker.LostEgress
import ScanPlatform.Worker.Planes
import ScanPlatform.Worker.Refusals
import ScanPlatform.Worker.TunnelHealth
