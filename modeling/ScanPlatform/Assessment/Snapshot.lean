import ScanPlatform.Base.Sessions
import ScanPlatform.Remediation.Db
import ScanPlatform.Reports.Render
import ScanPlatform.Vulnerabilities.Db

/-!
# The snapshot of an assessment

What an assessment freezes of the posture of a project: the figures of the report, the progress of
the remediation, and a row for each scorable finding.

* `LiveTables`: the tables that a snapshot reads; `SnapshotReads`: what its statements return;
* `Summary`, `FrozenFinding`, `SnapshotReads.summary`, `SnapshotReads.findings`: the snapshot;
* `buildNarrative`: the text of an assessment.
-/

set_option autoImplicit false

namespace ScanPlatform

/-! ## What is read -/

/-- The tables that a snapshot reads; risk scores and assets are by id. -/
structure LiveTables (K : Type) where
  /-- The projects, and the workspaces that they are in. -/
  projects : List (Uuid × Uuid)
  vulnerabilities : List Vulnerability
  riskScores : List (Uuid × Option K)
  assets : List (Uuid × String)
  items : List RemediationItem
  acceptances : List RiskAcceptance

/-- What the statements of a snapshot return. -/
structure SnapshotReads (K : Type) where
  vulnerabilities : List Vulnerability
  riskScores : List (Uuid × Option K)
  assets : List (Uuid × String)
  byStatus : List (RemediationStatus × ℕ)
  overdue : ℕ
  accepted : List Uuid
  remediationStatusByKey : List (String × RemediationStatus)

/-- What a snapshot takes from outside: the logarithm and the rounding of the score. -/
structure AssessmentServices (K : Type) [Zero K] [LE K] where
  log : Log K
  round : Rounding K

/-- A row of the report, with its id and the asset that it is anchored to. -/
structure AssessedRow (K : Type) extends VulnRow K where
  id : Uuid
  assetValue : Option String

structure TopRisk (K : Type) where
  title : Option String
  severity : Option String
  maxRisk : Option K
  maxCvss : Option K
  endpointCount : ℕ
  deriving DecidableEq

/-- What `progress_for_project` returns. -/
structure Progress where
  total : ℕ
  byStatus : List (RemediationStatus × ℕ)
  openItems : ℕ
  resolved : ℕ
  overdue : ℕ
  completionPercent : ℤ
  deriving DecidableEq

structure Summary (K : Type) where
  securityScore : ℤ
  scoreBand : String
  severityCounts : List (String × ℕ)
  activeSeverityCounts : List (String × ℕ)
  totalFindings : ℕ
  activeFindings : ℕ
  affectedAssets : List String
  affectedEndpointCount : ℕ
  unresolvedIssueCount : ℕ
  topRisks : List (TopRisk K)
  remediationProgress : Progress
  riskAcceptedCount : ℕ
  deriving DecidableEq

/-- The columns of `risk_assessment_findings` that are copied. -/
structure FrozenFinding (K : Type) where
  issueKey : String
  vulnerabilityId : Uuid
  frozenTitle : Option String
  frozenSeverity : Option String
  frozenCvssScore : Option K
  frozenFinalRiskScore : Option K
  frozenVulnerabilityStatus : Option String
  frozenRemediationStatus : Option RemediationStatus
  riskAccepted : Bool
  locationCount : ℕ
  deriving DecidableEq

/-! ## The statements -/

section

variable {K : Type} (live : LiveTables K) (workspaceId projectId : Uuid)

/-- `ORDER BY cvss_score DESC`, where NULL comes last; the rows are in the order of `created_at`. -/
def Vulnerability.reportKey (v : Vulnerability) : ℕ ×ₗ ℕᵒᵈ :=
  toLex (if v.cvssScore.isSome then 0 else 1, .toDual (v.cvssScore.getD 0))

def LiveTables.reportVulnerabilities : List Vulnerability :=
  (live.vulnerabilities.filter (·.projectId = projectId)).insertionSort fun v w =>
    v.reportKey ≤ w.reportKey

/-- The items of a project. -/
def LiveTables.projectItems : List RemediationItem :=
  live.items.filter fun item => item.projectId = projectId ∧ item.workspaceId = workspaceId

/-- `GROUP BY status`. -/
def LiveTables.itemsByStatus : List (RemediationStatus × ℕ) :=
  let items := live.projectItems workspaceId projectId
  (items.map (·.status)).dedup.map fun st => (st, items.countP (·.status = st))

/-- The open items whose due date is over. -/
def LiveTables.overdueItems (now : ℤ) : ℕ :=
  (live.projectItems workspaceId projectId).countP fun item =>
    item.dueDate.any (· < now) ∧ item.status ∈ openStatuses

/-- `active_acceptance_vuln_ids`. -/
def LiveTables.activeAcceptanceVulnIds : List Uuid :=
  ((live.acceptances.filter fun a => a.workspaceId = workspaceId ∧ a.projectId = projectId ∧
    a.status = .active).map (·.vulnerabilityId)).dedup

/-- The status of the item of each issue. -/
def LiveTables.itemStatuses : List (String × RemediationStatus) :=
  (live.projectItems workspaceId projectId).map fun item => (item.issueKey, item.status)

end

/-! ## The snapshot -/

/-- The entry of a dictionary that is filled in the order of the list. -/
def lastEntry {α β : Type} [DecidableEq α] (l : List (α × β)) (key : α) : Option β :=
  l.reverse.lookup key

/-- `_score_band`. -/
def scoreBand (score : ℤ) : String :=
  if 90 ≤ score then "Strong"
  else if 70 ≤ score then "Fair"
  else if 40 ≤ score then "Weak"
  else "Critical"

section

variable {K : Type} [Field K] [LinearOrder K]

/-- The row of a vulnerability. -/
def SnapshotReads.row (reads : SnapshotReads K) (v : Vulnerability) : AssessedRow K where
  severity := some v.severity
  status := some v.status.text
  templateId := v.templateId
  title := some v.title
  matchedAt := v.matchedAt
  cvssScore := v.cvssScore.map fun tenths => (tenths : K) / (10 : ℕ)
  finalRiskScore := (lastEntry reads.riskScores v.id).join
  tags := none
  cve := none
  category := v.category
  id := v.id
  assetValue := v.assetId.bind (lastEntry reads.assets)

def SnapshotReads.rows (reads : SnapshotReads K) : List (AssessedRow K) :=
  reads.vulnerabilities.map reads.row

/-- The count of all rows by severity. -/
def severityCounts (vulns : List (VulnRow K)) : List (String × ℕ) :=
  severityOrder.map fun severity =>
    (severity, vulns.countP fun v => countedSeverity v = severity)

/-- `_currently_affecting`. -/
def currentlyAffecting (rows : List (AssessedRow K)) : List (AssessedRow K) :=
  rows.filter fun v => v.isScorable

/-- `affected_assets`. -/
def affectedAssets (rows : List (AssessedRow K)) : List String :=
  sorted ((currentlyAffecting rows).filterMap fun v => truthy v.assetValue).dedup

/-- `affected_endpoint_count`. -/
def affectedEndpointCount (rows : List (AssessedRow K)) : ℕ :=
  ((currentlyAffecting rows).filterMap fun v => truthy v.matchedAt).dedup.length

/-- `progress_for_project`; the percentage is rounded as the score is. -/
def SnapshotReads.progress (svc : AssessmentServices K) (reads : SnapshotReads K) : Progress :=
  let total := (reads.byStatus.map (·.2)).sum
  let count := fun statuses : List RemediationStatus =>
    (statuses.map fun st => (reads.byStatus.lookup st).getD 0).sum
  { total
    byStatus := remediationStatuses.map fun st => (st, (reads.byStatus.lookup st).getD 0)
    openItems := count openStatuses
    resolved := count resolvedStatuses
    overdue := reads.overdue
    completionPercent :=
      if total = 0 then 0
      else svc.round.round (((100 * count resolvedStatuses : ℕ) : K) / (total : K)) }

/-- The summary of `_build_snapshot`. -/
def SnapshotReads.summary (svc : AssessmentServices K) (reads : SnapshotReads K) : Summary K :=
  let vulns := reads.rows.map (·.toVulnRow)
  let findings := vulns.map (·.toFinding)
  let score := computeSecurityScore svc.log svc.round findings
  { securityScore := score
    scoreBand := scoreBand score
    severityCounts := severityCounts vulns
    activeSeverityCounts := activeCounts vulns
    totalFindings := vulns.length
    activeFindings := ((activeCounts vulns).map (·.2)).sum
    affectedAssets := affectedAssets reads.rows
    affectedEndpointCount := affectedEndpointCount reads.rows
    unresolvedIssueCount := (groupIssues svc.log findings).length
    topRisks := ((topRiskGroups vulns).take 10).map fun g =>
      ⟨g.title, g.severity, g.maxRisk, g.maxCvss, g.occurrenceCount⟩
    remediationProgress := reads.progress svc
    riskAcceptedCount := reads.accepted.length }

/-- The rows of `_build_snapshot`: one for each scorable finding. -/
def SnapshotReads.findings (svc : AssessmentServices K) (reads : SnapshotReads K) :
    List (FrozenFinding K) :=
  let issues := groupIssues svc.log (reads.rows.map (·.toFinding))
  let locationCounts := issues.map fun issue => (issue.key, issue.locationCount)
  (currentlyAffecting reads.rows).map fun row =>
    { issueKey := row.issueKey
      vulnerabilityId := row.id
      frozenTitle := row.title
      frozenSeverity := row.severity
      frozenCvssScore := row.cvssScore
      frozenFinalRiskScore := row.finalRiskScore
      frozenVulnerabilityStatus := row.status
      frozenRemediationStatus := lastEntry reads.remediationStatusByKey row.issueKey
      riskAccepted := reads.accepted.any (· = row.id)
      locationCount := (lastEntry locationCounts row.issueKey).getD 1 }

end

/-! ## The narrative -/

/-- `_plural`. -/
def plural (n : ℕ) (singular : String) (plural : Option String) : String :=
  if n = 1 then singular else plural.getD (singular ++ "s")

section

variable {K : Type}

/-- The sentence on the trend, when there is a predecessor. -/
def trendPart (score previousScore : ℤ) : String :=
  let delta := score - previousScore
  let points := plural delta.natAbs "point" none
  if 0 < delta then
    s!"This is an improvement of {delta} {points} since the previous assessment " ++
      s!"({previousScore}/100)."
  else if delta < 0 then
    s!"This is a decline of {delta.natAbs} {points} since the previous assessment " ++
      s!"({previousScore}/100), which warrants attention before the next reporting period."
  else s!"The score is unchanged from the previous assessment ({previousScore}/100)."

/-- The recommendations, each only when the figures call for it. -/
def Summary.recommendations (summary : Summary K) : List String :=
  let count := fun severity => (summary.activeSeverityCounts.lookup severity).getD 0
  let critical := count "critical"
  let high := count "high"
  let medium := count "medium"
  let progress := summary.remediationProgress
  let accepted := summary.riskAcceptedCount
  let recs :=
    (if critical = 0 then [] else
      [s!"Remediate the {critical} active critical-severity " ++ plural critical "finding" none ++
        " first; these carry the largest single contribution to the score and should be " ++
        "scheduled immediately."]) ++
    (if high = 0 then [] else
      [s!"Address the {high} active high-severity " ++ plural high "finding" none ++
        " in the current remediation cycle."]) ++
    (if progress.overdue = 0 then [] else
      [s!"{progress.overdue} remediation " ++
        plural progress.overdue "item is" (some "items are") ++ " past the agreed due date. " ++
        "Re-baseline the dates or escalate ownership -- an overdue item is an unmanaged risk, " ++
        "not a scheduled one."]) ++
    (if progress.openItems = 0 ∨ 50 ≤ progress.completionPercent then [] else
      [s!"Remediation completion stands at {progress.completionPercent}%, with " ++
        s!"{progress.openItems} " ++ plural progress.openItems "item" none ++
        " still outstanding. Assign owners and due dates to any unassigned items so progress " ++
        "becomes measurable."]) ++
    (if accepted = 0 then [] else
      [s!"{accepted} " ++ plural accepted "finding has" (some "findings have") ++
        " a formal risk acceptance in force. Confirm each acceptance is still justified before " ++
        "its expiry date, since an accepted risk remains a live technical exposure."]) ++
    (if medium = 0 ∨ critical ≠ 0 ∨ high ≠ 0 then [] else
      [s!"With no critical or high-severity findings outstanding, the {medium} active " ++
        "medium-severity " ++ plural medium "finding" none ++
        " represent the next meaningful improvement to the score."])
  if recs = [] then
    ["No outstanding critical or high-severity findings and no overdue remediation work. " ++
      "Maintain the current scanning cadence and re-assess next period."]
  else recs

/-- `build_narrative`, for a summary that a snapshot has returned. -/
def buildNarrative (summary : Summary K) (previous : Option (Summary K)) : String :=
  let issues := summary.unresolvedIssueCount
  let assets := summary.affectedAssets.length
  let endpoints := summary.affectedEndpointCount
  let posture :=
    s!"The project's security score is {summary.securityScore}/100 ({summary.scoreBand}), " ++
      s!"derived from {issues} distinct unresolved " ++ plural issues "issue" none ++
      s!" across {assets} affected " ++ plural assets "asset" none ++
      s!" and {endpoints} affected " ++ plural endpoints "endpoint" none ++ "."
  let trend := previous.map fun previous => trendPart summary.securityScore previous.securityScore
  let numbered := summary.recommendations.zipIdx.map fun rec => s!"{rec.2 + 1}. {rec.1}"
  "\n".intercalate
    (posture :: trend.toList ++ ["Recommended management actions:"] ++ numbered)

end

end ScanPlatform
