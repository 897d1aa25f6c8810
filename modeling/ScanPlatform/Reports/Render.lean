import ScanPlatform.Reports.Narrative
import ScanPlatform.Reports.Scoring

/-!
# The surfaces of a report

What a report shows of the rows of a project: the findings, the key risks, the themes and the
recommendations.

* `topRiskGroups`, `findingGroups`: the rows by issue, as the two reports list them;
* `keyThemes`, `recommendations`: what is said of all of them;
* `buildReportModel`: the report;
* `mem_findingGroups`, `mem_topRiskGroups`: each issue has one entry;
* `findingGroups_keys`, `topRiskGroups_keys`: the issues of the entries.
-/

set_option autoImplicit false

namespace ScanPlatform

open Grouping

/-- A row of a report. -/
structure VulnRow (K : Type*) extends Finding K where
  category : Option String

/-- `_SEVERITY_ORDER`. -/
def severityOrder : List String := ["critical", "high", "medium", "low", "info"]

/-- `_SEVERITY_RANK.get(severity, 0)`. -/
def displayRank : Option String → ℕ
  | none => 0
  | some severity => severityOrder.length - severityOrder.idxOf severity

/-- The rank of the severity of a row. -/
def VulnRow.rank {K : Type*} (v : VulnRow K) : ℕ := displayRank v.severity

structure RiskEntry (K : Type*) where
  title : Option String
  issueKey : String
  occurrenceCount : ℕ
  maxRisk : Option K
  maxCvss : Option K
  severity : Option String

/-- An issue as the report presents it. -/
structure FindingRecord (K : Type*) where
  issueKey : String
  title : Option String
  severity : Option String
  status : String
  classification : Classification
  cvssScore : Option K
  businessRisk : Option K
  category : Option String
  templateId : Option String
  locations : List String
  unlocatedCount : ℕ
  occurrenceCount : ℕ

structure WeaknessTheme where
  name : String
  issueCount : ℕ
  findingCount : ℕ

structure Recommendation where
  priority : String
  action : String

/-- A line of `_REMEDIATION_BUCKETS`. -/
structure Bucket where
  label : String
  severity : String
  guidance : String

/-- `_REMEDIATION_BUCKETS`. -/
def remediationBuckets : List Bucket :=
  [⟨"Immediate", "critical", "Address without delay."⟩,
    ⟨"High Priority", "high", "Address in the current remediation cycle."⟩,
    ⟨"Medium Priority", "medium", "Schedule into the next planned cycle."⟩,
    ⟨"Long Term", "low", "Track and resolve as part of routine hardening."⟩]

/-- The rows of a report, and what else its recommendations read: the number of active findings
that are not independently confirmed, and the names of the compliance frameworks. -/
structure ReportData (K : Type*) where
  vulns : List (VulnRow K)
  activeSeverityCounts : List (String × ℕ)
  unproven : ℕ
  frameworks : List String

structure ReportModel (K : Type*) where
  totalIssues : ℕ
  activeIssues : ℕ
  scorableIssues : ℕ
  severityActive : List (String × ℕ)
  findings : List (FindingRecord K)
  activeFindings : List (FindingRecord K)
  keyRisks : List (RiskEntry K)
  unproven : ℕ
  frameworks : List String
  remediation : List (Bucket × List (FindingRecord K))
  themes : List WeaknessTheme
  recommendations : List Recommendation

section

variable {K : Type*} [Field K] [LinearOrder K]

def activeRows (vulns : List (VulnRow K)) : List (VulnRow K) := vulns.filter fun v => v.isActive

/-- The rows of an issue. -/
def issueRows (vulns : List (VulnRow K)) (key : String) : List (VulnRow K) :=
  members (fun v => v.issueKey) vulns key

/-- `max(members, key=lambda m: _SEVERITY_RANK.get(m.severity, 0)).severity`. -/
def worstSeverity (rows : List (VulnRow K)) : Option String :=
  (rows.argmax VulnRow.rank).bind fun m => m.severity

/-- A missing value is below every value. -/
def orBelow (value : Option K) : K := value.getD (-1)

/-! ## Key risks -/

/-- `_member_sort_key`. -/
def memberSortKey (v : VulnRow K) : Kᵒᵈ ×ₗ Kᵒᵈ ×ₗ ℕᵒᵈ ×ₗ String :=
  toLex (.toDual (orBelow v.finalRiskScore), toLex (.toDual (orBelow v.cvssScore),
    toLex (.toDual v.rank, v.title.getD "")))

def riskEntry (key : String) (rows : List (VulnRow K)) : RiskEntry K where
  title := (rows.argmin memberSortKey).bind fun m => m.title
  issueKey := key
  occurrenceCount := rows.length
  maxRisk := maxRisk (rows.map VulnRow.toFinding)
  maxCvss := maxCvss (rows.map VulnRow.toFinding)
  severity := worstSeverity rows

/-- The order of key risks. -/
def RiskEntry.sortKey (g : RiskEntry K) : Kᵒᵈ ×ₗ Kᵒᵈ ×ₗ ℕᵒᵈ ×ₗ String ×ₗ String :=
  toLex (.toDual (orBelow g.maxRisk), toLex (.toDual (orBelow g.maxCvss),
    toLex (.toDual (displayRank g.severity), toLex (g.title.getD "", g.issueKey))))

/-- `_top_risk_groups`. -/
def topRiskGroups (vulns : List (VulnRow K)) : List (RiskEntry K) :=
  ((groupBy (fun v => v.issueKey) (activeRows vulns)).map fun b =>
    riskEntry b.1 b.2).insertionSort fun g g' => g.sortKey ≤ g'.sortKey

/-! ## Findings -/

/-- `_rep_key`. -/
def repKey (v : VulnRow K) : K ×ₗ ℕ ×ₗ K :=
  toLex (orBelow v.finalRiskScore, toLex (v.rank, orBelow v.cvssScore))

/-- The row that stands for an issue: an active one, if there is any. -/
def representative (rows : List (VulnRow K)) : Option (VulnRow K) :=
  (if activeRows rows = [] then rows else activeRows rows).argmax repKey

def findingRecord (key : String) (rows : List (VulnRow K)) : FindingRecord K where
  issueKey := key
  title := (representative rows).bind fun v => v.title
  severity := worstSeverity rows
  status := ((representative rows).bind fun v => v.status).getD ""
  classification :=
    if rows.any fun m => classifyRow m.toFinding = .vulnerability then .vulnerability
    else .detection
  cvssScore := (representative rows).bind fun v => v.cvssScore
  businessRisk := (representative rows).bind fun v => v.finalRiskScore
  category := (representative rows).bind fun v => v.category
  templateId := (representative rows).bind fun v => v.templateId
  locations := (rows.filterMap fun m => truthy m.matchedAt).dedup.insertionSort (· ≤ ·)
  unlocatedCount := rows.countP fun m => truthy m.matchedAt = none
  occurrenceCount := rows.length

/-- The order of findings. -/
def FindingRecord.sortKey (g : FindingRecord K) : ℕᵒᵈ ×ₗ Kᵒᵈ ×ₗ String ×ₗ String :=
  toLex (.toDual (displayRank g.severity), toLex (.toDual (orBelow g.cvssScore),
    toLex (g.title.getD "", g.issueKey)))

/-- `_finding_groups`, as the records that the model makes of them. -/
def findingGroups (vulns : List (VulnRow K)) : List (FindingRecord K) :=
  ((groupBy (fun v => v.issueKey) vulns).map fun b =>
    findingRecord b.1 b.2).insertionSort fun g g' => g.sortKey ≤ g'.sortKey

/-- What the score and the classifier read of a record, which has no tags and no CVE. -/
def FindingRecord.toFinding (f : FindingRecord K) : Finding K where
  severity := f.severity
  status := some f.status
  templateId := f.templateId
  title := f.title
  matchedAt := none
  cvssScore := f.cvssScore
  finalRiskScore := none
  tags := none
  cve := none

/-! ## Rollups -/

/-- The weakness class of a record. -/
def FindingRecord.weakness (f : FindingRecord K) : String :=
  classifyWeakness f.category f.templateId f.title none

/-- The order of themes. -/
def WeaknessTheme.sortKey (t : WeaknessTheme) : ℕᵒᵈ ×ₗ ℕᵒᵈ ×ₗ String :=
  toLex (.toDual t.issueCount, toLex (.toDual t.findingCount, t.name))

def weaknessTheme (name : String) (records : List (FindingRecord K)) : WeaknessTheme where
  name := name
  issueCount := (records.map FindingRecord.issueKey).dedup.length
  findingCount := (records.map FindingRecord.occurrenceCount).sum

/-- `_key_themes`. -/
def keyThemes (model : ReportModel K) : List WeaknessTheme :=
  ((groupBy FindingRecord.weakness (model.findings.filter fun f => f.toFinding.isScorable)).map
    fun b => weaknessTheme b.1 b.2).insertionSort fun t t' => t.sortKey ≤ t'.sortKey

/-- The number of recorded findings that a recommendation counts. -/
def ReportModel.bucketFindings (model : ReportModel K) (severity : String) : ℕ :=
  (model.severityActive.lookup severity).getD 0

/-- The number of issues that a recommendation names. -/
def ReportModel.bucketIssues (model : ReportModel K) (severity : String) : ℕ :=
  model.activeFindings.countP fun f => lowered f.severity = severity

/-- The line of a bucket, if it counts any finding. -/
def bucketLine (model : ReportModel K) (bucket : Bucket) : Option Recommendation :=
  let n := model.bucketFindings bucket.severity
  let issues := model.bucketIssues bucket.severity
  if n = 0 then none
  else some ⟨bucket.label, s!"Remediate the {issues} {bucket.severity}-severity issue(s) " ++
    s!"({n} recorded finding(s)). {bucket.guidance}"⟩

/-- `_recommendations`. -/
def recommendations (model : ReportModel K) : List Recommendation :=
  remediationBuckets.filterMap (bucketLine model) ++
    (if model.unproven = 0 then [] else
      [⟨"Validation", s!"Manually validate the {model.unproven} finding(s) that are not " ++
        "independently confirmed, so remediation effort is spent on demonstrated problems " ++
        "first."⟩]) ++
    if model.frameworks = [] then [] else
      [⟨"Compliance", "Review the controls mapped from current findings in " ++
        ", ".intercalate model.frameworks ++ ". These are finding-derived mappings, not an " ++
        "audit or a statement of certification."⟩]

/-! ## The report -/

/-- The severity under which a row is counted. -/
def countedSeverity (v : VulnRow K) : String :=
  (v.severity.filter fun s => s ∈ severityOrder).getD "info"

/-- The part of `gather_report_data` that counts the active rows. -/
def activeCounts (vulns : List (VulnRow K)) : List (String × ℕ) :=
  severityOrder.map fun severity =>
    (severity, (activeRows vulns).countP fun v => countedSeverity v = severity)

def gatherReportData (vulns : List (VulnRow K)) (unproven : ℕ) (frameworks : List String) :
    ReportData K :=
  ⟨vulns, activeCounts vulns, unproven, frameworks⟩

/-- `total_issue_count`. -/
def ReportData.totalIssueCount (data : ReportData K) : ℕ :=
  (data.vulns.map fun v => v.issueKey).dedup.length

/-- `active_issue_count`. -/
def ReportData.activeIssueCount (data : ReportData K) : ℕ :=
  ((activeRows data.vulns).map fun v => v.issueKey).dedup.length

/-- `scorable_issue_count`. -/
def ReportData.scorableIssueCount (log : Log K) (data : ReportData K) : ℕ :=
  (groupIssues log (data.vulns.map VulnRow.toFinding)).length

/-- `build_report_model`. -/
def buildReportModel (log : Log K) (data : ReportData K) : ReportModel K :=
  let activeFindings := findingGroups (activeRows data.vulns)
  let base : ReportModel K :=
    { totalIssues := data.totalIssueCount
      activeIssues := data.activeIssueCount
      scorableIssues := data.scorableIssueCount log
      severityActive := data.activeSeverityCounts
      findings := findingGroups data.vulns
      activeFindings := activeFindings
      keyRisks := topRiskGroups data.vulns
      unproven := data.unproven
      frameworks := data.frameworks
      remediation := (remediationBuckets.map fun bucket => (bucket, activeFindings.filter fun f =>
        lowered f.severity = bucket.severity)).filter fun b => b.2 ≠ []
      themes := []
      recommendations := [] }
  { base with themes := keyThemes base, recommendations := recommendations base }

/-! ## The entries -/

variable {vulns : List (VulnRow K)}

theorem perm_findingGroups (vulns : List (VulnRow K)) : (findingGroups vulns).Perm
    ((firstKeys (fun v => v.issueKey) vulns).map fun key =>
      findingRecord key (issueRows vulns key)) :=
  perm_sort_groupBy ..

theorem perm_topRiskGroups (vulns : List (VulnRow K)) : (topRiskGroups vulns).Perm
    ((firstKeys (fun v => v.issueKey) (activeRows vulns)).map fun key =>
      riskEntry key (issueRows (activeRows vulns) key)) :=
  perm_sort_groupBy ..

/-- **Each issue has one finding**, made of all its rows. -/
theorem mem_findingGroups {f : FindingRecord K} : f ∈ findingGroups vulns ↔
    ∃ v ∈ vulns, f = findingRecord v.issueKey (issueRows vulns v.issueKey) := by
  rw [(perm_findingGroups vulns).mem_iff, mem_map_firstKeys]

/-- **Each active issue has one key risk**, made of its active rows. -/
theorem mem_topRiskGroups {g : RiskEntry K} : g ∈ topRiskGroups vulns ↔
    ∃ v ∈ activeRows vulns,
      g = riskEntry v.issueKey (issueRows (activeRows vulns) v.issueKey) := by
  rw [(perm_topRiskGroups vulns).mem_iff, mem_map_firstKeys]

theorem findingGroups_keys (vulns : List (VulnRow K)) :
    ((findingGroups vulns).map FindingRecord.issueKey).Perm
      (vulns.map fun v => v.issueKey).dedup := by
  have hperm := (perm_findingGroups vulns).map FindingRecord.issueKey
  have hkeys : FindingRecord.issueKey ∘ (fun key => findingRecord key (issueRows vulns key)) = id :=
    rfl
  rw [List.map_map, hkeys, List.map_id] at hperm
  exact hperm.trans (firstKeys_perm _ vulns)

theorem topRiskGroups_keys (vulns : List (VulnRow K)) :
    ((topRiskGroups vulns).map RiskEntry.issueKey).Perm
      ((activeRows vulns).map fun v => v.issueKey).dedup := by
  have hperm := (perm_topRiskGroups vulns).map RiskEntry.issueKey
  have hkeys : RiskEntry.issueKey ∘
      (fun key => riskEntry key (issueRows (activeRows vulns) key)) = id := rfl
  rw [List.map_map, hkeys, List.map_id] at hperm
  exact hperm.trans (firstKeys_perm _ (activeRows vulns))

end

end ScanPlatform
