import Mathlib.Data.Prod.Lex
import ScanPlatform.Base.Newest
import ScanPlatform.Base.Rows
import ScanPlatform.Manager.Db
import ScanPlatform.Nuclei.Fingerprint
import ScanPlatform.Reports.Verification

/-!
# The confidence of an item and that of its finding

A report judges every finding by a row that `gather_report_data` builds, and the remediation
workflow judges the vulnerability of an item by a row of its own, which leaves the classification
out.

* `EvidenceTables`: the rows that both read;
* `gatherRows`: the rows of a report; `evidenceConfidenceForItem`: the block of an item;
* `countArtefacts_congr`: order and duplicates do not count;
* **`item_agrees_with_report`**: the two agree.
-/

set_option autoImplicit false

namespace ScanPlatform

namespace EvidenceConfidence

/-! ## Rows -/

/-- A row of `vulnerabilities`. -/
structure ReportedVulnerability (K : Type) where
  id : Uuid
  projectId : Uuid
  fingerprint : String
  title : String
  category : Option String
  severity : String
  status : String
  cvssScore : Option K
  lastSeenScanId : Option Uuid

/-- A row of `evidence`, with the time of its capture. -/
structure CapturedEvidence extends Evidence where
  createdAt : ℤ

/-- The tables, as the bound workspace sees them. -/
structure EvidenceTables (K : Type) where
  vulnerabilities : List (ReportedVulnerability K)
  unique : (vulnerabilities.map (·.id)).Nodup
  evidence : List CapturedEvidence
  /-- The vulnerability and the evidence of the rows of `vulnerability_evidence`. -/
  vulnerabilityEvidence : List (Uuid × Uuid)

variable {K : Type}

/-- The evidence of a vulnerability. -/
def EvidenceTables.evidenceOf (db : EvidenceTables K) (vulnerabilityId : Uuid) :
    List CapturedEvidence :=
  db.evidence.filter fun e => db.vulnerabilityEvidence.any (· = (vulnerabilityId, e.id))

def isScreenshot (e : CapturedEvidence) : Bool := e.evidenceType = "screenshot"

/-! ## The report -/

/-- A row of a report, with what its judgement reads. -/
structure VulnRow (K : Type) where
  id : Uuid
  title : String
  severity : String
  status : String
  category : Option String
  cvssScore : Option K
  evidenceUris : List String
  screenshots : List (String × String)
  templateId : Option String
  matcherName : Option String
  matchedAt : Option String
  cve : Option String
  tags : Option Tags
  classification : Classification
  verification : VerificationState
  confidence : Confidence

section

variable [Zero K] [LT K] [DecidableLT K]

/-- A vulnerability as `classify_row` reads its row. -/
def findingOf (v : ReportedVulnerability K) : Finding K :=
  let parsed := parseFingerprint (some v.fingerprint)
  { severity := some v.severity
    status := some v.status
    templateId := parsed.1
    title := some v.title
    matchedAt := parsed.2.2
    cvssScore := v.cvssScore
    finalRiskScore := none
    tags := none
    cve := none }

/-- The row of a vulnerability as the report has `classify_verification_row` read it; its evidence
is in the order of its capture, and without duplicates. -/
def verificationRowOf (db : EvidenceTables K) (v : ReportedVulnerability K) : VerificationRow :=
  let parsed := parseFingerprint (some v.fingerprint)
  let rows := Newest.sortByKey (fun e : CapturedEvidence => toLex (e.createdAt, e.id.toNat))
    (db.evidenceOf v.id)
  { templateId := parsed.1
    matcherName := parsed.2.1
    evidenceUris := ((rows.filter fun e => !isScreenshot e).map (·.storageUri)).eraseDups
    screenshots := ((rows.filter isScreenshot).map fun e => (e.storageUri, e.checksum)).eraseDups
    classification := some (classifyRow (findingOf v))
    cve := none }

/-- The row of `gather_report_data`. -/
def reportRow (db : EvidenceTables K) (v : ReportedVulnerability K) : VulnRow K :=
  let parsed := parseFingerprint (some v.fingerprint)
  let read := verificationRowOf db v
  let verdict := classifyVerification read
  { id := v.id
    title := v.title
    severity := v.severity
    status := v.status
    category := v.category
    cvssScore := v.cvssScore
    evidenceUris := read.evidenceUris
    screenshots := read.screenshots
    templateId := parsed.1
    matcherName := parsed.2.1
    matchedAt := parsed.2.2
    cve := none
    tags := none
    classification := classifyRow (findingOf v)
    verification := verdict.1
    confidence := verdict.2 }

/-- The rows of `gather_report_data`, in the order of the table. -/
def gatherRows (db : EvidenceTables K) (projectId : Uuid) (scanIds : List Uuid) :
    List (VulnRow K) :=
  (db.vulnerabilities.filter fun v => v.projectId = projectId &&
    (scanIds.isEmpty || v.lastSeenScanId.any fun id => scanIds.any (· = id))).map (reportRow db)

end

/-! ## An item -/

structure ItemVerdict where
  vulnerabilityId : Uuid
  verification : VerificationState
  confidence : Confidence
  deriving DecidableEq

/-- The row that `evidence_confidence_for_item` builds. -/
def itemRowOf (db : EvidenceTables K) (v : ReportedVulnerability K) : VerificationRow :=
  let parsed := parseFingerprint (some v.fingerprint)
  let rows := db.evidenceOf v.id
  { templateId := parsed.1
    matcherName := parsed.2.1
    evidenceUris := (rows.filter fun e => !isScreenshot e).map (·.storageUri)
    screenshots := (rows.filter isScreenshot).map fun e => (e.storageUri, e.checksum)
    classification := none
    cve := none }

/-- `evidence_confidence_for_item`, of the vulnerability of the item. -/
def evidenceConfidenceForItem (db : EvidenceTables K) (vulnerabilityId : Option Uuid) :
    Option ItemVerdict :=
  match vulnerabilityId.bind (Rows.row (·.id) db.vulnerabilities) with
  | none => none
  | some v =>
    let (verification, confidence) := classifyVerification (itemRowOf db v)
    some ⟨v.id, verification, confidence⟩

/-! ## Agreement -/

/-- Whether there is an artefact depends on the members alone. -/
theorem countArtefacts_congr {uris uris' : List String} (h : ∀ u, u ∈ uris' ↔ u ∈ uris) :
    countArtefacts uris' = 0 ↔ countArtefacts uris = 0 := by
  unfold countArtefacts
  rw [List.countP_eq_zero, List.countP_eq_zero]
  exact forall_congr' fun u => by rw [h]

theorem evidenceConfidenceForItem_of_row {db : EvidenceTables K} {id : Uuid}
    {v : ReportedVulnerability K}
    (h : Rows.row (·.id) db.vulnerabilities id = some v) :
    evidenceConfidenceForItem db (some id) = some ⟨v.id,
      (classifyVerification (itemRowOf db v)).1, (classifyVerification (itemRowOf db v)).2⟩ := by
  rw [evidenceConfidenceForItem, Option.bind_some, h]

section

variable [Zero K] [LT K] [DecidableLT K] {db : EvidenceTables K}

/-- A classification as a detection, with no tags to read, is one of the template. -/
theorem isGeneric_of_classifyRow {v : ReportedVulnerability K} {matcherName : Option String}
    (h : classifyRow (findingOf v) = .detection) :
    isGeneric [(findingOf v).templateId, matcherName] = true :=
  isGeneric_of_detection (template_of_detection rfl h)

/-- The item and the report judge a vulnerability alike. -/
theorem classify_item (db : EvidenceTables K) (v : ReportedVulnerability K) :
    classifyVerification (itemRowOf db v) = classifyVerification (verificationRowOf db v) := by
  have hmem : ∀ e, e ∈ Newest.sortByKey
      (fun e : CapturedEvidence => toLex (e.createdAt, e.id.toNat)) (db.evidenceOf v.id) ↔
        e ∈ db.evidenceOf v.id := fun e => (Newest.sortByKey_perm _).mem_iff
  refine classifyVerification_congr rfl rfl ?_ ?_ rfl ?_
  · refine countArtefacts_congr fun u => ?_
    simp [itemRowOf, verificationRowOf, hmem]
  · refine countArtefacts_congr fun u => ?_
    simp [itemRowOf, verificationRowOf, hmem]
  · intro hgeneric
    have hvulnerability : classifyRow (findingOf v) ≠ .detection := fun h =>
      absurd (isGeneric_of_classifyRow h) (by rw [Bool.not_eq_true]; exact hgeneric)
    simp [itemRowOf, verificationRowOf, hvulnerability]

/-- **The item of a finding agrees with the report**: for every row of every report of the project,
the workflow shows the state and the confidence that the report prints. -/
theorem item_agrees_with_report {projectId : Uuid} {scanIds : List Uuid} {row : VulnRow K}
    (hrow : row ∈ gatherRows db projectId scanIds) :
    evidenceConfidenceForItem db (some row.id) =
      some ⟨row.id, row.verification, row.confidence⟩ := by
  obtain ⟨v, hv, rfl⟩ := List.mem_map.mp hrow
  have hfound : Rows.row (·.id) db.vulnerabilities v.id = some v :=
    Rows.row_of_mem db.unique (List.mem_of_mem_filter hv)
  simp only [reportRow]
  rw [evidenceConfidenceForItem_of_row hfound, classify_item]

end

section Lab

def labFinding : ReportedVulnerability ℤ where
  id := 1
  projectId := 2
  fingerprint := "sql-login|body|https://app/login"
  title := "SQL injection"
  category := none
  severity := "high"
  status := "open"
  cvssScore := some 9
  lastSeenScanId := some 3

/-- One finding, with a screenshot of it. -/
def labTables : EvidenceTables ℤ where
  vulnerabilities := [labFinding]
  unique := by decide
  evidence :=
    [{ id := 4, toolRunId := some 5, evidenceType := "screenshot",
       storageUri := "s3://evidence/4", checksum := "c4", createdAt := 0 }]
  vulnerabilityEvidence := [(1, 4)]

theorem item_agrees_in_lab : reportRow labTables labFinding ∈ gatherRows labTables 2 [3] ∧
    evidenceConfidenceForItem labTables (some (reportRow labTables labFinding).id) =
      some ⟨(reportRow labTables labFinding).id, (reportRow labTables labFinding).verification,
        (reportRow labTables labFinding).confidence⟩ :=
  have hrow : reportRow labTables labFinding ∈ gatherRows labTables 2 [3] :=
    List.mem_map_of_mem (List.mem_filter.mpr ⟨List.mem_singleton_self _, by decide⟩)
  ⟨hrow, item_agrees_with_report hrow⟩

end Lab

end EvidenceConfidence

end ScanPlatform
