import ScanPlatform.Base.Checks
import ScanPlatform.Base.PyStr
import ScanPlatform.Base.Rows
import ScanPlatform.Base.UnitOfWork
import ScanPlatform.Remediation.Db
import ScanPlatform.Remediation.Verification

/-!
# The tables of findings

What a tool reports as a severity and as a weakness, and the canonical form that is stored.

The rows that the ingestion of a finding reads and writes, in the database of the remediation
workflow. Ingestion shares the session of its caller, so that what it writes is held until somebody
commits.

What an analyst may set, which is not what ingestion does.

* `severities`, `normalizeSeverity`, **`normalizeSeverity_mem`**: a stored severity is canonical;
* `canonicalCwe`, `canonicalCve`: the canonical form of a weakness and of a published vulnerability,
  if there is one;
* `VulnerabilityHistory`, `VulnerabilityLineage`, `FindingsDb`: the rows;
* `TrackedFields`: the columns whose changes the history records;
* `WorkflowChange`: what the workflow writes, which is not to the findings;
* `Assigns`, `IngestWrite`: the writes of ingestion;
* `FindingsDb.findings`, **`isolated_findings`**: the findings and their history, which only
  ingestion writes;
* **`fixed_of_actAll`**: ingestion marks no finding as fixed;
* `settableStatuses`, `legalStatusTargets`: the statuses that may be set, and from where;
* `setStatus`, **`setStatus_eq_ok`**: what setting one does to the findings.
-/

set_option autoImplicit false

/-! ## The taxonomy of findings -/

namespace ScanPlatform

/-- `SEVERITIES`. -/
def severities : List String := ["critical", "high", "medium", "low", "info"]

/-- `UNKNOWN_SEVERITY_FALLBACK`. -/
def unknownSeverityFallback : String := "medium"

/-- `_SEVERITY_ALIASES`. -/
def severityAliases : List (String × String) :=
  [("informational", "info"), ("information", "info"), ("none", "info"),
    ("unknown", unknownSeverityFallback), ("moderate", "medium"), ("important", "high"),
    ("severe", "high")]

/-- `normalize_severity`. -/
def normalizeSeverity (value : String) : String :=
  let text := PyStr.lower (PyStr.strip value)
  if text ∈ severities then text
  else (severityAliases.lookup text).getD unknownSeverityFallback

/-- The aliases stand for canonical severities. -/
theorem lookup_severityAliases {text severity : String}
    (h : severityAliases.lookup text = some severity) : severity ∈ severities := by
  have hall : ∀ entry ∈ severityAliases, entry.2 ∈ severities := by decide
  obtain ⟨before, after, hsplit, -⟩ := List.lookup_eq_some_iff.mp h
  exact hall (text, severity) (by simp [hsplit])

/-- **Every stored severity is canonical.** -/
theorem normalizeSeverity_mem (value : String) : normalizeSeverity value ∈ severities := by
  unfold normalizeSeverity
  dsimp only
  split_ifs with hcanonical
  · exact hcanonical
  · cases halias : severityAliases.lookup (PyStr.lower (PyStr.strip value)) with
    | none => decide
    | some severity => exact lookup_severityAliases halias

/-- The digits of a match of `_CWE_RE` or `_BARE_CWE_RE`. -/
def cweDigits (text : List Char) : Option (List Char) :=
  let digits := match text with
    | 'c' :: 'w' :: 'e' :: '-' :: cs | 'c' :: 'w' :: 'e' :: '_' :: cs
    | 'c' :: 'w' :: 'e' :: ' ' :: cs | 'c' :: 'w' :: 'e' :: cs => cs
    | cs => cs
  if digits ≠ [] ∧ digits.all Char.isDigit then some digits else none

/-- `canonical_cwe`. -/
def canonicalCwe (value : Option String) : Option String :=
  (cweDigits (PyStr.lower (PyStr.strip (value.getD ""))).toList).bind fun digits =>
    let number := digits.dropWhile (· = '0')
    if number = [] then none else some ("cwe-" ++ String.ofList number)

/-- One of the separators of an identifier is skipped. -/
def dropSeparator : List Char → List Char
  | '-' :: cs | '_' :: cs | ' ' :: cs => cs
  | cs => cs

/-- The year and the number of a match of `_CVE_RE`. -/
def cveNumbers : List Char → Option (List Char × List Char)
  | 'c' :: 'v' :: 'e' :: cs =>
    let year := (dropSeparator cs).take 4
    let number := dropSeparator ((dropSeparator cs).drop 4)
    if year.length = 4 ∧ 4 ≤ number.length ∧ number.length ≤ 7 ∧ (year ++ number).all Char.isDigit
    then some (year, number) else none
  | _ => none

/-- `canonical_cve`. -/
def canonicalCve (value : Option String) : Option String :=
  (cveNumbers (PyStr.lower (PyStr.strip (value.getD ""))).toList).map fun m =>
    "CVE-" ++ String.ofList m.1 ++ "-" ++ String.ofList m.2

example : canonicalCwe (some " CWE_089 ") = some "cwe-89" := by decide

example : canonicalCwe (some "cwe-abc") = none := by decide

example : canonicalCve (some "cve_2021 44228") = some "CVE-2021-44228" := by decide

end ScanPlatform

/-! ## The tables of findings -/

namespace ScanPlatform

open UnitOfWork

/-! ## Rows -/

inductive ChangeReason where
  | created
  | observed
  deriving DecidableEq

/-- A row of `vulnerability_history`. -/
structure VulnerabilityHistory where
  projectId : Uuid
  vulnerabilityId : Uuid
  scanId : Uuid
  toolRunId : Uuid
  fingerprint : String
  title : String
  category : Option String
  description : Option String
  severity : String
  cvssVector : Option String
  cvssScore : Option ℕ
  changeReason : ChangeReason
  deriving DecidableEq

/-- `_HISTORY_TRACKED_FIELDS`. -/
structure TrackedFields where
  title : String
  description : Option String
  severity : String
  cvssVector : Option String
  cvssScore : Option ℕ
  deriving DecidableEq

def Vulnerability.tracked (v : Vulnerability) : TrackedFields :=
  ⟨v.title, v.description, v.severity, v.cvssVector, v.cvssScore⟩

def VulnerabilityHistory.tracked (entry : VulnerabilityHistory) : TrackedFields :=
  ⟨entry.title, entry.description, entry.severity, entry.cvssVector, entry.cvssScore⟩

/-- A row of `vulnerability_lineage`. -/
structure VulnerabilityLineage where
  projectId : Uuid
  oldVulnerabilityId : Uuid
  newVulnerabilityId : Uuid
  matchRule : String
  matchedLocation : Option String
  inheritedStatus : Option VulnerabilityStatus

structure FindingsDb extends RemediationDb where
  projects : Table Uuid Project
  evidence : List Evidence
  history : List VulnerabilityHistory
  lineage : List VulnerabilityLineage
  /-- The tool runs of `vulnerability_evidence`, by vulnerability and evidence. -/
  vulnerabilityEvidence : Table (Uuid × Uuid) Uuid

/-- `uq_vulnerabilities_project_fingerprint`. -/
def Vulnerability.key (v : Vulnerability) : Uuid × String := (v.projectId, v.fingerprint)

/-- The row of a project under a fingerprint. -/
def FindingsDb.finding (db : FindingsDb) (key : Uuid × String) : Option Vulnerability :=
  Rows.row Vulnerability.key db.vulnerabilities key

/-! ## Writes -/

/-- What is written to the workflow. -/
structure WorkflowChange where
  change : RemediationDb → RemediationDb
  vulnerabilities : ∀ db, (change db).vulnerabilities = db.vulnerabilities

instance : Acts WorkflowChange FindingsDb where
  act c db := { db with toRemediationDb := c.change db.toRemediationDb }

/-- An assignment to the columns of a finding that says neither which finding it is nor that it is
fixed. -/
structure Assigns (f : Vulnerability → Vulnerability) : Prop where
  id : ∀ v, (f v).id = v.id
  key : ∀ v, (f v).key = v.key
  unfixed : ∀ v, (f v).status = .fixed → v.status = .fixed

inductive IngestWrite where
  | insertRow (row : Vulnerability) (unfixed : row.status ≠ .fixed)
  | assign (id : Uuid) (f : Vulnerability → Vulnerability) (assigns : Assigns f)
  | addHistory (entry : VulnerabilityHistory)
  | insertLineage (entry : VulnerabilityLineage)
  | linkEvidence (vulnerabilityId evidenceId toolRunId : Uuid)
  | workflow (c : WorkflowChange)

/-- A link that is there already stays as it is. -/
def IngestWrite.apply : IngestWrite → FindingsDb → FindingsDb
  | .insertRow row _, db => { db with vulnerabilities := db.vulnerabilities ++ [row] }
  | .assign id f _, db => { db with
      vulnerabilities := db.vulnerabilities.map fun v => if v.id = id then f v else v }
  | .addHistory entry, db => { db with history := db.history ++ [entry] }
  | .insertLineage entry, db =>
    if db.lineage.any (·.newVulnerabilityId = entry.newVulnerabilityId) then db
    else { db with lineage := db.lineage ++ [entry] }
  | .linkEvidence vulnerabilityId evidenceId toolRunId, db =>
    match db.vulnerabilityEvidence (vulnerabilityId, evidenceId) with
    | some _ => db
    | none => { db with
        vulnerabilityEvidence :=
          db.vulnerabilityEvidence.set (vulnerabilityId, evidenceId) toolRunId }
  | .workflow c, db => Acts.act c db

instance : Acts IngestWrite FindingsDb where
  act := IngestWrite.apply

/-! ## Findings -/

/-- The findings and their history. -/
def FindingsDb.findings (db : FindingsDb) : List Vulnerability × List VulnerabilityHistory :=
  (db.vulnerabilities, db.history)

@[simp] theorem WorkflowChange.act_findings (c : WorkflowChange) (db : FindingsDb) :
    (Acts.act c db : FindingsDb).findings = db.findings :=
  congrArg (·, db.history) (c.vulnerabilities db.toRemediationDb)

@[simp] theorem insertLineage_findings (entry : VulnerabilityLineage) (db : FindingsDb) :
    ((IngestWrite.insertLineage entry).apply db).findings = db.findings := by
  unfold IngestWrite.apply
  dsimp only
  split_ifs <;> rfl

@[simp] theorem linkEvidence_findings (vulnerabilityId evidenceId toolRunId : Uuid)
    (db : FindingsDb) :
    ((IngestWrite.linkEvidence vulnerabilityId evidenceId toolRunId).apply db).findings =
      db.findings := by
  unfold IngestWrite.apply
  dsimp only
  split <;> rfl

theorem finding_congr {db db' : FindingsDb} (h : db'.findings = db.findings)
    (key : Uuid × String) : db'.finding key = db.finding key := by
  have hrows : db'.vulnerabilities = db.vulnerabilities := congrArg Prod.fst h
  unfold FindingsDb.finding
  rw [hrows]

/-- **Others leave the findings alone**, and ingestion derives them from the findings. -/
theorem isolated_findings :
    Isolated IngestWrite WorkflowChange FindingsDb.findings where
  others c db := c.act_findings db
  writes w db db' h := by
    have hrows : db.vulnerabilities = db'.vulnerabilities := congrArg Prod.fst h
    have hhistory : db.history = db'.history := congrArg Prod.snd h
    show (w.apply db).findings = (w.apply db').findings
    cases w with
    | insertRow row _ => simp [IngestWrite.apply, FindingsDb.findings, hrows, hhistory]
    | assign id f _ => simp [IngestWrite.apply, FindingsDb.findings, hrows, hhistory]
    | addHistory entry => simp [IngestWrite.apply, FindingsDb.findings, hrows, hhistory]
    | insertLineage entry => simpa using h
    | linkEvidence vulnerabilityId evidenceId toolRunId => simpa using h
    | workflow c => simpa [IngestWrite.apply] using h

/-! ## What a write does to a finding -/

theorem finding_insertRow (row : Vulnerability) (h : row.status ≠ .fixed) (db : FindingsDb)
    (key : Uuid × String) : ((IngestWrite.insertRow row h).apply db).finding key =
      (db.finding key).or (if row.key = key then some row else none) :=
  Rows.row_append _ _ _

theorem finding_assign (id : Uuid) {f : Vulnerability → Vulnerability} (h : Assigns f)
    (db : FindingsDb) (key : Uuid × String) : ((IngestWrite.assign id f h).apply db).finding key =
      (db.finding key).map fun v => if v.id = id then f v else v := by
  refine Rows.row_map (fun v => ?_) _ _
  split_ifs
  · exact h.key v
  · rfl

/-- A write marks no finding as fixed. -/
theorem fixed_of_apply {w : IngestWrite} {db : FindingsDb} {key : Uuid × String}
    {v : Vulnerability} (hv : (w.apply db).finding key = some v) (hfixed : v.status = .fixed) :
    ∃ v₀, db.finding key = some v₀ ∧ v₀.status = .fixed := by
  have same : (w.apply db).findings = db.findings →
      ∃ v₀, db.finding key = some v₀ ∧ v₀.status = .fixed := fun h =>
    ⟨v, (finding_congr h key).symm.trans hv, hfixed⟩
  cases w with
  | insertRow row hrow =>
    rw [finding_insertRow, Option.or_eq_some_iff] at hv
    rcases hv with hv | ⟨-, hv⟩
    · exact ⟨v, hv, hfixed⟩
    · split_ifs at hv
      cases hv
      exact absurd hfixed hrow
  | assign id f hf =>
    rw [finding_assign, Option.map_eq_some_iff] at hv
    obtain ⟨v₀, hv₀, rfl⟩ := hv
    refine ⟨v₀, hv₀, ?_⟩
    split_ifs at hfixed
    · exact hf.unfixed v₀ hfixed
    · exact hfixed
  | addHistory entry => exact ⟨v, hv, hfixed⟩
  | insertLineage entry => exact same (insertLineage_findings entry db)
  | linkEvidence vulnerabilityId evidenceId toolRunId =>
    exact same (linkEvidence_findings vulnerabilityId evidenceId toolRunId db)
  | workflow c => exact same (c.act_findings db)

/-- **Ingestion marks no finding as fixed.** -/
theorem fixed_of_actAll {ws : List IngestWrite} {db : FindingsDb} {key : Uuid × String}
    {v : Vulnerability} (hv : (actAll ws db).finding key = some v) (hfixed : v.status = .fixed) :
    ∃ v₀, db.finding key = some v₀ ∧ v₀.status = .fixed := by
  induction ws generalizing db with
  | nil => exact ⟨v, hv, hfixed⟩
  | cons w ws ih =>
    obtain ⟨v₁, hv₁, hfixed₁⟩ := ih hv
    exact fixed_of_apply hv₁ hfixed₁

end ScanPlatform

/-! ## The status of a finding -/

namespace ScanPlatform

def VulnerabilityStatus.text : VulnerabilityStatus → String
  | .open => "open"
  | .confirmed => "confirmed"
  | .reopened => "reopened"
  | .fixed => "fixed"
  | .falsePositive => "false_positive"
  | .acceptedRisk => "accepted_risk"

/-- `SETTABLE_STATUSES`. -/
def settableStatuses : List VulnerabilityStatus :=
  [.open, .confirmed, .falsePositive, .fixed, .acceptedRisk]

/-- `legal_status_targets`. -/
def legalStatusTargets : VulnerabilityStatus → List VulnerabilityStatus
  | .open => [.confirmed, .falsePositive, .fixed, .acceptedRisk]
  | .confirmed => [.open, .falsePositive, .fixed, .acceptedRisk]
  | .reopened => [.open, .confirmed, .falsePositive, .fixed, .acceptedRisk]
  | .fixed | .falsePositive | .acceptedRisk => [.open, .confirmed]

structure StatusCall where
  projectId : Uuid
  vulnerabilityId : Uuid
  newStatus : String
  justification : String
  changedBy : Uuid

/-- What `set_status` assigns. -/
def StatusCall.assign (call : StatusCall) (now : ℤ) (newStatus : VulnerabilityStatus)
    (v : Vulnerability) : Vulnerability :=
  { v with
    status := newStatus
    statusJustification := some call.justification
    statusChangedBy := some call.changedBy
    statusChangedAt := some now }

/-- `set_status`. -/
def setStatus (call : StatusCall) (now : ℤ) (db : FindingsDb) : Except Fault FindingsDb :=
  match settableStatuses.find? (·.text = call.newStatus) with
  | none => .error (.http 400
      ("Status must be one of: " ++
        String.intercalate ", " (sorted (settableStatuses.map (·.text)))))
  | some newStatus => do
    let v ← getVulnerability call.projectId call.vulnerabilityId db.toRemediationDb
    let allowed := legalStatusTargets v.status
    if newStatus ∉ allowed then
      .error (.http 409 (s!"Illegal status transition '{v.status.text}' -> '{newStatus.text}'. " ++
        s!"Allowed from '{v.status.text}': " ++
        String.intercalate ", " (sorted (allowed.map (·.text))) ++ "."))
    else
      .ok { db with
        vulnerabilities := db.vulnerabilities.map fun u =>
          if u.id = v.id then call.assign now newStatus u else u }

/-- There is always a status to set, so that a refusal names one. -/
theorem legalStatusTargets_ne_nil (st : VulnerabilityStatus) : legalStatusTargets st ≠ [] := by
  cases st <;> decide

/-- **One finding is assigned**, by a legal transition of it. -/
theorem setStatus_eq_ok {call : StatusCall} {now : ℤ} {db db' : FindingsDb}
    (h : setStatus call now db = .ok db') : ∃ v ∈ db.vulnerabilities, v.id = call.vulnerabilityId ∧
      ∃ newStatus ∈ legalStatusTargets v.status, db' = { db with
        vulnerabilities := db.vulnerabilities.map fun u =>
          if u.id = v.id then call.assign now newStatus u else u } := by
  unfold setStatus at h
  split at h
  · cases h
  · next newStatus _ =>
    obtain ⟨v, hv, h⟩ := Checks.bind_eq_ok.mp h
    unfold getVulnerability at hv
    split at hv
    · cases hv
    · next row hrow =>
      cases hv
      dsimp only at h
      split_ifs at h with hlegal
      cases h
      have hid : v.id = call.vulnerabilityId ∧ v.projectId = call.projectId := by
        simpa using List.find?_some hrow
      exact ⟨v, List.mem_of_find?_eq_some hrow, hid.1, newStatus, hlegal, rfl⟩

end ScanPlatform
