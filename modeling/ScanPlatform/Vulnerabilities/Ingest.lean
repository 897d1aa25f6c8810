import ScanPlatform.Remediation.Service
import ScanPlatform.Vulnerabilities.Db

/-!
# Ingestion of findings

A finding is stored under its fingerprint, in the session and the transaction of the caller. A
finding that comes back after it was fixed is reopened, and so is its remediation item, which
commits the transaction.

* `FindingCall`, `scoreFor`, `contentChanged`, `FindingCall.row`, `FindingCall.redetect`: what a
  finding makes of its row;
* `FindingCall.tracked`, **`contentChanged_iff`**: the tracked fields that it assigns;
* `Ingest.bumpVersion`, `Ingest.applyTransition`, `Ingest.reopenForRegression`: the functions of the
  workflow, statement by statement;
* `findAncestor`, `createFinding`, `redetectFinding`, `ingestFinding`: ingestion.
-/

set_option autoImplicit false

namespace ScanPlatform

open UnitOfWork

/-! ## What a finding makes of its row -/

/-- What ingestion takes from outside: the number, in tenths, that a score is, and
`normalize_location` of a text that is not empty, which may raise. -/
structure IngestServices extends RemediationServices where
  tenths : String → ℕ
  normalizeLocation : String → Option String

/-- The arguments of `ingest_finding`. -/
structure FindingCall where
  projectId : Uuid
  scanId : Uuid
  finding : VulnerabilityFinding
  toolRunId : Uuid
  evidenceId : Uuid
  assetId : Option Uuid

def FindingCall.key (call : FindingCall) : Uuid × String :=
  (call.projectId, call.finding.fingerprint)

/-- `_SEVERITY_SCORE`, in tenths. -/
def severityScore : List (String × ℕ) :=
  [("info", 0), ("low", 31), ("medium", 55), ("high", 75), ("critical", 95)]

/-- `_score_for`. -/
def scoreFor (svc : IngestServices) (finding : VulnerabilityFinding) : Option ℕ :=
  match finding.cvssScore with
  | some score => some (svc.tenths score)
  | none => severityScore.lookup finding.severity

/-- `_content_changed`. -/
def contentChanged (v : Vulnerability) (finding : VulnerabilityFinding) (newScore : Option ℕ) :
    Bool :=
  v.title ≠ finding.title ∨ v.description ≠ finding.description ∨
    v.severity ≠ normalizeSeverity finding.severity ∨ v.cvssVector ≠ finding.cvssVector ∨
    v.cvssScore ≠ newScore

/-- The row of a new finding. -/
def FindingCall.row (svc : IngestServices) (call : FindingCall) (id : Uuid) : Vulnerability where
  id
  projectId := call.projectId
  fingerprint := call.finding.fingerprint
  title := call.finding.title
  category := canonicalCwe call.finding.category
  severity := normalizeSeverity call.finding.severity
  status := .open
  cvssScore := scoreFor svc call.finding
  lastSeenScanId := some call.scanId
  assetId := call.assetId
  firstDetectedScanId := some call.scanId
  description := call.finding.description
  cvssVector := call.finding.cvssVector

theorem FindingCall.row_unfixed (svc : IngestServices) (call : FindingCall) (id : Uuid) :
    (call.row svc id).status ≠ .fixed :=
  VulnerabilityStatus.noConfusion

/-- The row of a finding that is detected again; one that was fixed is reopened. -/
def FindingCall.redetect (svc : IngestServices) (call : FindingCall) (v : Vulnerability) :
    Vulnerability :=
  { v with
    lastSeenScanId := some call.scanId
    title := call.finding.title
    description := call.finding.description
    severity := normalizeSeverity call.finding.severity
    cvssVector := call.finding.cvssVector
    cvssScore := scoreFor svc call.finding
    assetId := call.assetId.or v.assetId
    status := if v.status = .fixed then .reopened else v.status }

@[simp] theorem FindingCall.redetect_severity (svc : IngestServices) (call : FindingCall)
    (v : Vulnerability) :
    (call.redetect svc v).severity = normalizeSeverity call.finding.severity := by
  simp only [FindingCall.redetect]

theorem FindingCall.redetect_assigns (svc : IngestServices) (call : FindingCall) :
    Assigns (call.redetect svc) where
  id _ := rfl
  key _ := rfl
  unfixed v h := by
    unfold FindingCall.redetect at h
    dsimp only at h
    split_ifs at h
    exact h

/-- What `_record_history` appends, for a row as it has been assigned. -/
def FindingCall.historyEntry (call : FindingCall) (v : Vulnerability)
    (changeReason : ChangeReason) : VulnerabilityHistory where
  projectId := call.projectId
  vulnerabilityId := v.id
  scanId := call.scanId
  toolRunId := call.toolRunId
  fingerprint := v.fingerprint
  title := v.title
  category := v.category
  description := v.description
  severity := v.severity
  cvssVector := v.cvssVector
  cvssScore := v.cvssScore
  changeReason

/-! ## The tracked fields -/

def FindingCall.tracked (svc : IngestServices) (call : FindingCall) : TrackedFields where
  title := call.finding.title
  description := call.finding.description
  severity := normalizeSeverity call.finding.severity
  cvssVector := call.finding.cvssVector
  cvssScore := scoreFor svc call.finding

@[simp] theorem FindingCall.tracked_row (svc : IngestServices) (call : FindingCall) (id : Uuid) :
    (call.row svc id).tracked = call.tracked svc := by
  simp only [FindingCall.row, FindingCall.tracked, Vulnerability.tracked]

@[simp] theorem FindingCall.tracked_redetect (svc : IngestServices) (call : FindingCall)
    (v : Vulnerability) : (call.redetect svc v).tracked = call.tracked svc := by
  simp only [FindingCall.redetect, FindingCall.tracked, Vulnerability.tracked]

@[simp] theorem FindingCall.tracked_historyEntry (call : FindingCall) (v : Vulnerability)
    (changeReason : ChangeReason) : (call.historyEntry v changeReason).tracked = v.tracked := rfl

/-- **The comparison and the assignment derive the same values.** -/
theorem contentChanged_iff (svc : IngestServices) (call : FindingCall) (v : Vulnerability) :
    contentChanged v call.finding (scoreFor svc call.finding) ↔ v.tracked ≠ call.tracked svc := by
  simp only [contentChanged, decide_eq_true_eq, Vulnerability.tracked, FindingCall.tracked, ne_eq,
    TrackedFields.mk.injEq, not_and_or]

/-! ## The workflow, in the session of its caller -/

abbrev IngestWork := Work IngestWrite WorkflowChange FindingsDb Fault

/-- What a statement fails with. -/
def operationalError : Fault := .raised "OperationalError"

/-- What reading an expired object fails with. -/
def missingGreenlet : Fault := .raised "MissingGreenlet"

/-- The UPDATE of `_bump_version`. -/
def bumpChange (id : Uuid) (expectedVersion : ℕ) : WorkflowChange where
  change db :=
    match db.items id with
    | none => db
    | some row =>
      if row.version = expectedVersion then
        { db with items := db.items.set id { row with version := expectedVersion + 1 } }
      else db
  vulnerabilities db := by
    split
    · rfl
    · split_ifs <;> rfl

/-- `_bump_version`. -/
def Ingest.bumpVersion (id : Uuid) (expectedVersion : ℕ) : IngestWork Unit := do
  let matched ← statement operationalError fun db =>
    let matched := (db.items id).any (·.version = expectedVersion)
    .ok (matched, if matched then [.workflow (bumpChange id expectedVersion)] else [])
  if matched then pure ()
  else
    let actual ← select operationalError fun db => (db.items id).map (·.version)
    rollback
    throw (staleVersionError expectedVersion actual)

/-- What `_apply_transition` has assigned to an item, and its event. -/
def transitionChange (id : Uuid) (item : RemediationItem) (now : ℤ)
    (toStatus : RemediationStatus) (detail : Option String) : WorkflowChange where
  change db :=
    match db.items id with
    | none => db
    | some row =>
      let items := db.items.set id (RemediationItem.flush item (item.enter now toStatus) row)
      ({ db with items } : RemediationDb).recordEvent id .transition none (some item.status)
        (some toStatus) detail
  vulnerabilities db := by split <;> rfl

/-- `_apply_transition`, for the engine as the actor. -/
def Ingest.applyTransition (id : Uuid) (item : RemediationItem) (now : ℤ)
    (toStatus : RemediationStatus) (detail : Option String) : IngestWork Unit := do
  Ingest.bumpVersion id item.version
  commit operationalError [.workflow (transitionChange id item now toStatus detail)]
  select operationalError fun _ => ()

/-- The SELECT of `reopen_for_regression`. -/
def regressionItem (call : RegressionCall) (db : RemediationDb) : Option (Uuid × RemediationItem) :=
  (db.issues (call.projectId, call.issueKey)).bind fun id =>
    (db.items id).bind fun item =>
      if item.projectId = call.projectId ∧ item.workspaceId = call.workspaceId ∧
        item.issueKey = call.issueKey then some (id, item) else none

/-- `reopen_for_regression`. -/
def Ingest.reopenForRegression (now : ℤ) (call : RegressionCall) : IngestWork Unit := do
  let row ← select operationalError fun db => regressionItem call db.toRemediationDb
  match row with
  | none => pure ()
  | some (id, item) =>
    if isLegal item.status .reopened then
      Ingest.applyTransition id item now .reopened (some "re-detected by a scan")
    else pure ()

/-! ## New findings -/

/-- `_STICKY_STATUSES`. -/
def stickyStatuses : List VulnerabilityStatus := [.falsePositive, .acceptedRisk]

/-- What `find_ancestor` looks for: the template and the normalized location of a finding. It ends
before it has read anything when there is none, also when the location cannot be normalized. -/
def ancestorSearch (svc : IngestServices) (v : Vulnerability) : Option (String × String) :=
  v.templateId.bind fun template => v.matchedAt.bind fun location =>
    (svc.normalizeLocation location).bind fun normalized =>
      if normalized = "" then none else some (template, normalized)

/-- A finding that `find_ancestor` reads and whose location it cannot normalize. -/
def Vulnerability.unreadable (svc : IngestServices) (candidate : Vulnerability) : Bool :=
  candidate.matchedAt.any fun location => (svc.normalizeLocation location).isNone

/-- The candidates of `find_ancestor`; more than one is none. It ends without one when the location
of a finding of the template cannot be normalized. -/
def findAncestor (svc : IngestServices) (v : Vulnerability) (search : String × String)
    (db : FindingsDb) : Option Vulnerability :=
  let read := db.vulnerabilities.filter fun candidate =>
    candidate.projectId = v.projectId ∧ candidate.fingerprint ≠ v.fingerprint ∧
      candidate.templateId = some search.1
  if read.any (·.unreadable svc) then none
  else match read.filter fun candidate =>
    candidate.matchedAt.bind svc.normalizeLocation = some search.2 with
  | [ancestor] => some ancestor
  | _ => none

/-- What a new finding inherits of an analyst's decision. -/
def Vulnerability.inherit (ancestor v : Vulnerability) : Vulnerability :=
  if ancestor.status ∈ stickyStatuses then
    { v with
      status := ancestor.status
      statusJustification := some ("Inherited from a prior finding with a different fingerprint " ++
        s!"(vulnerability {ancestor.id.str}), deterministically matched by template + " ++
        "normalized location. Original justification: " ++
        ((ancestor.statusJustification.filter (· ≠ "")).getD "(none recorded)"))
      statusChangedBy := ancestor.statusChangedBy
      statusChangedAt := ancestor.statusChangedAt }
  else v

theorem Vulnerability.inherit_assigns (ancestor : Vulnerability) : Assigns ancestor.inherit where
  id v := by unfold Vulnerability.inherit; split_ifs <;> rfl
  key v := by unfold Vulnerability.inherit; split_ifs <;> rfl
  unfixed v h := by
    unfold Vulnerability.inherit at h
    split_ifs at h with hsticky
    · rw [show ancestor.status = .fixed from h] at hsticky
      exact absurd hsticky (by decide)
    · exact h

@[simp] theorem Vulnerability.tracked_inherit (ancestor v : Vulnerability) :
    (ancestor.inherit v).tracked = v.tracked := by
  unfold Vulnerability.inherit
  split_ifs <;> rfl

/-- `record_lineage`. -/
def lineageEntry (v ancestor : Vulnerability) (search : String × String) :
    VulnerabilityLineage where
  projectId := v.projectId
  oldVulnerabilityId := ancestor.id
  newVulnerabilityId := v.id
  matchRule := "template_id+normalized_location"
  matchedLocation := some search.2
  inheritedStatus := some ancestor.status |>.filter (· ∈ stickyStatuses)

/-- The search for an ancestor of a new finding, and what follows from it. -/
def linkAncestor (svc : IngestServices) (v : Vulnerability) (search : String × String) :
    IngestWork Unit := do
  let ancestor ← select operationalError (findAncestor svc v search)
  match ancestor with
  | none => pure ()
  | some ancestor =>
    statement operationalError fun _ => .ok ((), [.insertLineage (lineageEntry v ancestor search)])
    if ancestor.status ∈ stickyStatuses then
      flush operationalError [.assign v.id ancestor.inherit ancestor.inherit_assigns]
    else pure ()

/-! ## Ingestion -/

/-- The link of a finding to its evidence; both rows have to be there. -/
def linkEvidence (id : Uuid) (call : FindingCall) : IngestWork Unit :=
  statement operationalError fun db =>
    if db.vulnerabilities.any (·.id = id) ∧ db.evidence.any (·.id = call.evidenceId) then
      .ok ((), [.linkEvidence id call.evidenceId call.toolRunId])
    else .error (.raised "IntegrityError")

/-- A new finding. A search for an ancestor sends the history first. -/
def createFinding (svc : IngestServices) (id : Uuid) (call : FindingCall) : IngestWork Unit := do
  let v := call.row svc id
  let history := [IngestWrite.addHistory (call.historyEntry v .created)]
  flush operationalError [.insertRow v (call.row_unfixed svc id)]
  match ancestorSearch svc v with
  | none =>
    linkEvidence id call
    flush operationalError history
  | some search =>
    tryCatch
      (do flush operationalError history; linkAncestor svc v search)
      fun _ => loaded missingGreenlet
    linkEvidence id call

/-- What a finding that is detected again assigns, and its history if the content has changed. -/
def FindingCall.changes (svc : IngestServices) (call : FindingCall) (v : Vulnerability) :
    List IngestWrite :=
  .assign v.id (call.redetect svc) (call.redetect_assigns svc) ::
    if contentChanged v call.finding (scoreFor svc call.finding) then
      [.addHistory (call.historyEntry (call.redetect svc v) .observed)]
    else []

/-- The regression of a finding that was fixed: what has been assigned is sent with the first
statement. -/
def linkRegression (svc : IngestServices) (now : ℤ) (call : FindingCall) (v : Vulnerability) :
    IngestWork Unit := do
  flush operationalError (call.changes svc v)
  let project ← select operationalError fun db => db.projects call.projectId
  match project with
  | none => pure ()
  | some project =>
    Ingest.reopenForRegression now
      ⟨project.workspaceId, call.projectId, (call.redetect svc v).issueKey⟩

/-- A finding that is detected again. The handler of a failed regression reads the finding. -/
def redetectFinding (svc : IngestServices) (now : ℤ) (call : FindingCall) (v : Vulnerability) :
    IngestWork Unit := do
  if v.status = .fixed then
    tryCatch (linkRegression svc now call v) fun _ => loaded missingGreenlet
    linkEvidence v.id call
  else
    linkEvidence v.id call
    flush operationalError (call.changes svc v)

/-- `ingest_finding`, with the id of the row that it returns. -/
def ingestFinding (svc : IngestServices) (moment : Moment) (call : FindingCall) :
    IngestWork Uuid := do
  let existing ← select operationalError fun db => db.finding call.key
  match existing with
  | none => do
    createFinding svc moment.newId call
    return moment.newId
  | some v => do
    redetectFinding svc moment.now call v
    return v.id

end ScanPlatform
