import Mathlib.Data.List.Basic
import ScanPlatform.Base.PyStr
import ScanPlatform.Manager.Db

/-!
# The rows of the remediation workflow

The statuses of a remediation item and the table of legal transitions.

* `legalTransitions`, `isLegal`, `guardedTargets`: the graph, and what a human may not set;
* `openStatuses`, `resolvedStatuses`: work that is outstanding, and work that is done;
* `not_isLegal_self`, `awaiting_of_inProgress`, `awaiting_of_verified`, `closed_of_verified`: what
  the graph rules out;
* `RemediationItem`, `RemediationEvent`, `VerificationRequest`, `RiskAcceptance`,
  `Vulnerability`: the rows, with the columns that the modelled functions use;
* `RemediationDb`: all of them, with the scans and tool runs that a verification reads;
* `issueKey`, `isScorable`, `partitionByIssue`: the findings of an issue and where they are;
* `liveLocations`, `retestHadUsableDetectionCoverage`: what a retest has seen;
* `RemediationDb.transitions`: the transitions in the timeline of an item.
-/

set_option autoImplicit false

/-! ## The remediation lifecycle -/

namespace ScanPlatform

inductive RemediationStatus where
  | proposed
  | accepted
  | inProgress
  | awaitingVerification
  | verified
  | closed
  | riskAccepted
  | rejected
  | reopened
  deriving DecidableEq

def RemediationStatus.text : RemediationStatus → String
  | .proposed => "proposed"
  | .accepted => "accepted"
  | .inProgress => "in_progress"
  | .awaitingVerification => "awaiting_verification"
  | .verified => "verified"
  | .closed => "closed"
  | .riskAccepted => "risk_accepted"
  | .rejected => "rejected"
  | .reopened => "reopened"

/-- `REMEDIATION_STATUSES`. -/
def remediationStatuses : List RemediationStatus :=
  [.proposed, .accepted, .inProgress, .awaitingVerification, .verified, .closed, .riskAccepted,
    .rejected, .reopened]

/-- `LEGAL_TRANSITIONS`. -/
def legalTransitions : RemediationStatus → List RemediationStatus
  | .proposed => [.accepted, .riskAccepted, .rejected]
  | .accepted => [.inProgress, .riskAccepted, .rejected]
  | .inProgress => [.awaitingVerification, .riskAccepted]
  | .awaitingVerification => [.verified, .inProgress]
  | .verified => [.closed, .reopened]
  | .closed => [.reopened]
  | .reopened => [.accepted, .inProgress, .riskAccepted]
  | .riskAccepted => [.reopened, .inProgress]
  | .rejected => [.proposed]

/-- `GUARDED_TARGETS`: not to be set through the transition endpoint. -/
def guardedTargets : List RemediationStatus := [.verified, .riskAccepted]

def isLegal (fromStatus toStatus : RemediationStatus) : Bool :=
  toStatus ∈ legalTransitions fromStatus

/-- `allowed_targets`. -/
def allowedTargets (fromStatus : RemediationStatus) : List RemediationStatus :=
  legalTransitions fromStatus

/-- `OPEN_STATUSES`. -/
def openStatuses : List RemediationStatus :=
  [.proposed, .accepted, .inProgress, .awaitingVerification, .reopened]

/-- `_RESOLVED_STATUSES`. -/
def resolvedStatuses : List RemediationStatus := [.verified, .closed, .riskAccepted]

theorem not_isLegal_self (st : RemediationStatus) : ¬ isLegal st st := by
  cases st <;> decide

/-- Verification is requested from `in_progress` only. -/
theorem awaiting_of_inProgress {st : RemediationStatus} (h : isLegal st .awaitingVerification) :
    st = .inProgress := by
  cases st with
  | inProgress => rfl
  | proposed | accepted | awaitingVerification | verified | closed | riskAccepted | rejected
  | reopened => exact absurd h (by decide)

/-- A verified item is the only one that is closed. -/
theorem closed_of_verified {st : RemediationStatus} (h : isLegal st .closed) : st = .verified := by
  cases st with
  | verified => rfl
  | proposed | accepted | inProgress | awaitingVerification | closed | riskAccepted | rejected
  | reopened => exact absurd h (by decide)

/-- An item becomes verified from `awaiting_verification` only. -/
theorem awaiting_of_verified {st : RemediationStatus} (h : isLegal st .verified) :
    st = .awaitingVerification := by
  cases st with
  | awaitingVerification => rfl
  | proposed | accepted | inProgress | verified | closed | riskAccepted | rejected | reopened =>
    exact absurd h (by decide)

/-- Work is taken up from four statuses, one of which awaits a verification. -/
theorem isLegal_inProgress_iff {st : RemediationStatus} : isLegal st .inProgress ↔
    st = .awaitingVerification ∨ st ∈ [RemediationStatus.accepted, .reopened, .riskAccepted] := by
  cases st <;> decide

theorem riskAccepted_of_unverified {st : RemediationStatus} (h : isLegal st .riskAccepted) :
    st ∉ [RemediationStatus.verified, .closed] := by
  revert h
  cases st <;> decide

theorem rejected_of_unresolved {st : RemediationStatus} (h : isLegal st .rejected) :
    st ∉ [RemediationStatus.verified, .closed, .riskAccepted] := by
  revert h
  cases st <;> decide

end ScanPlatform

/-! ## The rows of the remediation workflow -/

namespace ScanPlatform

/-! ## Items and their timelines -/

/-- `REMEDIATION_PRIORITIES`. -/
inductive Priority where
  | critical
  | high
  | medium
  | low
  deriving DecidableEq

def Priority.text : Priority → String
  | .critical => "critical"
  | .high => "high"
  | .medium => "medium"
  | .low => "low"

/-- Where an item, or its notes, come from. -/
inductive NotesSource where
  | ai
  | human
  | system
  deriving DecidableEq

/-- A row of `remediation_items`. -/
structure RemediationItem where
  workspaceId : Uuid
  projectId : Uuid
  issueKey : String
  status : RemediationStatus
  priority : Priority
  assigneeUserId : Option Uuid
  dueDate : Option ℤ
  notes : Option String
  notesSource : Option NotesSource
  resolvedAt : Option ℤ
  verifiedAt : Option ℤ
  version : ℕ
  deriving DecidableEq

inductive EventType where
  | created
  | assigned
  | dueDateChanged
  | priorityChanged
  | notesChanged
  | transition
  | verificationRequested
  | verificationCompleted
  | riskAccepted
  | riskAcceptanceRevoked
  | riskAcceptanceExpired
  deriving DecidableEq

/-- A row of `remediation_events`. -/
structure RemediationEvent where
  remediationItemId : Uuid
  eventType : EventType
  fromStatus : Option RemediationStatus
  toStatus : Option RemediationStatus
  actorUserId : Option Uuid
  detail : Option String

/-! ## Verification requests and risk acceptances -/

inductive VerificationStatus where
  | pending
  | claimed
  | completed
  deriving DecidableEq

inductive VerificationResult where
  | passed
  | failed
  | incompleteCoverage
  deriving DecidableEq

def VerificationResult.text : VerificationResult → String
  | .passed => "passed"
  | .failed => "failed"
  | .incompleteCoverage => "incomplete_coverage"

/-- The facts behind a verdict. -/
structure VerificationDetail where
  scanId : Uuid
  issueKey : String
  liveLocations : ℕ
  baselineLocations : List String
  coverageOk : Bool
  uncoveredLocations : List String
  evaluatedAt : ℤ
  deriving DecidableEq

/-- A row of `verification_requests`. -/
structure VerificationRequest where
  id : Uuid
  workspaceId : Uuid
  remediationItemId : Uuid
  status : VerificationStatus
  result : Option VerificationResult
  scanId : Option Uuid
  requestedBy : Option Uuid
  claimedByToken : Option Uuid
  claimedAt : Option ℤ
  completedAt : Option ℤ
  detail : Option VerificationDetail
  baselineLocations : List String

/-- `pending` or `claimed`. -/
def VerificationRequest.outstanding (q : VerificationRequest) : Bool := q.status ≠ .completed

inductive AcceptanceStatus where
  | active
  | expired
  | revoked
  deriving DecidableEq

/-- A row of `risk_acceptances`. -/
structure RiskAcceptance where
  id : Uuid
  workspaceId : Uuid
  projectId : Uuid
  vulnerabilityId : Uuid
  remediationItemId : Option Uuid
  justification : String
  acceptedBy : Option Uuid
  approvedBy : Option Uuid
  expiresAt : ℤ
  reviewDueAt : Option ℤ
  status : AcceptanceStatus
  revokedBy : Option Uuid
  revokedAt : Option ℤ
  revokeReason : Option String

/-! ## Findings -/

inductive VulnerabilityStatus where
  | open
  | confirmed
  | reopened
  | fixed
  | falsePositive
  | acceptedRisk
  deriving DecidableEq

/-- A row of `vulnerabilities`; a CVSS score is in tenths. -/
structure Vulnerability where
  id : Uuid
  projectId : Uuid
  fingerprint : String
  title : String
  category : Option String
  severity : String
  status : VulnerabilityStatus
  cvssScore : Option ℕ
  lastSeenScanId : Option Uuid
  assetId : Option Uuid := none
  firstDetectedScanId : Option Uuid := none
  description : Option String := none
  cvssVector : Option String := none
  statusJustification : Option String := none
  statusChangedBy : Option Uuid := none
  statusChangedAt : Option ℤ := none

structure RemediationDb where
  items : Table Uuid RemediationItem
  /-- `uq_remediation_items_project_issue`: the ids of the items, by project and issue. -/
  issues : Table (Uuid × String) Uuid
  events : List RemediationEvent
  requests : List VerificationRequest
  acceptances : List RiskAcceptance
  /-- The workspaces of the users. -/
  members : List (Uuid × Uuid)
  scans : Table Uuid Scan
  vulnerabilities : List Vulnerability
  toolRuns : List ToolRun

/-- What the workflow takes from outside: the classifier of findings that are only detections, and
the text of a time. -/
structure RemediationServices where
  isDetection : Vulnerability → Bool
  isoformat : ℤ → String

/-- The `template_id` of `_parse_fingerprint`. -/
def Vulnerability.templateId (v : Vulnerability) : Option String :=
  some (String.ofList (v.fingerprint.toList.takeWhile (· ≠ '|'))) |>.filter (· ≠ "")

/-- The `matched_at` of `_parse_fingerprint`. -/
def Vulnerability.matchedAt (v : Vulnerability) : Option String :=
  ((PyStr.afterFirst ['|'] v.fingerprint.toList).bind (PyStr.afterFirst ['|'])).map String.ofList
    |>.filter (· ≠ "")

/-- `issue_key`. -/
def Vulnerability.issueKey (v : Vulnerability) : String :=
  match v.templateId with
  | some template => "template:" ++ template
  | none => "title:" ++ v.title

/-- `is_active`. -/
def Vulnerability.isActive (v : Vulnerability) : Bool :=
  v.status ∈ [VulnerabilityStatus.open, .confirmed, .reopened]

/-- `is_scorable`. -/
def isScorable (svc : RemediationServices) (v : Vulnerability) : Bool :=
  v.isActive && PyStr.lower v.severity ≠ "info" && !svc.isDetection v

/-- `_partition_by_issue`: the distinct locations, and how many findings have none. -/
def partitionByIssue (svc : RemediationServices) (rows : List Vulnerability) (issueKey : String) :
    List String × ℕ :=
  let rows := rows.filter fun v => v.issueKey = issueKey ∧ isScorable svc v
  ((rows.filterMap (·.matchedAt)).dedup, rows.countP fun v => v.matchedAt.isNone)

/-- `sorted` of a set of strings. -/
def sorted (l : List String) : List String := l.mergeSort fun a b => decide (a ≤ b)

/-- `_scorable_locations`. -/
def scorableLocations (svc : RemediationServices) (db : RemediationDb) (projectId : Uuid)
    (issueKey : String) : List String :=
  (partitionByIssue svc (db.vulnerabilities.filter (·.projectId = projectId)) issueKey).1

/-- `_live_locations`. -/
def liveLocations (svc : RemediationServices) (db : RemediationDb) (projectId : Uuid)
    (issueKey : String) (scanId : Uuid) : ℕ × List String :=
  let rows := db.vulnerabilities.filter fun v =>
    v.projectId = projectId ∧ v.lastSeenScanId = some scanId
  let (locations, unlocated) := partitionByIssue svc rows issueKey
  (locations.length + unlocated, locations)

/-- The registered tools whose capability is `vulnerability_detection` or `dast_fuzzing`. -/
def detectionTools : List String := ["nuclei", "nuclei-dast"]

/-- `_retest_had_usable_detection_coverage`. -/
def retestHadUsableDetectionCoverage (db : RemediationDb) (scanId : Uuid) : Bool :=
  db.toolRuns.any fun r =>
    r.scanId = scanId ∧ r.toolName ∈ detectionTools ∧
      (r.status = .completed ∨ r.status = .partialRun)

/-! ## The timeline of an item -/

/-- The transitions in the timeline of an item, in order. -/
def RemediationDb.transitions (db : RemediationDb) (id : Uuid) :
    List (Option RemediationStatus × Option RemediationStatus) :=
  (db.events.filter fun e => e.remediationItemId = id ∧ e.eventType = .transition).map fun e =>
    (e.fromStatus, e.toStatus)

/-- The outstanding verification requests of an item. -/
def RemediationDb.outstanding (db : RemediationDb) (id : Uuid) : List VerificationRequest :=
  db.requests.filter fun q => q.remediationItemId = id ∧ q.outstanding

end ScanPlatform
