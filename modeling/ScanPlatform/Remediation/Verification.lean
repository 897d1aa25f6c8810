import ScanPlatform.Remediation.Service

/-!
# Verification and risk acceptance

A verification request asks for a retest, and its completion derives the outcome from what the
retest scan has recorded.

* `requireProjectScan`, `requestVerification`: a request, which moves the item to
  `awaiting_verification`;
* `claimVerification`: the conditional update of a worker;
* `verificationOutcome`, `completeRequest`, `completeVerification`: the outcome, and what it writes;
* `acceptRisk`: an acceptance, which may move an item to `risk_accepted`.
-/

set_option autoImplicit false

namespace ScanPlatform

open Sessions

/-! ## Requests -/

def ScanStatus.text : ScanStatus → String
  | .queued => "queued"
  | .running => "running"
  | .completed => "completed"
  | .completedWithErrors => "completed_with_errors"
  | .failed => "failed"
  | .cancelled => "cancelled"

/-- The first request under an id. -/
def RemediationDb.request (db : RemediationDb) (id : Uuid) : Option VerificationRequest :=
  db.requests.find? (·.id = id)

/-- `_require_project_scan`, for the scan of a request if it names one. -/
def requireProjectScan (workspaceId projectId : Uuid) :
    Option Uuid → RemediationTxn Unit
  | none => pure ()
  | some scanId => query fun _ db =>
    match (db.scans scanId).filter fun scan =>
        scan.workspaceId = workspaceId ∧ scan.projectId = projectId with
    | none => .error (.http 404 "Scan not found in this project")
    | some scan =>
      if scan.status ∉ terminalStatuses then
        .error (.http 409 (s!"Retest scan is still in progress (status '{scan.status.text}'). A " ++
          "verification result is derived from a COMPLETED retest -- an unfinished scan has not " ++
          "finished looking, so zero findings so far is not evidence the issue is gone."))
      else .ok ()

structure VerificationCall extends ItemCall where
  scanId : Option Uuid

/-- The request that `request_verification` inserts. -/
def VerificationCall.request (call : VerificationCall) (id : Uuid) (baseline : List String) :
    VerificationRequest where
  id
  workspaceId := call.workspaceId
  remediationItemId := call.itemId
  status := .pending
  result := none
  scanId := call.scanId
  requestedBy := some call.actorUserId
  claimedByToken := none
  claimedAt := none
  completedAt := none
  detail := none
  baselineLocations := sorted baseline

/-- An insertion fails when the id is taken. -/
def insertRequest (request : VerificationRequest) (db : RemediationDb) :
    Except Fault RemediationDb :=
  if (db.request request.id).isSome then .error (.raised "IntegrityError")
  else .ok { db with requests := db.requests ++ [request] }

/-- `request_verification`. -/
def requestVerification (svc : RemediationServices) (call : VerificationCall) :
    RemediationTxn RemediationWrite := do
  let item ← getItem call.workspaceId call.projectId call.itemId
  raiseIf (!isLegal item.status .awaitingVerification) (.http 409 (
    s!"Cannot request verification from status '{item.status.text}'. " ++
      "Move the item to 'in_progress' first."))
  requireProjectScan call.workspaceId call.projectId call.scanId
  let outstanding ← query fun _ db => .ok (db.outstanding call.itemId).head?
  raiseIf outstanding.isSome
    (.http 409 "A verification request is already outstanding for this item")
  let baseline ← query fun _ db => .ok (scorableLocations svc db call.projectId item.issueKey)
  return fun moment db => do
    let db ← insertRequest (call.request moment.newId baseline) db
    let detail := "request=" ++ moment.newId.str ++
      call.scanId.elim "" fun scan => " scan=" ++ scan.str
    let db := db.recordEvent call.itemId .verificationRequested (some call.actorUserId) none none
      (some detail)
    applyTransition call.itemId item (some call.actorUserId) call.expectedVersion
      .awaitingVerification (some "verification requested") moment db

/-- `claim_verification`. -/
def claimVerification (now : ℤ) (id workerToken : Uuid) (q : VerificationRequest) :
    VerificationRequest :=
  if q.id = id ∧ q.status = .pending then
    { q with status := .claimed, claimedAt := some now, claimedByToken := some workerToken }
  else q

/-! ## Completion -/

/-- The outcome of a retest. -/
def verificationOutcome (coverageOk : Bool) (liveLocations : ℕ) : VerificationResult :=
  if !coverageOk then .incompleteCoverage
  else if liveLocations = 0 then .passed
  else .failed

/-- The facts of a completion, from what the session has read. -/
structure Completion where
  request : VerificationRequest
  scanId : Uuid
  item : RemediationItem
  live : ℕ × List String
  coverageOk : Bool

def Completion.outcome (c : Completion) : VerificationResult :=
  verificationOutcome c.coverageOk c.live.1

def Completion.detail (c : Completion) (now : ℤ) : VerificationDetail :=
  let baseline := c.request.baselineLocations.dedup
  { scanId := c.scanId
    issueKey := c.item.issueKey
    liveLocations := c.live.1
    baselineLocations := sorted baseline
    coverageOk := c.coverageOk
    uncoveredLocations :=
      if c.coverageOk then [] else sorted (baseline.filter (· ∉ c.live.2))
    evaluatedAt := now }

/-- The request after a flush of the columns that a completion has changed. -/
def completeRequest (c : Completion) (now : ℤ) (q : VerificationRequest) : VerificationRequest :=
  if q.id = c.request.id then
    { q with
      status := Versions.flush c.request.status .completed q.status
      result := Versions.flush c.request.result (some c.outcome) q.result
      completedAt := Versions.flush c.request.completedAt (some now) q.completedAt
      detail := Versions.flush c.request.detail (some (c.detail now)) q.detail }
  else q

structure CompletionCall where
  workspaceId : Uuid
  requestId : Uuid
  actorUserId : Option Uuid
  workerToken : Option Uuid

/-- The request and its event, as a completion writes them. -/
def Completion.record (c : Completion) (actorUserId : Option Uuid) (now : ℤ) (db : RemediationDb) :
    RemediationDb :=
  ({ db with requests := db.requests.map (completeRequest c now) } : RemediationDb).recordEvent
    c.request.remediationItemId .verificationCompleted actorUserId none none
    (some (s!"result={c.outcome.text} live_locations={c.live.1} scan=" ++ c.scanId.str))

/-- Where an outcome moves the item. -/
def Completion.target (c : Completion) : RemediationStatus :=
  if c.outcome = .passed then .verified else .inProgress

/-- What a completion writes: the request, and the item when it may move. -/
def Completion.write (c : Completion) (actorUserId : Option Uuid) : RemediationWrite :=
  fun moment db =>
    let db := c.record actorUserId moment.now db
    if c.outcome = .incompleteCoverage then .ok db
    else if isLegal c.item.status c.target then
      applyTransition c.request.remediationItemId c.item actorUserId c.item.version c.target
        (some (s!"verification {c.outcome.text} ({c.live.1} live location(s))")) moment db
    else .ok db

/-- `complete_verification`. -/
def completeVerification (svc : RemediationServices) (call : CompletionCall) :
    RemediationTxn RemediationWrite := do
  let request ← query fun _ db =>
    match (db.request call.requestId).filter (·.workspaceId = call.workspaceId) with
    | none => .error (.http 404 "Verification request not found")
    | some request => .ok request
  if request.status = .completed then return fun _ db => .ok db
  else
    raiseIf (call.workerToken.isSome ∧ request.claimedByToken ≠ call.workerToken)
      (.http 409 "Verification request is owned by another worker")
    let scanId ← check (match request.scanId with
      | none => .error (.http 409 ("Cannot complete verification without a retest scan. Link a " ++
          "completed scan to the request first -- a verification result is derived from retest " ++
          "evidence, never asserted."))
      | some scanId => .ok scanId)
    let item ← query fun _ db =>
      match db.items request.remediationItemId with
      | none => .error (.http 404 "Remediation item not found")
      | some item => .ok item
    let live ← query fun _ db => .ok (liveLocations svc db item.projectId item.issueKey scanId)
    let coverageOk ← query fun _ db => .ok (retestHadUsableDetectionCoverage db scanId)
    return Completion.write { request, scanId, item, live, coverageOk } call.actorUserId

/-! ## Risk acceptance -/

structure AcceptanceCall where
  workspaceId : Uuid
  projectId : Uuid
  vulnerabilityId : Uuid
  actorUserId : Uuid
  justification : String
  expiresAt : ℤ
  reviewDueAt : Option ℤ
  approvedBy : Option Uuid
  remediationItemId : Option Uuid
  expectedVersion : Option ℕ

/-- `get_vulnerability`. -/
def getVulnerability (projectId vulnerabilityId : Uuid) (db : RemediationDb) :
    Except Fault Vulnerability :=
  match db.vulnerabilities.find? fun v => v.id = vulnerabilityId ∧ v.projectId = projectId with
  | none => .error (.http 404 "Vulnerability not found")
  | some v => .ok v

/-- The acceptance that `accept_risk` inserts. -/
def AcceptanceCall.acceptance (call : AcceptanceCall) (id : Uuid) : RiskAcceptance where
  id
  workspaceId := call.workspaceId
  projectId := call.projectId
  vulnerabilityId := call.vulnerabilityId
  remediationItemId := call.remediationItemId
  justification := PyStr.strip call.justification
  acceptedBy := some call.actorUserId
  approvedBy := call.approvedBy
  expiresAt := call.expiresAt
  reviewDueAt := call.reviewDueAt
  status := .active
  revokedBy := none
  revokedAt := none
  revokeReason := none

def insertAcceptance (acceptance : RiskAcceptance) (db : RemediationDb) :
    Except Fault RemediationDb :=
  if db.acceptances.any (·.id = acceptance.id) then .error (.raised "IntegrityError")
  else .ok { db with acceptances := db.acceptances ++ [acceptance] }

/-- The statuses that `accept_risk` names. -/
def riskAcceptableFrom : List String :=
  sorted ((remediationStatuses.filter fun st => .riskAccepted ∈ legalTransitions st).map (·.text))

/-- `accept_risk`. -/
def acceptRisk (svc : RemediationServices) (call : AcceptanceCall) :
    RemediationTxn RemediationWrite := do
  let now ← query fun moment db =>
    (getVulnerability call.projectId call.vulnerabilityId db).map fun _ => moment.now
  raiseIf (PyStr.strip call.justification = "") (.http 400 "A justification is required")
  raiseIf (call.expiresAt ≤ now) (.http 400 (
    "expires_at must be in the future -- an acceptance that cannot lapse is not an " ++
      "accepted risk."))
  let existing ← query fun _ db => .ok (db.acceptances.find? fun a =>
    a.vulnerabilityId = call.vulnerabilityId ∧ a.status = .active)
  raiseIf existing.isSome (.http 409 (
    "This vulnerability already has an active risk acceptance. Revoke it before " ++
      "recording a new one."))
  match call.remediationItemId with
  | none => return fun moment db => insertAcceptance (call.acceptance moment.newId) db
  | some id =>
    let item ← getItem call.workspaceId call.projectId id
    return fun moment db => do
      let db ← insertAcceptance (call.acceptance moment.newId) db
      if !isLegal item.status .riskAccepted then
        .error (.http 409 (s!"Cannot accept risk from remediation status '{item.status.text}'. " ++
          "Allowed from: " ++ String.intercalate ", " riskAcceptableFrom ++ "."))
      else
        let db := db.recordEvent id .riskAccepted (some call.actorUserId) none none
          (some ("acceptance=" ++ moment.newId.str ++ " expires=" ++ svc.isoformat call.expiresAt))
        applyTransition id item (some call.actorUserId) (call.expectedVersion.getD item.version)
          .riskAccepted (some "risk formally accepted") moment db

end ScanPlatform
