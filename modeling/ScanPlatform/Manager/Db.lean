import ScanPlatform.Base.Checks
import ScanPlatform.Base.PyStr
import ScanPlatform.Base.Table
import ScanPlatform.Engine.Runner
import ScanPlatform.Scan.Row

/-!
# The manager's database

The rows that the scanner manager reads and writes, the object store and the calls it makes of
parsers and of the vulnerability pipeline. The manager's process never installs the workspace filter
of `tenancy`, so its queries see the rows of every workspace.

What every request of a worker passes before it may concern a scan. A refusal is the `reason` of
`WorkerNotAuthorized` or `PrivateSiteNotAuthorized`.

* `Fault`: how a request is refused or fails;
* `ScannerWorker`, `PrivateSite`, `Target`, `Project`, `AuthorizationScope`, `ToolRun`,
  `Evidence`: the rows, with the columns that the modelled functions use;
* `Db`: all of them;
* `assertWorkerActive`, `assertWorkerMayLease`, `assertWorkerMayTakeScan`: the worker's own row;
* `getSiteForWorkspace`, `assertSiteScannable`: the site of a private scan;
* `authorizeScanForWorker`: the gate of every scan-scoped request;
* `authorizeScanForWorker_scan`: the row that it hands on.
-/

set_option autoImplicit false

namespace ScanPlatform

/-- How a request ends without a result: an `HTTPException`, or an exception that nothing catches,
which the framework answers with status 500. -/
inductive Fault where
  | http (status : ℕ) (detail : String)
  | raised (exception : String)
  deriving DecidableEq, Repr

/-! ## Workers and sites -/

inductive WorkerStatus where
  | pending
  | active
  | draining
  | suspended
  | revoked
  deriving DecidableEq

/-- A row of `scanner_workers`. -/
structure ScannerWorker where
  workerId : String
  poolId : String
  siteId : Option Uuid
  workspaceId : Option Uuid
  status : WorkerStatus
  revokedAt : Option ℤ

inductive SiteStatus where
  | pending
  | keyExchanged
  | verified
  | active
  | suspended
  | revoked
  deriving DecidableEq

/-- A row of `private_sites`. -/
structure PrivateSite where
  workspaceId : Uuid
  status : SiteStatus
  authorizedCidrs : List String
  dnsServers : List String
  scannerPoolId : Option String

/-! ## Projects, targets and authorization scopes -/

/-- A row of `projects`. -/
structure Project where
  workspaceId : Uuid

/-- A row of `targets`. -/
structure Target where
  projectId : Uuid
  type : String
  value : String
  criticality : String

/-- A row of `authorization_scopes`. -/
structure AuthorizationScope where
  id : Uuid
  targetId : Uuid
  proofType : String
  proofReference : String
  verified : Bool
  verifiedBy : Option Uuid
  verifiedAt : Option ℤ
  activeTestingAllowed : Bool
  scopeNotes : Option String
  expiresAt : Option ℤ
  createdAt : ℤ

/-! ## Tool runs and evidence -/

inductive ToolStatus where
  | running
  | completed
  | partialRun
  | failed
  | skippedUnauthorized
  | abandonedRevoked
  deriving DecidableEq

/-- The status of a tool run that returned. -/
def RunStatus.toolStatus : RunStatus → ToolStatus
  | .completed => .completed
  | .partialRun => .partialRun
  | .failed => .failed

/-- A row of `tool_runs`. -/
structure ToolRun where
  scanId : Uuid
  toolName : String
  toolVersion : String
  status : ToolStatus
  commandHash : String
  effectiveCommand : Option String
  timedOut : Bool
  startedAt : ℤ
  completedAt : Option ℤ
  exitCode : Option ℤ
  rawOutputRef : Option String
  errorMessage : Option String

abbrev Bytes := List UInt8

/-- A row of `evidence`. -/
structure Evidence where
  id : Uuid
  toolRunId : Option Uuid
  evidenceType : String
  storageUri : String
  checksum : String

/-- A call of `upsert_asset`, with the values of the finding as they were reported. -/
structure AssetUpsert where
  projectId : Uuid
  targetId : Uuid
  assetType : Json.Value
  value : Json.Value
  metadata : Json.Value

/-- A call of the parser of a tool, on the output that was submitted for a tool run. -/
structure ParserCall where
  toolRunId : Uuid
  toolName : String
  raw : RawToolOutput

/-- A call of `ingest_vulnerability_findings`. -/
structure IngestCall where
  scanId : Uuid
  findings : List VulnerabilityFinding
  toolRunId : Uuid
  evidenceId : Uuid
  criticality : String
  targetType : String
  targetValue : String

structure Db where
  scans : Table Uuid Scan
  projects : Table Uuid Project
  targets : Table Uuid Target
  sites : Table Uuid PrivateSite
  scopes : List AuthorizationScope
  toolRuns : Table Uuid ToolRun
  evidence : List Evidence
  /-- The object store, by URI. -/
  objects : Table String Bytes
  assets : List AssetUpsert
  /-- The ids of `vulnerabilities`, by project and fingerprint. -/
  vulnerabilities : Table (Uuid × String) Uuid
  /-- The tool runs of `vulnerability_evidence`, by vulnerability and evidence. -/
  vulnerabilityEvidence : Table (Uuid × Uuid) (Option Uuid)
  /-- The calls of parsers and of the vulnerability pipeline, in order. -/
  parserCalls : List ParserCall
  ingestCalls : List IngestCall

def Db.empty : Db where
  scans _ := none
  projects _ := none
  targets _ := none
  sites _ := none
  scopes := []
  toolRuns _ := none
  evidence := []
  objects _ := none
  assets := []
  vulnerabilities _ := none
  vulnerabilityEvidence _ := none
  parserCalls := []
  ingestCalls := []

end ScanPlatform

/-! ## The gates of the manager -/

namespace ScanPlatform

open Checks PyStr

structure Settings where
  /-- Comma-separated. -/
  vpnEgressPools : String

def Settings.vpnEgressPoolList (cfg : Settings) : List String :=
  ((split ',' cfg.vpnEgressPools).map strip).filter (· ≠ "")

/-! ## Workers -/

def assertWorkerActive (worker : ScannerWorker) : Except String Unit :=
  if worker.revokedAt.isSome ∨ worker.status = .revoked then .error "WORKER_REVOKED"
  else if worker.status = .suspended then .error "WORKER_SUSPENDED"
  else if worker.status ≠ .active ∧ worker.status ≠ .draining then .error "WORKER_NOT_ACTIVE"
  else .ok ()

/-- The gate of `/v1/lease`: a draining worker may finish what it has and take nothing new. -/
def assertWorkerMayLease (worker : ScannerWorker) : Except String Unit := do
  assertWorkerActive worker
  if worker.status ≠ .active then
    .error (if worker.status = .draining then "WORKER_DRAINING" else "WORKER_NOT_ACTIVE")

def assertWorkerMayServeSite (worker : ScannerWorker) (siteId : Option Uuid) :
    Except String Unit :=
  match siteId, worker.siteId with
  | none, some _ => .error "PRIVATE_WORKER_CANNOT_TAKE_PUBLIC_JOB"
  | none, none => .ok ()
  | some _, none => .error "PUBLIC_WORKER_CANNOT_TAKE_PRIVATE_JOB"
  | some site, some bound => if bound ≠ site then .error "WORKER_WRONG_SITE" else .ok ()

def assertWorkerInPool (worker : ScannerWorker) (poolId : Option String) : Except String Unit :=
  match poolId with
  | some pool =>
    if pool ≠ "" ∧ worker.poolId ≠ pool then .error "WORKER_WRONG_POOL" else .ok ()
  | none => .ok ()

/-- The egress mode of the worker's pool. -/
def workerEgressMode (cfg : Settings) (worker : ScannerWorker) : String :=
  if strip worker.poolId ∈ cfg.vpnEgressPoolList then "vpn" else "direct"

def assertWorkerEgressMode (cfg : Settings) (worker : ScannerWorker)
    (requiredMode : Option String) : Except String Unit :=
  let required := lower (strip (requiredMode.getD ""))
  if required = "" then .ok ()
  else if required ≠ workerEgressMode cfg worker then .error "WORKER_EGRESS_MODE_MISMATCH"
  else .ok ()

def assertWorkerInWorkspace (worker : ScannerWorker) (workspaceId : Uuid) : Except String Unit :=
  match worker.workspaceId with
  | some bound => if bound ≠ workspaceId then .error "WORKER_WRONG_WORKSPACE" else .ok ()
  | none => .ok ()

def assertWorkerMayTakeScan (cfg : Settings) (worker : ScannerWorker) (workspaceId : Uuid)
    (siteId : Option Uuid) (poolId requiredEgressMode : Option String) : Except String Unit := do
  assertWorkerActive worker
  assertWorkerMayServeSite worker siteId
  assertWorkerEgressMode cfg worker requiredEgressMode
  assertWorkerInWorkspace worker workspaceId
  assertWorkerInPool worker poolId

/-! ## Sites -/

/-- A site that exists and belongs to the workspace. -/
def getSiteForWorkspace (db : Db) (siteId workspaceId : Uuid) : Except String PrivateSite :=
  match db.sites siteId with
  | none => .error "SITE_NOT_FOUND"
  | some site =>
    if site.workspaceId ≠ workspaceId then .error "SITE_WRONG_WORKSPACE" else .ok site

def assertSiteScannable (site : PrivateSite) : Except String Unit :=
  match site.status with
  | .active => .ok ()
  | .suspended => .error "SITE_SUSPENDED"
  | .revoked => .error "SITE_REVOKED"
  | .pending | .keyExchanged | .verified => .error "SITE_NOT_ACTIVE"

/-! ## What a scan says about itself -/

/-- `uuid.UUID(str(site_id)) if site_id else None`. What is not a string never has the text of a
UUID, for a `JSON` column keeps integers within 64 bits. -/
def Scan.siteUuid (s : Scan) : Except Fault (Option Uuid) :=
  match s.config.get "site_id" with
  | none => .ok none
  | some v =>
    if v.truthy then
      match v with
      | .str t => (Uuid.ofHex t).elim (.error (.raised "ValueError")) fun u => .ok (some u)
      | _ => .error (.raised "ValueError")
    else .ok none

/-- `required_scan_egress_mode`. -/
def requiredScanEgressMode (s : Scan) : Except Fault (Option String) :=
  if ((s.config.get "site_id").map (·.truthy)).getD false then .ok none
  else
    match s.config.get "required_egress_mode" with
    | some (.str t) =>
      let mode := lower (strip t)
      .ok (if mode = "" then none else some mode)
    | some v => if v.truthy then .error (.raised "AttributeError") else .ok none
    | none => .ok none

/-- `(scan.config or {}).get("requested_modules") or []`, as a list. -/
def Scan.requestedModules (s : Scan) : Except Fault (List Json.Value) :=
  match s.config.get "requested_modules" with
  | none => .ok []
  | some v =>
    if v.truthy then v.items.elim (.error (.raised "TypeError")) .ok
    else .ok []

/-! ## The gate of every scan-scoped request -/

def refusal {α : Type} (e : Except String α) : Except Fault α :=
  match e with
  | .ok a => .ok a
  | .error reason => .error (.http 403 reason)

/-- `_authorize_scan_for_worker`; `emergency` is the state of the kill switch for private
scanning. -/
def authorizeScanForWorker (cfg : Settings) (db : Db) (worker : ScannerWorker) (emergency : Bool)
    (scanId : Uuid) : Except Fault Scan :=
  match db.scans scanId with
  | none => .error (.http 403 "SCAN_NOT_AUTHORIZED")
  | some scan => do
    let siteUuid ← scan.siteUuid
    refusal (assertWorkerMayTakeScan cfg worker scan.workspaceId siteUuid none none)
    match siteUuid with
    | none => .ok scan
    | some site =>
      if emergency then .error (.http 403 "PRIVATE_SCANNING_EMERGENCY_DISABLED")
      else do
        let row ← refusal (getSiteForWorkspace db site scan.workspaceId)
        refusal (assertSiteScannable row)
        .ok scan

/-- The gate hands on the row of the scan that was named. -/
theorem authorizeScanForWorker_scan {cfg : Settings} {db : Db} {worker : ScannerWorker}
    {emergency : Bool} {scanId : Uuid} {scan : Scan}
    (h : authorizeScanForWorker cfg db worker emergency scanId = .ok scan) :
    db.scans scanId = some scan := by
  unfold authorizeScanForWorker at h
  cases hs : db.scans scanId with
  | none => rw [hs] at h; cases h
  | some s =>
    simp only [hs, bind_eq_ok] at h
    obtain ⟨siteUuid, -, _, -, h⟩ := h
    cases siteUuid with
    | none => cases h; rfl
    | some site =>
      simp only at h
      split_ifs at h
      obtain ⟨_, -, h⟩ := bind_eq_ok.mp h
      obtain ⟨_, -, h⟩ := bind_eq_ok.mp h
      cases h
      rfl

end ScanPlatform
