import ScanPlatform.Manager.Db

/-!
# Tool runs

`POST /v1/tool-started` opens a tool run and `POST /v1/tool-results` records its outcome. The id of
the row is chosen by the worker.

* `assertExecutionToken`, `authorizedToolName`, `toolGate`: the checks that both endpoints share;
* `submitToolStarted`, `submitToolResult`: the endpoints;
* `toolGate_ok`: what a request has passed;
* **`submitToolStarted_accepted`**, **`submitToolResult_accepted`**: what they write if accepted.
-/

set_option autoImplicit false

namespace ScanPlatform

open Checks

/-- What the manager takes from outside: the digest of a text or a blob, the codec of UTF-8, the
object store's bucket, the parsers of the tools, where `none` stands for an exception, and whether
the upsert of an asset raises. -/
structure Services where
  sha256 : Bytes → String
  encode : String → Bytes
  decode : Bytes → String
  bucket : String
  parser : String → RawToolOutput → Option (List VulnerabilityFinding)
  upsertRaises : AssetUpsert → Bool

/-- Services for ASCII texts, with a table of digests. -/
def Services.ascii (digests : List (Bytes × String))
    (parser : String → RawToolOutput → Option (List VulnerabilityFinding)) : Services where
  sha256 content := (digests.lookup content).getD ""
  encode text := text.toList.map fun c => UInt8.ofNat c.toNat
  decode content := String.ofList (content.map fun b => Char.ofNat b.toNat)
  bucket := "mbs-evidence"
  parser
  upsertRaises _ := false

/-! ## The checks -/

/-- `_assert_execution_token`. -/
def assertExecutionToken (scan : Scan) (executionToken : Uuid) : Except Fault Unit :=
  if scan.executionToken = some executionToken then .ok ()
  else .error (.http 409 "EXECUTION_SUPERSEDED")

/-- `set(requested_modules)` as the names in it; a list or an object cannot be in a set. -/
def Scan.requestedNames (s : Scan) : Except Fault (List String) := do
  let modules ← s.requestedModules
  if modules.any fun
      | .arr _ | .obj _ => true
      | _ => false then
    .error (.raised "TypeError")
  else
    return modules.filterMap fun
      | .str name => some name
      | _ => none

/-- `_authorized_tool_name`. -/
def authorizedToolName (scan : Scan) (toolName : String) : Except Fault String := do
  let requested ← scan.requestedNames
  if toolName ∉ requested then .error (.http 400 "TOOL_NOT_REQUESTED_FOR_SCAN")
  else if (registered toolName).isNone then .error (.http 400 "UNKNOWN_TOOL_NAME")
  else return toolName

/-- The three checks in their order. -/
def toolGate (cfg : Settings) (db : Db) (worker : ScannerWorker) (emergency : Bool)
    (scanId executionToken : Uuid) (toolName : String) : Except Fault Scan := do
  let scan ← authorizeScanForWorker cfg db worker emergency scanId
  assertExecutionToken scan executionToken
  let _ ← authorizedToolName scan toolName
  return scan

/-- The version of a tool, from the registry. -/
def toolVersion (toolName : String) : String := ((registered toolName).map (·.version)).getD ""

/-- `_TOOL_START_FUTURE_TOLERANCE_SECONDS`. -/
def toolStartFutureTolerance : ℤ := 5 * second

/-- `_resolve_tool_started_at`. -/
def resolveToolStartedAt (reported : Option ℤ) (completedAt : ℤ) : ℤ :=
  match reported with
  | none => completedAt
  | some reported =>
    if reported - completedAt > toolStartFutureTolerance then completedAt
    else min reported completedAt

/-- `_command_hash`. -/
def commandHash (svc : Services) (effectiveCommand : Option String) : String :=
  match effectiveCommand with
  | none => ""
  | some command => if command = "" then "" else svc.sha256 (svc.encode command)

/-! ## `/v1/tool-started` -/

structure ToolStartedIn where
  scanId : Uuid
  toolRunId : Uuid
  toolName : String
  executionToken : Uuid
  startedAt : Option ℤ

def submitToolStarted (cfg : Settings) (worker : ScannerWorker) (emergency : Bool) (now : ℤ)
    (payload : ToolStartedIn) (db : Db) : Db × Except Fault Unit :=
  match toolGate cfg db worker emergency payload.scanId payload.executionToken
      payload.toolName with
  | .error fault => (db, .error fault)
  | .ok _ =>
    let startedAt := resolveToolStartedAt payload.startedAt now
    match db.toolRuns payload.toolRunId with
    | none =>
      ({ db with toolRuns := db.toolRuns.set payload.toolRunId {
          scanId := payload.scanId
          toolName := payload.toolName
          toolVersion := toolVersion payload.toolName
          status := .running
          commandHash := ""
          effectiveCommand := none
          timedOut := false
          startedAt
          completedAt := none
          exitCode := none
          rawOutputRef := none
          errorMessage := none } }, .ok ())
    | some existing =>
      if existing.scanId ≠ payload.scanId then
        (db, .error (.http 403 "TOOL_RUN_BELONGS_TO_ANOTHER_SCAN"))
      else if existing.status = .running ∧ existing.completedAt = none then
        ({ db with toolRuns := db.toolRuns.set payload.toolRunId { existing with startedAt } },
          .ok ())
      else (db, .ok ())

/-! ## `/v1/tool-results` -/

structure ToolResultIn where
  scanId : Uuid
  toolRunId : Uuid
  toolName : String
  executionToken : Uuid
  status : String
  findings : List Json.Value
  exitCode : Option ℤ
  errorMessage : Option String
  startedAt : Option ℤ
  effectiveCommand : Option String
  timedOut : Option Bool

/-- `_ALLOWED_TOOL_STATUSES`. -/
def allowedToolStatuses : List ToolStatus :=
  [.completed, .partialRun, .failed, .skippedUnauthorized]

/-- The statuses that a worker may report for a tool run. -/
def reportedToolStatus : String → Option ToolStatus
  | "completed" => some .completed
  | "partial" => some .partialRun
  | "failed" => some .failed
  | "skipped_unauthorized" => some .skippedUnauthorized
  | _ => none

/-- A worker may report every classification of a run. -/
theorem RunStatus.toolStatus_allowed (status : RunStatus) :
    status.toolStatus ∈ allowedToolStatuses := by
  cases status <;> decide

theorem reportedToolStatus_text (status : RunStatus) :
    reportedToolStatus status.text = some status.toolStatus := by
  cases status <;> rfl

/-- The row that a result inserts. -/
def newToolRun (svc : Services) (status : ToolStatus) (startedAt completedAt : ℤ)
    (payload : ToolResultIn) : ToolRun where
  scanId := payload.scanId
  toolName := payload.toolName
  toolVersion := toolVersion payload.toolName
  status
  commandHash := commandHash svc payload.effectiveCommand
  effectiveCommand := payload.effectiveCommand
  timedOut := payload.timedOut.getD false
  startedAt
  completedAt := some completedAt
  exitCode := payload.exitCode
  rawOutputRef := none
  errorMessage := payload.errorMessage.filter (· ≠ "")

/-- A result for a row that exists: the first terminal status, start, end and command stay. -/
def recordResult (svc : Services) (status : ToolStatus) (startedAt completedAt : ℤ)
    (payload : ToolResultIn) (existing : ToolRun) : ToolRun :=
  let start := if existing.startedAt > completedAt then startedAt else existing.startedAt
  let newCommand := payload.effectiveCommand.getD "" ≠ "" ∧
    existing.effectiveCommand.getD "" = ""
  { existing with
    status := if existing.status ∈ allowedToolStatuses then existing.status else status
    toolName := payload.toolName
    toolVersion := toolVersion payload.toolName
    startedAt := start
    completedAt := match existing.completedAt with
      | none => some completedAt
      | some done => some (if done < start then completedAt else done)
    exitCode := payload.exitCode.or existing.exitCode
    errorMessage := (payload.errorMessage.filter (· ≠ "")).or existing.errorMessage
    effectiveCommand := if newCommand then payload.effectiveCommand else existing.effectiveCommand
    commandHash :=
      if newCommand then commandHash svc payload.effectiveCommand else existing.commandHash
    timedOut := payload.timedOut.getD false || existing.timedOut }

/-- The upsert that a reported finding asks for. -/
def assetUpsert (scan : Scan) : Json.Value → Option AssetUpsert
  | .obj finding =>
    let finding : Json.Object := finding
    match finding.get "asset_type", finding.get "value" with
    | some assetType, some value =>
      if assetType.truthy ∧ value.truthy then
        some {
          projectId := scan.projectId
          targetId := scan.targetId
          assetType, value
          metadata := ((finding.get "metadata").filter (·.truthy)).getD (.obj []) }
      else none
    | _, _ => none
  | _ => none

structure ToolResultOut where
  assets : ℕ
  rejectedAssets : ℕ

def submitToolResult (cfg : Settings) (svc : Services) (worker : ScannerWorker) (emergency : Bool)
    (now : ℤ) (payload : ToolResultIn) (db : Db) : Db × Except Fault ToolResultOut :=
  match toolGate cfg db worker emergency payload.scanId payload.executionToken
      payload.toolName with
  | .error fault => (db, .error fault)
  | .ok scan =>
    match reportedToolStatus payload.status with
    | none => (db, .error (.http 400 "INVALID_TOOL_STATUS"))
    | some status =>
      if (db.toolRuns payload.toolRunId).any (·.scanId ≠ payload.scanId) then
        (db, .error (.http 403 "TOOL_RUN_BELONGS_TO_ANOTHER_SCAN"))
      else
        let startedAt := resolveToolStartedAt payload.startedAt now
        let toolRun := match db.toolRuns payload.toolRunId with
          | none => newToolRun svc status startedAt now payload
          | some existing => recordResult svc status startedAt now payload existing
        let upserts := payload.findings.filterMap (assetUpsert scan)
        let stored := upserts.filter (!svc.upsertRaises ·)
        ({ db with
            toolRuns := db.toolRuns.set payload.toolRunId toolRun
            assets := db.assets ++ stored },
          .ok ⟨stored.length, upserts.length - stored.length⟩)

/-! ## What an accepted request has passed and what it writes -/

/-- The module is one of those that were requested for the scan. -/
def Scan.Requests (s : Scan) (name : String) : Prop :=
  ∃ modules, s.requestedModules = .ok modules ∧ Json.Value.str name ∈ modules

theorem Scan.requests_of_requestedNames {s : Scan} {names : List String} {name : String}
    (h : s.requestedNames = .ok names) (hname : name ∈ names) : s.Requests name := by
  obtain ⟨modules, hmodules, h⟩ := bind_eq_ok.mp h
  refine ⟨modules, hmodules, ?_⟩
  split_ifs at h
  cases h
  obtain ⟨v, hv, hstr⟩ := List.mem_filterMap.mp hname
  cases v with
  | str t => cases hstr; exact hv
  | null | bool | num | arr | obj => cases hstr

theorem authorizedToolName_ok {scan : Scan} {toolName name : String}
    (h : authorizedToolName scan toolName = .ok name) :
    scan.Requests toolName ∧ (registered toolName).isSome := by
  obtain ⟨names, hnames, h⟩ := bind_eq_ok.mp h
  split_ifs at h with hmem hreg
  exact ⟨scan.requests_of_requestedNames hnames hmem, by
    rwa [Option.isNone_iff_eq_none, ← ne_eq, Option.ne_none_iff_isSome] at hreg⟩

theorem toolGate_ok {cfg : Settings} {db : Db} {worker : ScannerWorker} {emergency : Bool}
    {scanId executionToken : Uuid} {toolName : String} {scan : Scan}
    (h : toolGate cfg db worker emergency scanId executionToken toolName = .ok scan) :
    db.scans scanId = some scan ∧ scan.executionToken = some executionToken ∧
      scan.Requests toolName ∧ (registered toolName).isSome := by
  obtain ⟨scan', hscan, h⟩ := bind_eq_ok.mp h
  obtain ⟨_, htoken, h⟩ := bind_eq_ok.mp h
  obtain ⟨_, hname, h⟩ := bind_eq_ok.mp h
  cases h
  refine ⟨authorizeScanForWorker_scan hscan, ?_, authorizedToolName_ok hname⟩
  unfold assertExecutionToken at htoken
  split_ifs at htoken with hsame
  exact hsame

/-- **What an accepted announcement writes**: the named row or nothing. The row was not there, or
was one of the scan with the tool that it already had. -/
theorem submitToolStarted_accepted {cfg : Settings} {worker : ScannerWorker} {emergency : Bool}
    {now : ℤ} {payload : ToolStartedIn} {db : Db}
    (h : (submitToolStarted cfg worker emergency now payload db).2 = .ok ()) :
    ∃ scan, db.scans payload.scanId = some scan ∧ scan.Requests payload.toolName ∧
      (∀ r ∈ db.toolRuns payload.toolRunId, r.scanId = payload.scanId) ∧
      ((submitToolStarted cfg worker emergency now payload db).1 = db ∨
        ∃ r, (submitToolStarted cfg worker emergency now payload db).1 =
            { db with toolRuns := db.toolRuns.set payload.toolRunId r } ∧
          r.scanId = payload.scanId ∧
          match db.toolRuns payload.toolRunId with
          | none => r.toolName = payload.toolName ∧ r.status = .running
          | some old => r.toolName = old.toolName) := by
  unfold submitToolStarted at h ⊢
  cases hgate : toolGate cfg db worker emergency payload.scanId payload.executionToken
      payload.toolName with
  | error f => rw [hgate] at h; cases h
  | ok scan =>
    obtain ⟨hscan, -, hrequests, -⟩ := toolGate_ok hgate
    refine ⟨scan, hscan, hrequests, ?_⟩
    simp only [hgate] at h ⊢
    cases hold : db.toolRuns payload.toolRunId with
    | none => exact ⟨fun r hr => (by cases hr), .inr ⟨_, rfl, rfl, rfl, rfl⟩⟩
    | some old =>
      simp only [hold] at h ⊢
      split_ifs at h ⊢ with hother hrunning
      · exact ⟨fun r hr => by cases hr; exact not_not.mp hother,
          .inr ⟨_, rfl, not_not.mp hother, rfl⟩⟩
      · exact ⟨fun r hr => by cases hr; exact not_not.mp hother, .inl rfl⟩

/-- An announcement that is refused writes nothing. -/
theorem submitToolStarted_error {cfg : Settings} {worker : ScannerWorker} {emergency : Bool}
    {now : ℤ} {payload : ToolStartedIn} {db : Db} {fault : Fault}
    (h : (submitToolStarted cfg worker emergency now payload db).2 = .error fault) :
    (submitToolStarted cfg worker emergency now payload db).1 = db := by
  unfold submitToolStarted at h ⊢
  split at h
  · rfl
  · dsimp only at h ⊢
    split at h
    · cases h
    · split_ifs at h ⊢
      rfl

/-- **What an accepted result writes**: the named row, which was not there or was one of the scan,
and assets. -/
theorem submitToolResult_accepted {cfg : Settings} {svc : Services} {worker : ScannerWorker}
    {emergency : Bool} {now : ℤ} {payload : ToolResultIn} {db : Db} {out : ToolResultOut}
    (h : (submitToolResult cfg svc worker emergency now payload db).2 = .ok out) :
    ∃ scan status assets, db.scans payload.scanId = some scan ∧
      scan.Requests payload.toolName ∧
      reportedToolStatus payload.status = some status ∧
      (∀ r ∈ db.toolRuns payload.toolRunId, r.scanId = payload.scanId) ∧
      (submitToolResult cfg svc worker emergency now payload db).1 =
        { db with
          assets
          toolRuns := db.toolRuns.set payload.toolRunId
            (match db.toolRuns payload.toolRunId with
            | none => newToolRun svc status (resolveToolStartedAt payload.startedAt now) now payload
            | some old =>
              recordResult svc status (resolveToolStartedAt payload.startedAt now) now payload
                old) } := by
  unfold submitToolResult at h ⊢
  cases hgate : toolGate cfg db worker emergency payload.scanId payload.executionToken
      payload.toolName with
  | error f => rw [hgate] at h; cases h
  | ok scan =>
    obtain ⟨hscan, -, hrequests, -⟩ := toolGate_ok hgate
    cases hstatus : reportedToolStatus payload.status with
    | none => simp only [hgate, hstatus] at h; cases h
    | some status =>
      simp only [hgate, hstatus] at h ⊢
      split_ifs at h ⊢ with hother
      refine ⟨scan, status, _, hscan, hrequests, rfl, fun r hr => ?_, rfl⟩
      rw [Option.mem_def] at hr
      simpa [hr] using hother

/-- A result that is refused writes nothing. -/
theorem submitToolResult_error {cfg : Settings} {svc : Services} {worker : ScannerWorker}
    {emergency : Bool} {now : ℤ} {payload : ToolResultIn} {db : Db} {fault : Fault}
    (h : (submitToolResult cfg svc worker emergency now payload db).2 = .error fault) :
    (submitToolResult cfg svc worker emergency now payload db).1 = db := by
  unfold submitToolResult at h ⊢
  split at h
  · rfl
  · split at h
    · rfl
    · split_ifs at h ⊢
      rfl

end ScanPlatform
