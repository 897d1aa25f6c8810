import Mathlib.Data.Prod.Lex
import ScanPlatform.Base.Newest
import ScanPlatform.Base.PyText
import ScanPlatform.Manager.Db
import ScanPlatform.Scan.Row

/-!
# The retention purge

A live run of the retention sweep. It goes through the workspaces; in each of them it deletes what
is due of every resource, in one transaction with an audit event for each deletion, and after the
commit it deletes the objects that the deleted rows named.

* `RetentionDb`, `Resource`, `RetentionDb.candidates`: the tables, and what of a resource belongs to
  a workspace;
* `eligible`, `selectEligible`, `due`: what is old enough, what is selected, and what is deleted;
* `IdValue`, `assertInsertAllowed`: an id as Python holds it, and the guard of the tenancy;
* `purgeGeneric`, `purgeScans`, `purgeWorkspace`: the transaction of a workspace;
* `cleanupStorage`, `runAsync`: the objects, and the run.
-/

set_option autoImplicit false

namespace ScanPlatform.Retention

open Json Newest PyStr

/-! ## Tables -/

/-- A row of a table that is purged by age. -/
structure AgedRow where
  id : Uuid
  workspaceId : Uuid
  createdAt : ℤ
  deriving DecidableEq

structure ReportRow where
  id : Uuid
  projectId : Uuid
  generatedAt : ℤ
  storageUri : Option String
  scanIds : Value

structure ScanRow where
  id : Uuid
  workspaceId : Uuid
  status : ScanStatus
  createdAt : ℤ
  completedAt : Option ℤ
  deriving DecidableEq

structure ToolRunRow where
  id : Uuid
  scanId : Uuid
  deriving DecidableEq

structure EvidenceRow where
  toolRunId : Option Uuid
  storageUri : String
  deriving DecidableEq

/-- A row of `risk_assessments`. -/
structure AssessmentRow extends AgedRow where
  issued : Bool
  deriving DecidableEq

/-- A row of `audit_events`. -/
structure AuditRow extends AgedRow where
  action : String
  resourceType : String
  detail : String
  deriving DecidableEq

structure RetentionDb where
  /-- The workspaces, and when they were created. -/
  workspaces : List (Uuid × ℤ)
  /-- The projects, and the workspaces that they are in. -/
  projects : List (Uuid × Uuid)
  reports : List ReportRow
  /-- The reports whose `scans_purged` is set. -/
  scansPurged : List Uuid
  scans : List ScanRow
  toolRuns : List ToolRunRow
  evidence : List EvidenceRow
  aiUsage : List AgedRow
  notifications : List AgedRow
  remediationEvents : List AgedRow
  assessments : List AssessmentRow
  auditEvents : List AuditRow

inductive Resource where
  | report
  | scan
  | aiUsage
  | notification
  | remediationEvent
  | riskAssessment
  | audit
  deriving DecidableEq

def Resource.text : Resource → String
  | .report => "report"
  | .scan => "scan"
  | .aiUsage => "ai_usage"
  | .notification => "notification"
  | .remediationEvent => "remediation_event"
  | .riskAssessment => "risk_assessment"
  | .audit => "audit"

/-- `PROCESSED`, in the order of the purge. -/
def processed : List Resource :=
  [.report, .scan, .aiUsage, .notification, .remediationEvent, .riskAssessment, .audit]

section

variable (db : RetentionDb) (wid : Uuid)

def RetentionDb.reportsOf : List ReportRow :=
  db.reports.filter fun r => db.projects.any (· = (r.projectId, wid))

/-- The rows of a resource that `_WORKSPACE_FILTER` matches, or `_SCAN_RANK`, with their times. -/
def RetentionDb.candidates : Resource → List (Uuid × ℤ)
  | .report => (db.reportsOf wid).map fun r => (r.id, r.generatedAt)
  | .scan => (db.scans.filter fun s => s.workspaceId = wid ∧ s.status ∈ terminalStatuses).map
      fun s => (s.id, s.completedAt.getD s.createdAt)
  | .aiUsage => aged db.aiUsage
  | .notification => aged db.notifications
  | .remediationEvent => aged db.remediationEvents
  | .riskAssessment => aged ((db.assessments.filter (·.issued)).map (·.toAgedRow))
  | .audit => aged (db.auditEvents.map (·.toAgedRow))
where
  aged (rows : List AgedRow) : List (Uuid × ℤ) :=
    (rows.filter (·.workspaceId = wid)).map fun row => (row.id, row.createdAt)

/-- A row is among those with these ids. -/
def among (ids : List Uuid) (id : Uuid) : Bool := ids.any (· = id)

/-- `delete_by_ids` and `delete_scans`. What cascades from a scan besides its tool runs and their
evidence names no object. -/
def RetentionDb.delete (ids : List Uuid) : Resource → RetentionDb
  | .report => { db with reports := db.reports.filter fun r => !among ids r.id }
  | .scan =>
    let gone := (db.toolRuns.filter fun t => among ids t.scanId).map (·.id)
    { db with
      scans := db.scans.filter fun s => !among ids s.id
      toolRuns := db.toolRuns.filter fun t => !among ids t.scanId
      evidence := db.evidence.filter fun e => !e.toolRunId.any (among gone) }
  | .aiUsage => { db with aiUsage := db.aiUsage.filter fun row => !among ids row.id }
  | .notification =>
    { db with notifications := db.notifications.filter fun row => !among ids row.id }
  | .remediationEvent =>
    { db with remediationEvents := db.remediationEvents.filter fun row => !among ids row.id }
  | .riskAssessment =>
    { db with assessments := db.assessments.filter fun row => !among ids row.id }
  | .audit => { db with auditEvents := db.auditEvents.filter fun row => !among ids row.id }

end

/-! ## What is due -/

structure RetentionSettings where
  minKeep : ℤ
  batchSize : ℤ
  cutoffs : Resource → ℤ
  bucketEvidence : String

/-- `ORDER BY ts DESC, id DESC` ranks the newest first. -/
def rankKey (c : Uuid × ℤ) : ℤ ×ₗ ℕ := toLex (c.2, c.1.toNat)

section

variable (settings : RetentionSettings) (db : RetentionDb) (wid : Uuid) (r : Resource)

/-- The candidates of rank over `min_keep` before the cutoff, oldest first. -/
def eligible : List (Uuid × ℤ) :=
  (older rankKey settings.minKeep.toNat (db.candidates wid r)).filter fun c =>
    c.2 < settings.cutoffs r

/-- `select_eligible_generic` and `select_eligible_scans`; a negative `LIMIT` is an error. -/
def selectEligible : Except Fault (List Uuid) :=
  if settings.batchSize < 0 then .error (.raised "ProgrammingError")
  else .ok (((eligible settings db wid r).take settings.batchSize.toNat).map (·.1))

end

/-! ## Audit events and the guard -/

/-- The id of a workspace as Python holds it: a raw `SELECT` returns texts. -/
inductive IdValue where
  | text (id : Uuid)
  | uuid (id : Uuid)
  deriving DecidableEq

def IdValue.id : IdValue → Uuid
  | .text id | .uuid id => id

@[simp] theorem IdValue.id_text (id : Uuid) : (IdValue.text id).id = id := rfl

/-- What a process brings along: whether the guard of the tenancy is installed in it, and the ids
and times of new audit events. -/
structure RetentionProcess where
  installed : Bool
  stamp : Uuid → Resource → Uuid × ℤ

/-- `_assert_insert_allowed` for a row with a workspace, when this one is bound. -/
def assertInsertAllowed (proc : RetentionProcess) (bound row : IdValue) : Except Fault Unit :=
  if proc.installed ∧ row ≠ bound then .error (.raised "CrossTenantWriteError") else .ok ()

/-- The event of a purge. -/
def auditEvent (proc : RetentionProcess) (wid : Uuid) (r : Resource) (count : ℕ) : AuditRow where
  id := (proc.stamp wid r).1
  workspaceId := wid
  createdAt := (proc.stamp wid r).2
  action := "retention.purged"
  resourceType := r.text
  detail := s!"purged {count}"

/-- `_audit`. -/
def audit (proc : RetentionProcess) (bound wid : IdValue) (r : Resource) (count : ℕ)
    (db : RetentionDb) : Except Fault RetentionDb := do
  assertInsertAllowed proc bound wid
  return { db with auditEvents := db.auditEvents ++ [auditEvent proc wid.id r count] }

/-! ## A workspace -/

/-- `_StorageTargets`; nothing adds to its `workspace_ids`. -/
structure StorageTargets where
  toolRunIds : List Uuid
  reportUris : List String
  evidenceUris : List String

def StorageTargets.empty : StorageTargets := ⟨[], [], []⟩

/-- What the transaction of a workspace has done so far. -/
structure Purge where
  db : RetentionDb
  targets : StorageTargets

/-- `capture_report_uris`. -/
def captureReportUris (db : RetentionDb) (ids : List Uuid) : List String :=
  (db.reports.filter fun r => among ids r.id).filterMap (·.storageUri)

/-- `capture_tool_run_ids`. -/
def captureToolRunIds (db : RetentionDb) (scanIds : List Uuid) : List Uuid :=
  (db.toolRuns.filter fun t => among scanIds t.scanId).map (·.id)

/-- `capture_evidence_uris`. -/
def captureEvidenceUris (db : RetentionDb) (toolRunIds : List Uuid) : List String :=
  (db.evidence.filter fun e => e.toolRunId.any (among toolRunIds)).map (·.storageUri)

/-- The report when it cites one of the scans; a value that cannot be iterated over raises. -/
def toFlag (scanIds : List Uuid) (r : ReportRow) : Except Fault (Option Uuid) :=
  match r.scanIds.items with
  | none => .error (.raised "TypeError")
  | some items =>
    let cited := items.any fun
      | .str s => scanIds.any (·.str = s)
      | _ => false
    .ok (if cited then some r.id else none)

/-- `mark_reports_with_purged_scans`. -/
def markReportsWithPurgedScans (wid : Uuid) (scanIds : List Uuid) (db : RetentionDb) :
    Except Fault RetentionDb := do
  if scanIds = [] then return db
  let rows := (db.reportsOf wid).filter fun r => !among db.scansPurged r.id
  let flagged ← rows.mapM (toFlag scanIds)
  return { db with scansPurged := db.scansPurged ++ flagged.filterMap id }

section

variable (proc : RetentionProcess) (settings : RetentionSettings) (bound wid : IdValue)

/-- `_generic`. -/
def purgeGeneric (r : Resource) (p : Purge) : Except Fault Purge := do
  if eligible settings p.db wid.id r = [] then return p
  let ids ← selectEligible settings p.db wid.id r
  let targets :=
    if r = .report then
      { p.targets with reportUris := p.targets.reportUris ++ captureReportUris p.db ids }
    else p.targets
  let db ← audit proc bound wid r ids.length (p.db.delete ids r)
  return ⟨db, targets⟩

/-- The second part of `_purge_workspace`. -/
def purgeScans (p : Purge) : Except Fault Purge := do
  if eligible settings p.db wid.id .scan = [] then return p
  let scanIds ← selectEligible settings p.db wid.id .scan
  let toolRunIds := captureToolRunIds p.db scanIds
  let targets :=
    { p.targets with
      toolRunIds := p.targets.toolRunIds ++ toolRunIds
      evidenceUris := p.targets.evidenceUris ++ captureEvidenceUris p.db toolRunIds }
  let db ← markReportsWithPurgedScans wid.id scanIds p.db
  let db ← audit proc bound wid .scan scanIds.length (db.delete scanIds .scan)
  return ⟨db, targets⟩

def purgeResource (r : Resource) (p : Purge) : Except Fault Purge :=
  if r = .scan then purgeScans proc settings bound wid p
  else purgeGeneric proc settings bound wid r p

/-- `_purge_workspace`. -/
def purgeWorkspace (db : RetentionDb) : Except Fault Purge :=
  processed.foldlM (fun p r => purgeResource proc settings bound wid r p) ⟨db, .empty⟩

end

/-! ## Objects -/

structure StoredObject where
  bucket : String
  key : String
  deriving DecidableEq

/-- `_parse_s3`. -/
def parseS3 (uri : String) : Option StoredObject :=
  if startsWith uri "s3://" then
    let parts := PyStr.partition '/' (uri.toList.drop 5)
    if parts.1 = [] ∨ parts.2.2 = [] then none
    else some ⟨String.ofList parts.1, String.ofList parts.2.2⟩
  else none

/-- `_validate_key`. -/
def validateKey (key : String) : Option String :=
  let cleaned := strip key
  if cleaned = "" ∨ contains cleaned "\x00" ∨ contains cleaned ".." ∨ startsWith cleaned "/" ∨
    contains cleaned "\\" then none
  else some cleaned

/-- `delete` of the provider for the bucket of a URI; an error is logged. -/
def deleteUri (store : List StoredObject) (uri : String) : List StoredObject :=
  match parseS3 uri with
  | none => store
  | some o =>
    match validateKey o.key with
    | none => store
    | some key => store.filter (· ≠ ⟨o.bucket, key⟩)

/-- `tool-runs/{tool_run_id}/`, which `_validate_prefix` accepts. -/
def toolRunPrefix (id : Uuid) : String := "tool-runs/" ++ id.str ++ "/"

/-- `delete_prefix`. -/
def deletePrefix (bucket start : String) (store : List StoredObject) : List StoredObject :=
  store.filter fun o => !(o.bucket = bucket && startsWith o.key start)

/-- `_cleanup_storage`. -/
def cleanupStorage (settings : RetentionSettings) (targets : StorageTargets)
    (store : List StoredObject) : List StoredObject :=
  let store := targets.toolRunIds.foldl
    (fun store id => deletePrefix settings.bucketEvidence (toolRunPrefix id) store) store
  (targets.evidenceUris ++ targets.reportUris).foldl deleteUri store

/-! ## The run -/

/-- The database and the objects. -/
structure RetentionState where
  db : RetentionDb
  store : List StoredObject

/-- `list_workspace_ids`. -/
def RetentionDb.workspaceIds (db : RetentionDb) : List Uuid :=
  (sortByKey rankKey db.workspaces).map (·.1)

/-- The loop of `_run_async`; the transaction of a workspace that raises is rolled back. -/
def sweep (proc : RetentionProcess) (settings : RetentionSettings) :
    List Uuid → RetentionState → RetentionState × Option Fault
  | [], s => (s, none)
  | wid :: wids, s =>
    match purgeWorkspace proc settings (.uuid wid) (.text wid) s.db with
    | .error e => (s, some e)
    | .ok p => sweep proc settings wids ⟨p.db, cleanupStorage settings p.targets s.store⟩

/-- `_run_async`, when it is live. -/
def runAsync (proc : RetentionProcess) (settings : RetentionSettings) (s : RetentionState) :
    RetentionState × Option Fault :=
  sweep proc settings s.db.workspaceIds s

end ScanPlatform.Retention
