import ScanPlatform.Base.CondMachine
import ScanPlatform.Manager.StoredEvidence
import ScanPlatform.Manager.Submission
import ScanPlatform.Tenancy.Cascade

/-!
# Owners of evidence

The rows of every workspace over any number of submissions, tool runs, uploads of proof and
deletions.

* `addRemediationEvidence`, `deleteProject`, `performWorkspaceDeletion`, `purgeScans`: the
  operations on a workspace;
* `WorkspaceAction`, `workspaceStep`: these, and the others that write the rows in question;
* `Records`, `Records.intact`, `Records.linked_iff`: what the operations of the scanner write;
* `workspaceStep_intact`, `workspaceStep_linked_iff`: what one operation does;
* `LeavesNoOrphan`, **`owned_iff`**: every row of `evidence` has exactly one owner as long as none
  is submitted without a tool run and no project is deleted that has proof; `orphaned` has one of
  each.
-/

set_option autoImplicit false

namespace ScanPlatform.Tenancy

open Checks CondMachine

/-! ## Operations -/

/-- `MAX_UPLOAD_BYTES`. -/
def maxUploadBytes : ℕ := 25 * 1024 * 1024

/-- Where `store_remediation_proof` puts an artifact; `ext` is what it takes of the file's name. -/
def proofUri (svc : Services) (workspaceId itemId : Uuid) (digest ext : String) : String :=
  s!"s3://{svc.bucket}/workspaces/{Uuid.str workspaceId}/remediation/{Uuid.str itemId}/" ++
    s!"proof-{digest.take 16}{ext}"

/-- `add_remediation_evidence`; `evidenceId` is the id made for the row. -/
def addRemediationEvidence (svc : Services) (storeRaises : Bool)
    (workspaceId projectId itemId evidenceId : Uuid) (content : Bytes) (ext : String)
    (db : WorkspaceDb) : WorkspaceDb × Except Fault Evidence :=
  match (db.items itemId).filter fun i => i.projectId = projectId ∧ i.workspaceId = workspaceId with
  | none => (db, .error (.http 404 "Remediation item not found"))
  | some _ =>
    if content = [] then (db, .error (.http 400 "Uploaded file is empty"))
    else if maxUploadBytes < content.length then
      (db, .error (.http 413
        s!"Evidence must be at most {maxUploadBytes / (1024 * 1024)} MiB"))
    else if storeRaises then (db, .error (.raised "ClientError"))
    else
      let digest := svc.sha256 content
      let uri := proofUri svc workspaceId itemId digest ext
      let evidence : Evidence := ⟨evidenceId, none, "remediation_proof", uri, digest⟩
      ({ db with
          objects := db.objects.set uri content
          evidence := db.evidence ++ [evidence]
          remediationEvidence := db.remediationEvidence ++ [⟨itemId, evidenceId, workspaceId⟩] },
        .ok evidence)

def deleteProject (workspaceId projectId : Uuid) (db : WorkspaceDb) :
    WorkspaceDb × Except Fault Unit :=
  match getProject db.toDb workspaceId projectId with
  | .error fault => (db, .error fault)
  | .ok _ => (deleteProjects (fun id _ => id = projectId) db, .ok ())

/-- The scans that `_deactivate_and_revoke` cancels. -/
def deactivateAndRevoke (now : ℤ) (workspaceId : Uuid) (db : WorkspaceDb) : WorkspaceDb :=
  { db with
    scans := db.scans.updateAll fun s =>
      if s.workspaceId = workspaceId ∧ (s.status = .queued ∨ s.status = .running) then
        some { s with status := .cancelled, completedAt := some now }
      else none }

/-- `perform_workspace_deletion`: whether there was a workspace; `raises` is whether the transaction
of the deletion fails, which is a second one. -/
def performWorkspaceDeletion (now : ℤ) (raises : Bool) (workspaceId : Uuid) (db : WorkspaceDb) :
    WorkspaceDb × Except Fault Bool :=
  if db.hasWorkspace workspaceId then
    let db := deactivateAndRevoke now workspaceId db
    if raises then (db, .error (.raised "IntegrityError"))
    else (deleteWorkspace workspaceId (deleteUnreferencedEvidence workspaceId db), .ok true)
  else (db, .ok false)

/-- The scans of `_purge_workspace`: `scanIds` is what `select_eligible_scans` returns, terminal
scans of the workspace that ended before `cutoff`. -/
def purgeScans (workspaceId : Uuid) (cutoff : ℤ) (scanIds : List Uuid) (db : WorkspaceDb) :
    Option WorkspaceDb :=
  if scanIds.all fun id => (db.scans id).any fun s =>
      s.workspaceId = workspaceId ∧ s.status ∈ terminalStatuses ∧
        s.completedAt.all (· < cutoff) then
    some (deleteScans (fun id _ => scanIds.any (· = id)) db)
  else none

inductive WorkspaceAction where
  | createWorkspace (id : Uuid)
  | createProject (id workspaceId : Uuid)
  | createScan (now : ℤ) (id workspaceId projectId targetId : Uuid) (config : Json.Object)
  /-- An update of the row of a scan. -/
  | stepScan (id : Uuid) (a : ScanStep)
  /-- A request of a worker. -/
  | submit (cfg : Settings) (worker : ScannerWorker) (emergency : Bool) (now : ℤ)
      (evidenceId : Uuid) (submission : Submission)
  /-- `_run_single_tool`. -/
  | runTool (storeRaises : Bool) (inScope : CommonFinding → Bool) (target : ScanTarget)
      (scanId : Uuid) (runner : Runner) (toolRunId evidenceId : Uuid)
      (startedAt completedAt : ℤ) (launch : Launch)
  /-- `_capture_screenshot`. -/
  | screenshot (storeRaises : Bool) (vulnerabilityId toolRunId evidenceId : Uuid) (image : Bytes)
  /-- An issue of `sync_items_for_project` that has no item yet. -/
  | createItem (id : Uuid) (item : RemediationItem)
  | addRemediationEvidence (storeRaises : Bool) (workspaceId projectId itemId evidenceId : Uuid)
      (content : Bytes) (ext : String)
  | deleteProject (workspaceId projectId : Uuid)
  | performWorkspaceDeletion (now : ℤ) (raises : Bool) (workspaceId : Uuid)
  | purgeScans (workspaceId : Uuid) (cutoff : ℤ) (scanIds : List Uuid)
  /-- Whatever else the platform writes. -/
  | other (tables : Db)

/-- An id that is made for a row of `evidence`. -/
def WorkspaceDb.freshEvidence (db : WorkspaceDb) (id : Uuid) : Bool := db.evidence.all (·.id ≠ id)

/-- An id that is made is not one of a row, and a foreign key that names no row is refused. -/
def workspaceStep (svc : Services) : WorkspaceAction → WorkspaceDb → Option WorkspaceDb
  | .createWorkspace id, db =>
    if db.hasWorkspace id then none else some { db with workspaces := db.workspaces ++ [id] }
  | .createProject id workspaceId, db =>
    if (db.projects id).isNone ∧ db.hasWorkspace workspaceId then
      some { db with projects := db.projects.set id ⟨workspaceId⟩ }
    else none
  | .createScan now id workspaceId projectId targetId config, db =>
    if (db.scans id).isNone ∧
        (requireVerifiedTarget db.toDb now workspaceId projectId targetId).isOk then
      some { db with
        scans := db.scans.set id (Scan.created workspaceId projectId targetId config now) }
    else none
  | .stepScan id a, db => (db.scans.update id (scanStep a)).map fun scans => { db with scans }
  | .submit cfg worker emergency now evidenceId submission, db =>
    if db.freshEvidence evidenceId then
      some { db with
        toDb := (submit cfg svc worker emergency now evidenceId submission db.toDb).1 }
    else none
  | .runTool storeRaises inScope target scanId runner toolRunId evidenceId startedAt completedAt
      launch, db =>
    (db.scans scanId).bind fun scan =>
      if (db.toolRuns toolRunId).isNone ∧ db.freshEvidence evidenceId then
        some { db with
          toDb := (runSingleTool svc storeRaises inScope target scanId scan runner toolRunId
            evidenceId startedAt completedAt launch db.toDb).1 }
      else none
  | .screenshot storeRaises vulnerabilityId toolRunId evidenceId image, db =>
    if (db.toolRuns toolRunId).isSome ∧ db.freshEvidence evidenceId then
      some { db with
        toDb := captureScreenshot svc storeRaises vulnerabilityId toolRunId evidenceId image
          db.toDb }
    else none
  | .createItem id item, db =>
    if (db.items id).isNone ∧ (getProject db.toDb item.workspaceId item.projectId).isOk then
      some { db with items := db.items.set id item }
    else none
  | .addRemediationEvidence storeRaises workspaceId projectId itemId evidenceId content ext, db =>
    if db.freshEvidence evidenceId then
      some (addRemediationEvidence svc storeRaises workspaceId projectId itemId
        evidenceId content ext db).1
    else none
  | .deleteProject workspaceId projectId, db =>
    some (deleteProject workspaceId projectId db).1
  | .performWorkspaceDeletion now raises workspaceId, db =>
    some (performWorkspaceDeletion now raises workspaceId db).1
  | .purgeScans workspaceId cutoff scanIds, db =>
    purgeScans workspaceId cutoff scanIds db
  | .other tables, db =>
    some { db with
      toDb := { tables with
        scans := db.scans
        projects := db.projects
        toolRuns := db.toolRuns
        evidence := db.evidence } }

/-! ## What the scanner writes -/

/-- Tool runs of scans that are there and at most one row of `evidence`, of a tool run that is
there or of none. -/
structure Records (db db' : Db) (row : Option Evidence) : Prop where
  scans : db'.scans = db.scans
  projects : db'.projects = db.projects
  toolRuns : ∀ id r', db'.toolRuns id = some r' →
    (∃ r, db.toolRuns id = some r ∧ r.scanId = r'.scanId) ∨ ∃ s, db.scans r'.scanId = some s
  kept : ∀ id r, db.toolRuns id = some r → ∃ r', db'.toolRuns id = some r'
  evidence : db'.evidence = db.evidence ++ row.toList
  row : ∀ e ∈ row, ∀ id ∈ e.toolRunId, ∃ r, db'.toolRuns id = some r

/-- No tool run is written. -/
theorem Records.of_same {db db' : Db} {row : Option Evidence} (hruns : db'.toolRuns = db.toolRuns)
    (hscans : db'.scans = db.scans) (hprojects : db'.projects = db.projects)
    (hevidence : db'.evidence = db.evidence ++ row.toList)
    (hrow : ∀ e ∈ row, ∀ id ∈ e.toolRunId, ∃ r, db.toolRuns id = some r) : Records db db' row where
  scans := hscans
  projects := hprojects
  toolRuns id r' hr' := by
    rw [hruns] at hr'
    exact .inl ⟨r', hr', rfl⟩
  kept id r hr := ⟨r, by rw [hruns]; exact hr⟩
  evidence := hevidence
  row e he id hid := by
    rw [hruns]
    exact hrow e he id hid

theorem Records.refl (db : Db) : Records db db none :=
  .of_same rfl rfl rfl (List.append_nil _).symm fun _ he => by cases he

/-- One tool run is written, of a scan that is there or of the scan that it had. -/
theorem Records.of_set {db db' : Db} {row : Option Evidence} {id : Uuid} {r : ToolRun}
    (hruns : db'.toolRuns = db.toolRuns.set id r)
    (hscan : (∃ old, db.toolRuns id = some old ∧ old.scanId = r.scanId) ∨
      ∃ s, db.scans r.scanId = some s)
    (hscans : db'.scans = db.scans) (hprojects : db'.projects = db.projects)
    (hevidence : db'.evidence = db.evidence ++ row.toList)
    (hrow : ∀ e ∈ row, ∀ j ∈ e.toolRunId, j = id) : Records db db' row where
  scans := hscans
  projects := hprojects
  toolRuns j r' hr' := by
    rw [hruns, Table.set_apply] at hr'
    split_ifs at hr' with hj
    · subst hj
      cases hr'
      exact hscan
    · exact .inl ⟨r', hr', rfl⟩
  kept j old hold := by
    rw [hruns]
    exact Table.exists_set hold
  evidence := hevidence
  row e he j hj := by
    obtain rfl := hrow e he j hj
    exact ⟨r, by rw [hruns, Table.set_self]⟩

/-- What follows a row. -/
theorem Records.trans {db₁ db₂ db₃ : Db} {row : Option Evidence} (h : Records db₁ db₂ row)
    (h' : Records db₂ db₃ none) : Records db₁ db₃ row where
  scans := h'.scans.trans h.scans
  projects := h'.projects.trans h.projects
  toolRuns id r₃ hr₃ := by
    rcases h'.toolRuns id r₃ hr₃ with ⟨r₂, hr₂, hscan⟩ | hscan
    · rw [← hscan]
      exact h.toolRuns id r₂ hr₂
    · rw [h.scans] at hscan
      exact .inr hscan
  kept id r hr := by
    obtain ⟨r₂, hr₂⟩ := h.kept id r hr
    exact h'.kept id r₂ hr₂
  evidence := by rw [h'.evidence, h.evidence, Option.toList_none, List.append_nil]
  row e he id hid := by
    obtain ⟨r₂, hr₂⟩ := h.row e he id hid
    exact h'.kept id r₂ hr₂

theorem submitToolStarted_records (cfg : Settings) (worker : ScannerWorker) (emergency : Bool)
    (now : ℤ) (payload : ToolStartedIn) (db : Db) :
    Records db (submitToolStarted cfg worker emergency now payload db).1 none := by
  cases hout : (submitToolStarted cfg worker emergency now payload db).2 with
  | error fault =>
    rw [submitToolStarted_error hout]
    exact .refl db
  | ok _ =>
    obtain ⟨scan, hscan, -, -, hdb | ⟨r, hdb, hr, -⟩⟩ := submitToolStarted_accepted hout
    · rw [hdb]
      exact .refl db
    · rw [hdb]
      exact .of_set rfl (.inr ⟨scan, hr ▸ hscan⟩) rfl rfl (List.append_nil _).symm
        fun _ he => by cases he

theorem submitToolResult_records (cfg : Settings) (svc : Services) (worker : ScannerWorker)
    (emergency : Bool) (now : ℤ) (payload : ToolResultIn) (db : Db) :
    Records db (submitToolResult cfg svc worker emergency now payload db).1 none := by
  cases hout : (submitToolResult cfg svc worker emergency now payload db).2 with
  | error fault =>
    rw [submitToolResult_error hout]
    exact .refl db
  | ok out =>
    obtain ⟨scan, status, assets, hscan, -, -, -, hdb⟩ := submitToolResult_accepted hout
    rw [hdb]
    refine .of_set rfl ?_ rfl rfl (List.append_nil _).symm fun _ he => by cases he
    cases hrow : db.toolRuns payload.toolRunId with
    | none => exact .inr ⟨scan, hscan⟩
    | some existing => exact .inl ⟨existing, rfl, rfl⟩

/-- The row that a submission of evidence adds. -/
def evidenceRow (cfg : Settings) (svc : Services) (worker : ScannerWorker) (emergency : Bool)
    (evidenceId : Uuid) (payload : EvidenceIn) (db : Db) : Option Evidence :=
  match evidenceGate cfg svc db worker emergency payload with
  | .error _ => none
  | .ok (_, _, digest) =>
    if (findEvidence db payload.toolRunId digest).isSome ∨
        (payload.toolRunId.any fun id => (db.toolRuns id).isNone) then none
    else some (newEvidence svc evidenceId payload digest)

theorem fileEvidence_records (svc : Services) (scan : Scan) (payload : EvidenceIn)
    (content : Bytes) (uri : String) (evidenceId : Uuid) (db : Db) :
    Records db (fileEvidence svc scan payload content uri evidenceId db) none := by
  obtain ⟨links, toolRuns, calls, ingests, hfile, hsame | ⟨id, r, hr, hset⟩⟩ :=
    fileEvidence_frame svc scan payload content uri evidenceId db
  · rw [hfile]
    exact .of_same hsame rfl rfl (List.append_nil _).symm fun _ he => by cases he
  · rw [hfile]
    exact .of_set hset (.inl ⟨r, hr, rfl⟩) rfl rfl (List.append_nil _).symm fun _ he => by cases he

theorem submitEvidence_records (cfg : Settings) (svc : Services) (worker : ScannerWorker)
    (emergency : Bool) (evidenceId : Uuid) (payload : EvidenceIn) (db : Db) :
    Records db (submitEvidence cfg svc worker emergency evidenceId payload db).1
      (evidenceRow cfg svc worker emergency evidenceId payload db) := by
  unfold submitEvidence evidenceRow
  cases hgate : evidenceGate cfg svc db worker emergency payload with
  | error fault => exact .refl db
  | ok passed =>
    obtain ⟨scan, content, digest⟩ := passed
    simp only [findEvidence_objects]
    cases hrow : findEvidence db payload.toolRunId digest with
    | some row =>
      have hfile := fileEvidence_records svc scan payload content (evidenceUri svc payload digest)
        row.id { db with objects := db.objects.set (evidenceUri svc payload digest) content }
      refine Records.trans ?_ hfile
      exact .of_same rfl rfl rfl (List.append_nil _).symm fun _ he => by cases he
    | none =>
      simp only [Option.isSome_none, Bool.false_eq_true, false_or]
      split_ifs with hmissing
      · exact .of_same rfl rfl rfl (List.append_nil _).symm fun _ he => by cases he
      · have hfile := fileEvidence_records svc scan payload content
          (evidenceUri svc payload digest) evidenceId { db with
            objects := db.objects.set (evidenceUri svc payload digest) content
            evidence := db.evidence ++ [newEvidence svc evidenceId payload digest] }
        refine Records.trans ?_ hfile
        refine .of_same rfl rfl rfl rfl fun e he id hid => ?_
        cases he
        have hid' : payload.toolRunId = some id := hid
        rw [hid', Option.any_some, Option.isNone_iff_eq_none] at hmissing
        exact Option.ne_none_iff_exists'.mp hmissing

/-- The row that a request adds. -/
def submissionRow (cfg : Settings) (svc : Services) (worker : ScannerWorker) (emergency : Bool)
    (evidenceId : Uuid) (db : Db) : Submission → Option Evidence
  | .toolStarted _ | .toolResult _ => none
  | .evidence payload => evidenceRow cfg svc worker emergency evidenceId payload db

theorem submit_records (cfg : Settings) (svc : Services) (worker : ScannerWorker)
    (emergency : Bool) (now : ℤ) (evidenceId : Uuid) (submission : Submission) (db : Db) :
    Records db (submit cfg svc worker emergency now evidenceId submission db).1
      (submissionRow cfg svc worker emergency evidenceId db submission) := by
  cases submission with
  | toolStarted payload => exact submitToolStarted_records cfg worker emergency now payload db
  | toolResult payload => exact submitToolResult_records cfg svc worker emergency now payload db
  | evidence payload => exact submitEvidence_records cfg svc worker emergency evidenceId payload db

/-- A tool run of a scan that is there, with a row of `evidence` that names it or with none. -/
theorem records_of_run {db db' : Db} {toolRunId evidenceId : Uuid} {r : ToolRun} {scan : Scan}
    (row : Option Evidence) (hscan : db.scans r.scanId = some scan)
    (hruns : db'.toolRuns = db.toolRuns.set toolRunId r) (hscans : db'.scans = db.scans)
    (hprojects : db'.projects = db.projects) (hevidence : db'.evidence = db.evidence ++ row.toList)
    (hrow : ∀ e ∈ row, e.id = evidenceId ∧ e.toolRunId = some toolRunId) :
    ∃ row, Records db db' row ∧ ∀ e ∈ row, e.id = evidenceId ∧ e.toolRunId = some toolRunId := by
  refine ⟨row, .of_set hruns (.inr ⟨scan, hscan⟩) hscans hprojects hevidence ?_, hrow⟩
  intro e he id hid
  rw [(hrow e he).2] at hid
  exact (Option.some.inj hid).symm

/-- A tool run of a scan records evidence of its own. -/
theorem runSingleTool_records (svc : Services) (storeRaises : Bool)
    (inScope : CommonFinding → Bool) (target : ScanTarget) {scanId : Uuid} {scan : Scan}
    (runner : Runner) (toolRunId evidenceId : Uuid) (startedAt completedAt : ℤ) (launch : Launch)
    {db : Db} (hscan : db.scans scanId = some scan) :
    ∃ row, Records db (runSingleTool svc storeRaises inScope target scanId scan runner toolRunId
        evidenceId startedAt completedAt launch db).1 row ∧
      ∀ e ∈ row, e.id = evidenceId ∧ e.toolRunId = some toolRunId := by
  have hset : ∀ t : Table Uuid ToolRun, ∀ r r' : ToolRun,
      (t.set toolRunId r).set toolRunId r' = t.set toolRunId r' := fun t r r' => by
    unfold Table.set
    exact Function.update_idem ..
  have hnone : ∀ e ∈ (none : Option Evidence), e.id = evidenceId ∧ e.toolRunId = some toolRunId :=
    fun _ he => absurd he (Option.not_mem_none _)
  cases launch with
  | revoked => exact records_of_run none hscan (hset ..) rfl rfl (List.append_nil _).symm hnone
  | raised reason =>
    exact records_of_run none hscan (hset ..) rfl rfl (List.append_nil _).symm hnone
  | ran raw =>
    simp only [runSingleTool]
    generalize List.any _ svc.upsertRaises = upsertFails
    cases upsertFails with
    | true =>
      -- the row that was opened stays
      cases storeRaises with
      | true => exact records_of_run none hscan rfl rfl rfl (List.append_nil _).symm hnone
      | false => exact records_of_run none hscan rfl rfl rfl (List.append_nil _).symm hnone
    | false =>
      cases storeRaises with
      | true =>
        refine records_of_run (some _) hscan (hset ..) rfl rfl rfl ?_
        rintro _ ⟨⟩
        exact ⟨rfl, rfl⟩
      | false =>
        refine records_of_run (some _) hscan (hset ..) rfl rfl rfl ?_
        rintro _ ⟨⟩
        exact ⟨rfl, rfl⟩

theorem captureScreenshot_records (svc : Services) (storeRaises : Bool)
    (vulnerabilityId : Uuid) {toolRunId : Uuid} (evidenceId : Uuid) (image : Bytes) {db : Db}
    (hrun : ∃ r, db.toolRuns toolRunId = some r) :
    ∃ row, Records db (captureScreenshot svc storeRaises vulnerabilityId toolRunId evidenceId image
        db) row ∧ ∀ e ∈ row, e.id = evidenceId ∧ e.toolRunId = some toolRunId := by
  unfold captureScreenshot
  split_ifs
  · exact ⟨none, .refl db, fun _ he => by cases he⟩
  · refine ⟨some _, .of_same rfl rfl rfl rfl ?_, ?_⟩
    · rintro _ ⟨⟩ _ ⟨⟩
      exact hrun
    · rintro _ ⟨⟩
      exact ⟨rfl, rfl⟩

variable {db : WorkspaceDb} {db' : Db} {row : Option Evidence}

/-- The id of a row is not that of another one. -/
theorem WorkspaceDb.freshEvidence_iff {id : Uuid} :
    db.freshEvidence id = true ↔ ∀ e ∈ db.evidence, e.id ≠ id := by
  simp [WorkspaceDb.freshEvidence]

theorem WorkspaceDb.fresh_row {evidenceId : Uuid} (hfresh : db.freshEvidence evidenceId = true)
    (hrow : ∀ e ∈ row, e.id = evidenceId) : ∀ e ∈ row, ∀ e' ∈ db.evidence, e'.id ≠ e.id := by
  intro e he
  rw [hrow e he]
  exact WorkspaceDb.freshEvidence_iff.mp hfresh

theorem Records.mem (h : Records db.toDb db' row) {e : Evidence} :
    e ∈ db'.evidence ↔ e ∈ db.evidence ∨ e ∈ row := by
  rw [h.evidence, List.mem_append, Option.mem_toList, Option.mem_def]

theorem Records.intact (h : Records db.toDb db' row) (hintact : Intact db)
    (hfresh : ∀ e ∈ row, ∀ e' ∈ db.evidence, e'.id ≠ e.id) :
    Intact { db with toDb := db' } :=
  { hintact with
    projects := by
      rw [h.projects]
      exact hintact.projects
    scans := by
      rw [h.scans]
      exact hintact.scans
    toolRuns := fun id r' hr' => by
      rw [h.scans]
      rcases h.toolRuns id r' hr' with ⟨r, hr, hscan⟩ | hscan
      · rw [← hscan]
        exact hintact.toolRuns id r hr
      · exact hscan
    evidence := fun e he id hid => by
      rcases h.mem.mp he with he | he
      · obtain ⟨r, hr⟩ := hintact.evidence e he id hid
        exact h.kept id r hr
      · exact h.row e he id hid
    evidenceIds := by
      have hids : ((db.evidence ++ row.toList).map (·.id)).Nodup := by
        rw [List.map_append, List.nodup_append]
        refine ⟨hintact.evidenceIds, ?_, ?_⟩
        · cases row <;> simp
        · rintro _ hid _ hid' rfl
          obtain ⟨e', he', hid⟩ := List.mem_map.mp hid
          obtain ⟨e, he, hid'⟩ := List.mem_map.mp hid'
          exact hfresh e (Option.mem_toList.mp he) e' he' (hid.trans hid'.symm)
      rw [← h.evidence] at hids
      exact hids
    items := by
      rw [h.projects]
      exact hintact.items
    proofs := fun l hl => by
      obtain ⟨e, he, hproof⟩ := hintact.proofs l hl
      exact ⟨e, h.mem.mpr (.inl he), hproof⟩ }

/-- **The rows that the scanner adds** are linked to nothing. -/
theorem Records.linked_iff (h : Records db.toDb db' row) (hintact : Intact db)
    (hlinked : Linked db) (hfresh : ∀ e ∈ row, ∀ e' ∈ db.evidence, e'.id ≠ e.id) :
    Linked { db with toDb := db' } ↔ ∀ e ∈ row, e.toolRunId ≠ none := by
  constructor
  · intro hafter e he hnone
    obtain ⟨l, hl, hid⟩ := hafter e (h.mem.mpr (.inr he)) hnone
    obtain ⟨e', he', hid', -⟩ := hintact.proofs l hl
    exact hfresh e he e' he' (hid'.trans hid)
  · intro hrow e he hnone
    rcases h.mem.mp he with he | he
    · exact hlinked e he hnone
    · exact absurd hnone (hrow e he)

/-! ## What one operation does -/

theorem getProject_isOk {db : Db} {workspaceId projectId : Uuid} :
    (getProject db workspaceId projectId).isOk = true ↔
      ∃ p, db.projects projectId = some p ∧ p.workspaceId = workspaceId := by
  unfold getProject
  cases hp : db.projects projectId with
  | none => simp [Option.filter, Except.isOk, Except.toBool]
  | some p =>
    by_cases hworkspace : p.workspaceId = workspaceId <;>
      simp [Option.filter, Except.isOk, Except.toBool, hworkspace]

/-- A scan is created in the workspace of its project. -/
theorem requireVerifiedTarget_project {db : Db} {now : ℤ} {workspaceId projectId targetId : Uuid}
    (h : (requireVerifiedTarget db now workspaceId projectId targetId).isOk = true) :
    ∃ p, db.projects projectId = some p ∧ p.workspaceId = workspaceId := by
  rw [← getProject_isOk]
  unfold requireVerifiedTarget getCurrentScope getTarget at h
  cases hproject : getProject db workspaceId projectId with
  | ok p => rfl
  | error fault =>
    simp only [hproject, bind, Except.bind] at h
    split at h <;> simp_all [Except.isOk, Except.toBool]

theorem scanStep_workspaceId {a : ScanStep} {s s' : Scan} (h : scanStep a s = some s') :
    s'.workspaceId = s.workspaceId := by
  cases a with
  | claim now tok => obtain ⟨-, rfl⟩ := claimScan_eq_some.mp h; rfl
  | finalize now st tok => obtain ⟨-, rfl⟩ := finalizeStatus_eq_some.mp h; rfl
  | reap now timeout stale => obtain ⟨-, rfl⟩ := reapOrphanedScans_eq_some.mp h; rfl
  | cancel now => obtain ⟨-, rfl⟩ := cancelScan_eq_some.mp h; rfl
  | requeue now => obtain ⟨-, rfl⟩ := requeueScan_eq_some.mp h; rfl
  | heartbeat now tok => obtain ⟨-, rfl⟩ := stampHeartbeat_eq_some.mp h; rfl

/-- Scans change in other columns, or are added in a workspace that is there. -/
theorem Intact.scans_changed (h : Intact db) {scans : Table Uuid Scan}
    (hnew : ∀ id s, scans id = some s → s.workspaceId ∈ db.workspaces)
    (hkept : ∀ id s, db.scans id = some s → ∃ s', scans id = some s') :
    Intact { db with scans } :=
  { h with
    scans := hnew
    toolRuns := fun id r hr => by
      obtain ⟨s, hs⟩ := h.toolRuns id r hr
      exact hkept _ s hs }

theorem deactivateAndRevoke_intact (h : Intact db) (now : ℤ) (workspaceId : Uuid) :
    Intact (deactivateAndRevoke now workspaceId db) := by
  refine h.scans_changed (fun id s hs => ?_) fun id s hs => ?_
  · obtain ⟨old, hold, rfl⟩ := Option.map_eq_some_iff.mp hs
    have hscan := h.scans id old hold
    dsimp only
    split_ifs
    · exact hscan
    · exact hscan
  · exact ⟨_, by unfold Table.updateAll; rw [hs, Option.map_some]⟩

/-- A row without a tool run, with its link. -/
theorem intact_of_proof (h : Intact db) {itemId evidenceId workspaceId : Uuid}
    {i : RemediationItem} (hi : db.items itemId = some i) (hworkspace : i.workspaceId = workspaceId)
    (hfresh : ∀ e ∈ db.evidence, e.id ≠ evidenceId) (objects : Table String Bytes)
    (uri digest : String) :
    Intact { db with
      objects
      evidence := db.evidence ++ [⟨evidenceId, none, "remediation_proof", uri, digest⟩]
      remediationEvidence := db.remediationEvidence ++ [⟨itemId, evidenceId, workspaceId⟩] } :=
  { h with
    evidence := fun e he id hid => by
      rcases List.mem_append.mp he with he | he
      · exact h.evidence e he id hid
      · rw [List.mem_singleton.mp he] at hid
        cases hid
    evidenceIds := by
      rw [List.map_append, List.nodup_append]
      refine ⟨h.evidenceIds, List.nodup_singleton _, ?_⟩
      rintro _ hid _ hid' rfl
      obtain ⟨e, he, hid⟩ := List.mem_map.mp hid
      exact hfresh e he (hid.trans (List.mem_singleton.mp hid'))
    links := fun l hl => by
      rcases List.mem_append.mp hl with hl | hl
      · exact h.links l hl
      · rw [List.mem_singleton.mp hl]
        exact ⟨i, hi, hworkspace⟩
    proofs := fun l hl => by
      rcases List.mem_append.mp hl with hl | hl
      · obtain ⟨e, he, hproof⟩ := h.proofs l hl
        exact ⟨e, List.mem_append_left _ he, hproof⟩
      · rw [List.mem_singleton.mp hl]
        exact ⟨_, List.mem_append_right _ (List.mem_singleton_self _), rfl, rfl⟩
    proofIds := by
      rw [List.map_append, List.nodup_append]
      refine ⟨h.proofIds, List.nodup_singleton _, ?_⟩
      rintro _ hid _ hid' rfl
      obtain ⟨l, hl, hid⟩ := List.mem_map.mp hid
      obtain ⟨e, he, hproof, -⟩ := h.proofs l hl
      exact hfresh e he (hproof.trans (hid.trans (List.mem_singleton.mp hid'))) }

/-- **The proof of an item** has one row and one link. -/
theorem addRemediationEvidence_intact (h : Intact db)
    {workspaceId projectId itemId evidenceId : Uuid} (svc : Services) (storeRaises : Bool)
    (content : Bytes) (ext : String) (hfresh : ∀ e ∈ db.evidence, e.id ≠ evidenceId) :
    Intact (addRemediationEvidence svc storeRaises workspaceId projectId itemId evidenceId content
      ext db).1 := by
  unfold addRemediationEvidence
  cases hitem : (db.items itemId).filter fun i =>
      i.projectId = projectId ∧ i.workspaceId = workspaceId with
  | none => exact h
  | some i =>
    simp only
    split_ifs
    · exact h
    · exact h
    · exact h
    · obtain ⟨hi, hitem⟩ := Option.filter_eq_some_iff.mp hitem
      exact intact_of_proof h hi (of_decide_eq_true hitem).2 hfresh _ _ _

/-- A proof that is uploaded is linked. -/
theorem addRemediationEvidence_linked (hlinked : Linked db)
    {workspaceId projectId itemId evidenceId : Uuid} (svc : Services) (storeRaises : Bool)
    (content : Bytes) (ext : String) :
    Linked (addRemediationEvidence svc storeRaises workspaceId projectId itemId evidenceId content
      ext db).1 := by
  unfold addRemediationEvidence
  cases (db.items itemId).filter fun i =>
      i.projectId = projectId ∧ i.workspaceId = workspaceId with
  | none => exact hlinked
  | some i =>
    simp only
    split_ifs
    · exact hlinked
    · exact hlinked
    · exact hlinked
    · intro e he hnone
      rcases List.mem_append.mp he with he | he
      · obtain ⟨l, hl, hid⟩ := hlinked e he hnone
        exact ⟨l, List.mem_append_left _ hl, hid⟩
      · rw [List.mem_singleton.mp he]
        exact ⟨_, List.mem_append_right _ (List.mem_singleton_self _), rfl⟩

theorem submissionRow_id {cfg : Settings} {svc : Services} {worker : ScannerWorker}
    {emergency : Bool} {evidenceId : Uuid} {submission : Submission} {db : Db} {e : Evidence}
    (he : e ∈ submissionRow cfg svc worker emergency evidenceId db submission) :
    e.id = evidenceId := by
  cases submission with
  | toolStarted | toolResult => cases he
  | evidence payload =>
    simp only [submissionRow, evidenceRow] at he
    split at he
    · cases he
    · split_ifs at he
      · cases he
      · cases he
        rfl

/-- Evidence without a tool run, which is stored. -/
def Unowned (cfg : Settings) (svc : Services) (worker : ScannerWorker) (emergency : Bool)
    (db : Db) : Submission → Prop
  | .toolStarted _ | .toolResult _ => False
  | .evidence payload => payload.toolRunId = none ∧
      (evidenceGate cfg svc db worker emergency payload).isOk = true

theorem submissionRow_toolRunId (cfg : Settings) (svc : Services) (worker : ScannerWorker)
    (emergency : Bool) (evidenceId : Uuid) (submission : Submission) (db : Db) :
    (∀ e ∈ submissionRow cfg svc worker emergency evidenceId db submission,
        e.toolRunId ≠ none) ↔
      ¬ Unowned cfg svc worker emergency db submission := by
  cases submission with
  | toolStarted | toolResult => exact iff_of_true (fun _ he => by cases he) not_false
  | evidence payload =>
    simp only [submissionRow, evidenceRow, Unowned]
    cases hgate : evidenceGate cfg svc db worker emergency payload with
    | error fault => exact iff_of_true (fun _ he => by cases he) fun h => by cases h.2
    | ok passed =>
      obtain ⟨scan, content, digest⟩ := passed
      cases hid : payload.toolRunId with
      | none =>
        refine iff_of_false (fun h => ?_) (not_not.mpr ⟨rfl, rfl⟩)
        refine h (newEvidence svc evidenceId payload digest) ?_ hid
        simp [findEvidence]
      | some id =>
        refine iff_of_true (fun e he => ?_) fun h => by cases h.1
        simp only at he
        split_ifs at he
        · cases he
        · cases he
          exact Option.ne_none_iff_exists'.mpr ⟨id, hid⟩

/-- The project has an item with proof. -/
def HasProof (db : WorkspaceDb) (projectId : Uuid) : Prop :=
  ∃ l ∈ db.remediationEvidence, ∃ i, db.items l.remediationItemId = some i ∧
    i.projectId = projectId

theorem projectGone_iff (h : Intact db) (projectId : Uuid) :
    (∀ l ∈ db.remediationEvidence, ProjectGone (fun id _ => id = projectId) db l = false) ↔
      ¬ HasProof db projectId := by
  unfold HasProof
  simp only [not_exists, not_and]
  refine forall₂_congr fun l hl => ?_
  obtain ⟨i, hi, -⟩ := h.links l hl
  obtain ⟨p, hp, -⟩ := h.items _ i hi
  simp [ProjectGone, hi, hp]

/-- The operation leaves no row of `evidence` without an owner. -/
def LeavesNoOrphan (svc : Services) (db : WorkspaceDb) : WorkspaceAction → Prop
  | .submit cfg worker emergency _ evidenceId submission =>
    db.freshEvidence evidenceId = true → ¬ Unowned cfg svc worker emergency db.toDb submission
  | .deleteProject workspaceId projectId =>
    (getProject db.toDb workspaceId projectId).isOk = true → ¬ HasProof db projectId
  | _ => True

theorem deleteProject_intact (h : Intact db) (workspaceId projectId : Uuid) :
    Intact (deleteProject workspaceId projectId db).1 := by
  unfold deleteProject
  cases getProject db.toDb workspaceId projectId with
  | error fault => exact h
  | ok p => exact deleteProjects_intact h _

theorem performWorkspaceDeletion_intact (h : Intact db) (now : ℤ) (raises : Bool)
    (workspaceId : Uuid) : Intact (performWorkspaceDeletion now raises workspaceId db).1 := by
  have hrevoked := deactivateAndRevoke_intact h now workspaceId
  unfold performWorkspaceDeletion
  split_ifs
  · exact hrevoked
  · exact deleteWorkspace_intact (deleteEvidence_intact hrevoked _) workspaceId
  · exact h

/-- **The deletion of a workspace** leaves no proof behind. -/
theorem performWorkspaceDeletion_linked (h : Intact db) (hlinked : Linked db) (now : ℤ)
    (raises : Bool) (workspaceId : Uuid) :
    Linked (performWorkspaceDeletion now raises workspaceId db).1 := by
  have hrevoked := deactivateAndRevoke_intact h now workspaceId
  unfold performWorkspaceDeletion
  split_ifs
  · exact hlinked
  · refine deleteWorkspace_linked (deleteEvidence_intact hrevoked _) ?_ fun l hl => ?_
    · exact deleteEvidence_linked hrevoked hlinked _
    · exact deleteUnreferencedEvidence_links hrevoked hl
  · exact hlinked

theorem createWorkspace_intact (h : Intact db) (id : Uuid) :
    Intact { db with workspaces := db.workspaces ++ [id] } :=
  { h with
    projects := fun j p hp => List.mem_append_left _ (h.projects j p hp)
    scans := fun j s hs => List.mem_append_left _ (h.scans j s hs) }

theorem createProject_intact (h : Intact db) {id workspaceId : Uuid} (hnew : db.projects id = none)
    (hworkspace : workspaceId ∈ db.workspaces) :
    Intact { db with projects := db.projects.set id ⟨workspaceId⟩ } :=
  { h with
    projects := fun j p hp => by
      rcases Table.eq_or_of_set hp with rfl | hp
      · exact hworkspace
      · exact h.projects j p hp
    items := fun j i hi => by
      obtain ⟨p, hp, hproject⟩ := h.items j i hi
      exact ⟨p, Table.set_of_fresh hnew hp, hproject⟩ }

theorem createItem_intact (h : Intact db) {id : Uuid} {item : RemediationItem}
    (hnew : db.items id = none)
    (hproject : ∃ p, db.projects item.projectId = some p ∧ p.workspaceId = item.workspaceId) :
    Intact { db with items := db.items.set id item } :=
  { h with
    items := fun j i hi => by
      rcases Table.eq_or_of_set hi with rfl | hi
      · exact hproject
      · exact h.items j i hi
    links := fun l hl => by
      obtain ⟨i, hi, hworkspace⟩ := h.links l hl
      exact ⟨i, Table.set_of_fresh hnew hi, hworkspace⟩ }

theorem createScan_intact (h : Intact db) {id workspaceId projectId targetId : Uuid}
    {config : Json.Object} {now : ℤ}
    (hproject : ∃ p, db.projects projectId = some p ∧ p.workspaceId = workspaceId) :
    Intact { db with
      scans := db.scans.set id (Scan.created workspaceId projectId targetId config now) } := by
  refine h.scans_changed (fun j s hs => ?_) fun j s hs => Table.exists_set hs
  rcases Table.eq_or_of_set hs with rfl | hs
  · obtain ⟨p, hp, hworkspace⟩ := hproject
    exact hworkspace ▸ h.projects _ p hp
  · exact h.scans j s hs

theorem stepScan_intact (h : Intact db) {id : Uuid} {a : ScanStep} {scans : Table Uuid Scan}
    (hstep : db.scans.update id (scanStep a) = some scans) : Intact { db with scans } := by
  obtain ⟨old, new, hold, hnew, rfl⟩ := Table.update_eq_some.mp hstep
  refine h.scans_changed (fun j s hs => ?_) fun j s hs => Table.exists_set hs
  rcases Table.eq_or_of_set hs with rfl | hs
  · rw [scanStep_workspaceId hnew]
    exact h.scans id old hold
  · exact h.scans j s hs

/-- **Every operation keeps the references.** -/
theorem workspaceStep_intact (svc : Services) {a : WorkspaceAction} {db' : WorkspaceDb}
    (h : Intact db) (hstep : workspaceStep svc a db = some db') : Intact db' := by
  cases a with
  | createWorkspace id =>
    simp only [workspaceStep] at hstep
    split_ifs at hstep
    cases hstep
    exact createWorkspace_intact h id
  | createProject id workspaceId =>
    obtain ⟨⟨hnew, hworkspace⟩, rfl⟩ := guarded_eq_some.mp hstep
    exact createProject_intact h (Option.isNone_iff_eq_none.mp hnew)
      (WorkspaceDb.hasWorkspace_iff.mp hworkspace)
  | createScan now id workspaceId projectId targetId config =>
    obtain ⟨⟨-, hscope⟩, rfl⟩ := guarded_eq_some.mp hstep
    exact createScan_intact h (requireVerifiedTarget_project hscope)
  | stepScan id a =>
    obtain ⟨scans, hscans, rfl⟩ := Option.map_eq_some_iff.mp hstep
    exact stepScan_intact h hscans
  | submit cfg worker emergency now evidenceId submission =>
    obtain ⟨hfresh, rfl⟩ := guarded_eq_some.mp hstep
    exact (submit_records cfg svc worker emergency now evidenceId submission db.toDb).intact h
      (WorkspaceDb.fresh_row hfresh fun _ he => submissionRow_id he)
  | runTool storeRaises inScope target scanId runner toolRunId evidenceId startedAt completedAt
      launch =>
    obtain ⟨scan, hscan, hstep⟩ := Option.bind_eq_some_iff.mp hstep
    obtain ⟨⟨-, hfresh⟩, rfl⟩ := guarded_eq_some.mp hstep
    obtain ⟨row, hrecords, hrow⟩ := runSingleTool_records svc storeRaises inScope target runner
      toolRunId evidenceId startedAt completedAt launch hscan
    exact hrecords.intact h (WorkspaceDb.fresh_row hfresh fun e he => (hrow e he).1)
  | screenshot storeRaises vulnerabilityId toolRunId evidenceId image =>
    obtain ⟨⟨hrun, hfresh⟩, rfl⟩ := guarded_eq_some.mp hstep
    obtain ⟨row, hrecords, hrow⟩ := captureScreenshot_records svc storeRaises vulnerabilityId
      evidenceId image (Option.isSome_iff_exists.mp hrun)
    exact hrecords.intact h (WorkspaceDb.fresh_row hfresh fun e he => (hrow e he).1)
  | createItem id item =>
    obtain ⟨⟨hnew, hproject⟩, rfl⟩ := guarded_eq_some.mp hstep
    exact createItem_intact h (Option.isNone_iff_eq_none.mp hnew) (getProject_isOk.mp hproject)
  | addRemediationEvidence storeRaises workspaceId projectId itemId evidenceId content ext =>
    obtain ⟨hfresh, rfl⟩ := guarded_eq_some.mp hstep
    exact addRemediationEvidence_intact h svc storeRaises content ext
      (WorkspaceDb.freshEvidence_iff.mp hfresh)
  | deleteProject workspaceId projectId =>
    cases hstep
    exact deleteProject_intact h workspaceId projectId
  | performWorkspaceDeletion now raises workspaceId =>
    cases hstep
    exact performWorkspaceDeletion_intact h now raises workspaceId
  | purgeScans workspaceId cutoff scanIds =>
    obtain ⟨-, rfl⟩ := guarded_eq_some.mp hstep
    exact deleteScans_intact h _
  | other tables =>
    cases hstep
    exact { h with }

theorem deleteProject_linked_iff (h : Intact db) (hlinked : Linked db)
    (workspaceId projectId : Uuid) :
    Linked (deleteProject workspaceId projectId db).1 ↔
      ((getProject db.toDb workspaceId projectId).isOk = true → ¬ HasProof db projectId) := by
  unfold deleteProject
  cases getProject db.toDb workspaceId projectId with
  | error fault => exact iff_of_true hlinked fun hfound => by cases hfound
  | ok p =>
    rw [← projectGone_iff h]
    exact (deleteProjects_linked_iff h hlinked _).trans (imp_iff_right rfl).symm

/-- **Which operations leave no proof without a link.** -/
theorem workspaceStep_linked_iff (svc : Services) {a : WorkspaceAction} {db' : WorkspaceDb}
    (h : Intact db) (hlinked : Linked db) (hstep : workspaceStep svc a db = some db') :
    Linked db' ↔ LeavesNoOrphan svc db a := by
  cases a with
  | createWorkspace id =>
    simp only [workspaceStep] at hstep
    split_ifs at hstep
    cases hstep
    exact iff_of_true hlinked trivial
  | createProject id workspaceId =>
    obtain ⟨-, rfl⟩ := guarded_eq_some.mp hstep
    exact iff_of_true hlinked trivial
  | createScan now id workspaceId projectId targetId config =>
    obtain ⟨-, rfl⟩ := guarded_eq_some.mp hstep
    exact iff_of_true hlinked trivial
  | stepScan id a =>
    obtain ⟨scans, -, rfl⟩ := Option.map_eq_some_iff.mp hstep
    exact iff_of_true hlinked trivial
  | submit cfg worker emergency now evidenceId submission =>
    obtain ⟨hfresh, rfl⟩ := guarded_eq_some.mp hstep
    rw [(submit_records cfg svc worker emergency now evidenceId submission db.toDb).linked_iff h
      hlinked (WorkspaceDb.fresh_row hfresh fun _ he => submissionRow_id he),
      submissionRow_toolRunId]
    exact (imp_iff_right hfresh).symm
  | runTool storeRaises inScope target scanId runner toolRunId evidenceId startedAt completedAt
      launch =>
    obtain ⟨scan, hscan, hstep⟩ := Option.bind_eq_some_iff.mp hstep
    obtain ⟨⟨-, hfresh⟩, rfl⟩ := guarded_eq_some.mp hstep
    obtain ⟨row, hrecords, hrow⟩ := runSingleTool_records svc storeRaises inScope target runner
      toolRunId evidenceId startedAt completedAt launch hscan
    have hfresh := WorkspaceDb.fresh_row hfresh fun e he => (hrow e he).1
    refine iff_of_true ((hrecords.linked_iff h hlinked hfresh).mpr fun e he => ?_) trivial
    rw [(hrow e he).2]
    exact Option.some_ne_none toolRunId
  | screenshot storeRaises vulnerabilityId toolRunId evidenceId image =>
    obtain ⟨⟨hrun, hfresh⟩, rfl⟩ := guarded_eq_some.mp hstep
    obtain ⟨row, hrecords, hrow⟩ := captureScreenshot_records svc storeRaises vulnerabilityId
      evidenceId image (Option.isSome_iff_exists.mp hrun)
    have hfresh := WorkspaceDb.fresh_row hfresh fun e he => (hrow e he).1
    refine iff_of_true ((hrecords.linked_iff h hlinked hfresh).mpr fun e he => ?_) trivial
    rw [(hrow e he).2]
    exact Option.some_ne_none toolRunId
  | createItem id item =>
    obtain ⟨-, rfl⟩ := guarded_eq_some.mp hstep
    exact iff_of_true hlinked trivial
  | addRemediationEvidence storeRaises workspaceId projectId itemId evidenceId content ext =>
    obtain ⟨-, rfl⟩ := guarded_eq_some.mp hstep
    exact iff_of_true (addRemediationEvidence_linked hlinked svc storeRaises content ext) trivial
  | deleteProject workspaceId projectId =>
    cases hstep
    exact deleteProject_linked_iff h hlinked workspaceId projectId
  | performWorkspaceDeletion now raises workspaceId =>
    cases hstep
    exact iff_of_true (performWorkspaceDeletion_linked h hlinked now raises workspaceId) trivial
  | purgeScans workspaceId cutoff scanIds =>
    obtain ⟨-, rfl⟩ := guarded_eq_some.mp hstep
    exact iff_of_true ((deleteScans_same h _).linked_iff.mpr hlinked) trivial
  | other tables =>
    cases hstep
    exact iff_of_true hlinked trivial

theorem leavesNoOrphan_of_none {svc : Services} {a : WorkspaceAction}
    (hstep : workspaceStep svc a db = none) : LeavesNoOrphan svc db a := by
  cases a with
  | submit cfg worker emergency now evidenceId submission =>
    intro hfresh
    simp only [workspaceStep, if_pos hfresh] at hstep
    cases hstep
  | deleteProject workspaceId projectId => cases hstep
  | _ => trivial

theorem next_owned_iff (svc : Services) {db : WorkspaceDb} (a : WorkspaceAction) (h : Intact db)
    (howned : Owned db) : Owned (next (workspaceStep svc) db a) ↔ LeavesNoOrphan svc db a := by
  have hlinked := (owned_iff_linked h).mp howned
  rcases next_cases (workspaceStep svc) db a with hstep | ⟨hstep, hsame⟩
  · rw [owned_iff_linked (workspaceStep_intact svc h hstep)]
    exact workspaceStep_linked_iff svc h hlinked hstep
  · rw [hsame]
    exact iff_of_true howned (leavesNoOrphan_of_none hstep)

theorem WorkspaceDb.empty_intact : Intact .empty where
  projects _ _ hp := by cases hp
  scans _ _ hs := by cases hs
  toolRuns _ _ hr := by cases hr
  evidence _ he := by cases he
  evidenceIds := List.nodup_nil
  items _ _ hi := by cases hi
  links _ hl := by cases hl
  proofs _ hl := by cases hl
  proofIds := List.nodup_nil

/-- **Every row of `evidence` has exactly one owner in every state of a run** exactly when no
evidence is stored without a tool run and no project is deleted that has proof. -/
theorem owned_iff (svc : Services) (σ : List WorkspaceAction) :
    (∀ σ₁ σ₂, σ = σ₁ ++ σ₂ → Owned (run (workspaceStep svc) .empty σ₁)) ↔
      Along (workspaceStep svc) (LeavesNoOrphan svc) .empty σ :=
  holds_iff_along (fun _ _ _ h => workspaceStep_intact svc h) (fun _ a => next_owned_iff svc a)
    WorkspaceDb.empty_intact (fun _ he => by cases he) σ

/-! ## Two orphans -/

/-- A row that has neither a tool run nor a link is seen by nobody. -/
theorem not_owned_of_unlinked (hlinks : db.remediationEvidence.isEmpty = true)
    (hrow : db.evidence.any (·.toolRunId.isNone) = true) : ¬ Owned db := by
  intro howned
  obtain ⟨e, he, hnone⟩ := List.any_eq_true.mp hrow
  obtain ⟨w, ⟨-, hseen⟩, -⟩ := howned e he
  rw [Option.isNone_iff_eq_none] at hnone
  rw [List.isEmpty_iff] at hlinks
  simp [evidenceCriterion, viaToolRun, viaRemediation, hnone, hlinks] at hseen

/-- Workspace 1 with project 2, and scan 5 of its target 3 running under token 7. -/
def scanRunning : List WorkspaceAction :=
  [.createWorkspace 1, .createProject 2 1,
    .other { Db.empty with
      targets := .ofList [(3, ⟨2, "domain", "example.org", "medium"⟩)]
      scopes := [⟨4, 3, "dns", "", true, none, none, false, none, none, 0⟩] },
    .createScan 10 5 1 2 3 [("requested_modules", .arr [.str "nmap"])],
    .stepScan 5 (.claim 20 7)]

/-- Evidence for scan 5, without a tool run. -/
def withoutToolRun : WorkspaceAction :=
  .submit ⟨""⟩ ⟨"w", "public", none, none, .active, none⟩ false 30 8
    (.evidence ⟨5, none, "text/plain", some [1], none, 7, none, none⟩)

/-- Project 2 with an item and its proof. -/
def itemProved : List WorkspaceAction :=
  [.createWorkspace 1, .createProject 2 1,
    .createItem 6 ⟨1, 2, "title:x", .proposed, .medium, none, none, none, none, none, none, 1⟩,
    .addRemediationEvidence false 1 2 6 8 [1] ".txt"]

/-- **Rows that nobody sees**: evidence that is submitted without a tool run, and the proof of a
project that is deleted. -/
theorem orphaned :
    let svc := Services.ascii [([1], "a1")] fun _ _ => none
    ¬ Owned (run (workspaceStep svc) .empty (scanRunning ++ [withoutToolRun])) ∧
      ¬ Owned (run (workspaceStep svc) .empty (itemProved ++ [.deleteProject 1 2])) := by
  intro svc
  refine ⟨not_owned_of_unlinked ?_ ?_, not_owned_of_unlinked ?_ ?_⟩
  · decide +kernel
  · decide +kernel
  · decide +kernel
  · decide +kernel

end ScanPlatform.Tenancy
