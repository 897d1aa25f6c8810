import Mathlib.Data.List.Infix
import ScanPlatform.Worker.FailedRuns

/-!
# The announcement of a tool run

A worker treats the loss of an announcement as the loss of a progress display. But the evidence of a
tool run is submitted before its result, and cannot be stored as long as the tool run is not there.

* `persisted`: the status, the raw output and the vulnerabilities that are stored for a tool run;
* `Silent`, `Filed`: no raw output of a tool run is stored, and some is;
* `persisted_of_silent`: what is stored for a silent run;
* `lost_silent`, `delivered_filed`: a run with output, without its announcement and with it;
* **`announcement_cosmetic_iff`**, `announcement_lost`: when the announcement makes no difference,
  and a run in which it does.
-/

set_option autoImplicit false

namespace ScanPlatform

/-- What is stored for a tool run. -/
structure Persisted where
  status : Option ToolStatus
  rawOutput : List Evidence
  vulnerabilities : Set VulnerabilityFinding

def Evidence.isRawOutput (toolRunId : Uuid) (e : Evidence) : Prop :=
  e.toolRunId = some toolRunId ∧ e.evidenceType = "log_excerpt"

instance (toolRunId : Uuid) (e : Evidence) : Decidable (e.isRawOutput toolRunId) :=
  inferInstanceAs (Decidable (_ ∧ _))

def persisted (toolRunId : Uuid) (db : Db) : Persisted where
  status := (db.toolRuns toolRunId).map (·.status)
  rawOutput := db.evidence.filter fun e => e.isRawOutput toolRunId
  vulnerabilities := {v | ∃ call ∈ db.ingestCalls, call.toolRunId = toolRunId ∧ v ∈ call.findings}

/-- The submission reaches the manager within the attempts that are made. -/
def Reaches (attempts : List Attempt) : Prop := ∃ a ∈ attempts.take postMaxAttempts, a.Handled

variable {cfg : Settings} {svc : Services} {worker : ScannerWorker} {emergency : Bool} {db₀ db : Db}
  {tr : Reported}

/-! ## Tool runs without raw output -/

/-- The tool run is in a phase, and neither raw output nor a call of the pipeline was added since
`db₀`. -/
structure Silent (tr : Reported) (db₀ : Db) (phase : Option ToolStatus) (db : Db) : Prop where
  phase : InPhase tr db₀ phase db
  ingestCalls : db.ingestCalls = db₀.ingestCalls
  rawOutput : ∀ e ∈ db.evidence, ¬ e.isRawOutput tr.toolRunId

/-- Announcements, results and images of a tool run are no raw output. -/
def Submission.Quiet : Submission → Prop
  | .toolStarted _ | .toolResult _ => True
  | .evidence payload => payload.toolName = none ∧ payload.contentType = "image/png"

theorem newEvidence_image {payload : EvidenceIn} (evidenceId : Uuid) (digest : String)
    (himage : payload.contentType = "image/png") (toolRunId : Uuid) :
    ¬ (newEvidence svc evidenceId payload digest).isRawOutput toolRunId := by
  have hscreenshot : (newEvidence svc evidenceId payload digest).evidenceType = "screenshot" := by
    have hbase : baseType "image/png" = "image/png" := by decide
    simp only [newEvidence, himage, hbase, if_true]
  rintro ⟨-, hlog⟩
  rw [hscreenshot] at hlog
  exact absurd hlog (by decide)

/-- **What is quiet keeps a tool run silent.** -/
theorem silent_handle {phase : Option ToolStatus} {a : Arrival}
    (hstatus : tr.status ∈ allowedToolStatuses) (hadmitted : Admitted cfg worker emergency tr db₀)
    (ha : a.submission.Of tr) (hquiet : a.submission.Quiet) (h : Silent tr db₀ phase db) :
    Silent tr db₀ (phaseAfter tr phase a.submission) (handle cfg svc worker emergency db a) := by
  have hphase : InPhase tr db₀ (phaseAfter tr phase a.submission)
      (handle cfg svc worker emergency db a) := handle_inPhase hstatus ha hadmitted h.phase
  obtain ⟨submission, now, evidenceId⟩ := a
  cases submission with
  | toolStarted p =>
    refine ⟨hphase, (submit_ingestCalls rfl db).trans h.ingestCalls, ?_⟩
    rw [handle, submit_evidence rfl db]
    exact h.rawOutput
  | toolResult p =>
    refine ⟨hphase, (submit_ingestCalls rfl db).trans h.ingestCalls, ?_⟩
    rw [handle, submit_evidence rfl db]
    exact h.rawOutput
  | evidence p =>
    refine ⟨hphase, ?_, ?_⟩
    · obtain ⟨new, hnew, hcalls⟩ :=
        submitEvidence_ingests cfg svc worker emergency evidenceId ha.2 h.phase
      rcases hcalls with ⟨r, name, content, target, rowId, -, -, hparsed, -⟩ | ⟨rfl, -⟩
      · exact absurd (hquiet.1.symm.trans hparsed.1) (Option.some_ne_none name).symm
      · rw [List.append_nil] at hnew
        exact hnew.trans h.ingestCalls
    · simp only [handle, submit]
      rcases submitEvidence_cases cfg svc worker emergency evidenceId ha.2
          fun hnone => (h.phase.row.unfiled hnone).2 with
        ⟨_, -, hdb⟩ | ⟨_, -, ⟨-, objects, hdb⟩ | ⟨r, hr, hfiled⟩⟩
      · rw [hdb]
        exact h.rawOutput
      · rw [hdb]
        exact h.rawOutput
      · rw [hfiled.evidence, List.forall_mem_append]
        refine ⟨h.rawOutput, ?_⟩
        split_ifs
        · exact List.forall_mem_nil _
        · exact List.forall_mem_singleton.mpr (newEvidence_image _ _ hquiet.2 _)

/-- **A tool run that is not there stays silent**, whatever evidence is submitted for it. -/
theorem Silent.evidence_none {payload : EvidenceIn} {evidenceId : Uuid}
    (hid : payload.toolRunId = some tr.toolRunId) (h : Silent tr db₀ none db) :
    Silent tr db₀ none (submitEvidence cfg svc worker emergency evidenceId payload db).1 := by
  have hphase : InPhase tr db₀ none
      (submitEvidence cfg svc worker emergency evidenceId payload db).1 :=
    submitEvidence_inPhase hid h.phase
  rcases submitEvidence_cases cfg svc worker emergency evidenceId hid
      fun _ => h.phase.row.2 with
    ⟨_, -, hdb⟩ | ⟨_, -, ⟨-, objects, hdb⟩ | ⟨r, hr, -⟩⟩
  · rw [hdb]
    exact h
  · rw [hdb] at hphase ⊢
    exact ⟨hphase, h.ingestCalls, h.rawOutput⟩
  · rw [h.phase.row.1] at hr
    cases hr

/-- **What is stored for a silent tool run** is its status and what was there before. -/
theorem persisted_of_silent {status : ToolStatus} (h : Silent tr db₀ (some status) db) :
    persisted tr.toolRunId db =
      ⟨some status, [], (persisted tr.toolRunId db₀).vulnerabilities⟩ := by
  have houtput : db.evidence.filter (fun e => e.isRawOutput tr.toolRunId) = [] :=
    List.filter_eq_nil_iff.mpr fun e he hraw => h.rawOutput e he (of_decide_eq_true hraw)
  unfold persisted
  rw [h.phase.row.status, houtput, h.ingestCalls]

/-! ## The submissions of a silent tool run -/

variable {capture : List VulnerabilityFinding → Option (List (String × Bytes))} {job : LeasedJob}
  {runner : Runner} {toolRunId : Uuid} {startedAt : ℤ} {status : ToolStatus}

variable (svc startedAt) in
/-- An announcement opens the tool run or is lost. -/
theorem silent_started (hstatus : status ∈ allowedToolStatuses)
    (hadmitted : Admitted cfg worker emergency (job.reported runner toolRunId status) db₀)
    (h : Silent (job.reported runner toolRunId status) db₀ none db) (attempts : List Attempt) :
    ∃ phase, (phase = none ∨ phase = some .running) ∧
      Silent (job.reported runner toolRunId status) db₀ phase
        (post cfg svc worker emergency
          (.toolStarted (announcement job runner toolRunId startedAt)) postMaxAttempts attempts
          db).1 := by
  refine post_invariant (I := fun db => ∃ phase, (phase = none ∨ phase = some .running) ∧
    Silent (job.reported runner toolRunId status) db₀ phase db) ?_ _ _ ⟨none, .inl rfl, h⟩
  rintro now evidenceId db ⟨phase, hphase, h⟩
  refine ⟨some (phase.getD .running), .inr ?_, ?_⟩
  · rcases hphase with rfl | rfl <;> rfl
  · exact silent_handle (a := ⟨.toolStarted (announcement job runner toolRunId startedAt), now,
      evidenceId⟩) hstatus hadmitted ⟨rfl, rfl, rfl, rfl⟩ trivial h

/-- A result that reaches the manager sets the status. -/
theorem silent_result {payload : ToolResultIn} (hstatus : status ∈ allowedToolStatuses)
    (hadmitted : Admitted cfg worker emergency (job.reported runner toolRunId status) db₀)
    (hof : (Submission.toolResult payload).Of (job.reported runner toolRunId status))
    {phase : Option ToolStatus} (hphase : phase = none ∨ phase = some .running)
    (h : Silent (job.reported runner toolRunId status) db₀ phase db) {attempts : List Attempt}
    (hreach : Reaches attempts) :
    Silent (job.reported runner toolRunId status) db₀ (some status)
      (post cfg svc worker emergency (.toolResult payload) postMaxAttempts attempts db).1 := by
  have hfirst : statusAfterResult phase status = status := by
    rcases hphase with rfl | rfl <;> rfl
  have hagain : statusAfterResult (some status) status = status := ite_self _
  have hstep : ∀ phase now evidenceId db,
      Silent (job.reported runner toolRunId status) db₀ phase db →
        Silent (job.reported runner toolRunId status) db₀ (some (statusAfterResult phase status))
          (submit cfg svc worker emergency now evidenceId (.toolResult payload) db).1 :=
    fun _ now evidenceId _ h => silent_handle (a := ⟨.toolResult payload, now, evidenceId⟩) hstatus
      hadmitted hof trivial h
  refine post_reached (I := Silent (job.reported runner toolRunId status) db₀ phase)
    (J := Silent (job.reported runner toolRunId status) db₀ (some status)) ?_ ?_ hreach h
  · intro now evidenceId db h
    have hnext := hstep _ now evidenceId db h
    rwa [hfirst] at hnext
  · intro now evidenceId db h
    have hnext := hstep _ now evidenceId db h
    rwa [hagain] at hnext

/-- Screenshots keep the tool run silent. -/
theorem silent_screenshots {raw : RawToolOutput} {runStatus : RunStatus}
    (hstatus : status ∈ allowedToolStatuses)
    (hadmitted : Admitted cfg worker emergency (job.reported runner toolRunId status) db₀)
    {phase : Option ToolStatus} {link : Link}
    (h : Silent (job.reported runner toolRunId status) db₀ phase link.db) :
    Silent (job.reported runner toolRunId status) db₀ phase
      (Client.run (serve cfg svc worker emergency)
        (captureAndSubmitScreenshots svc capture job runner toolRunId raw runStatus)
        link).1.db := by
  refine Client.run_invariant (I := fun link : Link =>
    Silent (job.reported runner toolRunId status) db₀ phase link.db) ?_ h
  intro submission hasks link h
  obtain ⟨fingerprint, image, rfl⟩ := asks_captureAndSubmitScreenshots hasks
  refine serve_invariant (fun now evidenceId db h => ?_) h
  exact silent_handle (a := ⟨.evidence _, now, evidenceId⟩) hstatus hadmitted ⟨rfl, rfl⟩
    ⟨rfl, rfl⟩ h

/-- **The result and the screenshots of a silent tool run** leave it silent, with its status. -/
theorem silent_reported {raw : RawToolOutput} {runStatus : RunStatus}
    {findings : List CommonFinding}
    (hadmitted : Admitted cfg worker emergency
      (job.reported runner toolRunId runStatus.toolStatus) db₀)
    {phase : Option ToolStatus} (hphase : phase = none ∨ phase = some .running) {link : Link}
    (h : Silent (job.reported runner toolRunId runStatus.toolStatus) db₀ phase link.db)
    (hreach : Reaches link.fates.result) :
    Silent (job.reported runner toolRunId runStatus.toolStatus) db₀ (some runStatus.toolStatus)
      (Client.run (serve cfg svc worker emergency)
        (captureAndSubmitScreenshots svc capture job runner toolRunId raw runStatus)
        (serve cfg svc worker emergency (.toolResult
          (runResult job runner toolRunId startedAt raw runStatus findings)) link).1).1.db := by
  have hstatus : runStatus.toolStatus ∈ allowedToolStatuses := runStatus.toolStatus_allowed
  refine silent_screenshots hstatus hadmitted ?_
  rw [serve_toolResult]
  exact silent_result hstatus hadmitted ⟨rfl, rfl, rfl, rfl, reportedToolStatus_text runStatus⟩
    hphase h hreach

/-! ## The two runs -/

/-- The submissions of a run other than its announcement reach the manager, which admits them. -/
structure Succeeds (cfg : Settings) (svc : Services) (worker : ScannerWorker) (emergency : Bool)
    (db : Db) (job : LeasedJob) (runner : Runner) (toolRunId : Uuid)
    (run : Except String RawToolOutput) (fates : Fates) : Prop where
  admitted : ∃ scan, toolGate cfg db worker emergency job.scanId job.executionToken
    runner.info.name = .ok scan
  result : Reaches fates.result
  evidence : ∀ raw, run = .ok raw → raw.stdout ≠ "" → Reaches fates.evidence ∧
    ∃ passed, evidenceGate cfg svc db worker emergency
      (rawEvidence svc job runner toolRunId raw) = .ok passed

/-- The database after a run whose announcement meets `started`. -/
def dbAfter (cfg : Settings) (svc : Services) (worker : ScannerWorker) (emergency : Bool)
    (capture : List VulnerabilityFinding → Option (List (String × Bytes))) (db : Db)
    (job : LeasedJob) (runner : Runner) (toolRunId : Uuid) (startedAt : ℤ)
    (run : Except String RawToolOutput) (fates : Fates) (started : List Attempt) : Db :=
  (Client.run (serve cfg svc worker emergency)
    (runLeasedTool svc capture job runner toolRunId startedAt run)
    ⟨db, { fates with started }⟩).1.db

variable {run : Except String RawToolOutput} {fates : Fates} {started : List Attempt}

/-- A run that raised is silent. -/
theorem crashed_silent {reason : String}
    (hadmitted : Admitted cfg worker emergency (job.reported runner toolRunId .failed) db₀)
    (hnew : Silent (job.reported runner toolRunId .failed) db₀ none db₀)
    (hreach : Reaches fates.result) :
    Silent (job.reported runner toolRunId .failed) db₀ (some .failed)
      (dbAfter cfg svc worker emergency capture db₀ job runner toolRunId startedAt (.error reason)
        fates started) := by
  have hstatus : ToolStatus.failed ∈ allowedToolStatuses := RunStatus.toolStatus_allowed .failed
  obtain ⟨phase, hphase, hstarted⟩ := silent_started svc startedAt hstatus hadmitted hnew started
  simp only [dbAfter, runLeasedTool, Client.run_bind, Client.run_request, Client.run_pure,
    serve_toolStarted, serve_toolResult]
  exact silent_result hstatus hadmitted ⟨rfl, rfl, rfl, rfl, rfl⟩ hphase hstarted hreach

/-- A run without output is silent. -/
theorem empty_silent {raw : RawToolOutput} (hempty : raw.stdout = "")
    (hadmitted : Admitted cfg worker emergency
      (job.reported runner toolRunId (runner.classify raw).toolStatus) db₀)
    (hnew : Silent (job.reported runner toolRunId (runner.classify raw).toolStatus) db₀ none db₀)
    (hreach : Reaches fates.result) :
    Silent (job.reported runner toolRunId (runner.classify raw).toolStatus) db₀
      (some (runner.classify raw).toolStatus)
      (dbAfter cfg svc worker emergency capture db₀ job runner toolRunId startedAt (.ok raw)
        fates started) := by
  obtain ⟨phase, hphase, hstarted⟩ := silent_started svc startedAt
    (RunStatus.toolStatus_allowed _) hadmitted hnew started
  simp only [dbAfter, runLeasedTool, sendRawOutput, hempty, if_true, outage, Bool.false_eq_true,
    false_and, if_false, Client.run_bind, Client.run_request, Client.run_pure, serve_toolStarted]
  exact silent_reported hadmitted hphase hstarted hreach

/-- Output that the manager admits passes the checks of the worker. -/
theorem sendRawOutput_of_gate {raw : RawToolOutput} (houtput : raw.stdout ≠ "")
    (hgate : ∃ passed, evidenceGate cfg svc db worker emergency
      (rawEvidence svc job runner toolRunId raw) = .ok passed) :
    sendRawOutput svc job runner toolRunId raw =
      Client.request (.evidence (rawEvidence svc job runner toolRunId raw)) := by
  have hvalid : ∃ digest,
      validateEvidence svc (svc.encode raw.stdout) "text/plain" = .ok digest := by
    obtain ⟨passed, hgate⟩ := hgate
    obtain ⟨scan, -, hgate⟩ := Checks.bind_eq_ok.mp hgate
    simp only [rawEvidence, evidencePayload] at hgate
    split at hgate
    · cases hgate
    · exact ⟨_, ‹_›⟩
  obtain ⟨digest, hvalid⟩ := hvalid
  unfold sendRawOutput sendEvidence
  rw [if_neg houtput, hvalid]
  rfl

variable (capture startedAt) in
/-- **A run whose announcement is lost is silent**: its output finds no tool run. -/
theorem lost_silent {raw : RawToolOutput}
    (hsend : sendRawOutput svc job runner toolRunId raw =
      Client.request (.evidence (rawEvidence svc job runner toolRunId raw)))
    (hadmitted : ∀ status, Admitted cfg worker emergency (job.reported runner toolRunId status) db₀)
    (hnew : ∀ status, Silent (job.reported runner toolRunId status) db₀ none db₀)
    (hreach : Reaches fates.result) (hlost : ∀ a ∈ started.take postMaxAttempts, ¬ a.Handled) :
    ∃ status, Silent (job.reported runner toolRunId status) db₀ (some status)
      (dbAfter cfg svc worker emergency capture db₀ job runner toolRunId startedAt (.ok raw)
        fates started) := by
  have hunknown : ∀ status, Silent (job.reported runner toolRunId status) db₀ none
      (serve cfg svc worker emergency (.evidence (rawEvidence svc job runner toolRunId raw))
        ⟨db₀, { fates with started }⟩).1.db := by
    intro status
    refine serve_invariant (fun now evidenceId db h => ?_) (hnew status)
    exact h.evidence_none rfl
  simp only [dbAfter, runLeasedTool, hsend, Client.run_bind, Client.run_request, Client.run_pure,
    serve_toolStarted, post_unreached hlost]
  refine ⟨_, silent_reported (hadmitted _) (.inl rfl) (hunknown _) ?_⟩
  rw [serve_rawOutput rfl]
  exact hreach

/-- The tool run is there and some raw output of it is stored. -/
structure Filed (tr : Reported) (db₀ db : Db) : Prop where
  phase : ∃ phase, InPhase tr db₀ phase db
  rawOutput : ∃ e ∈ db.evidence, e.isRawOutput tr.toolRunId

/-- Submissions keep the evidence that is there. -/
theorem submission_evidence {a : Arrival} {phase : Option ToolStatus} (ha : a.submission.Of tr)
    (h : InPhase tr db₀ phase db) :
    db.evidence <+: (handle cfg svc worker emergency db a).evidence := by
  obtain ⟨submission, now, evidenceId⟩ := a
  cases submission with
  | toolStarted p => rw [handle, submit_evidence rfl db]
  | toolResult p => rw [handle, submit_evidence rfl db]
  | evidence p =>
    simp only [handle, submit]
    rcases submitEvidence_cases cfg svc worker emergency evidenceId ha.2
        fun hnone => (h.row.unfiled hnone).2 with
      ⟨_, -, hdb⟩ | ⟨_, -, ⟨-, objects, hdb⟩ | ⟨r, hr, hfiled⟩⟩
    · rw [hdb]
    · rw [hdb]
    · rw [hfiled.evidence]
      exact List.prefix_append _ _

/-- **What is filed stays filed.** -/
theorem filed_handle {a : Arrival} (hstatus : tr.status ∈ allowedToolStatuses)
    (hadmitted : Admitted cfg worker emergency tr db₀) (ha : a.submission.Of tr)
    (h : Filed tr db₀ db) : Filed tr db₀ (handle cfg svc worker emergency db a) := by
  obtain ⟨⟨phase, hphase⟩, e, he, hraw⟩ := h
  exact ⟨⟨_, handle_inPhase hstatus ha hadmitted hphase⟩, e,
    (submission_evidence ha hphase).subset he, hraw⟩

/-- **Output of a tool run that has none is filed.** -/
theorem filed_of_unfiled {payload : EvidenceIn} {evidenceId : Uuid} {status : ToolStatus}
    (hid : payload.toolRunId = some tr.toolRunId) (htype : payload.contentType = "text/plain")
    (hgate : ∃ passed, evidenceGate cfg svc db₀ worker emergency payload = .ok passed)
    (h : InPhase tr db₀ (some status) db)
    (hunfiled : ∀ e ∈ db.evidence, e.toolRunId ≠ some tr.toolRunId) :
    Filed tr db₀ (submitEvidence cfg svc worker emergency evidenceId payload db).1 := by
  refine ⟨⟨_, submitEvidence_inPhase hid h⟩, ?_⟩
  rw [← h.gates.evidenceGate] at hgate
  obtain ⟨⟨scan, content, digest⟩, hgate⟩ := hgate
  obtain ⟨r, hr, -⟩ := h.row
  obtain ⟨out, hout⟩ := submitEvidence_of_gate evidenceId hgate hid hr
  have hfind : findEvidence db payload.toolRunId (payload.digest svc) = none := by
    rw [hid]
    refine List.find?_eq_none.mpr fun e he hsame => hunfiled e he ?_
    exact (of_decide_eq_true hsame).1
  rw [(submitEvidence_filed hout hid hr).evidence, hfind]
  refine ⟨_, List.mem_append_right _ List.mem_cons_self, hid, ?_⟩
  have hbase : baseType "text/plain" ≠ "image/png" := by decide
  simp only [newEvidence, htype, if_neg hbase]

/-- The tool run is in a phase and has no evidence. -/
structure Opened (tr : Reported) (db₀ : Db) (phase : Option ToolStatus) (db : Db) : Prop where
  phase : InPhase tr db₀ phase db
  unfiled : ∀ e ∈ db.evidence, e.toolRunId ≠ some tr.toolRunId

theorem opened_started {phase : Option ToolStatus} {payload : ToolStartedIn} {now : ℤ}
    {evidenceId : Uuid}
    (hstatus : tr.status ∈ allowedToolStatuses) (hadmitted : Admitted cfg worker emergency tr db₀)
    (hof : (Submission.toolStarted payload).Of tr) (h : Opened tr db₀ phase db) :
    Opened tr db₀ (some (phase.getD .running))
      (submit cfg svc worker emergency now evidenceId (.toolStarted payload) db).1 := by
  refine ⟨handle_inPhase (a := ⟨.toolStarted payload, now, evidenceId⟩) hstatus hof hadmitted
    h.phase, ?_⟩
  rw [submit_evidence rfl db]
  exact h.unfiled

/-- The result and the screenshots of a tool run leave its output filed. -/
theorem filed_reported {raw : RawToolOutput} {runStatus : RunStatus}
    {findings : List CommonFinding}
    (hadmitted : Admitted cfg worker emergency
      (job.reported runner toolRunId runStatus.toolStatus) db₀) {link : Link}
    (h : Filed (job.reported runner toolRunId runStatus.toolStatus) db₀ link.db) :
    Filed (job.reported runner toolRunId runStatus.toolStatus) db₀
      (Client.run (serve cfg svc worker emergency)
        (captureAndSubmitScreenshots svc capture job runner toolRunId raw runStatus)
        (serve cfg svc worker emergency (.toolResult
          (runResult job runner toolRunId startedAt raw runStatus findings)) link).1).1.db := by
  refine Client.run_invariant (I := fun link : Link =>
    Filed (job.reported runner toolRunId runStatus.toolStatus) db₀ link.db) ?_ ?_
  · intro submission hasks link h
    obtain ⟨fingerprint, image, rfl⟩ := asks_captureAndSubmitScreenshots hasks
    refine serve_invariant (fun now evidenceId db h => ?_) h
    exact filed_handle (a := ⟨.evidence _, now, evidenceId⟩) runStatus.toolStatus_allowed hadmitted
      ⟨rfl, rfl⟩ h
  · refine serve_invariant (fun now evidenceId db h => ?_) h
    exact filed_handle (a := ⟨.toolResult _, now, evidenceId⟩) runStatus.toolStatus_allowed
      hadmitted ⟨rfl, rfl, rfl, rfl, reportedToolStatus_text runStatus⟩ h

variable (capture startedAt) in
/-- **A run whose announcement reaches the manager** has its output filed. -/
theorem delivered_filed {raw : RawToolOutput}
    (hsend : sendRawOutput svc job runner toolRunId raw =
      Client.request (.evidence (rawEvidence svc job runner toolRunId raw)))
    (hgate : ∃ passed, evidenceGate cfg svc db₀ worker emergency
      (rawEvidence svc job runner toolRunId raw) = .ok passed)
    (hadmitted : ∀ status, Admitted cfg worker emergency (job.reported runner toolRunId status) db₀)
    (hnew : ∀ status, Opened (job.reported runner toolRunId status) db₀ none db₀)
    (hreach : Reaches fates.evidence) (hdelivered : Reaches started) :
    ∃ status, Filed (job.reported runner toolRunId status) db₀
      (dbAfter cfg svc worker emergency capture db₀ job runner toolRunId startedAt (.ok raw)
        fates started) := by
  have hopened : ∀ runStatus : RunStatus,
      Opened (job.reported runner toolRunId runStatus.toolStatus) db₀ (some .running)
        (serve cfg svc worker emergency
          (.toolStarted (announcement job runner toolRunId startedAt))
          ⟨db₀, { fates with started }⟩).1.db := by
    intro runStatus
    have hof : (Submission.toolStarted (announcement job runner toolRunId startedAt)).Of
        (job.reported runner toolRunId runStatus.toolStatus) := ⟨rfl, rfl, rfl, rfl⟩
    have hstatus := runStatus.toolStatus_allowed
    rw [serve_toolStarted]
    refine post_reached ?_ ?_ hdelivered (hnew runStatus.toolStatus)
    · exact fun now evidenceId db h => opened_started hstatus (hadmitted _) hof h
    · exact fun now evidenceId db h => opened_started hstatus (hadmitted _) hof h
  have hfiled : ∀ runStatus : RunStatus,
      Filed (job.reported runner toolRunId runStatus.toolStatus) db₀
        (serve cfg svc worker emergency (.evidence (rawEvidence svc job runner toolRunId raw))
          (serve cfg svc worker emergency
            (.toolStarted (announcement job runner toolRunId startedAt))
            ⟨db₀, { fates with started }⟩).1).1.db := by
    intro runStatus
    rw [serve_rawOutput rfl]
    refine post_reached ?_ ?_ hreach (hopened runStatus)
    · intro now evidenceId db h
      exact filed_of_unfiled rfl rfl hgate h.phase h.unfiled
    · intro now evidenceId db h
      exact filed_handle (a := ⟨.evidence _, now, evidenceId⟩) runStatus.toolStatus_allowed
        (hadmitted _) ⟨rfl, rfl⟩ h
  simp only [dbAfter, runLeasedTool, hsend, Client.run_bind, Client.run_request, Client.run_pure]
  exact ⟨_, filed_reported (hadmitted _) (hfiled _)⟩

/-- **When the announcement makes no difference.** If the output and the result of a run reach the
manager and are admitted, then what is stored for the run is the same whether its announcement
reaches the manager or not, if and only if the run has no output. -/
theorem announcement_cosmetic_iff {lost : List Attempt}
    (hrow : db.toolRuns toolRunId = none)
    (hunfiled : ∀ e ∈ db.evidence, e.toolRunId ≠ some toolRunId)
    (hsucceeds : Succeeds cfg svc worker emergency db job runner toolRunId run fates)
    (hdelivered : Reaches started) (hlost : ∀ a ∈ lost.take postMaxAttempts, ¬ a.Handled) :
    persisted toolRunId (dbAfter cfg svc worker emergency capture db job runner toolRunId startedAt
        run fates started) =
      persisted toolRunId (dbAfter cfg svc worker emergency capture db job runner toolRunId
        startedAt run fates lost) ↔
      ∀ raw, run = .ok raw → raw.stdout = "" := by
  have hadmitted : ∀ status, Admitted cfg worker emergency
      (job.reported runner toolRunId status) db := fun _ => hsucceeds.admitted
  have hphase : ∀ status, InPhase (job.reported runner toolRunId status) db none db :=
    fun _ => ⟨.refl db, ⟨hrow, hunfiled⟩, List.prefix_rfl⟩
  have hsilent : ∀ status, Silent (job.reported runner toolRunId status) db none db :=
    fun status => ⟨hphase status, rfl, fun e he hraw => hunfiled e he hraw.1⟩
  cases run with
  | error reason =>
    refine iff_of_true ?_ (fun raw hrun => nomatch hrun)
    have hafter : ∀ attempts, persisted toolRunId (dbAfter cfg svc worker emergency capture db job
        runner toolRunId startedAt (.error reason) fates attempts) =
          ⟨some .failed, [], (persisted toolRunId db).vulnerabilities⟩ := fun _ =>
      persisted_of_silent (crashed_silent (hadmitted _) (hsilent _) hsucceeds.result)
    exact (hafter started).trans (hafter lost).symm
  | ok raw =>
    by_cases hempty : raw.stdout = ""
    · refine iff_of_true ?_ fun _ hrun => by cases hrun; exact hempty
      have hafter : ∀ attempts, persisted toolRunId (dbAfter cfg svc worker emergency capture db
          job runner toolRunId startedAt (.ok raw) fates attempts) =
            ⟨some (runner.classify raw).toolStatus, [],
              (persisted toolRunId db).vulnerabilities⟩ := fun _ =>
        persisted_of_silent (empty_silent hempty (hadmitted _) (hsilent _) hsucceeds.result)
      exact (hafter started).trans (hafter lost).symm
    · refine iff_of_false ?_ fun h => hempty (h raw rfl)
      obtain ⟨hreach, hgate⟩ := hsucceeds.evidence raw rfl hempty
      have hsend := sendRawOutput_of_gate hempty hgate
      obtain ⟨_, hfiled⟩ := delivered_filed capture startedAt hsend
        hgate hadmitted (fun status => ⟨hphase status, hunfiled⟩) hreach hdelivered
      obtain ⟨_, hlost⟩ := lost_silent capture startedAt hsend
        hadmitted hsilent hsucceeds.result hlost
      obtain ⟨e, he, hraw⟩ := hfiled.rawOutput
      intro hsame
      have houtput := congrArg Persisted.rawOutput hsame
      rw [show persisted toolRunId _ = _ from persisted_of_silent hlost] at houtput
      exact List.filter_eq_nil_iff.mp houtput e he (decide_eq_true hraw)

/-! ## A lost announcement -/

/-- The output and the result are handled and answered whenever they are sent. -/
def outputFates : Fates where
  started := []
  evidence := [.handled 12 8 true, .handled 13 7 true, .handled 14 6 true]
  result := [.handled 20 0 true]
  screenshots := []

/-- The worker's tool run 9 of the scan. -/
def afterNuclei (run : Except String RawToolOutput) (started : List Attempt) : Db :=
  dbAfter ⟨""⟩ nucleiServices nucleiWorker false (fun _ => some []) nucleiScan nucleiJob
    strictNuclei 9 10 run outputFates started

def completedOutput : RawToolOutput := ⟨"nuclei -u http://h", nucleiLine, "", 0, false⟩

/-- A run that raised, with and without its announcement. -/
theorem announcement_lost_crashed :
    persisted 9 (afterNuclei (.error "timeout") [.handled 11 0 true]) =
      persisted 9 (afterNuclei (.error "timeout") []) := by
  refine (announcement_cosmetic_iff ?_ ?_ ⟨⟨_, rfl⟩, ?_, ?_⟩ ?_ ?_).mpr ?_
  · rfl
  · exact fun e he => nomatch he
  · exact ⟨_, List.mem_cons_self, trivial⟩
  · exact fun raw hrun => nomatch hrun
  · exact ⟨_, List.mem_cons_self, trivial⟩
  · exact fun a ha => nomatch ha
  · exact fun raw hrun => nomatch hrun

/-- **A completed run whose announcement is lost** becomes partial, and its output and its finding
are not stored. -/
theorem announcement_lost :
    Succeeds ⟨""⟩ nucleiServices nucleiWorker false nucleiScan nucleiJob strictNuclei 9
        (.ok completedOutput) outputFates ∧
      persisted 9 (afterNuclei (.ok completedOutput) [.handled 11 0 true]) ≠
        persisted 9 (afterNuclei (.ok completedOutput) []) ∧
      (persisted 9 (afterNuclei (.ok completedOutput) [])).status = some .partialRun ∧
      (persisted 9 (afterNuclei (.ok completedOutput) [])).rawOutput = [] ∧
      (afterNuclei (.ok completedOutput) [.handled 11 0 true]).ingestCalls.map (·.findings) =
        [[nucleiFinding]] ∧
      (afterNuclei (.ok completedOutput) []).ingestCalls = [] := by
  have hdelivered : (persisted 9 (afterNuclei (.ok completedOutput)
      [.handled 11 0 true])).status = some .completed := rfl
  have hlost : (persisted 9 (afterNuclei (.ok completedOutput) [])).status = some .partialRun := rfl
  refine ⟨⟨⟨_, rfl⟩, ⟨_, List.mem_cons_self, trivial⟩, ?_⟩, ?_, hlost, rfl, rfl, rfl⟩
  · rintro _ ⟨⟩ -
    exact ⟨⟨_, List.mem_cons_self, trivial⟩, _, rfl⟩
  · intro hsame
    rw [hsame, hlost] at hdelivered
    exact absurd hdelivered (by decide)

end ScanPlatform
