import ScanPlatform.Manager.Submission

/-!
# The phases of a tool run

A tool run is not there, is running, or has the status that was first reported for it. This follows
its row through its own submissions, which the manager may handle in any order and number.

* `Submission.Of`: the submissions of one tool run;
* `InPhase`: the phase that the database shows;
* **`handle_inPhase`**: what a submission does to the phase;
* `phaseOf`, **`phaseOf_eq`**, `foldl_inPhase`: the phase after any number of them;
* **`submitEvidence_ingests`**: when evidence calls the pipeline, and with what.
-/

set_option autoImplicit false

namespace ScanPlatform

/-- The tool run that submissions are about, and the outcome that is reported for it. -/
structure Reported where
  scanId : Uuid
  executionToken : Uuid
  toolName : String
  toolRunId : Uuid
  status : ToolStatus

/-- The submission is one of the tool run. -/
def Submission.Of (run : Reported) : Submission → Prop
  | .toolStarted p => p.scanId = run.scanId ∧ p.executionToken = run.executionToken ∧
      p.toolName = run.toolName ∧ p.toolRunId = run.toolRunId
  | .toolResult p => p.scanId = run.scanId ∧ p.executionToken = run.executionToken ∧
      p.toolName = run.toolName ∧ p.toolRunId = run.toolRunId ∧
      reportedToolStatus p.status = some run.status
  | .evidence p => p.scanId = run.scanId ∧ p.toolRunId = some run.toolRunId

/-- What is known of the row of a tool run in a phase. A running tool run has no exit code, and a
tool run that is not there has no evidence. -/
def RowInPhase (run : Reported) (db : Db) : Option ToolStatus → Prop
  | none => db.toolRuns run.toolRunId = none ∧
      ∀ e ∈ db.evidence, e.toolRunId ≠ some run.toolRunId
  | some status => ∃ r, db.toolRuns run.toolRunId = some r ∧ r.scanId = run.scanId ∧
      r.status = status ∧ (status = .running → r.exitCode = none)

/-- The tool run is in a phase in `db`, which came from `db₀` by submissions of the tool run. -/
structure InPhase (run : Reported) (db₀ : Db) (phase : Option ToolStatus) (db : Db) : Prop where
  gates : SameGates db₀ db
  row : RowInPhase run db phase
  ingested : db₀.ingestCalls <+: db.ingestCalls

variable {cfg : Settings} {svc : Services} {worker : ScannerWorker} {emergency : Bool}

/-- The manager admits the announcement and the result of a tool run. -/
def Admitted (cfg : Settings) (worker : ScannerWorker) (emergency : Bool) (run : Reported)
    (db : Db) : Prop :=
  ∃ scan, toolGate cfg db worker emergency run.scanId run.executionToken run.toolName = .ok scan

/-- The phase after a submission. -/
def phaseAfter (run : Reported) (phase : Option ToolStatus) : Submission → Option ToolStatus
  | .toolStarted _ => some (phase.getD .running)
  | .toolResult _ => some (statusAfterResult phase run.status)
  | .evidence _ => phase

theorem statusAfterResult_ne_running {old : Option ToolStatus} {reported : ToolStatus}
    (h : reported ∈ allowedToolStatuses) : statusAfterResult old reported ≠ .running := by
  have hne : ∀ status ∈ allowedToolStatuses, status ≠ .running := by decide
  unfold statusAfterResult
  split
  · split_ifs with hallowed
    · exact hne _ hallowed
    · exact hne _ h
  · exact hne _ h

theorem RowInPhase.own {run : Reported} {db : Db} {phase : Option ToolStatus}
    (h : RowInPhase run db phase) : ∀ r ∈ db.toolRuns run.toolRunId, r.scanId = run.scanId := by
  intro r hr
  cases phase with
  | none => rw [h.1] at hr; cases hr
  | some status =>
    obtain ⟨s, hs, hscan, -⟩ := h
    rw [Option.mem_def, hs] at hr
    cases hr
    exact hscan

theorem RowInPhase.status {run : Reported} {db : Db} {phase : Option ToolStatus}
    (h : RowInPhase run db phase) : (db.toolRuns run.toolRunId).map (·.status) = phase := by
  cases phase with
  | none => rw [h.1]; rfl
  | some status =>
    obtain ⟨r, hr, -, rfl, -⟩ := h
    rw [hr]
    rfl

theorem RowInPhase.unfiled {run : Reported} {db : Db} {phase : Option ToolStatus}
    (h : RowInPhase run db phase) (hnone : db.toolRuns run.toolRunId = none) :
    phase = none ∧ ∀ e ∈ db.evidence, e.toolRunId ≠ some run.toolRunId := by
  cases phase with
  | none => exact ⟨rfl, h.2⟩
  | some status =>
    obtain ⟨r, hr, -⟩ := h
    rw [hnone] at hr
    cases hr

theorem RowInPhase.exitCode {run : Reported} {db : Db} {phase : Option ToolStatus}
    (h : RowInPhase run db phase) (hphase : phase.getD .running = .running) :
    (db.toolRuns run.toolRunId).bind (·.exitCode) = none := by
  cases phase with
  | none => rw [h.1]; rfl
  | some status =>
    obtain ⟨r, hr, -, -, hexit⟩ := h
    rw [hr]
    exact hexit hphase

theorem submitEvidence_inPhase {run : Reported} {db₀ db : Db} {phase : Option ToolStatus}
    {payload : EvidenceIn} {evidenceId : Uuid} (hid : payload.toolRunId = some run.toolRunId)
    (h : InPhase run db₀ phase db) :
    InPhase run db₀ phase (submitEvidence cfg svc worker emergency evidenceId payload db).1 := by
  rcases submitEvidence_cases cfg svc worker emergency evidenceId hid
      fun hnone => (h.row.unfiled hnone).2 with
    ⟨_, -, hdb⟩ | ⟨_, -, ⟨-, objects, hdb⟩ | ⟨r, hr, hfiled⟩⟩
  · rw [hdb]
    exact h
  · rw [hdb]
    exact ⟨⟨h.gates.scans, h.gates.sites⟩, h.row, h.ingested⟩
  · refine ⟨h.gates.trans hfiled.gates, ?_, ?_⟩
    · cases phase with
      | none => rw [h.row.1] at hr; cases hr
      | some status =>
        obtain ⟨s, hs, hscan, hstatus, hexit⟩ := h.row
        rw [hr] at hs
        cases hs
        obtain ⟨ref, hruns, -⟩ := hfiled.toolRuns
        exact ⟨{ r with rawOutputRef := ref }, by rw [hruns, Table.set_self], hscan, hstatus, hexit⟩
    · obtain ⟨calls, ingests, -, hingests, -⟩ := hfiled.parsed
      rw [hingests]
      exact h.ingested.trans (List.prefix_append _ _)

/-- **What a submission does to the phase**: an announcement opens a tool run that is not there, and
the first result sets its status, provided that the manager admits them. -/
theorem handle_inPhase {run : Reported} {db₀ db : Db} {phase : Option ToolStatus} {a : Arrival}
    (hstatus : run.status ∈ allowedToolStatuses) (ha : a.submission.Of run)
    (hadmitted : Admitted cfg worker emergency run db₀) (h : InPhase run db₀ phase db) :
    InPhase run db₀ (phaseAfter run phase a.submission)
      (handle cfg svc worker emergency db a) := by
  obtain ⟨scan, hgate⟩ := hadmitted
  rw [← h.gates.toolGate] at hgate
  obtain ⟨submission, now, evidenceId⟩ := a
  cases submission with
  | toolStarted p =>
    obtain ⟨hscan, htoken, hname, hid⟩ := ha
    rw [← hscan, ← htoken, ← hname] at hgate
    obtain ⟨r, hr, hrscan, hrstatus, hrexit⟩ :=
      submitToolStarted_of_gate now hgate (by rw [hid, hscan]; exact h.row.own)
    rw [hid] at hr hrstatus hrexit
    rw [h.row.status] at hrstatus
    simp only [handle, submit, hr]
    refine ⟨⟨h.gates.scans, h.gates.sites⟩, ⟨r, Table.set_self _ _ _, hrscan.trans hscan, hrstatus,
      fun hrunning => ?_⟩, h.ingested⟩
    rw [hrexit, h.row.exitCode hrunning]
  | toolResult p =>
    obtain ⟨hscan, htoken, hname, hid, hreported⟩ := ha
    rw [← hscan, ← htoken, ← hname] at hgate
    obtain ⟨r, assets, out, hr, hrscan, hrstatus⟩ :=
      submitToolResult_of_gate svc now hgate
        (by rw [hid, hscan]; exact h.row.own) hreported
    rw [hid] at hr hrstatus
    rw [h.row.status] at hrstatus
    simp only [handle, submit, hr]
    exact ⟨⟨h.gates.scans, h.gates.sites⟩, ⟨r, Table.set_self _ _ _, hrscan.trans hscan, hrstatus,
      fun hrunning => absurd hrunning (statusAfterResult_ne_running hstatus)⟩, h.ingested⟩
  | evidence p =>
    exact submitEvidence_inPhase ha.2 h

/-- The phase after these arrivals, of a tool run that was not there. -/
def phaseOf (run : Reported) (arrivals : List Arrival) : Option ToolStatus :=
  arrivals.foldl (fun phase a => phaseAfter run phase a.submission) none

theorem phaseOf_concat (run : Reported) (arrivals : List Arrival) (a : Arrival) :
    phaseOf run (arrivals ++ [a]) = phaseAfter run (phaseOf run arrivals) a.submission :=
  List.foldl_concat ..

/-- **The phase of a tool run**: its reported status from the first result on, and running between
the announcement and that. -/
theorem phaseOf_eq (run : Reported) (arrivals : List Arrival) :
    phaseOf run arrivals =
      if arrivals.any (·.submission.isToolResult) then some run.status
      else if arrivals.any (·.submission.isToolStarted) then some .running
      else none := by
  induction arrivals using List.reverseRecOn with
  | nil => rfl
  | append_singleton arrivals a ih =>
    rw [phaseOf_concat, ih]
    simp only [List.any_append, List.any_cons, List.any_nil, Bool.or_false]
    generalize arrivals.any (·.submission.isToolResult) = result
    generalize arrivals.any (·.submission.isToolStarted) = started
    cases a.submission with
    | toolStarted p => cases result <;> cases started <;> rfl
    | evidence p => cases result <;> cases started <;> rfl
    | toolResult p =>
      cases result with
      | false => cases started <;> rfl
      | true => simp [phaseAfter, statusAfterResult, Submission.isToolResult]

/-- The database after any submissions of a tool run that was not there is in their phase. -/
theorem foldl_inPhase {run : Reported} (hstatus : run.status ∈ allowedToolStatuses) {db : Db}
    (hadmitted : Admitted cfg worker emergency run db) (hnew : InPhase run db none db)
    {arrivals : List Arrival} (hof : ∀ a ∈ arrivals, a.submission.Of run) :
    InPhase run db (phaseOf run arrivals)
      (arrivals.foldl (handle cfg svc worker emergency) db) := by
  induction arrivals using List.reverseRecOn with
  | nil => exact hnew
  | append_singleton arrivals a ih =>
    rw [List.forall_mem_append, List.forall_mem_singleton] at hof
    rw [List.foldl_concat, phaseOf_concat]
    exact handle_inPhase hstatus hof.2 hadmitted (ih hof.1)

/-! ## The calls of the pipeline -/

variable (cfg svc worker emergency) in
/-- **When evidence calls the pipeline**: it passes its gate and is parsed, and then the pipeline is
given what the parser returns. -/
theorem submitEvidence_ingests {run : Reported} {db₀ db : Db} {phase : Option ToolStatus}
    {payload : EvidenceIn} (evidenceId : Uuid) (hid : payload.toolRunId = some run.toolRunId)
    (h : InPhase run db₀ phase db) :
    ∃ new, (submitEvidence cfg svc worker emergency evidenceId payload db).1.ingestCalls =
        db.ingestCalls ++ new ∧
      ((∃ r name content target rowId,
          (∃ passed, evidenceGate cfg svc db₀ worker emergency payload = .ok passed) ∧
          db.toolRuns run.toolRunId = some r ∧ payload.ParsedAs r name ∧
          payload.content = some content ∧
          new = pipelineCalls target payload.scanId run.toolRunId rowId
            (svc.parser name (rawOutput svc r content))) ∨
        new = [] ∧ ∀ passed, evidenceGate cfg svc db₀ worker emergency payload = .ok passed →
          ∀ r, db.toolRuns run.toolRunId = some r → ∀ name, ¬ payload.ParsedAs r name) := by
  rw [← h.gates.evidenceGate]
  rcases submitEvidence_cases cfg svc worker emergency evidenceId hid
      fun hnone => (h.row.unfiled hnone).2 with
    ⟨fault, hgate, hdb⟩ | ⟨passed, hgate, ⟨hnone, objects, hdb⟩ | ⟨r, hr, hfiled⟩⟩
  · rw [hdb, hgate]
    exact ⟨[], (List.append_nil _).symm, .inr ⟨rfl, fun _ hok => nomatch hok⟩⟩
  · rw [hdb, hnone]
    exact ⟨[], (List.append_nil _).symm, .inr ⟨rfl, fun _ _ _ hr => nomatch hr⟩⟩
  · obtain ⟨calls, ingests, -, hingests, hparsed⟩ := hfiled.parsed
    refine ⟨ingests, hingests, ?_⟩
    rcases hparsed with ⟨name, content, target, rowId, hname, hcontent, -, hnew⟩ | ⟨hnone, -, hnew⟩
    · exact .inl ⟨r, name, content, target, rowId, ⟨passed, hgate⟩, hr, hname, hcontent, hnew⟩
    · refine .inr ⟨hnew, fun _ _ s hs => ?_⟩
      rw [hr] at hs
      cases hs
      exact hnone

end ScanPlatform
