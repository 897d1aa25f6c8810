import ScanPlatform.Engine.Orchestrator
import ScanPlatform.Manager.ToolRunPhase
import ScanPlatform.Worker.Executor

/-!
# The output of runs that failed

A run that failed must not yield vulnerabilities. In process its findings are dropped before the
pipeline is called. On the lease path the manager parses the output before it is told the outcome:
the tool run is still running when its evidence arrives.

* `FiledInTime`: the output arrives after the announcement and before the result;
* `Yields`: the manager would find something in it;
* `nothingIngested_iff`: what the arrivals of a failed run hand to the pipeline;
* **`failed_run_ingests_nothing_iff`**, `failed_run_ingested`: when neither path does, and a failed
  run whose findings are ingested.
-/

set_option autoImplicit false

namespace ScanPlatform

open Client

/-- The output arrives when the announcement has been handled and the result has not. -/
def FiledInTime (arrivals : List Arrival) : Prop :=
  ∃ before a, before ++ [a] <+: arrivals ∧ a.submission.isEvidence ∧
    (∃ b ∈ before, b.submission.isToolStarted) ∧ ∀ b ∈ before, ¬ b.submission.isToolResult

/-- The output as the manager reads it while the tool run has no exit code. -/
def outputAsFiled (svc : Services) (raw : RawToolOutput) : RawToolOutput where
  command := ""
  stdout := svc.decode (svc.encode raw.stdout)
  stderr := ""
  exitCode := 0
  timedOut := false

/-- The manager admits the submissions of the tool run, and its parser finds something in the
output. -/
def Yields (cfg : Settings) (svc : Services) (worker : ScannerWorker) (emergency : Bool) (db : Db)
    (job : LeasedJob) (runner : Runner) (toolRunId : Uuid) (raw : RawToolOutput) : Prop :=
  Admitted cfg worker emergency (job.reported runner toolRunId .failed) db ∧
    (∃ passed, evidenceGate cfg svc db worker emergency (rawEvidence svc job runner toolRunId raw) =
      .ok passed) ∧
    (svc.parser runner.info.name (outputAsFiled svc raw)).getD [] ≠ []

/-! ## The pipeline -/

theorem pipelineCalls_empty_iff {target : Option Target} {scanId toolRunId evidenceId : Uuid}
    {found : Option (List VulnerabilityFinding)} :
    (∀ call ∈ pipelineCalls target scanId toolRunId evidenceId found, call.findings = []) ↔
      found.getD [] = [] := by
  match found with
  | none | some [] => exact iff_of_true (List.forall_mem_nil _) rfl
  | some (v :: vs) =>
    exact iff_of_false (fun h => List.cons_ne_nil _ _ (h _ List.mem_cons_self))
      (List.cons_ne_nil _ _)

theorem NothingIngested.congr {db db₁ db₂ : Db} (h : db₂.ingestCalls = db₁.ingestCalls) :
    NothingIngested db db₂ ↔ NothingIngested db db₁ := by
  unfold NothingIngested
  rw [h]

theorem NothingIngested.concat_iff {db db₁ db₂ : Db} (h₁ : db.ingestCalls <+: db₁.ingestCalls)
    {new : List IngestCall} (h₂ : db₂.ingestCalls = db₁.ingestCalls ++ new) :
    NothingIngested db db₂ ↔ NothingIngested db db₁ ∧ ∀ call ∈ new, call.findings = [] := by
  obtain ⟨old, hold⟩ := h₁
  unfold NothingIngested
  rw [h₂, ← hold]
  simp only [List.append_assoc, List.append_cancel_left_eq, exists_eq_left', List.forall_mem_append]

/-! ## The arrivals of a failed run -/

variable {cfg : Settings} {svc : Services} {worker : ScannerWorker} {emergency : Bool} {db : Db}
  {job : LeasedJob} {runner : Runner} {toolRunId : Uuid} {startedAt : ℤ} {raw : RawToolOutput}

theorem filedInTime_concat_iff (run : Reported) (hrun : run.status = .failed)
    {arrivals : List Arrival} {a : Arrival} :
    FiledInTime (arrivals ++ [a]) ↔
      FiledInTime arrivals ∨ a.submission.isEvidence ∧ phaseOf run arrivals = some .running := by
  have hphase : phaseOf run arrivals = some .running ↔
      (∃ b ∈ arrivals, b.submission.isToolStarted) ∧
        ∀ b ∈ arrivals, ¬ b.submission.isToolResult := by
    rw [phaseOf_eq, hrun, ← List.any_eq_true, ← List.any_eq_false]
    generalize arrivals.any (·.submission.isToolResult) = result
    generalize arrivals.any (·.submission.isToolStarted) = started
    cases result <;> cases started <;> decide
  rw [hphase]
  constructor
  · rintro ⟨before, b, hprefix, hfiled⟩
    rcases List.prefix_concat_iff.mp hprefix with heq | hprefix
    · obtain ⟨rfl, hb⟩ := List.append_inj' heq rfl
      cases hb
      exact .inr hfiled
    · exact .inl ⟨before, b, hprefix, hfiled⟩
  · rintro (⟨before, b, hprefix, hfiled⟩ | hfiled)
    · exact ⟨before, b, hprefix.trans (List.prefix_append _ _), hfiled⟩
    · exact ⟨arrivals, a, List.prefix_rfl, hfiled⟩

/-- What a running tool run is parsed as. -/
theorem rawEvidence_parsedAs (hregistered : (registered runner.info.name).isSome) {r : ToolRun}
    {name : String} :
    (rawEvidence svc job runner toolRunId raw).ParsedAs r name ↔
      name = runner.info.name ∧ r.status ≠ .failed := by
  constructor
  · rintro ⟨hname, -, -, -, hstatus⟩
    exact ⟨(Option.some.inj hname).symm, hstatus⟩
  · rintro ⟨rfl, hstatus⟩
    have htext : PyStr.startsWith "text/plain" "text/" = true := by decide
    refine ⟨rfl, fun hempty => ?_, htext, hregistered, hstatus⟩
    rw [hempty] at hregistered
    exact absurd hregistered (by decide)

/-- A tool run of a failed run that is there and has not failed is running. -/
theorem running_of_not_failed {arrivals : List Arrival} {db' : Db} {r : ToolRun}
    (h : InPhase (job.reported runner toolRunId .failed) db
      (phaseOf (job.reported runner toolRunId .failed) arrivals) db')
    (hr : db'.toolRuns toolRunId = some r) (hstatus : r.status ≠ .failed) :
    phaseOf (job.reported runner toolRunId .failed) arrivals = some .running ∧
      r.exitCode = none := by
  have hphase : phaseOf (job.reported runner toolRunId .failed) arrivals = some .running := by
    have hshown := h.row.status
    rw [show (job.reported runner toolRunId .failed).toolRunId = toolRunId from rfl, hr,
      Option.map_some, phaseOf_eq] at hshown
    rw [phaseOf_eq]
    split_ifs at hshown ⊢
    · exact absurd (Option.some.inj hshown) hstatus
    · rfl
  have hrow := h.row
  rw [hphase] at hrow
  obtain ⟨s, hs, -, -, hexit⟩ := hrow
  obtain rfl : r = s := Option.some.inj (hr.symm.trans hs)
  exact ⟨hphase, hexit rfl⟩

/-- Output that arrives in a phase is handed to the pipeline if and only if the tool run is running
and the parser finds something. -/
theorem rawEvidence_ingests_iff {arrivals : List Arrival} {db' : Db} {evidenceId : Uuid}
    (hadmitted : Admitted cfg worker emergency (job.reported runner toolRunId .failed) db)
    (h : InPhase (job.reported runner toolRunId .failed) db
      (phaseOf (job.reported runner toolRunId .failed) arrivals) db') :
    NothingIngested db (submitEvidence cfg svc worker emergency evidenceId
        (rawEvidence svc job runner toolRunId raw) db').1 ↔
      NothingIngested db db' ∧
        ¬ (Yields cfg svc worker emergency db job runner toolRunId raw ∧
          phaseOf (job.reported runner toolRunId .failed) arrivals = some .running) := by
  have hregistered : (registered runner.info.name).isSome := by
    obtain ⟨scan, hgate⟩ := hadmitted
    exact (toolGate_ok hgate).2.2.2
  have hid : (rawEvidence svc job runner toolRunId raw).toolRunId =
      some (job.reported runner toolRunId .failed).toolRunId := rfl
  obtain ⟨new, hnew, hcalls⟩ := submitEvidence_ingests cfg svc worker emergency evidenceId hid h
  rw [NothingIngested.concat_iff h.ingested hnew]
  refine and_congr_right fun _ => ?_
  rcases hcalls with ⟨r, name, content, target, rowId, hgate, hr, hparsed, hcontent, rfl⟩ |
    ⟨rfl, hnone⟩
  · obtain ⟨rfl, hstatus⟩ := (rawEvidence_parsedAs hregistered).mp hparsed
    cases hcontent
    obtain ⟨hphase, hexit⟩ := running_of_not_failed h hr hstatus
    have hraw : rawOutput svc r (svc.encode raw.stdout) = outputAsFiled svc raw := by
      rw [rawOutput, hexit]
      rfl
    rw [pipelineCalls_empty_iff, hraw]
    constructor
    · rintro hempty ⟨⟨-, -, hfound⟩, -⟩
      exact hfound hempty
    · intro hnot
      by_contra hfound
      exact hnot ⟨⟨hadmitted, hgate, hfound⟩, hphase⟩
  · refine iff_of_true (List.forall_mem_nil _) ?_
    rintro ⟨⟨-, ⟨passed, hgate⟩, -⟩, hphase⟩
    have hrow := h.row
    rw [hphase] at hrow
    obtain ⟨r, hr, -, hrunning, -⟩ := hrow
    refine hnone passed hgate r hr runner.info.name ((rawEvidence_parsedAs hregistered).mpr
      ⟨rfl, ?_⟩)
    rw [hrunning]
    exact ToolStatus.noConfusion

/-- What the worker sends for a failed run. -/
def SentForFailed (svc : Services) (job : LeasedJob) (runner : Runner) (toolRunId : Uuid)
    (startedAt : ℤ) (raw : RawToolOutput) (submission : Submission) : Prop :=
  submission = .toolStarted (announcement job runner toolRunId startedAt) ∨
    submission = .evidence (rawEvidence svc job runner toolRunId raw) ∧ raw.stdout ≠ "" ∨
    submission = .toolResult (runResult job runner toolRunId startedAt raw .failed [])

theorem SentForFailed.of {submission : Submission}
    (h : SentForFailed svc job runner toolRunId startedAt raw submission) :
    submission.Of (job.reported runner toolRunId .failed) := by
  rcases h with rfl | ⟨rfl, -⟩ | rfl
  · exact ⟨rfl, rfl, rfl, rfl⟩
  · exact ⟨rfl, rfl⟩
  · exact ⟨rfl, rfl, rfl, rfl, rfl⟩

theorem refused_of_not_admitted {run : Reported}
    (hnot : ¬ Admitted cfg worker emergency run db) :
    ∃ fault, toolGate cfg db worker emergency run.scanId run.executionToken run.toolName =
      .error fault := by
  cases hgate : toolGate cfg db worker emergency run.scanId run.executionToken run.toolName with
  | error fault => exact ⟨fault, rfl⟩
  | ok scan => exact absurd ⟨scan, hgate⟩ hnot

/-- A tool run that the manager does not admit is never there, and its output is not parsed. -/
theorem unadmitted_ingests_nothing {run : Reported} (hnot : ¬ Admitted cfg worker emergency run db)
    (hnew : InPhase run db none db) {arrivals : List Arrival}
    (hof : ∀ a ∈ arrivals, a.submission.Of run) :
    InPhase run db none (arrivals.foldl (handle cfg svc worker emergency) db) ∧
      NothingIngested db (arrivals.foldl (handle cfg svc worker emergency) db) := by
  induction arrivals using List.reverseRecOn with
  | nil => exact ⟨hnew, .of_eq rfl⟩
  | append_singleton arrivals a ih =>
    rw [List.forall_mem_append, List.forall_mem_singleton] at hof
    obtain ⟨hphase, hnothing⟩ := ih hof.1
    rw [List.foldl_concat]
    generalize arrivals.foldl (handle cfg svc worker emergency) db = db' at *
    obtain ⟨fault, hgate⟩ := refused_of_not_admitted hnot
    rw [← hphase.gates.toolGate] at hgate
    obtain ⟨submission, now, evidenceId⟩ := a
    have hsub := hof.2
    cases submission with
    | toolStarted p =>
      obtain ⟨hscan, htoken, hname, -⟩ := hsub
      rw [← hscan, ← htoken, ← hname] at hgate
      simp only [handle, submit, submitToolStarted_of_refused hgate]
      exact ⟨hphase, hnothing⟩
    | toolResult p =>
      obtain ⟨hscan, htoken, hname, -⟩ := hsub
      rw [← hscan, ← htoken, ← hname] at hgate
      simp only [handle, submit, submitToolResult_of_refused hgate]
      exact ⟨hphase, hnothing⟩
    | evidence p =>
      refine ⟨submitEvidence_inPhase hsub.2 hphase, ?_⟩
      obtain ⟨new, hnew, hcalls⟩ :=
        submitEvidence_ingests cfg svc worker emergency evidenceId hsub.2 hphase
      refine (NothingIngested.concat_iff hphase.ingested hnew).mpr ⟨hnothing, ?_⟩
      rcases hcalls with ⟨r, name, content, target, rowId, -, hr, -⟩ | ⟨rfl, -⟩
      · rw [hphase.row.1] at hr
        cases hr
      · exact List.forall_mem_nil _

/-- **What the arrivals of a failed run hand to the pipeline**: something, if and only if the output
yields findings and arrives in time. -/
theorem nothingIngested_iff (hrow : db.toolRuns toolRunId = none)
    (hunfiled : ∀ e ∈ db.evidence, e.toolRunId ≠ some toolRunId) {arrivals : List Arrival}
    (hsent : ∀ a ∈ arrivals, SentForFailed svc job runner toolRunId startedAt raw a.submission) :
    NothingIngested db (arrivals.foldl (handle cfg svc worker emergency) db) ↔
      ¬ (Yields cfg svc worker emergency db job runner toolRunId raw ∧ FiledInTime arrivals) := by
  have hnew : InPhase (job.reported runner toolRunId .failed) db none db :=
    ⟨.refl db, ⟨hrow, hunfiled⟩, List.prefix_rfl⟩
  have hof : ∀ a ∈ arrivals, a.submission.Of (job.reported runner toolRunId .failed) :=
    fun a ha => (hsent a ha).of
  by_cases hadmitted : Admitted cfg worker emergency (job.reported runner toolRunId .failed) db
  swap
  · exact iff_of_true (unadmitted_ingests_nothing hadmitted hnew hof).2
      fun h => hadmitted h.1.1
  induction arrivals using List.reverseRecOn with
  | nil =>
    refine iff_of_true (.of_eq rfl) ?_
    rintro ⟨-, before, a, hprefix, -⟩
    exact List.append_ne_nil_of_right_ne_nil _ (List.cons_ne_nil _ _) (List.prefix_nil.mp hprefix)
  | append_singleton arrivals a ih =>
    rw [List.forall_mem_append, List.forall_mem_singleton] at hsent hof
    have hstatus : (job.reported runner toolRunId .failed).status ∈ allowedToolStatuses :=
      (by decide : ToolStatus.failed ∈ allowedToolStatuses)
    have hphase : InPhase (job.reported runner toolRunId .failed) db
        (phaseOf (job.reported runner toolRunId .failed) arrivals)
        (arrivals.foldl (handle cfg svc worker emergency) db) :=
      foldl_inPhase hstatus hadmitted hnew hof.1
    have hbefore := ih hsent.1 hof.1
    rw [List.foldl_concat, filedInTime_concat_iff (job.reported runner toolRunId .failed) rfl]
    generalize arrivals.foldl (handle cfg svc worker emergency) db = db' at *
    obtain ⟨submission, now, evidenceId⟩ := a
    rcases hsent.2 with rfl | ⟨rfl, -⟩ | rfl
    · refine (NothingIngested.congr (submit_ingestCalls rfl db')).trans (hbefore.trans ?_)
      simp [Submission.isEvidence]
    · refine (rawEvidence_ingests_iff hadmitted hphase).trans
        ((and_congr_left' hbefore).trans ?_)
      rw [← not_or, ← and_or_left]
      simp only [Submission.isEvidence, true_and]
    · refine (NothingIngested.congr (submit_ingestCalls rfl db')).trans (hbefore.trans ?_)
      simp [Submission.isEvidence]

/-- **When a run that failed yields no vulnerabilities.** In process it never does. On the lease
path, whatever is lost, repeated or reordered of what the worker sends, it does not if and only if
the manager would find nothing in the output or the output does not arrive in time. -/
theorem failed_run_ingests_nothing_iff
    {capture : List VulnerabilityFinding → Option (List (String × Bytes))} {storeRaises : Bool}
    {inScope : CommonFinding → Bool} {target : ScanTarget} {scan : Scan} {evidenceId : Uuid}
    {completedAt : ℤ} (hfailed : runner.classify raw = .failed)
    (hrow : db.toolRuns toolRunId = none)
    (hunfiled : ∀ e ∈ db.evidence, e.toolRunId ≠ some toolRunId) {arrivals : List Arrival}
    (hsent : ∀ a ∈ arrivals,
      Asks a.submission (runLeasedTool svc capture job runner toolRunId startedAt (.ok raw))) :
    NothingIngested db (runSingleTool svc storeRaises inScope target job.scanId scan runner
        toolRunId evidenceId startedAt completedAt (.ran raw) db).1 ∧
        NothingIngested db (arrivals.foldl (handle cfg svc worker emergency) db) ↔
      ¬ (Yields cfg svc worker emergency db job runner toolRunId raw ∧ FiledInTime arrivals) := by
  rw [and_iff_right (runSingleTool_failed _ _ _ _ _ _ _ _ _ _ hfailed _)]
  exact nothingIngested_iff hrow hunfiled fun a ha => asks_runLeasedTool_failed hfailed (hsent a ha)

/-! ## Two failed runs -/

/-- A line that the tool prints for a finding. -/
def nucleiLine : String := "\x7b\"template-id\":\"t\",\"matched-at\":\"http://h/a\"\x7d"

def nucleiFinding : VulnerabilityFinding where
  fingerprint := "t||http://h/a"
  title := "t"
  severity := "info"
  category := none
  description := none
  cvssVector := none
  cvssScore := none
  matchedAt := some "http://h/a"
  metadata := [("template_id", .str "t"), ("matcher_name", .null), ("cve", .null),
    ("type", .null), ("tags", .null)]

def nucleiFindings (raw : RawToolOutput) : List VulnerabilityFinding :=
  if raw.stdout = nucleiLine then [nucleiFinding] else []

/-- A tool that fails when it reports an error, whatever it has printed before. -/
def strictNuclei : Runner where
  info := ⟨"nuclei", "3.11.0", true, 50, none⟩
  benignExitCodes := []
  hardFailure raw := raw.stderr ≠ ""
  parse _ := some []
  parseVulnerabilities raw := some (nucleiFindings raw)

def failedOutput : RawToolOutput :=
  ⟨"nuclei -u http://h", nucleiLine, "could not execute templates", 1, false⟩

def nucleiServices : Services :=
  .ascii [(nucleiLine.toList.map fun c => UInt8.ofNat c.toNat,
      "7cfdfc671a7134261b0692408f4f76c92a3862a70943a44badc78320c7070f43")]
    fun name raw => some (if name = "nuclei" then nucleiFindings raw else [])

/-- Scan 5 is executed under token 7. -/
def nucleiScan : Db where
  __ := Db.empty
  scans := .ofList [(5, { Scan.created 1 2 3 [("requested_modules", .arr [.str "nuclei"])] 0 with
    status := .running, executionToken := some 7 })]

def nucleiJob : LeasedJob := ⟨5, 7⟩

def nucleiWorker : ScannerWorker := ⟨"w", "public", none, none, .active, none⟩

/-- The worker's tool run 9 of the scan. -/
def failedNuclei : Exchange ToolOutcome :=
  runLeasedTool nucleiServices (fun _ => some []) nucleiJob strictNuclei 9 10 (.ok failedOutput)

/-- When the output of a failed run is lost, nothing is ingested. -/
theorem failed_run_ingests_nothing_lost :
    NothingIngested nucleiScan (runSingleTool nucleiServices false (fun _ => true)
        ⟨"medium", "domain", "h"⟩ nucleiJob.scanId (.created 1 2 3 [] 0) strictNuclei 9 8 10 20
        (.ran failedOutput) nucleiScan).1 ∧
      NothingIngested nucleiScan
        ([⟨.toolStarted (announcement nucleiJob strictNuclei 9 10), 11, 0⟩,
          ⟨.toolResult (runResult nucleiJob strictNuclei 9 10 failedOutput .failed []), 20, 0⟩
          ].foldl (handle ⟨""⟩ nucleiServices nucleiWorker false) nucleiScan) := by
  have hfailed : strictNuclei.classify failedOutput = .failed := by decide
  have hsent : ∀ a ∈ ([⟨.toolStarted (announcement nucleiJob strictNuclei 9 10), 11, 0⟩,
      ⟨.toolResult (runResult nucleiJob strictNuclei 9 10 failedOutput .failed []), 20, 0⟩] :
      List Arrival), Asks a.submission failedNuclei := by
    rintro a (_ | ⟨_, _ | ⟨_, ⟨⟩⟩⟩)
    · exact .here _
    · exact .later (.ok ()) (.later (.ok ()) (.here _))
  refine (failed_run_ingests_nothing_iff hfailed ?_ ?_ hsent).mpr ?_
  · rfl
  · intro e he
    cases he
  · rintro ⟨-, before, a, hprefix, hevidence, -⟩
    have ha := hprefix.subset (List.mem_append_right _ List.mem_cons_self)
    rcases ha with _ | ⟨_, _ | ⟨_, ⟨⟩⟩⟩ <;> cases hevidence

/-- **A failed run whose findings are ingested**: its announcement, its output and its result are
each handled and answered at once. -/
theorem failed_run_ingested :
    strictNuclei.classify failedOutput = .failed ∧
      ((run (serve ⟨""⟩ nucleiServices nucleiWorker false)
          failedNuclei ⟨nucleiScan, [.handled 11 0 true], [.handled 19 8 true],
            [.handled 20 0 true], []⟩).1.db.ingestCalls.map (·.findings)) = [[nucleiFinding]] :=
  ⟨by decide, rfl⟩

end ScanPlatform
