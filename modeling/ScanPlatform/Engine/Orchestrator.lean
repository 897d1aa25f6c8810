import Mathlib.Data.List.Sort
import ScanPlatform.Manager.ToolRuns

/-!
# The in-process tool run

`_run_single_tool`, with which a scan runs a tool in the process that holds the database. Whether
the execution was revoked before the launch, and what the tool returned or raised, is an argument.

The loop of `run_scan` over the tools of a scan, without the planner and the agent, and the status
that it finalizes. What a turn of the loop is given from outside is an argument.

* `Launch`: how the launch of a tool ends;
* `runSingleTool`: one tool run;
* `NothingIngested`: no vulnerability was handed to the pipeline;
* **`runSingleTool_failed`**: the pipeline gets no finding of a run that failed;
* `selectRunners`, `Runner.applicable`: the tools of a scan, in the order of their phases;
* `executionStopReason`: the question between two tools;
* `InProcessTurn`, `runTools`, `scanOutcome`, `runPipeline`: the loop and the aggregate of its
  tools;
* **`runTools_succeeding`**: the statuses of a loop that nothing interrupts.
-/

set_option autoImplicit false

namespace ScanPlatform

open PyStr

inductive Launch where
  | revoked
  /-- The exception as a text. -/
  | raised (reason : String)
  | ran (raw : RawToolOutput)

/-- The target of a scan, as the pipeline is told about it. -/
structure ScanTarget where
  criticality : String
  targetType : String
  targetValue : String

/-- The blob that is stored as the evidence of a run. -/
def outputBlob (raw : RawToolOutput) : String :=
  s!"$ {raw.command}\n\n=== STDOUT ===\n{raw.stdout}\n\n=== STDERR ===\n{raw.stderr}\n"

/-- `error_message` of a run that returned. -/
def runError (raw : RawToolOutput) (status : RunStatus) (storageFailed : Bool) : Option String :=
  let tail := lastOf 1000 (strip raw.stderr)
  let reason := if tail = "" then "" else s!": {tail}"
  let message := match status with
    | .completed => ""
    | .partialRun => s!"non-zero exit {raw.exitCode}; partial results kept{reason}"
    | .failed => s!"exit code {raw.exitCode}{reason}"
  let note := "evidence storage unavailable (raw output not persisted)"
  if storageFailed then some (if message = "" then note else s!"{message}; {note}")
  else if status = .completed then none else some message

/-- A finding with the decision about its scope and the tool run that discovered it. -/
def tagFinding (runner : Runner) (toolRunId : Uuid) (inScope : CommonFinding → Bool)
    (finding : CommonFinding) : CommonFinding :=
  { finding with
    metadata := (((finding.metadata.set "in_scope" (.bool (inScope finding))).set
      "discovered_by_tool" (.str runner.info.name)).set
      "discovered_by_tool_version" (.str runner.info.version)).set
      "discovered_in_tool_run" (.str (Uuid.str toolRunId)) }

/-- `_run_single_tool`; `storeRaises` is whether the object store raises. An exception of
`upsert_asset` is not caught and takes the open transaction with it. -/
def runSingleTool (svc : Services) (storeRaises : Bool) (inScope : CommonFinding → Bool)
    (target : ScanTarget) (scanId : Uuid) (scan : Scan) (runner : Runner)
    (toolRunId evidenceId : Uuid) (startedAt completedAt : ℤ) (launch : Launch) (db : Db) :
    Db × Except Fault (List CommonFinding × RunStatus) :=
  let opened : ToolRun := {
    scanId
    toolName := runner.info.name
    toolVersion := runner.info.version
    status := .running
    commandHash := ""
    effectiveCommand := none
    timedOut := false
    startedAt
    completedAt := none
    exitCode := none
    rawOutputRef := none
    errorMessage := none }
  let db := { db with toolRuns := db.toolRuns.set toolRunId opened }
  match launch with
  | .revoked =>
    ({ db with toolRuns := db.toolRuns.set toolRunId { opened with
        status := .abandonedRevoked
        completedAt := some completedAt
        errorMessage := some
          "execution superseded before launch (graceful-shutdown requeue)" } },
      .error (.raised "ExecutionRevoked"))
  | .raised reason =>
    ({ db with toolRuns := db.toolRuns.set toolRunId { opened with
        status := .failed
        completedAt := some completedAt
        errorMessage := some (upTo 2000 reason) } },
      .ok ([], .failed))
  | .ran raw =>
    let blob := svc.encode (outputBlob raw)
    let owner := Uuid.str toolRunId
    let uri := if storeRaises then s!"unavailable://evidence-storage-failed/{owner}"
      else s!"s3://{svc.bucket}/tool-runs/{owner}/raw-output.txt"
    let db := if storeRaises then db else { db with objects := db.objects.set uri blob }
    let classified := runner.classify raw
    let status :=
      if storeRaises ∧ classified = .completed then RunStatus.partialRun else classified
    let findings :=
      (if status = .failed then [] else runner.findings raw).map
        (tagFinding runner toolRunId inScope)
    let vulnFindings := if status = .failed then [] else runner.vulnFindings raw
    let upserts := findings.map fun finding =>
      AssetUpsert.mk scan.projectId scan.targetId (.str finding.assetType) (.str finding.value)
        (.obj finding.metadata)
    if upserts.any svc.upsertRaises then (db, .error (.raised "upsert_asset"))
    else
      ({ db with
          toolRuns := db.toolRuns.set toolRunId { opened with
            status := status.toolStatus
            commandHash := svc.sha256 (svc.encode raw.command)
            effectiveCommand := some raw.command
            timedOut := raw.timedOut
            completedAt := some completedAt
            exitCode := some raw.exitCode
            rawOutputRef := some uri
            errorMessage := runError raw status storeRaises }
          evidence := db.evidence ++ [{
            id := evidenceId
            toolRunId := some toolRunId
            evidenceType := "log_excerpt"
            storageUri := uri
            checksum := if storeRaises then "" else svc.sha256 blob }]
          assets := db.assets ++ upserts
          ingestCalls := db.ingestCalls ++ [{
            scanId, findings := vulnFindings, toolRunId, evidenceId
            criticality := target.criticality
            targetType := target.targetType
            targetValue := target.targetValue }] },
        .ok (findings, status))

/-! ## Runs that failed -/

/-- The vulnerability pipeline was called without findings only. -/
def NothingIngested (db db' : Db) : Prop :=
  ∃ new, db'.ingestCalls = db.ingestCalls ++ new ∧ ∀ call ∈ new, call.findings = []

theorem NothingIngested.of_eq {db db' : Db} (h : db'.ingestCalls = db.ingestCalls) :
    NothingIngested db db' :=
  ⟨[], by rw [h, List.append_nil], List.forall_mem_nil _⟩

/-- **The pipeline gets no finding of a run that failed.** -/
theorem runSingleTool_failed (svc : Services) (storeRaises : Bool)
    (inScope : CommonFinding → Bool) (target : ScanTarget) (scanId : Uuid) (scan : Scan)
    {runner : Runner} (toolRunId evidenceId : Uuid) (startedAt completedAt : ℤ)
    {raw : RawToolOutput} (hfailed : runner.classify raw = .failed) (db : Db) :
    NothingIngested db (runSingleTool svc storeRaises inScope target scanId scan runner toolRunId
      evidenceId startedAt completedAt (.ran raw) db).1 := by
  have hstatus : (if storeRaises ∧ runner.classify raw = .completed then RunStatus.partialRun
      else runner.classify raw) = .failed := by
    rw [hfailed]
    exact if_neg fun h => RunStatus.noConfusion h.2
  simp only [runSingleTool, hstatus, if_true, List.map_nil, List.any_nil, Bool.false_eq_true,
    if_false]
  refine ⟨[⟨scanId, [], toolRunId, evidenceId, target.criticality, target.targetType,
    target.targetValue⟩], ?_, List.forall_mem_singleton.mpr rfl⟩
  cases storeRaises <;> rfl

end ScanPlatform

/-! ## The in-process pipeline -/

namespace ScanPlatform

/-! ## Which tools run -/

/-- `[TOOL_REGISTRY[m]() for m in requested if m in TOOL_REGISTRY]`, sorted by phase; the sort is
stable, as Python's is. -/
def selectRunners (registry : String → Option Runner) (requested : List String) : List Runner :=
  (requested.filterMap registry).insertionSort fun a b => a.info.phase ≤ b.info.phase

theorem selectRunners_perm (registry : String → Option Runner) (requested : List String) :
    (selectRunners registry requested).Perm (requested.filterMap registry) :=
  List.perm_insertionSort _ _

theorem selectRunners_sorted (registry : String → Option Runner) (requested : List String) :
    (selectRunners registry requested).Pairwise fun a b => a.info.phase ≤ b.info.phase := by
  have : Std.Total fun a b : Runner => a.info.phase ≤ b.info.phase := ⟨fun a b => Nat.le_total _ _⟩
  have : IsTrans Runner fun a b => a.info.phase ≤ b.info.phase := ⟨fun a b c => Nat.le_trans⟩
  exact List.pairwise_insertionSort _ _

/-- The tool runs against targets of the type; `none` is a target that is gone. -/
def Runner.applicable (runner : Runner) (targetType : Option String) : Bool :=
  match runner.info.applicableTargetTypes with
  | none => true
  | some types => targetType.any (· ∈ types)

/-! ## The loop -/

inductive StopReason where
  | cancelled
  | revoked
  deriving DecidableEq

/-- `_execution_stop_reason`. -/
def executionStopReason (db : Db) (scanId executionToken : Uuid) : Option StopReason :=
  match db.scans scanId with
  | none => some .revoked
  | some scan =>
    if scan.status = .cancelled then some .cancelled
    else if scan.status ≠ .running ∨ scan.executionToken ≠ some executionToken then some .revoked
    else none

/-- What a turn of the loop is given: new ids, the clock, the object store and the run of the
tool. -/
structure InProcessTurn where
  toolRunId : Uuid
  evidenceId : Uuid
  startedAt : ℤ
  completedAt : ℤ
  storeRaises : Bool
  inScope : CommonFinding → Bool
  launch : Launch

/-- The row of a tool that the scope of its target does not allow. -/
def skippedRun (scanId : Uuid) (runner : Runner) (turn : InProcessTurn) : ToolRun where
  scanId
  toolName := runner.info.name
  toolVersion := runner.info.version
  status := .skippedUnauthorized
  commandHash := ""
  effectiveCommand := none
  timedOut := false
  startedAt := turn.startedAt
  completedAt := some turn.completedAt
  exitCode := none
  rawOutputRef := none
  errorMessage := none

/-- The execution of a scan that a pipeline works for. -/
structure ScanExecution where
  scanId : Uuid
  executionToken : Uuid
  scan : Scan
  target : ScanTarget
  activeTestingAllowed : Bool

/-- The loop of `run_scan` over its runners, each with its position, at which `turns` gives its
turn; `statuses` are those of the tools that ran. A revocation ends the loop with an exception. -/
def runTools (svc : Services) (e : ScanExecution) (turns : ℕ → InProcessTurn) : List (Runner × ℕ) →
    List RunStatus → Db → Db × Except Fault (List RunStatus)
  | [], statuses, db => (db, .ok statuses)
  | (runner, i) :: rest, statuses, db =>
    match executionStopReason db e.scanId e.executionToken with
    | some .cancelled => (db, .ok statuses)
    | some .revoked => (db, .error (.raised "ExecutionRevoked"))
    | none =>
      let turn := turns i
      if runner.applicable (some e.target.targetType) = false then
        runTools svc e turns rest statuses db
      else if runner.info.requiresActiveTesting ∧ ¬ e.activeTestingAllowed then
        runTools svc e turns rest statuses
          { db with toolRuns := db.toolRuns.set turn.toolRunId (skippedRun e.scanId runner turn) }
      else
        match runSingleTool svc turn.storeRaises turn.inScope e.target e.scanId e.scan runner
          turn.toolRunId turn.evidenceId turn.startedAt turn.completedAt turn.launch db with
        | (db, .error fault) => (db, .error fault)
        | (db, .ok (_, status)) => runTools svc e turns rest (statuses ++ [status]) db

/-- `new_status`: the aggregate over the tools that ran. -/
def scanOutcome (statuses : List RunStatus) : TerminalStatus :=
  if statuses ≠ [] ∧ ∀ s ∈ statuses, s = .failed then ⟨.failed, failed_terminal⟩
  else if ∃ s ∈ statuses, s = .failed ∨ s = .partialRun then
    ⟨.completedWithErrors, completedWithErrors_terminal⟩
  else ⟨.completed, completed_terminal⟩

/-- The status that `run_scan` finalizes after its pipeline. -/
def runPipeline (svc : Services) (e : ScanExecution) (registry : String → Option Runner)
    (requested : List String) (turns : ℕ → InProcessTurn) (db : Db) :
    Db × Except Fault TerminalStatus :=
  let (db, statuses) := runTools svc e turns (selectRunners registry requested).zipIdx [] db
  (db, statuses.map scanOutcome)

/-! ## A loop that nothing interrupts -/

/-- The launch of a tool that returns or raises. -/
def Launch.ofRun : Except String RawToolOutput → Launch
  | .error reason => .raised reason
  | .ok raw => .ran raw

/-- The status of a tool run whose output could be stored. -/
def Runner.runStatus (runner : Runner) : Except String RawToolOutput → RunStatus
  | .error _ => .failed
  | .ok raw => runner.classify raw

/-- The object store and the assets take what the turn writes. -/
structure InProcessTurn.Succeeds (svc : Services) (run : Except String RawToolOutput)
    (turn : InProcessTurn) : Prop where
  launch : turn.launch = .ofRun run
  stored : turn.storeRaises = false
  upserted : ∀ upsert, svc.upsertRaises upsert = false

variable {svc : Services} {e : ScanExecution}

theorem runSingleTool_succeeding (e : ScanExecution) (runner : Runner) {turn : InProcessTurn}
    {run : Except String RawToolOutput} (h : turn.Succeeds svc run) (db : Db) :
    (∃ findings, (runSingleTool svc turn.storeRaises turn.inScope e.target e.scanId e.scan runner
      turn.toolRunId turn.evidenceId turn.startedAt turn.completedAt turn.launch db).2 =
        .ok (findings, runner.runStatus run)) ∧
    (runSingleTool svc turn.storeRaises turn.inScope e.target e.scanId e.scan runner
      turn.toolRunId turn.evidenceId turn.startedAt turn.completedAt turn.launch db).1.scans =
        db.scans := by
  have hnone : ∀ us : List AssetUpsert, us.any svc.upsertRaises = false := fun us =>
    List.any_eq_false.mpr fun u _ => by simp [h.upserted u]
  rw [h.launch, h.stored]
  cases run with
  | error reason => exact ⟨⟨_, rfl⟩, rfl⟩
  | ok raw =>
    simp only [runSingleTool, Launch.ofRun, hnone, Bool.false_eq_true, if_false, false_and]
    exact ⟨⟨_, rfl⟩, trivial⟩

/-- **A loop that nothing interrupts** runs every tool that applies, each with its own status. -/
theorem runTools_succeeding (hactive : e.activeTestingAllowed = true) {turns : ℕ → InProcessTurn}
    {runs : ℕ → Except String RawToolOutput} (hturns : ∀ i, (turns i).Succeeds svc (runs i))
    (runners : List (Runner × ℕ)) (statuses : List RunStatus) {db : Db}
    (hstop : executionStopReason db e.scanId e.executionToken = none) :
    (runTools svc e turns runners statuses db).2 = .ok (statuses ++
      (runners.filter fun r => r.1.applicable (some e.target.targetType)).map
        fun r => r.1.runStatus (runs r.2)) := by
  induction runners generalizing statuses db with
  | nil => simp [runTools]
  | cons r runners ih =>
    obtain ⟨runner, i⟩ := r
    simp only [runTools, hstop]
    by_cases happ : runner.applicable (some e.target.targetType) = true
    · obtain ⟨⟨findings, hout⟩, hscans⟩ :=
        runSingleTool_succeeding e runner (hturns i) db
      rw [if_neg (by simp [happ]), if_neg (by simp [hactive])]
      simp only [List.filter_cons, happ, if_true, List.map_cons]
      rw [List.append_cons]
      rcases hrun : runSingleTool svc (turns i).storeRaises (turns i).inScope e.target e.scanId
        e.scan runner (turns i).toolRunId (turns i).evidenceId (turns i).startedAt
        (turns i).completedAt (turns i).launch db with ⟨db', out⟩
      rw [hrun] at hout hscans
      simp only at hout hscans
      rw [hout]
      refine ih _ ?_
      unfold executionStopReason at hstop ⊢
      rw [hscans]
      exact hstop
    · rw [if_pos (by simpa using happ), ih statuses hstop]
      simp only [List.filter_cons, happ, Bool.false_eq_true, if_false]

end ScanPlatform
