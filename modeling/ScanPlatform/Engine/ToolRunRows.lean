import ScanPlatform.Base.CondMachine
import ScanPlatform.Engine.Orchestrator

/-!
# The row of an in-process tool run

`_run_single_tool` commits more than once: it inserts its row, looks again whether the execution
still owns the scan, and writes the outcome of the tool at the end. Here each write is a function
of the row.

* `openedRun`, `abandonRun`, `failRun`, `finishRun`, `endRun`: the writes;
* **`runSingleTool_row`**: the tool run is its insertion followed by its ending;
* `reconcileOrphanedToolRuns`: the sweep over the rows of scans that have ended;
* `Scan.stopReason`, `aggregateStatus`: the question between two tools, and the status of a scan;
* `aggregateStatus_completed_iff`: when a scan is completed.
-/

set_option autoImplicit false

namespace ScanPlatform

open PyStr CondMachine

/-! ## The writes -/

/-- The row that `_run_single_tool` inserts. -/
def openedRun (scanId : Uuid) (runner : Runner) (startedAt : ℤ) : ToolRun where
  scanId
  toolName := runner.info.name
  toolVersion := runner.info.version
  status := .running
  commandHash := ""
  effectiveCommand := none
  timedOut := false
  startedAt
  completedAt := none
  exitCode := none
  rawOutputRef := none
  errorMessage := none

def abandonRun (completedAt : ℤ) (run : ToolRun) : ToolRun :=
  { run with
    status := .abandonedRevoked
    completedAt := some completedAt
    errorMessage := some "execution superseded before launch (graceful-shutdown requeue)" }

def failRun (completedAt : ℤ) (reason : String) (run : ToolRun) : ToolRun :=
  { run with
    status := .failed
    completedAt := some completedAt
    errorMessage := some (upTo 2000 reason) }

/-- The status of a tool that returned. -/
def returnedStatus (storeRaises : Bool) (runner : Runner) (raw : RawToolOutput) : RunStatus :=
  if storeRaises ∧ runner.classify raw = .completed then .partialRun else runner.classify raw

/-- A message that is not set leaves the one that the row has. -/
def finishRun (svc : Services) (storeRaises : Bool) (runner : Runner) (toolRunId : Uuid)
    (completedAt : ℤ) (raw : RawToolOutput) (run : ToolRun) : ToolRun :=
  let status := returnedStatus storeRaises runner raw
  let owner := Uuid.str toolRunId
  { run with
    status := status.toolStatus
    commandHash := svc.sha256 (svc.encode raw.command)
    effectiveCommand := some raw.command
    timedOut := raw.timedOut
    completedAt := some completedAt
    exitCode := some raw.exitCode
    rawOutputRef := some (if storeRaises then s!"unavailable://evidence-storage-failed/{owner}"
      else s!"s3://{svc.bucket}/tool-runs/{owner}/raw-output.txt")
    errorMessage := (runError raw status storeRaises).or run.errorMessage }

/-- What the launch of a tool leaves in its row, and what `_run_single_tool` returns for it. -/
def endRun (svc : Services) (storeRaises upserted : Bool) (runner : Runner) (toolRunId : Uuid)
    (completedAt : ℤ) (launch : Launch) (run : ToolRun) : ToolRun × Except Fault RunStatus :=
  match launch with
  | .revoked => (abandonRun completedAt run, .error (.raised "ExecutionRevoked"))
  | .raised reason => (failRun completedAt reason run, .ok .failed)
  | .ran raw =>
    if upserted then
      (finishRun svc storeRaises runner toolRunId completedAt raw run,
        .ok (returnedStatus storeRaises runner raw))
    else (run, .error (.raised "upsert_asset"))

/-- **The tool run is its insertion followed by its ending.** -/
theorem runSingleTool_row (svc : Services) (storeRaises : Bool) (inScope : CommonFinding → Bool)
    (target : ScanTarget) (scanId : Uuid) (scan : Scan) (runner : Runner)
    (toolRunId evidenceId : Uuid) (startedAt completedAt : ℤ) (launch : Launch) (db : Db) :
    ∃ upserted,
      (runSingleTool svc storeRaises inScope target scanId scan runner toolRunId evidenceId
          startedAt completedAt launch db).1.toolRuns =
        db.toolRuns.set toolRunId (endRun svc storeRaises upserted runner toolRunId completedAt
          launch (openedRun scanId runner startedAt)).1 ∧
      (runSingleTool svc storeRaises inScope target scanId scan runner toolRunId evidenceId
          startedAt completedAt launch db).2.map Prod.snd =
        (endRun svc storeRaises upserted runner toolRunId completedAt launch
          (openedRun scanId runner startedAt)).2 := by
  have hset : ∀ (t : Table Uuid ToolRun) (a b : ToolRun),
      (t.set toolRunId a).set toolRunId b = t.set toolRunId b := fun t a b =>
    Function.update_idem ..
  cases launch with
  | revoked => exact ⟨true, hset _ _ _, rfl⟩
  | raised reason => exact ⟨true, hset _ _ _, rfl⟩
  | ran raw =>
    have hor : ∀ m : Option String, m.or none = m := fun m => Option.or_none
    -- the exception of `upsert_asset` is the only branch in which the last write is missing
    by_cases hstored : storeRaises = true ∧ runner.classify raw = .completed
    · simp only [runSingleTool, endRun, finishRun, returnedStatus, hstored, hor, openedRun,
        and_self, if_true]
      generalize List.any _ svc.upsertRaises = upsertRaised
      cases upsertRaised with
      | true => exact ⟨false, rfl, rfl⟩
      | false => exact ⟨true, hset _ _ _, rfl⟩
    · simp only [runSingleTool, endRun, finishRun, returnedStatus, if_neg hstored, hor, openedRun]
      generalize List.any _ svc.upsertRaises = upsertRaised
      cases upsertRaised with
      | true => exact ⟨false, by cases storeRaises <;> rfl, rfl⟩
      | false => exact ⟨true, by cases storeRaises <;> exact hset _ _ _, rfl⟩

/-- The loop's row of a tool that the scope does not allow. -/
theorem skippedRun_eq (scanId : Uuid) (runner : Runner) (turn : InProcessTurn) :
    skippedRun scanId runner turn = { openedRun scanId runner turn.startedAt with
      status := .skippedUnauthorized
      completedAt := some turn.completedAt } :=
  rfl

/-! ## The sweep -/

/-- `reconcile_orphaned_tool_runs` at one row of a scan. -/
def reconcileOrphanedToolRuns (now graceSeconds : ℤ) (scan : Scan) (run : ToolRun) :
    Option ToolRun :=
  let ended := scan.completedAt.or scan.startedAt
  if run.status = .running ∧ scan.status ∈ terminalStatuses ∧
      ended.any fun t => t < now - graceSeconds * second then
    some { run with
      status := .failed
      completedAt := run.completedAt.or (some now)
      errorMessage := run.errorMessage.or (some (
        s!"orphaned: parent scan reached a terminal status more than {graceSeconds}s " ++
        "ago while this tool run was still 'running'; no result was ever recorded for it")) }
  else none

theorem reconcileOrphanedToolRuns_status {now graceSeconds : ℤ} {scan : Scan} {run run' : ToolRun}
    (h : reconcileOrphanedToolRuns now graceSeconds scan run = some run') :
    run.status = .running ∧ run'.status = .failed := by
  obtain ⟨⟨hrunning, -⟩, rfl⟩ := guarded_eq_some.mp h
  exact ⟨hrunning, rfl⟩

/-! ## Between the tools -/

/-- `_execution_stop_reason` on the row of the scan. -/
def Scan.stopReason (executionToken : Uuid) (scan : Scan) : Option StopReason :=
  if scan.status = .cancelled then some .cancelled
  else if scan.status ≠ .running ∨ scan.executionToken ≠ some executionToken then some .revoked
  else none

theorem executionStopReason_eq (db : Db) (scanId executionToken : Uuid) :
    executionStopReason db scanId executionToken =
      (db.scans scanId).elim (some .revoked) (Scan.stopReason executionToken) := by
  unfold executionStopReason
  cases db.scans scanId <;> rfl

/-- `new_status`, over the statuses as they are in the rows. -/
def aggregateStatus (statuses : List ToolStatus) : TerminalStatus :=
  if statuses ≠ [] ∧ ∀ s ∈ statuses, s = .failed then ⟨.failed, failed_terminal⟩
  else if ∃ s ∈ statuses, s = .failed ∨ s = .partialRun then
    ⟨.completedWithErrors, completedWithErrors_terminal⟩
  else ⟨.completed, completed_terminal⟩

/-- The statuses of tools that ran aggregate as `scanOutcome` says. -/
theorem aggregateStatus_map (statuses : List RunStatus) :
    aggregateStatus (statuses.map RunStatus.toolStatus) = scanOutcome statuses := by
  have hfailed : ∀ s : RunStatus, s.toolStatus = .failed ↔ s = .failed := by
    intro s
    cases s <;> simp [RunStatus.toolStatus]
  have hpartial : ∀ s : RunStatus, s.toolStatus = .partialRun ↔ s = .partialRun := by
    intro s
    cases s <;> simp [RunStatus.toolStatus]
  have hsome : (∃ s ∈ statuses.map RunStatus.toolStatus, s = .failed ∨ s = .partialRun) ↔
      ∃ s ∈ statuses, s = .failed ∨ s = .partialRun := by
    simp [hfailed, hpartial]
  simp only [aggregateStatus, scanOutcome, ne_eq, List.map_eq_nil_iff, List.forall_mem_map,
    hfailed, hsome]

/-- A scan is completed when no status says that a tool failed or ran in part. -/
theorem aggregateStatus_completed_iff (statuses : List ToolStatus) :
    (aggregateStatus statuses).1 = .completed ↔
      ∀ s ∈ statuses, s ≠ .failed ∧ s ≠ .partialRun := by
  unfold aggregateStatus
  split_ifs with hall hsome
  · obtain ⟨hne, hall⟩ := hall
    have ⟨s, hs⟩ := List.exists_mem_of_ne_nil _ hne
    refine iff_of_false id fun h => ?_
    exact (h s hs).1 (hall s hs)
  · obtain ⟨s, hs, hbad⟩ := hsome
    refine iff_of_false id fun h => ?_
    exact hbad.elim (h s hs).1 (h s hs).2
  · refine iff_of_true rfl fun s hs => ?_
    exact ⟨fun h => hsome ⟨s, hs, .inl h⟩, fun h => hsome ⟨s, hs, .inr h⟩⟩

end ScanPlatform
