import Mathlib.Data.Int.Notation
import ScanPlatform.Base.CondMachine
import ScanPlatform.Base.Json
import ScanPlatform.Base.Uuid

/-!
# Scan rows and the updates of their lifecycle

A row of `scans` and the conditional UPDATEs that move it. Each update is one statement: `none`
when its WHERE clause does not match the row.

* `Scan`: the columns that execution reads or writes;
* `claimScan`, `finalizeStatus`, `reapOrphanedScans`, `cancelScan`, `requeueScan`,
  `stampHeartbeat`: the updates, one statement each;
* `ScanStep`, `scanStep`: the updates as steps of one row;
* `claimScan_eq_some` and its siblings: what each step requires of the row and what it writes;
* `claim_of_failed`, `failed_of_running`: how a row leaves `failed`, and how it gets there.
-/

set_option autoImplicit false

namespace ScanPlatform

/-- Times are microseconds since the epoch, the precision of a `DATETIME(6)` column. -/
def second : ℤ := 1000000

/-- MySQL's `now()`, which has no fractional digits; `now(6)` is the time itself. -/
def sqlNow (now : ℤ) : ℤ := now - now % second

theorem lt_sqlNow_add (now : ℤ) : now < sqlNow now + second := by
  simp only [sqlNow, second]; omega

inductive ScanStatus where
  | queued
  | running
  | completed
  | completedWithErrors
  | failed
  | cancelled
  deriving DecidableEq

/-- `_TERMINAL_STATUSES`. -/
def terminalStatuses : List ScanStatus := [.completed, .completedWithErrors, .failed, .cancelled]

/-- A status that a terminal write may install. -/
abbrev TerminalStatus := { st : ScanStatus // st ∈ terminalStatuses }

theorem completed_terminal : ScanStatus.completed ∈ terminalStatuses := by decide

theorem completedWithErrors_terminal : ScanStatus.completedWithErrors ∈ terminalStatuses := by
  decide

theorem failed_terminal : ScanStatus.failed ∈ terminalStatuses := by decide

/-- A row of `scans`. -/
structure Scan where
  workspaceId : Uuid
  projectId : Uuid
  targetId : Uuid
  status : ScanStatus
  config : Json.Object
  celeryTaskId : Option String
  /-- Which execution owns the scan. -/
  executionToken : Option Uuid
  queuedAt : Option ℤ
  startedAt : Option ℤ
  lastHeartbeatAt : Option ℤ
  completedAt : Option ℤ

/-- The row that `create_scan` inserts, dispatched by lease. -/
def Scan.created (workspaceId projectId targetId : Uuid) (config : Json.Object) (now : ℤ) :
    Scan where
  workspaceId
  projectId
  targetId
  status := .queued
  config
  celeryTaskId := none
  executionToken := none
  queuedAt := some now
  startedAt := none
  lastHeartbeatAt := none
  completedAt := none

/-! ## The updates -/

/-- `_claim_scan`. -/
def claimScan (now : ℤ) (executionToken : Uuid) (s : Scan) : Option Scan :=
  if s.status = .queued ∨ s.status = .failed then
    some { s with
      status := .running, startedAt := some (sqlNow now), executionToken := some executionToken }
  else none

/-- `_finalize_status`; `_fail_scan` is this update with the status `failed`. -/
def finalizeStatus (now : ℤ) (newStatus : ScanStatus) (executionToken : Uuid) (s : Scan) :
    Option Scan :=
  if s.status = .running ∧ s.executionToken = some executionToken then
    some { s with
      status := newStatus, completedAt := some (sqlNow now), executionToken := none }
  else none

/-- `last_heartbeat_at`, and `started_at` for a scan that never stamped one, against the cutoffs
of the reaper. -/
def Scan.orphaned (now : ℤ) (timeoutSeconds staleSeconds : ℤ) (s : Scan) : Prop :=
  (∃ h ∈ s.lastHeartbeatAt, h < now - staleSeconds * second) ∨
    s.lastHeartbeatAt = none ∧ ∃ t ∈ s.startedAt, t < now - timeoutSeconds * second

instance (now : ℤ) (timeoutSeconds staleSeconds : ℤ) (s : Scan) :
    Decidable (s.orphaned now timeoutSeconds staleSeconds) := by
  unfold Scan.orphaned; infer_instance

/-- What the reaper merges into `config`; a time in it is in seconds since the epoch. -/
def recoveryPatch (now : ℤ) (timeoutSeconds staleSeconds : ℤ) : Json.Value :=
  .obj [("recovery", .obj [
    ("reason", .str (s!"orphaned: no executor heartbeat for {staleSeconds}s (falling back to a " ++
      s!"{timeoutSeconds}s age limit for a scan that never heartbeat); worker/process presumed " ++
      "dead")),
    ("recovered_at", .num now 6),
    ("stale_heartbeat_seconds", .num staleSeconds 0),
    ("running_timeout_seconds", .num timeoutSeconds 0)])]

/-- `reap_orphaned_scans` at one row. -/
def reapOrphanedScans (now : ℤ) (timeoutSeconds : ℤ) (staleHeartbeatSeconds : Option ℤ)
    (s : Scan) : Option Scan :=
  let stale := staleHeartbeatSeconds.getD timeoutSeconds
  if s.status = .running ∧ s.orphaned now timeoutSeconds stale then
    some { s with
      status := .failed, completedAt := some now, executionToken := none
      config := (Json.mergePatch (.obj s.config) (recoveryPatch now timeoutSeconds stale)).members }
  else none

/-- The update of `cancel_scan`. -/
def cancelScan (now : ℤ) (s : Scan) : Option Scan :=
  if s.status ∉ terminalStatuses then
    some { s with status := .cancelled, completedAt := some now, executionToken := none }
  else none

/-- `requeue_scan`. -/
def requeueScan (now : ℤ) (s : Scan) : Option Scan :=
  if s.status = .running then
    some { s with
      status := .queued, startedAt := none, celeryTaskId := none, executionToken := none
      queuedAt := some (sqlNow now) }
  else none

/-- `_stamp_heartbeat`; a caller without a token stamps unfenced. -/
def stampHeartbeat (now : ℤ) (executionToken : Option Uuid) (s : Scan) : Option Scan :=
  if s.status = .running ∧ (executionToken.isSome → s.executionToken = executionToken) then
    some { s with lastHeartbeatAt := some now }
  else none

/-! ## The updates as steps of one row -/

inductive ScanStep where
  | claim (now : ℤ) (executionToken : Uuid)
  | finalize (now : ℤ) (newStatus : TerminalStatus) (executionToken : Uuid)
  | reap (now : ℤ) (timeoutSeconds : ℤ) (staleHeartbeatSeconds : Option ℤ)
  | cancel (now : ℤ)
  | requeue (now : ℤ)
  | heartbeat (now : ℤ) (executionToken : Option Uuid)

/-- When the statement is executed. -/
def ScanStep.now : ScanStep → ℤ
  | .claim now _ | .finalize now _ _ | .reap now _ _ | .cancel now | .requeue now
  | .heartbeat now _ => now

def scanStep : ScanStep → Scan → Option Scan
  | .claim now tok => claimScan now tok
  | .finalize now st tok => finalizeStatus now st tok
  | .reap now timeout stale => reapOrphanedScans now timeout stale
  | .cancel now => cancelScan now
  | .requeue now => requeueScan now
  | .heartbeat now tok => stampHeartbeat now tok

theorem claimScan_eq_some {now : ℤ} {tok : Uuid} {s s' : Scan} :
    claimScan now tok s = some s' ↔ (s.status = .queued ∨ s.status = .failed) ∧
      s' = { s with
        status := .running, startedAt := some (sqlNow now), executionToken := some tok } :=
  CondMachine.guarded_eq_some

theorem finalizeStatus_eq_some {now : ℤ} {st : ScanStatus} {tok : Uuid} {s s' : Scan} :
    finalizeStatus now st tok s = some s' ↔
      (s.status = .running ∧ s.executionToken = some tok) ∧
      s' = { s with
        status := st, completedAt := some (sqlNow now), executionToken := none } :=
  CondMachine.guarded_eq_some

theorem reapOrphanedScans_eq_some {now : ℤ} {timeout : ℤ} {stale : Option ℤ} {s s' : Scan} :
    reapOrphanedScans now timeout stale s = some s' ↔
      (s.status = .running ∧ s.orphaned now timeout (stale.getD timeout)) ∧
      s' = { s with
        status := .failed, completedAt := some now, executionToken := none
        config := (Json.mergePatch (.obj s.config)
          (recoveryPatch now timeout (stale.getD timeout))).members } :=
  CondMachine.guarded_eq_some

theorem cancelScan_eq_some {now : ℤ} {s s' : Scan} :
    cancelScan now s = some s' ↔ s.status ∉ terminalStatuses ∧
      s' = { s with status := .cancelled, completedAt := some now, executionToken := none } :=
  CondMachine.guarded_eq_some

theorem requeueScan_eq_some {now : ℤ} {s s' : Scan} :
    requeueScan now s = some s' ↔ s.status = .running ∧
      s' = { s with
        status := .queued, startedAt := none, celeryTaskId := none, executionToken := none
        queuedAt := some (sqlNow now) } :=
  CondMachine.guarded_eq_some

theorem stampHeartbeat_eq_some {now : ℤ} {tok : Option Uuid} {s s' : Scan} :
    stampHeartbeat now tok s = some s' ↔
      (s.status = .running ∧ (tok.isSome → s.executionToken = tok)) ∧
      s' = { s with lastHeartbeatAt := some now } :=
  CondMachine.guarded_eq_some

/-! ## Failed rows -/

/-- Only a claim updates a failed row. -/
theorem claim_of_failed {b : ScanStep} {s s' : Scan} (hfailed : s.status = .failed)
    (h : scanStep b s = some s') : ∃ now tok, b = .claim now tok := by
  have hnot : s.status ≠ .running := by
    rw [hfailed]
    decide
  cases b with
  | claim now tok => exact ⟨now, tok, rfl⟩
  | finalize now st tok => exact absurd (finalizeStatus_eq_some.mp h).1.1 hnot
  | reap now timeout stale => exact absurd (reapOrphanedScans_eq_some.mp h).1.1 hnot
  | cancel now =>
    have hopen := (cancelScan_eq_some.mp h).1
    rw [hfailed] at hopen
    exact absurd (by decide) hopen
  | requeue now => exact absurd (requeueScan_eq_some.mp h).1 hnot
  | heartbeat now tok => exact absurd (stampHeartbeat_eq_some.mp h).1.1 hnot

/-- A terminal write fails a running row, or the reaper does. -/
theorem failed_of_running {b : ScanStep} {s s' : Scan} (hfailed : s'.status = .failed)
    (h : scanStep b s = some s') : s.status = .running ∧
      ((∃ now st tok, b = .finalize now st tok ∧ st.1 = .failed) ∨
        ∃ now timeout stale, b = .reap now timeout stale) := by
  cases b with
  | claim now tok =>
    rw [(claimScan_eq_some.mp h).2] at hfailed
    cases hfailed
  | finalize now st tok =>
    obtain ⟨⟨hrunning, -⟩, rfl⟩ := finalizeStatus_eq_some.mp h
    exact ⟨hrunning, .inl ⟨now, st, tok, rfl, hfailed⟩⟩
  | reap now timeout stale =>
    exact ⟨(reapOrphanedScans_eq_some.mp h).1.1, .inr ⟨now, timeout, stale, rfl⟩⟩
  | cancel now =>
    rw [(cancelScan_eq_some.mp h).2] at hfailed
    cases hfailed
  | requeue now =>
    rw [(requeueScan_eq_some.mp h).2] at hfailed
    cases hfailed
  | heartbeat now tok =>
    obtain ⟨⟨hrunning, -⟩, rfl⟩ := stampHeartbeat_eq_some.mp h
    have hstatus : s.status = .failed := hfailed
    rw [hrunning] at hstatus
    cases hstatus

/-! ## What a step does to the configuration -/

/-- The reaper's mark: `JSON_EXTRACT(config, '$."recovery"') IS NOT NULL`. -/
def Scan.hasRecovery (s : Scan) : Bool := (s.config.get "recovery").isSome

/-- **The reaper leaves its mark** and every other member of `config` as it was. -/
theorem reapOrphanedScans_config {now : ℤ} {timeout : ℤ} {stale : Option ℤ} {s s' : Scan}
    (h : reapOrphanedScans now timeout stale s = some s') :
    s'.hasRecovery = true ∧ ∀ k ≠ "recovery", s'.config.get k = s.config.get k := by
  obtain ⟨-, rfl⟩ := reapOrphanedScans_eq_some.mp h
  simp only [Scan.hasRecovery, recoveryPatch, Json.mergePatch, Json.Value.members]
  constructor
  · obtain ⟨old, hold⟩ := Json.get_mergeMembers_of_mem (p := [("recovery", .obj _)])
      (List.pairwise_singleton _ _) Json.Value.noConfusion List.mem_cons_self s.config
    rw [hold]
    rfl
  · intro k hk
    exact Json.get_mergeMembers_of_notMem (by simpa using hk) s.config

end ScanPlatform
