import ScanPlatform.Base.Rows
import ScanPlatform.Base.Table
import ScanPlatform.Engine.ToolRunRows

/-!
# The executions of one scan

Any number of deliveries of `scans.run_scan` for one scan, each with a token of its own. A worker
that dies takes no further step; a requeue, the reaper and a cancellation change the row of the
scan at any time. Which tools the loop or the agent chooses, and in which order, is left open.

* `ScanStore`, `Executor`, `ExecutorStep`, `executorStep`: what an execution does to the database;
* `ScanHistory`, `ScanHistoryStep`, `scanHistoryStep`: the executions together;
* `ScanStore.Keeps`: what a write to one tool run keeps of the others;
* **`executorStep_effect`**: what a step can do to the database and to what an execution remembers;
* `Executor.Effect.completed`: which step completes a scan.
-/

set_option autoImplicit false

namespace ScanPlatform

open CondMachine

/-! ## The database -/

structure ScanStore where
  scan : Scan
  /-- The scan has a row in `engagement_state`. -/
  engaged : Bool
  /-- The tool runs of the scan. -/
  toolRuns : List (Uuid × ToolRun)

namespace ScanStore

def row (st : ScanStore) (id : Uuid) : Option ToolRun :=
  (Rows.row Prod.fst st.toolRuns id).map (·.2)

def insert (id : Uuid) (run : ToolRun) (st : ScanStore) : ScanStore :=
  { st with toolRuns := st.toolRuns ++ [(id, run)] }

/-- An `UPDATE` by primary key. -/
def set (id : Uuid) (run : ToolRun) (st : ScanStore) : ScanStore :=
  { st with toolRuns := st.toolRuns.map fun p => if p.1 = id then (id, run) else p }

/-- `reconcile_orphaned_tool_runs`. -/
def reconcile (now graceSeconds : ℤ) (st : ScanStore) : ScanStore :=
  { st with toolRuns := st.toolRuns.map fun p =>
      (p.1, (reconcileOrphanedToolRuns now graceSeconds st.scan p.2).getD p.2) }

/-- A tool run of the scan has a status. -/
def Has (status : ToolStatus) (id : Uuid) (st : ScanStore) : Prop :=
  ∃ run ∈ st.row id, run.status = status

end ScanStore

/-- `scan.config.get("use_agent")`. -/
def Scan.usesAgent (scan : Scan) : Bool :=
  ((scan.config.get "use_agent").map Json.Value.truthy).getD false

/-! ## One execution -/

inductive ExecutorPhase where
  | loaded
  | claimed
  /-- Between two tools. -/
  | ready
  /-- The stop check has passed. -/
  | cleared
  | opened (runner : Runner) (toolRunId : Uuid)
  | launched (runner : Runner) (toolRunId : Uuid)
  | finished
  | failing
  /-- `run_scan` has ended; `wrote` is the status that it has given the scan. -/
  | ended (wrote : Option ScanStatus)

namespace ExecutorPhase

/-- The tool run that is in progress. -/
@[simp] def current : ExecutorPhase → Option Uuid
  | .opened _ id | .launched _ id => some id
  | _ => none

/-- `run_scan` is within its `try`. -/
def Live : ExecutorPhase → Prop
  | .loaded | .failing | .ended _ => False
  | _ => True

instance : DecidablePred Live := fun phase => by
  cases phase <;> unfold Live <;> infer_instance

/-- The statuses collected so far can still complete the scan, or have done so. -/
@[simp] def Counting : ExecutorPhase → Prop
  | .failing => False
  | .ended wrote => wrote = some .completed
  | _ => True

end ExecutorPhase

structure Executor where
  phase : ExecutorPhase
  /-- It has found an engagement. -/
  reused : Bool
  /-- The tool runs that it answers for: those that it has opened or, over an engagement, those
  that it has found. -/
  runs : List Uuid
  /-- `tool_statuses`, each with its tool run. -/
  statuses : List (Uuid × ToolStatus)

namespace Executor

def loaded : Executor := ⟨.loaded, false, [], []⟩

/-- The tool runs of the scan in place of an engagement of its own. -/
def reuse (st : ScanStore) (x : Executor) : Executor :=
  { x with
    phase := .finished
    reused := true
    runs := st.toolRuns.map (·.1)
    statuses := (st.toolRuns.map fun p => (p.1, p.2.status)).filter
      fun p => p.2 ≠ .skippedUnauthorized }

/-- The status that `run_scan` is about to write. -/
def outcome (x : Executor) : TerminalStatus :=
  match x.phase with
  | .finished => aggregateStatus (x.statuses.map (·.2))
  | _ => ⟨.failed, failed_terminal⟩

end Executor

inductive ExecutorStep where
  | claim (now : ℤ)
  /-- Over an engagement, or with one of its own, or without. -/
  | prepare
  | check
  | skip (runner : Runner) (toolRunId : Uuid) (startedAt completedAt : ℤ)
  | openRun (runner : Runner) (toolRunId : Uuid) (startedAt : ℤ)
  | recheck (completedAt : ℤ)
  | endRun (storeRaises upserted : Bool) (completedAt : ℤ) (run : Except String RawToolOutput)
  | finish
  | raise
  | finalize (now : ℤ)
  | heartbeat (now : ℤ)

/-- The steps of `run_scan`. -/
def executorStep (svc : Services) (scanId executionToken : Uuid) (a : ExecutorStep) (x : Executor)
    (st : ScanStore) : Option (Executor × ScanStore) :=
  match a, x.phase with
  | .claim now, .loaded =>
    some (match claimScan now executionToken st.scan with
      | some scan => ({ x with phase := .claimed }, { st with scan })
      | none => ({ x with phase := .ended none }, st))
  | .prepare, .claimed =>
    some (if st.scan.usesAgent then
        if st.engaged then (x.reuse st, st)
        else ({ x with phase := .ready }, { st with engaged := true })
      else ({ x with phase := .ready }, st))
  | .check, .ready | .check, .cleared =>
    some (match st.scan.stopReason executionToken with
      | none => ({ x with phase := .cleared }, st)
      | some .cancelled => ({ x with phase := .finished }, st)
      | some .revoked => ({ x with phase := .ended none }, st))
  | .skip runner id startedAt completedAt, .cleared =>
    if st.scan.usesAgent = false ∧ st.row id = none then
      some ({ x with phase := .ready, runs := x.runs ++ [id] },
        st.insert id { openedRun scanId runner startedAt with
          status := .skippedUnauthorized
          completedAt := some completedAt })
    else none
  | .openRun runner id startedAt, .cleared =>
    if st.row id = none then
      some ({ x with phase := .opened runner id, runs := x.runs ++ [id] },
        st.insert id (openedRun scanId runner startedAt))
    else none
  | .recheck completedAt, .opened runner id =>
    -- a cancellation does not keep the tool from being launched
    if st.scan.stopReason executionToken = some .revoked then
      (st.row id).map fun run =>
        ({ x with phase := .ended none }, st.set id (abandonRun completedAt run))
    else some ({ x with phase := .launched runner id }, st)
  | .endRun storeRaises upserted completedAt outcome, .launched runner id =>
    (st.row id).map fun run =>
      match endRun svc storeRaises upserted runner id completedAt (.ofRun outcome) run with
      | (run, .ok status) =>
        ({ x with phase := .ready, statuses := x.statuses ++ [(id, status.toolStatus)] },
          st.set id run)
      | (_, .error _) => ({ x with phase := .failing }, st)
  | .finish, .ready | .finish, .cleared => some ({ x with phase := .finished }, st)
  | .raise, phase => if phase.Live then some ({ x with phase := .failing }, st) else none
  | .finalize now, .finished | .finalize now, .failing =>
    some (match finalizeStatus now x.outcome.1 executionToken st.scan with
      | some scan => ({ x with phase := .ended (some x.outcome.1) }, { st with scan })
      | none => ({ x with phase := .ended none }, st))
  | .heartbeat now, phase =>
    if phase.Live then
      (stampHeartbeat now (some executionToken) st.scan).map fun scan => (x, { st with scan })
    else none
  | _, _ => none

/-! ## The executions together -/

structure ScanHistory where
  store : ScanStore
  executors : Table Uuid Executor

/-- A scan that has been created and not been executed. -/
structure ScanHistory.Initial (s : ScanHistory) : Prop where
  queued : s.store.scan.status = .queued
  toolRuns : s.store.toolRuns = []
  executors : ∀ tok, s.executors tok = none

inductive ScanHistoryStep where
  /-- A delivery of the task, with the token that it makes. -/
  | start (executionToken : Uuid)
  | execute (executionToken : Uuid) (a : ExecutorStep)
  | reap (now timeoutSeconds : ℤ) (staleHeartbeatSeconds : Option ℤ)
  | cancel (now : ℤ)
  | requeue (now : ℤ)
  | reconcile (now graceSeconds : ℤ)

def ScanHistory.onScan (s : ScanHistory) (scan : Scan) : ScanHistory :=
  { s with store := { s.store with scan } }

def scanHistoryStep (svc : Services) (scanId : Uuid) (a : ScanHistoryStep) (s : ScanHistory) :
    Option ScanHistory :=
  match a with
  | .start tok =>
    if s.executors tok = none then some { s with executors := s.executors.set tok .loaded }
    else none
  | .execute tok a => (s.executors tok).bind fun x =>
    (executorStep svc scanId tok a x s.store).map fun (x, store) =>
      ⟨store, s.executors.set tok x⟩
  | .reap now timeout stale => (reapOrphanedScans now timeout stale s.store.scan).map s.onScan
  | .cancel now => (cancelScan now s.store.scan).map s.onScan
  | .requeue now => (requeueScan now s.store.scan).map s.onScan
  | .reconcile now grace => some { s with store := s.store.reconcile now grace }

/-! ## What happens to the rows -/

section Rows

variable {st st' : ScanStore} {id j : Uuid} {run : ToolRun}

theorem ScanStore.row_insert (st : ScanStore) (id j : Uuid) (run : ToolRun) :
    (st.insert id run).row j = (st.row j).or (if id = j then some run else none) := by
  unfold ScanStore.row ScanStore.insert
  rw [Rows.row_append]
  cases Rows.row Prod.fst st.toolRuns j with
  | some p => rfl
  | none =>
    by_cases h : id = j <;> simp [h]

theorem ScanStore.row_set (st : ScanStore) (id j : Uuid) (run : ToolRun) :
    (st.set id run).row j = (st.row j).map fun old => if j = id then run else old := by
  have hkey : ∀ p : Uuid × ToolRun, (if p.1 = id then (id, run) else p).1 = p.1 := by
    intro p
    split_ifs with h
    · exact h.symm
    · rfl
  unfold ScanStore.row ScanStore.set
  rw [Rows.row_map hkey]
  cases hrow : Rows.row Prod.fst st.toolRuns j with
  | none => rfl
  | some p =>
    have hj : p.1 = j := Rows.row_key hrow
    subst hj
    simp only [Option.map_some]
    split_ifs <;> rfl

theorem ScanStore.row_reconcile (st : ScanStore) (now graceSeconds : ℤ) (j : Uuid) :
    (st.reconcile now graceSeconds).row j = (st.row j).map fun old =>
      (reconcileOrphanedToolRuns now graceSeconds st.scan old).getD old := by
  have hkey : ∀ p : Uuid × ToolRun,
      (p.1, (reconcileOrphanedToolRuns now graceSeconds st.scan p.2).getD p.2).1 = p.1 :=
    fun _ => rfl
  unfold ScanStore.row ScanStore.reconcile
  rw [Rows.row_map hkey, Option.map_map, Option.map_map]
  rfl

/-- Every row of the table is the row under its key. -/
theorem ScanStore.row_of_mem (hkeys : (st.toolRuns.map (·.1)).Nodup) {p : Uuid × ToolRun}
    (hp : p ∈ st.toolRuns) : st.row p.1 = some p.2 := by
  unfold ScanStore.row
  rw [Rows.row_of_mem hkeys hp, Option.map_some]

theorem ScanStore.notMem_of_row (h : st.row id = none) : id ∉ st.toolRuns.map (·.1) := by
  intro hmem
  obtain ⟨p, hp, rfl⟩ := List.mem_map.mp hmem
  simp only [ScanStore.row, Rows.row, Option.map_eq_none_iff, List.find?_eq_none] at h
  exact h p hp (by simp)

/-! ## What a write keeps -/

/-- A tool run that can still be written to. -/
def ToolRun.Unsettled (run : ToolRun) : Prop := run.status = .running ∨ run.status = .failed

/-- What a write does to the tool runs but for the one in progress: the others stay unsettled, and
what is settled stays. -/
structure ScanStore.Keeps (mine : Option Uuid) (st st' : ScanStore) : Prop where
  keys : (st.toolRuns.map (·.1)).Nodup → (st'.toolRuns.map (·.1)).Nodup
  unsettled : ∀ id ∉ mine, ∀ run ∈ st.row id, run.Unsettled → ∃ run' ∈ st'.row id, run'.Unsettled
  settled : ∀ id, ∀ run ∈ st.row id, ¬ run.Unsettled → st'.row id = some run

theorem ScanStore.Keeps.of_rows {mine : Option Uuid} (h : st'.toolRuns = st.toolRuns) :
    st.Keeps mine st' := by
  have hrow : ∀ id, st'.row id = st.row id := fun id => by rw [ScanStore.row, h, ScanStore.row]
  refine ⟨fun hkeys => by rwa [h], fun id _ run hrun hopen => ?_, fun id run hrun _ => ?_⟩
  · exact ⟨run, by rwa [hrow], hopen⟩
  · rw [hrow]
    exact hrun

theorem ScanStore.keeps_insert {mine : Option Uuid} (hfresh : st.row id = none) (run : ToolRun) :
    st.Keeps mine (st.insert id run) := by
  have hrow : ∀ j, ∀ old ∈ st.row j, (st.insert id run).row j = some old := by
    intro j old hold
    rw [ScanStore.row_insert, Option.mem_def.mp hold]
    rfl
  refine ⟨fun hkeys => ?_, fun j _ old hold hopen => ⟨old, hrow j old hold, hopen⟩,
    fun j old hold _ => hrow j old hold⟩
  rw [ScanStore.insert, List.map_append, List.map_singleton, ← List.concat_eq_append]
  exact hkeys.concat (ScanStore.notMem_of_row hfresh)

theorem ScanStore.keeps_set {old : ToolRun} (hold : old ∈ st.row id) (hopen : old.Unsettled)
    (run : ToolRun) : st.Keeps (some id) (st.set id run) := by
  have hrow : ∀ j, j ≠ id → (st.set id run).row j = st.row j := by
    intro j hj
    simp [ScanStore.row_set, hj]
  have hkeys : (st.set id run).toolRuns.map (·.1) = st.toolRuns.map (·.1) := by
    rw [ScanStore.set, List.map_map]
    refine List.map_congr_left fun p _ => ?_
    simp only [Function.comp_apply]
    split_ifs with h
    · exact h.symm
    · rfl
  refine ⟨fun h => by rwa [hkeys], fun j hj r hr hopen => ?_, fun j r hr hsettled => ?_⟩
  · have hne : j ≠ id := fun h => hj (by rw [h]; rfl)
    exact ⟨r, by rwa [hrow j hne], hopen⟩
  · have hne : j ≠ id := by
      rintro rfl
      cases hold.symm.trans hr
      exact hsettled hopen
    rw [hrow j hne]
    exact hr

theorem ScanStore.keeps_reconcile (st : ScanStore) (now graceSeconds : ℤ) :
    st.Keeps none (st.reconcile now graceSeconds) := by
  have hkeys : (st.reconcile now graceSeconds).toolRuns.map (·.1) = st.toolRuns.map (·.1) := by
    simp [ScanStore.reconcile]
  refine ⟨fun h => by rwa [hkeys], fun j _ run hrun hopen => ?_, fun j run hrun hsettled => ?_⟩
  · rw [ScanStore.row_reconcile, Option.mem_def.mp hrun]
    refine ⟨_, rfl, ?_⟩
    cases h : reconcileOrphanedToolRuns now graceSeconds st.scan run with
    | none => simpa [h] using hopen
    | some run' => simp [h, ToolRun.Unsettled, (reconcileOrphanedToolRuns_status h).2]
  · rw [ScanStore.row_reconcile, Option.mem_def.mp hrun]
    cases h : reconcileOrphanedToolRuns now graceSeconds st.scan run with
    | none => simp [h]
    | some run' => exact absurd (.inl (reconcileOrphanedToolRuns_status h).1) hsettled

/-- A settled status stays. -/
theorem ScanStore.Keeps.has {mine : Option Uuid} (h : st.Keeps mine st') {status : ToolStatus}
    (hrunning : status ≠ .running) (hfailed : status ≠ .failed) (hhas : st.Has status id) :
    st'.Has status id := by
  obtain ⟨run, hrun, hstatus⟩ := hhas
  refine ⟨run, h.settled id run hrun ?_, hstatus⟩
  rintro (hopen | hopen)
  · exact hrunning (hstatus.symm.trans hopen)
  · exact hfailed (hstatus.symm.trans hopen)

end Rows

/-! ## What a step can do -/

section Effect

variable {svc : Services} {scanId tok : Uuid} {a : ExecutorStep} {x x' : Executor}
  {st st' : ScanStore}

/-- The row of the scan is as it was, or has been updated; the terminal write ends the execution. -/
def ExecutorPhase.Writes (phase : ExecutorPhase) (scan scan' : Scan) : Prop :=
  scan' = scan ∨ ∃ b, scanStep b scan = some scan' ∧
    ∀ now status tok, b = .finalize now status tok → phase = .ended (some status.1)

/-- What a step of an execution does to the database and to what the execution remembers. -/
inductive Executor.Effect (x : Executor) (st : ScanStore) : Executor → ScanStore → Prop
  /-- The phase, and the other rows of the scan. -/
  | move {phase : ExecutorPhase} {scan : Scan} {engaged : Bool}
      (hscan : phase.Writes st.scan scan)
      (hcurrent : phase.current = x.phase.current ∨ phase.current = none)
      (hcounting : phase.Counting → x.phase.Counting ∧ phase.current = x.phase.current)
      (hwrote : phase = .ended (some .completed) →
        (aggregateStatus (x.statuses.map (·.2))).1 = .completed) :
      Effect x st { x with phase } { st with scan, engaged }
  | reused : Effect x st (x.reuse st) st
  | skipped {id : Uuid} {run : ToolRun} (hphase : x.phase = .cleared) (hfresh : st.row id = none)
      (hrun : run.status = .skippedUnauthorized) :
      Effect x st { x with phase := .ready, runs := x.runs ++ [id] } (st.insert id run)
  | opened {id : Uuid} {runner : Runner} {run : ToolRun} (hphase : x.phase = .cleared)
      (hfresh : st.row id = none) (hrun : run.status = .running) :
      Effect x st { x with phase := .opened runner id, runs := x.runs ++ [id] } (st.insert id run)
  | abandoned {id : Uuid} {run : ToolRun} (hcurrent : x.phase.current = some id) :
      Effect x st { x with phase := .ended none } (st.set id run)
  | done {id : Uuid} {runner : Runner} {run : ToolRun} {status : RunStatus}
      (hphase : x.phase = .launched runner id) (hrun : run.status = status.toolStatus) :
      Effect x st
        { x with phase := .ready, statuses := x.statuses ++ [(id, status.toolStatus)] }
        (st.set id run)

/-- The row of a tool that has returned or raised has the status that is returned. -/
theorem endRun_status {storeRaises upserted : Bool} {runner : Runner} {id : Uuid}
    {completedAt : ℤ} {launch : Launch} {run run' : ToolRun} {status : RunStatus}
    (h : endRun svc storeRaises upserted runner id completedAt launch run = (run', .ok status)) :
    run'.status = status.toolStatus := by
  cases launch with
  | revoked => cases h
  | raised reason => cases h; rfl
  | ran raw =>
    cases upserted with
    | true => cases h; rfl
    | false => cases h

/-- A step that only goes on to a phase without a tool run. -/
theorem Executor.Effect.idle {phase : ExecutorPhase} {scan : Scan} {engaged : Bool}
    (hscan : phase.Writes st.scan scan) (hcurrent : phase.current = none)
    (hcounting : phase.Counting → x.phase.Counting ∧ x.phase.current = none)
    (hwrote : phase = .ended (some .completed) →
      (aggregateStatus (x.statuses.map (·.2))).1 = .completed) :
    x.Effect st { x with phase } { st with scan, engaged } := by
  refine .move hscan (.inr hcurrent) (fun hphase => ?_) hwrote
  have ⟨hcounts, hnone⟩ := hcounting hphase
  exact ⟨hcounts, hcurrent.trans hnone.symm⟩

theorem executorStep_effect (h : executorStep svc scanId tok a x st = some (x', st')) :
    x.Effect st x' st' := by
  cases a with
  | claim now =>
    cases hphase : x.phase with
    | loaded =>
      simp only [executorStep, hphase, Option.some.injEq] at h
      split at h
      · rename_i hclaim
        cases h
        exact .idle (.inr ⟨.claim now tok, hclaim, nofun⟩) rfl (by simp [hphase]) nofun
      · cases h
        exact .idle (.inl rfl) rfl (by simp [hphase]) nofun
    | _ => simp [executorStep, hphase] at h
  | prepare =>
    cases hphase : x.phase with
    | claimed =>
      simp only [executorStep, hphase, Option.some.injEq] at h
      split_ifs at h
      · cases h
        exact .reused
      · cases h
        exact .idle (.inl rfl) rfl (by simp [hphase]) nofun
      · cases h
        exact .idle (.inl rfl) rfl (by simp [hphase]) nofun
    | _ => simp [executorStep, hphase] at h
  | check =>
    cases hphase : x.phase with
    | ready | cleared =>
      simp only [executorStep, hphase, Option.some.injEq] at h
      split at h
      · cases h
        exact .idle (.inl rfl) rfl (by simp [hphase]) nofun
      · cases h
        exact .idle (.inl rfl) rfl (by simp [hphase]) nofun
      · cases h
        exact .idle (.inl rfl) rfl (by simp) nofun
    | _ => simp [executorStep, hphase] at h
  | skip runner id startedAt completedAt =>
    cases hphase : x.phase with
    | cleared =>
      simp only [executorStep, hphase] at h
      obtain ⟨⟨-, hfresh⟩, heq⟩ := guarded_eq_some.mp h
      cases heq
      exact .skipped hphase hfresh rfl
    | _ => simp [executorStep, hphase] at h
  | openRun runner id startedAt =>
    cases hphase : x.phase with
    | cleared =>
      simp only [executorStep, hphase] at h
      obtain ⟨hfresh, heq⟩ := guarded_eq_some.mp h
      cases heq
      exact .opened hphase hfresh rfl
    | _ => simp [executorStep, hphase] at h
  | recheck completedAt =>
    cases hphase : x.phase with
    | opened runner id =>
      simp only [executorStep, hphase] at h
      split_ifs at h
      · obtain ⟨run, -, heq⟩ := Option.map_eq_some_iff.mp h
        cases heq
        exact .abandoned (by simp [hphase])
      · cases h
        exact .move (.inl rfl) (.inl (by simp [hphase])) (by simp [hphase]) nofun
    | _ => simp [executorStep, hphase] at h
  | endRun storeRaises upserted completedAt outcome =>
    cases hphase : x.phase with
    | launched runner id =>
      simp only [executorStep, hphase] at h
      obtain ⟨run, -, heq⟩ := Option.map_eq_some_iff.mp h
      split at heq
      · rename_i run' status hend
        cases heq
        exact .done hphase (endRun_status hend)
      · cases heq
        exact .idle (.inl rfl) rfl (by simp) nofun
    | _ => simp [executorStep, hphase] at h
  | finish =>
    cases hphase : x.phase with
    | ready | cleared =>
      simp only [executorStep, hphase, Option.some.injEq] at h
      cases h
      exact .idle (.inl rfl) rfl (by simp [hphase]) nofun
    | _ => simp [executorStep, hphase] at h
  | raise =>
    simp only [executorStep] at h
    obtain ⟨-, heq⟩ := guarded_eq_some.mp h
    cases heq
    exact .idle (.inl rfl) rfl (by simp) nofun
  | finalize now =>
    cases hphase : x.phase with
    | finished | failing =>
      simp only [executorStep, hphase, Option.some.injEq] at h
      split at h
      · rename_i hfinal
        cases h
        refine .idle (.inr ⟨.finalize now x.outcome tok, hfinal, fun _ _ _ hb => ?_⟩) rfl
          (by simp [hphase, Executor.outcome]) (by simp [hphase, Executor.outcome])
        cases hb
        rfl
      · cases h
        exact .idle (.inl rfl) rfl (by simp) nofun
    | _ => simp [executorStep, hphase] at h
  | heartbeat now =>
    simp only [executorStep] at h
    split_ifs at h with hlive
    obtain ⟨scan, hstamp, heq⟩ := Option.map_eq_some_iff.mp h
    cases heq
    refine .move (.inr ⟨.heartbeat now (some tok), hstamp, nofun⟩) (.inl rfl)
      (fun hcounts => ⟨hcounts, rfl⟩) fun hended => ?_
    simp [hended, ExecutorPhase.Live] at hlive

/-- An execution that has ended takes no step. -/
theorem executorStep_ended {wrote : Option ScanStatus} (h : x.phase = .ended wrote) :
    executorStep svc scanId tok a x st = none := by
  cases a <;> simp [executorStep, h, ExecutorPhase.Live]

/-- Only a terminal write completes a scan. -/
theorem scanStep_completed {b : ScanStep} {scan scan' : Scan} (h : scanStep b scan = some scan')
    (hcompleted : scan'.status = .completed) :
    ∃ now status tok, b = .finalize now status tok ∧ status.1 = .completed := by
  cases b with
  | claim now tok =>
    rw [(claimScan_eq_some.mp h).2] at hcompleted
    cases hcompleted
  | finalize now status tok =>
    obtain ⟨-, rfl⟩ := finalizeStatus_eq_some.mp h
    exact ⟨now, status, tok, rfl, hcompleted⟩
  | reap now timeout stale =>
    rw [(reapOrphanedScans_eq_some.mp h).2] at hcompleted
    cases hcompleted
  | cancel now =>
    rw [(cancelScan_eq_some.mp h).2] at hcompleted
    cases hcompleted
  | requeue now =>
    rw [(requeueScan_eq_some.mp h).2] at hcompleted
    cases hcompleted
  | heartbeat now tok =>
    obtain ⟨⟨hrunning, -⟩, rfl⟩ := stampHeartbeat_eq_some.mp h
    cases hrunning.symm.trans hcompleted

/-- Only the execution whose statuses complete the scan completes it. -/
theorem Executor.Effect.completed (h : x.Effect st x' st')
    (hcompleted : st'.scan.status = .completed) :
    st.scan.status = .completed ∨ x'.phase = .ended (some .completed) := by
  cases h with
  | move hscan hcurrent hcounting hwrote =>
    rcases hscan with hsame | ⟨b, hb, hlast⟩
    · exact .inl (hsame ▸ hcompleted)
    · obtain ⟨now, status, tok, hfinal, hstatus⟩ := scanStep_completed hb hcompleted
      have hphase := hlast now status tok hfinal
      rw [hstatus] at hphase
      exact .inr hphase
  | reused | skipped | opened | abandoned | done => exact .inl hcompleted

end Effect

end ScanPlatform
