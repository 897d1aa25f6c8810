import Mathlib.Data.List.Nodup
import ScanPlatform.Base.Table
import ScanPlatform.Scan.Ownership

/-!
# Shutdown of a worker process

Worker processes execute scans, the reaper and the users act on the rows, and a worker that shuts
down returns the scans of its active requests to the queue with `drain_and_requeue`. Its write is
conditional on `status = 'running'` alone, so it can clear the token of another worker.

* `Fleet`, `FleetStep`, `fleetStep`: the rows, the executions and the steps of all parties;
* `fleet_row`: each row of a fleet runs as a row on its own;
* `execution_unique`: a token names one execution;
* **`drain_clears_own_iff`**, `drain_clears_other`: when a drain clears the token of the draining
  worker's own execution, and a run in which it does not.
-/

set_option autoImplicit false

namespace ScanPlatform

open CondMachine FenceLock

/-- One delivery of `scans.run_scan`, with the token that the task made for it. -/
structure Execution (W : Type*) where
  worker : W
  scanId : Uuid
  token : Uuid
  deriving DecidableEq

structure Fleet (W : Type*) where
  scans : Table Uuid Scan
  /-- Every execution that was ever started. -/
  executions : List (Execution W)
  /-- The active requests of all the workers. -/
  active : List (Execution W)
  /-- What a worker past its deadline has still to requeue. -/
  draining : W → Option (List Uuid)

inductive FleetStep (W : Type*) where
  | start (e : Execution W)
  | claim (now : ℤ) (e : Execution W)
  | heartbeat (now : ℤ) (e : Execution W)
  | finalize (now : ℤ) (newStatus : TerminalStatus) (e : Execution W)
  | finish (e : Execution W)
  | reap (now timeoutSeconds : ℤ) (staleHeartbeatSeconds : Option ℤ)
  | cancel (now : ℤ) (scanId : Uuid)
  | deadline (w : W)
  | requeue (now : ℤ) (w : W) (scanId : Uuid)
  | requeueFailed (w : W) (scanId : Uuid)

variable {W : Type*}

/-- A statement on one row, matched or not. -/
def Fleet.onRow (F : Fleet W) (scanId : Uuid) (a : ScanStep) : Fleet W :=
  { F with scans := (F.scans.update scanId (scanStep a)).getD F.scans }

variable [DecidableEq W]

/-- `inflight_scan_ids` of a worker. -/
def Fleet.inflightScanIds (F : Fleet W) (w : W) : List Uuid :=
  (F.active.filter (·.worker = w)).map (·.scanId)

/-- The steps of the fleet. `deadline` is where `drain_and_requeue` reads the active requests for
the last time, `requeue` and `requeueFailed` its loop over what it read. -/
def fleetStep : FleetStep W → Fleet W → Option (Fleet W)
  | .start e, F =>
    if e.token ∉ F.executions.map (·.token) then
      some { F with executions := e :: F.executions, active := e :: F.active }
    else none
  | .claim now e, F => if e ∈ F.active then some (F.onRow e.scanId (.claim now e.token)) else none
  | .heartbeat now e, F =>
    if e ∈ F.active then some (F.onRow e.scanId (.heartbeat now (some e.token))) else none
  | .finalize now st e, F =>
    if e ∈ F.active then some (F.onRow e.scanId (.finalize now st e.token)) else none
  | .finish e, F => if e ∈ F.active then some { F with active := F.active.erase e } else none
  | .reap now timeout stale, F =>
    some { F with scans := F.scans.updateAll (scanStep (.reap now timeout stale)) }
  | .cancel now id, F => some (F.onRow id (.cancel now))
  | .deadline w, F =>
    if F.draining w = none then
      some { F with draining := Function.update F.draining w (some (F.inflightScanIds w)) }
    else none
  | .requeue now w id, F =>
    match F.draining w with
    | some (j :: rest) =>
      if j = id then
        some ({ F with draining := Function.update F.draining w (some rest) }.onRow id
          (.requeue now))
      else none
    | _ => none
  | .requeueFailed w id, F =>
    match F.draining w with
    | some (j :: rest) =>
      if j = id then some { F with draining := Function.update F.draining w (some rest) } else none
    | _ => none

/-- Nothing has been started, and every scan is in the queue. -/
structure Fleet.Idle (F : Fleet W) : Prop where
  executions : F.executions = []
  active : F.active = []
  queued : ∀ id, ∀ s ∈ F.scans id, s.status = .queued ∧ s.executionToken = none

/-- An idle fleet with one scan. -/
def Fleet.single (id : Uuid) (s : Scan) : Fleet W where
  scans j := if j = id then some s else none
  executions := []
  active := []
  draining _ := none

omit [DecidableEq W] in
theorem idle_single (id : Uuid) {s : Scan} (hs : s.status = .queued ∧ s.executionToken = none) :
    (Fleet.single id s : Fleet W).Idle := by
  refine ⟨rfl, rfl, fun j s' hs' => ?_⟩
  obtain ⟨-, rfl⟩ := guarded_eq_some.mp hs'
  exact hs

/-! ## The rows of a fleet -/

/-- The statement that a step executes on a row. -/
def FleetStep.rowStep (id : Uuid) : FleetStep W → Option ScanStep
  | .claim now e => if e.scanId = id then some (.claim now e.token) else none
  | .heartbeat now e => if e.scanId = id then some (.heartbeat now (some e.token)) else none
  | .finalize now st e => if e.scanId = id then some (.finalize now st e.token) else none
  | .reap now timeout stale => some (.reap now timeout stale)
  | .cancel now j => if j = id then some (.cancel now) else none
  | .requeue now _ j => if j = id then some (.requeue now) else none
  | .start _ | .finish _ | .deadline _ | .requeueFailed _ _ => none

omit [DecidableEq W] in
theorem onRow_scans (F : Fleet W) (j id : Uuid) (a : ScanStep) :
    (F.onRow j a).scans id =
      (F.scans id).map fun s => ((if j = id then some a else none).elim s (next scanStep s)) := by
  rw [show (F.onRow j a).scans id = (F.scans.update j (scanStep a)).getD F.scans id from rfl,
    Table.update_getD_apply]
  by_cases h : j = id
  · subst h; simp [next]
  · simp [h, Ne.symm h]

theorem fleetStep_row {a : FleetStep W} {F F' : Fleet W} (h : fleetStep a F = some F')
    (id : Uuid) :
    F'.scans id = (F.scans id).map fun s => (a.rowStep id).elim s (next scanStep s) := by
  cases a with
  | start e =>
    obtain ⟨-, rfl⟩ := guarded_eq_some.mp h
    simp [FleetStep.rowStep]
  | claim now e | heartbeat now e | finalize now st e =>
    obtain ⟨-, rfl⟩ := guarded_eq_some.mp h
    rw [onRow_scans]
    by_cases he : e.scanId = id <;> simp [FleetStep.rowStep, he]
  | finish e => obtain ⟨-, rfl⟩ := guarded_eq_some.mp h; simp [FleetStep.rowStep]
  | reap now timeout stale =>
    obtain rfl := Option.some.inj h
    rfl
  | cancel now j =>
    obtain rfl := Option.some.inj h
    rw [onRow_scans]
    by_cases hj : j = id <;> simp [FleetStep.rowStep, hj]
  | deadline w => obtain ⟨-, rfl⟩ := guarded_eq_some.mp h; simp [FleetStep.rowStep]
  | requeue now w j =>
    simp only [fleetStep] at h
    split at h
    · obtain ⟨rfl, rfl⟩ := guarded_eq_some.mp h
      rw [onRow_scans]
      simp only [FleetStep.rowStep]
    · cases h
  | requeueFailed w j =>
    simp only [fleetStep] at h
    split at h
    · obtain ⟨rfl, rfl⟩ := guarded_eq_some.mp h
      simp [FleetStep.rowStep]
    · cases h

/-- The statements that a run of the fleet executes on a row. -/
def rowSteps (F₀ : Fleet W) (σ : List (FleetStep W)) (id : Uuid) : List ScanStep :=
  (taken fleetStep F₀ σ).filterMap (FleetStep.rowStep id)

/-- **Each row of a fleet runs as a row on its own.** -/
theorem fleet_row (F₀ : Fleet W) (σ : List (FleetStep W)) (id : Uuid) :
    (run fleetStep F₀ σ).scans id =
      (F₀.scans id).map fun s => run scanStep s (rowSteps F₀ σ id) := by
  induction σ using List.reverseRecOn with
  | nil => simp [rowSteps]
  | append_singleton σ a ih =>
    rw [run_concat]
    rcases next_cases fleetStep (run fleetStep F₀ σ) a with h | ⟨h, h'⟩
    · have hsteps : rowSteps F₀ (σ ++ [a]) id = rowSteps F₀ σ id ++ (a.rowStep id).toList := by
        rw [rowSteps, taken_concat_some h, List.filterMap_append]
        cases ha : a.rowStep id <;> simp [rowSteps, ha]
      rw [fleetStep_row h, ih, hsteps, Option.map_map]
      congr 1
      funext s
      cases a.rowStep id <;> simp [run_append]
    · rw [h', ih, rowSteps, rowSteps, taken_concat_none h]

/-! ## Executions -/

/-- What the fleet knows of its executions: the active ones were started, and no two of them have
the same token. -/
structure Fleet.Wf (F : Fleet W) : Prop where
  started : F.active ⊆ F.executions
  fresh : (F.executions.map (·.token)).Nodup

theorem executions_step {a : FleetStep W} {F F' : Fleet W} (h : fleetStep a F = some F') :
    F'.executions = F.executions ∧ F'.active ⊆ F.active ∨
      ∃ e, e.token ∉ F.executions.map (·.token) ∧ F'.executions = e :: F.executions ∧
        F'.active = e :: F.active := by
  cases a with
  | start e =>
    obtain ⟨he, rfl⟩ := guarded_eq_some.mp h
    exact .inr ⟨e, he, rfl, rfl⟩
  | finish e =>
    obtain ⟨-, rfl⟩ := guarded_eq_some.mp h
    exact .inl ⟨rfl, List.erase_subset⟩
  | claim | heartbeat | finalize | deadline =>
    obtain ⟨-, rfl⟩ := guarded_eq_some.mp h
    exact .inl ⟨rfl, fun _ => id⟩
  | reap | cancel =>
    obtain rfl := Option.some.inj h
    exact .inl ⟨rfl, fun _ => id⟩
  | requeue | requeueFailed =>
    simp only [fleetStep] at h
    split at h
    · obtain ⟨-, rfl⟩ := guarded_eq_some.mp h
      exact .inl ⟨rfl, fun _ => id⟩
    · cases h

theorem wf_step (F : Fleet W) (a : FleetStep W) (F' : Fleet W) (hF : F.Wf)
    (h : fleetStep a F = some F') : F'.Wf := by
  rcases executions_step h with ⟨hex, hact⟩ | ⟨e, he, hex, hact⟩
  · exact ⟨by rw [hex]; exact List.Subset.trans hact hF.started, by rw [hex]; exact hF.fresh⟩
  · refine ⟨?_, ?_⟩
    · rw [hex, hact]
      exact List.cons_subset_cons e hF.started
    · rw [hex, List.map_cons, List.nodup_cons]
      exact ⟨he, hF.fresh⟩

/-- **A token names one execution.** -/
theorem execution_unique {F₀ : Fleet W} (h0 : F₀.Idle) (σ : List (FleetStep W))
    {e e' : Execution W} (he : e ∈ (run fleetStep F₀ σ).executions)
    (he' : e' ∈ (run fleetStep F₀ σ).executions) (ht : e.token = e'.token) : e = e' := by
  have hwf : (run fleetStep F₀ σ).Wf :=
    run_invariant wf_step ⟨by simp [h0.active], by simp [h0.executions]⟩ σ
  exact List.inj_on_of_nodup_map hwf.fresh he he' ht

/-! ## What a drain clears -/

/-- The token that requeueing the scan clears is that of an execution of `w`. -/
def ClearsOwn (F : Fleet W) (w : W) (id : Uuid) : Prop :=
  ∀ s ∈ F.scans id, s.status = .running →
    ∃ e ∈ F.executions, e.worker = w ∧ e.scanId = id ∧ s.executionToken = some e.token

/-- An execution of `w` won its claim on the scan, and nothing but heartbeats took effect on the
row since: no reap, no cancellation, no requeue, no terminal write and no other claim. -/
def OwnClaimLast (F₀ : Fleet W) (σ : List (FleetStep W)) (w : W) (id : Uuid) : Prop :=
  ∃ e ∈ (run fleetStep F₀ σ).executions, e.worker = w ∧ e.scanId = id ∧
    ∃ s₀ ∈ F₀.scans id, ∃ l₁ now l₂,
      taken scanStep s₀ (rowSteps F₀ σ id) = l₁ ++ .claim now e.token :: l₂ ∧
        ∀ b ∈ l₂, ∃ now tok, b = .heartbeat now tok

/-- The drain's write changes the row of a running scan only. -/
theorem requeue_running {now : ℤ} {w : W} {id : Uuid} {F F' : Fleet W}
    (h : fleetStep (.requeue now w id) F = some F') (hmoved : F'.scans id ≠ F.scans id) :
    ∃ s ∈ F.scans id, s.status = .running := by
  have hrow := fleetStep_row h id
  cases hs : F.scans id with
  | none => simp [hrow, hs] at hmoved
  | some s =>
    refine ⟨s, rfl, ?_⟩
    by_contra hrun
    have hnone : scanStep (.requeue now) s = none := if_neg hrun
    simp [hrow, hs, FleetStep.rowStep, next_none hnone] at hmoved

/-- **What a drain clears.** In every run of the fleet, a drain of `w` that returns a scan to the
queue clears the token of an execution of `w` exactly when an execution of `w` won its claim on the
scan and no reap, cancellation, requeue, terminal write or other claim took effect on it since. -/
theorem drain_clears_own_iff {F₀ : Fleet W} (h0 : F₀.Idle) (σ : List (FleetStep W)) {now : ℤ}
    {w : W} {id : Uuid} {F' : Fleet W}
    (h : fleetStep (.requeue now w id) (run fleetStep F₀ σ) = some F')
    (hmoved : F'.scans id ≠ (run fleetStep F₀ σ).scans id) :
    ClearsOwn (run fleetStep F₀ σ) w id ↔ OwnClaimLast F₀ σ w id := by
  obtain ⟨s, hs, hrun⟩ := requeue_running h hmoved
  have hrow := fleet_row F₀ σ id
  rw [hs, eq_comm, Option.map_eq_some_iff] at hrow
  obtain ⟨s₀, hs₀, rfl⟩ := hrow
  have htok := owner_run scan_fenced s₀ (rowSteps F₀ σ id)
  rw [(h0.queued id s₀ hs₀).2] at htok
  constructor
  · intro hown
    obtain ⟨e, he, hw, hid, hst⟩ := hown _ hs hrun
    rw [htok] at hst
    obtain ⟨l₁, b, l₂, hl, hb, hl₂⟩ := holder_eq_some.mp hst
    obtain ⟨n, rfl⟩ := role_eq_acquire hb
    exact ⟨e, he, hw, hid, s₀, hs₀, l₁, n, l₂, hl, fun c hc => c.passive_iff.mp (hl₂ c hc)⟩
  · rintro ⟨e, he, hw, hid, s₁, hs₁, l₁, n, l₂, hl, hl₂⟩ s' hs' -
    obtain rfl : s₁ = s₀ := by rw [hs₀] at hs₁; exact (Option.some.inj hs₁).symm
    rw [hs] at hs'
    cases hs'
    refine ⟨e, he, hw, hid, ?_⟩
    rw [htok, holder_eq_some]
    exact ⟨l₁, .claim n e.token, l₂, hl, rfl, fun c hc => c.passive_iff.mpr (hl₂ c hc)⟩

/-- A worker that is still executing its scan at the deadline returns it to the queue. -/
theorem drain_clears_own_iff_undisturbed :
    ClearsOwn (run fleetStep (Fleet.single 5 (.created 1 2 3 [] 0))
      [.start ⟨0, 5, 7⟩, .claim 0 ⟨0, 5, 7⟩, .heartbeat 30000000 ⟨0, 5, 7⟩, .deadline 0]) 0 5 := by
  refine (drain_clears_own_iff (idle_single 5 ⟨rfl, rfl⟩)
    [.start ⟨0, 5, 7⟩, .claim 0 ⟨0, 5, 7⟩, .heartbeat 30000000 ⟨0, 5, 7⟩, .deadline 0]
    (show fleetStep (.requeue 40000000 0 5) _ = some _ from rfl) ?_).mpr ?_
  · intro h
    have hstatus := congrArg (Option.map Scan.status) h
    revert hstatus
    decide
  · refine ⟨⟨0, 5, 7⟩, by decide, rfl, rfl, _, rfl, [], 0, [.heartbeat 30000000 (some 7)], rfl, ?_⟩
    simp

/-- **A drain clears another worker's token.** The first worker falls silent and its scan is
reaped; a second worker claims it; the first worker shuts down with its task still active. -/
theorem drain_clears_other :
    ∃ F', fleetStep (.requeue 7203000000 0 5) (run fleetStep
        (Fleet.single 5 (.created 1 2 3 [] 0))
        [.start ⟨0, 5, 7⟩, .claim 0 ⟨0, 5, 7⟩, .reap 7201000000 7200 (some 900),
          .start ⟨1, 5, 8⟩, .claim 7202000000 ⟨1, 5, 8⟩, .deadline 0]) = some F' ∧
      (F'.scans 5).map (·.status) = some .queued ∧
      ¬ ClearsOwn (run fleetStep (Fleet.single 5 (.created 1 2 3 [] 0))
        [.start ⟨0, 5, 7⟩, .claim 0 ⟨0, 5, 7⟩, .reap 7201000000 7200 (some 900),
          .start ⟨1, 5, 8⟩, .claim 7202000000 ⟨1, 5, 8⟩, .deadline 0]) (0 : ℕ) 5 := by
  refine ⟨_, rfl, by decide, fun h => ?_⟩
  obtain ⟨e, he, hw, -, ht⟩ := h _ rfl (by decide)
  revert e
  decide

end ScanPlatform
