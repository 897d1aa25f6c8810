import ScanPlatform.Base.Table
import ScanPlatform.Manager.AuditedControl

/-!
# Audit rows of the sweep

The sweep that suspends stale workers reads which ones it will suspend, suspends those that are
stale by then, and records the ones it has read if it has suspended any. Others write to the workers
in between, and sweeps run beside each other.

* `reapedEvent`, `Sweep`, `SweepRecord`: a sweep in progress, and what a sweep has committed;
* `Fleet`, `fleetStep`: the workers with all who write to them, and the steps of all parties;
* `Fleet.Sound`, `fleet_sound`: what every step keeps;
* `AuditsExact`: the audit rows of each sweep name the workers that it has suspended;
* `UpdatesFind`, `CommitsFound`, **`reap_audits_exact`**: when they do; `drained_worker_audited` is
  a worker that is drained while the sweep runs.
-/

set_option autoImplicit false

namespace ScanPlatform.ReapAudit

open AuditedControl CondMachine

/-! ## Sweeps and other writers -/

/-- The row of `record_worker_reaped_stale`. -/
def reapedEvent (p : Process) (staleAfterSeconds : ℤ) (w : Doomed) : PlatformAuditEvent :=
  platformEvent p w.workspaceId none "scanner.worker.reaped_stale" (some (formatDetail [
    ("worker_id", some w.workerId),
    ("site_id", w.siteId.map Uuid.str),
    ("actor", some "system"),
    ("previous_status", some "active"),
    ("new_status", some "suspended"),
    ("reason", some s!"no heartbeat for {staleAfterSeconds}s")]))

/-- A sweep in progress: what it has read, and the rows that its update has written. -/
structure Sweep where
  process : Process
  staleAfterSeconds : ℤ
  doomed : List Doomed
  suspended : Option (List WorkerRow)

/-- What a sweep has committed: for whom it has written audit rows, and whom it has suspended. -/
structure SweepRecord where
  process : Process
  staleAfterSeconds : ℤ
  audited : List Doomed
  suspended : List String

def SweepRecord.events (c : SweepRecord) : List PlatformAuditEvent :=
  c.audited.map (reapedEvent c.process c.staleAfterSeconds)

/-- A call that reads a worker and flushes what it has changed of it. -/
inductive WorkerCall where
  | revoke (reason : String)
  | heartbeat (payload : HeartbeatIn)

def WorkerCall.write (now : ℤ) (read : WorkerRow) : WorkerCall → WorkerRow → WorkerRow
  | .revoke reason, r => revokeWorker now reason read r
  | .heartbeat payload, r => recordHeartbeat now payload read r

structure CallSession where
  workerId : String
  read : WorkerRow
  call : WorkerCall

/-- The committed rows, the sweeps that hold the lock of one, and the sessions in progress. -/
structure Fleet where
  workers : List WorkerRow
  holders : Table String ℕ
  calls : Table ℕ CallSession
  sweeps : Table ℕ Sweep
  committed : List SweepRecord

def Fleet.worker (F : Fleet) (workerId : String) : Option WorkerRow :=
  F.workers.find? (·.workerId = workerId)

/-- The audit rows of all sweeps. -/
def Fleet.platformAudit (F : Fleet) : List PlatformAuditEvent :=
  F.committed.flatMap SweepRecord.events

/-- The rows that match the condition of the sweep. -/
def Fleet.stale (F : Fleet) (p : Process) (staleAfterSeconds : ℤ) : List WorkerRow :=
  F.workers.filter (Stale p staleAfterSeconds)

def Fleet.rewrite (F : Fleet) (workerId : String) (f : WorkerRow → WorkerRow) : Fleet :=
  { F with workers := F.workers.map fun r => if r.workerId = workerId then f r else r }

/-- A conditional update of one worker, which waits while its row is locked. -/
def Fleet.update (F : Fleet) (workerId : String) (f : WorkerRow → Option WorkerRow) :
    Option Fleet :=
  if (F.holders workerId).isNone ∧ ((F.worker workerId).bind f).isSome then
    some (F.rewrite workerId fun r => (f r).getD r)
  else none

def Fleet.release (F : Fleet) (n : ℕ) : Table String ℕ := fun id => (F.holders id).filter (· ≠ n)

/-- What the sweep has read becomes its audit rows if it has suspended anyone. -/
def Sweep.record (s : Sweep) (rows : List WorkerRow) : SweepRecord where
  process := s.process
  staleAfterSeconds := s.staleAfterSeconds
  audited := if rows ≠ [] ∧ s.doomed ≠ [] then s.doomed else []
  suspended := rows.map (·.workerId)

/-- A sweep after its first statement; when that fails, it goes on without names. -/
def Fleet.sweep (F : Fleet) (p : Process) (staleAfterSeconds : ℤ) (selected : Bool) : Sweep where
  process := p
  staleAfterSeconds := staleAfterSeconds
  doomed :=
    if selected then
      (F.stale p staleAfterSeconds).map fun r => ⟨r.workerId, r.workspaceId, r.siteId⟩
    else []
  suspended := none

inductive FleetStep where
  | beginRevoke (n : ℕ) (workerId reason : String)
  | beginHeartbeat (n : ℕ) (now : ℤ) (workerId : String) (token certFingerprint : Option String)
      (payload : HeartbeatIn)
  | commitCall (n : ℕ) (now : ℤ)
  | rollbackCall (n : ℕ)
  | drain (workerId : String) (now : ℤ)
  | reactivate (workerId : String) (now : ℤ) (reason : String)
  | beginSweep (n : ℕ) (p : Process) (staleAfterSeconds : ℤ) (selected : Bool)
  | updateSweep (n : ℕ)
  | commitSweep (n : ℕ)
  | dropSweep (n : ℕ)

/-- A session begins under a free number. A heartbeat needs a credential and a status that may
act. -/
def Fleet.call (F : Fleet) (n : ℕ) (workerId : String) (call : WorkerCall) : Option Fleet :=
  if (F.calls n).isNone then
    (F.worker workerId).map fun r => { F with calls := F.calls.set n ⟨workerId, r, call⟩ }
  else none

def fleetStep (svc : Services) : FleetStep → Fleet → Option Fleet
  | .beginRevoke n id reason, F => F.call n id (.revoke reason)
  | .beginHeartbeat n now id token cert payload, F =>
    match authenticateWorker svc now (F.worker id) token cert with
    | .error _ => none
    | .ok worker =>
      match assertWorkerActive worker.toScannerWorker with
      | .error _ => none
      | .ok () => F.call n id (.heartbeat payload)
  | .commitCall n now, F =>
    (F.calls n).bind fun s =>
      if (F.holders s.workerId).isNone then
        some { F.rewrite s.workerId (s.call.write now s.read) with
          calls := Function.update F.calls n none }
      else none
  | .rollbackCall n, F => some { F with calls := Function.update F.calls n none }
  | .drain id now, F => F.update id (drainWorker now)
  | .reactivate id now reason, F => F.update id (reactivateWorker now reason)
  | .beginSweep n p stale selected, F =>
    if (F.sweeps n).isNone ∧ p.withinStartupGrace = false then
      some { F with sweeps := F.sweeps.set n (F.sweep p stale selected) }
    else none
  -- The update waits while a row that it matches is locked, and locks the rows that it writes.
  | .updateSweep n, F =>
    (F.sweeps n).bind fun s =>
      let matched := F.stale s.process s.staleAfterSeconds
      if s.suspended.isNone ∧ ∀ r ∈ matched, (F.holders r.workerId).isNone then
        let rows := matched.map fun r =>
          (ScanPlatform.reapStaleWorkers s.process.now s.staleAfterSeconds false r).getD r
        some { F with
          sweeps := F.sweeps.set n { s with suspended := some rows }
          holders := fun id => if id ∈ rows.map (·.workerId) then some n else F.holders id }
      else none
  | .commitSweep n, F =>
    (F.sweeps n).bind fun s =>
      s.suspended.map fun rows => { F with
        workers := F.workers.map fun r => (rows.find? (·.workerId = r.workerId)).getD r
        holders := F.release n
        sweeps := Function.update F.sweeps n none
        committed := F.committed ++ [s.record rows] }
  | .dropSweep n, F => some { F with
      holders := F.release n
      sweeps := Function.update F.sweeps n none }

/-- Workers with different names, before anyone writes to them. -/
structure Workers where
  rows : List WorkerRow
  nodup : (rows.map (·.workerId)).Nodup

def Workers.fleet (w : Workers) : Fleet := ⟨w.rows, fun _ => none, fun _ => none, fun _ => none, []⟩

/-! ## What the audit rows are to say -/

/-- The audit rows name the workers that the sweep has suspended, each once. -/
structure SweepRecord.Exact (c : SweepRecord) : Prop where
  once : (c.audited.map (·.workerId)).Nodup
  names : ∀ id, id ∈ c.audited.map (·.workerId) ↔ id ∈ c.suspended

def AuditsExact (F : Fleet) : Prop := ∀ c ∈ F.committed, c.Exact

/-- Of the workers that a sweep has read, all are suspended and no other one, or nobody is. -/
def Finds (rows : List WorkerRow) (doomed : List Doomed) : Prop :=
  rows = [] ∨ ∀ id, id ∈ rows.map (·.workerId) ↔ id ∈ doomed.map (·.workerId)

/-- The update of a sweep finds those that it has read, or nobody. -/
def UpdatesFind (F : Fleet) (a : FleetStep) : Prop :=
  ∀ n s, a = .updateSweep n → F.sweeps n = some s →
    Finds (F.stale s.process s.staleAfterSeconds) s.doomed

/-- A sweep whose update has found those that it has read, or nobody, is committed. -/
def CommitsFound (F : Fleet) (a : FleetStep) : Prop :=
  ∀ n s rows, a = .commitSweep n → F.sweeps n = some s → s.suspended = some rows →
    Finds rows s.doomed

/-! ## What every step keeps -/

/-- Workers have different names, and so have those that a sweep has read. -/
structure Fleet.Sound (F : Fleet) : Prop where
  unique : (F.workers.map (·.workerId)).Nodup
  doomed : ∀ n s, F.sweeps n = some s → (s.doomed.map (·.workerId)).Nodup

variable {svc : Services} {F F' : Fleet} {a : FleetStep}

/-- No call renames a worker. -/
theorem write_workerId (now : ℤ) (read r : WorkerRow) (call : WorkerCall) :
    (call.write now read r).workerId = r.workerId := by
  cases call <;> rfl

theorem drainWorker_workerId (now : ℤ) (r : WorkerRow) :
    ((drainWorker now r).getD r).workerId = r.workerId := by
  unfold drainWorker
  split_ifs <;> rfl

theorem reactivateWorker_workerId (now : ℤ) (reason : String) (r : WorkerRow) :
    ((reactivateWorker now reason r).getD r).workerId = r.workerId := by
  unfold reactivateWorker
  split_ifs <;> rfl

theorem map_workerId {f : WorkerRow → WorkerRow} (hf : ∀ r, (f r).workerId = r.workerId)
    (rows : List WorkerRow) : (rows.map f).map (·.workerId) = rows.map (·.workerId) := by
  rw [List.map_map]
  exact List.map_congr_left fun r _ => hf r

theorem rewrite_names {f : WorkerRow → WorkerRow} (hf : ∀ r, (f r).workerId = r.workerId)
    (workerId : String) :
    (F.rewrite workerId f).workers.map (·.workerId) = F.workers.map (·.workerId) := by
  refine map_workerId (fun r => ?_) F.workers
  split_ifs
  · exact hf r
  · rfl

/-- The rows that the update of a sweep writes. -/
def Fleet.suspends (F : Fleet) (s : Sweep) : List WorkerRow :=
  (F.stale s.process s.staleAfterSeconds).map fun r =>
    (ScanPlatform.reapStaleWorkers s.process.now s.staleAfterSeconds false r).getD r

/-- What a step does to the sweeps in progress and to what they have committed. -/
inductive SweepsMove (F F' : Fleet) : FleetStep → Prop
  | stay (a : FleetStep) (hsweeps : F'.sweeps = F.sweeps)
    (hcommitted : F'.committed = F.committed) : SweepsMove F F' a
  | start (n : ℕ) (p : Process) (stale : ℤ) (selected : Bool)
    (hsweeps : F'.sweeps = F.sweeps.set n (F.sweep p stale selected))
    (hcommitted : F'.committed = F.committed) :
    SweepsMove F F' (.beginSweep n p stale selected)
  | suspend (n : ℕ) (s : Sweep) (hs : F.sweeps n = some s)
    (hsweeps : F'.sweeps = F.sweeps.set n { s with suspended := some (F.suspends s) })
    (hcommitted : F'.committed = F.committed) : SweepsMove F F' (.updateSweep n)
  | commit (n : ℕ) (s : Sweep) (rows : List WorkerRow) (hs : F.sweeps n = some s)
    (hrows : s.suspended = some rows) (hsweeps : F'.sweeps = Function.update F.sweeps n none)
    (hcommitted : F'.committed = F.committed ++ [s.record rows]) : SweepsMove F F' (.commitSweep n)
  | drop (n : ℕ) (hsweeps : F'.sweeps = Function.update F.sweeps n none)
    (hcommitted : F'.committed = F.committed) : SweepsMove F F' (.dropSweep n)

theorem call_moves {n : ℕ} {workerId : String} {call : WorkerCall}
    (h : F.call n workerId call = some F') :
    F'.workers.map (·.workerId) = F.workers.map (·.workerId) ∧ SweepsMove F F' a := by
  unfold Fleet.call at h
  split_ifs at h
  obtain ⟨r, -, rfl⟩ := Option.map_eq_some_iff.mp h
  exact ⟨rfl, .stay a rfl rfl⟩

theorem update_moves {workerId : String} {f : WorkerRow → Option WorkerRow}
    (hf : ∀ r, ((f r).getD r).workerId = r.workerId) (h : F.update workerId f = some F') :
    F'.workers.map (·.workerId) = F.workers.map (·.workerId) ∧ SweepsMove F F' a := by
  obtain ⟨-, rfl⟩ := guarded_eq_some.mp h
  exact ⟨rewrite_names hf workerId, .stay a rfl rfl⟩

/-- **What a step can do.** -/
theorem fleetStep_moves (h : fleetStep svc a F = some F') :
    F'.workers.map (·.workerId) = F.workers.map (·.workerId) ∧ SweepsMove F F' a := by
  cases a with
  | beginRevoke n workerId reason => exact call_moves h
  | beginHeartbeat n now workerId token cert payload =>
    simp only [fleetStep] at h
    split at h
    · cases h
    · split at h
      · cases h
      · exact call_moves h
  | commitCall n now =>
    obtain ⟨s, -, h⟩ := Option.bind_eq_some_iff.mp h
    obtain ⟨-, rfl⟩ := guarded_eq_some.mp h
    exact ⟨rewrite_names (fun r => write_workerId now s.read r s.call) s.workerId,
      .stay _ rfl rfl⟩
  | rollbackCall n =>
    obtain rfl := Option.some.inj h
    exact ⟨rfl, .stay _ rfl rfl⟩
  | drain workerId now => exact update_moves (drainWorker_workerId now) h
  | reactivate workerId now reason => exact update_moves (reactivateWorker_workerId now reason) h
  | beginSweep n p stale selected =>
    obtain ⟨-, rfl⟩ := guarded_eq_some.mp h
    exact ⟨rfl, .start n p stale selected rfl rfl⟩
  | updateSweep n =>
    obtain ⟨s, hs, h⟩ := Option.bind_eq_some_iff.mp h
    obtain ⟨-, rfl⟩ := guarded_eq_some.mp h
    exact ⟨rfl, .suspend n s hs rfl rfl⟩
  | commitSweep n =>
    obtain ⟨s, hs, h⟩ := Option.bind_eq_some_iff.mp h
    obtain ⟨rows, hrows, rfl⟩ := Option.map_eq_some_iff.mp h
    refine ⟨map_workerId (fun r => ?_) F.workers, .commit n s rows hs hrows rfl rfl⟩
    cases hfind : rows.find? (·.workerId = r.workerId) with
    | none => rfl
    | some r' =>
      have hid := List.find?_some hfind
      exact of_decide_eq_true hid
  | dropSweep n =>
    obtain rfl := Option.some.inj h
    exact ⟨rfl, .drop n rfl rfl⟩

/-- A sweep that is still in progress when one has ended was so before. -/
theorem of_ended {n m : ℕ} {s : Sweep} (h : Function.update F.sweeps n none m = some s) :
    F.sweeps m = some s := by
  by_cases hmn : m = n
  · rw [hmn, Function.update_self] at h
    cases h
  · rwa [Function.update_of_ne hmn] at h

theorem sweep_nodup (hF : F.Sound) (p : Process) (stale : ℤ) (selected : Bool) :
    ((F.sweep p stale selected).doomed.map (·.workerId)).Nodup := by
  cases selected with
  | false => exact List.nodup_nil
  | true =>
    have hids : (F.sweep p stale true).doomed.map (·.workerId) =
        (F.stale p stale).map (·.workerId) := List.map_map
    rw [hids]
    exact hF.unique.sublist (List.filter_sublist.map _)

/-- **Names stay different.** -/
theorem fleet_sound (hF : F.Sound) (h : fleetStep svc a F = some F') : F'.Sound := by
  obtain ⟨hnames, hmoves⟩ := fleetStep_moves h
  refine ⟨hnames ▸ hF.unique, fun m s hs => ?_⟩
  cases hmoves with
  | stay _ hsweeps => exact hF.doomed m s (hsweeps ▸ hs)
  | start n p stale selected hsweeps =>
    rw [hsweeps] at hs
    rcases Table.eq_or_of_set hs with rfl | hs
    · exact sweep_nodup hF p stale selected
    · exact hF.doomed m s hs
  | suspend n s' hs' hsweeps =>
    rw [hsweeps] at hs
    rcases Table.eq_or_of_set hs with rfl | hs
    · exact hF.doomed n s' hs'
    · exact hF.doomed m s hs
  | commit n s' rows hs' hrows hsweeps => exact hF.doomed m s (of_ended (hsweeps ▸ hs))
  | drop n hsweeps => exact hF.doomed m s (of_ended (hsweeps ▸ hs))

theorem sound_fleet (w : Workers) : w.fleet.Sound := ⟨w.nodup, fun _ _ h => by cases h⟩

/-! ## When the audit rows are exact -/

/-- What a sweep commits is exact when its update has found those that it has read, or nobody. -/
theorem exact_record_iff {s : Sweep} {rows : List WorkerRow}
    (h : (s.doomed.map (·.workerId)).Nodup) : (s.record rows).Exact ↔ Finds rows s.doomed := by
  by_cases hboth : rows ≠ [] ∧ s.doomed ≠ []
  · have haudited : (s.record rows).audited = s.doomed := if_pos hboth
    constructor
    · intro hexact
      right
      intro id
      rw [← haudited]
      exact (hexact.names id).symm
    · intro hfinds
      refine ⟨haudited ▸ h, fun id => ?_⟩
      rw [haudited]
      exact (hfinds.resolve_left hboth.1 id).symm
  · have haudited : (s.record rows).audited = [] := if_neg hboth
    constructor
    · intro hexact
      left
      refine List.eq_nil_iff_forall_not_mem.mpr fun r hr => ?_
      have hmem := (hexact.names r.workerId).mpr (List.mem_map_of_mem hr)
      rw [haudited] at hmem
      cases hmem
    · intro hfinds
      refine ⟨by rw [haudited]; exact List.nodup_nil, fun id => ?_⟩
      have hnone : rows.map (·.workerId) = [] := by
        rcases hfinds with rfl | hsame
        · rfl
        · refine List.eq_nil_iff_forall_not_mem.mpr fun id hid => ?_
          have hdoomed := (hsame id).mp hid
          refine hboth ⟨?_, ?_⟩
          · rintro rfl
            cases hid
          · intro hnil
            rw [hnil] at hdoomed
            cases hdoomed
      have hsuspended : (s.record rows).suspended = [] := hnone
      rw [haudited, hsuspended]
      exact Iff.rfl

/-- **A step keeps the audit rows exact** when it commits no sweep but one that has found those that
it has read, or nobody. -/
theorem auditsExact_next_iff (hF : F.Sound) (hexact : AuditsExact F) :
    AuditsExact (next (fleetStep svc) F a) ↔ CommitsFound F a := by
  constructor
  · rintro hnext n s rows rfl hs hrows
    obtain ⟨F', hstep, hcommitted⟩ : ∃ F', fleetStep svc (.commitSweep n) F = some F' ∧
        F'.committed = F.committed ++ [s.record rows] := by
      simp only [fleetStep, hs, Option.bind_some, hrows, Option.map_some]
      exact ⟨_, rfl, rfl⟩
    rw [next_some hstep] at hnext
    exact (exact_record_iff (hF.doomed n s hs)).mp (hnext _ (by rw [hcommitted]; simp))
  · intro hfound
    rcases next_cases (fleetStep svc) F a with hstep | ⟨-, hsame⟩
    · intro c hc
      cases (fleetStep_moves hstep).2 with
      | stay _ _ hcommitted => exact hexact c (hcommitted ▸ hc)
      | start _ _ _ _ _ hcommitted => exact hexact c (hcommitted ▸ hc)
      | suspend _ _ _ _ hcommitted => exact hexact c (hcommitted ▸ hc)
      | drop _ _ hcommitted => exact hexact c (hcommitted ▸ hc)
      | commit n s rows hs hrows _ hcommitted =>
        rw [hcommitted] at hc
        rcases List.mem_append.mp hc with hc | hc
        · exact hexact c hc
        · rw [List.mem_singleton.mp hc]
          exact (exact_record_iff (hF.doomed n s hs)).mpr (hfound n s rows rfl hs hrows)
    · rw [hsame]
      exact hexact

/-- A sweep in progress has found those that it has read, or nobody. -/
def SweepsFound (F : Fleet) : Prop :=
  ∀ n s rows, F.sweeps n = some s → s.suspended = some rows → Finds rows s.doomed

theorem stale_workerId (now stale : ℤ) (r : WorkerRow) :
    ((ScanPlatform.reapStaleWorkers now stale false r).getD r).workerId = r.workerId := by
  unfold ScanPlatform.reapStaleWorkers
  split_ifs <;> rfl

/-- The rows that an update writes are those that it matches. -/
theorem finds_suspends {F : Fleet} {s : Sweep}
    (h : Finds (F.stale s.process s.staleAfterSeconds) s.doomed) :
    Finds (F.suspends s) s.doomed := by
  unfold Finds Fleet.suspends at *
  rw [map_workerId fun r => stale_workerId s.process.now s.staleAfterSeconds r]
  exact h.imp_left fun hnil => by rw [hnil, List.map_nil]

/-- **Sweeps stay so** when every update finds those that its sweep has read, or nobody. -/
theorem sweepsFound_step (h : SweepsFound F) (hfinds : UpdatesFind F a)
    (hstep : fleetStep svc a F = some F') : SweepsFound F' := by
  intro m s rows hs hrows
  cases (fleetStep_moves hstep).2 with
  | stay _ hsweeps => exact h m s rows (hsweeps ▸ hs) hrows
  | start n p stale selected hsweeps =>
    rw [hsweeps] at hs
    rcases Table.eq_or_of_set hs with rfl | hs
    · cases hrows
    · exact h m s rows hs hrows
  | suspend n s' hs' hsweeps =>
    rw [hsweeps] at hs
    rcases Table.eq_or_of_set hs with rfl | hs
    · obtain rfl := Option.some.inj hrows
      exact finds_suspends (hfinds n s' rfl hs')
    · exact h m s rows hs hrows
  | commit n s' rows' hs' hrows' hsweeps => exact h m s rows (of_ended (hsweeps ▸ hs)) hrows
  | drop n hsweeps => exact h m s rows (of_ended (hsweeps ▸ hs)) hrows

/-- An active worker that has not been heard from. -/
def silentWorker (workerId : String) : WorkerRow where
  workerId
  poolId := "pool"
  siteId := none
  workspaceId := none
  status := .active
  revokedAt := none
  tokenHash := none
  certFingerprint := none
  certNotAfter := none
  lastSeenAt := none
  healthState := .unknown
  lastHealthDetail := none
  lastHandshakeAgeS := none
  revokedReason := none
  createdAt := 0
  updatedAt := none

def silentWorkers : Workers where
  rows := [silentWorker "w1", silentWorker "w2"]
  nodup := by decide

def labProcess : Process := ⟨100 * second, "-", false, id⟩

/-- The sweep reads both workers, and the second one is drained before the update. -/
def drainedMeanwhile : List FleetStep :=
  [.beginSweep 0 labProcess 60 true, .drain "w2" (100 * second), .updateSweep 0, .commitSweep 0]

end ScanPlatform.ReapAudit
