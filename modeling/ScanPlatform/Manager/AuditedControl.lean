import ScanPlatform.Base.FailedFlush
import ScanPlatform.Manager.WorkerLifecycle

/-!
# Controls and their audit rows

The command that revokes a worker and the sweep that suspends the stale ones record what they do in
`platform_audit_events`, in the session and the transaction of the control itself.

* `PlatformAuditEvent`, `OpsDb`, `OpsWrite`: the rows, and what is written to them;
* `safeRecord`, `recordWorkerRevoked`, `recordWorkerReapedStale`: the audit rows;
* `revoke`, `reapStaleWorkers`: the controls;
* `AuditFails`, `RevocationStands`, `SuspensionStands`: an audit row is refused, and what is to be
  so nevertheless;
* `revocation_stands`, `suspensions_stand`: they stand when the audit rows are accepted;
* **`audit_failure_undoes_control`**, `revocation_lost`: a refused audit row takes the control with
  it.
-/

set_option autoImplicit false

namespace ScanPlatform.AuditedControl

open FailedFlush
open UnitOfWork (Acts Turn actAll)

/-! ## Rows -/

/-- A row of `platform_audit_events`. -/
structure PlatformAuditEvent where
  workspaceId : Option Uuid
  actorUserId : Option Uuid
  event : String
  detail : Option String
  correlationId : Option String
  deriving DecidableEq

structure OpsDb where
  workers : List WorkerRow
  platformAudit : List PlatformAuditEvent

def OpsDb.worker (d : OpsDb) (workerId : String) : Option WorkerRow :=
  d.workers.find? (·.workerId = workerId)

inductive OpsWrite where
  | revoke (now : ℤ) (reason : String) (read : WorkerRow)
  | suspend (now staleAfterSeconds : ℤ)
  | audit (e : PlatformAuditEvent)

def OpsWrite.apply : OpsWrite → OpsDb → OpsDb
  | .revoke now reason read, d => { d with
      workers := d.workers.map fun r =>
        if r.workerId = read.workerId then revokeWorker now reason read r else r }
  | .suspend now stale, d => { d with
      workers := d.workers.map fun r => (ScanPlatform.reapStaleWorkers now stale false r).getD r }
  | .audit e, d => { d with platformAudit := d.platformAudit ++ [e] }

instance : Acts OpsWrite OpsDb where
  act := OpsWrite.apply

/-- Whatever others commit. -/
structure OthersChange where
  change : OpsDb → OpsDb

instance : Acts OthersChange OpsDb where
  act := OthersChange.change

/-- `WorkerNotAuthorized`. -/
structure WorkerNotAuthorized where
  reason : String
  message : String
  deriving DecidableEq

abbrev Ops := Work OpsWrite OthersChange OpsDb WorkerNotAuthorized

abbrev OpsSession := FailedFlush.Session OpsWrite OthersChange OpsDb

/-- The process: its clock, the answers of `get_correlation_id` and of `within_startup_grace`, and
the substitutions of `_SCRUBBERS`. -/
structure Process where
  now : ℤ
  correlationId : String
  withinStartupGrace : Bool
  scrub : String → String

/-! ## Audit rows -/

/-- `scrub_detail`. -/
def scrubDetail (p : Process) : Option String → Option String
  | none => none
  | some detail => if detail = "" then some detail else some (p.scrub detail)

/-- `_current_correlation_id`. -/
def currentCorrelationId (p : Process) : Option String :=
  if p.correlationId ≠ "" ∧ p.correlationId ≠ "-" then some p.correlationId else none

/-- The row of `record_platform_event`. -/
def platformEvent (p : Process) (workspaceId actorUserId : Option Uuid) (event : String)
    (detail : Option String) : PlatformAuditEvent where
  workspaceId
  actorUserId
  event
  detail := scrubDetail p detail
  correlationId := currentCorrelationId p

/-- `record_platform_event`. -/
def recordPlatformEvent (p : Process) (workspaceId actorUserId : Option Uuid) (event : String)
    (detail : Option String) : Ops Unit :=
  flush (fun _ => true) [.audit (platformEvent p workspaceId actorUserId event detail)]

/-- `normalise_actor`. -/
def normaliseActor (actor : Option String) : String :=
  let cleaned := PyStr.strip (actor.getD "")
  if cleaned ≠ "" then cleaned else "unattributed"

/-- `_format_detail`. -/
def formatDetail (pairs : List (String × Option String)) : String :=
  " ".intercalate (pairs.filterMap fun (k, v) =>
    match v with
    | none | some "" => none
    | some v => some (k ++ "=" ++ v))

/-- `_safe_record`. -/
def safeRecord (p : Process) (workspaceId : Option Uuid) (event detail : String) : Ops Bool :=
  tryCatch
    (do
      recordPlatformEvent p workspaceId none event (some detail)
      return true)
    fun _ => return false

/-- `record_worker_revoked`. -/
def recordWorkerRevoked (p : Process) (workerId reason : String) (actor : Option String)
    (workspaceId siteId : Option Uuid) : Ops Bool :=
  safeRecord p workspaceId "scanner.worker.revoked" (formatDetail [
    ("worker_id", some workerId),
    ("site_id", siteId.map Uuid.str),
    ("actor", some (normaliseActor actor)),
    ("actor_authenticated", some "false"),
    ("outcome", some "revoked"),
    ("reason", some reason)])

/-- `record_worker_reaped_stale`. -/
def recordWorkerReapedStale (p : Process) (workerId : String) (staleAfterSeconds : ℤ)
    (workspaceId siteId : Option Uuid) : Ops Bool :=
  safeRecord p workspaceId "scanner.worker.reaped_stale" (formatDetail [
    ("worker_id", some workerId),
    ("site_id", siteId.map Uuid.str),
    ("actor", some "system"),
    ("previous_status", some "active"),
    ("new_status", some "suspended"),
    ("reason", some s!"no heartbeat for {staleAfterSeconds}s")])

/-! ## The controls -/

/-- `revoke_worker` of the service. -/
def revokeWorkerRow (p : Process) (workerId reason : String) : Ops WorkerRow := do
  let row ← execute fun d => .ok (d.worker workerId, [])
  match row with
  | none => throw (.program ⟨"WORKER_UNKNOWN", s!"No such worker '{workerId}'."⟩)
  | some worker =>
    flush (fun d => (d.worker workerId).isSome) [.revoke p.now reason worker]
    return revokeWorker p.now reason worker worker

/-- How the command ends: exit code 2 with a message, or 0 with what it prints of the worker. -/
inductive RevokeExit where
  | unknown (message : String)
  | revoked (worker : WorkerRow) (audited : Bool)

/-- The revocation in `_revoke`. -/
def revokeFound (p : Process) (workerId reason : String) :
    Ops (Except WorkerNotAuthorized WorkerRow) :=
  tryCatch
    (do
      let worker ← revokeWorkerRow p workerId reason
      return .ok worker)
    fun e =>
      match e with
      | .program exc => return .error exc
      | e => throw e

/-- The audit row in `_revoke`. -/
def auditRevoked (p : Process) (reason : String) (actor : Option String) (worker : WorkerRow) :
    Ops Bool :=
  tryCatch (recordWorkerRevoked p worker.workerId reason actor worker.workspaceId worker.siteId)
    fun _ => return false

/-- `_revoke`. -/
def revoke (p : Process) (workerId reason : String) (actor : Option String) : Ops RevokeExit := do
  let found ← revokeFound p workerId reason
  match found with
  | .error exc => return .unknown exc.message
  | .ok worker =>
    let audited ← auditRevoked p reason actor worker
    commit
    return .revoked worker audited

/-- The row is one that the sweep suspends. -/
def Stale (p : Process) (staleAfterSeconds : ℤ) (r : WorkerRow) : Bool :=
  (ScanPlatform.reapStaleWorkers p.now staleAfterSeconds false r).isSome

/-- What the sweep reads of a worker before it suspends it. -/
structure Doomed where
  workerId : String
  workspaceId : Option Uuid
  siteId : Option Uuid
  deriving DecidableEq

/-- The workers that the sweep reads; none when they cannot be read. -/
def doomedWorkers (p : Process) (staleAfterSeconds : ℤ) : Ops (List Doomed) :=
  tryCatch
    (execute fun d => .ok (((d.workers.filter (Stale p staleAfterSeconds)).map fun r =>
      ⟨r.workerId, r.workspaceId, r.siteId⟩), []))
    fun _ => return []

/-- The update of `reap_stale_workers`, which tells how many rows it found. -/
def suspendStale (p : Process) (staleAfterSeconds : ℤ) : Ops ℕ :=
  execute fun d => .ok (d.workers.countP (Stale p staleAfterSeconds),
    [.suspend p.now staleAfterSeconds])

/-- The audit rows of `reap_stale_workers`. -/
def auditReaped (p : Process) (staleAfterSeconds : ℤ) (suspended : ℕ)
    (doomed : List Doomed) : Ops Unit :=
  if suspended ≠ 0 ∧ doomed ≠ [] then
    tryCatch
      (doomed.forM fun w => do
        let _ ← recordWorkerReapedStale p w.workerId staleAfterSeconds w.workspaceId w.siteId
        return ())
      fun _ => return ()
  else return ()

/-- `reap_stale_workers`. -/
def reapStaleWorkers (p : Process) (staleAfterSeconds : ℤ) : Ops ℕ := do
  if p.withinStartupGrace then return 0
  else
    let doomed ← doomedWorkers p staleAfterSeconds
    let suspended ← suspendStale p staleAfterSeconds
    auditReaped p staleAfterSeconds suspended doomed
    commit
    return suspended

/-! ## What an audit row may not undo -/

/-- A flush of an audit row has failed. -/
def AuditFails (s : OpsSession) : Prop := ∃ e, .audit e ∈ s.refused

/-- The command returns, and the worker is revoked in the database, without credentials. -/
def RevocationStands (p : Process) (workerId reason : String) (actor : Option String)
    (s : OpsSession) : Prop :=
  ∃ worker audited s', revoke p workerId reason actor s = .ok (.revoked worker audited) s' ∧
    ∃ r, s'.committed.worker workerId = some r ∧ r.status = .revoked ∧ r.revokedAt = some p.now ∧
      r.Destroyed

/-- The database in which the update of the sweep finds the stale workers. -/
def Swept (p : Process) (staleAfterSeconds : ℤ) (s : OpsSession) (d : OpsDb) : Prop :=
  p.withinStartupGrace = false ∧
    ∃ t, (ending (doomedWorkers p staleAfterSeconds) s).next = (.done, t) ∧ t.view = d

/-- The sweep returns, and the workers that its update has found are suspended in the database. -/
def SuspensionStands (p : Process) (staleAfterSeconds : ℤ) (s : OpsSession) : Prop :=
  ∃ suspended s', reapStaleWorkers p staleAfterSeconds s = .ok suspended s' ∧
    ∀ d, Swept p staleAfterSeconds s d → ∀ r ∈ d.workers, Stale p staleAfterSeconds r →
      ∃ r' ∈ s'.committed.workers, r'.workerId = r.workerId ∧ r'.status = .suspended

/-! ## Audit rows never raise -/

variable {p : Process}

def IsAudit (w : OpsWrite) : Prop := ∃ e, w = .audit e

theorem uncommitting_safeRecord (workspaceId : Option Uuid) (event detail : String) :
    Uncommitting IsAudit (safeRecord p workspaceId event detail) := by
  refine uncommitting_tryCatch (uncommitting_bind (uncommitting_flush _ ?_) fun _ =>
    uncommitting_pure _) fun _ => uncommitting_pure _
  intro w hw
  exact ⟨_, List.mem_singleton.mp hw⟩

/-- A handler that does not raise lets nothing through. -/
theorem tryCatch_returns {α : Type} (x : Ops α) (a : α) (s : OpsSession) :
    ∃ b s', (tryCatch x fun _ => (pure a : Ops α)) s = .ok b s' := by
  rcases run_cases x s with ⟨b, s', hok⟩ | ⟨e, s', herr⟩
  · exact ⟨b, s', tryCatch_of_ok hok⟩
  · exact ⟨a, s', tryCatch_of_error herr⟩

/-! ## The revocation -/

theorem uncommitting_revokeFound (workerId reason : String) :
    Uncommitting (fun w => ¬ IsAudit w) (revokeFound p workerId reason) := by
  refine uncommitting_tryCatch (uncommitting_bind (uncommitting_bind (uncommitting_execute _)
    fun row => ?_) fun _ => uncommitting_pure _) fun e => ?_
  · cases row with
    | none => exact uncommitting_throw _
    | some worker =>
      refine uncommitting_bind (uncommitting_flush _ fun w hw => ?_) fun _ => uncommitting_pure _
      rw [List.mem_singleton.mp hw]
      rintro ⟨e, he⟩
      cases he
  · cases e with
    | program exc => exact uncommitting_pure _
    | pendingRollback => exact uncommitting_throw _
    | database => exact uncommitting_throw _

/-- No audit row has been refused before it is sent. -/
theorem not_auditFails {α : Type} {x : Ops α} (hx : Uncommitting (fun w => ¬ IsAudit w) x)
    (db : OpsDb) (turns : List (Turn OthersChange)) :
    ¬ AuditFails (ending x (.opened db turns)) := by
  rintro ⟨e, he⟩
  rcases hx.refuses _ _ he with h | h
  · cases h
  · exact h ⟨e, rfl⟩

/-- **A refused audit row undoes the revocation**, and the command raises. -/
theorem revoke_undone {workerId reason : String} {actor : Option String} {db : OpsDb}
    {turns : List (Turn OthersChange)}
    (h : AuditFails (ending (revoke p workerId reason actor) (.opened db turns))) :
    Undone (revoke p workerId reason actor) (.opened db turns) := by
  have hfound := uncommitting_revokeFound (p := p) workerId reason
  have hnot := not_auditFails hfound db turns
  unfold revoke at h ⊢
  rcases run_cases (revokeFound p workerId reason) (.opened db turns) with
    ⟨found, s₁, hok⟩ | ⟨e, s₁, herr⟩
  · rw [ending_ok hok] at hnot
    obtain ⟨huntouched, hwaits⟩ := hfound.of_ok hok (waits_opened db turns)
    refine .bind hok huntouched ?_
    rw [ending, bind_of_ok hok] at h
    cases found with
    | error exc => exact absurd h hnot
    | ok worker =>
      obtain ⟨audited, s₂, hsafe⟩ := tryCatch_returns
        (recordWorkerRevoked p worker.workerId reason actor worker.workspaceId worker.siteId)
        false s₁
      refine undone_of_refused (uncommitting_tryCatch (uncommitting_safeRecord _ _ _)
        fun _ => uncommitting_pure _) hsafe hwaits (fun _ _ => rfl) ?_
      obtain ⟨e, he⟩ := h
      exact List.ne_nil_of_mem he
  · rw [ending_error herr] at hnot
    rw [ending, bind_of_error herr] at h
    exact absurd h hnot

/-! ## The sweep -/

variable {staleAfterSeconds : ℤ}

variable (p staleAfterSeconds) in
theorem doomedWorkers_returns (s : OpsSession) :
    ∃ doomed s', doomedWorkers p staleAfterSeconds s = .ok doomed s' :=
  tryCatch_returns _ [] s

theorem uncommitting_doomedWorkers {P : OpsWrite → Prop} :
    Uncommitting P (doomedWorkers p staleAfterSeconds) :=
  uncommitting_tryCatch (uncommitting_execute _) fun _ => uncommitting_pure _

theorem uncommitting_suspendStale {P : OpsWrite → Prop} :
    Uncommitting P (suspendStale p staleAfterSeconds) :=
  uncommitting_execute _

/-- The audit rows of a sweep are refused only as such, and never raise. -/
theorem uncommitting_auditReaped (suspended : ℕ)
    (doomed : List Doomed) :
    Uncommitting IsAudit (auditReaped p staleAfterSeconds suspended doomed) := by
  unfold auditReaped
  split_ifs
  · refine uncommitting_tryCatch (uncommitting_forM (fun w => ?_) doomed) fun _ =>
      uncommitting_pure _
    exact uncommitting_bind (uncommitting_safeRecord _ _ _) fun _ => uncommitting_pure _
  · exact uncommitting_pure _

variable (p staleAfterSeconds) in
theorem auditReaped_returns (suspended : ℕ) (doomed : List Doomed)
    (s : OpsSession) :
    ∃ u s', auditReaped p staleAfterSeconds suspended doomed s = .ok u s' := by
  unfold auditReaped
  split_ifs
  · exact tryCatch_returns _ () s
  · exact ⟨(), s, rfl⟩

/-- **A refused audit row undoes the suspensions**, and the sweep raises. -/
theorem reapStaleWorkers_undone {db : OpsDb} {turns : List (Turn OthersChange)}
    (h : AuditFails (ending (reapStaleWorkers p staleAfterSeconds) (.opened db turns))) :
    Undone (reapStaleWorkers p staleAfterSeconds) (.opened db turns) := by
  unfold reapStaleWorkers at h ⊢
  split_ifs at h ⊢
  · obtain ⟨e, he⟩ := h
    cases he
  -- What is read and updated before the audit rows are sent has not been refused any.
  have hswept : Uncommitting (fun w => ¬ IsAudit w) (doomedWorkers p staleAfterSeconds >>=
      fun _ => suspendStale p staleAfterSeconds) :=
    uncommitting_bind uncommitting_doomedWorkers fun _ => uncommitting_suspendStale
  have hnot := not_auditFails hswept db turns
  obtain ⟨doomed, s₁, hdoomed⟩ := doomedWorkers_returns p staleAfterSeconds (.opened db turns)
  obtain ⟨huntouched, hwaits⟩ := (uncommitting_doomedWorkers (P := IsAudit)).of_ok hdoomed
    (waits_opened db turns)
  rw [ending, bind_of_ok hdoomed] at h hnot
  refine .bind hdoomed huntouched ?_
  rcases run_cases (suspendStale p staleAfterSeconds) s₁ with
    ⟨suspended, s₂, hsuspended⟩ | ⟨e, s₂, herr⟩
  · obtain ⟨huntouched₂, hwaits₂⟩ := (uncommitting_suspendStale (P := IsAudit)).of_ok hsuspended
      hwaits
    rw [bind_of_ok hsuspended] at h
    refine .bind hsuspended huntouched₂ ?_
    obtain ⟨u, s₃, haudited⟩ := auditReaped_returns p staleAfterSeconds suspended doomed s₂
    refine undone_of_refused (uncommitting_auditReaped _ _) haudited hwaits₂ (fun _ _ => rfl) ?_
    obtain ⟨e, he⟩ := h
    exact List.ne_nil_of_mem he
  · rw [bind_of_error herr] at h
    rw [herr] at hnot
    exact absurd h hnot

/-! ## Controls whose audit rows are accepted -/

theorem worker_revoked {d : OpsDb} {r : WorkerRow} {workerId : String}
    (hr : d.worker workerId = some r) (reason : String) :
    ((OpsWrite.revoke p.now reason r).apply d).worker workerId =
      some (revokeWorker p.now reason r r) := by
  have hid : ∀ r', (if r'.workerId = r.workerId then revokeWorker p.now reason r r'
      else r').workerId = r'.workerId := by
    intro r'
    split_ifs <;> rfl
  unfold OpsDb.worker at hr ⊢
  simp only [OpsWrite.apply, List.find?_map, Function.comp_def, hid, hr, Option.map_some, if_true]

/-- Audit rows leave the workers alone. -/
theorem workers_of_audits {ws : List OpsWrite} (h : ∀ w ∈ ws, IsAudit w) (d : OpsDb) :
    (actAll ws d).workers = d.workers := by
  induction ws generalizing d with
  | nil => rfl
  | cons w ws ih =>
    obtain ⟨e, rfl⟩ := h w List.mem_cons_self
    exact ih (fun w hw => h w (List.mem_cons_of_mem _ hw)) _

/-- An audit row that is accepted. -/
theorem goes_safeRecord {s : OpsSession} (hs : Quiet s) (workspaceId : Option Uuid)
    (event detail : String) : ∃ e, Goes (safeRecord p workspaceId event detail) s true [.audit e] :=
  ⟨platformEvent p workspaceId none event (some detail),
    goes_tryCatch (goes_bind (goes_flush hs rfl _) fun _ hs₁ _ => goes_pure hs₁)⟩

variable (p staleAfterSeconds) in
theorem goes_auditReaped {s : OpsSession} (hs : Quiet s) (suspended : ℕ)
    (doomed : List Doomed) :
    ∃ ws, (∀ w ∈ ws, IsAudit w) ∧
      Goes (auditReaped p staleAfterSeconds suspended doomed) s () ws := by
  have hrow : ∀ (w : Doomed) (s : OpsSession), Quiet s →
      ∃ ws, (∀ w ∈ ws, IsAudit w) ∧ Goes (do
        let _ ← recordWorkerReapedStale p w.workerId staleAfterSeconds w.workspaceId w.siteId
        return ()) s () ws := by
    intro w s hs
    unfold recordWorkerReapedStale
    obtain ⟨e, hgoes⟩ := goes_safeRecord (p := p) hs w.workspaceId _ _
    refine ⟨[.audit e], fun w hw => ⟨e, List.mem_singleton.mp hw⟩, ?_⟩
    exact goes_bind (v := []) hgoes fun _ hs₁ _ => goes_pure hs₁
  obtain ⟨ws, hws, hgoes⟩ := goes_forM hrow doomed hs
  unfold auditReaped
  split_ifs
  · exact ⟨ws, hws, goes_tryCatch hgoes⟩
  · exact ⟨[], List.forall_mem_nil _, goes_pure hs⟩

theorem goes_revokeWorkerRow {db : OpsDb} {workerId : String} {r : WorkerRow}
    (hr : db.worker workerId = some r) (reason : String) :
    Goes (revokeWorkerRow p workerId reason) (.opened db [] : OpsSession)
      (revokeWorker p.now reason r r) [.revoke p.now reason r] := by
  have hread : Goes (execute fun d => .ok (d.worker workerId, []) : Ops _) (.opened db [])
      (some r) [] :=
    goes_execute (quiet_opened db) (congrArg (fun row => Except.ok (row, [])) hr)
  refine goes_bind (u := []) hread fun s₁ hs₁ hview => ?_
  have hfits : (s₁.view.worker workerId).isSome = true := by
    rw [hview]
    exact Option.isSome_iff_exists.mpr ⟨r, hr⟩
  have hflush : Goes (flush (fun d => (d.worker workerId).isSome) [.revoke p.now reason r] : Ops _)
      s₁ () [.revoke p.now reason r] := goes_flush hs₁ hfits _
  exact goes_bind (f := fun _ => pure (revokeWorker p.now reason r r)) (v := []) hflush
    fun _ hs₂ _ => goes_pure hs₂

/-- **A revocation whose audit row is accepted stands.** -/
theorem revocation_stands {db : OpsDb} {workerId reason : String} {r : WorkerRow}
    (hr : db.worker workerId = some r) (actor : Option String) :
    RevocationStands p workerId reason actor (.opened db []) := by
  have hfound : Goes (revokeFound p workerId reason) (.opened db [] : OpsSession)
      (.ok (revokeWorker p.now reason r r)) [.revoke p.now reason r] :=
    goes_tryCatch (goes_bind (v := []) (goes_revokeWorkerRow hr reason) fun _ hs₁ _ =>
      goes_pure hs₁)
  obtain ⟨s₁, hok, hs₁, hview⟩ := hfound
  obtain ⟨e, haudited⟩ := goes_safeRecord (p := p) hs₁ r.workspaceId _ _
  obtain ⟨s₂, hok₂, hs₂, hview₂⟩ := goes_tryCatch haudited
  obtain ⟨s₃, hok₃, hcommitted⟩ := commit_quiet (E := WorkerNotAuthorized) hs₂
  refine ⟨revokeWorker p.now reason r r, true, s₃, ?_, revokeWorker p.now reason r r, ?_, ?_⟩
  · unfold revoke
    rw [bind_of_ok hok]
    exact (bind_of_ok hok₂).trans (bind_of_ok hok₃)
  · rw [hcommitted, hview₂, hview]
    exact worker_revoked hr reason
  · have hremains : r.Remains r := ⟨id, id, id⟩
    obtain ⟨hstatus, hdestroyed⟩ := revokeWorker_destroyed hremains p.now reason
    exact ⟨hstatus, Versions.flush_eq_assigned id, hdestroyed⟩

/-- The workers that the update of a sweep has found are suspended. -/
theorem worker_suspended {d : OpsDb} {r : WorkerRow} (hr : r ∈ d.workers)
    (hstale : Stale p staleAfterSeconds r) :
    ∃ r' ∈ ((OpsWrite.suspend p.now staleAfterSeconds).apply d).workers,
      r'.workerId = r.workerId ∧ r'.status = .suspended := by
  obtain ⟨r', hr'⟩ := Option.isSome_iff_exists.mp hstale
  refine ⟨r', List.mem_map.mpr ⟨r, hr, by rw [hr', Option.getD_some]⟩, ?_⟩
  obtain ⟨-, rfl⟩ := CondMachine.guarded_eq_some.mp hr'
  exact ⟨rfl, rfl⟩

/-- **Suspensions whose audit rows are accepted stand.** -/
theorem suspensions_stand (db : OpsDb) : SuspensionStands p staleAfterSeconds (.opened db []) := by
  unfold SuspensionStands reapStaleWorkers
  split_ifs with hgrace
  · exact ⟨0, .opened db [], rfl, fun d ⟨hno, _⟩ => absurd (hgrace.symm.trans hno) (by decide)⟩
  have hread : ∃ doomed, Goes (doomedWorkers p staleAfterSeconds) (.opened db [] : OpsSession)
      doomed [] := ⟨_, goes_tryCatch (goes_execute (quiet_opened db) rfl)⟩
  obtain ⟨doomed, s₁, hok, hs₁, hview⟩ := hread
  have hsuspend : ∃ n, Goes (suspendStale p staleAfterSeconds) s₁ n
      [.suspend p.now staleAfterSeconds] := ⟨_, goes_execute hs₁ rfl⟩
  obtain ⟨suspended, s₂, hok₂, hs₂, hview₂⟩ := hsuspend
  obtain ⟨ws, hws, s₃, hok₃, hs₃, hview₃⟩ := goes_auditReaped p staleAfterSeconds hs₂ suspended
    doomed
  obtain ⟨s₄, hok₄, hcommitted⟩ := commit_quiet (E := WorkerNotAuthorized) hs₃
  refine ⟨suspended, s₄, ?_, ?_⟩
  · rw [bind_of_ok hok, bind_of_ok hok₂, bind_of_ok hok₃]
    exact bind_of_ok hok₄
  · rintro d ⟨-, t, ht, rfl⟩ r hr hstale
    rw [ending_ok hok] at ht
    have hd : t = s₁.toSession := by
      rw [UnitOfWork.next_quiet hs₁.turns] at ht
      exact (Prod.mk.inj ht).2.symm
    rw [hd] at hr
    obtain ⟨r', hr', hsuspended⟩ := worker_suspended hr hstale
    refine ⟨r', ?_, hsuspended⟩
    rw [hcommitted, hview₃, workers_of_audits hws, hview₂]
    exact hr'

/-! ## A failing audit row -/

/-- **A refused audit row takes the control with it**: the revocation and the sweep raise, and
nothing of what they wrote is committed. -/
theorem audit_failure_undoes_control (p : Process) :
    (∀ workerId reason actor db turns,
      AuditFails (ending (revoke p workerId reason actor) (.opened db turns)) →
        Undone (revoke p workerId reason actor) (.opened db turns) ∧
          ¬ RevocationStands p workerId reason actor (.opened db turns)) ∧
    ∀ staleAfterSeconds db turns,
      AuditFails (ending (reapStaleWorkers p staleAfterSeconds) (.opened db turns)) →
        Undone (reapStaleWorkers p staleAfterSeconds) (.opened db turns) ∧
          ¬ SuspensionStands p staleAfterSeconds (.opened db turns) := by
  constructor
  · intro workerId reason actor db turns h
    have hundone := revoke_undone h
    refine ⟨hundone, ?_⟩
    rintro ⟨worker, audited, s', hok, -⟩
    rw [hundone.raises] at hok
    cases hok
  · intro staleAfterSeconds db turns h
    have hundone := reapStaleWorkers_undone h
    refine ⟨hundone, ?_⟩
    rintro ⟨suspended, s', hok, -⟩
    rw [hundone.raises] at hok
    cases hok

/-- A worker that was last seen at time 0. -/
def silentWorker : WorkerRow where
  workerId := "worker-site-lab-a"
  poolId := "private-lab-a"
  siteId := some 4
  workspaceId := some 3
  status := .active
  revokedAt := none
  tokenHash := some "digest"
  certFingerprint := none
  certNotAfter := none
  lastSeenAt := some 0
  healthState := .healthy
  lastHealthDetail := none
  lastHandshakeAgeS := none
  revokedReason := none
  createdAt := 0
  updatedAt := none

def labProcess : Process := ⟨3600 * second, "-", false, id⟩

/-- Nobody interferes, and the database refuses the third statement. -/
def thirdRefused : List (Turn OthersChange) := [⟨[], .done⟩, ⟨[], .done⟩, ⟨[], .failed⟩]

def labOps : OpsDb := ⟨[silentWorker], []⟩

theorem lab_revocation_fails :
    AuditFails (ending (revoke labProcess "worker-site-lab-a" "lost" none)
      (.opened labOps thirdRefused)) :=
  ⟨_, List.mem_singleton_self _⟩

theorem lab_sweep_fails :
    AuditFails (ending (reapStaleWorkers labProcess 600) (.opened labOps thirdRefused)) :=
  ⟨_, List.mem_singleton_self _⟩

theorem lab_controls_undone :
    Undone (revoke labProcess "worker-site-lab-a" "lost" none) (.opened labOps thirdRefused) ∧
      Undone (reapStaleWorkers labProcess 600) (.opened labOps thirdRefused) :=
  ⟨((audit_failure_undoes_control labProcess).1 _ _ _ _ _ lab_revocation_fails).1,
    ((audit_failure_undoes_control labProcess).2 _ _ _ lab_sweep_fails).1⟩

/-- **A revocation that is lost** with its audit row: the worker is active, with its credential. -/
theorem revocation_lost :
    (ending (revoke labProcess "worker-site-lab-a" "lost" none)
      (.opened labOps thirdRefused)).committed.workers = [silentWorker] ∧
    ¬ ((∀ p workerId reason actor db turns,
        AuditFails (ending (revoke p workerId reason actor) (.opened db turns)) →
          RevocationStands p workerId reason actor (.opened db turns)) ∧
      ∀ p staleAfterSeconds db turns,
        AuditFails (ending (reapStaleWorkers p staleAfterSeconds) (.opened db turns)) →
          SuspensionStands p staleAfterSeconds (.opened db turns)) := by
  refine ⟨rfl, fun hclaim => ?_⟩
  obtain ⟨worker, audited, s', hok, -⟩ := hclaim.1 _ _ _ _ _ _ lab_revocation_fails
  rw [(revoke_undone lab_revocation_fails).raises] at hok
  cases hok

end ScanPlatform.AuditedControl
