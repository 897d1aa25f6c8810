import ScanPlatform.Base.Versions
import ScanPlatform.Manager.Db
import ScanPlatform.Manager.ToolRuns

/-!
# The lifecycle of a worker

The row of a worker is enrolled, revoked and stamped by sessions that read it and flush the columns
that they changed, and is drained, reactivated and suspended by single conditional updates.

* `authenticateWorker`: which credentials are accepted;
* `enrolWorker`, `revokeWorker`, `recordHeartbeat`: what the sessions write;
* `drainWorker`, `reactivateWorker`, `reapStaleWorkers`: the conditional updates;
* `WorkerLife`, `workerStep`: a row with its sessions in progress, and the steps of all parties;
* `WorkerStep.Moves`, `workerStep_cases`, `row_step`: how a step may change the row;
* **`worker_lifecycle`**, `revoked_worker_enrolled`: when revocation is final, and a run in which a
  revoked worker is enrolled again.
-/

set_option autoImplicit false

namespace ScanPlatform

open CondMachine Versions

/-! ## The row and its credentials -/

/-- `WORKER_HEALTH_STATES`. -/
inductive HealthState where
  | healthy
  | degraded
  | unhealthy
  | unknown
  deriving DecidableEq

/-- A row of `scanner_workers` with its credentials and its health. -/
structure WorkerRow extends ScannerWorker where
  tokenHash : Option String
  certFingerprint : Option String
  certNotAfter : Option ℤ
  lastSeenAt : Option ℤ
  healthState : HealthState
  lastHealthDetail : Option String
  lastHandshakeAgeS : Option ℤ
  revokedReason : Option String
  createdAt : ℤ
  updatedAt : Option ℤ

/-- `hash_worker_token`. -/
def hashWorkerToken (svc : Services) (token : String) : String := svc.sha256 (svc.encode token)

/-- `hmac.compare_digest` of two strings, which must be ASCII. -/
def compareDigest (a b : String) : Except Fault Bool :=
  if a.toList.all (·.val < 128) ∧ b.toList.all (·.val < 128) then .ok (a = b)
  else .error (.raised "TypeError")

/-- `authenticate_worker`, with the answers of `authenticated_worker`. -/
def authenticateWorker (svc : Services) (now : ℤ) (row : Option WorkerRow)
    (token certFingerprint : Option String) : Except Fault WorkerRow :=
  match row with
  | none => .error (.http 403 "WORKER_UNKNOWN")
  | some worker => do
    let presented := certFingerprint.getD ""
    let stored := worker.certFingerprint.getD ""
    let byCert ← if presented ≠ "" ∧ stored ≠ "" then compareDigest stored presented else .ok false
    let token := token.getD ""
    let tokenHash := worker.tokenHash.getD ""
    let ok ←
      if byCert ∧ worker.certNotAfter.all (now ≤ ·) then .ok true
      else if token ≠ "" ∧ tokenHash ≠ "" then compareDigest tokenHash (hashWorkerToken svc token)
      else .ok false
    if ok then .ok worker else .error (.http 403 "WORKER_BAD_CREDENTIAL")

/-- Neither credential is stored. -/
structure WorkerRow.Destroyed (r : WorkerRow) : Prop where
  tokenHash : r.tokenHash = none
  certFingerprint : r.certFingerprint = none

/-- **No credential is accepted** for a row whose credentials are destroyed. -/
theorem authenticateWorker_destroyed {r : WorkerRow} (h : r.Destroyed) (svc : Services) (now : ℤ)
    (token certFingerprint : Option String) :
    authenticateWorker svc now (some r) token certFingerprint =
      .error (.http 403 "WORKER_BAD_CREDENTIAL") := by
  simp [authenticateWorker, h.tokenHash, h.certFingerprint, bind, Except.bind]

/-! ## Sessions -/

/-- What a provisioning script gives a worker. -/
structure Enrolment where
  workerId : String
  poolId : String
  siteId : Option Uuid
  workspaceId : Option Uuid
  token : String

/-- The worker of `provision_lab_site`: inserted, or updated when the script found one. An insertion
fails when there is a row by then. -/
def enrolWorker (svc : Services) (now : ℤ) (e : Enrolment) :
    Option WorkerRow → Option WorkerRow → Option WorkerRow
  | none, none => some {
      workerId := e.workerId
      poolId := e.poolId
      siteId := e.siteId
      workspaceId := e.workspaceId
      status := .active
      revokedAt := none
      tokenHash := some (hashWorkerToken svc e.token)
      certFingerprint := none
      certNotAfter := none
      lastSeenAt := none
      healthState := .unknown
      lastHealthDetail := none
      lastHandshakeAgeS := none
      revokedReason := none
      createdAt := now
      updatedAt := none }
  | some read, some r => some { r with
      poolId := flush read.poolId e.poolId r.poolId
      siteId := flush read.siteId e.siteId r.siteId
      workspaceId := flush read.workspaceId e.workspaceId r.workspaceId
      status := flush read.status .active r.status
      tokenHash := flush read.tokenHash (some (hashWorkerToken svc e.token)) r.tokenHash }
  | none, some _ | some _, none => none

/-- `revoke_worker`. -/
def revokeWorker (now : ℤ) (reason : String) (read r : WorkerRow) : WorkerRow :=
  { r with
    status := flush read.status .revoked r.status
    revokedAt := flush read.revokedAt (some now) r.revokedAt
    revokedReason := flush read.revokedReason (some reason) r.revokedReason
    tokenHash := flush read.tokenHash none r.tokenHash
    certFingerprint := flush read.certFingerprint none r.certFingerprint
    updatedAt := flush read.updatedAt (some now) r.updatedAt }

structure HeartbeatIn where
  healthState : HealthState
  detail : Option String
  handshakeAgeS : Option ℕ

/-- `record_heartbeat`. -/
def recordHeartbeat (now : ℤ) (payload : HeartbeatIn) (read r : WorkerRow) : WorkerRow :=
  { r with
    lastSeenAt := flush read.lastSeenAt (some now) r.lastSeenAt
    healthState := flush read.healthState payload.healthState r.healthState
    lastHealthDetail := flush read.lastHealthDetail payload.detail r.lastHealthDetail
    lastHandshakeAgeS := payload.handshakeAgeS.elim r.lastHandshakeAgeS fun age =>
      flush read.lastHandshakeAgeS (some age) r.lastHandshakeAgeS }

/-! ## Conditional updates -/

/-- `drain_worker`. -/
def drainWorker (now : ℤ) (r : WorkerRow) : Option WorkerRow :=
  if r.status = .active ∧ r.revokedAt = none then
    some { r with status := .draining, updatedAt := some now }
  else none

/-- `reactivate_worker`. -/
def reactivateWorker (now : ℤ) (reason : String) (r : WorkerRow) : Option WorkerRow :=
  if r.status = .suspended ∧ r.revokedAt = none then
    some { r with
      status := .active
      lastHealthDetail := some (PyStr.upTo 1000 ("reactivated by operator: " ++ reason))
      updatedAt := some now }
  else none

/-- The row in `reap_stale_workers`, of which the process may be in its startup grace. -/
def reapStaleWorkers (now staleAfterSeconds : ℤ) (inGrace : Bool) (r : WorkerRow) :
    Option WorkerRow :=
  if inGrace = false ∧ r.status = .active ∧ r.revokedAt = none ∧
      r.lastSeenAt.getD r.createdAt < now - staleAfterSeconds * second then
    some { r with
      status := .suspended
      lastHealthDetail := some (s!"stale: no worker heartbeat for {staleAfterSeconds}s; " ++
        "suspended by the worker reaper (reversible -- reactivate once the worker is known good)")
      updatedAt := some now }
  else none

/-! ## The row and all who write it -/

inductive WorkerWrite where
  | enrol (enrolment : Enrolment)
  | revoke (reason : String)
  | heartbeat (payload : HeartbeatIn)

/-- A session that has read the row and has not committed. -/
structure WorkerSession where
  read : Option WorkerRow
  write : WorkerWrite

structure WorkerLife where
  row : Option WorkerRow
  sessions : Table ℕ WorkerSession

inductive WorkerStep where
  | beginEnrol (session : ℕ) (enrolment : Enrolment)
  | beginRevoke (session : ℕ) (reason : String)
  | beginHeartbeat (session : ℕ) (now : ℤ) (token certFingerprint : Option String)
      (payload : HeartbeatIn)
  | commit (session : ℕ) (now : ℤ)
  | rollback (session : ℕ)
  | drain (now : ℤ)
  | reactivate (now : ℤ) (reason : String)
  | reap (now staleAfterSeconds : ℤ) (inGrace : Bool)

/-- What a session makes of the row: `none` when its commit fails. -/
def WorkerSession.commit (svc : Services) (now : ℤ) (s : WorkerSession) (row : Option WorkerRow) :
    Option WorkerRow :=
  match s.write with
  | .enrol enrolment => enrolWorker svc now enrolment s.read row
  | .revoke reason => s.read.bind fun read => row.map (revokeWorker now reason read)
  | .heartbeat payload => s.read.bind fun read => row.map (recordHeartbeat now payload read)

/-- A session begins unless its number is taken. -/
def WorkerLife.start (T : WorkerLife) (n : ℕ) (write : WorkerWrite) : Option WorkerLife :=
  if (T.sessions n).isNone then some { T with sessions := T.sessions.set n ⟨T.row, write⟩ }
  else none

/-- A revocation needs a row, and a heartbeat a credential and a status that may act. -/
def workerStep (svc : Services) : WorkerStep → WorkerLife → Option WorkerLife
  | .beginEnrol n enrolment, T => T.start n (.enrol enrolment)
  | .beginRevoke n reason, T => if T.row.isSome then T.start n (.revoke reason) else none
  | .beginHeartbeat n now token cert payload, T =>
    match authenticateWorker svc now T.row token cert with
    | .error _ => none
    | .ok worker =>
      match assertWorkerActive worker.toScannerWorker with
      | .error _ => none
      | .ok () => T.start n (.heartbeat payload)
  | .commit n now, T =>
    (T.sessions n).map fun s =>
      { row := (s.commit svc now T.row).or T.row, sessions := Function.update T.sessions n none }
  | .rollback n, T => some { T with sessions := Function.update T.sessions n none }
  | .drain now, T => (T.row.bind (drainWorker now)).map fun r => { T with row := some r }
  | .reactivate now reason, T =>
    (T.row.bind (reactivateWorker now reason)).map fun r => { T with row := some r }
  | .reap now stale inGrace, T =>
    (T.row.bind (reapStaleWorkers now stale inGrace)).map fun r => { T with row := some r }

/-! ## How the status may change -/

/-- The changes of status that a step may make. -/
inductive WorkerStep.Moves : WorkerStep → WorkerStatus → WorkerStatus → Prop
  | stay (a : WorkerStep) (st : WorkerStatus) : Moves a st st
  | revoke (n : ℕ) (now : ℤ) (st : WorkerStatus) : Moves (.commit n now) st .revoked
  | drain (now : ℤ) : Moves (.drain now) .active .draining
  | suspend (now stale : ℤ) (inGrace : Bool) : Moves (.reap now stale inGrace) .active .suspended
  | reactivate (now : ℤ) (reason : String) : Moves (.reactivate now reason) .suspended .active

theorem WorkerStep.Moves.of_revoked {a : WorkerStep} {st : WorkerStatus}
    (h : a.Moves .revoked st) : st = .revoked := by
  cases h <;> rfl

theorem WorkerStep.Moves.of_draining {a : WorkerStep} {st : WorkerStatus}
    (h : a.Moves .draining st) : st = .draining ∨ st = .revoked := by
  cases h with
  | stay => exact .inl rfl
  | revoke => exact .inr rfl

theorem WorkerStep.Moves.to_active {a : WorkerStep} {st : WorkerStatus} (h : a.Moves st .active)
    (hne : st ≠ .active) : st = .suspended ∧ ∃ now reason, a = .reactivate now reason := by
  cases h with
  | stay => exact absurd rfl hne
  | reactivate now reason => exact ⟨rfl, now, reason, rfl⟩

theorem WorkerStep.Moves.of_reap {now stale : ℤ} {inGrace : Bool} {st st' : WorkerStatus}
    (h : (WorkerStep.reap now stale inGrace).Moves st st') (hne : st' ≠ st) :
    st = .active ∧ st' = .suspended := by
  cases h with
  | stay => exact absurd rfl hne
  | suspend => exact ⟨rfl, rfl⟩

/-- What a conditional update does: it moves a row that is not revoked, and leaves the credentials
alone. -/
structure WorkerStep.Updates (a : WorkerStep) (r r' : WorkerRow) : Prop where
  moves : a.Moves r.status r'.status
  before : r.status ≠ .revoked
  after : r'.status ≠ .revoked
  tokenHash : r'.tokenHash = r.tokenHash
  certFingerprint : r'.certFingerprint = r.certFingerprint

theorem drainWorker_updates {now : ℤ} {r r' : WorkerRow} (h : drainWorker now r = some r') :
    (WorkerStep.drain now).Updates r r' := by
  obtain ⟨⟨hactive, -⟩, rfl⟩ := guarded_eq_some.mp h
  refine ⟨?_, ?_, WorkerStatus.noConfusion, rfl, rfl⟩
  · rw [hactive]
    exact .drain now
  · rw [hactive]
    decide

theorem reactivateWorker_updates {now : ℤ} {reason : String} {r r' : WorkerRow}
    (h : reactivateWorker now reason r = some r') :
    (WorkerStep.reactivate now reason).Updates r r' := by
  obtain ⟨⟨hsuspended, -⟩, rfl⟩ := guarded_eq_some.mp h
  refine ⟨?_, ?_, WorkerStatus.noConfusion, rfl, rfl⟩
  · rw [hsuspended]
    exact .reactivate now reason
  · rw [hsuspended]
    decide

theorem reapStaleWorkers_updates {now stale : ℤ} {inGrace : Bool} {r r' : WorkerRow}
    (h : reapStaleWorkers now stale inGrace r = some r') :
    (WorkerStep.reap now stale inGrace).Updates r r' := by
  obtain ⟨⟨-, hactive, -⟩, rfl⟩ := guarded_eq_some.mp h
  refine ⟨?_, ?_, WorkerStatus.noConfusion, rfl, rfl⟩
  · rw [hactive]
    exact .suspend now stale inGrace
  · rw [hactive]
    decide

/-- What a revocation in progress relies on: what it read as final is still so. -/
structure WorkerRow.Remains (read r : WorkerRow) : Prop where
  status : read.status = .revoked → r.status = .revoked
  tokenHash : read.tokenHash = none → r.tokenHash = none
  certFingerprint : read.certFingerprint = none → r.certFingerprint = none

/-- A revoked row has no credentials, and every revocation in progress will destroy them. -/
structure WorkerLife.Sound (T : WorkerLife) : Prop where
  destroyed : ∀ r ∈ T.row, r.status = .revoked → r.Destroyed
  revoking : ∀ n s reason, T.sessions n = some s → s.write = .revoke reason →
    ∃ read ∈ s.read, ∃ r ∈ T.row, read.Remains r

/-- An enrolment that found a row leaves it alone unless the row is active, or was when it was read
and is not revoked; and no revocation in progress has read the row without a token. -/
def EnrolsHarmlessly (T : WorkerLife) (a : WorkerStep) : Prop :=
  ∀ n now s enrolment read r, a = .commit n now → T.sessions n = some s →
    s.write = .enrol enrolment → s.read = some read → T.row = some r →
    (r.status = .active ∨ read.status = .active ∧ r.status ≠ .revoked) ∧
      ∀ m s' reason, T.sessions m = some s' → s'.write = .revoke reason →
        ∀ read' ∈ s'.read, read'.tokenHash ≠ none

/-- **A revocation destroys the credentials** when what it read remains. -/
theorem revokeWorker_destroyed {read r : WorkerRow} (h : read.Remains r) (now : ℤ)
    (reason : String) :
    (revokeWorker now reason read r).status = .revoked ∧
      (revokeWorker now reason read r).Destroyed :=
  ⟨flush_eq_assigned h.status, flush_eq_assigned h.tokenHash,
    flush_eq_assigned h.certFingerprint⟩

/-- A heartbeat leaves the status and the credentials alone. -/
theorem recordHeartbeat_frame (now : ℤ) (payload : HeartbeatIn) (read r : WorkerRow) :
    (recordHeartbeat now payload read r).status = r.status ∧
      (recordHeartbeat now payload read r).tokenHash = r.tokenHash ∧
      (recordHeartbeat now payload read r).certFingerprint = r.certFingerprint :=
  ⟨rfl, rfl, rfl⟩

variable {svc : Services}

/-- What a step writes on a row. -/
structure RowMoves (a : WorkerStep) (T : WorkerLife) (r r' : WorkerRow) : Prop where
  status : a.Moves r.status r'.status
  destroyed : r'.status = .revoked → r'.Destroyed
  remains : ∀ n s reason read, T.sessions n = some s → s.write = .revoke reason →
    read ∈ s.read → read.Remains r → read.Remains r'

/-- A write that leaves the credentials of a row alone, and its status if it is revoked. -/
theorem RowMoves.of_frame {a : WorkerStep} {T : WorkerLife} {r r' : WorkerRow}
    (hmoves : a.Moves r.status r'.status) (hrevoked : r'.status = .revoked → r.status = .revoked)
    (htoken : r'.tokenHash = r.tokenHash) (hcert : r'.certFingerprint = r.certFingerprint)
    (hdestroyed : r.status = .revoked → r.Destroyed) : RowMoves a T r r' where
  status := hmoves
  destroyed h := ⟨htoken.trans (hdestroyed (hrevoked h)).tokenHash,
    hcert.trans (hdestroyed (hrevoked h)).certFingerprint⟩
  remains _ _ _ read _ _ _ h := by
    refine ⟨fun hread => ?_, fun hread => htoken.trans (h.tokenHash hread), fun hread =>
      hcert.trans (h.certFingerprint hread)⟩
    have hr := h.status hread
    rw [hr] at hmoves
    exact hmoves.of_revoked

/-- **What a commit writes.** -/
theorem commit_row {T : WorkerLife} {n : ℕ} {now : ℤ} {s : WorkerSession} {r : WorkerRow}
    (hT : T.Sound) (hharmless : EnrolsHarmlessly T (.commit n now)) (hs : T.sessions n = some s)
    (hr : T.row = some r) :
    ∃ r', (s.commit svc now (some r)).or (some r) = some r' ∧
      RowMoves (.commit n now) T r r' := by
  have hstay : RowMoves (.commit n now) T r r :=
    .of_frame (.stay _ _) id rfl rfl (hT.destroyed r hr)
  unfold WorkerSession.commit
  cases hwrite : s.write with
  | enrol e =>
    cases hread : s.read with
    | none => exact ⟨r, rfl, hstay⟩
    | some read =>
      obtain ⟨hstatus, htokens⟩ := hharmless n now s e read r rfl hs hwrite hread hr
      refine ⟨_, rfl, ?_⟩
      have hkept : flush read.status .active r.status = r.status := by
        unfold flush
        split_ifs with hactive
        · rfl
        · exact (hstatus.resolve_right fun h => hactive h.1.symm).symm
      have hrevoked : r.status ≠ .revoked := by
        rcases hstatus with h | h
        · rw [h]
          decide
        · exact h.2
      refine ⟨?_, fun h => absurd (hkept.symm.trans h) hrevoked, ?_⟩
      · simp only [hkept]
        exact .stay _ _
      · intro m s' reason read' hs' hwrite' hread' hremains
        exact ⟨fun h => absurd (hremains.status h) hrevoked,
          fun h => absurd h (htokens m s' reason hs' hwrite' read' hread'),
          hremains.certFingerprint⟩
  | revoke reason =>
    obtain ⟨read, hread, r₀, hr₀, hremains⟩ := hT.revoking n s reason hs hwrite
    rw [hr] at hr₀
    cases hr₀
    rw [Option.mem_def] at hread
    obtain ⟨hstatus, hdestroyed⟩ := revokeWorker_destroyed hremains now reason
    refine ⟨revokeWorker now reason read r, by rw [hread]; rfl, ?_, fun _ => hdestroyed, ?_⟩
    · rw [hstatus]
      exact .revoke n now _
    · exact fun _ _ _ _ _ _ _ _ => ⟨fun _ => hstatus, fun _ => hdestroyed.tokenHash,
        fun _ => hdestroyed.certFingerprint⟩
  | heartbeat payload =>
    cases hread : s.read with
    | none => exact ⟨r, rfl, hstay⟩
    | some read =>
      obtain ⟨hstatus, htoken, hcert⟩ := recordHeartbeat_frame now payload read r
      refine ⟨recordHeartbeat now payload read r, rfl, .of_frame ?_ (fun h => ?_) htoken hcert
        (hT.destroyed r hr)⟩
      · rw [hstatus]
        exact .stay _ _
      · rwa [hstatus] at h

/-- **What a step does**: a session begins or ends without a commit, a session commits, or a
conditional update takes effect. -/
theorem workerStep_cases {a : WorkerStep} {T T' : WorkerLife} (h : workerStep svc a T = some T') :
    (T'.row = T.row ∧ ((∃ n write, T'.sessions = T.sessions.set n ⟨T.row, write⟩ ∧
        ((∃ reason, write = .revoke reason) → T.row.isSome)) ∨
      ∃ n, T'.sessions = Function.update T.sessions n none)) ∨
    (∃ n now s, a = .commit n now ∧ T.sessions n = some s ∧
      T' = { row := (s.commit svc now T.row).or T.row
             sessions := Function.update T.sessions n none }) ∨
    ∃ r r', T.row = some r ∧ T' = { T with row := some r' } ∧ a.Updates r r' := by
  cases a with
  | beginEnrol n e =>
    obtain ⟨-, rfl⟩ := guarded_eq_some.mp h
    refine .inl ⟨rfl, .inl ⟨n, _, rfl, ?_⟩⟩
    rintro ⟨reason, hreason⟩
    cases hreason
  | beginRevoke n reason =>
    simp only [workerStep] at h
    split_ifs at h with hrow
    obtain ⟨-, rfl⟩ := guarded_eq_some.mp h
    exact .inl ⟨rfl, .inl ⟨n, _, rfl, fun _ => hrow⟩⟩
  | beginHeartbeat n now token cert payload =>
    simp only [workerStep] at h
    split at h
    · cases h
    · split at h
      · cases h
      · obtain ⟨-, rfl⟩ := guarded_eq_some.mp h
        refine .inl ⟨rfl, .inl ⟨n, _, rfl, ?_⟩⟩
        rintro ⟨reason, hreason⟩
        cases hreason
  | commit n now =>
    simp only [workerStep, Option.map_eq_some_iff] at h
    obtain ⟨s, hs, rfl⟩ := h
    exact .inr (.inl ⟨n, now, s, rfl, hs, rfl⟩)
  | rollback n =>
    cases h
    exact .inl ⟨rfl, .inr ⟨n, rfl⟩⟩
  | drain now =>
    simp only [workerStep, Option.map_eq_some_iff, Option.bind_eq_some_iff] at h
    obtain ⟨r', ⟨r, hr, hdrain⟩, rfl⟩ := h
    exact .inr (.inr ⟨r, r', hr, rfl, drainWorker_updates hdrain⟩)
  | reactivate now reason =>
    simp only [workerStep, Option.map_eq_some_iff, Option.bind_eq_some_iff] at h
    obtain ⟨r', ⟨r, hr, hreactivate⟩, rfl⟩ := h
    exact .inr (.inr ⟨r, r', hr, rfl, reactivateWorker_updates hreactivate⟩)
  | reap now stale inGrace =>
    simp only [workerStep, Option.map_eq_some_iff, Option.bind_eq_some_iff] at h
    obtain ⟨r', ⟨r, hr, hreap⟩, rfl⟩ := h
    exact .inr (.inr ⟨r, r', hr, rfl, reapStaleWorkers_updates hreap⟩)

/-- **The step lemma of a row.** -/
theorem row_step {a : WorkerStep} {T T' : WorkerLife} {r : WorkerRow} (hT : T.Sound)
    (hharmless : EnrolsHarmlessly T a) (h : workerStep svc a T = some T') (hr : T.row = some r) :
    ∃ r', T'.row = some r' ∧ RowMoves a T r r' := by
  rcases workerStep_cases h with ⟨hrow, -⟩ | ⟨n, now, s, rfl, hs, rfl⟩ |
    ⟨r₀, r', hr₀, rfl, hupdates⟩
  · exact ⟨r, hrow.trans hr, .of_frame (.stay _ _) id rfl rfl (hT.destroyed r hr)⟩
  · rw [hr]
    exact commit_row hT hharmless hs hr
  · rw [hr] at hr₀
    cases hr₀
    exact ⟨r', rfl, .of_frame hupdates.moves (fun h => absurd h hupdates.after)
      hupdates.tokenHash hupdates.certFingerprint fun h => absurd h hupdates.before⟩

/-- The sessions after a step: they were there, or begin at the row as it is. -/
theorem sessions_step {a : WorkerStep} {T T' : WorkerLife} (h : workerStep svc a T = some T')
    {n : ℕ} {s : WorkerSession} (hs : T'.sessions n = some s) :
    T.sessions n = some s ∨ T'.row = T.row ∧ s.read = T.row ∧
      ((∃ reason, s.write = .revoke reason) → T.row.isSome) := by
  have hupdate : ∀ m, T'.sessions = Function.update T.sessions m none →
      T.sessions n = some s := fun m hm => by
    rw [hm, Function.update_apply] at hs
    split_ifs at hs
    exact hs
  rcases workerStep_cases h with ⟨hrow, ⟨m, write, hm, hread⟩ | ⟨m, hm⟩⟩ |
    ⟨m, now, _, -, -, rfl⟩ | ⟨_, r', -, rfl, -⟩
  · rw [hm, Table.set_apply] at hs
    split_ifs at hs
    · cases hs
      exact .inr ⟨hrow, rfl, hread⟩
    · exact .inl hs
  · exact .inl (hupdate m hm)
  · exact .inl (hupdate m rfl)
  · exact .inl hs

/-- A row that a commit inserts is active. -/
theorem inserted_active {T : WorkerLife} (hT : T.Sound) (hr : T.row = none) {n : ℕ} {now : ℤ}
    {s : WorkerSession} (hs : T.sessions n = some s) {r' : WorkerRow}
    (h : s.commit svc now none = some r') : r'.status = .active := by
  unfold WorkerSession.commit at h
  cases hwrite : s.write with
  | enrol e =>
    rw [hwrite] at h
    cases hread : s.read with
    | none =>
      rw [hread] at h
      cases h
      rfl
    | some read =>
      rw [hread] at h
      cases h
  | revoke reason =>
    obtain ⟨read, -, r, hr₀, -⟩ := hT.revoking n s reason hs hwrite
    rw [hr] at hr₀
    cases hr₀
  | heartbeat payload =>
    rw [hwrite] at h
    cases hread : s.read with
    | none =>
      rw [hread] at h
      cases h
    | some read =>
      rw [hread] at h
      cases h

theorem sound_step (T : WorkerLife) (a : WorkerStep) (T' : WorkerLife) (hT : T.Sound)
    (hharmless : EnrolsHarmlessly T a) (h : workerStep svc a T = some T') : T'.Sound where
  destroyed r' hr' hrevoked := by
    cases hr : T.row with
    | some r =>
      obtain ⟨r'', hr'', hmoves⟩ := row_step hT hharmless h hr
      rw [Option.mem_def, hr''] at hr'
      cases hr'
      exact hmoves.destroyed hrevoked
    | none =>
      rcases workerStep_cases h with ⟨hrow, -⟩ | ⟨n, now, s, rfl, hs, rfl⟩ | ⟨r, _, hr', -⟩
      · rw [Option.mem_def, hrow, hr] at hr'
        cases hr'
      · rw [Option.mem_def, hr, Option.or_none] at hr'
        rw [inserted_active hT hr hs hr'] at hrevoked
        cases hrevoked
      · rw [hr] at hr'
        cases hr'
  revoking n s reason hs hwrite := by
    rcases sessions_step h hs with hold | ⟨hrow, hread, hsome⟩
    · obtain ⟨read, hread, r, hr, hremains⟩ := hT.revoking n s reason hold hwrite
      obtain ⟨r', hr', hmoves⟩ := row_step hT hharmless h hr
      exact ⟨read, hread, r', hr', hmoves.remains n s reason read hold hwrite hread hremains⟩
    · obtain ⟨r, hr⟩ := Option.isSome_iff_exists.mp (hsome ⟨reason, hwrite⟩)
      exact ⟨r, hread.trans hr, r, hrow.trans hr, id, id, id⟩

/-- A kind of status that no step leaves. -/
theorem status_run {P : WorkerStatus → Prop}
    (hP : ∀ (a : WorkerStep) st st', P st → a.Moves st st' → P st') {T : WorkerLife} (hT : T.Sound)
    {σ : List WorkerStep} (hharmless : Along (workerStep svc) EnrolsHarmlessly T σ) {r : WorkerRow}
    (hr : T.row = some r) (hstatus : P r.status) :
    ∃ r', (run (workerStep svc) T σ).row = some r' ∧ P r'.status := by
  have hstep : ∀ T a T', (T.Sound ∧ ∃ r, T.row = some r ∧ P r.status) → EnrolsHarmlessly T a →
      workerStep svc a T = some T' → T'.Sound ∧ ∃ r', T'.row = some r' ∧ P r'.status := by
    rintro T a T' ⟨hT, r, hr, hstatus⟩ ha h
    obtain ⟨r', hr', hmoves⟩ := row_step hT ha h hr
    exact ⟨sound_step T a T' hT ha h, r', hr', hP a _ _ hstatus hmoves.status⟩
  exact (run_invariant_along hstep ⟨hT, r, hr, hstatus⟩ hharmless).2

/-! ## The lifecycle -/

/-- **The lifecycle of a worker** over a run: revocation is final and no credential is accepted
after it, a drain is never undone, `active` is entered from `suspended` by a reactivation only, and
the reaper suspends active workers and does nothing else. -/
structure WorkerLifecycle (svc : Services) (T₀ : WorkerLife) (σ : List WorkerStep) : Prop where
  revoked : ∀ τ₁ τ₂ r, τ₁ ++ τ₂ <+: σ → (run (workerStep svc) T₀ τ₁).row = some r →
    r.status = .revoked → ∃ r', (run (workerStep svc) T₀ (τ₁ ++ τ₂)).row = some r' ∧
      r'.status = .revoked ∧
      ∀ now token cert worker, authenticateWorker svc now (some r') token cert ≠ .ok worker
  draining : ∀ τ₁ τ₂ r, τ₁ ++ τ₂ <+: σ → (run (workerStep svc) T₀ τ₁).row = some r →
    r.status = .draining →
    ∀ r' ∈ (run (workerStep svc) T₀ (τ₁ ++ τ₂)).row, r'.status ≠ .active
  active : ∀ τ a r r', τ ++ [a] <+: σ → (run (workerStep svc) T₀ τ).row = some r →
    (run (workerStep svc) T₀ (τ ++ [a])).row = some r' → r.status ≠ .active →
    r'.status = .active → r.status = .suspended ∧ ∃ now reason, a = .reactivate now reason
  reaper : ∀ τ now stale inGrace r r', τ ++ [.reap now stale inGrace] <+: σ →
    (run (workerStep svc) T₀ τ).row = some r →
    (run (workerStep svc) T₀ (τ ++ [.reap now stale inGrace])).row = some r' →
    r'.status ≠ r.status → r.status = .active ∧ r'.status = .suspended

/-- No session is in progress, and a revoked row has no credentials. -/
structure WorkerLife.Idle (T : WorkerLife) : Prop where
  sessions : ∀ n, T.sessions n = none
  destroyed : ∀ r ∈ T.row, r.status = .revoked → r.Destroyed

/-- The change of status between a state and the next. -/
theorem moves_next {T : WorkerLife} {a : WorkerStep} {r r' : WorkerRow} (hT : T.Sound)
    (hharmless : EnrolsHarmlessly T a) (hr : T.row = some r)
    (hr' : (next (workerStep svc) T a).row = some r') : a.Moves r.status r'.status := by
  rcases next_cases (workerStep svc) T a with h | ⟨-, h⟩
  · obtain ⟨r'', hr'', hmoves⟩ := row_step hT hharmless h hr
    rw [hr''] at hr'
    cases hr'
    exact hmoves.status
  · rw [h, hr] at hr'
    cases hr'
    exact .stay _ _

/-- **The lifecycle of a worker** is kept in every run in which enrolments that find a row are
harmless. -/
theorem worker_lifecycle {T₀ : WorkerLife} (h0 : T₀.Idle) {σ : List WorkerStep}
    (hharmless : Along (workerStep svc) EnrolsHarmlessly T₀ σ) : WorkerLifecycle svc T₀ σ := by
  have hsound : ∀ τ, τ <+: σ → (run (workerStep svc) T₀ τ).Sound := by
    rintro τ ⟨τ', rfl⟩
    refine run_invariant_along sound_step ⟨h0.destroyed, fun n s _ hs _ => ?_⟩ hharmless.prefix
    rw [h0.sessions n] at hs
    cases hs
  have hafter : ∀ τ₁ τ₂, τ₁ ++ τ₂ <+: σ →
      Along (workerStep svc) EnrolsHarmlessly (run (workerStep svc) T₀ τ₁) τ₂ := by
    rintro τ₁ τ₂ ⟨τ₃, rfl⟩
    exact hharmless.prefix.drop
  have hmoves : ∀ τ a r r', τ ++ [a] <+: σ → (run (workerStep svc) T₀ τ).row = some r →
      (run (workerStep svc) T₀ (τ ++ [a])).row = some r' → a.Moves r.status r'.status := by
    intro τ a r r' hτ hr hr'
    rw [run_concat] at hr'
    exact moves_next (hsound τ ((List.prefix_append _ _).trans hτ))
      (hafter τ [a] hτ [] a [] rfl) hr hr'
  refine ⟨fun τ₁ τ₂ r hτ hr hrevoked => ?_, fun τ₁ τ₂ r hτ hr hdraining r' hr' => ?_,
    fun τ a r r' hτ hr hr' hbefore hactive => ?_, fun τ now stale inGrace r r' hτ hr hr' hne => ?_⟩
  · obtain ⟨r', hr', hrevoked'⟩ := status_run (P := (· = .revoked))
      (fun a st st' hst h => (hst ▸ h).of_revoked) (hsound τ₁ ((List.prefix_append _ _).trans hτ))
      (hafter τ₁ τ₂ hτ) hr hrevoked
    rw [← run_append] at hr'
    refine ⟨r', hr', hrevoked', fun now token cert worker => ?_⟩
    rw [authenticateWorker_destroyed ((hsound _ hτ).destroyed r' hr' hrevoked')]
    exact fun h => by cases h
  · obtain ⟨r'', hr'', hkept⟩ := status_run (P := fun st => st = .draining ∨ st = .revoked)
      (fun a st st' hst h => by
        rcases hst with rfl | rfl
        · exact h.of_draining
        · exact .inr h.of_revoked)
      (hsound τ₁ ((List.prefix_append _ _).trans hτ)) (hafter τ₁ τ₂ hτ) hr (.inl hdraining)
    rw [← run_append] at hr''
    rw [Option.mem_def, hr''] at hr'
    cases hr'
    rcases hkept with h | h
    · rw [h]
      decide
    · rw [h]
      decide
  · have hstep := hmoves τ a r r' hτ hr hr'
    rw [hactive] at hstep
    exact hstep.to_active hbefore
  · exact (hmoves τ _ r r' hτ hr hr').of_reap hne

/-! ## A worker that is enrolled again -/

/-- Services that know the digests of the tokens t and u. -/
def tokenServices : Services :=
  .ascii [([116], "e3b98a4da31a127d4bde6e43033f66ba274cab0eb7eb1c70ec41402bf6273dd8"),
    ([117], "0bfe935e70c321c7ca3afc75ce0d0ca2f98b5422e008bb31c00c6d7f1f1c0ad6")] fun _ _ => none

def labWorker (token : String) : Enrolment where
  workerId := "worker-site-lab-a"
  poolId := "private-lab-a"
  siteId := some 4
  workspaceId := some 3
  token

/-- A worker is enrolled and revoked. -/
def enrolledAndRevoked : List WorkerStep :=
  [.beginEnrol 0 (labWorker "t"), .commit 0 1, .beginRevoke 1 "lost", .commit 1 2]

/-- A revoked worker that is not enrolled again, but reactivated. -/
theorem worker_lifecycle_reactivated :
    WorkerLifecycle tokenServices ⟨none, fun _ => none⟩
      (enrolledAndRevoked ++ [.reactivate 3 "found"]) := by
  refine worker_lifecycle ⟨fun _ => rfl, fun r hr => by cases hr⟩ ?_
  refine Along.cons ?_ (Along.cons ?_ (Along.cons ?_ (Along.cons ?_ (Along.cons ?_
    (along_nil _ _)))))
  · rintro n now s enrolment read r ha
    cases ha
  · rintro n now s enrolment read r ha hs - hread
    cases ha
    cases hs
    cases hread
  · rintro n now s enrolment read r ha
    cases ha
  · rintro n now s enrolment read r ha hs hwrite
    cases ha
    cases hs
    cases hwrite
  · rintro n now s enrolment read r ha
    cases ha

/-- **A revoked worker that is enrolled again** is active, with a credential that is accepted. -/
theorem revoked_worker_enrolled :
    (∃ r, (run (workerStep tokenServices) ⟨none, fun _ => none⟩
        (enrolledAndRevoked ++ [.beginEnrol 2 (labWorker "u"), .commit 2 3])).row = some r ∧
      r.status = .active ∧ r.revokedAt = some 2 ∧
      authenticateWorker tokenServices 4 (some r) (some "u") none = .ok r) ∧
    ¬ WorkerLifecycle tokenServices ⟨none, fun _ => none⟩
      (enrolledAndRevoked ++ [.beginEnrol 2 (labWorker "u"), .commit 2 3]) := by
  refine ⟨⟨_, rfl, rfl, rfl, rfl⟩, fun hlife => ?_⟩
  obtain ⟨r', hr', hrevoked, -⟩ := hlife.revoked enrolledAndRevoked
    [.beginEnrol 2 (labWorker "u"), .commit 2 3] _ (List.prefix_refl _) rfl rfl
  cases hr'
  exact absurd hrevoked (by decide)

end ScanPlatform
