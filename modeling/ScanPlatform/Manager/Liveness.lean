import ScanPlatform.Manager.WorkerLifecycle

/-!
# The liveness of a worker

The heartbeats of a worker, which may name a scan that the worker runs, and the reaper of workers
that have stopped to report. The stamp of the worker and the gate of the scan share one transaction.

* `reachesKillSwitch`, `Plane.heartbeat`: the endpoint, from the authenticated worker on;
* `Plane`, `PlaneStep`, `planeStep`: the worker with all who write it, and the scans and the sites;
* `NeverReaped`: every heartbeat is stamped, and a worker that is heard of is not suspended;
* `Unhindered`: the gate of the scan that a heartbeat names does not undo its stamp;
* `workerStep_seen`, `heartbeat_cases`, `planeStep_cases`: what the steps do to the last heartbeat;
* `Seen`, `planeStep_later`, `heartbeat_seen_iff`: the invariant, and when a heartbeat is stamped;
* **`live_worker_never_reaped`**, `suspended_site_reaps_worker`: a run of unhindered heartbeats
  never reaps a live worker, and a run in which a suspended site does.
-/

set_option autoImplicit false

namespace ScanPlatform

open CondMachine Versions

/-! ## The endpoint -/

/-- The gate of the scan gets as far as the kill switch: the scan is private, and the worker may
take it. -/
def reachesKillSwitch (cfg : Settings) (db : Db) (worker : ScannerWorker) (scanId : Uuid) : Bool :=
  (db.scans scanId).any fun scan =>
    match scan.siteUuid with
    | .ok (some site) =>
      (assertWorkerMayTakeScan cfg worker scan.workspaceId (some site) none none).isOk
    | _ => false

/-- The worker with its sessions, the scans and the sites, what each process of the manager has last
seen of the kill switch, and the time. -/
structure Plane where
  life : WorkerLife
  db : Db
  observed : Table ℕ Bool
  clock : ℤ

variable (svc : Services) (cfg : Settings)

/-- The endpoint `heartbeat` of an authenticated session, in a process of the manager that reads the
kill switch as `emergency`: `commit` with the stamp, or `rollback` when the request is refused. -/
def Plane.heartbeat (s : Plane) (n process : ℕ) (emergency : Bool)
    (scanId executionToken : Option Uuid) : Option Plane :=
  (s.life.sessions n).bind fun session =>
    match session.write, session.read with
    | .heartbeat _, some worker =>
      match scanId, executionToken with
      | some scanId, some token =>
        let reaches := reachesKillSwitch cfg s.db worker.toScannerWorker scanId
        let observed := if reaches then s.observed.set process emergency else s.observed
        match authorizeScanForWorker cfg s.db worker.toScannerWorker emergency scanId with
        | .ok _ => (workerStep svc (.commit n s.clock) s.life).map fun life =>
          let scans := s.db.scans.update scanId (stampHeartbeat s.clock (some token))
          { s with life, observed, db := { s.db with scans := scans.getD s.db.scans } }
        | .error _ =>
          -- `_audit_emergency_transition` commits what the session has flushed
          let audited := reaches ∧ s.observed process = some (!emergency)
          let a : WorkerStep := if audited then .commit n s.clock else .rollback n
          (workerStep svc a s.life).map fun life => { s with life, observed }
      | _, _ => (workerStep svc (.commit n s.clock) s.life).map fun life => { s with life }
    | _, _ => none

/-! ## The plane -/

/-- When a statement of the worker's row is executed. -/
def WorkerStep.time : WorkerStep → Option ℤ
  | .beginHeartbeat _ now _ _ _ | .commit _ now | .drain now | .reactivate now _
  | .reap now _ _ => some now
  | .beginEnrol .. | .beginRevoke .. | .rollback _ => none

def WorkerWrite.isHeartbeat : WorkerWrite → Bool
  | .heartbeat _ => true
  | .enrol _ | .revoke _ => false

/-- The step commits a heartbeat, which is the endpoint's to do. -/
def WorkerStep.commitsHeartbeat (T : WorkerLife) : WorkerStep → Bool
  | .commit n _ => (T.sessions n).any (·.write.isHeartbeat)
  | _ => false

/-- `observe` is another request to a process of the manager, or the restart of one. -/
inductive PlaneStep where
  | tick (microseconds : ℕ)
  | worker (a : WorkerStep)
  | heartbeat (session process : ℕ) (emergency : Bool) (scanId executionToken : Option Uuid)
  | observe (process : ℕ) (emergency : Option Bool)
  | scan (id : Uuid) (a : ScanStep)
  | site (id : Uuid) (status : SiteStatus)

def planeStep : PlaneStep → Plane → Option Plane
  | .tick d, s => some { s with clock := s.clock + d }
  | .worker a, s =>
    if (∀ t ∈ a.time, t = s.clock) ∧ a.commitsHeartbeat s.life = false then
      (workerStep svc a s.life).map fun life => { s with life }
    else none
  | .heartbeat n process emergency scanId executionToken, s =>
    s.heartbeat svc cfg n process emergency scanId executionToken
  | .observe process emergency, s =>
    some { s with observed := Function.update s.observed process emergency }
  | .scan id a, s => (s.db.scans.update id (scanStep a)).map fun scans =>
    { s with db := { s.db with scans } }
  | .site id status, s => (s.db.sites.update id fun site => some { site with status }).map
    fun sites => { s with db := { s.db with sites } }

/-! ## What is promised -/

/-- When the worker was heard of last. -/
def WorkerLife.seen (T : WorkerLife) : Option ℤ := T.row.bind (·.lastSeenAt)

/-- The session is a heartbeat of the worker `worker`, whose credentials were accepted. -/
def Plane.Beats (s : Plane) (n : ℕ) (worker : WorkerRow) : Prop :=
  ∃ payload, s.life.sessions n = some ⟨some worker, .heartbeat payload⟩

/-- Every heartbeat is stamped with the time of its request, and the reaper leaves a worker alone
that has been heard of within its window. -/
structure NeverReaped (s : Plane) (σ : List PlaneStep) : Prop where
  advances : ∀ σ₁ n process emergency scanId token σ₂ worker,
    σ = σ₁ ++ .heartbeat n process emergency scanId token :: σ₂ →
    (run (planeStep svc cfg) s σ₁).Beats n worker →
      (next (planeStep svc cfg) (run (planeStep svc cfg) s σ₁)
        (.heartbeat n process emergency scanId token)).life.seen =
          some (run (planeStep svc cfg) s σ₁).clock
  kept : ∀ σ₁ n process emergency scanId token σ₂ now stale inGrace σ₃ worker,
    σ = σ₁ ++ .heartbeat n process emergency scanId token :: σ₂ ++
      .worker (.reap now stale inGrace) :: σ₃ →
    (run (planeStep svc cfg) s σ₁).Beats n worker →
    now ≤ (run (planeStep svc cfg) s σ₁).clock + stale * second →
      let τ := σ₁ ++ .heartbeat n process emergency scanId token :: σ₂
      next (planeStep svc cfg) (run (planeStep svc cfg) s τ) (.worker (.reap now stale inGrace)) =
        run (planeStep svc cfg) s τ

/-- The gate of the scan that a heartbeat of the worker names lets it pass, or has the stamp
committed first, because the process sees that the kill switch has changed. -/
def Plane.Unhindered (s : Plane) (worker : WorkerRow) (process : ℕ) (emergency : Bool) :
    Option Uuid → Option Uuid → Prop
  | some scanId, some _ =>
    (authorizeScanForWorker cfg s.db worker.toScannerWorker emergency scanId).isOk ∨
      reachesKillSwitch cfg s.db worker.toScannerWorker scanId ∧
        s.observed process = some (!emergency)
  | _, _ => True

/-- No heartbeat is hindered. -/
def PlaneStep.Unhindered (s : Plane) : PlaneStep → Prop
  | .heartbeat n process emergency scanId token =>
    ∀ worker, s.Beats n worker → s.Unhindered cfg worker process emergency scanId token
  | _ => True

instance (s : Plane) (worker : WorkerRow) (process : ℕ) (emergency : Bool) :
    (scanId token : Option Uuid) →
      Decidable (s.Unhindered cfg worker process emergency scanId token)
  | some _, some _ => inferInstanceAs (Decidable (_ ∨ _ ∧ _))
  | some _, none | none, _ => inferInstanceAs (Decidable True)

theorem unhindered_heartbeat {s : Plane} {n process : ℕ} {emergency : Bool}
    {scanId token : Option Uuid} :
    (PlaneStep.heartbeat n process emergency scanId token).Unhindered cfg s ↔
      ∀ session ∈ s.life.sessions n, ∀ worker ∈ session.read, session.write.isHeartbeat →
        s.Unhindered cfg worker process emergency scanId token := by
  constructor
  · rintro h ⟨read, write⟩ hn worker hread hwrite
    cases hread
    cases write with
    | heartbeat payload => exact h worker ⟨payload, hn⟩
    | enrol e => cases hwrite
    | revoke reason => cases hwrite
  · rintro h worker ⟨payload, hn⟩
    exact h _ hn worker rfl rfl

instance (s : Plane) : (a : PlaneStep) → Decidable (a.Unhindered cfg s)
  | .heartbeat .. => decidable_of_iff _ (unhindered_heartbeat cfg).symm
  | .tick _ | .worker _ | .observe .. | .scan .. | .site .. => inferInstanceAs (Decidable True)

/-- No session is in progress, and the worker was not heard of in the future. -/
structure Plane.Idle (s : Plane) : Prop where
  sessions : ∀ n, s.life.sessions n = none
  past : ∀ t ∈ s.life.seen, t ≤ s.clock

/-! ## The last heartbeat -/

/-- The worker was heard of at `a`, if ever, and again or still at `b`. -/
def NoLater (a b : Option ℤ) : Prop := ∀ t ∈ a, ∃ t' ∈ b, t ≤ t'

theorem NoLater.refl (a : Option ℤ) : NoLater a a := fun t ht => ⟨t, ht, le_rfl⟩

theorem NoLater.trans {a b c : Option ℤ} (h : NoLater a b) (h' : NoLater b c) : NoLater a c := by
  intro t ht
  obtain ⟨t', ht', hle⟩ := h t ht
  obtain ⟨t'', ht'', hle'⟩ := h' t' ht'
  exact ⟨t'', ht'', hle.trans hle'⟩

/-- The row is in the past, and what the sessions have read of it is no later. -/
structure Plane.Seen (s : Plane) : Prop where
  past : ∀ t ∈ s.life.seen, t ≤ s.clock
  read : ∀ n worker, s.Beats n worker → s.life.row.isSome ∧ NoLater worker.lastSeenAt s.life.seen

theorem Plane.Idle.seen {s : Plane} (h : s.Idle) : s.Seen where
  past := h.past
  read n worker hbeats := by
    obtain ⟨payload, hn⟩ := hbeats
    rw [h.sessions n] at hn
    cases hn

variable {svc cfg}

theorem start_seen {T T' : WorkerLife} {n : ℕ} {write : WorkerWrite}
    (h : T.start n write = some T') :
    T'.seen = T.seen ∧ (T.row.isSome → T'.row.isSome) := by
  obtain ⟨-, rfl⟩ := guarded_eq_some.mp h
  exact ⟨rfl, id⟩

/-- **Nothing but a heartbeat stamps the worker.** -/
theorem workerStep_seen {a : WorkerStep} {T T' : WorkerLife} (h : workerStep svc a T = some T')
    (hbeat : a.commitsHeartbeat T = false) :
    T'.seen = T.seen ∧ (T.row.isSome → T'.row.isSome) := by
  cases a with
  | commit n now =>
    simp only [workerStep, Option.map_eq_some_iff] at h
    obtain ⟨⟨read, write⟩, hn, rfl⟩ := h
    simp only [WorkerStep.commitsHeartbeat, hn, Option.any_some] at hbeat
    simp only [WorkerLife.seen, WorkerSession.commit]
    cases write with
    | enrol e => cases read <;> cases T.row <;> simp [enrolWorker]
    | revoke reason => cases read <;> cases T.row <;> simp [revokeWorker]
    | heartbeat payload => cases hbeat
  | drain now =>
    simp only [workerStep, Option.map_eq_some_iff, Option.bind_eq_some_iff] at h
    obtain ⟨r', ⟨r, hr, hdrain⟩, rfl⟩ := h
    obtain ⟨-, rfl⟩ := guarded_eq_some.mp hdrain
    simp [WorkerLife.seen, hr]
  | reactivate now reason =>
    simp only [workerStep, Option.map_eq_some_iff, Option.bind_eq_some_iff] at h
    obtain ⟨r', ⟨r, hr, hreactivate⟩, rfl⟩ := h
    obtain ⟨-, rfl⟩ := guarded_eq_some.mp hreactivate
    simp [WorkerLife.seen, hr]
  | reap now stale inGrace =>
    simp only [workerStep, Option.map_eq_some_iff, Option.bind_eq_some_iff] at h
    obtain ⟨r', ⟨r, hr, hreap⟩, rfl⟩ := h
    obtain ⟨-, rfl⟩ := guarded_eq_some.mp hreap
    simp [WorkerLife.seen, hr]
  | beginEnrol n e => exact start_seen h
  | beginRevoke n reason =>
    simp only [workerStep] at h
    split_ifs at h
    exact start_seen h
  | beginHeartbeat n now token cert payload =>
    simp only [workerStep] at h
    split at h
    · cases h
    · split at h
      · cases h
      · exact start_seen h
  | rollback n =>
    cases h
    exact ⟨rfl, id⟩

/-- A session reads the row as it is. -/
theorem workerStep_beats {a : WorkerStep} {T T' : WorkerLife} (h : workerStep svc a T = some T')
    {n : ℕ} {worker : WorkerRow} {payload : HeartbeatIn}
    (hn : T'.sessions n = some ⟨some worker, .heartbeat payload⟩) :
    T.sessions n = some ⟨some worker, .heartbeat payload⟩ ∨
      T'.row = some worker := by
  rcases sessions_step h hn with hold | ⟨hrow, hread, -⟩
  · exact .inl hold
  · exact .inr (hrow.trans hread.symm)

/-- The commit of a heartbeat stamps the row. -/
theorem commit_seen {s : Plane} (hs : s.Seen) {n : ℕ} {worker : WorkerRow} {payload : HeartbeatIn}
    (hn : s.life.sessions n = some ⟨some worker, .heartbeat payload⟩) {T : WorkerLife}
    (h : workerStep svc (.commit n s.clock) s.life = some T) :
    T.seen = some s.clock ∧ T.row.isSome := by
  obtain ⟨hrow, hread⟩ := hs.read n worker ⟨payload, hn⟩
  obtain ⟨r, hr⟩ := Option.isSome_iff_exists.mp hrow
  have hseen : s.life.seen = r.lastSeenAt := by
    unfold WorkerLife.seen
    rw [hr, Option.bind_some]
  simp only [workerStep, hn, Option.map_some, Option.some.injEq] at h
  subst h
  simp only [WorkerLife.seen, WorkerSession.commit, hr, Option.bind_some, Option.map_some,
    Option.some_or, recordHeartbeat, Option.isSome_some, and_true]
  -- what was read at the time of the request has been written by then
  refine flush_eq_assigned fun hnow => ?_
  obtain ⟨t, ht, hle⟩ := hread s.clock hnow
  rw [hseen] at ht
  have hpast : t ≤ s.clock := hs.past t (hseen ▸ ht)
  rw [Option.mem_def.mp ht, le_antisymm hpast hle]

/-! ## The steps -/

/-- **What the endpoint does**: it commits the heartbeat when it is not hindered, and is rolled back
otherwise. -/
theorem heartbeat_cases {s s' : Plane} {n process : ℕ} {emergency : Bool}
    {scanId token : Option Uuid}
    (h : s.heartbeat svc cfg n process emergency scanId token = some s') :
    ∃ worker payload, s.life.sessions n = some ⟨some worker, .heartbeat payload⟩ ∧
      s'.clock = s.clock ∧
      (s.Unhindered cfg worker process emergency scanId token ∧
          workerStep svc (.commit n s.clock) s.life = some s'.life ∨
        ¬ s.Unhindered cfg worker process emergency scanId token ∧
          workerStep svc (.rollback n) s.life = some s'.life) := by
  simp only [Plane.heartbeat, Option.bind_eq_some_iff] at h
  obtain ⟨⟨read, write⟩, hn, h⟩ := h
  cases write with
  | enrol e => cases h
  | revoke reason => cases h
  | heartbeat payload =>
    cases read with
    | none => cases h
    | some worker =>
      refine ⟨worker, payload, hn, ?_⟩
      cases scanId with
      | none =>
        obtain ⟨life, hlife, rfl⟩ := Option.map_eq_some_iff.mp h
        exact ⟨rfl, .inl ⟨trivial, hlife⟩⟩
      | some id =>
        cases token with
        | none =>
          obtain ⟨life, hlife, rfl⟩ := Option.map_eq_some_iff.mp h
          exact ⟨rfl, .inl ⟨trivial, hlife⟩⟩
        | some tok =>
          simp only [Plane.Unhindered]
          cases hauth : authorizeScanForWorker cfg s.db worker.toScannerWorker emergency id with
          | ok scan =>
            simp only [hauth] at h
            obtain ⟨life, hlife, rfl⟩ := Option.map_eq_some_iff.mp h
            exact ⟨rfl, .inl ⟨.inl rfl, hlife⟩⟩
          | error e =>
            simp only [hauth] at h
            obtain ⟨life, hlife, rfl⟩ := Option.map_eq_some_iff.mp h
            refine ⟨rfl, ?_⟩
            split_ifs at hlife with haudited
            · exact .inl ⟨.inr haudited, hlife⟩
            · refine .inr ⟨?_, hlife⟩
              rintro (hok | haudited')
              · cases hok
              · exact haudited haudited'

/-- The endpoint answers every heartbeat whose credentials it has accepted. -/
theorem heartbeat_isSome {s : Plane} {n : ℕ} {worker : WorkerRow} (h : s.Beats n worker)
    (process : ℕ) (emergency : Bool) (scanId token : Option Uuid) :
    (s.heartbeat svc cfg n process emergency scanId token).isSome := by
  obtain ⟨payload, hn⟩ := h
  have hcommit : (workerStep svc (.commit n s.clock) s.life).isSome := by
    simp [workerStep, hn]
  simp only [Plane.heartbeat, hn, Option.bind_some]
  cases scanId with
  | none => simpa using hcommit
  | some id =>
    cases token with
    | none => simpa using hcommit
    | some tok =>
      cases hauth : authorizeScanForWorker cfg s.db worker.toScannerWorker emergency id with
      | ok scan =>
        simp only [hauth, Option.isSome_map]
        exact hcommit
      | error e =>
        simp only [hauth, Option.isSome_map]
        split_ifs
        · exact hcommit
        · rfl

/-- **What a step does**: it is not about the worker, it is about the worker and commits no
heartbeat, or it commits one. -/
theorem planeStep_cases {a : PlaneStep} {s s' : Plane} (h : planeStep svc cfg a s = some s') :
    (s'.life = s.life ∧ s.clock ≤ s'.clock) ∨
    s'.clock = s.clock ∧
      ((∃ b, workerStep svc b s.life = some s'.life ∧ b.commitsHeartbeat s.life = false) ∨
        ∃ n worker payload, s.life.sessions n = some ⟨some worker, .heartbeat payload⟩ ∧
          workerStep svc (.commit n s.clock) s.life = some s'.life) := by
  cases a with
  | tick d =>
    cases h
    exact .inl ⟨rfl, Int.le_add_of_nonneg_right (Int.natCast_nonneg d)⟩
  | worker b =>
    obtain ⟨⟨-, hbeat⟩, h⟩ := Option.ite_none_right_eq_some.mp h
    obtain ⟨life, hlife, rfl⟩ := Option.map_eq_some_iff.mp h
    exact .inr ⟨rfl, .inl ⟨b, hlife, hbeat⟩⟩
  | heartbeat n process emergency scanId token =>
    obtain ⟨worker, payload, hn, hclock, ⟨-, hcommit⟩ | ⟨-, hrollback⟩⟩ := heartbeat_cases h
    · exact .inr ⟨hclock, .inr ⟨n, worker, payload, hn, hcommit⟩⟩
    · exact .inr ⟨hclock, .inl ⟨_, hrollback, rfl⟩⟩
  | observe process emergency =>
    cases h
    exact .inl ⟨rfl, le_rfl⟩
  | scan id b =>
    obtain ⟨scans, -, rfl⟩ := Option.map_eq_some_iff.mp h
    exact .inl ⟨rfl, le_rfl⟩
  | site id status =>
    obtain ⟨sites, -, rfl⟩ := Option.map_eq_some_iff.mp h
    exact .inl ⟨rfl, le_rfl⟩

/-- Time does not run back, and the worker is not forgotten. -/
structure Plane.Later (s s' : Plane) : Prop where
  clock : s.clock ≤ s'.clock
  row : s.life.row.isSome → s'.life.row.isSome
  seen : NoLater s.life.seen s'.life.seen

theorem Plane.Later.trans {s₁ s₂ s₃ : Plane} (h : s₁.Later s₂) (h' : s₂.Later s₃) :
    s₁.Later s₃ where
  clock := h.clock.trans h'.clock
  row hrow := h'.row (h.row hrow)
  seen := h.seen.trans h'.seen

/-- **The step lemma.** -/
theorem planeStep_later {a : PlaneStep} {s s' : Plane} (hs : s.Seen)
    (h : planeStep svc cfg a s = some s') : s.Later s' ∧ ∀ t ∈ s'.life.seen, t ≤ s'.clock := by
  rcases planeStep_cases h with ⟨hlife, hclock⟩ |
    ⟨hclock, ⟨b, hb, hbeat⟩ | ⟨n, worker, payload, hn, hcommit⟩⟩
  · refine ⟨⟨hclock, by rw [hlife]; exact id, by rw [hlife]; exact .refl _⟩, fun t ht => ?_⟩
    rw [hlife] at ht
    exact (hs.past t ht).trans hclock
  · obtain ⟨hseen, hrow⟩ := workerStep_seen hb hbeat
    refine ⟨⟨hclock.ge, hrow, by rw [hseen]; exact .refl _⟩, fun t ht => ?_⟩
    rw [hseen] at ht
    rw [hclock]
    exact hs.past t ht
  · obtain ⟨hseen, hrow⟩ := commit_seen hs hn hcommit
    rw [hseen, hclock]
    refine ⟨⟨hclock.ge, fun _ => hrow, fun t ht => ⟨s.clock, hseen, hs.past t ht⟩⟩, fun t ht => ?_⟩
    cases ht
    exact le_rfl

/-- A heartbeat after a step was in progress before, or has read the row as it is. -/
theorem planeStep_beats {a : PlaneStep} {s s' : Plane} (h : planeStep svc cfg a s = some s')
    {n : ℕ} {worker : WorkerRow} (hbeats : s'.Beats n worker) :
    s.Beats n worker ∨ s'.life.row = some worker := by
  obtain ⟨payload, hn⟩ := hbeats
  have hlife : s'.life = s.life ∨ ∃ b, workerStep svc b s.life = some s'.life := by
    rcases planeStep_cases h with ⟨hlife, -⟩ | ⟨-, ⟨b, hb, -⟩ | ⟨m, -, -, -, hb⟩⟩
    · exact .inl hlife
    · exact .inr ⟨b, hb⟩
    · exact .inr ⟨_, hb⟩
  rcases hlife with hlife | ⟨b, hb⟩
  · exact .inl ⟨payload, hlife ▸ hn⟩
  · exact (workerStep_beats hb hn).imp_left fun hold => ⟨payload, hold⟩

theorem planeStep_seen {a : PlaneStep} {s s' : Plane} (hs : s.Seen)
    (h : planeStep svc cfg a s = some s') : s'.Seen where
  past := (planeStep_later hs h).2
  read n worker hbeats := by
    rcases planeStep_beats h hbeats with hold | hrow
    · obtain ⟨hrow, hread⟩ := hs.read n worker hold
      have hlater := (planeStep_later hs h).1
      exact ⟨hlater.row hrow, hread.trans hlater.seen⟩
    · refine ⟨by rw [hrow]; rfl, ?_⟩
      unfold WorkerLife.seen
      rw [hrow]
      exact .refl _

/-! ## The runs -/

theorem run_seen {s : Plane} (hs : s.Seen) (σ : List PlaneStep) :
    (run (planeStep svc cfg) s σ).Seen :=
  run_invariant (fun _ _ _ hI h => planeStep_seen hI h) hs σ

theorem run_later {s : Plane} (hs : s.Seen) (σ : List PlaneStep) :
    s.Later (run (planeStep svc cfg) s σ) := by
  have hinv : (run (planeStep svc cfg) s σ).Seen ∧ s.Later (run (planeStep svc cfg) s σ) :=
    run_invariant (I := fun s' => s'.Seen ∧ s.Later s')
      (fun _ _ _ hI h => ⟨planeStep_seen hI.1 h, hI.2.trans (planeStep_later hI.1 h).1⟩)
      ⟨hs, le_rfl, id, .refl _⟩ σ
  exact hinv.2

/-- **A heartbeat stamps the worker** when it is not hindered. -/
theorem heartbeat_seen {s : Plane} (hs : s.Seen) {n process : ℕ} {emergency : Bool}
    {scanId token : Option Uuid} {worker : WorkerRow} (hbeats : s.Beats n worker)
    (hclear : s.Unhindered cfg worker process emergency scanId token) :
    (next (planeStep svc cfg) s (.heartbeat n process emergency scanId token)).life.seen =
      some s.clock := by
  have hsome : (planeStep svc cfg (.heartbeat n process emergency scanId token) s).isSome :=
    heartbeat_isSome hbeats process emergency scanId token
  obtain ⟨s', hs'⟩ := Option.isSome_iff_exists.mp hsome
  rw [next_some hs']
  obtain ⟨worker', payload, hn, -, ⟨-, hcommit⟩ | ⟨hhindered, -⟩⟩ := heartbeat_cases hs'
  · exact (commit_seen hs hn hcommit).1
  · obtain ⟨payload', hn'⟩ := hbeats
    rw [hn] at hn'
    cases hn'
    exact absurd hclear hhindered

/-- **And the stamp is all that a hindered heartbeat leaves out.** -/
theorem heartbeat_seen_iff {s : Plane} (hs : s.Seen) (hpast : ∀ t ∈ s.life.seen, t < s.clock)
    {n process : ℕ} {emergency : Bool} {scanId token : Option Uuid} {worker : WorkerRow}
    (hbeats : s.Beats n worker) :
    (next (planeStep svc cfg) s (.heartbeat n process emergency scanId token)).life.seen =
      some s.clock ↔ s.Unhindered cfg worker process emergency scanId token := by
  refine ⟨fun hseen => ?_, heartbeat_seen hs hbeats⟩
  by_contra hhindered
  have hsome : (planeStep svc cfg (.heartbeat n process emergency scanId token) s).isSome :=
    heartbeat_isSome hbeats process emergency scanId token
  obtain ⟨s', hs'⟩ := Option.isSome_iff_exists.mp hsome
  rw [next_some hs'] at hseen
  obtain ⟨worker', payload, hn, -, ⟨hclear, -⟩ | ⟨-, hrollback⟩⟩ := heartbeat_cases hs'
  · obtain ⟨payload', hn'⟩ := hbeats
    rw [hn] at hn'
    cases hn'
    exact hhindered hclear
  · have hkept := (workerStep_seen hrollback rfl).1
    exact absurd (hpast s.clock (hkept ▸ hseen)) (lt_irrefl _)

/-- A worker that was heard of within the window is left alone. -/
theorem reap_seen {s : Plane} {t now stale : ℤ} {inGrace : Bool}
    (hseen : NoLater (some t) s.life.seen) (hnow : now ≤ t + stale * second) :
    next (planeStep svc cfg) s (.worker (.reap now stale inGrace)) = s := by
  refine next_none ?_
  obtain ⟨t', ht', hle⟩ := hseen t rfl
  obtain ⟨r, hr, hlast⟩ := Option.bind_eq_some_iff.mp ht'
  have hspared : reapStaleWorkers now stale inGrace r = none := by
    refine if_neg fun h => ?_
    have hstale := h.2.2.2
    rw [hlast, Option.getD_some] at hstale
    omega
  simp [planeStep, workerStep, hr, hspared]

/-- **A live worker is never reaped**: in every run whose heartbeats are not hindered, each of them
is stamped, and no sweep suspends a worker that has been heard of within its window. -/
theorem live_worker_never_reaped {s : Plane} {σ : List PlaneStep} (hs : s.Idle)
    (hclear : Along (planeStep svc cfg) (PlaneStep.Unhindered cfg) s σ) :
    NeverReaped svc cfg s σ where
  advances σ₁ n process emergency scanId token σ₂ worker hσ hbeats :=
    heartbeat_seen (run_seen hs.seen σ₁) hbeats (hclear σ₁ _ σ₂ hσ worker hbeats)
  kept σ₁ n process emergency scanId token σ₂ now stale inGrace σ₃ worker hσ hbeats hnow := by
    have hseen : (run (planeStep svc cfg) s σ₁).Seen := run_seen hs.seen σ₁
    have hsplit : σ = σ₁ ++ .heartbeat n process emergency scanId token ::
        (σ₂ ++ .worker (.reap now stale inGrace) :: σ₃) := by
      rw [hσ, List.append_assoc, List.cons_append]
    have hbeat := hclear σ₁ _ _ hsplit worker hbeats
    have hstamp : (next (planeStep svc cfg) (run (planeStep svc cfg) s σ₁)
        (.heartbeat n process emergency scanId token)).life.seen =
          some (run (planeStep svc cfg) s σ₁).clock := heartbeat_seen hseen hbeats hbeat
    have hnext : (next (planeStep svc cfg) (run (planeStep svc cfg) s σ₁)
        (.heartbeat n process emergency scanId token)).Seen := by
      rw [← run_concat]
      exact run_seen hs.seen _
    refine reap_seen ?_ hnow
    rw [run_append, run_cons, ← hstamp]
    exact (run_later hnext σ₂).seen

/-! ## A site under maintenance -/

/-- A private scan that the worker `labWorker` runs, on its own site. -/
def labPlane (status : SiteStatus) : Plane where
  life := ⟨none, fun _ => none⟩
  db := { Db.empty with
    scans := Db.empty.scans.set 5 { Scan.created 3 1 2
        [("site_id", .str "00000000-0000-0000-0000-000000000004")] 0 with
      status := .running
      executionToken := some 9 }
    sites := Db.empty.sites.set 4 {
      workspaceId := 3
      status
      authorizedCidrs := []
      dnsServers := []
      scannerPoolId := none } }
  observed := fun _ => none
  clock := 0

def labBeat (n : ℕ) (now : ℤ) : List PlaneStep :=
  [.worker (.beginHeartbeat n now (some "t") none ⟨.healthy, none, none⟩),
    .heartbeat n 0 false (some 5) (some 9)]

/-- The worker is enrolled, reports twice within a minute, and is judged by its last minute. -/
def labBeats : List PlaneStep :=
  [.worker (.beginEnrol 0 (labWorker "t")), .worker (.commit 0 0)] ++ labBeat 1 0 ++
    [.tick 50000000] ++ labBeat 2 50000000 ++
    [.tick 20000000, .worker (.reap 70000000 60 false)]

/-- While its site is active, the worker stays. -/
theorem live_worker_never_reaped_lab :
    NeverReaped tokenServices ⟨""⟩ (labPlane .active) labBeats := by
  refine live_worker_never_reaped ⟨fun _ => rfl, fun t ht => by cases ht⟩ ?_
  decide +kernel

/-- **A worker is reaped while it reports**: its site is suspended, so that the gate of its scan
takes every stamp back. -/
theorem suspended_site_reaps_worker :
    (run (planeStep tokenServices ⟨""⟩) (labPlane .suspended) labBeats).life.row.map
        (fun r => (r.status, r.lastSeenAt)) = some (.suspended, none) ∧
      ¬ NeverReaped tokenServices ⟨""⟩ (labPlane .suspended) labBeats := by
  refine ⟨by decide +kernel, fun h => ?_⟩
  have hstamp := h.advances
    [.worker (.beginEnrol 0 (labWorker "t")), .worker (.commit 0 0),
      .worker (.beginHeartbeat 1 0 (some "t") none ⟨.healthy, none, none⟩)]
    1 0 false (some 5) (some 9) _ _ rfl ⟨_, rfl⟩
  exact absurd hstamp (by decide +kernel)

end ScanPlatform
