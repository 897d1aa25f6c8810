import ScanPlatform.Manager.Lease

/-!
# Which failed scans are leased again

Requests of `/v1/lease` that are in progress, terminal writes, the reaper, cancellations and
heartbeats, in any order. A lease reads its rows once and then tries them one after the other, each
claim being committed on its own, so that a row may change between the query and its claim.

* `LeaseSystem`, `LeaseStep`, `leaseStep`: the requests in progress and the steps of all parties;
* `run_tryRow`: a lease that nothing interrupts is `leaseRows`;
* `tryRow_cases`, `leaseStep_row`: a round of a request, and what a step does to a row, by its
  UPDATE;
* `recovered_run`: a failed row that may be leased was failed by the reaper;
* **`only_recovered_leased`**, `failed_leased_again`: when only the reaper's failures are leased
  again, and a run in which a scan whose execution failed is.
-/

set_option autoImplicit false

namespace ScanPlatform

open CondMachine

/-- A request of `/v1/lease` between two rounds of its loop. -/
structure LeaseCall where
  worker : ScannerWorker
  privateDisabled : Bool
  maxJobs : ℕ
  /-- What the query returned and the loop has not tried. -/
  rows : List (Uuid × Scan)
  leased : List Job

structure LeaseSystem where
  db : Db
  calls : Table ℕ LeaseCall

inductive LeaseStep where
  | beginLease (call : ℕ) (worker : ScannerWorker) (privateDisabled : Bool) (payload : LeaseIn)
    (order : List Uuid)
  | tryRow (call : ℕ) (now : ℤ) (executionToken : Uuid)
  | complete (worker : ScannerWorker) (emergency : Bool) (now : ℤ) (payload : LeaseCompleteIn)
  | reap (now timeoutSeconds : ℤ) (staleHeartbeatSeconds : Option ℤ)
  | cancel (now : ℤ) (scanId : Uuid)
  | heartbeat (worker : ScannerWorker) (emergency : Bool) (now : ℤ) (scanId executionToken : Uuid)
  /-- The other tables become those of `tables`. -/
  | admin (tables : Db)

/-- A statement on one row, matched or not. -/
def LeaseSystem.onRow (S : LeaseSystem) (scanId : Uuid) (b : ScanStep) : LeaseSystem :=
  { S with db := { S.db with
      scans := (S.db.scans.update scanId (scanStep b)).getD S.db.scans } }

/-- The request after a round of its loop: `none` when it has been answered. -/
def LeaseCall.after (call : LeaseCall) (rows : List (Uuid × Scan)) :
    Except Fault (Option Job) → Option LeaseCall
  | .error _ => none
  | .ok none => some { call with rows }
  | .ok (some job) =>
    if call.maxJobs ≤ (call.leased ++ [job]).length then none
    else some { call with rows, leased := call.leased ++ [job] }

def leaseStep (cfg : Settings) : LeaseStep → LeaseSystem → Option LeaseSystem
  | .beginLease c worker privateDisabled payload order, S =>
    match assertWorkerMayLease worker, S.calls c with
    | .ok (), none =>
      some { S with calls := S.calls.set c {
        worker, privateDisabled, maxJobs := payload.maxJobs
        rows := selectLeasable S.db worker payload order
        leased := [] } }
    | _, _ => none
  | .tryRow c now tok, S =>
    match S.calls c with
    | none => none
    | some call =>
      match call.rows with
      | [] => some { S with calls := Function.update S.calls c none }
      | row :: rows =>
        let out := leaseRow cfg call.worker call.privateDisabled now tok S.db row
        some { db := out.1, calls := Function.update S.calls c (call.after rows out.2) }
  | .complete worker emergency now payload, S =>
    some { S with db := (completeLease cfg worker emergency now payload S.db).1 }
  | .reap now timeout stale, S =>
    some { S with db := { S.db with
      scans := S.db.scans.updateAll (scanStep (.reap now timeout stale)) } }
  | .cancel now id, S => some (S.onRow id (.cancel now))
  | .heartbeat worker emergency now id tok, S =>
    match authorizeScanForWorker cfg S.db worker emergency id with
    | .error _ => none
    | .ok _ => some (S.onRow id (.heartbeat now (some tok)))
  | .admin tables, S => some { S with db := { tables with scans := S.db.scans } }

/-- No request is in progress, and every scan is in the queue. -/
structure LeaseSystem.Idle (S : LeaseSystem) : Prop where
  calls : ∀ c, S.calls c = none
  queued : ∀ id, ∀ s ∈ S.db.scans id, s.status = .queued

def LeaseSystem.HasStatus (id : Uuid) (st : ScanStatus) (S : LeaseSystem) : Prop :=
  ∃ s ∈ S.db.scans id, s.status = st

/-- A request in progress has still to try the row. -/
def LeaseSystem.Pending (S : LeaseSystem) (id : Uuid) : Prop :=
  ∃ c, ∃ call ∈ S.calls c, id ∈ call.rows.map Prod.fst

variable (cfg : Settings)

/-! ## A lease that nothing interrupts -/

/-- **A lease that nothing interrupts** does to the database what `leaseRows` does. -/
theorem run_tryRow (c : ℕ) (now : ℤ) (token : Uuid → Uuid) (call : LeaseCall) (S : LeaseSystem)
    (hS : S.calls c = some call) :
    (run (leaseStep cfg) S (call.rows.map fun row => .tryRow c now (token row.1))).db =
      (leaseRows cfg call.worker call.privateDisabled now token call.maxJobs call.rows call.leased
        S.db).1 := by
  have hended : ∀ (rows : List (Uuid × Scan)) (T : LeaseSystem), T.calls c = none →
      (run (leaseStep cfg) T (rows.map fun row => .tryRow c now (token row.1))).db = T.db := by
    intro rows T hT
    induction rows with
    | nil => rfl
    | cons row rows ih =>
      have hnone : leaseStep cfg (.tryRow c now (token row.1)) T = none := by
        simp only [leaseStep, hT]
      rw [List.map_cons, run_cons, next_none hnone, ih]
  obtain ⟨worker, privateDisabled, maxJobs, rows, leased⟩ := call
  induction rows generalizing leased S with
  | nil => rfl
  | cons row rows ih =>
    have hstep := next_some (show leaseStep cfg (.tryRow c now (token row.1)) S = some _ by
      simp only [leaseStep, hS]; rfl)
    simp only [List.map_cons, run_cons, hstep, leaseRows]
    rcases leaseRow cfg worker privateDisabled now (token row.1) S.db row with ⟨db, out⟩
    rcases out with f | _ | job
    · exact hended rows _ (Function.update_self ..)
    · exact ih _ _ (Function.update_self ..)
    · simp only [LeaseCall.after]
      split
      · exact hended rows _ (Function.update_self ..)
      · exact ih _ _ (Function.update_self ..)

/-! ## What a step does to a row -/

/-- The UPDATE of a row that a step executes, in the states in which it comes to that. -/
def LeaseStep.Executes (S : LeaseSystem) (id : Uuid) : LeaseStep → ScanStep → Prop
  | .tryRow _ now tok, b => S.Pending id ∧ b = .claim now tok
  | .complete worker emergency now payload, b =>
    payload.scanId = id ∧ (authorizeScanForWorker cfg S.db worker emergency id).isOk ∧
      ∃ st, reportedStatus payload.status = some st ∧ b = .finalize now st payload.executionToken
  | .reap now timeout stale, b => b = .reap now timeout stale
  | .cancel now j, b => j = id ∧ b = .cancel now
  | .heartbeat _ _ now j tok, b => j = id ∧ b = .heartbeat now (some tok)
  | .beginLease _ _ _ _ _, _ | .admin _, _ => False

variable {cfg}

theorem LeaseStep.Executes.of_claim {S : LeaseSystem} {id : Uuid} {a : LeaseStep} {now : ℤ}
    {tok : Uuid} (h : a.Executes cfg S id (.claim now tok)) :
    S.Pending id ∧ ∃ c, a = .tryRow c now tok := by
  cases a with
  | beginLease | admin => cases h
  | tryRow c now tok =>
    obtain ⟨hpend, hb⟩ := h
    cases hb
    exact ⟨hpend, c, rfl⟩
  | complete =>
    obtain ⟨-, -, st, -, hb⟩ := h
    cases hb
  | reap => cases h
  | cancel | heartbeat =>
    obtain ⟨-, hb⟩ := h
    cases hb

theorem LeaseStep.Executes.of_finalize {S : LeaseSystem} {id : Uuid} {a : LeaseStep} {now : ℤ}
    {st : TerminalStatus} {tok : Uuid} (h : a.Executes cfg S id (.finalize now st tok)) :
    ∃ worker emergency payload, a = .complete worker emergency now payload ∧ payload.scanId = id ∧
      (authorizeScanForWorker cfg S.db worker emergency id).isOk ∧
      reportedStatus payload.status = some st ∧ payload.executionToken = tok := by
  cases a with
  | beginLease | admin => cases h
  | complete worker emergency now payload =>
    obtain ⟨hid, hauth, st, hst, hb⟩ := h
    cases hb
    exact ⟨worker, emergency, payload, rfl, hid, hauth, hst, rfl⟩
  | reap => cases h
  | tryRow | cancel | heartbeat =>
    obtain ⟨-, hb⟩ := h
    cases hb

theorem LeaseStep.Executes.of_reap {S : LeaseSystem} {id : Uuid} {a : LeaseStep}
    {now timeout : ℤ} {stale : Option ℤ} (h : a.Executes cfg S id (.reap now timeout stale)) :
    a = .reap now timeout stale := by
  cases a with
  | beginLease | admin => cases h
  | complete =>
    obtain ⟨-, -, st, -, hb⟩ := h
    cases hb
  | reap now timeout stale =>
    cases h
    rfl
  | tryRow | cancel | heartbeat =>
    obtain ⟨-, hb⟩ := h
    cases hb

theorem update_row {scans scans' : Table Uuid Scan} {j : Uuid} {b : ScanStep}
    (h : scans.update j (scanStep b) = some scans') (id : Uuid) :
    scans' id = scans id ∨
      j = id ∧ ∃ s s', scans id = some s ∧ scans' id = some s' ∧ scanStep b s = some s' := by
  obtain ⟨s, s', hs, hs', rfl⟩ := Table.update_eq_some.mp h
  by_cases hj : id = j
  · subst hj
    exact .inr ⟨rfl, s, s', hs, Table.set_self _ _ _, hs'⟩
  · exact .inl (Table.set_of_ne _ _ hj)

theorem onRow_row (S : LeaseSystem) (j : Uuid) (b : ScanStep) (id : Uuid) :
    (S.onRow j b).db.scans id = S.db.scans id ∨
      j = id ∧ ∃ s s', S.db.scans id = some s ∧ (S.onRow j b).db.scans id = some s' ∧
        scanStep b s = some s' := by
  simp only [LeaseSystem.onRow]
  cases h : S.db.scans.update j (scanStep b) with
  | none => exact .inl rfl
  | some scans => exact update_row h id

theorem leaseRow_row (worker : ScannerWorker) (privateDisabled : Bool) (now : ℤ) (tok : Uuid)
    (db : Db) (row : Uuid × Scan) (id : Uuid) :
    (leaseRow cfg worker privateDisabled now tok db row).1.scans id = db.scans id ∨
      row.1 = id ∧ ∃ s s', db.scans id = some s ∧
        (leaseRow cfg worker privateDisabled now tok db row).1.scans id = some s' ∧
        scanStep (.claim now tok) s = some s' := by
  unfold leaseRow
  match rowGate cfg db worker privateDisabled row.2 with
  | .error f => exact .inl rfl
  | .ok none => exact .inl rfl
  | .ok (some site) =>
    cases h : db.scans.update row.1 (claimScan now tok) with
    | none => exact .inl rfl
    | some scans => exact update_row (b := .claim now tok) h id

theorem completeLease_row (worker : ScannerWorker) (emergency : Bool) (now : ℤ)
    (payload : LeaseCompleteIn) (db : Db) (id : Uuid) :
    (completeLease cfg worker emergency now payload db).1.scans id = db.scans id ∨
      payload.scanId = id ∧ (authorizeScanForWorker cfg db worker emergency id).isOk ∧
        ∃ st, reportedStatus payload.status = some st ∧ ∃ s s', db.scans id = some s ∧
          (completeLease cfg worker emergency now payload db).1.scans id = some s' ∧
          scanStep (.finalize now st payload.executionToken) s = some s' := by
  unfold completeLease
  cases hst : reportedStatus payload.status with
  | none => exact .inl rfl
  | some st =>
    cases hauth : authorizeScanForWorker cfg db worker emergency payload.scanId with
    | error f => exact .inl rfl
    | ok scan =>
      cases h : db.scans.update payload.scanId
          (finalizeStatus now st payload.executionToken) with
      | none => exact .inl (by simp only [h])
      | some scans =>
        simp only [h]
        rcases update_row (b := .finalize now st payload.executionToken) h id with hsame | hrow
        · exact .inl hsame
        · obtain ⟨hid, s, s', hs, hs', hstep⟩ := hrow
          rw [hid] at hauth
          exact .inr ⟨hid, by rw [hauth]; rfl, st, rfl, s, s', hs, hs', hstep⟩

/-- A round of the loop of a request: the request is answered, or it has tried a row. -/
theorem tryRow_cases {c : ℕ} {now : ℤ} {tok : Uuid} {S S' : LeaseSystem}
    (h : leaseStep cfg (.tryRow c now tok) S = some S') :
    S' = { S with calls := Function.update S.calls c none } ∨
      ∃ call row rows, S.calls c = some call ∧ call.rows = row :: rows ∧
        S' = {
          db := (leaseRow cfg call.worker call.privateDisabled now tok S.db row).1
          calls := Function.update S.calls c (call.after rows
            (leaseRow cfg call.worker call.privateDisabled now tok S.db row).2) } := by
  simp only [leaseStep] at h
  cases hc : S.calls c with
  | none =>
    rw [hc] at h
    cases h
  | some call =>
    rw [hc] at h
    cases hrows : call.rows with
    | nil =>
      simp only [hrows] at h
      cases h
      exact .inl rfl
    | cons row rows =>
      simp only [hrows] at h
      cases h
      exact .inr ⟨call, row, rows, rfl, hrows, rfl⟩

/-- **What a step does to a row**: nothing, or the UPDATE that it executes. -/
theorem leaseStep_row {a : LeaseStep} {S S' : LeaseSystem} (h : leaseStep cfg a S = some S')
    (id : Uuid) :
    S'.db.scans id = S.db.scans id ∨
      ∃ b, a.Executes cfg S id b ∧ ∃ s s', S.db.scans id = some s ∧ S'.db.scans id = some s' ∧
        scanStep b s = some s' := by
  cases a with
  | beginLease c worker privateDisabled payload order =>
    simp only [leaseStep] at h
    split at h
    · cases h; exact .inl rfl
    · cases h
  | tryRow c now tok =>
    rcases tryRow_cases h with rfl | ⟨call, row, rows, hc, hrows, rfl⟩
    · exact .inl rfl
    · rcases leaseRow_row call.worker call.privateDisabled now tok S.db row id with hs | hs
      · exact .inl hs
      · obtain ⟨rfl, hs⟩ := hs
        exact .inr ⟨_, ⟨⟨c, call, hc, by simp [hrows]⟩, rfl⟩, hs⟩
  | complete worker emergency now payload =>
    cases h
    rcases completeLease_row worker emergency now payload S.db id with hs | hs
    · exact .inl hs
    · obtain ⟨hid, hauth, st, hst, hs⟩ := hs
      exact .inr ⟨_, ⟨hid, hauth, st, hst, rfl⟩, hs⟩
  | reap now timeout stale =>
    cases h
    simp only [Table.updateAll]
    cases hs : S.db.scans id with
    | none => exact .inl rfl
    | some s =>
      rcases next_cases scanStep s (.reap now timeout stale) with hstep | ⟨hstep, -⟩
      · exact .inr ⟨_, rfl, s, _, rfl, by rw [Option.map_some, hstep]; rfl, hstep⟩
      · exact .inl (by rw [Option.map_some, hstep]; rfl)
  | cancel now j =>
    cases h
    rcases onRow_row S j (.cancel now) id with hs | ⟨hj, hs⟩
    · exact .inl hs
    · exact .inr ⟨_, ⟨hj, rfl⟩, hs⟩
  | heartbeat worker emergency now j tok =>
    simp only [leaseStep] at h
    split at h
    · cases h
    · cases h
      rcases onRow_row S j (.heartbeat now (some tok)) id with hs | ⟨hj, hs⟩
      · exact .inl hs
      · exact .inr ⟨_, ⟨hj, rfl⟩, hs⟩
  | admin tables => cases h; exact .inl rfl

theorem pending_update {S : LeaseSystem} {db : Db} {d : ℕ} {v : Option LeaseCall} {id : Uuid}
    (h : LeaseSystem.Pending ⟨db, Function.update S.calls d v⟩ id) :
    (∃ call ∈ v, id ∈ call.rows.map Prod.fst) ∨ S.Pending id := by
  obtain ⟨c, call, hc, hid⟩ := h
  simp only [Function.update_apply] at hc
  split_ifs at hc
  · exact .inl ⟨call, hc, hid⟩
  · exact .inr ⟨c, call, hc, hid⟩

theorem LeaseCall.after_rows {call call' : LeaseCall} {rows : List (Uuid × Scan)}
    {out : Except Fault (Option Job)} (h : call' ∈ call.after rows out) : call'.rows = rows := by
  match out with
  | .error f => cases h
  | .ok none => cases h; rfl
  | .ok (some job) =>
    simp only [LeaseCall.after] at h
    split_ifs at h
    · cases h
    · cases h; rfl

/-- **A row becomes pending** only when a query returns it, which it does to leasable rows. -/
theorem leaseStep_pending {a : LeaseStep} {S S' : LeaseSystem} (h : leaseStep cfg a S = some S')
    {id : Uuid} (hpend : S'.Pending id) :
    S.Pending id ∨ S'.db = S.db ∧ ∃ s, S.db.scans id = some s ∧ s.leasable = true := by
  cases a with
  | beginLease d worker privateDisabled payload order =>
    simp only [leaseStep] at h
    split at h
    · cases h
      rcases pending_update hpend with ⟨call, hcall, hid⟩ | hold
      · cases hcall
        obtain ⟨⟨j, s⟩, hrow, rfl⟩ := List.mem_map.mp hid
        obtain ⟨-, hs, hcand⟩ := mem_candidates.mp (List.mem_of_mem_take hrow)
        simp only [Scan.candidate, Bool.decide_and, Bool.and_eq_true, decide_eq_true_eq] at hcand
        exact .inr ⟨rfl, s, hs, hcand.1⟩
      · exact .inl hold
    · cases h
  | tryRow d now tok =>
    refine .inl ?_
    rcases tryRow_cases h with rfl | ⟨call, row, rows, hd, hrows, rfl⟩
    · rcases pending_update hpend with ⟨_, hnone, -⟩ | hold
      · cases hnone
      · exact hold
    · rcases pending_update hpend with ⟨call', hcall', hid⟩ | hold
      · rw [LeaseCall.after_rows hcall'] at hid
        refine ⟨d, call, hd, ?_⟩
        rw [hrows]
        exact List.mem_cons_of_mem _ hid
      · exact hold
  | complete | reap | cancel | admin => cases h; exact .inl hpend
  | heartbeat worker emergency now j tok =>
    simp only [leaseStep] at h
    split at h
    · cases h
    · cases h; exact .inl hpend

/-! ## Who failed a failed row -/

variable (cfg) in
/-- A terminal write that fails a scan finds no mark of the reaper on its row, and no request in
progress has still to try it. -/
def LeaseStep.Unmarked (S : LeaseSystem) : LeaseStep → Prop
  | .complete worker emergency _ payload => payload.status = "failed" →
    (authorizeScanForWorker cfg S.db worker emergency payload.scanId).isOk →
    ∀ s ∈ S.db.scans payload.scanId,
      s.status = .running → s.executionToken = some payload.executionToken →
        s.hasRecovery = false ∧ ¬ S.Pending payload.scanId
  | _ => True

theorem reportedStatus_failed {text : String} {st : TerminalStatus}
    (h : reportedStatus text = some st) (hst : st.val = .failed) : text = "failed" := by
  unfold reportedStatus at h
  split at h
  · cases h; cases hst
  · cases h; cases hst
  · rfl
  · cases h

theorem hasStatus_iff {S : LeaseSystem} {id : Uuid} {st : ScanStatus} :
    S.HasStatus id st ↔ (S.db.scans id).map Scan.status = some st := by
  simp [LeaseSystem.HasStatus, Option.map_eq_some_iff]

theorem hasStatus_of_some {S : LeaseSystem} {id : Uuid} {s : Scan} {st : ScanStatus}
    (hs : S.db.scans id = some s) : S.HasStatus id st ↔ s.status = st := by
  rw [hasStatus_iff, hs, Option.map_some, Option.some.injEq]

/-- A step after which a row is failed, and marked or pending, finds it so or is a reap. -/
theorem recovered_step {S S' : LeaseSystem} {a : LeaseStep} (h : leaseStep cfg a S = some S')
    (ha : a.Unmarked cfg S) {id : Uuid} {s : Scan} (hs : S'.db.scans id = some s)
    (hfailed : s.status = .failed) (hmark : s.hasRecovery = true ∨ S'.Pending id) :
    (S.db.scans id = some s ∧ (s.hasRecovery = true ∨ S.Pending id)) ∨
      (∃ now timeout stale, a = .reap now timeout stale) ∧ ¬ S.HasStatus id .failed := by
  rcases leaseStep_row h id with hsame | ⟨b, hb, s₁, s₂, hs₁, hs₂, hstep⟩
  · rw [hsame] at hs
    refine .inl ⟨hs, ?_⟩
    rcases hmark with hmark | hpend
    · exact .inl hmark
    · rcases leaseStep_pending h hpend with hpend | ⟨-, s₁, hs₁, hleasable⟩
      · exact .inr hpend
      · -- A failed row that a new request has read is marked.
        rw [hs] at hs₁
        cases hs₁
        simp only [Scan.leasable, hfailed] at hleasable
        exact .inl (by simpa using hleasable)
  rw [hs] at hs₂
  cases hs₂
  obtain ⟨hrun, ⟨now, st, tok, rfl, hst⟩ | ⟨now, timeout, stale, rfl⟩⟩ :=
    failed_of_running hfailed hstep
  · obtain ⟨worker, emergency, payload, rfl, rfl, hauth, hreported, rfl⟩ := hb.of_finalize
    obtain ⟨⟨-, htok⟩, rfl⟩ := finalizeStatus_eq_some.mp hstep
    obtain ⟨hclean, hquiet⟩ := ha (reportedStatus_failed hreported hst) hauth s₁ hs₁ hrun htok
    rcases hmark with hmark | hpend
    · have hmarked : s₁.hasRecovery = true := hmark
      rw [hclean] at hmarked
      cases hmarked
    · rcases leaseStep_pending h hpend with hpend | ⟨hdb, -⟩
      · exact absurd hpend hquiet
      · rw [hdb, hs₁] at hs
        have hstatus := congrArg (Option.map Scan.status) hs
        rw [Option.map_some, Option.map_some, hrun, hfailed] at hstatus
        cases hstatus
  · refine .inr ⟨⟨now, timeout, stale, hb.of_reap⟩, ?_⟩
    rw [hasStatus_of_some hs₁, hrun]
    exact ScanStatus.noConfusion

/-- **Who failed a row that may be leased.** In every run in which no terminal write fails a row
that is marked or pending, a failed row that is marked or pending was failed by the reaper. -/
theorem recovered_run {S₀ : LeaseSystem} (h0 : S₀.Idle) {σ : List LeaseStep}
    (hσ : Along (leaseStep cfg) (LeaseStep.Unmarked cfg) S₀ σ) {id : Uuid} {s : Scan}
    (hs : (run (leaseStep cfg) S₀ σ).db.scans id = some s) (hfailed : s.status = .failed)
    (hmark : s.hasRecovery = true ∨ (run (leaseStep cfg) S₀ σ).Pending id) :
    ∃ now timeout stale,
      LastInto (leaseStep cfg) (·.HasStatus id .failed) S₀ σ (.reap now timeout stale) := by
  induction σ using List.reverseRecOn generalizing s with
  | nil =>
    have hq := h0.queued id s hs
    rw [hfailed] at hq
    cases hq
  | append_singleton σ a ih =>
    obtain ⟨hpre, ha⟩ := along_concat.mp hσ
    have hafter : (run (leaseStep cfg) S₀ (σ ++ [a])).HasStatus id .failed :=
      (hasStatus_of_some hs).mpr hfailed
    have hearlier : (run (leaseStep cfg) S₀ σ).db.scans id = some s →
        s.hasRecovery = true ∨ (run (leaseStep cfg) S₀ σ).Pending id →
        ∃ now timeout stale, LastInto (leaseStep cfg) (·.HasStatus id .failed) S₀ (σ ++ [a])
          (.reap now timeout stale) := by
      intro hs hmark
      obtain ⟨now, timeout, stale, hlast⟩ := ih hpre hs hfailed hmark
      exact ⟨now, timeout, stale, hlast.concat hafter⟩
    rw [run_concat] at hs hmark
    rcases next_cases (leaseStep cfg) (run (leaseStep cfg) S₀ σ) a with h | ⟨-, h'⟩
    · rcases recovered_step h ha hs hfailed hmark with
        ⟨hs, hmark⟩ | ⟨⟨now, timeout, stale, rfl⟩, hbefore⟩
      · exact hearlier hs hmark
      · exact ⟨now, timeout, stale, lastInto_concat_self hbefore hafter⟩
    · rw [h'] at hs hmark
      exact hearlier hs hmark

/-! ## Leasing a failed scan -/

variable (cfg) in
/-- Whenever a lease takes a failed scan, the reaper failed it last. -/
def OnlyRecoveredLeased (S₀ : LeaseSystem) (σ : List LeaseStep) : Prop :=
  ∀ σ₁ c now tok σ₂ id, σ = σ₁ ++ .tryRow c now tok :: σ₂ →
    (run (leaseStep cfg) S₀ σ₁).HasStatus id .failed →
    (run (leaseStep cfg) S₀ (σ₁ ++ [.tryRow c now tok])).HasStatus id .running →
    ∃ reapedAt timeout stale, LastInto (leaseStep cfg) (·.HasStatus id .failed) S₀ σ₁
      (.reap reapedAt timeout stale)

variable (cfg) in
/-- A scan whose execution reports that it failed is failed for ever after, so that it is never
handed out again. -/
def NeverLeasedAgain (S₀ : LeaseSystem) (σ : List LeaseStep) : Prop :=
  ∀ σ₁ worker emergency now payload σ₂, σ = σ₁ ++ .complete worker emergency now payload :: σ₂ →
    (completeLease cfg worker emergency now payload (run (leaseStep cfg) S₀ σ₁).db).2 =
      .ok (.accepted .failed) →
    ∀ τ, τ <+: σ₂ → (run (leaseStep cfg) S₀
      (σ₁ ++ .complete worker emergency now payload :: τ)).HasStatus payload.scanId .failed

/-- Only a claim takes a row out of `failed`, and it tries a pending row. -/
theorem failed_left {a : LeaseStep} {S S' : LeaseSystem} (h : leaseStep cfg a S = some S')
    {id : Uuid} (hfailed : S.HasStatus id .failed) (hleft : ¬ S'.HasStatus id .failed) :
    S.Pending id ∧ S'.HasStatus id .running ∧ ∃ c now tok, a = .tryRow c now tok := by
  rcases leaseStep_row h id with hsame | ⟨b, hb, s, s', hs, hs', hstep⟩
  · rw [hasStatus_iff, hsame, ← hasStatus_iff] at hleft
    exact absurd hfailed hleft
  · rw [hasStatus_of_some hs] at hfailed
    obtain ⟨now, tok, rfl⟩ := claim_of_failed hfailed hstep
    obtain ⟨hpend, c, rfl⟩ := hb.of_claim
    refine ⟨hpend, ?_, c, now, tok, rfl⟩
    rw [hasStatus_of_some hs', (claimScan_eq_some.mp hstep).2]

/-- An accepted terminal write finds the scan running and leaves it in the status it reports. -/
theorem completeLease_accepted {worker : ScannerWorker} {emergency : Bool} {now : ℤ}
    {payload : LeaseCompleteIn} {db : Db} {st : ScanStatus}
    (h : (completeLease cfg worker emergency now payload db).2 = .ok (.accepted st)) :
    (db.scans payload.scanId).map Scan.status = some .running ∧
      ((completeLease cfg worker emergency now payload db).1.scans payload.scanId).map
        Scan.status = some st := by
  unfold completeLease at h ⊢
  cases hst : reportedStatus payload.status with
  | none => rw [hst] at h; cases h
  | some st' =>
    cases hauth : authorizeScanForWorker cfg db worker emergency payload.scanId with
    | error f => rw [hst, hauth] at h; cases h
    | ok scan =>
      cases hup : db.scans.update payload.scanId
          (finalizeStatus now st' payload.executionToken) with
      | none => simp only [hst, hauth, hup] at h; cases h
      | some scans =>
        simp only [hst, hauth, hup] at h ⊢
        cases h
        obtain ⟨s, s', hs, hs', rfl⟩ := Table.update_eq_some.mp hup
        obtain ⟨⟨hrun, -⟩, rfl⟩ := finalizeStatus_eq_some.mp hs'
        simp [hs, hrun]

theorem onlyRecoveredLeased_run {S₀ : LeaseSystem} (h0 : S₀.Idle) {σ : List LeaseStep}
    (hσ : Along (leaseStep cfg) (LeaseStep.Unmarked cfg) S₀ σ) :
    OnlyRecoveredLeased cfg S₀ σ := by
  rintro σ₁ c now tok σ₂ id rfl hfailed hrunning
  have hleft : ¬ (run (leaseStep cfg) S₀ (σ₁ ++ [.tryRow c now tok])).HasStatus id .failed := by
    rw [hasStatus_iff] at hrunning ⊢
    rw [hrunning]
    exact fun h => ScanStatus.noConfusion (Option.some.inj h)
  rw [run_concat] at hleft
  rcases next_cases (leaseStep cfg) (run (leaseStep cfg) S₀ σ₁) (.tryRow c now tok) with h | ⟨-, h⟩
  · obtain ⟨hpend, -, -⟩ := failed_left h hfailed hleft
    obtain ⟨s, hs, hst⟩ := hfailed
    exact recovered_run h0 hσ.prefix hs hst (.inr hpend)
  · rw [h] at hleft
    exact absurd hfailed hleft

/-- A run that leases again only what the reaper failed never leases again what failed by itself. -/
theorem neverLeasedAgain_of_only {S₀ : LeaseSystem} {σ : List LeaseStep}
    (h : OnlyRecoveredLeased cfg S₀ σ) : NeverLeasedAgain cfg S₀ σ := by
  rintro σ₁ worker emergency now payload σ₂ rfl hacc τ hτ
  obtain ⟨hbefore, hafter⟩ := completeLease_accepted hacc
  -- The row stays failed, and the terminal write stays the last action that failed it.
  suffices hlast : (run (leaseStep cfg) S₀
      (σ₁ ++ .complete worker emergency now payload :: τ)).HasStatus payload.scanId .failed ∧
      LastInto (leaseStep cfg) (·.HasStatus payload.scanId .failed) S₀
        (σ₁ ++ .complete worker emergency now payload :: τ)
        (.complete worker emergency now payload) from hlast.1
  induction τ using List.reverseRecOn with
  | nil =>
    have hfailed : (run (leaseStep cfg) S₀
        (σ₁ ++ [.complete worker emergency now payload])).HasStatus payload.scanId .failed := by
      rw [run_concat, hasStatus_iff]
      exact hafter
    refine ⟨hfailed, lastInto_concat_self ?_ hfailed⟩
    rw [hasStatus_iff, hbefore]
    exact fun he => ScanStatus.noConfusion (Option.some.inj he)
  | append_singleton τ b ih =>
    obtain ⟨ρ, rfl⟩ := hτ
    obtain ⟨hfailed, hlast⟩ := ih ⟨b :: ρ, by simp⟩
    have hsplit : σ₁ ++ .complete worker emergency now payload :: (τ ++ [b]) =
        (σ₁ ++ .complete worker emergency now payload :: τ) ++ [b] := by simp
    rw [hsplit]
    by_cases hstill : (run (leaseStep cfg) S₀
        ((σ₁ ++ .complete worker emergency now payload :: τ) ++ [b])).HasStatus payload.scanId
          .failed
    · exact ⟨hstill, hlast.concat hstill⟩
    · exfalso
      have hleft := hstill
      rw [run_concat] at hleft
      rcases next_cases (leaseStep cfg) (run (leaseStep cfg) S₀
          (σ₁ ++ .complete worker emergency now payload :: τ)) b with hb | ⟨-, hb⟩
      · obtain ⟨-, hrunning, c, n, tok, rfl⟩ := failed_left hb hfailed hleft
        rw [← run_concat] at hrunning
        obtain ⟨t, timeout, stale, hreap⟩ := h _ c n tok ρ _ (by simp) hfailed hrunning
        cases hlast.unique hreap
      · rw [hb] at hleft
        exact hleft hfailed

/-- **Only the reaper's failures are leased again**, and a scan whose execution failed never is, in
every run from an idle system in which no terminal write fails a row that the reaper has marked or
that a request in progress has still to try. -/
theorem only_recovered_leased {S₀ : LeaseSystem} (h0 : S₀.Idle) (σ : List LeaseStep)
    (hσ : Along (leaseStep cfg) (LeaseStep.Unmarked cfg) S₀ σ) :
    OnlyRecoveredLeased cfg S₀ σ ∧ NeverLeasedAgain cfg S₀ σ :=
  have honly := onlyRecoveredLeased_run h0 hσ
  ⟨honly, neverLeasedAgain_of_only honly⟩

/-! ## A run -/

/-- One queued scan and no request in progress. -/
def retrySystem : LeaseSystem where
  db := { Db.empty with scans := .ofList [(5, .created 1 2 3 [] 0)] }
  calls _ := none

/-- A request of a public worker that is served the scan. -/
def leaseFive (call : ℕ) (now : ℤ) (tok : Uuid) : List LeaseStep :=
  [.beginLease call ⟨"w", "public", none, none, .active, none⟩ false ⟨1, by decide, by decide⟩ [5],
    .tryRow call now tok]

def failFive (now : ℤ) (tok : Uuid) : LeaseStep :=
  .complete ⟨"w", "public", none, none, .active, none⟩ false now ⟨5, tok, "failed"⟩

theorem retrySystem_idle : retrySystem.Idle := by
  refine ⟨fun _ => rfl, fun id s hs => ?_⟩
  have hlookup : s ∈ List.lookup id [((5 : Uuid), Scan.created 1 2 3 [] 0)] := hs
  rw [List.lookup_cons] at hlookup
  split at hlookup
  · cases hlookup; rfl
  · cases hlookup

/-- A scan whose first execution failed is not leased again. -/
theorem only_recovered_leased_failed :
    OnlyRecoveredLeased ⟨""⟩ retrySystem
        (leaseFive 0 0 7 ++ failFive 60000000 7 :: leaseFive 1 90000000 8) ∧
      NeverLeasedAgain ⟨""⟩ retrySystem
        (leaseFive 0 0 7 ++ failFive 60000000 7 :: leaseFive 1 90000000 8) := by
  refine only_recovered_leased retrySystem_idle _ (.cons trivial (.cons trivial (.cons ?_
    (.cons trivial (.cons trivial (along_nil _ _))))))
  intro _ _ s hs _ _
  constructor
  · cases hs; rfl
  · rintro ⟨c, call, hc, -⟩
    have hcalls : Function.update (Function.update (fun _ => none) 0 (some _)) 0 none c =
        some call := hc
    rw [Function.update_idem, Function.update_apply] at hcalls
    split_ifs at hcalls

/-- **A scan whose execution failed is leased again.** Its first execution falls silent and the
reaper marks the row; the second one reports that the scan failed; the mark is still there, and the
scan is handed out a third time. -/
theorem failed_leased_again :
    ¬ OnlyRecoveredLeased ⟨""⟩ retrySystem
        (leaseFive 0 0 7 ++ .reap 8000000000 7200 (some 900) :: leaseFive 1 8001000000 8 ++
          failFive 8060000000 8 :: leaseFive 2 8061000000 9) ∧
      ¬ NeverLeasedAgain ⟨""⟩ retrySystem
        (leaseFive 0 0 7 ++ .reap 8000000000 7200 (some 900) :: leaseFive 1 8001000000 8 ++
          failFive 8060000000 8 :: leaseFive 2 8061000000 9) := by
  have hnever : ¬ NeverLeasedAgain ⟨""⟩ retrySystem
      (leaseFive 0 0 7 ++ .reap 8000000000 7200 (some 900) :: leaseFive 1 8001000000 8 ++
        failFive 8060000000 8 :: leaseFive 2 8061000000 9) := by
    intro h
    have hfailed := h _ _ _ _ _ _ rfl rfl _ (List.prefix_refl _)
    rw [hasStatus_iff] at hfailed
    revert hfailed
    decide
  exact ⟨fun h => hnever (neverLeasedAgain_of_only h), hnever⟩

end ScanPlatform
