import Mathlib.Data.List.Nodup
import ScanPlatform.Base.Collect
import ScanPlatform.Engine.Runner
import ScanPlatform.Manager.Db

/-!
# Leasing

`POST /v1/lease` reads a bounded number of leasable rows, passes each through the gates of the
worker, claims those that pass and hands them out; `POST /v1/lease/complete` is the terminal write.

* `selectLeasable`, `rowGate`, `leaseRow`, `leaseRows`, `leaseJobs`: the lease;
* `completeLease`: the terminal write;
* `mem_candidates`: the rows that the query may return;
* `leaseRow_fresh`: a row that nobody else writes is claimed when the gates let it through;
* **`leaseJobs_eq`**: a lease on rows that nobody else writes is decided by the gates alone.
-/

set_option autoImplicit false

namespace ScanPlatform

/-- The body of `/v1/lease`. -/
structure LeaseIn where
  maxJobs : ℕ
  ge : 1 ≤ maxJobs
  le : maxJobs ≤ 10

/-- `ALLOWED_TOOL_CONFIG_KEYS`. -/
def allowedToolConfigKeys : List String :=
  ["timeout_seconds", "top_ports", "rate", "crawl_depth", "crawl_rate", "param_discovery_max",
    "param_discovery_timeout_seconds", "arjun_wordlist", "arjun_threads", "arjun_request_timeout",
    "nuclei_tags", "nuclei_timeout_seconds", "dast_timeout_seconds", "ffuf_wordlist_path",
    "ffuf_rate"]

/-- A job as the worker receives it. -/
structure Job where
  scanId : Uuid
  workspaceId : Uuid
  projectId : Uuid
  executionToken : Uuid
  networkZone : String
  siteId : Option Uuid
  targetId : Uuid
  targetType : Option String
  targetValue : Option String
  requestedModules : List Json.Value
  config : Json.Object
  authorizedCidrs : List String
  dnsServers : List String
  poolId : Option String
  requiredEgressMode : Option String

/-- `_build_job_payload`. -/
def buildJobPayload (db : Db) (scanId : Uuid) (scan : Scan) (site : Option (Uuid × PrivateSite))
    (executionToken : Uuid) : Except Fault Job := do
  let requestedModules ← scan.requestedModules
  let requiredEgressMode ← requiredScanEgressMode scan
  return {
    scanId
    workspaceId := scan.workspaceId
    projectId := scan.projectId
    executionToken
    networkZone := if site.isSome then "private" else "public"
    siteId := site.map (·.1)
    targetId := scan.targetId
    targetType := (db.targets scan.targetId).map (·.type)
    targetValue := (db.targets scan.targetId).map (·.value)
    requestedModules
    config := scan.config.filter (·.1 ∈ allowedToolConfigKeys)
    authorizedCidrs := (site.map (·.2.authorizedCidrs)).getD []
    dnsServers := (site.map (·.2.dnsServers)).getD []
    poolId := site.bind (·.2.scannerPoolId)
    requiredEgressMode }

/-- What a payload says about its scan and its site. -/
theorem buildJobPayload_eq_ok {db : Db} {scanId : Uuid} {scan : Scan}
    {site : Option (Uuid × PrivateSite)} {tok : Uuid} {job : Job}
    (h : buildJobPayload db scanId scan site tok = .ok job) :
    (job.scanId = scanId ∧ job.workspaceId = scan.workspaceId ∧ job.targetId = scan.targetId ∧
      scan.requestedModules = .ok job.requestedModules) ∧
    job.siteId = site.map (·.1) ∧
      job.networkZone = if site.isSome then "private" else "public" := by
  obtain ⟨modules, hmodules, h⟩ := Checks.bind_eq_ok.mp h
  obtain ⟨mode, -, h⟩ := Checks.bind_eq_ok.mp h
  cases h
  exact ⟨⟨rfl, rfl, rfl, hmodules⟩, rfl, rfl⟩

/-! ## Which rows may be leased -/

/-- Queued, or failed and marked by the reaper. -/
def Scan.leasable (s : Scan) : Bool :=
  s.status = .queued ∨ s.status = .failed ∧ s.hasRecovery

/-- The WHERE clause of the lease query. A private worker is asked for its own workspace only; a
worker without a workspace then gets no row at all. -/
def Scan.candidate (worker : ScannerWorker) (s : Scan) : Bool :=
  s.leasable ∧ (worker.siteId.isSome → worker.workspaceId = some s.workspaceId)

/-- The LIMIT of the lease query. -/
def leaseLimit (worker : ScannerWorker) (payload : LeaseIn) : ℕ :=
  if worker.siteId.isSome then payload.maxJobs else payload.maxJobs * 4

/-- The candidates of the lease query, the database returning rows in the order of `order`. -/
def candidates (db : Db) (worker : ScannerWorker) (order : List Uuid) : List (Uuid × Scan) :=
  order.filterMap fun id => ((db.scans id).filter (·.candidate worker)).map fun s => (id, s)

def selectLeasable (db : Db) (worker : ScannerWorker) (payload : LeaseIn) (order : List Uuid) :
    List (Uuid × Scan) :=
  (candidates db worker order).take (leaseLimit worker payload)

/-! ## One row -/

/-- The gates of one row: `none` when it is skipped, and otherwise the site it is leased with. -/
def rowGate (cfg : Settings) (db : Db) (worker : ScannerWorker) (privateDisabled : Bool)
    (s : Scan) : Except Fault (Option (Option (Uuid × PrivateSite))) := do
  let siteUuid ← s.siteUuid
  if siteUuid.isSome ∧ privateDisabled then return none
  let requiredEgressMode ← requiredScanEgressMode s
  match assertWorkerMayTakeScan cfg worker s.workspaceId siteUuid none requiredEgressMode with
  | .error _ => return none
  | .ok () =>
    match siteUuid with
    | none => return some none
    | some site =>
      match getSiteForWorkspace db site s.workspaceId with
      | .error _ => return none
      | .ok row =>
        match assertSiteScannable row with
        | .error _ => return none
        | .ok () => return some (some (site, row))

/-- The body of the loop of `lease_jobs` at the row that the query read. The claim is committed
before the job is built. -/
def leaseRow (cfg : Settings) (worker : ScannerWorker) (privateDisabled : Bool) (now : ℤ)
    (executionToken : Uuid) (db : Db) (row : Uuid × Scan) : Db × Except Fault (Option Job) :=
  match rowGate cfg db worker privateDisabled row.2 with
  | .error fault => (db, .error fault)
  | .ok none => (db, .ok none)
  | .ok (some site) =>
    match db.scans.update row.1 (claimScan now executionToken) with
    | none => (db, .ok none)
    | some scans =>
      ({ db with scans },
        (buildJobPayload { db with scans } row.1 row.2 site executionToken).map some)

/-! ## The loop -/

/-- The loop of `lease_jobs`, `leased` being the jobs built so far. -/
def leaseRows (cfg : Settings) (worker : ScannerWorker) (privateDisabled : Bool) (now : ℤ)
    (token : Uuid → Uuid) (maxJobs : ℕ) : List (Uuid × Scan) → List Job → Db →
    Db × Except Fault (List Job)
  | [], leased, db => (db, .ok leased)
  | row :: rows, leased, db =>
    match leaseRow cfg worker privateDisabled now (token row.1) db row with
    | (db, .error fault) => (db, .error fault)
    | (db, .ok none) => leaseRows cfg worker privateDisabled now token maxJobs rows leased db
    | (db, .ok (some job)) =>
      if maxJobs ≤ (leased ++ [job]).length then (db, .ok (leased ++ [job]))
      else leaseRows cfg worker privateDisabled now token maxJobs rows (leased ++ [job]) db

/-- `lease_jobs`; `token` gives the execution token that is made for a row, `order` the order in
which the database returns the rows. -/
def leaseJobs (cfg : Settings) (worker : ScannerWorker) (privateDisabled : Bool) (now : ℤ)
    (token : Uuid → Uuid) (payload : LeaseIn) (order : List Uuid) (db : Db) :
    Db × Except Fault (List Job) :=
  match assertWorkerMayLease worker with
  | .error reason => (db, .error (.http 403 reason))
  | .ok () =>
    leaseRows cfg worker privateDisabled now token payload.maxJobs
      (selectLeasable db worker payload order) [] db

/-! ## The terminal write -/

/-- The body of `/v1/lease/complete`. -/
structure LeaseCompleteIn where
  scanId : Uuid
  executionToken : Uuid
  status : String

/-- The statuses that a worker may report. -/
def reportedStatus : String → Option TerminalStatus
  | "completed" => some ⟨.completed, by decide⟩
  | "completed_with_errors" => some ⟨.completedWithErrors, by decide⟩
  | "failed" => some ⟨.failed, by decide⟩
  | _ => none

/-- `_ownership_lost_reason`. -/
def ownershipLostReason : ScanStatus → String
  | .queued => "requeued_on_shutdown"
  | .running => "reclaimed_by_new_owner"
  | .completed | .completedWithErrors | .failed | .cancelled => "already_terminal"

inductive LeaseCompleteOut where
  | accepted (status : ScanStatus)
  | superseded (reason : String) (status : ScanStatus)

/-- `complete_lease`. -/
def completeLease (cfg : Settings) (worker : ScannerWorker) (emergency : Bool) (now : ℤ)
    (payload : LeaseCompleteIn) (db : Db) : Db × Except Fault LeaseCompleteOut :=
  match reportedStatus payload.status with
  | none => (db, .error (.http 400 "INVALID_TERMINAL_STATUS"))
  | some st =>
    match authorizeScanForWorker cfg db worker emergency payload.scanId with
    | .error fault => (db, .error fault)
    | .ok scan =>
      match db.scans.update payload.scanId (finalizeStatus now st payload.executionToken) with
      | none => (db, .ok (.superseded (ownershipLostReason scan.status) scan.status))
      | some scans => ({ db with scans }, .ok (.accepted st))

/-! ## The rows of the query -/

theorem mem_candidates {db : Db} {worker : ScannerWorker} {order : List Uuid} {id : Uuid}
    {s : Scan} :
    (id, s) ∈ candidates db worker order ↔
      id ∈ order ∧ db.scans id = some s ∧ s.candidate worker = true := by
  simp only [candidates, List.mem_filterMap, Option.map_eq_some_iff, Option.filter_eq_some_iff,
    Prod.mk.injEq]
  constructor
  · rintro ⟨j, hj, s', ⟨hs', hc⟩, rfl, rfl⟩
    exact ⟨hj, hs', hc⟩
  · rintro ⟨hid, hs, hc⟩
    exact ⟨id, hid, s, ⟨hs, hc⟩, rfl, rfl⟩

theorem candidates_keys (db : Db) (worker : ScannerWorker) (order : List Uuid) :
    ((candidates db worker order).map Prod.fst).Sublist order := by
  induction order with
  | nil => exact List.Sublist.slnil
  | cons id order ih =>
    cases h : (db.scans id).filter (·.candidate worker) with
    | none => simpa [candidates, h] using ih.cons id
    | some s => simpa [candidates, h] using ih.cons_cons id

/-- The database rows that a lease works on: each is listed once and still as it was read. -/
structure FreshRows (db : Db) (rows : List (Uuid × Scan)) : Prop where
  keys : (rows.map Prod.fst).Nodup
  current : ∀ row ∈ rows, db.scans row.1 = some row.2 ∧ row.2.leasable = true

/-- After a row that is claimed the others are still as they were read. -/
theorem FreshRows.tail {db : Db} {row : Uuid × Scan} {rows : List (Uuid × Scan)}
    (h : FreshRows db (row :: rows)) {scans : Table Uuid Scan}
    (hscans : ∀ j ≠ row.1, scans j = db.scans j) : FreshRows { db with scans } rows := by
  have hkeys := h.keys
  rw [List.map_cons, List.nodup_cons] at hkeys
  refine ⟨hkeys.2, fun r hr => ?_⟩
  have hne : r.1 ≠ row.1 := fun he => hkeys.1 (he ▸ List.mem_map_of_mem hr)
  obtain ⟨hr', hl'⟩ := h.current r (List.mem_cons_of_mem _ hr)
  exact ⟨(hscans r.1 hne).trans hr', hl'⟩

theorem freshRows_select {db : Db} {worker : ScannerWorker} {order : List Uuid}
    (horder : order.Nodup) (payload : LeaseIn) :
    FreshRows db (selectLeasable db worker payload order) where
  keys := ((candidates_keys db worker order).nodup horder).sublist
    ((List.take_sublist _ _).map _)
  current row hrow := by
    obtain ⟨-, hs, hc⟩ := mem_candidates.mp (List.mem_of_mem_take hrow)
    simp only [Scan.candidate, Bool.decide_and, Bool.and_eq_true, decide_eq_true_eq] at hc
    exact ⟨hs, hc.1⟩

/-! ## What the gates decide -/

section

variable (cfg : Settings) (worker : ScannerWorker) (privateDisabled : Bool) (now : ℤ)
  (token : Uuid → Uuid)

/-- What a row adds to the reply when its claim is won. -/
def rowOutcome (db : Db) (row : Uuid × Scan) : Except Fault (Option Job) :=
  match rowGate cfg db worker privateDisabled row.2 with
  | .error fault => .error fault
  | .ok none => .ok none
  | .ok (some site) => (buildJobPayload db row.1 row.2 site (token row.1)).map some

theorem rowOutcome_eq_some {db : Db} {row : Uuid × Scan} {job : Job} :
    rowOutcome cfg worker privateDisabled token db row = .ok (some job) ↔ ∃ site,
      rowGate cfg db worker privateDisabled row.2 = .ok (some site) ∧
        buildJobPayload db row.1 row.2 site (token row.1) = .ok job := by
  unfold rowOutcome
  cases rowGate cfg db worker privateDisabled row.2 with
  | error fault => simp
  | ok site =>
    cases site with
    | none => simp
    | some site => simp [Checks.map_eq_ok]

theorem rowOutcome_eq_none {db : Db} {row : Uuid × Scan} :
    rowOutcome cfg worker privateDisabled token db row = .ok none ↔
      rowGate cfg db worker privateDisabled row.2 = .ok none := by
  unfold rowOutcome
  cases rowGate cfg db worker privateDisabled row.2 with
  | error fault => simp
  | ok site =>
    cases site with
    | none => simp
    | some site => simp [Checks.map_eq_ok]

theorem leasable_claim {s : Scan} (h : s.leasable = true) (tok : Uuid) :
    ∃ s', claimScan now tok s = some s' := by
  refine ⟨_, if_pos ?_⟩
  simp only [Scan.leasable, Bool.decide_or, Bool.decide_and, Bool.or_eq_true, Bool.and_eq_true,
    decide_eq_true_eq] at h
  exact h.imp id And.left

/-- The claim of a row that is still as it was read is won. -/
theorem leasable_update {db : Db} {row : Uuid × Scan} (hs : db.scans row.1 = some row.2)
    (hl : row.2.leasable = true) : ∃ s', claimScan now (token row.1) row.2 = some s' ∧
      db.scans.update row.1 (claimScan now (token row.1)) = some (db.scans.set row.1 s') := by
  obtain ⟨s', hs'⟩ := leasable_claim now hl (token row.1)
  exact ⟨s', hs', Table.update_eq_some.mpr ⟨_, _, hs, hs', rfl⟩⟩

/-- A row that is still as it was read has the outcome that the gates decide, and no other row is
written. -/
theorem leaseRow_fresh {db : Db} {row : Uuid × Scan} (hs : db.scans row.1 = some row.2)
    (hl : row.2.leasable = true) :
    (leaseRow cfg worker privateDisabled now (token row.1) db row).2 =
        rowOutcome cfg worker privateDisabled token db row ∧
      ∃ scans, (leaseRow cfg worker privateDisabled now (token row.1) db row).1 =
          { db with scans } ∧ ∀ j ≠ row.1, scans j = db.scans j := by
  unfold leaseRow rowOutcome
  cases rowGate cfg db worker privateDisabled row.2 with
  | error fault => exact ⟨rfl, db.scans, rfl, fun _ _ => rfl⟩
  | ok site =>
    cases site with
    | none => exact ⟨rfl, db.scans, rfl, fun _ _ => rfl⟩
    | some site =>
      obtain ⟨s', -, hup⟩ := leasable_update now token hs hl
      simp only [hup]
      exact ⟨rfl, _, rfl, fun j hj => Table.set_of_ne _ _ hj⟩

theorem leaseRows_fresh (maxJobs : ℕ) {db : Db} {rows : List (Uuid × Scan)}
    (h : FreshRows db rows) (leased : List Job) :
    (leaseRows cfg worker privateDisabled now token maxJobs rows leased db).2 =
      Collect.collect maxJobs (rows.map (rowOutcome cfg worker privateDisabled token db))
        leased := by
  induction rows generalizing leased db with
  | nil => rfl
  | cons row rows ih =>
    obtain ⟨hs, hl⟩ := h.current row List.mem_cons_self
    obtain ⟨hout, scans, hdb, hscans⟩ :=
      leaseRow_fresh cfg worker privateDisabled now token hs hl
    have ih' := ih (h.tail hscans)
    simp only [leaseRows, List.map_cons]
    rw [← hout]
    rcases hrow : leaseRow cfg worker privateDisabled now (token row.1) db row with ⟨db', out⟩
    rw [hrow] at hdb
    cases hdb
    match out with
    | .error fault => rfl
    | .ok none => exact ih' leased
    | .ok (some job) =>
      simp only [Collect.collect]
      split_ifs
      · rfl
      · exact ih' (leased ++ [job])

/-- **A lease on rows that nobody else writes is decided by the gates alone.** -/
theorem leaseJobs_eq {order : List Uuid} (horder : order.Nodup) (payload : LeaseIn) (db : Db)
    (hw : assertWorkerMayLease worker = .ok ()) :
    (leaseJobs cfg worker privateDisabled now token payload order db).2 =
      Collect.collect payload.maxJobs
        ((selectLeasable db worker payload order).map
          (rowOutcome cfg worker privateDisabled token db)) [] := by
  unfold leaseJobs
  rw [hw]
  exact leaseRows_fresh cfg worker privateDisabled now token _ (freshRows_select horder payload) []

end

end ScanPlatform
