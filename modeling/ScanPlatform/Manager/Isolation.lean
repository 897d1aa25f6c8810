import ScanPlatform.Manager.LeaseProgress

/-!
# Isolation of tenants, sites and pools

A worker is bound to a site and to a workspace by its own row. Both paths that give a worker
something to do with a scan, the lease and the gate of its later requests, compare these columns
with the row of the scan. The pool of the site is compared on neither.

* `Bound`: the scan is one of the worker's site and workspace, and the site can be scanned;
* `authorizeScanForWorker_iff`, `rowGate_bound`: what the two paths check;
* **`worker_boundary`**: every job and every accepted request is of a bound scan;
* **`poolRouted_iff`**, `lease_foreignPool`: when the pool of the site is respected, and a worker of
  another pool that is served.
-/

set_option autoImplicit false

namespace ScanPlatform

open Checks

/-! ## What the gates check -/

theorem assertWorkerMayServeSite_ok {worker : ScannerWorker} {siteId : Option Uuid} :
    assertWorkerMayServeSite worker siteId = .ok () ↔ siteId = worker.siteId := by
  unfold assertWorkerMayServeSite
  cases siteId with
  | none => cases worker.siteId <;> simp
  | some site =>
    cases worker.siteId with
    | none => simp
    | some bound =>
      by_cases h : bound = site
      · simp [h]
      · simp [h, Ne.symm h]

theorem assertWorkerInWorkspace_ok {worker : ScannerWorker} {workspaceId : Uuid} :
    assertWorkerInWorkspace worker workspaceId = .ok () ↔
      ∀ w ∈ worker.workspaceId, w = workspaceId := by
  unfold assertWorkerInWorkspace
  cases worker.workspaceId with
  | none => simp
  | some bound => by_cases h : bound = workspaceId <;> simp [h]

/-- The composite gate, as both of its callers ask it: without a pool. -/
theorem assertWorkerMayTakeScan_ok {cfg : Settings} {worker : ScannerWorker} {workspaceId : Uuid}
    {siteId : Option Uuid} {mode : Option String} :
    assertWorkerMayTakeScan cfg worker workspaceId siteId none mode = .ok () ↔
      assertWorkerActive worker = .ok () ∧ siteId = worker.siteId ∧
        assertWorkerEgressMode cfg worker mode = .ok () ∧
        ∀ w ∈ worker.workspaceId, w = workspaceId := by
  have hpool : assertWorkerInPool worker none = .ok () := rfl
  simp only [assertWorkerMayTakeScan, bind_eq_ok, hpool, ← assertWorkerInWorkspace_ok,
    ← assertWorkerMayServeSite_ok]
  constructor
  · rintro ⟨⟨⟩, hactive, ⟨⟩, hsite, ⟨⟩, hmode, ⟨⟩, hws, -⟩
    exact ⟨hactive, hsite, hmode, hws⟩
  · rintro ⟨hactive, hsite, hmode, hws⟩
    exact ⟨(), hactive, (), hsite, (), hmode, (), hws, trivial⟩

theorem getSiteForWorkspace_ok {db : Db} {siteId workspaceId : Uuid} {row : PrivateSite} :
    getSiteForWorkspace db siteId workspaceId = .ok row ↔
      db.sites siteId = some row ∧ row.workspaceId = workspaceId := by
  unfold getSiteForWorkspace
  cases db.sites siteId with
  | none => simp
  | some site =>
    by_cases h : site.workspaceId = workspaceId
    · simp only [h, ne_eq, not_true_eq_false, if_false, Except.ok.injEq, Option.some.injEq]
      exact ⟨fun hrow => ⟨hrow, hrow ▸ h⟩, And.left⟩
    · simp only [h, ne_eq, not_false_eq_true, if_true, reduceCtorEq, Option.some.injEq, false_iff]
      rintro ⟨rfl, hrow⟩
      exact h hrow

theorem assertSiteScannable_ok {site : PrivateSite} :
    assertSiteScannable site = .ok () ↔ site.status = .active := by
  unfold assertSiteScannable
  cases site.status <;> simp

theorem refusal_ok {α : Type} {e : Except String α} {a : α} :
    refusal e = .ok a ↔ e = .ok a := by
  cases e <;> simp [refusal]

/-! ## The binding of a worker -/

/-- The scan is one of the worker's site and workspace; if that is a private site, the kill switch
is off and the row of the site is an active one of the workspace of the scan. -/
structure Bound (db : Db) (worker : ScannerWorker) (emergency : Bool) (scan : Scan) : Prop where
  site : scan.siteUuid = .ok worker.siteId
  workspace : ∀ w ∈ worker.workspaceId, w = scan.workspaceId
  scannable : ∀ site ∈ worker.siteId, emergency = false ∧
    ∃ row, db.sites site = some row ∧ row.workspaceId = scan.workspaceId ∧ row.status = .active

section

variable {cfg : Settings} {db : Db} {worker : ScannerWorker} {emergency : Bool}

/-- The gate of every scan-scoped request accepts the bound scans of a working worker. -/
theorem authorizeScanForWorker_iff {scanId : Uuid} {scan : Scan} :
    authorizeScanForWorker cfg db worker emergency scanId = .ok scan ↔
      db.scans scanId = some scan ∧ assertWorkerActive worker = .ok () ∧
        Bound db worker emergency scan := by
  have hmode : assertWorkerEgressMode cfg worker none = .ok () := rfl
  constructor
  · intro h
    have hs := authorizeScanForWorker_scan h
    simp only [authorizeScanForWorker, hs, bind_eq_ok, refusal_ok] at h
    obtain ⟨siteUuid, hsite, ⟨⟩, htake, h⟩ := h
    obtain ⟨hactive, rfl, -, hws⟩ := assertWorkerMayTakeScan_ok.mp htake
    refine ⟨hs, hactive, hsite, hws, fun site hbound => ?_⟩
    rw [Option.mem_def.mp hbound] at h
    simp only at h
    split_ifs at h with hem
    obtain ⟨row, hrow, h⟩ := bind_eq_ok.mp h
    obtain ⟨⟨⟩, hscan, -⟩ := bind_eq_ok.mp h
    obtain ⟨hrow, hrowWs⟩ := getSiteForWorkspace_ok.mp (refusal_ok.mp hrow)
    exact ⟨Bool.eq_false_iff.mpr hem, row, hrow, hrowWs,
      assertSiteScannable_ok.mp (refusal_ok.mp hscan)⟩
  · rintro ⟨hs, hactive, hsite, hws, hscannable⟩
    simp only [authorizeScanForWorker, hs, bind_eq_ok, refusal_ok]
    refine ⟨worker.siteId, hsite, (),
      assertWorkerMayTakeScan_ok.mpr ⟨hactive, rfl, hmode, hws⟩, ?_⟩
    cases hbound : worker.siteId with
    | none => rfl
    | some site =>
      obtain ⟨hem, row, hrow, hrowWs, hstatus⟩ := hscannable site hbound
      simp only [hem, Bool.false_eq_true, if_false, bind_eq_ok, refusal_ok]
      exact ⟨row, getSiteForWorkspace_ok.mpr ⟨hrow, hrowWs⟩, (),
        assertSiteScannable_ok.mpr hstatus, trivial⟩

/-- A row that passes the gates of the lease is bound, and is leased with the worker's site. -/
theorem rowGate_bound {s : Scan} {site : Option (Uuid × PrivateSite)}
    (h : rowGate cfg db worker emergency s = .ok (some site)) :
    Bound db worker emergency s ∧ site.map (·.1) = worker.siteId := by
  unfold rowGate at h
  obtain ⟨siteUuid, hsite, h⟩ := bind_eq_ok.mp h
  split_ifs at h with hem
  · cases h
  simp only [pure, Except.pure, bind_eq_ok] at h
  obtain ⟨mode, -, h⟩ := h
  cases htake : assertWorkerMayTakeScan cfg worker s.workspaceId siteUuid none mode with
  | error reason => rw [htake] at h; cases h
  | ok u =>
    obtain ⟨-, rfl, -, hws⟩ := assertWorkerMayTakeScan_ok.mp htake
    rw [htake] at h
    cases hbound : worker.siteId with
    | none =>
      rw [hbound] at h
      cases h
      exact ⟨⟨hsite, hws, fun site hs => by rw [hbound] at hs; cases hs⟩, rfl⟩
    | some site =>
      rw [hbound] at h hem
      simp only at h
      cases hget : getSiteForWorkspace db site s.workspaceId with
      | error reason => rw [hget] at h; cases h
      | ok row =>
        obtain ⟨hrow, hrowWs⟩ := getSiteForWorkspace_ok.mp hget
        rw [hget] at h
        cases hscan : assertSiteScannable row with
        | error reason => simp only [hscan] at h; cases h
        | ok v =>
          simp only [hscan] at h
          cases h
          refine ⟨⟨hsite, hws, fun site' hs' => ?_⟩, rfl⟩
          rw [hbound] at hs'
          cases hs'
          have hoff : emergency = false := by simpa using hem
          exact ⟨hoff, row, hrow, hrowWs, assertSiteScannable_ok.mp hscan⟩

/-- The job is made of a bound row, for the site of the worker. -/
structure JobOfBound (db : Db) (worker : ScannerWorker) (emergency : Bool) (row : Uuid × Scan)
    (job : Job) : Prop where
  bound : Bound db worker emergency row.2
  scanId : job.scanId = row.1
  workspaceId : job.workspaceId = row.2.workspaceId
  siteId : job.siteId = worker.siteId
  networkZone : job.networkZone = if worker.siteId.isSome then "private" else "public"

variable {now : ℤ} {token : Uuid → Uuid}

theorem leaseRow_job {tok : Uuid} {row : Uuid × Scan} {job : Job}
    (h : (leaseRow cfg worker emergency now tok db row).2 = .ok (some job)) :
    JobOfBound db worker emergency row job := by
  unfold leaseRow at h
  cases hgate : rowGate cfg db worker emergency row.2 with
  | error fault => rw [hgate] at h; cases h
  | ok site =>
    cases site with
    | none => rw [hgate] at h; cases h
    | some site =>
      obtain ⟨hbound, hsite⟩ := rowGate_bound hgate
      rw [hgate] at h
      cases hup : db.scans.update row.1 (claimScan now tok) with
      | none => simp only [hup] at h; cases h
      | some scans =>
        simp only [hup] at h
        obtain ⟨job', hjob, heq⟩ := Checks.map_eq_ok.mp h
        cases heq
        obtain ⟨⟨hscan, hworkspace, -⟩, hsiteId, hzone⟩ := buildJobPayload_eq_ok hjob
        refine ⟨hbound, hscan, hworkspace, hsiteId.trans hsite, hzone.trans ?_⟩
        rw [← hsite, Option.isSome_map]

/-- A row that is worked on leaves the sites as they are. -/
theorem leaseRow_sites {tok : Uuid} {row : Uuid × Scan} :
    (leaseRow cfg worker emergency now tok db row).1.sites = db.sites := by
  unfold leaseRow
  cases rowGate cfg db worker emergency row.2 with
  | error fault => rfl
  | ok site =>
    cases site with
    | none => rfl
    | some site =>
      simp only
      cases db.scans.update row.1 (claimScan now tok) <;> rfl

theorem JobOfBound.of_sites {db' : Db} (hsites : db'.sites = db.sites) {row : Uuid × Scan}
    {job : Job} (h : JobOfBound db' worker emergency row job) :
    JobOfBound db worker emergency row job where
  __ := h
  bound := { h.bound with scannable := hsites ▸ h.bound.scannable }

/-- Every job of the reply was there already or is made of a bound row. -/
theorem leaseRows_bound {maxJobs : ℕ} {rows : List (Uuid × Scan)} {leased jobs : List Job}
    (h : (leaseRows cfg worker emergency now token maxJobs rows leased db).2 = .ok jobs)
    {job : Job} (hjob : job ∈ jobs) :
    job ∈ leased ∨ ∃ row ∈ rows, JobOfBound db worker emergency row job := by
  induction rows generalizing leased db with
  | nil => cases h; exact .inl hjob
  | cons row rows ih =>
    have hsites := @leaseRow_sites cfg db worker emergency now (token row.1) row
    have hrow := @leaseRow_job cfg db worker emergency now (token row.1) row
    rcases hout : leaseRow cfg worker emergency now (token row.1) db row with ⟨db', out⟩
    rw [hout] at hsites hrow
    simp only [leaseRows, hout] at h
    have hlater : (∃ r ∈ rows, JobOfBound db' worker emergency r job) →
        ∃ r ∈ row :: rows, JobOfBound db worker emergency r job := by
      rintro ⟨r, hr, hj⟩
      exact ⟨r, List.mem_cons_of_mem _ hr, hj.of_sites hsites⟩
    rcases out with fault | _ | new
    · cases h
    · exact (ih h).imp id hlater
    · have hnew : job ∈ leased ++ [new] →
          job ∈ leased ∨ ∃ r ∈ row :: rows, JobOfBound db worker emergency r job := by
        intro hmem
        rcases List.mem_append.mp hmem with hmem | hmem
        · exact .inl hmem
        · rw [List.mem_singleton.mp hmem]
          exact .inr ⟨row, List.mem_cons_self, hrow rfl⟩
      simp only at h
      split_ifs at h
      · cases h; exact hnew hjob
      · exact (ih h).elim hnew fun hr => .inr (hlater hr)

theorem leaseJobs_bound {payload : LeaseIn} {order : List Uuid} {jobs : List Job}
    (h : (leaseJobs cfg worker emergency now token payload order db).2 = .ok jobs)
    {job : Job} (hjob : job ∈ jobs) :
    ∃ scan, db.scans job.scanId = some scan ∧
      JobOfBound db worker emergency (job.scanId, scan) job := by
  unfold leaseJobs at h
  cases hw : assertWorkerMayLease worker with
  | error reason => rw [hw] at h; cases h
  | ok u =>
    rw [hw] at h
    rcases leaseRows_bound h hjob with hnil | ⟨row, hrow, hof⟩
    · cases hnil
    · obtain ⟨-, hs, -⟩ := mem_candidates.mp (List.mem_of_mem_take hrow)
      refine ⟨row.2, hof.scanId ▸ hs, ?_⟩
      rw [hof.scanId]
      exact hof

end

/-- **The boundary of a worker.** Whatever the database holds, every request that the gate accepts
and every job that a lease hands out is of a scan of the worker's own site and workspace; a private
one is moreover of an active site that belongs to the workspace of the scan, with the kill switch
off. -/
theorem worker_boundary (cfg : Settings) (db : Db) (worker : ScannerWorker) (emergency : Bool) :
    (∀ scanId scan, authorizeScanForWorker cfg db worker emergency scanId = .ok scan →
      db.scans scanId = some scan ∧ Bound db worker emergency scan) ∧
    ∀ now token payload order jobs,
      (leaseJobs cfg worker emergency now token payload order db).2 = .ok jobs →
        ∀ job ∈ jobs, ∃ scan, db.scans job.scanId = some scan ∧
          JobOfBound db worker emergency (job.scanId, scan) job := by
  constructor
  · intro scanId scan h
    obtain ⟨hs, -, hbound⟩ := authorizeScanForWorker_iff.mp h
    exact ⟨hs, hbound⟩
  · intro now token payload order jobs hjobs job hjob
    exact leaseJobs_bound hjobs hjob

/-! ## Pools -/

/-- The site of the scan, where it is routed to a pool, is routed to the worker's. -/
def PoolMatched (db : Db) (worker : ScannerWorker) (scan : Scan) : Prop :=
  ∀ site row pool, scan.siteUuid = .ok (some site) → db.sites site = some row →
    row.scannerPoolId = some pool → worker.poolId = pool

/-- The worker gets nothing to do with a scan of another pool, by a request or by a lease. -/
def PoolRouted (cfg : Settings) (db : Db) (worker : ScannerWorker) (emergency : Bool) : Prop :=
  (∀ scanId scan, authorizeScanForWorker cfg db worker emergency scanId = .ok scan →
    PoolMatched db worker scan) ∧
  ∀ now token payload order jobs,
    (leaseJobs cfg worker emergency now token payload order db).2 = .ok jobs →
      ∀ job ∈ jobs, ∀ scan, db.scans job.scanId = some scan → PoolMatched db worker scan

/-- A working worker is bound to an active site that is routed to another pool, and a scan of that
site and of its workspace exists. -/
structure ForeignPool (db : Db) (worker : ScannerWorker) (site : Uuid) (row : PrivateSite)
    (pool : String) (scanId : Uuid) (scan : Scan) : Prop where
  active : assertWorkerActive worker = .ok ()
  bound : worker.siteId = some site
  siteRow : db.sites site = some row
  scannable : row.status = .active
  routed : row.scannerPoolId = some pool
  foreign : worker.poolId ≠ pool
  scanRow : db.scans scanId = some scan
  scanSite : scan.siteUuid = .ok (some site)
  siteWorkspace : row.workspaceId = scan.workspaceId
  workspace : ∀ w ∈ worker.workspaceId, w = scan.workspaceId

theorem Bound.foreignPool {db : Db} {worker : ScannerWorker} {scan : Scan} {scanId site : Uuid}
    {row : PrivateSite} {pool : String} (hbound : Bound db worker false scan)
    (hactive : assertWorkerActive worker = .ok ()) (hs : db.scans scanId = some scan)
    (hsite : scan.siteUuid = .ok (some site)) (hrow : db.sites site = some row)
    (hpool : row.scannerPoolId = some pool) (hne : worker.poolId ≠ pool) :
    ForeignPool db worker site row pool scanId scan := by
  have hworker : worker.siteId = some site := Except.ok.inj (hbound.site.symm.trans hsite)
  obtain ⟨-, row', hrow', hws, hstatus⟩ := hbound.scannable site hworker
  cases hrow.symm.trans hrow'
  exact ⟨hactive, hworker, hrow, hstatus, hpool, hne, hs, hsite, hws, hbound.workspace⟩

theorem ForeignPool.bound_of {db : Db} {worker : ScannerWorker} {scan : Scan} {scanId site : Uuid}
    {row : PrivateSite} {pool : String} (h : ForeignPool db worker site row pool scanId scan) :
    Bound db worker false scan where
  site := h.bound ▸ h.scanSite
  workspace := h.workspace
  scannable site' hsite' := by
    rw [h.bound] at hsite'
    cases hsite'
    exact ⟨rfl, row, h.siteRow, h.siteWorkspace, h.scannable⟩

/-- **When the pool of the site is respected**: exactly while private scanning is off, and otherwise
when there is no scan of an active site that the worker is bound to and that is routed to another
pool than the worker's. -/
theorem poolRouted_iff (cfg : Settings) (db : Db) (worker : ScannerWorker) (emergency : Bool) :
    PoolRouted cfg db worker emergency ↔
      (emergency = false → ∀ site row pool scanId scan,
        ¬ ForeignPool db worker site row pool scanId scan) := by
  constructor
  · rintro ⟨hrequests, -⟩ rfl site row pool scanId scan h
    have hok : authorizeScanForWorker cfg db worker false scanId = .ok scan :=
      authorizeScanForWorker_iff.mpr ⟨h.scanRow, h.active, h.bound_of⟩
    exact h.foreign (hrequests scanId scan hok site row pool h.scanSite h.siteRow h.routed)
  · intro hno
    have hmatched : ∀ scanId scan, db.scans scanId = some scan →
        assertWorkerActive worker = .ok () → Bound db worker emergency scan →
        PoolMatched db worker scan := by
      intro scanId scan hs hactive hbound site row pool hsite hrow hpool
      by_contra hne
      have hworker : worker.siteId = some site := Except.ok.inj (hbound.site.symm.trans hsite)
      obtain ⟨rfl, -⟩ := hbound.scannable site hworker
      exact hno rfl site row pool scanId scan
        (hbound.foreignPool hactive hs hsite hrow hpool hne)
    constructor
    · intro scanId scan h
      obtain ⟨hs, hactive, hbound⟩ := authorizeScanForWorker_iff.mp h
      exact hmatched scanId scan hs hactive hbound
    · intro now token payload order jobs hjobs job hjob scan hs
      obtain ⟨scan', hs', hof⟩ := leaseJobs_bound hjobs hjob
      cases hs.symm.trans hs'
      refine hmatched job.scanId scan hs ?_ hof.bound
      cases hw : assertWorkerMayLease worker with
      | error reason => simp [leaseJobs, hw] at hjobs
      | ok u => exact (bind_eq_ok.mp hw).choose_spec.1

/-- The site 8 of the workspace 1 is routed to the pool `vault`; its scan 5 is queued. -/
def vaultSite : Db :=
  { Db.empty with
    sites := .ofList [(8, ⟨1, .active, ["10.1.0.0/16"], [], some "vault"⟩)]
    scans := fun id =>
      if id = 5 then
        some (.created 1 2 3 [("site_id", .str "00000000-0000-0000-0000-000000000008")] 30)
      else none }

/-- A worker of the same site that belongs to the pool `edge`. -/
def edgeWorker : ScannerWorker := ⟨"w", "edge", some 8, some 1, .active, none⟩

/-- **A worker of another pool is served.** The lease hands it the scan, and the gate of its later
requests accepts them. -/
theorem lease_foreignPool :
    (∃ job, (leaseJobs ⟨""⟩ edgeWorker false 50 (fun _ => 7) ⟨1, by decide, by decide⟩ [5]
        vaultSite).2 = .ok [job] ∧ job.scanId = 5 ∧ job.poolId = some "vault") ∧
      ¬ PoolRouted ⟨""⟩ vaultSite edgeWorker false := by
  have hlease : ∃ job, (leaseJobs ⟨""⟩ edgeWorker false 50 (fun _ => 7) ⟨1, by decide, by decide⟩
      [5] vaultSite).2 = .ok [job] ∧ job.scanId = 5 ∧ job.poolId = some "vault" :=
    ⟨_, rfl, rfl, rfl⟩
  refine ⟨hlease, fun h => ?_⟩
  obtain ⟨job, hjobs, hid, -⟩ := hlease
  have hscan : vaultSite.scans job.scanId =
      some (.created 1 2 3 [("site_id", .str "00000000-0000-0000-0000-000000000008")] 30) := by
    rw [hid]
    rfl
  have hpool := h.2 _ _ _ _ [job] hjobs job List.mem_cons_self _ hscan 8 _ "vault" rfl rfl rfl
  exact absurd hpool (by decide)

end ScanPlatform
