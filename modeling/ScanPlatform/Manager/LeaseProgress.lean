import ScanPlatform.Manager.Lease
import ScanPlatform.Scope.Authorization

/-!
# Progress of leasing

The lease query returns a bounded number of candidates, which the gates filter afterwards. A worker
is served when one of these candidates passes the gates and none that the loop reaches raises.

`run_scan` checks the authorization scope of its target again when it starts. The lease does not
read the scopes: what it hands out is authorized exactly when every scan that the gates of the
worker let through happens to be.

* `Scan.served`, `Scan.raises`: what the gates make of a row;
* `WindowServes`: the condition on the rows that the query returns;
* **`lease_progress_iff`**, `lease_starves`: when an eligible scan means a job, and a queue in which
  it does not;
* `AuthorizedLeases`: every job of every lease at time `t` has the scope that it needs at `t`;
* **`lease_authorized_iff`**, `lease_unauthorized`: when that holds, and a history in which a scan
  is handed out after its scope was replaced.
-/

set_option autoImplicit false

namespace ScanPlatform

open Collect

section

variable (cfg : Settings) (db : Db) (worker : ScannerWorker) (privateDisabled : Bool)

/-- A leasable scan that passes every check which the endpoint makes of its row. -/
def Scan.eligible (s : Scan) : Prop :=
  s.leasable = true ∧ ∃ site, rowGate cfg db worker privateDisabled s = .ok (some site)

/-- The row passes the gates, and its modules can be listed in a job. -/
def Scan.served (s : Scan) : Bool :=
  match rowGate cfg db worker privateDisabled s, s.requestedModules with
  | .ok (some _), .ok _ => true
  | _, _ => false

/-- The row makes the request fail: its `site_id` is not a UUID, its `required_egress_mode` is not
a text, or it passes the gates and its modules cannot be listed. -/
def Scan.raises (s : Scan) : Bool :=
  match rowGate cfg db worker privateDisabled s, s.requestedModules with
  | .error _, _ => true
  | .ok (some _), .error _ => true
  | .ok _, _ => false

/-- One of the rows that the query returns is served, and a row that makes the request fail comes
only after `max_jobs` of them. -/
def WindowServes (payload : LeaseIn) (order : List Uuid) : Prop :=
  (∃ row ∈ selectLeasable db worker payload order,
    row.2.served cfg db worker privateDisabled = true) ∧
  ∀ pre row post, selectLeasable db worker payload order = pre ++ row :: post →
    row.2.raises cfg db worker privateDisabled = true →
    payload.maxJobs ≤ pre.countP fun r => r.2.served cfg db worker privateDisabled

variable {cfg db worker privateDisabled}

/-- The gates read the egress mode before they let a row through. -/
theorem requiredScanEgressMode_of_rowGate {s : Scan} {site : Option (Uuid × PrivateSite)}
    (h : rowGate cfg db worker privateDisabled s = .ok (some site)) :
    ∃ mode, requiredScanEgressMode s = .ok mode := by
  cases hmode : requiredScanEgressMode s with
  | ok mode => exact ⟨mode, rfl⟩
  | error fault =>
    unfold rowGate at h
    cases hsite : s.siteUuid with
    | error f => rw [hsite] at h; cases h
    | ok u =>
      rw [hsite, hmode] at h
      simp only [bind, Except.bind, pure, Except.pure] at h
      split_ifs at h
      cases h

theorem rowOutcome_of_gate (token : Uuid → Uuid) {row : Uuid × Scan}
    {site : Option (Uuid × PrivateSite)}
    (h : rowGate cfg db worker privateDisabled row.2 = .ok (some site)) :
    (∀ ms, row.2.requestedModules = .ok ms →
      ∃ job, rowOutcome cfg worker privateDisabled token db row = .ok (some job)) ∧
    (∀ f, row.2.requestedModules = .error f →
      rowOutcome cfg worker privateDisabled token db row = .error f) := by
  obtain ⟨mode, hmode⟩ := requiredScanEgressMode_of_rowGate h
  simp only [rowOutcome, h, buildJobPayload]
  constructor
  · intro ms hms
    simp only [hms, hmode]
    exact ⟨_, rfl⟩
  · intro f hf
    simp only [hf]
    rfl

theorem yields_rowOutcome (token : Uuid → Uuid) (row : Uuid × Scan) :
    yields (rowOutcome cfg worker privateDisabled token db row) =
      row.2.served cfg db worker privateDisabled := by
  unfold Scan.served
  cases h : rowGate cfg db worker privateDisabled row.2 with
  | error f => simp [rowOutcome, h, yields]
  | ok site =>
    cases site with
    | none => simp [rowOutcome, h, yields]
    | some site =>
      obtain ⟨hok, herr⟩ := rowOutcome_of_gate token h
      cases hms : row.2.requestedModules with
      | ok ms => obtain ⟨job, hjob⟩ := hok ms hms; rw [hjob]; rfl
      | error f => rw [herr f hms]; rfl

theorem rowOutcome_error_iff (token : Uuid → Uuid) (row : Uuid × Scan) :
    (∃ f, rowOutcome cfg worker privateDisabled token db row = .error f) ↔
      row.2.raises cfg db worker privateDisabled = true := by
  unfold Scan.raises
  cases h : rowGate cfg db worker privateDisabled row.2 with
  | error f => simp [rowOutcome, h]
  | ok site =>
    cases site with
    | none => simp [rowOutcome, h]
    | some site =>
      obtain ⟨hok, herr⟩ := rowOutcome_of_gate token h
      cases hms : row.2.requestedModules with
      | ok ms => obtain ⟨job, hjob⟩ := hok ms hms; simp [hjob]
      | error f => simp [herr f hms]

theorem errorsAfterQuota_rows (token : Uuid → Uuid) (n : ℕ) (rows : List (Uuid × Scan)) :
    ErrorsAfterQuota n (rows.map (rowOutcome cfg worker privateDisabled token db)) 0 ↔
      ∀ pre row post, rows = pre ++ row :: post →
        row.2.raises cfg db worker privateDisabled = true →
        n ≤ pre.countP fun r => r.2.served cfg db worker privateDisabled := by
  have hcount : ∀ pre : List (Uuid × Scan),
      (pre.map (rowOutcome cfg worker privateDisabled token db)).countP yields =
        pre.countP fun r => r.2.served cfg db worker privateDisabled := by
    intro pre
    rw [List.countP_map]
    exact List.countP_congr fun r _ => by simp [yields_rowOutcome]
  constructor
  · intro h pre row post hrows hraise
    obtain ⟨f, hf⟩ := (rowOutcome_error_iff token row).mpr hraise
    have hle := h (pre.map _) f (post.map (rowOutcome cfg worker privateDisabled token db))
      (by rw [hrows, List.map_append, List.map_cons, hf])
    rwa [hcount, Nat.zero_add] at hle
  · intro h pre f post hos
    obtain ⟨l₁, l₂, rfl, rfl, hl₂⟩ := List.map_eq_append_iff.mp hos
    obtain ⟨row, l₃, rfl, hf, rfl⟩ := List.map_eq_cons_iff.mp hl₂
    rw [hcount, Nat.zero_add]
    exact h l₁ row l₃ rfl ((rowOutcome_error_iff token row).mp ⟨f, hf⟩)

/-- **When a lease makes progress.** For an active worker with nobody else claiming: that some
eligible scan exists implies that a job is handed out exactly when it implies that one of the rows
which the query returns is served and no row that the loop reaches raises. -/
theorem lease_progress_iff (hactive : worker.status = .active) (hrevoked : worker.revokedAt = none)
    (now : ℤ) (token : Uuid → Uuid) (payload : LeaseIn) {order : List Uuid}
    (horder : order.Nodup) :
    ((∃ id, ∃ s ∈ db.scans id, s.eligible cfg db worker privateDisabled) →
      ∃ jobs, (leaseJobs cfg worker privateDisabled now token payload order db).2 = .ok jobs ∧
        jobs ≠ []) ↔
    ((∃ id, ∃ s ∈ db.scans id, s.eligible cfg db worker privateDisabled) →
      WindowServes cfg db worker privateDisabled payload order) := by
  have hw : assertWorkerMayLease worker = .ok () := by
    simp [assertWorkerMayLease, assertWorkerActive, hactive, hrevoked, bind, Except.bind, pure,
      Except.pure]
  have hn : ([] : List Job).length < payload.maxJobs := payload.ge
  rw [leaseJobs_eq cfg worker privateDisabled now token horder payload db hw,
    collect_nonempty_iff hn]
  refine imp_congr Iff.rfl (and_congr ?_ ?_)
  · simp only [ne_eq, not_true_eq_false, false_or, List.mem_map]
    constructor
    · rintro ⟨job, row, hrow, hout⟩
      exact ⟨row, hrow, by rw [← yields_rowOutcome token, hout]; rfl⟩
    · rintro ⟨row, hrow, hserved⟩
      rw [← yields_rowOutcome token] at hserved
      match hout : rowOutcome cfg worker privateDisabled token db row with
      | .ok (some job) => exact ⟨job, row, hrow, hout⟩
      | .ok none | .error f => rw [hout] at hserved; cases hserved
  · exact errorsAfterQuota_rows token payload.maxJobs _

end

/-- One queued public scan is handed out. -/
theorem lease_progress_iff_single :
    ∃ jobs, (leaseJobs ⟨""⟩ ⟨"w", "public", none, none, .active, none⟩ false 0 (fun _ => 7)
      ⟨1, by decide, by decide⟩ [5]
      { Db.empty with scans := .ofList [(5, .created 1 2 3 [] 0)] }).2 = .ok jobs ∧ jobs ≠ [] := by
  refine (lease_progress_iff rfl rfl 0 _ _ (List.nodup_singleton 5)).mpr (fun _ => ⟨?_, ?_⟩)
    ⟨5, _, rfl, rfl, none, rfl⟩
  · exact ⟨(5, .created 1 2 3 [] 0), List.mem_singleton.mpr rfl, rfl⟩
  · intro pre row post hrows hraise
    have hrow : row ∈ [((5 : Uuid), Scan.created 1 2 3 [] 0)] := by
      have hmem : row ∈ pre ++ row :: post := by simp
      rwa [← hrows] at hmem
    rw [List.mem_singleton.mp hrow] at hraise
    cases hraise

/-- Four queued private scans, and a public one. -/
def starvedQueue : Db :=
  { Db.empty with
    scans := fun id =>
      if id = 5 then some (.created 1 2 3 [] 0)
      else if id.toNat < 5 then
        some (.created 1 2 3 [("site_id", .str "00000000-0000-0000-0000-000000000009")] 0)
      else none }

/-- **A lease starves.** Four private scans fill the query of a public worker; the public scan
behind them is eligible and is not handed out. -/
theorem lease_starves :
    (∃ id, ∃ s ∈ starvedQueue.scans id, s.eligible ⟨""⟩ starvedQueue
      ⟨"w", "public", none, none, .active, none⟩ false) ∧
    (leaseJobs ⟨""⟩ ⟨"w", "public", none, none, .active, none⟩ false 0 (fun _ => 7)
      ⟨1, by decide, by decide⟩ [1, 2, 3, 4, 5] starvedQueue).2.toOption.map List.length =
        some 0 := by
  refine ⟨⟨5, _, rfl, rfl, none, rfl⟩, ?_⟩
  decide

end ScanPlatform

/-! ## Authorization at the time of a lease -/

namespace ScanPlatform

open Collect

section

variable (cfg : Settings) (worker : ScannerWorker) (privateDisabled : Bool) (t : ℤ)
  (token : Uuid → Uuid)

/-- Whatever the size of a lease at time `t` and the order in which the database returns its rows,
the scope of every target that is handed out allows the modules of the job. -/
def AuthorizedLeases (db : Db) : Prop :=
  ∀ (payload : LeaseIn) (order : List Uuid), order.Nodup →
    (∀ id, (db.scans id).isSome → id ∈ order) →
    ∀ jobs, (leaseJobs cfg worker privateDisabled t token payload order db).2 = .ok jobs →
      ∀ job ∈ jobs, ScopeAllows db t job.targetId job.requestedModules

variable {cfg worker privateDisabled t token}

/-- What a job that is handed out says about its scan. -/
theorem rowOutcome_job {db : Db} {row : Uuid × Scan} {job : Job}
    (h : rowOutcome cfg worker privateDisabled token db row = .ok (some job)) :
    job.scanId = row.1 ∧ job.targetId = row.2.targetId ∧
      row.2.requestedModules = .ok job.requestedModules := by
  obtain ⟨site, -, hjob⟩ := (rowOutcome_eq_some ..).mp h
  obtain ⟨⟨hscan, -, htarget, hmodules⟩, -⟩ := buildJobPayload_eq_ok hjob
  exact ⟨hscan, htarget, hmodules⟩

variable (token) in
theorem rowOutcome_of_served {db : Db} {row : Uuid × Scan}
    (h : row.2.served cfg db worker privateDisabled = true) :
    ∃ job, rowOutcome cfg worker privateDisabled token db row = .ok (some job) := by
  rw [← yields_rowOutcome token] at h
  match hout : rowOutcome cfg worker privateDisabled token db row with
  | .ok (some job) => exact ⟨job, rfl⟩
  | .ok none | .error f => rw [hout] at h; cases h

/-- The query returns a candidate that the database lists first. -/
theorem selectLeasable_first {db : Db} {id : Uuid} {s : Scan} (hs : db.scans id = some s)
    (hc : s.candidate worker = true) (payload : LeaseIn) (rest : List Uuid) :
    ∃ rows, selectLeasable db worker payload (id :: rest) = (id, s) :: rows := by
  have hlimit : 0 < leaseLimit worker payload := by
    have := payload.ge
    unfold leaseLimit
    split <;> omega
  obtain ⟨n, hn⟩ := Nat.exists_eq_succ_of_ne_zero hlimit.ne'
  have hcand : candidates db worker (id :: rest) = (id, s) :: candidates db worker rest := by
    simp [candidates, hs, hc]
  exact ⟨(candidates db worker rest).take n, by rw [selectLeasable, hcand, hn, List.take_succ_cons]⟩

/-- **When every lease is authorized.** After every history of submissions and verifications and at
every time `t`, whatever a worker that may lease is handed at `t` has the scope it needs at `t` if
and only if every candidate that its gates let through does. -/
theorem lease_authorized_iff (db₀ : Db) (ops : List ScopeOp) :
    AuthorizedLeases cfg worker privateDisabled t token (scopeHistory db₀ ops) ↔
      (assertWorkerMayLease worker = .ok () →
        ∀ id, ∀ s ∈ (scopeHistory db₀ ops).scans id, s.candidate worker = true →
          s.served cfg (scopeHistory db₀ ops) worker privateDisabled = true →
          ∀ modules, s.requestedModules = .ok modules →
            ScopeAllows (scopeHistory db₀ ops) t s.targetId modules) := by
  generalize scopeHistory db₀ ops = db
  constructor
  · intro hall hw id s hs hc hserved modules hms
    obtain ⟨rest, hnodup, hmem⟩ := Uuid.exists_order id
    let payload : LeaseIn := ⟨1, le_rfl, by decide⟩
    obtain ⟨rows, hsel⟩ := selectLeasable_first hs hc payload rest
    obtain ⟨job, hjob⟩ := @rowOutcome_of_served cfg worker privateDisabled token db (id, s) hserved
    have hlease : (leaseJobs cfg worker privateDisabled t token payload (id :: rest) db).2 =
        .ok [job] := by
      rw [leaseJobs_eq cfg worker privateDisabled t token hnodup payload db hw, hsel,
        List.map_cons, hjob]
      rfl
    have hallowed := hall payload (id :: rest) hnodup (fun j _ => hmem j) [job] hlease job
      List.mem_cons_self
    obtain ⟨-, htarget, hmods⟩ := rowOutcome_job hjob
    rw [htarget] at hallowed
    cases hms.symm.trans hmods
    exact hallowed
  · intro hrows payload order horder _ jobs hjobs job hjob
    cases hw : assertWorkerMayLease worker with
    | error reason => simp [leaseJobs, hw] at hjobs
    | ok u =>
      rw [leaseJobs_eq cfg worker privateDisabled t token horder payload db hw] at hjobs
      rcases mem_of_collect hjobs hjob with hnil | hout
      · cases hnil
      · obtain ⟨⟨id, s⟩, hrow, hout⟩ := List.mem_map.mp hout
        obtain ⟨-, hs, hc⟩ := mem_candidates.mp (List.mem_of_mem_take hrow)
        obtain ⟨-, htarget, hmods⟩ := rowOutcome_job hout
        rw [htarget]
        refine hrows hw id s hs hc ?_ _ hmods
        rw [← yields_rowOutcome token (id, s), hout]
        rfl

end

/-- A queued `nuclei` scan of the target 3. -/
def queuedScan : Db :=
  { Db.empty with
    projects := .ofList [(2, ⟨1⟩)]
    targets := .ofList [(3, ⟨2, "domain", "example.com", "medium"⟩)]
    scans := fun id =>
      if id = 5 then some (.created 1 2 3 [("requested_modules", .arr [.str "nuclei"])] 30)
      else none }

/-- The scope is submitted, verified for active testing and, at 40, submitted again. -/
def replacedScope : List ScopeOp :=
  [.submit 10 11 1 2 3 "dns" "txt" none none, .verify 20 1 2 3 9 true none none,
    .submit 40 12 1 2 3 "dns" "txt" none none]

/-- **A scan is handed out without authorization.** Its scope allowed it when the scan was created
at 30, and is replaced by an unverified one before the lease at 50. -/
theorem lease_unauthorized :
    ScopeAllows (scopeHistory queuedScan (replacedScope.take 2)) 30 3 [.str "nuclei"] ∧
    ¬ AuthorizedLeases ⟨""⟩ ⟨"w", "public", none, none, .active, none⟩ false 50 (fun _ => 7)
      (scopeHistory queuedScan replacedScope) := by
  constructor
  · refine ⟨_, rfl, rfl, ?_, fun _ _ _ => rfl⟩
    intro e he
    change e ∈ (none : Option ℤ) at he
    cases he
  · intro h
    have hlease : ∃ job, (leaseJobs ⟨""⟩ ⟨"w", "public", none, none, .active, none⟩ false 50
        (fun _ => 7) ⟨1, by decide, by decide⟩ [5] (scopeHistory queuedScan replacedScope)).2 =
          .ok [job] ∧ job.targetId = 3 := ⟨_, rfl, rfl⟩
    obtain ⟨job, hjob, htarget⟩ := hlease
    have hallowed := h _ [5] (List.nodup_singleton 5) ?_ [job] hjob job List.mem_cons_self
    · obtain ⟨scope, hcur, hverified, -⟩ := hallowed
      have hnewest : ((scopeHistory queuedScan replacedScope).currentScope 3).map (·.verified) =
          some false := by decide
      rw [htarget] at hcur
      rw [hcur, Option.map_some, hverified] at hnewest
      cases hnewest
    · intro id hid
      by_contra hne
      have hid5 : id ≠ 5 := fun he => hne (by rw [he]; exact List.mem_cons_self)
      have hnone : (scopeHistory queuedScan replacedScope).scans id = none := if_neg hid5
      rw [hnone] at hid
      cases hid

end ScanPlatform
