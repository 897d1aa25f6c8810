import ScanPlatform.Manager.LeaseProgress

/-!
# What a lease hands over

The claims of a lease are committed one by one, and a row that raises ends the request with an
error. A job is handed over for every claim exactly when no claim comes before such a row, and none
is made of the row itself.

* `Scan.passes`, `reached`: the rows that are claimed, and those that the loop looks at;
* `HandsOver`: what the reply has to say about the scans that are running afterwards;
* `LeaseClaims`, `leaseRow_claims`, `leaseRows_claims`: the claims of a lease;
* **`hands_over_iff`**: when the reply says so; `claims_lost` has two rows of which it does not.
-/

set_option autoImplicit false

namespace ScanPlatform

section

variable (cfg : Settings) (db : Db) (worker : ScannerWorker) (privateDisabled : Bool)

/-- The row passes the gates, and is claimed. -/
def Scan.passes (s : Scan) : Bool :=
  match rowGate cfg db worker privateDisabled s with
  | .ok (some _) => true
  | .ok none | .error _ => false

/-- The rows that the loop looks at when it has `k` jobs already: until one of them raises, or there
are `n` jobs. -/
def reached (n : ℕ) : List (Uuid × Scan) → ℕ → List (Uuid × Scan)
  | [], _ => []
  | row :: rows, k =>
    if row.2.raises cfg db worker privateDisabled then [row]
    else if row.2.served cfg db worker privateDisabled then
      if n ≤ k + 1 then [row] else row :: reached n rows (k + 1)
    else row :: reached n rows k

end

/-- The scan is running, and was not before. -/
def MovedToRunning (db db' : Db) (id : Uuid) : Prop :=
  (db'.scans id).any (·.status = .running) ∧ ¬ (db.scans id).any (·.status = .running)

/-- A reply has a job for every scan that has been moved to running, and for no other one, with its
token; an error has moved none. -/
def HandsOver (db : Db) (reply : Db × Except Fault (List Job)) : Prop :=
  match reply.2 with
  | .ok jobs =>
    (jobs.map (·.scanId)).Nodup ∧
    (∀ id, MovedToRunning db reply.1 id ↔ ∃ job ∈ jobs, job.scanId = id) ∧
      ∀ job ∈ jobs, (reply.1.scans job.scanId).bind (·.executionToken) = some job.executionToken
  | .error _ => ∀ id, ¬ MovedToRunning db reply.1 id

/-! ## The claims of a lease -/

section

variable (now : ℤ) (token : Uuid → Uuid)

/-- These rows are claimed, and the other ones are as they were. -/
structure LeaseClaims (db db' : Db) (rows : List (Uuid × Scan)) : Prop where
  claimed : ∀ row ∈ rows, db'.scans row.1 = claimScan now (token row.1) row.2
  others : ∀ id, id ∉ rows.map Prod.fst → db'.scans id = db.scans id

variable {cfg : Settings} {worker : ScannerWorker} {privateDisabled : Bool}

theorem rowOutcome_job_eq {db : Db} {row : Uuid × Scan} {job : Job}
    (h : rowOutcome cfg worker privateDisabled token db row = .ok (some job)) :
    (job.scanId, job.executionToken) = (row.1, token row.1) ∧
      row.2.passes cfg db worker privateDisabled = true := by
  obtain ⟨site, hgate, hjob⟩ := (rowOutcome_eq_some ..).mp h
  obtain ⟨modules, -, hjob⟩ := Checks.bind_eq_ok.mp hjob
  obtain ⟨mode, -, hjob⟩ := Checks.bind_eq_ok.mp hjob
  cases hjob
  refine ⟨rfl, ?_⟩
  unfold Scan.passes
  rw [hgate]

theorem rowOutcome_none {db : Db} {row : Uuid × Scan}
    (h : rowOutcome cfg worker privateDisabled token db row = .ok none) :
    row.2.passes cfg db worker privateDisabled = false := by
  unfold Scan.passes
  rw [(rowOutcome_eq_none ..).mp h]

/-- **A row is claimed** exactly when it passes the gates, whatever becomes of its job. -/
theorem leaseRow_claims {db : Db} {row : Uuid × Scan} (hs : db.scans row.1 = some row.2)
    (hl : row.2.leasable = true) :
    LeaseClaims now token db (leaseRow cfg worker privateDisabled now (token row.1) db row).1
      (if row.2.passes cfg db worker privateDisabled then [row] else []) := by
  have hquiet : LeaseClaims now token db db [] := ⟨by simp, fun _ _ => rfl⟩
  unfold leaseRow Scan.passes
  cases rowGate cfg db worker privateDisabled row.2 with
  | error fault => exact hquiet
  | ok site =>
    cases site with
    | none => exact hquiet
    | some site =>
      obtain ⟨s', hs', hup⟩ := leasable_update now token hs hl
      simp only [hup, if_true]
      refine ⟨fun r hr => ?_, fun id hid => ?_⟩
      · obtain rfl := List.mem_singleton.mp hr
        exact (Table.set_self ..).trans hs'.symm
      · exact Table.set_of_ne _ _ (by simpa using hid)

theorem LeaseClaims.trans {db db' db'' : Db} {rows rows' : List (Uuid × Scan)}
    (h : LeaseClaims now token db db' rows) (h' : LeaseClaims now token db' db'' rows')
    (hdisjoint : ∀ row ∈ rows, row.1 ∉ rows'.map Prod.fst) :
    LeaseClaims now token db db'' (rows ++ rows') := by
  refine ⟨fun row hrow => ?_, fun id hid => ?_⟩
  · rcases List.mem_append.mp hrow with hrow | hrow
    · rw [h'.others _ (hdisjoint row hrow), h.claimed row hrow]
    · exact h'.claimed row hrow
  · rw [List.map_append, List.mem_append, not_or] at hid
    rw [h'.others id hid.2, h.others id hid.1]

/-- The rows that the loop looks at are the first ones. -/
theorem reached_initial (db : Db) (n : ℕ) (rows : List (Uuid × Scan)) (k : ℕ) :
    reached cfg db worker privateDisabled n rows k <+: rows := by
  induction rows generalizing k with
  | nil => exact List.prefix_refl _
  | cons row rows ih =>
    have hcons : ∀ k, row :: reached cfg db worker privateDisabled n rows k <+: row :: rows :=
      fun k => (List.cons_prefix_cons).mpr ⟨rfl, ih k⟩
    unfold reached
    split_ifs
    · exact ⟨rows, rfl⟩
    · exact ⟨rows, rfl⟩
    · exact hcons _
    · exact hcons _

/-- The gates do not look at the rows of other scans. -/
theorem reached_scans (db : Db) (scans : Table Uuid Scan) (n : ℕ) (rows : List (Uuid × Scan))
    (k : ℕ) :
    reached cfg { db with scans } worker privateDisabled n rows k =
      reached cfg db worker privateDisabled n rows k := by
  have hraises : ∀ s : Scan, s.raises cfg { db with scans } worker privateDisabled =
      s.raises cfg db worker privateDisabled := fun _ => rfl
  have hserved : ∀ s : Scan, s.served cfg { db with scans } worker privateDisabled =
      s.served cfg db worker privateDisabled := fun _ => rfl
  induction rows generalizing k with
  | nil => rfl
  | cons row rows ih => simp only [reached, ih, hraises, hserved]

/-- What is said of the claims and the jobs of the rows that the loop looks at. -/
structure Leases (db : Db) (looked : List (Uuid × Scan)) (leased : List Job)
    (reply : Db × Except Fault (List Job)) : Prop where
  claims : LeaseClaims now token db reply.1
    (looked.filter fun row => row.2.passes cfg db worker privateDisabled)
  raised : (∃ fault, reply.2 = .error fault) ↔
    ∃ row ∈ looked, row.2.raises cfg db worker privateDisabled = true
  jobs : ∀ jobs, reply.2 = .ok jobs → ∃ new, jobs = leased ++ new ∧
    new.map (fun job => (job.scanId, job.executionToken)) =
      (looked.filter fun row => row.2.passes cfg db worker privateDisabled).map
        fun row => (row.1, token row.1)

/-- A row that does not raise comes before the others, with the job that it may have given. -/
theorem Leases.cons {db : Db} {scans : Table Uuid Scan} {row : Uuid × Scan}
    {looked : List (Uuid × Scan)} {leased : List Job} (new : List Job)
    {reply : Db × Except Fault (List Job)}
    (h : @Leases now token cfg worker privateDisabled { db with scans } looked (leased ++ new)
      reply)
    (hclaims : LeaseClaims now token db { db with scans }
      (if row.2.passes cfg db worker privateDisabled then [row] else []))
    (hnew : new.map (fun job => (job.scanId, job.executionToken)) =
      if row.2.passes cfg db worker privateDisabled then [(row.1, token row.1)] else [])
    (hraises : ¬ row.2.raises cfg db worker privateDisabled = true)
    (hkeys : row.1 ∉ looked.map Prod.fst) :
    @Leases now token cfg worker privateDisabled db (row :: looked) leased reply := by
  have hfilter : (row :: looked).filter (fun row => row.2.passes cfg db worker privateDisabled) =
      (if row.2.passes cfg db worker privateDisabled then [row] else []) ++
        looked.filter fun row => row.2.passes cfg db worker privateDisabled := by
    rw [List.filter_cons]
    split_ifs <;> rfl
  refine ⟨?_, ?_, fun jobs hjobs => ?_⟩
  · rw [hfilter]
    refine hclaims.trans now token h.claims fun r hr hmem => hkeys ?_
    have hrow : r = row := by
      split_ifs at hr
      · exact List.mem_singleton.mp hr
      · cases hr
    rw [← hrow]
    exact List.map_subset _ (List.filter_subset_self _) hmem
  · rw [h.raised, List.exists_mem_cons_iff]
    exact (or_iff_right hraises).symm
  · obtain ⟨rest, hjobs, hrest⟩ := h.jobs jobs hjobs
    refine ⟨new ++ rest, by rw [hjobs, List.append_assoc], ?_⟩
    rw [List.map_append, hfilter, List.map_append, hnew, hrest]
    congr 1
    split_ifs <;> rfl

/-- **The claims of a lease** are those of the rows that the loop looks at and that pass the gates.
It raises when one of these rows does, and otherwise has a job for each of the claims. -/
theorem leaseRows_claims (n : ℕ) {db : Db} {rows : List (Uuid × Scan)} (h : FreshRows db rows)
    (leased : List Job) :
    @Leases now token cfg worker privateDisabled db
      (reached cfg db worker privateDisabled n rows leased.length) leased
      (leaseRows cfg worker privateDisabled now token n rows leased db) := by
  induction rows generalizing leased db with
  | nil => exact ⟨⟨by simp [reached], fun _ _ => rfl⟩, by simp [reached, leaseRows],
      fun jobs hjobs => ⟨[], by cases hjobs; simp, rfl⟩⟩
  | cons row rows ih =>
    obtain ⟨hs, hl⟩ := h.current row List.mem_cons_self
    obtain ⟨hout, scans, hdb, hscans⟩ :=
      leaseRow_fresh cfg worker privateDisabled now token hs hl
    have hclaims := @leaseRow_claims now token cfg worker privateDisabled db row hs hl
    have hkeys := h.keys
    rw [List.map_cons, List.nodup_cons] at hkeys
    have hrest := h.tail hscans
    rcases hrow : leaseRow cfg worker privateDisabled now (token row.1) db row with ⟨db', out⟩
    rw [hrow] at hdb hout hclaims
    cases hdb
    have hraises := @rowOutcome_error_iff cfg db worker privateDisabled token row
    have hserved := @yields_rowOutcome cfg db worker privateDisabled token row
    have hnotin : ∀ k, row.1 ∉
        (reached cfg { db with scans } worker privateDisabled n rows k).map Prod.fst :=
      fun k hmem => hkeys.1 (((reached_initial _ n rows k).map _).subset hmem)
    unfold leaseRows reached
    rw [hrow]
    rcases out with fault | (_ | job)
    · have hraise := hraises.mp ⟨fault, hout.symm⟩
      dsimp only
      rw [if_pos hraise]
      refine ⟨?_, ?_, fun jobs hjobs => by cases hjobs⟩
      · rw [List.filter_cons, List.filter_nil]
        exact hclaims
      · exact iff_of_true ⟨fault, rfl⟩ ⟨row, List.mem_cons_self, hraise⟩
    · have hraise : ¬ row.2.raises cfg db worker privateDisabled = true :=
        fun h => by obtain ⟨f, hf⟩ := hraises.mpr h; cases hout.trans hf
      have hserve : ¬ row.2.served cfg db worker privateDisabled = true := by
        rw [← hserved, ← hout]
        exact Bool.false_ne_true
      have hpass := rowOutcome_none token hout.symm
      dsimp only
      rw [if_neg hraise, if_neg hserve, ← reached_scans db scans]
      refine Leases.cons now token [] ?_ hclaims (by simp [hpass]) hraise (hnotin _)
      rw [List.append_nil]
      exact ih hrest leased
    · have hraise : ¬ row.2.raises cfg db worker privateDisabled = true :=
        fun h => by obtain ⟨f, hf⟩ := hraises.mpr h; cases hout.trans hf
      have hserve : row.2.served cfg db worker privateDisabled = true := by
        rw [← hserved, ← hout]
        rfl
      obtain ⟨hjob, hpass⟩ := rowOutcome_job_eq token hout.symm
      have hlength : (leased ++ [job]).length = leased.length + 1 := by simp
      dsimp only
      rw [if_neg hraise, if_pos hserve, hlength]
      split_ifs with hfull
      · refine Leases.cons now token [job] ?_ hclaims (by simp [hpass, hjob]) hraise
          (by simp)
        refine ⟨⟨by simp, fun _ _ => rfl⟩, by simp, fun jobs hjobs => ⟨[], ?_, rfl⟩⟩
        cases hjobs
        simp
      · rw [← reached_scans db scans, ← hlength]
        refine Leases.cons now token [job] (ih hrest _) hclaims ?_ hraise (hnotin _)
        simp [hpass, hjob]

/-- The scans that are moved to running are those that are claimed. -/
theorem movedToRunning_iff {db db' : Db} {rows claimed : List (Uuid × Scan)}
    (h : FreshRows db rows) (hclaimed : claimed ⊆ rows) (hdb : LeaseClaims now token db db' claimed)
    (id : Uuid) : MovedToRunning db db' id ↔ id ∈ claimed.map Prod.fst := by
  constructor
  · rintro ⟨hafter, hbefore⟩
    by_contra hid
    rw [hdb.others id hid] at hafter
    exact hbefore hafter
  · intro hid
    obtain ⟨row, hrow, rfl⟩ := List.mem_map.mp hid
    obtain ⟨hs, hl⟩ := h.current row (hclaimed hrow)
    obtain ⟨s', hs'⟩ := leasable_claim now hl (token row.1)
    unfold MovedToRunning
    rw [hdb.claimed row hrow, hs, hs']
    have hrunning : s'.status = .running := by
      unfold claimScan at hs'
      split_ifs at hs'
      exact Option.some.inj hs' ▸ rfl
    refine ⟨by simpa using hrunning, fun hnot => ?_⟩
    simp only [Option.any_some, decide_eq_true_eq] at hnot
    simp [Scan.leasable, hnot] at hl

end

/-! ## When a lease hands over what it claims -/

/-- If a row that the loop looks at raises, then no row that it looks at passes the gates. -/
def NoClaimLost (cfg : Settings) (db : Db) (worker : ScannerWorker) (privateDisabled : Bool)
    (payload : LeaseIn) (order : List Uuid) : Prop :=
  let looked := reached cfg db worker privateDisabled payload.maxJobs
    (selectLeasable db worker payload order) 0
  (∃ row ∈ looked, row.2.raises cfg db worker privateDisabled = true) →
    ∀ row ∈ looked, row.2.passes cfg db worker privateDisabled = false

/-- **A lease hands over what it claims**, and moves nothing when it ends in an error, exactly when
no claim comes before a row that raises. -/
theorem hands_over_iff (cfg : Settings) (worker : ScannerWorker) (privateDisabled : Bool) (now : ℤ)
    (token : Uuid → Uuid) (payload : LeaseIn) {order : List Uuid} (horder : order.Nodup) (db : Db) :
    HandsOver db (leaseJobs cfg worker privateDisabled now token payload order db) ↔
      (assertWorkerMayLease worker = .ok () →
        NoClaimLost cfg db worker privateDisabled payload order) := by
  unfold leaseJobs NoClaimLost
  cases hw : assertWorkerMayLease worker with
  | error reason => exact iff_of_true (fun id h => h.2 h.1) (fun h => by cases h)
  | ok u =>
    have hfresh := @freshRows_select db worker order horder payload
    have hleases := @leaseRows_claims now token cfg worker privateDisabled payload.maxJobs db _
      hfresh []
    have hinitial := @reached_initial cfg worker privateDisabled db payload.maxJobs
      (selectLeasable db worker payload order) 0
    dsimp only [List.length_nil] at hleases
    generalize reached cfg db worker privateDisabled payload.maxJobs
      (selectLeasable db worker payload order) 0 = looked at hleases hinitial ⊢
    dsimp only
    generalize leaseRows cfg worker privateDisabled now token payload.maxJobs
      (selectLeasable db worker payload order) [] db = result at hleases ⊢
    obtain ⟨db', reply⟩ := result
    obtain ⟨hclaims, hraised, hjobs⟩ := hleases
    have hmoved := movedToRunning_iff now token hfresh
      (fun row hrow => hinitial.subset (List.mem_of_mem_filter hrow)) hclaims
    cases reply with
    | ok jobs =>
      obtain ⟨new, rfl, hpairs⟩ := hjobs jobs rfl
      have hids : jobs.map (·.scanId) =
          (looked.filter fun row => row.2.passes cfg db worker privateDisabled).map Prod.fst := by
        have hfst := congrArg (List.map Prod.fst) hpairs
        rwa [List.map_map, List.map_map] at hfst
      refine iff_of_true ⟨?_, fun id => ?_, fun job hjob => ?_⟩ fun _ hraise => ?_
      · rw [hids]
        exact hfresh.keys.sublist
          ((List.filter_sublist.trans hinitial.sublist).map _)
      · rw [hmoved, ← hids, List.mem_map]
      · have hpair := List.mem_map_of_mem (f := fun job : Job => (job.scanId, job.executionToken))
          hjob
        rw [hpairs] at hpair
        obtain ⟨row, hrow, heq⟩ := List.mem_map.mp hpair
        obtain ⟨hid, htoken⟩ := Prod.ext_iff.mp heq
        dsimp only at hid htoken ⊢
        rw [← hid, ← htoken, hclaims.claimed row hrow]
        obtain ⟨s', hs'⟩ := leasable_claim now
          (hfresh.current row (hinitial.subset (List.mem_of_mem_filter hrow))).2 (token row.1)
        rw [hs', Option.bind_some]
        unfold claimScan at hs'
        split_ifs at hs'
        exact Option.some.inj hs' ▸ rfl
      · obtain ⟨fault, hfault⟩ := hraised.mpr hraise
        cases hfault
    | error fault =>
      have hraise := hraised.mp ⟨fault, rfl⟩
      constructor
      · intro h _ _ row hrow
        by_contra hpass
        refine h row.1 ((hmoved row.1).mpr (List.mem_map_of_mem (List.mem_filter.mpr ⟨hrow, ?_⟩)))
        simpa using hpass
      · intro h id hid
        obtain ⟨row, hrow, -⟩ := List.mem_map.mp ((hmoved id).mp hid)
        obtain ⟨hlooked, hpass⟩ := List.mem_filter.mp hrow
        rw [h rfl hraise row hlooked] at hpass
        cases hpass

/-- Two queued scans, of which the second names a site that is none. -/
def badSiteQueue : Db :=
  { Db.empty with
    scans := fun id =>
      if id = 5 then some (.created 1 2 3 [("requested_modules", .arr [.str "nuclei"])] 30)
      else if id = 6 then some (.created 1 2 3 [("site_id", .str "not-a-site")] 30)
      else none }

def publicWorker : ScannerWorker := ⟨"w", "public", none, none, .active, none⟩

/-- **A claim is lost.** The first scan is claimed, the second one ends the request with an error,
and the first is left running without a job. -/
theorem claims_lost :
    ¬ HandsOver badSiteQueue (leaseJobs ⟨""⟩ publicWorker false 50 (fun _ => 7)
      ⟨2, by decide, by decide⟩ [5, 6] badSiteQueue) := by
  intro h
  have hreply : (leaseJobs ⟨""⟩ publicWorker false 50 (fun _ => 7) ⟨2, by decide, by decide⟩ [5, 6]
      badSiteQueue).2 = .error (.raised "ValueError") := rfl
  unfold HandsOver at h
  rw [hreply] at h
  exact h 5 ⟨rfl, by decide⟩

/-- A queue that is leased as it should be. -/
theorem badSiteQueue_one :
    HandsOver badSiteQueue (leaseJobs ⟨""⟩ publicWorker false 50 (fun _ => 7)
        ⟨1, by decide, by decide⟩ [5, 6] badSiteQueue) ↔
      (assertWorkerMayLease publicWorker = .ok () →
        NoClaimLost ⟨""⟩ badSiteQueue publicWorker false ⟨1, by decide, by decide⟩ [5, 6]) :=
  hands_over_iff ⟨""⟩ publicWorker false 50 (fun _ => 7) ⟨1, by decide, by decide⟩ (by decide)
    badSiteQueue

end ScanPlatform
