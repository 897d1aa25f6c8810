import ScanPlatform.Billing.Creation

/-!
# Plan limits

Requests that create projects, targets and scans, each statement at any time and any of them rolled
back at any point, with the limits of the plan of a workspace.

* `Resource`, `WithinLimits`: what a plan limits, and that a workspace respects its plan;
* `quotaProtocol`: a workspace's rows are counted and added under the lock of its row;
* `Adds`, `adds_project`, `adds_target`, `adds_scan`: what an insertion adds;
* `Reserved`, `ensures_enforceQuota`: a passed check has room for one row more while its lock is
  held;
* `ensures_insert`, `createProject_safe`, `createTarget_safe`, `createScan_safe`: the requests;
* **`plan_limits_hold`**: the limits hold in every run.
-/

set_option autoImplicit false

namespace ScanPlatform

namespace Tenant

open CondMachine RowLocks

/-! ## The limits -/

/-- What a plan limits. -/
inductive Resource where
  | projects
  | targets
  | scansPerMonth

def Resource.limit : Resource → Plan → Option ℕ
  | .projects, plan => plan.maxProjects
  | .targets, plan => plan.maxTargets
  | .scansPerMonth, plan => plan.maxScansPerMonth

/-- What the workspace has: of scans, those created in the current month. -/
def Resource.used : Resource → TenantDb → Uuid → ℕ
  | .projects, d, workspaceId => d.countProjects workspaceId
  | .targets, d, workspaceId => d.countTargets workspaceId
  | .scansPerMonth, d, workspaceId => d.countScansSince (monthStart d.now) workspaceId

/-- The workspace has no more than its plan allows. -/
def WithinLimits (d : TenantDb) (workspaceId : Uuid) : Prop :=
  ∀ r : Resource, ∀ m ∈ r.limit (getPlan (d.workspaces workspaceId)), r.used d workspaceId ≤ m

/-- There is room for one row more. -/
def Room (r : Resource) (d : TenantDb) (workspaceId : Uuid) : Prop :=
  ∀ m ∈ r.limit (getPlan (d.workspaces workspaceId)), r.used d workspaceId < m

/-! ## The protocol -/

/-- What every change keeps to: the plans stay, time does not run back, and no project goes. What is
counted of a workspace is protected by the lock of its row. -/
def quotaProtocol (workspaceId : Uuid) : Protocol Uuid TenantDb (ℕ × ℕ × List ℤ) where
  present k d := (d.workspaces k).isSome
  rel d d' := d'.workspaces = d.workspaces ∧ d.now ≤ d'.now ∧ d.projects ⊆ d'.projects
  inv d := WithinLimits d workspaceId
  part k d := (d.countProjects k, d.countTargets k, d.scanTimes k)
  rel_refl _ := ⟨rfl, le_rfl, List.Subset.refl _⟩
  rel_trans _ _ _ h h' := ⟨h'.1.trans h.1, h.2.1.trans h'.2.1, List.Subset.trans h.2.2 h'.2.2⟩

variable {w k : Uuid} {r : Resource} {c : Context Uuid TenantDb} {d d' : TenantDb} {α : Type}

/-- A later month has no more scans. -/
theorem used_le (hpart : (quotaProtocol w).part k d' = (quotaProtocol w).part k d)
    (hnow : d.now ≤ d'.now) (r : Resource) : r.used d' k ≤ r.used d k := by
  simp only [quotaProtocol, Prod.mk.injEq] at hpart
  obtain ⟨hprojects, htargets, htimes⟩ := hpart
  cases r with
  | projects => exact hprojects.le
  | targets => exact htargets.le
  | scansPerMonth =>
    simp only [Resource.used, TenantDb.countScansSince, htimes]
    refine List.countP_mono_left fun t _ ht => ?_
    simp only [decide_eq_true_eq] at ht ⊢
    exact (monthStart_mono hnow).trans ht

theorem Room.later (h : Room r d k) (hd : (quotaProtocol w).Allowed c.holds d d')
    (hholds : c.holds k) : Room r d' k := by
  intro m hm
  rw [hd.rel.1] at hm
  exact (used_le (hd.part k hholds) hd.rel.2.1 r).trans_lt (h m hm)

/-! ## Insertions -/

/-- One row more of `r` in the workspace `k`, which exists, and nothing else that is counted. -/
structure Adds (r : Resource) (k : Uuid) (d d' : TenantDb) : Prop where
  rel : (quotaProtocol k).rel d d'
  now : d'.now = d.now
  exists_ : (d.workspaces k).isSome
  others : ∀ j, j ≠ k → (quotaProtocol k).part j d' = (quotaProtocol k).part j d
  same : ∀ r', r' ≠ r → r'.used d' k = r'.used d k
  one : r.used d' k ≤ r.used d k + 1

/-- An insertion in a workspace with room keeps within the limits, of this workspace and of any. -/
theorem Adds.allowed (h : Adds r k d d') (hinv : WithinLimits d w) (hroom : Room r d k)
    {keep : Uuid → Prop} (hkeep : ∀ j, keep j → j ≠ k) :
    (quotaProtocol w).Allowed keep d d' where
  rel := h.rel
  part j hj := h.others j (hkeep j hj)
  inv r' m hm := by
    rw [h.rel.1] at hm
    by_cases hwk : w = k
    · subst hwk
      by_cases hr : r' = r
      · subst hr
        exact h.one.trans (hroom m hm)
      · rw [h.same r' hr]
        exact hinv r' m hm
    · have hpart : (quotaProtocol w).part w d' = (quotaProtocol w).part w d := h.others w hwk
      exact (used_le hpart h.now.ge r').trans (hinv r' m hm)

/-- Projects are known by their identifiers. -/
theorem project_ext {p q : ProjectRow} (hp : p ∈ d.projects) (hq : q ∈ d.projects)
    (h : p.id = q.id) : p = q :=
  List.inj_on_of_nodup_map d.distinct hp hq h

/-- A target is one of the workspace of its project. -/
theorem targetIn_iff {t : TargetRow} {p : ProjectRow} (hp : p ∈ d.projects)
    (hid : p.id = t.projectId) : d.targetIn k t = true ↔ p.workspaceId = k := by
  simp only [TenantDb.targetIn, List.any_eq_true, decide_eq_true_eq]
  constructor
  · rintro ⟨q, hq, hqid, hk⟩
    rwa [project_ext hp hq (hid.trans hqid.symm)]
  · exact fun hk => ⟨p, hp, hid, hk⟩

theorem insertProject_counts {row : ProjectRow} (h : insertProject row d = some d') (j : Uuid) :
    d'.countProjects j = d.countProjects j + (if row.workspaceId = j then 1 else 0) ∧
      d'.countTargets j = d.countTargets j ∧ d'.scanTimes j = d.scanTimes j := by
  unfold insertProject at h
  split_ifs at h with hnew
  cases h
  refine ⟨by simp [TenantDb.countProjects, List.countP_append, List.countP_singleton], ?_, rfl⟩
  refine List.countP_congr fun t ht => ?_
  -- no target is one of a project that has been missing
  obtain ⟨p, hp, hid⟩ := d.owned t ht
  have hne : row.id ≠ t.projectId := fun heq => hnew.1 p hp (hid.trans heq.symm)
  simp [TenantDb.targetIn, hne]

theorem insertTarget_counts {row : TargetRow} {p : ProjectRow} (hp : p ∈ d.projects)
    (hid : p.id = row.projectId) (h : insertTarget row d = some d') (j : Uuid) :
    d'.countProjects j = d.countProjects j ∧
      d'.countTargets j = d.countTargets j + (if p.workspaceId = j then 1 else 0) ∧
      d'.scanTimes j = d.scanTimes j := by
  unfold insertTarget at h
  split_ifs at h with hnew
  cases h
  refine ⟨rfl, ?_, rfl⟩
  have hrow : d.targetIn j row = decide (p.workspaceId = j) := by
    rw [Bool.eq_iff_iff, targetIn_iff hp hid, decide_eq_true_eq]
  show (d.targets ++ [row]).countP (d.targetIn j) = _
  rw [List.countP_append, List.countP_singleton, hrow]
  simp [TenantDb.countTargets]

theorem insertScan_counts {row : ScanRow} (h : insertScan row d = some d') (j : Uuid) :
    d'.countProjects j = d.countProjects j ∧ d'.countTargets j = d.countTargets j ∧
      d'.scanTimes j =
        d.scanTimes j ++ (if row.workspaceId = j then [row.createdAt] else []) := by
  obtain ⟨-, rfl⟩ := guarded_eq_some.mp h
  refine ⟨rfl, rfl, ?_⟩
  simp only [TenantDb.scanTimes, List.filter_append, List.map_append, List.filter_singleton]
  split_ifs <;> simp_all

/-- **A project is one row more** of the projects of its workspace. -/
theorem adds_project {row : ProjectRow} (h : insertProject row d = some d') :
    Adds .projects row.workspaceId d d' := by
  have hcounts := insertProject_counts h
  unfold insertProject at h
  split_ifs at h with hnew
  cases h
  refine ⟨⟨rfl, le_rfl, List.subset_append_left _ _⟩, rfl, hnew.2, fun j hj => ?_, fun r hr => ?_,
    ?_⟩
  · obtain ⟨hprojects, htargets, htimes⟩ := hcounts j
    simp [quotaProtocol, hprojects, htargets, htimes, hj.symm]
  · obtain ⟨-, htargets, htimes⟩ := hcounts row.workspaceId
    cases r with
    | projects => exact absurd rfl hr
    | targets => exact htargets
    | scansPerMonth => simp only [Resource.used, TenantDb.countScansSince, htimes]
  · obtain ⟨hprojects, -, -⟩ := hcounts row.workspaceId
    simp [Resource.used, hprojects]

/-- **A target is one row more** of the targets of the workspace of its project. -/
theorem adds_target {row : TargetRow} {p : ProjectRow} (hp : p ∈ d.projects)
    (hid : p.id = row.projectId) (h : insertTarget row d = some d') :
    Adds .targets p.workspaceId d d' := by
  have hcounts := insertTarget_counts hp hid h
  unfold insertTarget at h
  split_ifs at h with hnew
  cases h
  refine ⟨⟨rfl, le_rfl, List.Subset.refl _⟩, rfl, d.housed p hp, fun j hj => ?_, fun r hr => ?_, ?_⟩
  · obtain ⟨hprojects, htargets, htimes⟩ := hcounts j
    simp [quotaProtocol, hprojects, htargets, htimes, hj.symm]
  · obtain ⟨hprojects, -, htimes⟩ := hcounts p.workspaceId
    cases r with
    | projects => exact hprojects
    | targets => exact absurd rfl hr
    | scansPerMonth => simp only [Resource.used, TenantDb.countScansSince, htimes]
  · obtain ⟨-, htargets, -⟩ := hcounts p.workspaceId
    simp [Resource.used, htargets]

/-- **A scan is at most one row more** of the scans of its workspace in a month. -/
theorem adds_scan {row : ScanRow} (h : insertScan row d = some d') :
    Adds .scansPerMonth row.workspaceId d d' := by
  have hcounts := insertScan_counts h
  obtain ⟨hnew, rfl⟩ := guarded_eq_some.mp h
  refine ⟨⟨rfl, le_rfl, List.Subset.refl _⟩, rfl, hnew.2.1, fun j hj => ?_, fun r hr => ?_, ?_⟩
  · obtain ⟨hprojects, htargets, htimes⟩ := hcounts j
    simp [quotaProtocol, hprojects, htargets, htimes, hj.symm]
  · obtain ⟨hprojects, htargets, -⟩ := hcounts row.workspaceId
    cases r with
    | projects => exact hprojects
    | targets => exact htargets
    | scansPerMonth => exact absurd rfl hr
  · obtain ⟨-, -, htimes⟩ := hcounts row.workspaceId
    simp only [Resource.used, TenantDb.countScansSince, htimes, if_true, List.countP_append]
    exact Nat.add_le_add_left List.countP_le_length _

/-- The task of a scan is not counted. -/
theorem setCeleryTaskId_allowed {id : Uuid} {taskId : String} (hinv : WithinLimits d w)
    (h : setCeleryTaskId id taskId d = some d') {keep : Uuid → Prop} :
    (quotaProtocol w).Allowed keep d d' := by
  cases h
  let recorded (s : ScanRow) : ScanRow :=
    if s.id = id then { s with celeryTaskId := some taskId } else s
  have hrecorded : ∀ s, (recorded s).workspaceId = s.workspaceId ∧
      (recorded s).createdAt = s.createdAt := by
    intro s
    by_cases hs : s.id = id <;> simp [recorded, hs]
  have htimes : ∀ j, ({ d with scans := d.scans.map recorded } : TenantDb).scanTimes j =
      d.scanTimes j := by
    intro j
    simp [TenantDb.scanTimes, List.filter_map, Function.comp_def, hrecorded]
  have hpart : ∀ j, (quotaProtocol w).part j { d with scans := d.scans.map recorded } =
      (quotaProtocol w).part j d := fun j =>
    congrArg (fun times => (d.countProjects j, d.countTargets j, times)) (htimes j)
  exact ⟨⟨rfl, le_rfl, List.Subset.refl _⟩, fun r m hm =>
    (used_le (hpart w) le_rfl r).trans (hinv r m hm), fun j _ => hpart j⟩

/-! ## The checks -/

/-- A check has passed: its lock is held, nothing is written, and there is room. -/
structure Reserved (r : Resource) (k : Uuid) (c : Context Uuid TenantDb) (d : TenantDb) : Prop where
  pending : c.pending = some
  holds : (d.workspaces k).isSome → c.holds k
  room : (d.workspaces k).isSome → Room r d k

theorem Reserved.later (h : Reserved r k c d) (hd : (quotaProtocol w).Allowed c.holds d d') :
    Reserved r k c d' where
  pending := h.pending
  holds hk := by
    rw [hd.rel.1] at hk
    exact h.holds hk
  room hk := by
    rw [hd.rel.1] at hk
    exact (h.room hk).later hd (h.holds hk)

/-- A session that has written nothing sees what is committed. -/
theorem view_of_pending (h : c.pending = some) : c.view d = d := by
  simp [Context.view, h]

/-- The transaction counts what the workspace has, or more. -/
def Counts (r : Resource) (k : Uuid) (current : TenantTxn ℕ) : Prop :=
  ∀ w c d, c.pending = some → WithinLimits d w → current.Ensures (quotaProtocol w) c
    (fun n c' d' => c' = c ∧ (quotaProtocol w).Allowed c.holds d d' ∧ r.used d' k ≤ n) d

theorem counts_projects : Counts .projects k (query fun d => .ok (d.countProjects k)) := by
  refine fun w c d hc _ => ensures_query.mpr fun d' h' n hn => ⟨rfl, h', ?_⟩
  rw [view_of_pending hc] at hn
  exact (Except.ok.inj hn).le

theorem counts_targets : Counts .targets k (query fun d => .ok (d.countTargets k)) := by
  refine fun w c d hc _ => ensures_query.mpr fun d' h' n hn => ⟨rfl, h', ?_⟩
  rw [view_of_pending hc] at hn
  exact (Except.ok.inj hn).le

/-- The month may have ended since its beginning was computed. -/
theorem counts_scans : Counts .scansPerMonth k (countScansThisMonth k) := by
  refine fun w c d hc _ => ensures_bind.mpr (ensures_query.mpr fun d₁ h₁ start hstart => ?_)
  refine ensures_query.mpr fun d₂ h₂ n hn => ⟨rfl, h₁.trans h₂, ?_⟩
  rw [view_of_pending hc] at hstart hn
  cases hstart
  cases hn
  refine List.countP_mono_left fun t _ ht => ?_
  simp only [decide_eq_true_eq] at ht ⊢
  exact (monthStart_mono h₂.rel.2.1).trans ht

/-- What a check that began at `d` has ensured when it has passed. -/
def Checked (w : Uuid) (r : Resource) (k : Uuid) (d : TenantDb) (_ : Unit)
    (c : Context Uuid TenantDb) (d' : TenantDb) : Prop :=
  (quotaProtocol w).rel d d' ∧ WithinLimits d' w ∧ Reserved r k c d'

/-- **A check that has passed has room.** -/
theorem ensures_enforceQuota {current : TenantTxn ℕ} {message : Plan → ℕ → String}
    (hcurrent : Counts r k current) :
    (enforceQuota current r.limit message k).Ensures (quotaProtocol w) .fresh
      (Checked w r k d) d := by
  refine ensures_bind.mpr (ensures_lockRow.mpr fun d₁ h₁ => ?_)
  have hpending : (if (quotaProtocol w).present k d₁ then Context.take .fresh k
      else (.fresh : Context Uuid TenantDb)).pending = some := by
    split_ifs <;> rfl
  refine ensures_bind.mpr ((hcurrent w _ d₁ hpending h₁.inv).mono fun n c' d₂ h₂ => ?_)
  obtain ⟨rfl, h₂, hused⟩ := h₂
  refine ensures_raiseIf.mpr fun hover => ⟨(quotaProtocol w).rel_trans _ _ _ h₁.rel h₂.rel, h₂.inv,
    hpending, fun hk => ?_, fun hk m hm => ?_⟩
  · rw [h₂.rel.1] at hk
    have hpresent : (quotaProtocol w).present k d₁ = true := hk
    rw [if_pos hpresent]
    exact .inl rfl
  · rw [h₂.rel.1] at hm
    have hover := overLimit_eq_false.mp (Bool.not_eq_true _ ▸ hover)
    exact hused.trans_lt (hover m hm)

theorem enforceProjectQuota_checked : (enforceProjectQuota k).Ensures (quotaProtocol w) .fresh
    (Checked w .projects k d) d := ensures_enforceQuota counts_projects

theorem enforceTargetQuota_checked : (enforceTargetQuota k).Ensures (quotaProtocol w) .fresh
    (Checked w .targets k d) d := ensures_enforceQuota counts_targets

theorem enforceScanQuota_checked : (enforceScanQuota k).Ensures (quotaProtocol w) .fresh
    (Checked w .scansPerMonth k d) d := ensures_enforceQuota counts_scans

/-! ## The requests -/

/-- **The insertion after a check keeps to the protocol**, when what it inserts is one row of the
workspace. -/
theorem ensures_insert (h : Reserved r k c d) {change : TenantDb → TenantDb → Option TenantDb}
    {rest : TenantTxn α}
    (hchange : ∀ d₀ d₁ d₂, d.projects ⊆ d₁.projects → change d₀ d₁ = some d₂ → Adds r k d₁ d₂)
    (hrest : ∀ d, WithinLimits d w → rest.Safe (quotaProtocol w) .fresh d) :
    (do write change; commit; rest : TenantTxn α).Safe (quotaProtocol w) c d := by
  refine ensures_bind.mpr (ensures_write.mpr fun d₀ h₀ => ?_)
  refine ensures_bind.mpr (ensures_commit.mpr fun d₁ h₁ d₂ h₂ => ?_)
  have hall : (quotaProtocol w).Allowed c.holds d d₁ := h₀.trans h₁
  have hd₁ := h.later hall
  have hadds : Adds r k d₁ d₂ := by
    refine hchange (c.view d₀) d₁ d₂ hall.rel.2.2 ?_
    simpa [Context.write, h.pending] using h₂
  have hallowed : (quotaProtocol w).Allowed (fun j => ¬ c.holds j) d₁ d₂ :=
    hadds.allowed hall.inv (hd₁.room hadds.exists_) fun j hj hjk =>
      hj (hjk ▸ hd₁.holds hadds.exists_)
  exact ⟨hallowed, hrest d₂ hallowed.inv⟩

theorem createProject_safe (c : ProjectCreate) (d : TenantDb) :
    (createProject c).Safe (quotaProtocol w) .fresh d := by
  refine ensures_bind.mpr (enforceProjectQuota_checked.mono fun _ c' d' hd' => ?_)
  obtain ⟨-, -, hreserved⟩ := hd'
  exact ensures_insert hreserved (fun _ _ _ _ h => adds_project h) fun _ _ => trivial

theorem getProject_ensures {p : Uuid} :
    (getProject k p).Ensures (quotaProtocol w) .fresh (fun project c d => c = .fresh ∧
      WithinLimits d w ∧ project ∈ d.projects ∧ project.id = p ∧ project.workspaceId = k) d := by
  refine ensures_query.mpr fun d' h' project hproject => ?_
  rw [view_of_pending rfl] at hproject
  cases hfind : d'.projects.find? fun q => q.id = p ∧ q.workspaceId = k with
  | none => rw [hfind] at hproject; cases hproject
  | some q =>
    rw [hfind] at hproject
    cases hproject
    have hq := List.find?_some hfind
    simp only [decide_eq_true_eq] at hq
    exact ⟨rfl, h'.inv, List.mem_of_find?_eq_some hfind, hq.1, hq.2⟩

theorem targetSite_readOnly (c : TargetCreate) : (targetSite c).ReadOnly := by
  unfold targetSite
  cases c.siteId with
  | none => exact readOnly_pure
  | some siteId =>
    exact readOnly_query.bind fun site => readOnly_check.bind fun _ => readOnly_check.bind fun _ =>
      readOnly_pure

theorem createTarget_safe (cfg : CreationSettings) (c : TargetCreate) (d : TenantDb) :
    (createTarget cfg c).Safe (quotaProtocol w) .fresh d := by
  refine ensures_bind.mpr (getProject_ensures.mono fun project c₁ d₁ h₁ => ?_)
  obtain ⟨rfl, hd₁, hproject, hid, hworkspace⟩ := h₁
  refine (targetSite_readOnly c).safe_bind hd₁ fun site d₂ h₂ => ?_
  refine readOnly_check.safe_bind h₂.inv fun _ d₃ h₃ => ?_
  refine readOnly_check.safe_bind h₃.inv fun _ d₄ h₄ => ?_
  refine ensures_bind.mpr (enforceTargetQuota_checked.mono fun _ c' d₅ h₅ => ?_)
  obtain ⟨hrel, -, hreserved⟩ := h₅
  have hprojects : d₁.projects ⊆ d₅.projects :=
    ((quotaProtocol w).rel_trans _ _ _ (h₂.trans (h₃.trans h₄)).rel hrel).2.2
  refine ensures_insert hreserved (fun d₀ d₆ d₇ hsub h => ?_) fun _ _ => trivial
  have hadds := adds_target (hsub (hprojects hproject)) hid h
  rwa [hworkspace] at hadds

theorem requireVerifiedTarget_readOnly (workspaceId projectId targetId : Uuid) :
    (requireVerifiedTarget workspaceId projectId targetId).ReadOnly := by
  have htarget : (getTarget workspaceId projectId targetId).ReadOnly :=
    readOnly_query.bind fun _ => readOnly_query
  have hscope : (getCurrentScope workspaceId projectId targetId).ReadOnly :=
    htarget.bind fun _ => readOnly_query
  exact hscope.mapError.bind fun _ => readOnly_query.bind fun _ => readOnly_raiseIf.bind fun _ =>
    readOnly_raiseIf.bind fun _ => readOnly_pure

theorem validateZone_readOnly (workspaceId : Uuid) (target : TargetRow) (zone : String) :
    (validateZone workspaceId target zone).ReadOnly := by
  unfold validateZone
  split_ifs
  · cases target.siteId with
    | none => exact readOnly_check
    | some siteId => exact readOnly_query.bind fun _ => readOnly_check.bind fun _ => readOnly_pure
  · exact readOnly_pure

theorem authorize_readOnly (cfg : CreationSettings) (c : ScanCreate) (target : TargetRow) :
    (c.authorize cfg target).ReadOnly :=
  readOnly_check.bind fun _ => (requireVerifiedTarget_readOnly _ _ _).bind fun _ =>
    readOnly_raiseIf.bind fun _ => (validateZone_readOnly _ _ _).bind fun _ => readOnly_pure

/-- What follows the row of a scan is not counted. -/
theorem dispatch_safe (cfg : CreationSettings) (c : ScanCreate) (d : TenantDb) :
    (do c.dispatch cfg; commit; return c.id : TenantTxn Uuid).Safe (quotaProtocol w) .fresh d := by
  refine ensures_bind.mpr ?_
  unfold ScanCreate.dispatch
  split_ifs
  · cases c.enqueue with
    | error exception => trivial
    | ok taskId =>
      refine ensures_write.mpr fun d₁ h₁ => ?_
      refine ensures_bind.mpr (ensures_commit.mpr fun d₂ h₂ d₃ h₃ => ?_)
      exact ⟨setCeleryTaskId_allowed h₂.inv h₃, trivial⟩
  · refine ensures_bind.mpr (ensures_commit.mpr fun d₁ h₁ d₂ h₂ => ?_)
    cases h₂
    exact ⟨.refl h₁.inv, trivial⟩

theorem createScan_safe (cfg : CreationSettings) (c : ScanCreate) (hd : WithinLimits d w) :
    (createScan cfg c).Safe (quotaProtocol w) .fresh d := by
  have htarget : (getTarget c.workspaceId c.projectId c.targetId).ReadOnly :=
    readOnly_query.bind fun _ => readOnly_query
  refine htarget.safe_bind hd fun target d₁ h₁ => ?_
  refine readOnly_raiseIf.safe_bind h₁.inv fun _ d₂ h₂ => ?_
  refine ensures_bind.mpr (enforceScanQuota_checked.mono fun _ c' d₃ h₃ => ?_)
  obtain ⟨-, hd₃, hreserved⟩ := h₃
  -- the checks between the count and the row leave the lock alone
  refine (authorize_readOnly cfg c target).safe_bind hd₃ fun config d₄ h₄ => ?_
  exact ensures_insert (hreserved.later h₄) (fun _ _ _ _ h => adds_scan h)
    fun d₅ _ => dispatch_safe cfg c d₅

/-! ## All requests together -/

/-- A request that a quota bounds. -/
inductive CreationCall where
  | project (c : ProjectCreate)
  | target (c : TargetCreate)
  | scan (c : ScanCreate)

def creation (cfg : CreationSettings) : CreationCall → TenantTxn Uuid
  | .project c => createProject c
  | .target c => createTarget cfg c
  | .scan c => createScan cfg c

/-- Time passes, or a site or the scopes of the targets change. -/
inductive TenantEvent where
  | tick (microseconds : ℕ)
  | site (id : Uuid) (site : PrivateSite)
  | scopes (scopes : List AuthorizationScope)

def tenantEvent : TenantEvent → TenantDb → Option TenantDb
  | .tick microseconds, d => some { d with now := d.now + microseconds }
  | .site id site, d => some { d with sites := d.sites.set id site }
  | .scopes scopes, d => some { d with scopes }

abbrev TenantSystem := System CreationCall Uuid TenantDb TenantFault Uuid

/-- A session begins, executes its next statement or is rolled back, or something else happens. -/
def tenantStep (cfg : CreationSettings) :
    Action CreationCall TenantEvent → TenantSystem → Option TenantSystem :=
  act (creation cfg) (fun k d => (d.workspaces k).isSome) tenantEvent

theorem tenantEvent_allowed {e : TenantEvent} (hinv : WithinLimits d w)
    (h : tenantEvent e d = some d') : (quotaProtocol w).Allowed (fun _ => True) d d' := by
  have hallowed : ∀ d' : TenantDb, (quotaProtocol w).rel d d' →
      (∀ k, (quotaProtocol w).part k d' = (quotaProtocol w).part k d) →
        (quotaProtocol w).Allowed (fun _ => True) d d' := by
    intro d' hrel hpart
    refine ⟨hrel, fun r m hm => ?_, fun k _ => hpart k⟩
    rw [hrel.1] at hm
    exact (used_le (hpart w) hrel.2.1 r).trans (hinv r m hm)
  cases e with
  | tick microseconds =>
    cases h
    exact hallowed _ ⟨rfl, Int.le_add_of_nonneg_right (Int.natCast_nonneg microseconds),
      List.Subset.refl _⟩ fun _ => rfl
  | site id site =>
    cases h
    exact hallowed _ ⟨rfl, le_rfl, List.Subset.refl _⟩ fun _ => rfl
  | scopes scopes =>
    cases h
    exact hallowed _ ⟨rfl, le_rfl, List.Subset.refl _⟩ fun _ => rfl

/-- **Plan limits cannot be raced past**: from a database in which the workspace respects its plan,
it does so in every committed state of every run. -/
theorem plan_limits_hold (cfg : CreationSettings) (w : Uuid) {d : TenantDb}
    (hd : WithinLimits d w) (σ : List (Action CreationCall TenantEvent)) :
    WithinLimits (run (tenantStep cfg) ⟨d, fun _ => none, fun _ => none⟩ σ).db w := by
  have hcall : ∀ c d, WithinLimits d w → (creation cfg c).Safe (quotaProtocol w) .fresh d := by
    intro c d hd
    cases c with
    | project c => exact createProject_safe c d
    | target c => exact createTarget_safe cfg c d
    | scan c => exact createScan_safe cfg c hd
  exact run_inv (p := quotaProtocol w) hd hcall (fun _ _ _ hinv h => tenantEvent_allowed hinv h) σ
/-! ## A race -/

def labCreation : CreationSettings where
  net := ⟨false, []⟩
  supportedTargetTypes := ["domain", "ip_range"]
  aiEnabled := false
  aiProvider := "openrouter"
  celeryScanDispatchEnabled := false

/-- A workspace of the free plan with one of its two projects. -/
def labTenant : TenantDb where
  now := 0
  workspaces := Table.ofList [(3, "free")]
  projects := [{ id := 10, workspaceId := 3, name := "a", description := none, createdBy := 7 }]
  targets := []
  scans := []
  sites := fun _ => none
  scopes := []
  distinct := by decide
  housed := by
    intro p hp
    rw [List.mem_singleton.mp hp]
    rfl
  owned := fun t ht => by cases ht

/-- Two requests for a project, of which the second one has to wait for the first one. -/
def labRace : List (Action CreationCall TenantEvent) :=
  [.call 0 (.project ⟨3, 7, 11, "b", none⟩), .call 1 (.project ⟨3, 7, 12, "c", none⟩), .advance 0,
    .advance 1, .advance 0, .advance 0, .advance 1, .advance 0, .advance 1, .advance 1, .advance 1]

theorem plan_limits_hold_lab :
    WithinLimits (run (tenantStep labCreation) ⟨labTenant, fun _ => none, fun _ => none⟩ labRace).db
      3 := by
  refine plan_limits_hold labCreation 3 (fun r m hm => ?_) labRace
  cases r <;> cases hm <;> decide

example : (run (tenantStep labCreation) ⟨labTenant, fun _ => none, fun _ => none⟩
    labRace).db.projects.map (·.id) = [10, 11] := by decide

end Tenant

end ScanPlatform
