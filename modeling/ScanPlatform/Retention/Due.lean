import ScanPlatform.Base.Checks
import ScanPlatform.Retention.Purge

/-!
# What is due, in a worker

The worker installs the guard of the tenancy. It refuses the audit event of every deletion: the
event names the workspace by the text of its id, and the guard compares this with the `UUID` that is
bound.

* `mem_eligible_iff`, `eligible_sorted`: what the ranking makes eligible, and in which order;
* `PurgesDue`: a run completes, and purges exactly what is due;
* `NothingEligible`, `purgeWorkspace_refusing`: a workspace passes when nothing is eligible in it;
* **`purges_due_iff`**: a run does what it should exactly when nothing is eligible anywhere;
  `purge_raises` is a run that raises.
-/

set_option autoImplicit false

namespace ScanPlatform.Retention

open Newest

section

variable {settings : RetentionSettings} {db : RetentionDb} {wid : Uuid} {r : Resource}

/-- **A candidate is eligible** when it is older than the cutoff and at least `min_keep` candidates
are newer. -/
theorem mem_eligible_iff (h : ((db.candidates wid r).map rankKey).Nodup) {c : Uuid × ℤ} :
    c ∈ eligible settings db wid r ↔ c ∈ db.candidates wid r ∧ c.2 < settings.cutoffs r ∧
      settings.minKeep.toNat ≤ (db.candidates wid r).countP fun d => rankKey c < rankKey d := by
  have hsub : ∀ {c}, c ∈ older rankKey settings.minKeep.toNat (db.candidates wid r) →
      c ∈ db.candidates wid r := fun hc =>
    (sortByKey_perm _).mem_iff.mp (List.mem_of_mem_take hc)
  rw [eligible, List.mem_filter, decide_eq_true_eq]
  constructor
  · rintro ⟨hold, hlt⟩
    exact ⟨hsub hold, hlt, not_lt.mp ((mem_older_iff h (hsub hold)).mp hold)⟩
  · rintro ⟨hc, hlt, hrank⟩
    exact ⟨(mem_older_iff h hc).mpr (not_lt.mpr hrank), hlt⟩

/-- What is eligible is in the order of its times. -/
theorem eligible_sorted (h : ((db.candidates wid r).map rankKey).Nodup) :
    (eligible settings db wid r).Pairwise fun c d => rankKey c < rankKey d :=
  ((sortByKey_strict h).sublist (List.take_sublist _ _)).filter _

end

/-! ## What a run should do -/

section

variable (settings : RetentionSettings) (db : RetentionDb)

/-- The oldest `retention_batch_size` of what is eligible. -/
def dueIds (wid : Uuid) (r : Resource) : List Uuid :=
  ((eligible settings db wid r).take settings.batchSize.toNat).map (·.1)

section

variable (wids : List Uuid)

/-- The row is due in one of the workspaces. -/
def isDue (r : Resource) (id : Uuid) : Bool :=
  wids.any fun wid => among (dueIds settings db wid r) id

/-- The row is of a tool run of a scan that is due. -/
def isDueEvidence (e : EvidenceRow) : Bool :=
  e.toolRunId.any fun id => db.toolRuns.any fun t =>
    t.id = id && isDue settings db wids .scan t.scanId

end

/-- The event tells of a deletion in this workspace. -/
def AuditRow.tellsPurge (wid : Uuid) (r : Resource) (e : AuditRow) : Bool :=
  e.workspaceId = wid && e.action = "retention.purged" && e.resourceType = r.text

/-- The row is due in some workspace. -/
abbrev due (r : Resource) (id : Uuid) : Bool := isDue settings db db.workspaceIds r id

/-- Exactly what is due has been deleted, with an event for each resource of each workspace of which
something was. -/
structure DeletesDue (after : RetentionDb) : Prop where
  reports : after.reports = db.reports.filter fun row => !due settings db .report row.id
  scans : after.scans = db.scans.filter fun row => !due settings db .scan row.id
  toolRuns : after.toolRuns = db.toolRuns.filter fun row => !due settings db .scan row.scanId
  evidence : after.evidence =
    db.evidence.filter fun row => !isDueEvidence settings db db.workspaceIds row
  aiUsage : after.aiUsage = db.aiUsage.filter fun row => !due settings db .aiUsage row.id
  notifications : after.notifications =
    db.notifications.filter fun row => !due settings db .notification row.id
  remediationEvents : after.remediationEvents =
    db.remediationEvents.filter fun row => !due settings db .remediationEvent row.id
  assessments : after.assessments =
    db.assessments.filter fun row => !due settings db .riskAssessment row.id
  audited : ∃ events,
    after.auditEvents =
      db.auditEvents.filter (fun row => !due settings db .audit row.id) ++ events ∧
    ∀ wid ∈ db.workspaceIds, ∀ r, events.countP (AuditRow.tellsPurge wid r) =
      if dueIds settings db wid r = [] then 0 else 1
  others : after.workspaces = db.workspaces ∧ after.projects = db.projects

end

/-- A live run returns without raising, and deletes exactly what is due. -/
structure PurgesDue (proc : RetentionProcess) (settings : RetentionSettings)
    (s : RetentionState) : Prop where
  completes : (runAsync proc settings s).2 = none
  deletes : DeletesDue settings s.db (runAsync proc settings s).1.db

/-! ## A worker -/

/-- The process of a worker. -/
def worker (stamp : Uuid → Resource → Uuid × ℤ) : RetentionProcess := ⟨true, stamp⟩

/-- Nothing is eligible in the workspace. -/
def NothingEligible (settings : RetentionSettings) (db : RetentionDb) (wid : Uuid) : Prop :=
  ∀ r, eligible settings db wid r = []

/-- The process refuses every deletion: the guard does, or the statement that selects the rows. -/
def Refusing (proc : RetentionProcess) (settings : RetentionSettings) : Prop :=
  proc.installed = true ∨ settings.batchSize < 0

section

variable {proc : RetentionProcess} {settings : RetentionSettings} {db : RetentionDb} {wid : Uuid}
  {r : Resource} {p : Purge} {s : RetentionState}

/-- The guard refuses every event. -/
theorem audit_installed (h : proc.installed = true) (count : ℕ) :
    audit proc (.uuid wid) (.text wid) r count db = .error (.raised "CrossTenantWriteError") := by
  have hguard : assertInsertAllowed proc (.uuid wid) (.text wid) =
      .error (.raised "CrossTenantWriteError") := by simp [assertInsertAllowed, h]
  unfold audit
  rw [hguard]
  rfl

theorem purgeResource_nothing (h : eligible settings p.db wid r = []) :
    purgeResource proc settings (.uuid wid) (.text wid) r p = .ok p := by
  unfold purgeResource
  split_ifs with hr
  · unfold purgeScans
    rw [IdValue.id_text, if_pos (hr ▸ h)]
    rfl
  · unfold purgeGeneric
    rw [IdValue.id_text, if_pos h]
    rfl

/-- What is eligible makes the purge raise. -/
theorem purgeResource_refuses (h : Refusing proc settings)
    (heligible : eligible settings p.db wid r ≠ []) (p' : Purge) :
    purgeResource proc settings (.uuid wid) (.text wid) r p ≠ .ok p' := by
  intro hok
  have hfails : ∀ ids count db db', selectEligible settings p.db wid r = .ok ids →
      audit proc (.uuid wid) (.text wid) r count db ≠ .ok db' := by
    intro ids count db db' hids haudit
    rcases h with hinstalled | hneg
    · rw [audit_installed hinstalled] at haudit
      cases haudit
    · rw [selectEligible, if_pos hneg] at hids
      cases hids
  unfold purgeResource at hok
  split_ifs at hok with hr
  · subst hr
    unfold purgeScans at hok
    rw [IdValue.id_text, if_neg heligible] at hok
    obtain ⟨ids, hids, hok⟩ := Checks.bind_eq_ok.mp hok
    obtain ⟨db, -, hok⟩ := Checks.bind_eq_ok.mp hok
    obtain ⟨db', haudit, -⟩ := Checks.bind_eq_ok.mp hok
    exact hfails ids _ _ db' hids haudit
  · unfold purgeGeneric at hok
    rw [IdValue.id_text, if_neg heligible] at hok
    obtain ⟨ids, hids, hok⟩ := Checks.bind_eq_ok.mp hok
    obtain ⟨db', haudit, -⟩ := Checks.bind_eq_ok.mp hok
    exact hfails ids _ _ db' hids haudit

/-- **A process that refuses every deletion** passes a workspace exactly when nothing is eligible in
it, and leaves it as it is. -/
theorem foldlM_refusing (h : Refusing proc settings) (l : List Resource) {p' : Purge} :
    l.foldlM (fun p r => purgeResource proc settings (.uuid wid) (.text wid) r p) p = .ok p' ↔
      p' = p ∧ ∀ r ∈ l, eligible settings p.db wid r = [] := by
  induction l generalizing p with
  | nil =>
    exact ⟨fun h => ⟨(Except.ok.inj h).symm, fun _ hr => by cases hr⟩,
      fun h => congrArg Except.ok h.1.symm⟩
  | cons r l ih =>
    rw [List.foldlM_cons, Checks.bind_eq_ok, List.forall_mem_cons]
    by_cases heligible : eligible settings p.db wid r = []
    · rw [purgeResource_nothing heligible]
      constructor
      · rintro ⟨p₁, hp₁, hl⟩
        obtain rfl := Except.ok.inj hp₁
        exact ⟨(ih.mp hl).1, heligible, (ih.mp hl).2⟩
      · rintro ⟨hp', -, hl⟩
        exact ⟨p, rfl, ih.mpr ⟨hp', hl⟩⟩
    · constructor
      · rintro ⟨p₁, hp₁, -⟩
        exact absurd hp₁ (purgeResource_refuses h heligible p₁)
      · rintro ⟨-, hnothing, -⟩
        exact absurd hnothing heligible

theorem mem_processed (r : Resource) : r ∈ processed := by
  cases r <;> decide

theorem purgeWorkspace_refusing (h : Refusing proc settings) {p' : Purge} :
    purgeWorkspace proc settings (.uuid wid) (.text wid) db = .ok p' ↔
      p' = ⟨db, .empty⟩ ∧ NothingEligible settings db wid :=
  (foldlM_refusing h processed).trans
    (and_congr_right fun _ => ⟨fun h r => h r (mem_processed r), fun h r _ => h r⟩)

/-- A run of such a process changes nothing, and completes when nothing is eligible. -/
theorem sweep_refusing (h : Refusing proc settings) (wids : List Uuid) :
    (sweep proc settings wids s).1 = s ∧
      ((sweep proc settings wids s).2 = none ↔
        ∀ wid ∈ wids, NothingEligible settings s.db wid) := by
  induction wids with
  | nil => simp [sweep]
  | cons wid wids ih =>
    unfold sweep
    cases hpurge : purgeWorkspace proc settings (.uuid wid) (.text wid) s.db with
    | error e =>
      refine ⟨rfl, by simp, fun hnothing => ?_⟩
      have hok := (purgeWorkspace_refusing h).mpr ⟨rfl, hnothing wid List.mem_cons_self⟩
      rw [hok] at hpurge
      cases hpurge
    | ok p =>
      obtain ⟨rfl, hnothing⟩ := (purgeWorkspace_refusing h).mp hpurge
      have hstore : cleanupStorage settings StorageTargets.empty s.store = s.store := rfl
      simp only [hstore]
      rw [List.forall_mem_cons]
      exact ⟨ih.1, ih.2.trans (and_iff_right hnothing).symm⟩

end

/-! ## Runs -/

section

variable {settings : RetentionSettings} {db : RetentionDb} {wids : List Uuid}

/-- Where nothing is eligible nothing is due. -/
theorem isDue_of_nothing (h : ∀ wid ∈ wids, NothingEligible settings db wid) (r : Resource)
    (id : Uuid) : isDue settings db wids r id = false := by
  unfold isDue
  rw [List.any_eq_false]
  intro wid hwid
  simp [dueIds, h wid hwid r, among]

theorem isDueEvidence_of_nothing (h : ∀ wid ∈ wids, NothingEligible settings db wid)
    (e : EvidenceRow) : isDueEvidence settings db wids e = false := by
  unfold isDueEvidence
  cases e.toolRunId with
  | none => rfl
  | some id => simp [isDue_of_nothing h]

theorem deletesDue_of_nothing (h : ∀ wid ∈ db.workspaceIds, NothingEligible settings db wid) :
    DeletesDue settings db db := by
  have hdue := isDue_of_nothing h
  have hevidence := isDueEvidence_of_nothing h
  refine ⟨?_, ?_, ?_, ?_, ?_, ?_, ?_, ?_, ⟨[], ?_, ?_⟩, rfl, rfl⟩
  case refine_10 =>
    intro wid hwid r
    simp [dueIds, h wid hwid r]
  all_goals simp [due, hdue, hevidence]

end

/-- **A run in a worker** completes and purges what is due exactly when nothing is eligible in any
workspace. -/
theorem purges_due_iff (stamp : Uuid → Resource → Uuid × ℤ) (settings : RetentionSettings)
    (s : RetentionState) : PurgesDue (worker stamp) settings s ↔
      ∀ wid ∈ s.db.workspaceIds, ∀ r, eligible settings s.db wid r = [] := by
  obtain ⟨hsame, hcompletes⟩ :=
    @sweep_refusing (worker stamp) settings s (.inl rfl) s.db.workspaceIds
  constructor
  · exact fun h => hcompletes.mp h.completes
  · intro h
    refine ⟨hcompletes.mpr h, ?_⟩
    unfold runAsync
    rw [hsame]
    exact deletesDue_of_nothing h

/-- A workspace with a notification, and nothing else. -/
def labNotified : RetentionState where
  db :=
    { workspaces := [(1, 0)]
      projects := []
      reports := []
      scansPurged := []
      scans := []
      toolRuns := []
      evidence := []
      aiUsage := []
      notifications := [⟨5, 1, 10⟩]
      remediationEvents := []
      assessments := []
      auditEvents := [] }
  store := []

/-- Everything before a day is over, and none is kept. -/
def labRetention : RetentionSettings := ⟨0, 500, fun _ => 100, "mbs-evidence"⟩

/-- **A run raises** at the audit event of the first deletion. -/
theorem purge_raises : ¬ PurgesDue (worker fun _ _ => (9, 200)) labRetention labNotified := by
  intro h
  have hcompletes := h.completes
  revert hcompletes
  decide

end ScanPlatform.Retention
