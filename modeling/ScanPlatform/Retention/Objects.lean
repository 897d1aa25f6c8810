import ScanPlatform.Retention.Due

/-!
# The objects of what is purged

After its commit, the purge of a workspace deletes the objects under the prefixes of the tool runs
that it has deleted, and those that the deleted rows address by their URIs.

* `addresses`, `validateKey_of_addresses`: the object that a URI addresses, and that its key is
  clean;
* **`mem_cleanupStorage_iff`**: what a cleanup leaves;
* `PrimaryKeys`, `PrimaryKeys.report_due`, `PrimaryKeys.scan_due`: the keys of the tables, and that
  what is due in a workspace is of this workspace;
* `WorkspacePurged`, **`purgeWorkspace_eq_ok`**: what the purge of a workspace deletes and captures;
* `passes`, **`purgeWorkspace_isOk`**: the workspaces whose purge does not raise.
-/

set_option autoImplicit false

namespace ScanPlatform.Retention

open Newest PyStr

/-! ## The storage -/

/-- The object that `delete` is given for a URI. -/
def addresses (uri : String) (o : StoredObject) : Bool :=
  match parseS3 uri with
  | none => false
  | some parsed =>
    match validateKey parsed.key with
    | none => false
    | some key => o = ⟨parsed.bucket, key⟩

/-- The object is under the prefix of a tool run. -/
def underToolRun (settings : RetentionSettings) (id : Uuid) (o : StoredObject) : Bool :=
  o.bucket = settings.bucketEvidence && startsWith o.key (toolRunPrefix id)

theorem deleteUri_eq (store : List StoredObject) (uri : String) :
    deleteUri store uri = store.filter fun o => !addresses uri o := by
  unfold deleteUri addresses
  cases parseS3 uri with
  | none => simp
  | some parsed =>
    dsimp only
    cases validateKey parsed.key with
    | none => simp
    | some key => exact List.filter_congr fun o _ => by simp

/-- What is accepted is accepted once more. -/
theorem validateKey_validateKey {key cleaned : String} (h : validateKey key = some cleaned) :
    validateKey cleaned = some cleaned := by
  unfold validateKey at h ⊢
  dsimp only at h ⊢
  split_ifs at h with hunsafe
  obtain rfl := Option.some.inj h
  rw [strip_strip, if_neg hunsafe]

/-- Only an object with a clean key is addressed. -/
theorem validateKey_of_addresses {uri : String} {o : StoredObject} (h : addresses uri o = true) :
    validateKey o.key = some o.key := by
  unfold addresses at h
  cases hparse : parseS3 uri with
  | none => simp [hparse] at h
  | some parsed =>
    cases hkey : validateKey parsed.key with
    | none => simp [hparse, hkey] at h
    | some key =>
      have ho : o = ⟨parsed.bucket, key⟩ := by simpa [hparse, hkey] using h
      rw [ho]
      exact validateKey_validateKey hkey

/-- A clean key is addressed by the URI that names it. -/
theorem addresses_of_parseS3 {uri : String} {o : StoredObject} (h : parseS3 uri = some o)
    (hkey : validateKey o.key = some o.key) : addresses uri o = true := by
  unfold addresses
  simp [h, hkey]

/-- What is left by deletions one after the other. -/
theorem mem_foldl_filter {α β : Type} (gone : β → α → Bool) (l : List β) {store : List α} {a : α} :
    a ∈ l.foldl (fun store b => store.filter fun a => !gone b a) store ↔
      a ∈ store ∧ ∀ b ∈ l, gone b a = false := by
  induction l generalizing store with
  | nil => simp
  | cons b l ih =>
    rw [List.foldl_cons, ih, List.mem_filter, List.forall_mem_cons, and_assoc, Bool.not_eq_true']

/-- **What a cleanup leaves.** -/
theorem mem_cleanupStorage_iff {settings : RetentionSettings} {targets : StorageTargets}
    {store : List StoredObject} {o : StoredObject} :
    o ∈ cleanupStorage settings targets store ↔ o ∈ store ∧
      (∀ id ∈ targets.toolRunIds, underToolRun settings id o = false) ∧
      ∀ uri ∈ targets.evidenceUris ++ targets.reportUris, addresses uri o = false := by
  have hdelete : deleteUri = fun store uri => store.filter fun o => !addresses uri o := by
    funext store uri
    exact deleteUri_eq store uri
  have hprefix : o ∈ targets.toolRunIds.foldl (fun store id =>
      deletePrefix settings.bucketEvidence (toolRunPrefix id) store) store ↔
      o ∈ store ∧ ∀ id ∈ targets.toolRunIds, underToolRun settings id o = false :=
    mem_foldl_filter (underToolRun settings) _
  unfold cleanupStorage
  dsimp only
  rw [hdelete, mem_foldl_filter, hprefix, and_assoc]

/-! ## Rows of several workspaces -/

/-- The primary keys of the tables. -/
structure PrimaryKeys (db : RetentionDb) : Prop where
  workspaces : (db.workspaces.map (·.1)).Nodup
  projects : (db.projects.map (·.1)).Nodup
  reports : (db.reports.map (·.id)).Nodup
  scans : (db.scans.map (·.id)).Nodup
  toolRuns : (db.toolRuns.map (·.id)).Nodup

section

variable {settings : RetentionSettings} {db db' : RetentionDb} {wid wid' : Uuid} {r : Resource}
  {id : Uuid}

theorem among_iff {ids : List Uuid} : among ids id = true ↔ id ∈ ids := by
  simp [among]

/-- What is due is a candidate. -/
theorem exists_candidate (h : id ∈ dueIds settings db wid r) :
    ∃ c ∈ db.candidates wid r, c.1 = id := by
  obtain ⟨c, hc, rfl⟩ := List.mem_map.mp h
  have hold := (List.mem_filter.mp (List.mem_of_mem_take hc)).1
  exact ⟨c, (sortByKey_perm _).mem_iff.mp (List.mem_of_mem_take hold), rfl⟩

/-- A report that is due is one of the workspace. -/
theorem PrimaryKeys.report_due (hdb : PrimaryKeys db) {row : ReportRow} (hrow : row ∈ db.reports)
    (h : row.id ∈ dueIds settings db wid .report) :
    db.projects.any (· = (row.projectId, wid)) = true := by
  obtain ⟨c, hc, hid⟩ := exists_candidate h
  obtain ⟨row', hrow', rfl⟩ := List.mem_map.mp hc
  obtain ⟨hmem, hproject⟩ := List.mem_filter.mp hrow'
  obtain rfl := List.inj_on_of_nodup_map hdb.reports hmem hrow hid
  exact hproject

/-- A scan that is due is one of the workspace. -/
theorem PrimaryKeys.scan_due (hdb : PrimaryKeys db) {row : ScanRow} (hrow : row ∈ db.scans)
    (h : row.id ∈ dueIds settings db wid .scan) : row.workspaceId = wid := by
  obtain ⟨c, hc, hid⟩ := exists_candidate h
  obtain ⟨row', hrow', rfl⟩ := List.mem_map.mp hc
  obtain ⟨hmem, hscan⟩ := List.mem_filter.mp hrow'
  obtain rfl := List.inj_on_of_nodup_map hdb.scans hmem hrow hid
  simp only [decide_eq_true_eq] at hscan
  exact hscan.1

/-- A project is in one workspace. -/
theorem PrimaryKeys.project_unique (hdb : PrimaryKeys db) {projectId : Uuid}
    (h : db.projects.any (· = (projectId, wid)) = true)
    (h' : db.projects.any (· = (projectId, wid')) = true) : wid = wid' := by
  have hmem : (projectId, wid) ∈ db.projects := by simpa using h
  have hmem' : (projectId, wid') ∈ db.projects := by simpa using h'
  exact congrArg Prod.snd (List.inj_on_of_nodup_map hdb.projects hmem hmem' rfl)

/-- A scan is due in one workspace. -/
theorem PrimaryKeys.scan_due_unique (hdb : PrimaryKeys db)
    (h : id ∈ dueIds settings db wid .scan) (h' : id ∈ dueIds settings db wid' .scan) :
    wid = wid' := by
  obtain ⟨c, hc, hid⟩ := exists_candidate h
  obtain ⟨row, hrow, rfl⟩ := List.mem_map.mp hc
  obtain ⟨hmem, hscan⟩ := List.mem_filter.mp hrow
  simp only [decide_eq_true_eq] at hscan
  exact hscan.1.symm.trans (hdb.scan_due hmem (by rwa [show row.id = id from hid]))

end

/-! ## The purge of a workspace -/

/-- Nothing of what names objects has changed, nor who owns it. -/
structure SameObjects (db db' : RetentionDb) : Prop where
  workspaces : db'.workspaces = db.workspaces
  projects : db'.projects = db.projects
  reports : db'.reports = db.reports
  scansPurged : db'.scansPurged = db.scansPurged
  scans : db'.scans = db.scans
  toolRuns : db'.toolRuns = db.toolRuns
  evidence : db'.evidence = db.evidence

theorem SameObjects.refl (db : RetentionDb) : SameObjects db db :=
  ⟨rfl, rfl, rfl, rfl, rfl, rfl, rfl⟩

theorem SameObjects.trans {db₁ db₂ db₃ : RetentionDb} (h : SameObjects db₁ db₂)
    (h' : SameObjects db₂ db₃) : SameObjects db₁ db₃ :=
  ⟨h'.workspaces.trans h.workspaces, h'.projects.trans h.projects, h'.reports.trans h.reports,
    h'.scansPurged.trans h.scansPurged, h'.scans.trans h.scans, h'.toolRuns.trans h.toolRuns,
    h'.evidence.trans h.evidence⟩

section

variable {proc : RetentionProcess} {settings : RetentionSettings} {db : RetentionDb} {wid : Uuid}
  {r : Resource} {p : Purge}

theorem dueIds_of_nothing (h : eligible settings db wid r = []) :
    dueIds settings db wid r = [] := by
  unfold dueIds
  rw [h, List.take_nil]
  rfl

theorem selectEligible_eq (h : ¬ Refusing proc settings) :
    selectEligible settings db wid r = .ok (dueIds settings db wid r) :=
  if_neg fun hneg => h (.inr hneg)

theorem audit_eq (h : ¬ Refusing proc settings) (count : ℕ) :
    audit proc (.uuid wid) (.text wid) r count db =
      .ok { db with auditEvents := db.auditEvents ++ [auditEvent proc wid r count] } := by
  have hguard : assertInsertAllowed proc (.uuid wid) (.text wid) = .ok () :=
    if_neg fun hc => h (.inl hc.1)
  unfold audit
  rw [hguard]
  rfl

/-- What a purge of no rows leaves. -/
theorem filter_not_among_nil {α : Type} (l : List α) (f : α → Uuid) :
    l.filter (fun a => !among [] (f a)) = l :=
  List.filter_eq_self.mpr fun _ _ => rfl

/-- The other resources name no objects. -/
theorem purgeResource_other (h : ¬ Refusing proc settings) (hreport : r ≠ .report)
    (hscan : r ≠ .scan) :
    ∃ p', purgeResource proc settings (.uuid wid) (.text wid) r p = .ok p' ∧
      SameObjects p.db p'.db ∧ p'.targets = p.targets := by
  by_cases heligible : eligible settings p.db wid r = []
  · exact ⟨p, purgeResource_nothing heligible, .refl _, rfl⟩
  · unfold purgeResource
    rw [if_neg hscan]
    unfold purgeGeneric
    rw [IdValue.id_text, if_neg heligible, selectEligible_eq h]
    refine ⟨_, Checks.bind_eq_ok.mpr ⟨_, rfl, Checks.bind_eq_ok.mpr ⟨_, audit_eq h _, rfl⟩⟩, ?_,
      if_neg hreport⟩
    cases r with
    | report => exact absurd rfl hreport
    | scan => exact absurd rfl hscan
    | aiUsage | notification | remediationEvent | riskAssessment | audit =>
      exact ⟨rfl, rfl, rfl, rfl, rfl, rfl, rfl⟩

theorem foldlM_others (h : ¬ Refusing proc settings) {l : List Resource}
    (hl : ∀ r ∈ l, r ≠ .report ∧ r ≠ .scan) :
    ∃ p', l.foldlM (fun p r => purgeResource proc settings (.uuid wid) (.text wid) r p) p =
      .ok p' ∧ SameObjects p.db p'.db ∧ p'.targets = p.targets := by
  induction l generalizing p with
  | nil => exact ⟨p, rfl, .refl _, rfl⟩
  | cons r l ih =>
    rw [List.forall_mem_cons] at hl
    obtain ⟨p₁, hp₁, hsame₁, htargets₁⟩ := purgeResource_other h hl.1.1 hl.1.2
    obtain ⟨p₂, hp₂, hsame₂, htargets₂⟩ := @ih p₁ hl.2
    rw [List.foldlM_cons]
    exact ⟨p₂, Checks.bind_eq_ok.mpr ⟨p₁, hp₁, hp₂⟩, hsame₁.trans hsame₂,
      htargets₂.trans htargets₁⟩

/-- The purge of the reports. -/
theorem purgeReports (h : ¬ Refusing proc settings) :
    ∃ events, purgeResource proc settings (.uuid wid) (.text wid) .report ⟨db, .empty⟩ = .ok
      { db := { db with
          reports := db.reports.filter fun row => !among (dueIds settings db wid .report) row.id
          auditEvents := events }
        targets := { StorageTargets.empty with
          reportUris := captureReportUris db (dueIds settings db wid .report) } } := by
  by_cases heligible : eligible settings db wid .report = []
  · refine ⟨db.auditEvents, ?_⟩
    rw [purgeResource_nothing heligible, dueIds_of_nothing heligible, filter_not_among_nil]
    have hnone : captureReportUris db [] = [] := by
      simp [captureReportUris, among]
    rw [hnone]
    rfl
  · refine ⟨db.auditEvents ++
      [auditEvent proc wid .report (dueIds settings db wid .report).length], ?_⟩
    unfold purgeResource
    rw [if_neg (by decide)]
    unfold purgeGeneric
    rw [IdValue.id_text, if_neg heligible, selectEligible_eq h]
    exact Checks.bind_eq_ok.mpr ⟨_, rfl, Checks.bind_eq_ok.mpr ⟨_, audit_eq h _, rfl⟩⟩

/-- A report whose scans can be read. -/
def ReportRow.readable (row : ReportRow) : Bool := row.scanIds.items.isSome

/-- The reports of a workspace that are flagged, and the others are left alone. -/
theorem markReports_eq_ok {ids : List Uuid} {db' : RetentionDb}
    (h : markReportsWithPurgedScans wid ids db = .ok db') :
    ∃ flagged, db' = { db with scansPurged := db.scansPurged ++ flagged } ∧
      ∀ id ∈ flagged, ∃ row ∈ db.reportsOf wid, row.id = id := by
  unfold markReportsWithPurgedScans at h
  split_ifs at h
  · cases h
    exact ⟨[], by rw [List.append_nil], fun _ hid => by cases hid⟩
  · obtain ⟨flagged, hflagged, h⟩ := Checks.bind_eq_ok.mp h
    cases h
    refine ⟨_, rfl, fun id hid => ?_⟩
    obtain ⟨flag, hflag, rfl⟩ := List.mem_filterMap.mp hid
    obtain ⟨row, hrow, htoFlag⟩ := Checks.mem_of_mapM_eq_ok hflagged _ hflag
    refine ⟨row, (List.mem_filter.mp hrow).1, ?_⟩
    unfold toFlag at htoFlag
    split at htoFlag
    · cases htoFlag
    · have hid := Except.ok.inj htoFlag
      split_ifs at hid
      exact Option.some.inj hid

/-- The reports that are looked at have to be readable. -/
theorem markReports_isOk {ids : List Uuid} :
    (∃ db', markReportsWithPurgedScans wid ids db = .ok db') ↔ ids = [] ∨
      ∀ row ∈ db.reportsOf wid, among db.scansPurged row.id = false → row.readable := by
  have htoFlag : ∀ row, (∃ flag, toFlag ids row = .ok flag) ↔ row.readable = true := by
    intro row
    unfold toFlag ReportRow.readable
    cases row.scanIds.items with
    | none => simp
    | some items => simp
  unfold markReportsWithPurgedScans
  by_cases hids : ids = []
  · rw [if_pos hids]
    exact iff_of_true ⟨db, rfl⟩ (.inl hids)
  · rw [if_neg hids, or_iff_right hids]
    constructor
    · rintro ⟨db', h⟩ row hrow hflag
      obtain ⟨flagged, hflagged, -⟩ := Checks.bind_eq_ok.mp h
      refine (htoFlag row).mp (Checks.mapM_isOk.mp ⟨flagged, hflagged⟩ row ?_)
      exact List.mem_filter.mpr ⟨hrow, by rw [hflag]; rfl⟩
    · intro h
      have hrows : ∀ row ∈ (db.reportsOf wid).filter fun r => !among db.scansPurged r.id,
          ∃ flag, toFlag ids row = .ok flag := by
        intro row hrow
        obtain ⟨hmem, hflag⟩ := List.mem_filter.mp hrow
        exact (htoFlag row).mpr (h row hmem (by simpa using hflag))
      obtain ⟨flagged, hflagged⟩ := Checks.mapM_isOk.mpr hrows
      exact ⟨_, Checks.bind_eq_ok.mpr ⟨flagged, hflagged, rfl⟩⟩

/-- The evidence of the tool runs of some scans. -/
def ofScans (db : RetentionDb) (scanIds : List Uuid) (e : EvidenceRow) : Bool :=
  e.toolRunId.any (among (captureToolRunIds db scanIds))

/-- The purge of the scans. -/
theorem purgeScans_eq_ok (h : ¬ Refusing proc settings) {p' : Purge}
    (hok : purgeResource proc settings (.uuid wid) (.text wid) .scan p = .ok p') :
    ∃ (flagged : List Uuid) (events : List AuditRow),
      (∀ id ∈ flagged, ∃ row ∈ p.db.reportsOf wid, row.id = id) ∧ p' =
      { db := { p.db with
          scansPurged := p.db.scansPurged ++ flagged
          scans := p.db.scans.filter fun row => !among (dueIds settings p.db wid .scan) row.id
          toolRuns := p.db.toolRuns.filter fun row =>
            !among (dueIds settings p.db wid .scan) row.scanId
          evidence := p.db.evidence.filter fun e =>
            !ofScans p.db (dueIds settings p.db wid .scan) e
          auditEvents := events }
        targets := { p.targets with
          toolRunIds := p.targets.toolRunIds ++
            captureToolRunIds p.db (dueIds settings p.db wid .scan)
          evidenceUris := p.targets.evidenceUris ++ captureEvidenceUris p.db
            (captureToolRunIds p.db (dueIds settings p.db wid .scan)) } } := by
  by_cases heligible : eligible settings p.db wid .scan = []
  · rw [purgeResource_nothing heligible] at hok
    obtain rfl := Except.ok.inj hok
    refine ⟨[], p.db.auditEvents, fun _ hid => absurd hid List.not_mem_nil, ?_⟩
    have hruns : captureToolRunIds p.db [] = [] := by simp [captureToolRunIds, among]
    have hnone : ∀ e, ofScans p.db [] e = false := by
      intro e
      unfold ofScans
      rw [hruns]
      cases e.toolRunId <;> rfl
    have huris : captureEvidenceUris p.db [] = [] := by
      unfold captureEvidenceUris
      rw [List.map_eq_nil_iff, List.filter_eq_nil_iff]
      intro e _ he
      rw [← hruns] at he
      exact absurd he (by rw [show e.toolRunId.any _ = ofScans p.db [] e from rfl, hnone]; decide)
    rw [dueIds_of_nothing heligible, filter_not_among_nil, filter_not_among_nil, hruns, huris]
    simp [hnone]
  · unfold purgeResource at hok
    rw [if_pos rfl] at hok
    unfold purgeScans at hok
    rw [IdValue.id_text, if_neg heligible, selectEligible_eq h] at hok
    obtain ⟨ids, hids, hok⟩ := Checks.bind_eq_ok.mp hok
    obtain rfl := Except.ok.inj hids
    obtain ⟨db, hmark, hok⟩ := Checks.bind_eq_ok.mp hok
    obtain ⟨db', haudit, hok⟩ := Checks.bind_eq_ok.mp hok
    rw [audit_eq h] at haudit
    obtain rfl := Except.ok.inj haudit
    obtain rfl := Except.ok.inj hok
    obtain ⟨flagged, rfl, hflagged⟩ := markReports_eq_ok hmark
    exact ⟨flagged, _, hflagged, rfl⟩

theorem purgeScans_isOk (h : ¬ Refusing proc settings) :
    (∃ p', purgeResource proc settings (.uuid wid) (.text wid) .scan p = .ok p') ↔
      dueIds settings p.db wid .scan = [] ∨ ∀ row ∈ p.db.reportsOf wid,
        among p.db.scansPurged row.id = false → row.readable := by
  by_cases heligible : eligible settings p.db wid .scan = []
  · exact iff_of_true ⟨p, purgeResource_nothing heligible⟩ (.inl (dueIds_of_nothing heligible))
  · rw [← markReports_isOk]
    unfold purgeResource
    rw [if_pos rfl]
    unfold purgeScans
    rw [IdValue.id_text, if_neg heligible, selectEligible_eq h]
    constructor
    · rintro ⟨p', hok⟩
      obtain ⟨ids, hids, hok⟩ := Checks.bind_eq_ok.mp hok
      obtain rfl := Except.ok.inj hids
      obtain ⟨db, hmark, -⟩ := Checks.bind_eq_ok.mp hok
      exact ⟨db, hmark⟩
    · rintro ⟨db, hmark⟩
      exact ⟨_, Checks.bind_eq_ok.mpr ⟨_, rfl, Checks.bind_eq_ok.mpr ⟨db, hmark,
        Checks.bind_eq_ok.mpr ⟨_, audit_eq h _, rfl⟩⟩⟩⟩

/-- What the purge of a workspace has deleted, and captured. -/
structure WorkspacePurged (settings : RetentionSettings) (db : RetentionDb) (wid : Uuid)
    (p : Purge) : Prop where
  workspaces : p.db.workspaces = db.workspaces
  projects : p.db.projects = db.projects
  reports : p.db.reports =
    db.reports.filter fun row => !among (dueIds settings db wid .report) row.id
  scans : p.db.scans = db.scans.filter fun row => !among (dueIds settings db wid .scan) row.id
  toolRuns : p.db.toolRuns =
    db.toolRuns.filter fun row => !among (dueIds settings db wid .scan) row.scanId
  evidence : p.db.evidence =
    db.evidence.filter fun e => !ofScans db (dueIds settings db wid .scan) e
  flags : ∃ flagged, p.db.scansPurged = db.scansPurged ++ flagged ∧
    ∀ id ∈ flagged, ∃ row ∈ db.reportsOf wid, row.id = id
  targets : p.targets =
    { toolRunIds := captureToolRunIds db (dueIds settings db wid .scan)
      reportUris := captureReportUris db (dueIds settings db wid .report)
      evidenceUris := captureEvidenceUris db
        (captureToolRunIds db (dueIds settings db wid .scan)) }

end

/-- The purge of a workspace does not raise. -/
def passes (proc : RetentionProcess) (settings : RetentionSettings) (db : RetentionDb)
    (wid : Uuid) : Bool :=
  if proc.installed || settings.batchSize < 0 then
    processed.all fun r => (eligible settings db wid r).isEmpty
  else
    (dueIds settings db wid .scan).isEmpty || (db.reportsOf wid).all fun row =>
      among (dueIds settings db wid .report) row.id || among db.scansPurged row.id || row.readable

section

variable {proc : RetentionProcess} {settings : RetentionSettings} {db : RetentionDb} {wid : Uuid}

/-- The resources after the scans. -/
def afterScans : List Resource :=
  [.aiUsage, .notification, .remediationEvent, .riskAssessment, .audit]

/-- **What the purge of a workspace does** in a process that does not refuse it. -/
theorem purgeWorkspace_eq_ok (h : ¬ Refusing proc settings) {p : Purge}
    (hok : purgeWorkspace proc settings (.uuid wid) (.text wid) db = .ok p) :
    WorkspacePurged settings db wid p := by
  obtain ⟨events, hreports⟩ := @purgeReports proc settings db wid h
  rw [purgeWorkspace, show processed = .report :: .scan :: afterScans from rfl, List.foldlM_cons,
    hreports] at hok
  obtain ⟨p₁, hp₁, hok⟩ := Checks.bind_eq_ok.mp hok
  obtain rfl := Except.ok.inj hp₁
  rw [List.foldlM_cons] at hok
  obtain ⟨p₂, hp₂, hok⟩ := Checks.bind_eq_ok.mp hok
  obtain ⟨p₃, hp₃, hsame, htargets⟩ :=
    @foldlM_others proc settings wid p₂ h afterScans (by decide)
  obtain rfl := Except.ok.inj (hp₃.symm.trans hok)
  obtain ⟨flagged, events', hflagged, rfl⟩ := purgeScans_eq_ok h hp₂
  refine ⟨hsame.workspaces, hsame.projects, hsame.reports, hsame.scans, hsame.toolRuns,
    hsame.evidence, ⟨flagged, hsame.scansPurged, fun id hid => ?_⟩, htargets⟩
  obtain ⟨row, hrow, hid⟩ := hflagged id hid
  obtain ⟨hmem, hproject⟩ := List.mem_filter.mp hrow
  exact ⟨row, List.mem_filter.mpr ⟨List.mem_of_mem_filter hmem, hproject⟩, hid⟩

theorem passes_refusing (h : Refusing proc settings) :
    passes proc settings db wid = true ↔ NothingEligible settings db wid := by
  have hrefusing : (proc.installed || decide (settings.batchSize < 0)) = true := by
    simpa [Refusing] using h
  unfold passes
  rw [if_pos hrefusing, List.all_eq_true]
  exact ⟨fun hall r => List.isEmpty_iff.mp (hall r (mem_processed r)),
    fun hnothing r _ => List.isEmpty_iff.mpr (hnothing r)⟩

theorem passes_iff (h : ¬ Refusing proc settings) :
    passes proc settings db wid = true ↔ dueIds settings db wid .scan = [] ∨
      ∀ row ∈ db.reportsOf wid, among (dueIds settings db wid .report) row.id = false →
        among db.scansPurged row.id = false → row.readable := by
  have hrefusing : ¬ (proc.installed || decide (settings.batchSize < 0)) = true := by
    simpa [Refusing] using h
  unfold passes
  rw [if_neg hrefusing, Bool.or_eq_true, List.isEmpty_iff, List.all_eq_true]
  refine or_congr_right (forall₂_congr fun row _ => ?_)
  cases among (dueIds settings db wid .report) row.id <;>
    cases among db.scansPurged row.id <;> simp

/-- After the reports only the scans can raise. -/
theorem foldlM_scan_isOk (h : ¬ Refusing proc settings) (p : Purge) :
    (∃ p', (Resource.scan :: afterScans).foldlM
        (fun p r => purgeResource proc settings (.uuid wid) (.text wid) r p) p = .ok p') ↔
      ∃ p', purgeResource proc settings (.uuid wid) (.text wid) .scan p = .ok p' := by
  rw [List.foldlM_cons]
  constructor
  · rintro ⟨p', hok⟩
    obtain ⟨p₂, hp₂, -⟩ := Checks.bind_eq_ok.mp hok
    exact ⟨p₂, hp₂⟩
  · rintro ⟨p₂, hp₂⟩
    obtain ⟨p₃, hp₃, -⟩ := @foldlM_others proc settings wid p₂ h afterScans (by decide)
    exact ⟨p₃, Checks.bind_eq_ok.mpr ⟨p₂, hp₂, hp₃⟩⟩

/-- **A workspace passes** when its purge does not raise. -/
theorem purgeWorkspace_isOk :
    (∃ p, purgeWorkspace proc settings (.uuid wid) (.text wid) db = .ok p) ↔
      passes proc settings db wid = true := by
  by_cases h : Refusing proc settings
  · rw [passes_refusing h]
    constructor
    · rintro ⟨p, hok⟩
      exact ((purgeWorkspace_refusing h).mp hok).2
    · exact fun hnothing => ⟨_, (purgeWorkspace_refusing h).mpr ⟨rfl, hnothing⟩⟩
  · obtain ⟨events, hreports⟩ := @purgeReports proc settings db wid h
    rw [passes_iff h, purgeWorkspace,
      show processed = .report :: .scan :: afterScans from rfl, List.foldlM_cons, hreports]
    refine (foldlM_scan_isOk h _).trans ((purgeScans_isOk h).trans (or_congr_right ?_))
    constructor
    · intro hread row hrow hdue hflag
      obtain ⟨hmem, hproject⟩ := List.mem_filter.mp hrow
      refine hread row (List.mem_filter.mpr ⟨List.mem_filter.mpr ⟨hmem, ?_⟩, hproject⟩) hflag
      rw [hdue]
      rfl
    · intro hread row hrow hflag
      obtain ⟨hmem, hproject⟩ := List.mem_filter.mp hrow
      obtain ⟨hmem, hdue⟩ := List.mem_filter.mp hmem
      exact hread row (List.mem_filter.mpr ⟨hmem, hproject⟩) (by simpa using hdue) hflag

end

end ScanPlatform.Retention
