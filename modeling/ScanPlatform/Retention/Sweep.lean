import Mathlib.Data.List.TakeWhile
import ScanPlatform.Retention.Objects

/-!
# The objects of a run

A run goes through the workspaces until the purge of one of them raises. What is due in a workspace
does not depend on the purges of those before it, so that a run deletes what is due at its start in
the workspaces that it gets through.

* `reached`, `any_or_filter`: the objects that a run deletes, and how they split by workspaces;
* `Untouched`, `Untouched.passes_eq`: the purge of one workspace and the rows of another;
* `Swept`, **`sweep_swept`**: what a run deletes, of the rows and of the objects;
* `RemovesExactly`, `ObjectsApart`, **`removes_exactly_iff`**: a run deletes the right objects
  exactly when those that it reaches are those that only rows that are due name;
  `shared_object_removed` is a run that deletes an object of a row that stays.
-/

set_option autoImplicit false

namespace ScanPlatform.Retention

open Newest PyStr

/-! ## What is reached -/

section

variable (settings : RetentionSettings) (db : RetentionDb) (wids : List Uuid) (o : StoredObject)

/-- The object is under the prefix of a tool run of a scan that is due. -/
def underDueRun : Bool :=
  db.toolRuns.any fun t => isDue settings db wids .scan t.scanId && underToolRun settings t.id o

/-- The object of a tool run, a row of evidence or a report that is due in one of the workspaces. -/
def reached : Bool :=
  underDueRun settings db wids o ||
  (db.evidence.any fun e => isDueEvidence settings db wids e && addresses e.storageUri o) ||
  db.reports.any fun row =>
    isDue settings db wids .report row.id && row.storageUri.any (addresses · o)

end

theorem any_or {α : Type} (l : List α) (a b : α → Bool) :
    (l.any fun x => a x || b x) = (l.any a || l.any b) := by
  rw [Bool.eq_iff_iff]
  simp [and_or_left, exists_or]

/-- What two conditions select together, the second among the rows that the first has left. -/
theorem any_or_filter {α : Type} (l : List α) (a b c : α → Bool) :
    (l.any fun x => (a x || b x) && c x) =
      ((l.any fun x => a x && c x) || (l.filter fun x => !a x).any fun x => b x && c x) := by
  rw [List.any_filter, ← any_or]
  congr 1
  funext x
  cases a x <;> cases c x <;> rfl

section

variable {settings : RetentionSettings} {db : RetentionDb} {wid : Uuid} {wids : List Uuid}

theorem isDue_cons (r : Resource) (id : Uuid) :
    isDue settings db (wid :: wids) r id =
      (among (dueIds settings db wid r) id || isDue settings db wids r id) :=
  List.any_cons

theorem among_captureToolRunIds (ids : List Uuid) (id : Uuid) :
    among (captureToolRunIds db ids) id =
      db.toolRuns.any fun t => t.id = id && among ids t.scanId := by
  unfold captureToolRunIds
  rw [among, List.any_map, List.any_filter]
  exact congrArg db.toolRuns.any (funext fun t => Bool.and_comm _ _)

theorem isDueEvidence_cons (e : EvidenceRow) :
    isDueEvidence settings db (wid :: wids) e =
      (ofScans db (dueIds settings db wid .scan) e || isDueEvidence settings db wids e) := by
  unfold isDueEvidence ofScans
  cases e.toolRunId with
  | none => rfl
  | some id =>
    simp only [Option.any_some, among_captureToolRunIds, isDue_cons, Bool.and_or_distrib_left]
    exact any_or _ _ _

/-- A workspace alone. -/
theorem isDue_singleton (r : Resource) (id : Uuid) :
    isDue settings db [wid] r id = among (dueIds settings db wid r) id := by
  rw [isDue_cons]
  exact Bool.or_false _

theorem isDueEvidence_singleton (e : EvidenceRow) :
    isDueEvidence settings db [wid] e = ofScans db (dueIds settings db wid .scan) e := by
  rw [isDueEvidence_cons]
  have hnil : isDueEvidence settings db [] e = false :=
    isDueEvidence_of_nothing (fun _ h => by cases h) e
  rw [hnil, Bool.or_false]

end

/-! ## One workspace and the others -/

/-- The second database has the same of a workspace, as far as its purge reads it. -/
structure Untouched (db db' : RetentionDb) (wid : Uuid) : Prop where
  reports : db'.reportsOf wid = db.reportsOf wid
  scans : db'.candidates wid .scan = db.candidates wid .scan
  flags : ∀ row ∈ db.reportsOf wid, among db'.scansPurged row.id = among db.scansPurged row.id

section

variable {proc : RetentionProcess} {settings : RetentionSettings} {db db' : RetentionDb}
  {wid wid' : Uuid} {wids : List Uuid} {p : Purge}

theorem Untouched.report_due (h : Untouched db db' wid) :
    dueIds settings db' wid .report = dueIds settings db wid .report := by
  unfold dueIds eligible RetentionDb.candidates
  rw [h.reports]

theorem Untouched.scan_due (h : Untouched db db' wid) :
    dueIds settings db' wid .scan = dueIds settings db wid .scan := by
  unfold dueIds eligible
  rw [h.scans]

theorem Untouched.passes_eq (hproc : ¬ Refusing proc settings) (h : Untouched db db' wid) :
    passes proc settings db' wid = passes proc settings db wid := by
  rw [Bool.eq_iff_iff, passes_iff hproc, passes_iff hproc, h.scan_due, h.report_due, h.reports]
  refine or_congr_right (forall₂_congr fun row hrow => ?_)
  rw [h.flags row hrow]

/-- **The purge of a workspace** leaves the others alone. -/
theorem WorkspacePurged.untouched (keys : PrimaryKeys db) (h : WorkspacePurged settings db wid p)
    (hne : wid' ≠ wid) : Untouched db p.db wid' := by
  refine ⟨?_, ?_, ?_⟩
  · unfold RetentionDb.reportsOf
    rw [h.projects, h.reports, List.filter_filter]
    refine List.filter_congr fun row hrow => ?_
    cases hproject : db.projects.any (· = (row.projectId, wid')) with
    | false => rfl
    | true =>
      have hdue : among (dueIds settings db wid .report) row.id = false := by
        refine Bool.eq_false_iff.mpr fun hdue => hne ?_
        exact keys.project_unique hproject (keys.report_due hrow (among_iff.mp hdue))
      rw [hdue]
      rfl
  · unfold RetentionDb.candidates
    rw [h.scans, List.filter_filter]
    refine congrArg (List.map _) (List.filter_congr fun row hrow => ?_)
    by_cases hscan : row.workspaceId = wid'
    · have hdue : among (dueIds settings db wid .scan) row.id = false := by
        refine Bool.eq_false_iff.mpr fun hdue => hne ?_
        exact hscan.symm.trans (keys.scan_due hrow (among_iff.mp hdue))
      rw [hdue, Bool.not_false, Bool.and_true]
    · simp [hscan]
  · intro row hrow
    obtain ⟨flagged, hflags, hflagged⟩ := h.flags
    have hnone : among flagged row.id = false := by
      refine Bool.eq_false_iff.mpr fun hflag => hne ?_
      obtain ⟨row', hrow', hid⟩ := hflagged row.id (among_iff.mp hflag)
      obtain ⟨hmem, hproject⟩ := List.mem_filter.mp hrow
      obtain ⟨hmem', hproject'⟩ := List.mem_filter.mp hrow'
      obtain rfl := List.inj_on_of_nodup_map keys.reports hmem' hmem hid
      exact keys.project_unique hproject hproject'
    rw [hflags]
    exact List.any_append.trans (by rw [show flagged.any _ = false from hnone, Bool.or_false]; rfl)

/-- A purge keeps the keys. -/
theorem WorkspacePurged.keys (keys : PrimaryKeys db) (h : WorkspacePurged settings db wid p) :
    PrimaryKeys p.db := by
  refine ⟨?_, ?_, ?_, ?_, ?_⟩
  · rw [h.workspaces]
    exact keys.workspaces
  · rw [h.projects]
    exact keys.projects
  · rw [h.reports]
    exact keys.reports.sublist (List.filter_sublist.map _)
  · rw [h.scans]
    exact keys.scans.sublist (List.filter_sublist.map _)
  · rw [h.toolRuns]
    exact keys.toolRuns.sublist (List.filter_sublist.map _)

/-- What is due in the others. -/
theorem WorkspacePurged.isDue_others (keys : PrimaryKeys db)
    (h : WorkspacePurged settings db wid p) (hwids : wid ∉ wids) (id : Uuid) :
    isDue settings p.db wids .report id = isDue settings db wids .report id ∧
      isDue settings p.db wids .scan id = isDue settings db wids .scan id := by
  induction wids with
  | nil => exact ⟨rfl, rfl⟩
  | cons wid' wids ih =>
    obtain ⟨hne, hwids⟩ := not_or.mp (mt List.mem_cons.mpr hwids)
    have huntouched := h.untouched keys (Ne.symm hne)
    rw [isDue_cons, isDue_cons, isDue_cons, isDue_cons, huntouched.report_due,
      huntouched.scan_due, (ih hwids).1, (ih hwids).2]
    exact ⟨rfl, rfl⟩

/-- A scan that is due in the others is not due here. -/
theorem PrimaryKeys.scan_due_others (keys : PrimaryKeys db) (hwids : wid ∉ wids) {id : Uuid}
    (h : isDue settings db wids .scan id = true) :
    among (dueIds settings db wid .scan) id = false := by
  obtain ⟨wid', hmem, hdue⟩ := List.any_eq_true.mp h
  refine Bool.eq_false_iff.mpr fun hdue' => hwids ?_
  rwa [keys.scan_due_unique (among_iff.mp hdue') (among_iff.mp hdue)]

theorem WorkspacePurged.isDueEvidence_others (keys : PrimaryKeys db)
    (h : WorkspacePurged settings db wid p) (hwids : wid ∉ wids) (e : EvidenceRow) :
    isDueEvidence settings p.db wids e = isDueEvidence settings db wids e := by
  unfold isDueEvidence
  congr 1
  funext id
  rw [h.toolRuns, List.any_filter]
  congr 1
  funext t
  rw [(h.isDue_others keys hwids _).2]
  cases hdue : isDue settings db wids .scan t.scanId with
  | false => simp
  | true => simp [keys.scan_due_others hwids hdue]

/-- **What a run reaches** is what it reaches in its first workspace, and after its purge. -/
theorem WorkspacePurged.reached_cons (keys : PrimaryKeys db)
    (h : WorkspacePurged settings db wid p) (hwids : wid ∉ wids) (o : StoredObject) :
    reached settings db (wid :: wids) o =
      (reached settings db [wid] o || reached settings p.db wids o) := by
  unfold reached underDueRun
  simp only [isDue_singleton, isDueEvidence_singleton]
  simp only [isDue_cons, isDueEvidence_cons, any_or_filter, h.toolRuns, h.evidence, h.reports,
    (h.isDue_others keys hwids _).1, (h.isDue_others keys hwids _).2,
    h.isDueEvidence_others keys hwids]
  ac_rfl

/-- The cleanup of a workspace deletes what is reached in it. -/
theorem WorkspacePurged.mem_cleanup_iff (h : WorkspacePurged settings db wid p)
    {store : List StoredObject} {o : StoredObject} :
    o ∈ cleanupStorage settings p.targets store ↔
      o ∈ store ∧ reached settings db [wid] o = false := by
  have htoolRuns : (∀ id ∈ captureToolRunIds db (dueIds settings db wid .scan),
      underToolRun settings id o = false) ↔ underDueRun settings db [wid] o = false := by
    rw [captureToolRunIds, List.forall_mem_map]
    simp [underDueRun, isDue_singleton]
  have hevidence : (∀ uri ∈ captureEvidenceUris db
      (captureToolRunIds db (dueIds settings db wid .scan)), addresses uri o = false) ↔
      (db.evidence.any fun e =>
        isDueEvidence settings db [wid] e && addresses e.storageUri o) = false := by
    rw [captureEvidenceUris, List.forall_mem_map]
    simp [isDueEvidence_singleton, ofScans]
  have hreports : (∀ uri ∈ captureReportUris db (dueIds settings db wid .report),
      addresses uri o = false) ↔ (db.reports.any fun row =>
        isDue settings db [wid] .report row.id && row.storageUri.any (addresses · o)) = false := by
    simp only [captureReportUris, List.mem_filterMap, List.mem_filter, List.any_eq_false,
      isDue_singleton, Bool.and_eq_true, Bool.not_eq_true, not_and]
    constructor
    · intro h row hrow hdue
      cases huri : row.storageUri with
      | none => rfl
      | some uri => exact h uri ⟨row, ⟨hrow, hdue⟩, huri⟩
    · rintro h uri ⟨row, ⟨hrow, hdue⟩, huri⟩
      have hnone := h row hrow hdue
      rw [huri] at hnone
      exact hnone
  rw [mem_cleanupStorage_iff, h.targets, List.forall_mem_append, htoolRuns, hevidence, hreports,
    reached, Bool.or_eq_false_iff, Bool.or_eq_false_iff, and_assoc]

end

/-! ## A run -/

/-- What a run has deleted that got through these workspaces. -/
structure Swept (settings : RetentionSettings) (wids : List Uuid)
    (s s' : RetentionState) : Prop where
  reports : s'.db.reports =
    s.db.reports.filter fun row => !isDue settings s.db wids .report row.id
  evidence : s'.db.evidence =
    s.db.evidence.filter fun e => !isDueEvidence settings s.db wids e
  store : ∀ o, o ∈ s'.store ↔ o ∈ s.store ∧ reached settings s.db wids o = false

section

variable {proc : RetentionProcess} {settings : RetentionSettings} {wid : Uuid} {wids : List Uuid}
  {s s' : RetentionState} {p : Purge}

/-- Where nothing is eligible nothing is deleted. -/
theorem Swept.of_nothing (h : ∀ wid ∈ wids, NothingEligible settings s.db wid) :
    Swept settings wids s s := by
  have hdue := isDue_of_nothing h
  have hevidence := isDueEvidence_of_nothing h
  refine ⟨?_, ?_, fun o => ?_⟩
  · simp [hdue]
  · simp [hevidence]
  · simp [reached, underDueRun, hdue, hevidence]

/-- The first workspace, and the rest of the run. -/
theorem Swept.cons (keys : PrimaryKeys s.db) (h : WorkspacePurged settings s.db wid p)
    (hwids : wid ∉ wids)
    (hrest : Swept settings wids ⟨p.db, cleanupStorage settings p.targets s.store⟩ s') :
    Swept settings (wid :: wids) s s' := by
  refine ⟨?_, ?_, fun o => ?_⟩
  · rw [hrest.reports, h.reports, List.filter_filter]
    refine List.filter_congr fun row _ => ?_
    rw [isDue_cons, (h.isDue_others keys hwids _).1, Bool.not_or, Bool.and_comm]
  · rw [hrest.evidence, h.evidence, List.filter_filter]
    refine List.filter_congr fun e _ => ?_
    rw [isDueEvidence_cons, h.isDueEvidence_others keys hwids, Bool.not_or, Bool.and_comm]
  · rw [hrest.store, h.mem_cleanup_iff, h.reached_cons keys hwids, Bool.or_eq_false_iff, and_assoc]

/-- The purge of a workspace does not change which of the others pass. -/
theorem WorkspacePurged.takeWhile_passes (hproc : ¬ Refusing proc settings)
    (keys : PrimaryKeys s.db) (h : WorkspacePurged settings s.db wid p) (hwids : wid ∉ wids) :
    wids.takeWhile (passes proc settings p.db) = wids.takeWhile (passes proc settings s.db) := by
  induction wids with
  | nil => rfl
  | cons wid' wids ih =>
    obtain ⟨hne, hwids⟩ := not_or.mp (mt List.mem_cons.mpr hwids)
    rw [List.takeWhile_cons, List.takeWhile_cons, ih hwids,
      (h.untouched keys (Ne.symm hne)).passes_eq hproc]

/-- **A run** deletes what is due at its start in the workspaces before the first that raises. -/
theorem sweep_swept (keys : PrimaryKeys s.db) (hwids : wids.Nodup) :
    Swept settings (wids.takeWhile (passes proc settings s.db)) s
      (sweep proc settings wids s).1 := by
  by_cases hproc : Refusing proc settings
  · rw [(sweep_refusing hproc wids).1]
    exact .of_nothing fun wid hwid => (passes_refusing hproc).mp (List.mem_takeWhile_imp hwid)
  · induction wids generalizing s with
    | nil => exact .of_nothing fun _ h => by cases h
    | cons wid wids ih =>
      obtain ⟨hwid, hwids⟩ := List.nodup_cons.mp hwids
      have hpasses := @purgeWorkspace_isOk proc settings s.db wid
      unfold sweep
      cases hpurge : purgeWorkspace proc settings (.uuid wid) (.text wid) s.db with
      | error e =>
        have hraises : ¬ passes proc settings s.db wid = true := by
          rw [← hpasses, hpurge]
          rintro ⟨p, hp⟩
          cases hp
        rw [List.takeWhile_cons_of_neg hraises]
        exact .of_nothing fun _ h => by cases h
      | ok p =>
        have h := purgeWorkspace_eq_ok hproc hpurge
        have hrest :=
          @ih ⟨p.db, cleanupStorage settings p.targets s.store⟩ (h.keys keys) hwids
        rw [h.takeWhile_passes hproc keys hwid] at hrest
        rw [List.takeWhile_cons_of_pos (hpasses.mp ⟨p, hpurge⟩)]
        exact .cons keys h (fun hmem => hwid (List.takeWhile_subset _ hmem)) hrest

/-- `list_workspace_ids` has every workspace once. -/
theorem PrimaryKeys.workspaceIds_nodup (keys : PrimaryKeys s.db) : s.db.workspaceIds.Nodup := by
  have hperm : (s.db.workspaceIds).Perm (s.db.workspaces.map (·.1)) := by
    unfold RetentionDb.workspaceIds
    exact (sortByKey_perm _).map _
  exact hperm.nodup_iff.mpr keys.workspaces

end

/-! ## The right objects -/

/-- `storage_uri` names the object. -/
def EvidenceRow.names (e : EvidenceRow) (o : StoredObject) : Bool := parseS3 e.storageUri = some o

def ReportRow.names (row : ReportRow) (o : StoredObject) : Bool :=
  row.storageUri.any fun uri => parseS3 uri = some o

/-- A row of evidence or a report names the object. -/
def RetentionDb.names (db : RetentionDb) (o : StoredObject) : Bool :=
  db.evidence.any (·.names o) || db.reports.any (·.names o)

/-- A run deletes an object exactly when it deletes the last row that names it. -/
def RemovesExactly (proc : RetentionProcess) (settings : RetentionSettings)
    (s : RetentionState) : Prop :=
  ∀ o ∈ s.store, o ∉ (runAsync proc settings s).1.store ↔
    s.db.names o = true ∧ (runAsync proc settings s).1.db.names o = false

section

variable (settings : RetentionSettings) (db : RetentionDb) (wids : List Uuid) (o : StoredObject)

/-- A row that is due names the object. -/
def dueNames : Bool :=
  (db.evidence.any fun e => isDueEvidence settings db wids e && e.names o) ||
  db.reports.any fun row => isDue settings db wids .report row.id && row.names o

/-- A row that is not due names the object. -/
def keptNames : Bool :=
  (db.evidence.any fun e => !isDueEvidence settings db wids e && e.names o) ||
  db.reports.any fun row => !isDue settings db wids .report row.id && row.names o

end

/-- The workspaces that a run gets through. -/
def purgedIds (proc : RetentionProcess) (settings : RetentionSettings) (db : RetentionDb) :
    List Uuid :=
  db.workspaceIds.takeWhile (passes proc settings db)

/-- What a run reaches is named by rows that are due, and by no others; and what only such rows name
has a key that the storage takes, or is of a tool run. -/
structure ObjectsApart (proc : RetentionProcess) (settings : RetentionSettings)
    (s : RetentionState) : Prop where
  unshared : ∀ o ∈ s.store, reached settings s.db (purgedIds proc settings s.db) o = true →
    keptNames settings s.db (purgedIds proc settings s.db) o = false
  named : ∀ o ∈ s.store, reached settings s.db (purgedIds proc settings s.db) o = true →
    dueNames settings s.db (purgedIds proc settings s.db) o = true
  clean : ∀ o ∈ s.store, dueNames settings s.db (purgedIds proc settings s.db) o = true →
    keptNames settings s.db (purgedIds proc settings s.db) o = false →
      validateKey o.key = some o.key ∨
        underDueRun settings s.db (purgedIds proc settings s.db) o = true

section

variable {settings : RetentionSettings} {db : RetentionDb} {wids : List Uuid}
  {s s' : RetentionState} {o : StoredObject}

/-- **No object of a row that is due is left behind**, if its key is clean. -/
theorem reached_of_dueNames (h : dueNames settings db wids o = true)
    (hkey : validateKey o.key = some o.key) : reached settings db wids o = true := by
  unfold dueNames at h
  unfold reached
  rw [Bool.or_eq_true] at h ⊢
  rcases h with hevidence | hreports
  · obtain ⟨e, he, hdue⟩ := List.any_eq_true.mp hevidence
    rw [Bool.and_eq_true, EvidenceRow.names, decide_eq_true_eq] at hdue
    rw [Bool.or_eq_true]
    refine .inl (.inr (List.any_eq_true.mpr ⟨e, he, ?_⟩))
    rw [hdue.1, addresses_of_parseS3 hdue.2 hkey]
    rfl
  · obtain ⟨row, hrow, hdue⟩ := List.any_eq_true.mp hreports
    rw [Bool.and_eq_true, ReportRow.names, Option.any_eq_true] at hdue
    obtain ⟨hdue, uri, huri, hparse⟩ := hdue
    refine .inr (List.any_eq_true.mpr ⟨row, hrow, ?_⟩)
    rw [hdue, huri]
    exact addresses_of_parseS3 (of_decide_eq_true hparse) hkey

/-- What is reached has a clean key, or is of a tool run. -/
theorem clean_of_reached (h : reached settings db wids o = true) :
    validateKey o.key = some o.key ∨ underDueRun settings db wids o = true := by
  unfold reached at h
  rw [Bool.or_eq_true, Bool.or_eq_true] at h
  rcases h with (hrun | hevidence) | hreports
  · exact .inr hrun
  · obtain ⟨e, -, hdue⟩ := List.any_eq_true.mp hevidence
    rw [Bool.and_eq_true] at hdue
    exact .inl (validateKey_of_addresses hdue.2)
  · obtain ⟨row, -, hdue⟩ := List.any_eq_true.mp hreports
    rw [Bool.and_eq_true, Option.any_eq_true] at hdue
    obtain ⟨-, uri, -, haddresses⟩ := hdue
    exact .inl (validateKey_of_addresses haddresses)

theorem names_eq (settings : RetentionSettings) (db : RetentionDb) (wids : List Uuid)
    (o : StoredObject) :
    db.names o = (dueNames settings db wids o || keptNames settings db wids o) := by
  have hsplit : ∀ {α : Type} (l : List α) (a b : α → Bool),
      l.any b = ((l.any fun x => a x && b x) || l.any fun x => !a x && b x) := by
    intro α l a b
    rw [← any_or]
    congr 1
    funext x
    cases a x <;> simp
  unfold RetentionDb.names dueNames keptNames
  rw [hsplit db.evidence (isDueEvidence settings db wids),
    hsplit db.reports fun row => isDue settings db wids .report row.id]
  ac_rfl

/-- What names an object after a run. -/
theorem Swept.names_eq (h : Swept settings wids s s') (o : StoredObject) :
    s'.db.names o = keptNames settings s.db wids o := by
  unfold RetentionDb.names keptNames
  rw [h.evidence, h.reports, List.any_filter, List.any_filter]

end

section

variable {proc : RetentionProcess} {settings : RetentionSettings} {s : RetentionState}

/-- **What a whole run deletes.** -/
theorem runAsync_swept (keys : PrimaryKeys s.db) :
    Swept settings (purgedIds proc settings s.db) s (runAsync proc settings s).1 :=
  sweep_swept keys keys.workspaceIds_nodup

/-- An object that a row that is due shares with one that stays is deleted from under the latter. -/
theorem shared_lost (keys : PrimaryKeys s.db) {o : StoredObject}
    (hkey : validateKey o.key = some o.key)
    (hdue : dueNames settings s.db (purgedIds proc settings s.db) o = true)
    (hkept : keptNames settings s.db (purgedIds proc settings s.db) o = true) :
    o ∉ (runAsync proc settings s).1.store ∧
      (runAsync proc settings s).1.db.names o = true := by
  have hswept := @runAsync_swept proc settings s keys
  refine ⟨fun ho => ?_, (hswept.names_eq o).trans hkept⟩
  have hreached := ((hswept.store o).mp ho).2
  rw [reached_of_dueNames hdue hkey] at hreached
  cases hreached

end

/-- **A run removes the right objects** exactly when those that it reaches are those that only rows
that are due name. -/
theorem removes_exactly_iff (proc : RetentionProcess) (settings : RetentionSettings)
    (s : RetentionState) (keys : PrimaryKeys s.db) :
    RemovesExactly proc settings s ↔ ObjectsApart proc settings s := by
  have hswept := @runAsync_swept proc settings s keys
  have hobject : ∀ o ∈ s.store, (o ∉ (runAsync proc settings s).1.store ↔
      s.db.names o = true ∧ (runAsync proc settings s).1.db.names o = false) ↔
      (reached settings s.db (purgedIds proc settings s.db) o = true ↔
        dueNames settings s.db (purgedIds proc settings s.db) o = true ∧
        keptNames settings s.db (purgedIds proc settings s.db) o = false) := by
    intro o ho
    rw [hswept.store, hswept.names_eq, names_eq settings s.db (purgedIds proc settings s.db) o]
    cases reached settings s.db (purgedIds proc settings s.db) o <;>
      cases dueNames settings s.db (purgedIds proc settings s.db) o <;>
      cases keptNames settings s.db (purgedIds proc settings s.db) o <;> simp [ho]
  constructor
  · intro h
    have hreached := fun o ho => (hobject o ho).mp (h o ho)
    exact ⟨fun o ho hr => ((hreached o ho).mp hr).2, fun o ho hr => ((hreached o ho).mp hr).1,
      fun o ho hdue hkept => clean_of_reached ((hreached o ho).mpr ⟨hdue, hkept⟩)⟩
  · intro h o ho
    refine (hobject o ho).mpr ⟨fun hr => ⟨h.named o ho hr, h.unshared o ho hr⟩, ?_⟩
    rintro ⟨hdue, hkept⟩
    rcases h.clean o ho hdue hkept with hkey | hrun
    · exact reached_of_dueNames hdue hkey
    · rw [reached, hrun]
      rfl

/-- The object of `store_screenshot`, for a content with this checksum. -/
def storeScreenshot (bucket : String) (vulnerabilityId : Uuid) (checksum : String) :
    StoredObject where
  bucket := bucket
  key := "vulnerabilities/" ++ vulnerabilityId.str ++ "/screenshot-" ++ upTo 16 checksum ++ ".png"

/-- The `storage_uri` of an object that has been stored. -/
def StoredObject.uri (o : StoredObject) : String := "s3://" ++ o.bucket ++ "/" ++ o.key

/-- Two scans of a workspace, of which the newer is kept, each with a screenshot. -/
def labScreenshots (older newer : StoredObject) : RetentionState where
  db :=
    { workspaces := [(1, 0)]
      projects := []
      reports := []
      scansPurged := []
      scans := [⟨11, 1, .completed, 10, some 10⟩, ⟨12, 1, .completed, 20, some 20⟩]
      toolRuns := [⟨21, 11⟩, ⟨22, 12⟩]
      evidence := [⟨some 21, older.uri⟩, ⟨some 22, newer.uri⟩]
      aiUsage := []
      notifications := []
      remediationEvents := []
      assessments := []
      auditEvents := [] }
  store := [older, newer].dedup

/-- A process without the guard. -/
def labCommand : RetentionProcess := ⟨false, fun _ _ => (9, 200)⟩

def labKeepOne : RetentionSettings := ⟨1, 500, fun _ => 100, "mbs-evidence"⟩

theorem removes_exactly_iff_apart :
    RemovesExactly labCommand labKeepOne
      (labScreenshots ⟨"mbs-evidence", "a.png"⟩ ⟨"mbs-evidence", "b.png"⟩) :=
  (removes_exactly_iff labCommand labKeepOne
    (labScreenshots ⟨"mbs-evidence", "a.png"⟩ ⟨"mbs-evidence", "b.png"⟩)
    ⟨by decide, by decide, by decide, by decide, by decide⟩).mpr
    ⟨by decide, by decide, by decide⟩

def labShot : StoredObject := storeScreenshot "mbs-evidence" 7 "aa"

/-- **An object of a row that stays is deleted**: the page has not changed between two scans, so
that both have the same screenshot. -/
theorem shared_object_removed :
    ¬ RemovesExactly labCommand labKeepOne (labScreenshots labShot labShot) := by
  intro h
  have hremoved := (h labShot (by decide)).mp (by decide +kernel)
  exact absurd hremoved.2 (by decide +kernel)

end ScanPlatform.Retention
