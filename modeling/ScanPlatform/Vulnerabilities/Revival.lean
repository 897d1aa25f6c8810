import ScanPlatform.Vulnerabilities.History
import ScanPlatform.Vulnerabilities.Regression

/-!
# Items of issues that are detected again

An item covers all findings of an issue, and ingestion reopens it when one of them was fixed.

* `FindingsDb.Coherent`, `issues_cases`, **`coherent_step`**: an item is the one of its issue, in
  the workspace of its project, and stays so;
* `itemsAfter_cases`, `itemsAfter_unfixed`, `itemsAfter_fixed`: what ingestion makes of an item;
* `RevivesItem`, `FixedBefore`, **`regressions_revive_iff`**: when the item of an issue that is
  detected is work again.
-/

set_option autoImplicit false

namespace ScanPlatform

open CondMachine UnitOfWork

/-! ## Items and their issues -/

/-- Every item is the one of its issue, in the workspace of its project. -/
def FindingsDb.Coherent (db : FindingsDb) : Prop :=
  ∀ id, ∀ item ∈ db.items id, db.issues (item.projectId, item.issueKey) = some id ∧
    ∃ project ∈ db.projects item.projectId, project.workspaceId = item.workspaceId

section

variable {svc : IngestServices} {moment : Moment} {call : FindingCall} {db db' : FindingsDb}

/-- The issues of all items stay, and projects at most appear. -/
theorem FindingsDb.Coherent.of_issues (h : db.Coherent)
    (hitems : ∀ id, (db'.items id).map (·.issue) = (db.items id).map (·.issue))
    (hissues : db'.issues = db.issues)
    (hprojects : ∀ id, ∀ project ∈ db.projects id, project ∈ db'.projects id) : db'.Coherent := by
  intro id item hitem
  have hissue := hitems id
  rw [hitem, Option.map_some, eq_comm, Option.map_eq_some_iff] at hissue
  obtain ⟨item₀, hitem₀, hissue⟩ := hissue
  simp only [RemediationItem.issue, Prod.mk.injEq] at hissue
  obtain ⟨hworkspace, hproject, hkey⟩ := hissue
  obtain ⟨hindex, project, hp, hpw⟩ := h id item₀ hitem₀
  rw [hproject, hkey] at hindex
  rw [hproject] at hp
  exact ⟨hissues ▸ hindex, project, hprojects _ project hp, hpw.trans hworkspace⟩

theorem reopenItem_issue (now : ℤ) (call : RegressionCall) (db : RemediationDb) (id : Uuid) :
    (reopenItem now call db id).map (·.issue) = (db.items id).map (·.issue) := by
  unfold reopenItem
  cases hrow : regressionItem call db with
  | none => rfl
  | some row =>
    obtain ⟨j, item⟩ := row
    dsimp only
    split_ifs
    · rw [Table.set_apply]
      split_ifs with hid
      · have hissue := item.enter_sameIssue now .reopened
        rw [hid, regressionItem_eq_some hrow]
        simp [RemediationItem.issue, hissue.workspaceId, hissue.projectId, hissue.issueKey]
      · rfl
    · rfl

theorem itemsAfter_issue (svc : IngestServices) (moment : Moment) (call : FindingCall)
    (db : FindingsDb) (id : Uuid) :
    (itemsAfter svc moment call db id).map (·.issue) = (db.items id).map (·.issue) := by
  unfold itemsAfter
  cases db.finding call.key with
  | none => rfl
  | some v =>
    dsimp only
    split_ifs
    · cases db.projects call.projectId with
      | none => rfl
      | some project => exact reopenItem_issue _ _ _ _
    · rfl

/-- Apart from the creation of an item, a step changes the issue of no item. -/
theorem issues_cases {a : FindingsStep} (hstep : findingsStep svc a db = some db') :
    (∃ id issue, a = .createItem id issue) ∨
      (∀ id, (db'.items id).map (·.issue) = (db.items id).map (·.issue)) ∧
        db'.issues = db.issues ∧ ∀ id, ∀ project ∈ db.projects id, project ∈ db'.projects id := by
  cases a with
  | createItem id issue => exact .inl ⟨id, issue, rfl⟩
  | createProject id project =>
    dsimp only [findingsStep] at hstep
    split_ifs at hstep with hfree
    cases hstep
    refine .inr ⟨fun _ => rfl, rfl, fun j p hp => ?_⟩
    have hne : j ≠ id := by
      rintro rfl
      rw [Option.mem_def.mp hp] at hfree
      cases hfree
    exact (Table.set_of_ne _ _ hne).trans hp
  | createScan id workspaceId projectId targetId config now =>
    dsimp only [findingsStep] at hstep
    split_ifs at hstep
    cases hstep
    exact .inr ⟨fun _ => rfl, rfl, fun _ _ hp => hp⟩
  | scan id step =>
    obtain ⟨scans, -, rfl⟩ := Option.map_eq_some_iff.mp hstep
    exact .inr ⟨fun _ => rfl, rfl, fun _ _ hp => hp⟩
  | write members toolRuns | storeEvidence evidence | claimVerification now id workerToken =>
    cases hstep
    exact .inr ⟨fun _ => rfl, rfl, fun _ _ hp => hp⟩
  | ingest moment call =>
    obtain ⟨-, rfl⟩ := ingest_eq_some hstep
    have hkeeps := ingestWrites_keeps svc moment call db
    refine .inr ⟨fun id => ?_, hkeeps.issues, fun _ _ hp => hkeeps.projects ▸ hp⟩
    rw [hkeeps.items_eq]
    exact itemsAfter_issue svc moment call db id
  | setStatus now call =>
    obtain ⟨v, -, -, newStatus, -, rfl⟩ := setStatus_eq_ok (Checks.toOption_eq_some.mp hstep)
    exact .inr ⟨fun _ => rfl, rfl, fun _ _ hp => hp⟩
  | operation op moment =>
    obtain ⟨hexec, hprojects⟩ := operation_eq_some hstep
    have hlasting := exec_lasting hexec
    simp only [RemediationDb.lasting, Prod.mk.injEq] at hlasting
    obtain ⟨-, hissues, hitems⟩ := hlasting
    exact .inr ⟨congrFun hitems, hissues, fun _ _ hp => hprojects ▸ hp⟩

/-- **Every step keeps the items coherent.** -/
theorem coherent_step {a : FindingsStep} (h : db.Coherent)
    (hstep : findingsStep svc a db = some db') : db'.Coherent := by
  rcases issues_cases hstep with ⟨id, issue, rfl⟩ | ⟨hitems, hissues, hprojects⟩
  · have hc := itemCreated hstep
    intro j item hitem
    rw [hc.items, Option.mem_def, Table.set_apply] at hitem
    rw [hc.issues, hc.projects]
    split_ifs at hitem with hj
    · cases hitem
      exact ⟨hj ▸ Table.set_self _ _ _, hc.project⟩
    · obtain ⟨hindex, hproject⟩ := h j item hitem
      refine ⟨?_, hproject⟩
      rw [Table.set_of_ne, hindex]
      intro heq
      rw [heq, hc.untracked] at hindex
      cases hindex
  · exact h.of_issues hitems hissues hprojects

/-- No item is lost, nor does it change its issue. -/
theorem item_kept {a : FindingsStep} (hstep : findingsStep svc a db = some db') {id : Uuid}
    {item : RemediationItem} (hitem : db.items id = some item) :
    ∃ item' ∈ db'.items id, item'.issue = item.issue := by
  rcases issues_cases hstep with ⟨j, issue, rfl⟩ | ⟨hitems, -, -⟩
  · have hc := itemCreated hstep
    have hne : id ≠ j := by
      rintro rfl
      rw [hc.fresh] at hitem
      cases hitem
    exact ⟨item, by rw [hc.items, Option.mem_def, Table.set_of_ne _ _ hne, hitem], rfl⟩
  · have hissue := hitems id
    rw [hitem, Option.map_some] at hissue
    exact Option.map_eq_some_iff.mp hissue

theorem coherent_empty : FindingsDb.empty.Coherent := fun _ _ h => by cases h

/-! ## What ingestion makes of an item -/

theorem itemsAfter_unfixed (h : ∀ v ∈ db.finding call.key, v.status ≠ .fixed) :
    itemsAfter svc moment call db = db.items := by
  unfold itemsAfter
  cases hrow : db.finding call.key with
  | none => rfl
  | some v => exact if_neg (h v hrow)

theorem reopenItem_cases {now : ℤ} {call : RegressionCall} {db : RemediationDb} {id : Uuid}
    {item : RemediationItem} (h : reopenItem now call db id = some item) :
    db.items id = some item ∨ item.status = .reopened := by
  unfold reopenItem at h
  cases hrow : regressionItem call db with
  | none =>
    rw [hrow] at h
    exact .inl h
  | some row =>
    rw [hrow] at h
    dsimp only at h
    split_ifs at h
    · rw [Table.set_apply] at h
      split_ifs at h
      · cases h
        exact .inr (RemediationItem.enter_status _ _ _)
      · exact .inl h
    · exact .inl h

/-- An item stays, or is reopened. -/
theorem itemsAfter_cases {id : Uuid} {item : RemediationItem}
    (h : itemsAfter svc moment call db id = some item) :
    db.items id = some item ∨ item.status = .reopened := by
  unfold itemsAfter at h
  cases hrow : db.finding call.key with
  | none =>
    rw [hrow] at h
    exact .inl h
  | some v =>
    rw [hrow] at h
    dsimp only at h
    split_ifs at h
    · cases hproject : db.projects call.projectId with
      | none =>
        rw [hproject] at h
        exact .inl h
      | some project =>
        rw [hproject] at h
        exact reopenItem_cases h
    · exact .inl h

/-- The item of a finding that was fixed is reopened when it was verified or closed. -/
theorem itemsAfter_fixed (hc : db.Coherent) {id : Uuid} {item item' : RemediationItem}
    {v : Vulnerability} (hv : db.finding call.key = some v) (hfixed : v.status = .fixed)
    (hitem : db.items id = some item) (hproject : item.projectId = call.projectId)
    (hkey : item.issueKey = (call.redetect svc v).issueKey)
    (hstatus : item.status ∈ [RemediationStatus.verified, .closed])
    (h : itemsAfter svc moment call db id = some item') : item'.status = .reopened := by
  obtain ⟨hindex, project, hp, hworkspace⟩ := hc id item hitem
  have hrow : regressionItem
      ⟨project.workspaceId, call.projectId, (call.redetect svc v).issueKey⟩ db.toRemediationDb =
        some (id, item) := by
    unfold regressionItem
    rw [← hkey, ← hproject, hindex, Option.bind_some, hitem, Option.bind_some]
    exact if_pos ⟨rfl, hworkspace.symm, rfl⟩
  have hlegal : isLegal item.status .reopened := by
    rcases List.mem_pair.mp hstatus with hst | hst
    · rw [hst]
      decide
    · rw [hst]
      decide
  unfold itemsAfter at h
  rw [hv] at h
  dsimp only at h
  rw [if_pos hfixed, ← hproject, Option.mem_def.mp hp] at h
  dsimp only [Option.elim] at h
  unfold reopenItem at h
  rw [hproject, hrow] at h
  dsimp only at h
  rw [if_pos hlegal, Table.set_self] at h
  cases h
  exact RemediationItem.enter_status _ _ _

/-! ## Regressions -/

/-- When a finding that counts is stored, the item of its issue is neither verified nor closed
afterwards. -/
def RevivesItem (svc : IngestServices) (db : FindingsDb) : FindingsStep → Prop
  | .ingest moment call => ∀ db', findingsStep svc (.ingest moment call) db = some db' →
      ∀ v ∈ db'.finding call.key, isScorable svc.toRemediationServices v →
        ∀ id, ∀ item ∈ db'.items id, item.projectId = call.projectId →
          item.issueKey = v.issueKey → item.status ∉ [RemediationStatus.verified, .closed]
  | _ => True

/-- When a finding that counts is stored and the item of its issue is verified or closed, the
finding is there already and was fixed. -/
def FixedBefore (svc : IngestServices) (db : FindingsDb) : FindingsStep → Prop
  | .ingest moment call => ∀ db', findingsStep svc (.ingest moment call) db = some db' →
      ∀ v ∈ db'.finding call.key, isScorable svc.toRemediationServices v →
        ∀ id, ∀ item ∈ db.items id, item.projectId = call.projectId →
          item.issueKey = v.issueKey → item.status ∈ [RemediationStatus.verified, .closed] →
            ∃ v₀ ∈ db.finding call.key, v₀.status = .fixed
  | _ => True

/-- **An ingestion revives the item** exactly when what it stores was fixed before, if the item was
verified or closed. -/
theorem revivesItem_step (hkeyed : db.Keyed) (hc : db.Coherent) (a : FindingsStep) :
    RevivesItem svc db a ↔ FixedBefore svc db a := by
  cases a with
  | ingest moment call =>
    constructor
    · intro h db' hstep v hv hscorable id item hitem hproject hkey hstatus
      by_contra hnone
      have hunfixed : ∀ v₀ ∈ db.finding call.key, v₀.status ≠ .fixed := fun v₀ hv₀ hfixed =>
        hnone ⟨v₀, hv₀, hfixed⟩
      have hsame : db'.items id = some item := by
        rw [(ingest_eq_some hstep).2, (ingestWrites_keeps svc moment call db).items_eq,
          itemsAfter_unfixed hunfixed]
        exact hitem
      exact h db' hstep v hv hscorable id item hsame hproject hkey hstatus
    · intro h db' hstep v hv hscorable id item' hitem' hproject hkey hstatus
      obtain ⟨hfresh, rfl⟩ := ingest_eq_some hstep
      obtain ⟨row, hstored⟩ := stored_of_ingestWrites svc call hkeyed hfresh
      obtain rfl : row = v := Option.some.inj (hstored.finding.symm.trans hv)
      rw [(ingestWrites_keeps svc moment call db).items_eq] at hitem'
      have hreopened : item'.status = .reopened := by
        rcases itemsAfter_cases hitem' with hitem | hreopened
        · obtain ⟨v₀, hv₀, hfixed⟩ :=
            h _ hstep row hv hscorable id item' hitem hproject hkey hstatus
          rw [hstored.redetected v₀ hv₀] at hkey
          exact itemsAfter_fixed hc hv₀ hfixed hitem hproject hkey hstatus hitem'
        · exact hreopened
      rw [hreopened] at hstatus
      exact absurd hstatus (by decide)
  | createProject | createScan | scan | write | storeEvidence | setStatus | createItem
  | claimVerification | operation => exact Iff.rfl

end

/-- **Regressions revive the item** in a history exactly when every finding that is stored while the
item of its issue is verified or closed was fixed before. -/
theorem regressions_revive_iff (svc : IngestServices) (σ : List FindingsStep) :
    Along (findingsStep svc) (RevivesItem svc) .empty σ ↔
      Along (findingsStep svc) (FixedBefore svc) .empty σ :=
  along_congr (I := fun db => db.Keyed ∧ db.Coherent)
    (fun _ _ _ h hstep => ⟨keyed_step h.1 hstep, coherent_step h.2 hstep⟩)
    (fun _ a h => revivesItem_step h.1 h.2 a) ⟨keyed_empty, coherent_empty⟩ σ

/-- A scan of the project is created and started. -/
def startScan (id : Uuid) : List FindingsStep :=
  [.createScan id 2 1 3 [] 0, .scan id (.claim 1 id)]

/-- It completes. -/
def completeScan (id : Uuid) : FindingsStep :=
  .scan id (.finalize 2 ⟨.completed, completed_terminal⟩ id)

/-- A scan reports the finding. -/
def reportFinding (scanId newId : Uuid) : FindingsStep :=
  .ingest ⟨3, newId⟩ { plainCall with scanId }

/-- A detection run of a scan. -/
def detectionRun (scanId : Uuid) : ToolRun where
  scanId
  toolName := "nuclei"
  toolVersion := ""
  status := .completed
  commandHash := ""
  effectiveCommand := none
  timedOut := false
  startedAt := 1
  completedAt := some 2
  exitCode := some 0
  rawOutputRef := none
  errorMessage := none

def callWorkflow (call : RemediationCall) (newId : Uuid) : FindingsStep :=
  .operation (.workflow call) ⟨4, newId⟩

/-- The item is worked on, and its verification by a scan is requested. -/
def requestRetest (scanId : Uuid) : List FindingsStep :=
  [.createItem 3 ⟨2, 1, "template:sqli", none, 1, none⟩,
    callWorkflow (.transition ⟨⟨2, 1, 3, 8, 1⟩, .accepted, none⟩) 0,
    callWorkflow (.transition ⟨⟨2, 1, 3, 8, 2⟩, .inProgress, none⟩) 0,
    .write [] [detectionRun scanId],
    callWorkflow (.requestVerification ⟨⟨2, 1, 3, 8, 3⟩, some scanId⟩) 12]

def completeRetest : FindingsStep := callWorkflow (.completeVerification ⟨2, 12, none, none⟩) 0

/-- The project and the evidence are there, and scan 4 reports the finding. -/
def reportedHistory : List FindingsStep :=
  [.createProject 1 ⟨2⟩, .storeEvidence ⟨6, some 5, "log_excerpt", "", ""⟩] ++ startScan 4 ++
    [reportFinding 4 9, completeScan 4]

/-- Scan 5 does not find it, so that the item is verified, and scan 6 starts. -/
def verifiedHistory : List FindingsStep :=
  reportedHistory ++ startScan 5 ++ [completeScan 5] ++ requestRetest 5 ++ [completeRetest] ++
    startScan 6

/-- **A regression leaves its item verified**: the finding was never marked as fixed. -/
theorem regression_stays_verified :
    ¬ Along (findingsStep plainServices) (RevivesItem plainServices) .empty
      (verifiedHistory ++ [reportFinding 6 10]) := by
  intro h
  have hstep : ∃ db', findingsStep plainServices (reportFinding 6 10)
        (run (findingsStep plainServices) .empty verifiedHistory) = some db' ∧
      ∃ v ∈ db'.finding plainCall.key, isScorable plainServices.toRemediationServices v ∧
        ∃ item ∈ db'.items 3, item.projectId = 1 ∧ item.issueKey = v.issueKey ∧
          item.status = .verified := by
    refine ⟨_, rfl, _, rfl, by decide, _, rfl, rfl, by decide, rfl⟩
  obtain ⟨db', hstep, v, hv, hscorable, item, hitem, hproject, hkey, hstatus⟩ := hstep
  have hrevived := h verifiedHistory _ [] rfl db' hstep v hv hscorable 3 item hitem hproject hkey
  rw [hstatus] at hrevived
  exact absurd hrevived (by decide)

end ScanPlatform
