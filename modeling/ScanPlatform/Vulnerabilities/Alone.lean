import ScanPlatform.Vulnerabilities.Ingest

/-!
# Ingestion while nobody else does anything

What `ingest_finding` writes, as a list, when every statement is carried out and the caller commits.

* `regressionWrites`, `ancestorWrites`, `createWrites`, `redetectWrites`, `ingestWrites`: the lists;
* **`ingestFinding_runs`**: the program writes what the list says;
* `storeFinding`, `storeFinding_eq_some`: a finding that is stored and committed.
-/

set_option autoImplicit false

namespace ScanPlatform

open UnitOfWork

/-! ## The lists -/

def regressionWrites (now : ℤ) (call : RegressionCall) (db : RemediationDb) : List IngestWrite :=
  match regressionItem call db with
  | none => []
  | some (id, item) =>
    if isLegal item.status .reopened then
      [.workflow (bumpChange id item.version),
        .workflow (transitionChange id item now .reopened (some "re-detected by a scan"))]
    else []

def ancestorWrites (svc : IngestServices) (v : Vulnerability) (search : String × String)
    (db : FindingsDb) : List IngestWrite :=
  match findAncestor svc v search db with
  | none => []
  | some ancestor =>
    .insertLineage (lineageEntry v ancestor search) ::
      if ancestor.status ∈ stickyStatuses then
        [.assign v.id ancestor.inherit ancestor.inherit_assigns]
      else []

def createWrites (svc : IngestServices) (id : Uuid) (call : FindingCall) (db : FindingsDb) :
    List IngestWrite :=
  let v := call.row svc id
  let history := IngestWrite.addHistory (call.historyEntry v .created)
  let link := IngestWrite.linkEvidence id call.evidenceId call.toolRunId
  .insertRow v (call.row_unfixed svc id) ::
    match ancestorSearch svc v with
    | none => [link, history]
    | some search => history :: ancestorWrites svc v search db ++ [link]

def redetectWrites (svc : IngestServices) (now : ℤ) (call : FindingCall) (v : Vulnerability)
    (db : FindingsDb) : List IngestWrite :=
  let link := IngestWrite.linkEvidence v.id call.evidenceId call.toolRunId
  if v.status = .fixed then
    call.changes svc v ++ ((db.projects call.projectId).elim [] fun project =>
      regressionWrites now
        ⟨project.workspaceId, call.projectId, (call.redetect svc v).issueKey⟩ db.toRemediationDb) ++
      [link]
  else link :: call.changes svc v

def ingestWrites (svc : IngestServices) (moment : Moment) (call : FindingCall) (db : FindingsDb) :
    List IngestWrite :=
  match db.finding call.key with
  | none => createWrites svc moment.newId call db
  | some v => redetectWrites svc moment.now call v db

/-! ## The program writes what the list says -/

section

variable {s : Session IngestWrite WorkflowChange FindingsDb} {svc : IngestServices}
  {call : FindingCall}

theorem bumpVersion_runs (h : s.turns = []) {id : Uuid} {item : RemediationItem}
    (hitem : s.view.items id = some item) :
    Runs (Ingest.bumpVersion id item.version) s () [.workflow (bumpChange id item.version)] := by
  unfold Ingest.bumpVersion
  have hmatched : (s.view.items id).any (·.version = item.version) = true := by simp [hitem]
  have hread : Runs (statement operationalError fun db : FindingsDb =>
      let matched := (db.items id).any (·.version = item.version)
      .ok (matched, if matched then [.workflow (bumpChange id item.version)] else [])) s true
      [.workflow (bumpChange id item.version)] := runs_statement h (by simp [hmatched])
  exact runs_bind hread fun s₁ h₁ _ => runs_pure h₁

theorem reopenForRegression_runs (h : s.turns = []) (now : ℤ) (call : RegressionCall) :
    Runs (Ingest.reopenForRegression now call) s ()
      (regressionWrites now call s.view.toRemediationDb) := by
  unfold Ingest.reopenForRegression regressionWrites
  refine runs_read (runs_select h _) fun s₁ h₁ hview => ?_
  cases hrow : regressionItem call s.view.toRemediationDb with
  | none => exact runs_pure h₁
  | some row =>
    obtain ⟨id, item⟩ := row
    have hitem : s₁.view.items id = some item := by
      rw [hview]
      unfold regressionItem at hrow
      obtain ⟨j, -, hrow⟩ := Option.bind_eq_some_iff.mp hrow
      obtain ⟨item', hitem', hrow⟩ := Option.bind_eq_some_iff.mp hrow
      split_ifs at hrow
      cases hrow
      exact hitem'
    dsimp only
    split_ifs
    · unfold Ingest.applyTransition
      refine runs_bind (bumpVersion_runs h₁ hitem) fun s₂ h₂ _ => ?_
      exact runs_bind (runs_commit h₂ _) fun s₃ h₃ _ => runs_select h₃ _
    · exact runs_pure h₁

theorem regressionWrites_congr {now : ℤ} {call : RegressionCall} {db db' : RemediationDb}
    (h : regressionItem call db' = regressionItem call db) :
    regressionWrites now call db' = regressionWrites now call db := by
  unfold regressionWrites
  rw [h]

/-- The rows that a link to the evidence needs. -/
def Linkable (id : Uuid) (call : FindingCall) (db : FindingsDb) : Prop :=
  (∃ v ∈ db.vulnerabilities, v.id = id) ∧ ∃ e ∈ db.evidence, e.id = call.evidenceId

theorem Linkable.apply {id : Uuid} {db : FindingsDb} (h : Linkable id call db) (w : IngestWrite) :
    Linkable id call (w.apply db) := by
  obtain ⟨⟨v, hv, hid⟩, he⟩ := h
  have same : (w.apply db).vulnerabilities = db.vulnerabilities →
      (w.apply db).evidence = db.evidence → Linkable id call (w.apply db) := by
    intro hrows hevidence
    exact ⟨⟨v, hrows ▸ hv, hid⟩, hevidence ▸ he⟩
  cases w with
  | insertRow row _ => exact ⟨⟨v, List.mem_append_left _ hv, hid⟩, he⟩
  | assign j f hf =>
    refine ⟨⟨_, List.mem_map_of_mem hv, ?_⟩, he⟩
    split_ifs
    · exact (hf.id v).trans hid
    · exact hid
  | addHistory entry => exact same rfl rfl
  | insertLineage entry =>
    refine same (congrArg Prod.fst (insertLineage_findings entry db)) ?_
    unfold IngestWrite.apply
    dsimp only
    split_ifs <;> rfl
  | linkEvidence vulnerabilityId evidenceId toolRunId =>
    refine same (congrArg Prod.fst (linkEvidence_findings _ _ _ db)) ?_
    unfold IngestWrite.apply
    dsimp only
    split <;> rfl
  | workflow c => exact same (congrArg Prod.fst (c.act_findings db)) rfl

theorem Linkable.actAll {id : Uuid} {db : FindingsDb} (h : Linkable id call db)
    (ws : List IngestWrite) : Linkable id call (actAll ws db) := by
  induction ws generalizing db with
  | nil => exact h
  | cons w ws ih => exact ih (h.apply w)

theorem linkEvidence_runs (h : s.turns = []) {id : Uuid} (hlink : Linkable id call s.view) :
    Runs (linkEvidence id call) s () [.linkEvidence id call.evidenceId call.toolRunId] := by
  obtain ⟨⟨v, hv, hid⟩, e, he, heid⟩ := hlink
  refine runs_statement h (if_pos ⟨?_, ?_⟩)
  · exact List.any_eq_true.mpr ⟨v, hv, by simp [hid]⟩
  · exact List.any_eq_true.mpr ⟨e, he, by simp [heid]⟩

theorem redetectFinding_runs (h : s.turns = []) (now : ℤ) {v : Vulnerability}
    (hlink : Linkable v.id call s.view) :
    Runs (redetectFinding svc now call v) s () (redetectWrites svc now call v s.view) := by
  unfold redetectFinding redetectWrites
  dsimp only
  split_ifs with hfixed
  · have hregression : Runs (linkRegression svc now call v) s () (call.changes svc v ++
        ((s.view.projects call.projectId).elim [] fun project => regressionWrites now
          ⟨project.workspaceId, call.projectId, (call.redetect svc v).issueKey⟩
          s.view.toRemediationDb)) := by
      unfold linkRegression
      refine runs_bind (runs_flush h _) fun s₁ h₁ hview₁ => ?_
      have hprojects : s₁.view.projects = s.view.projects := by
        rw [hview₁]
        unfold FindingCall.changes
        split_ifs <;> rfl
      have hitem : ∀ call, regressionItem call s₁.view.toRemediationDb =
          regressionItem call s.view.toRemediationDb := by
        rw [hview₁]
        unfold FindingCall.changes
        intro call
        split_ifs <;> rfl
      refine runs_read (runs_select h₁ _) fun s₂ h₂ hview₂ => ?_
      rw [hprojects]
      cases hproject : s.view.projects call.projectId with
      | none => exact runs_pure h₂
      | some project =>
        have hruns := reopenForRegression_runs h₂ now
          ⟨project.workspaceId, call.projectId, (call.redetect svc v).issueKey⟩
        rw [hview₂, regressionWrites_congr (hitem _)] at hruns
        exact hruns
    exact runs_bind (runs_tryCatch hregression) fun s₁ h₁ hview =>
      linkEvidence_runs h₁ (hview ▸ hlink.actAll _)
  · exact runs_cons (linkEvidence_runs h hlink) fun s₁ h₁ _ => runs_flush h₁ _

/-- A new finding is not its own ancestor. -/
theorem ancestorWrites_congr {v : Vulnerability} {search : String × String} {db db' : FindingsDb}
    (h : db'.vulnerabilities = db.vulnerabilities ++ [v]) :
    ancestorWrites svc v search db' = ancestorWrites svc v search db := by
  have hancestor : findAncestor svc v search db' = findAncestor svc v search db := by
    unfold findAncestor
    rw [h, List.filter_append]
    simp
  unfold ancestorWrites
  rw [hancestor]

theorem linkAncestor_runs (h : s.turns = []) (v : Vulnerability) (search : String × String) :
    Runs (linkAncestor svc v search) s () (ancestorWrites svc v search s.view) := by
  unfold linkAncestor ancestorWrites
  refine runs_read (runs_select h _) fun s₁ h₁ hview => ?_
  cases findAncestor svc v search s.view with
  | none => exact runs_pure h₁
  | some ancestor =>
    refine runs_cons (runs_statement h₁ rfl) fun s₂ h₂ _ => ?_
    split_ifs
    · exact runs_flush h₂ _
    · exact runs_pure h₂

theorem createFinding_runs (h : s.turns = []) (id : Uuid)
    (hevidence : ∃ e ∈ s.view.evidence, e.id = call.evidenceId) :
    Runs (createFinding svc id call) s () (createWrites svc id call s.view) := by
  unfold createFinding createWrites
  refine runs_cons (runs_flush h _) fun s₁ h₁ hview₁ => ?_
  have hrows : s₁.view.vulnerabilities = s.view.vulnerabilities ++ [call.row svc id] := by
    rw [hview₁]
    rfl
  have hlink : Linkable id call s₁.view := by
    refine ⟨⟨call.row svc id, ?_, rfl⟩, ?_⟩
    · rw [hrows]
      exact List.mem_append_right _ List.mem_cons_self
    · rw [hview₁]
      exact hevidence
  cases ancestorSearch svc (call.row svc id) with
  | none =>
    exact runs_cons (linkEvidence_runs h₁ hlink) fun s₂ h₂ _ => runs_flush h₂ _
  | some search =>
    have hancestor : Runs (flush operationalError
          [.addHistory (call.historyEntry (call.row svc id) .created)] >>= fun _ =>
          linkAncestor svc (call.row svc id) search) s₁ ()
        (.addHistory (call.historyEntry (call.row svc id) .created) ::
          ancestorWrites svc (call.row svc id) search s.view) := by
      refine runs_cons (runs_flush h₁ _) fun s₂ h₂ hview₂ => ?_
      have hruns : Runs (linkAncestor svc (call.row svc id) search) s₂ () _ :=
        linkAncestor_runs h₂ (call.row svc id) search
      have hrows₂ : s₂.view.vulnerabilities = s.view.vulnerabilities ++ [call.row svc id] := by
        rw [hview₂]
        exact hrows
      rwa [ancestorWrites_congr hrows₂] at hruns
    exact runs_bind (runs_tryCatch hancestor) fun s₂ h₂ hview₂ =>
      linkEvidence_runs h₂ (hview₂ ▸ hlink.actAll _)

/-- **The program writes what the list says.** -/
theorem ingestFinding_runs (h : s.turns = []) (moment : Moment)
    (hevidence : ∃ e ∈ s.view.evidence, e.id = call.evidenceId) :
    ∃ id, Runs (ingestFinding svc moment call) s id (ingestWrites svc moment call s.view) := by
  unfold ingestFinding ingestWrites
  have hselect : Runs (select operationalError fun db : FindingsDb => db.finding call.key) s
      (s.view.finding call.key) [] := runs_select h _
  cases hexisting : s.view.finding call.key with
  | none =>
    rw [hexisting] at hselect
    refine ⟨moment.newId, runs_read hselect fun s₁ h₁ hview => ?_⟩
    have hcreate : Runs (createFinding svc moment.newId call) s₁ () _ :=
      createFinding_runs h₁ moment.newId (hview ▸ hevidence)
    rw [hview] at hcreate
    exact runs_return hcreate
  | some v =>
    rw [hexisting] at hselect
    refine ⟨v.id, runs_read hselect fun s₁ h₁ hview => ?_⟩
    have hlink : Linkable v.id call s₁.view := by
      rw [hview]
      exact ⟨⟨v, Rows.mem_of_row hexisting, rfl⟩, hevidence⟩
    have hredetect : Runs (redetectFinding svc moment.now call v) s₁ () _ :=
      redetectFinding_runs h₁ moment.now hlink
    rw [hview] at hredetect
    exact runs_return hredetect

end

/-! ## A finding that is stored -/

/-- `ingest_finding` and the commit of its caller. -/
def storeFinding (svc : IngestServices) (moment : Moment) (call : FindingCall) (db : FindingsDb) :
    Option FindingsDb :=
  match ingestFinding svc moment call ⟨db, [], false, []⟩ with
  | .ok _ s => some s.commit.committed
  | .error _ _ => none

theorem storeFinding_eq_some (svc : IngestServices) (moment : Moment) {call : FindingCall}
    {db : FindingsDb} (hevidence : ∃ e ∈ db.evidence, e.id = call.evidenceId) :
    storeFinding svc moment call db = some (actAll (ingestWrites svc moment call db) db) := by
  have hruns : ∃ id, Runs (ingestFinding svc moment call) ⟨db, [], false, []⟩ id _ :=
    ingestFinding_runs rfl moment hevidence
  obtain ⟨id, s', hok, -, hview⟩ := hruns
  unfold storeFinding
  rw [hok]
  exact congrArg some hview

end ScanPlatform
