import ScanPlatform.Vulnerabilities.Alone

/-!
# What storing a finding does

The rows of the findings and the items of the workflow, before and after `storeFinding`.

* `Keeps`, `OnFindings`: writes to the tables of findings leave the workflow alone;
* `reopenItem`, `itemsAfter`, **`ingestWrites_keeps`**: when ingestion writes to the workflow, and
  what;
* `FindingsDb.Keyed`: the keys of the findings are unique;
* `createdRow`, `rows_createWrites`, `rows_redetectWrites`, `Stored`,
  **`stored_of_ingestWrites`**: the row of the finding, and all others.
-/

set_option autoImplicit false

namespace ScanPlatform

open UnitOfWork

/-! ## Writes to the tables of findings -/

/-- Nothing but the findings, the items and their timelines is different, and these are the
items. -/
structure Keeps (items : Table Uuid RemediationItem) (db db' : FindingsDb) : Prop where
  workflow : ∃ events, db'.toRemediationDb =
    { db.toRemediationDb with items, events, vulnerabilities := db'.vulnerabilities }
  projects : db'.projects = db.projects

theorem Keeps.of_items {items : Table Uuid RemediationItem} {events : List RemediationEvent}
    {db db' : FindingsDb} (h : db'.toRemediationDb = { db.toRemediationDb with items, events })
    (hprojects : db'.projects = db.projects) : Keeps items db db' :=
  ⟨⟨events, by rw [h]⟩, hprojects⟩

theorem Keeps.refl (db : FindingsDb) : Keeps db.items db db := ⟨⟨db.events, rfl⟩, rfl⟩

theorem Keeps.trans {items items' : Table Uuid RemediationItem} {db₁ db₂ db₃ : FindingsDb}
    (h₁₂ : Keeps items db₁ db₂) (h₂₃ : Keeps items' db₂ db₃) : Keeps items' db₁ db₃ := by
  obtain ⟨events, h⟩ := h₁₂.workflow
  obtain ⟨events', h'⟩ := h₂₃.workflow
  exact ⟨⟨events', by rw [h', h]⟩, h₂₃.projects.trans h₁₂.projects⟩

theorem Keeps.items_eq {items : Table Uuid RemediationItem} {db db' : FindingsDb}
    (h : Keeps items db db') : db'.items = items := by
  obtain ⟨events, h⟩ := h.workflow
  rw [h]

theorem Keeps.requests {items : Table Uuid RemediationItem} {db db' : FindingsDb}
    (h : Keeps items db db') : db'.requests = db.requests := by
  obtain ⟨events, h⟩ := h.workflow
  rw [h]

theorem Keeps.issues {items : Table Uuid RemediationItem} {db db' : FindingsDb}
    (h : Keeps items db db') : db'.issues = db.issues := by
  obtain ⟨events, h⟩ := h.workflow
  rw [h]

/-- None of the writes is to the workflow. -/
def OnFindings (ws : List IngestWrite) : Prop := ∀ c, IngestWrite.workflow c ∉ ws

theorem onFindings_cons {w : IngestWrite} {ws : List IngestWrite} (hw : ∀ c, w ≠ .workflow c)
    (h : OnFindings ws) : OnFindings (w :: ws) := fun c hc => by
  rcases List.mem_cons.mp hc with heq | hmem
  · exact hw c heq.symm
  · exact h c hmem

theorem onFindings_nil : OnFindings [] := fun _ h => List.not_mem_nil h

theorem onFindings_append {ws ws' : List IngestWrite} (h : OnFindings ws) (h' : OnFindings ws') :
    OnFindings (ws ++ ws') := fun c hc => (List.mem_append.mp hc).elim (h c) (h' c)

theorem IngestWrite.keeps {w : IngestWrite} (hw : ∀ c, w ≠ .workflow c) (db : FindingsDb) :
    Keeps db.items db (w.apply db) := by
  cases w with
  | insertRow row _ | assign id f _ | addHistory entry => exact ⟨⟨db.events, rfl⟩, rfl⟩
  | insertLineage entry =>
    unfold IngestWrite.apply
    dsimp only
    split_ifs
    · exact .refl db
    · exact ⟨⟨db.events, rfl⟩, rfl⟩
  | linkEvidence vulnerabilityId evidenceId toolRunId =>
    unfold IngestWrite.apply
    dsimp only
    split
    · exact .refl db
    · exact ⟨⟨db.events, rfl⟩, rfl⟩
  | workflow c => exact absurd rfl (hw c)

theorem OnFindings.keeps {ws : List IngestWrite} (h : OnFindings ws) (db : FindingsDb) :
    Keeps db.items db (actAll ws db) := by
  induction ws generalizing db with
  | nil => exact .refl db
  | cons w ws ih =>
    have hw : ∀ c, w ≠ .workflow c := fun c hc => h c (hc ▸ List.mem_cons_self)
    have hfirst := w.keeps hw db
    have hrest := ih (fun c hc => h c (List.mem_cons_of_mem w hc)) (w.apply db)
    rw [hfirst.items_eq] at hrest
    exact hfirst.trans hrest

/-- Writes to the tables of findings, after others. -/
theorem Keeps.onFindings {items : Table Uuid RemediationItem} {db db' : FindingsDb}
    {ws : List IngestWrite} (h : Keeps items db db') (hws : OnFindings ws) :
    Keeps items db (actAll ws db') := by
  have hkeeps := hws.keeps db'
  rw [h.items_eq] at hkeeps
  exact h.trans hkeeps

/-! ## When ingestion writes to the workflow -/

section

variable {svc : IngestServices} {moment : Moment} {call : FindingCall} {db : FindingsDb}

variable (svc call) in
theorem onFindings_changes (v : Vulnerability) : OnFindings (call.changes svc v) := by
  unfold FindingCall.changes
  refine onFindings_cons (fun c => IngestWrite.noConfusion) ?_
  split_ifs
  · exact onFindings_cons (fun c => IngestWrite.noConfusion) onFindings_nil
  · exact onFindings_nil

theorem onFindings_ancestorWrites (v : Vulnerability) (search : String × String) :
    OnFindings (ancestorWrites svc v search db) := by
  unfold ancestorWrites
  split
  · exact onFindings_nil
  · refine onFindings_cons (fun c => IngestWrite.noConfusion) ?_
    split_ifs
    · exact onFindings_cons (fun c => IngestWrite.noConfusion) onFindings_nil
    · exact onFindings_nil

theorem onFindings_createWrites (id : Uuid) : OnFindings (createWrites svc id call db) := by
  have link : OnFindings [.linkEvidence id call.evidenceId call.toolRunId] :=
    onFindings_cons (fun c => IngestWrite.noConfusion) onFindings_nil
  have history : ∀ entry, OnFindings [.addHistory entry] := fun entry =>
    onFindings_cons (fun c => IngestWrite.noConfusion) onFindings_nil
  unfold createWrites
  refine onFindings_cons (fun c => IngestWrite.noConfusion) ?_
  split
  · exact onFindings_append link (history _)
  · exact onFindings_append (onFindings_append (history _) (onFindings_ancestorWrites _ _)) link

/-- The items after a regression of an issue. -/
def reopenItem (now : ℤ) (call : RegressionCall) (db : RemediationDb) :
    Table Uuid RemediationItem :=
  match regressionItem call db with
  | none => db.items
  | some (id, item) =>
    if isLegal item.status .reopened then
      db.items.set id { item.enter now .reopened with version := item.version + 1 }
    else db.items

theorem regressionItem_eq_some {call : RegressionCall} {db : RemediationDb} {id : Uuid}
    {item : RemediationItem} (h : regressionItem call db = some (id, item)) :
    db.items id = some item := by
  unfold regressionItem at h
  obtain ⟨j, -, h⟩ := Option.bind_eq_some_iff.mp h
  obtain ⟨row, hrow, h⟩ := Option.bind_eq_some_iff.mp h
  split_ifs at h
  cases h
  exact hrow

/-- The compare-and-set and the transition of an item, as it has been read. -/
theorem transition_bump {id : Uuid} {item : RemediationItem} {db : RemediationDb}
    (hitem : db.items id = some item) (now : ℤ) (toStatus : RemediationStatus)
    (detail : Option String) :
    (transitionChange id item now toStatus detail).change
        ((bumpChange id item.version).change db) =
      ({ db with
        items := db.items.set id
          { item.enter now toStatus with version := item.version + 1 } } :
            RemediationDb).recordEvent id .transition none (some item.status) (some toStatus)
              detail := by
  have hbump : (bumpChange id item.version).change db =
      { db with items := db.items.set id { item with version := item.version + 1 } } := by
    unfold bumpChange
    dsimp only
    rw [hitem]
    exact if_pos rfl
  have hflush : RemediationItem.flush item (item.enter now toStatus)
      { item with version := item.version + 1 } =
        { item.enter now toStatus with version := item.version + 1 } := by
    have hissue := item.enter_sameIssue now toStatus
    simp [RemediationItem.flush, hissue.workspaceId, hissue.projectId, hissue.issueKey]
  rw [hbump]
  unfold transitionChange
  dsimp only
  rw [Table.set_self]
  dsimp only
  rw [hflush]
  unfold Table.set
  rw [Function.update_idem]

theorem actAll_regressionWrites (now : ℤ) (call : RegressionCall) (db : FindingsDb) :
    Keeps (reopenItem now call db.toRemediationDb) db
      (actAll (regressionWrites now call db.toRemediationDb) db) := by
  unfold regressionWrites reopenItem
  cases hrow : regressionItem call db.toRemediationDb with
  | none => exact .refl db
  | some row =>
    obtain ⟨id, item⟩ := row
    dsimp only
    split_ifs
    · exact .of_items ((transition_bump (regressionItem_eq_some hrow) now _ _).trans rfl) rfl
    · exact .refl db

theorem reopenItem_congr {now : ℤ} {call : RegressionCall} {db db' : RemediationDb}
    (h : regressionItem call db' = regressionItem call db) (hitems : db'.items = db.items) :
    reopenItem now call db' = reopenItem now call db := by
  unfold reopenItem
  rw [h, hitems]

/-- A regression reads the items and the issues. -/
theorem Keeps.regressionItem {db' : FindingsDb} (h : Keeps db.items db db')
    (call : RegressionCall) : ScanPlatform.regressionItem call db'.toRemediationDb =
      ScanPlatform.regressionItem call db.toRemediationDb := by
  obtain ⟨events, h⟩ := h.workflow
  rw [h]
  rfl

/-- The items after a finding has been stored. -/
def itemsAfter (svc : IngestServices) (moment : Moment) (call : FindingCall) (db : FindingsDb) :
    Table Uuid RemediationItem :=
  match db.finding call.key with
  | none => db.items
  | some v =>
    if v.status = .fixed then
      (db.projects call.projectId).elim db.items fun project => reopenItem moment.now
        ⟨project.workspaceId, call.projectId, (call.redetect svc v).issueKey⟩ db.toRemediationDb
    else db.items

/-- **What storing a finding does to the workflow.** -/
theorem ingestWrites_keeps (svc : IngestServices) (moment : Moment) (call : FindingCall)
    (db : FindingsDb) :
    Keeps (itemsAfter svc moment call db) db (actAll (ingestWrites svc moment call db) db) := by
  unfold ingestWrites itemsAfter
  cases db.finding call.key with
  | none => exact (onFindings_createWrites moment.newId).keeps db
  | some v =>
    dsimp only
    have link : OnFindings [.linkEvidence v.id call.evidenceId call.toolRunId] :=
      onFindings_cons (fun c => IngestWrite.noConfusion) onFindings_nil
    unfold redetectWrites
    split_ifs with hfixed
    · have hchanges := (onFindings_changes svc call v).keeps db
      rw [actAll_append, actAll_append]
      have hregression : Keeps ((db.projects call.projectId).elim db.items fun project =>
          reopenItem moment.now
            ⟨project.workspaceId, call.projectId, (call.redetect svc v).issueKey⟩
            db.toRemediationDb) db
          (actAll ((db.projects call.projectId).elim [] fun project => regressionWrites moment.now
            ⟨project.workspaceId, call.projectId, (call.redetect svc v).issueKey⟩
            db.toRemediationDb) (actAll (call.changes svc v) db)) := by
        cases db.projects call.projectId with
        | none => exact hchanges
        | some project =>
          have hitem := hchanges.regressionItem
            ⟨project.workspaceId, call.projectId, (call.redetect svc v).issueKey⟩
          have hreopen := actAll_regressionWrites moment.now
            ⟨project.workspaceId, call.projectId, (call.redetect svc v).issueKey⟩
            (actAll (call.changes svc v) db)
          rw [regressionWrites_congr hitem, reopenItem_congr hitem hchanges.items_eq] at hreopen
          exact hchanges.trans hreopen
      exact hregression.onFindings link
    · exact (onFindings_append link (onFindings_changes svc call v)).keeps db

/-! ## The rows -/

/-- A write that leaves the rows of the findings alone. -/
def SparesRows (w : IngestWrite) : Prop := ∀ db, (w.apply db).vulnerabilities = db.vulnerabilities

theorem sparesRows_addHistory (entry : VulnerabilityHistory) : SparesRows (.addHistory entry) :=
  fun _ => rfl

theorem sparesRows_insertLineage (entry : VulnerabilityLineage) :
    SparesRows (.insertLineage entry) := fun db =>
  congrArg Prod.fst (insertLineage_findings entry db)

theorem sparesRows_linkEvidence (vulnerabilityId evidenceId toolRunId : Uuid) :
    SparesRows (.linkEvidence vulnerabilityId evidenceId toolRunId) := fun db =>
  congrArg Prod.fst (linkEvidence_findings vulnerabilityId evidenceId toolRunId db)

theorem sparesRows_workflow (c : WorkflowChange) : SparesRows (.workflow c) := fun db =>
  congrArg Prod.fst (c.act_findings db)

theorem rows_actAll {ws : List IngestWrite} (h : ∀ w ∈ ws, SparesRows w) (db : FindingsDb) :
    (actAll ws db).vulnerabilities = db.vulnerabilities := by
  induction ws generalizing db with
  | nil => rfl
  | cons w ws ih =>
    rw [List.forall_mem_cons] at h
    exact (ih h.2 _).trans (h.1 db)

theorem sparesRows_regressionWrites (now : ℤ) (call : RegressionCall) (db : RemediationDb) :
    ∀ w ∈ regressionWrites now call db, SparesRows w := by
  intro w hw
  unfold regressionWrites at hw
  split at hw
  · cases hw
  · split_ifs at hw
    · rcases List.mem_pair.mp hw with rfl | rfl
      · exact sparesRows_workflow _
      · exact sparesRows_workflow _
    · cases hw

theorem rows_changes (v : Vulnerability) (db : FindingsDb) :
    (actAll (call.changes svc v) db).vulnerabilities =
      db.vulnerabilities.map fun u => if u.id = v.id then call.redetect svc u else u := by
  unfold FindingCall.changes
  split_ifs <;> rfl

variable (svc call db) in
/-- A finding that is detected again. -/
theorem rows_redetectWrites (now : ℤ) (v : Vulnerability) :
    (actAll (redetectWrites svc now call v db) db).vulnerabilities =
      db.vulnerabilities.map fun u => if u.id = v.id then call.redetect svc u else u := by
  have link : ∀ w ∈ [IngestWrite.linkEvidence v.id call.evidenceId call.toolRunId],
      SparesRows w := List.forall_mem_singleton.mpr (sparesRows_linkEvidence _ _ _)
  unfold redetectWrites
  dsimp only
  split_ifs
  · rw [actAll_append, actAll_append, rows_actAll link, ← rows_changes v db]
    refine rows_actAll ?_ _
    cases db.projects call.projectId with
    | none => exact fun w hw => absurd hw List.not_mem_nil
    | some project => exact sparesRows_regressionWrites _ _ _
  · rw [actAll_cons, rows_changes]
    exact congrArg _ (sparesRows_linkEvidence _ _ _ db)

/-- The row of a new finding, with what it has inherited. -/
def createdRow (svc : IngestServices) (id : Uuid) (call : FindingCall) (db : FindingsDb) :
    Vulnerability :=
  let v := call.row svc id
  match (ancestorSearch svc v).bind fun search => findAncestor svc v search db with
  | some ancestor => ancestor.inherit v
  | none => v

/-- What a new row keeps whatever it inherits. -/
theorem createdRow_kept {α : Type} {g : Vulnerability → α}
    (hg : ∀ ancestor v : Vulnerability, g (ancestor.inherit v) = g v) (id : Uuid) :
    g (createdRow svc id call db) = g (call.row svc id) := by
  unfold createdRow
  dsimp only
  split
  · exact hg _ _
  · rfl

variable (svc call) in
/-- A new finding. -/
theorem rows_createWrites {id : Uuid} (hfresh : ∀ u ∈ db.vulnerabilities, u.id ≠ id) :
    (actAll (createWrites svc id call db) db).vulnerabilities =
      db.vulnerabilities ++ [createdRow svc id call db] := by
  unfold createWrites createdRow
  dsimp only
  rw [actAll_cons]
  cases ancestorSearch svc (call.row svc id) with
  | none =>
    refine rows_actAll ?_ _
    simp only [List.forall_mem_cons, List.not_mem_nil, false_imp_iff, implies_true, and_true]
    exact ⟨sparesRows_linkEvidence _ _ _, sparesRows_addHistory _⟩
  | some search =>
    dsimp only
    rw [List.cons_append, actAll_cons, actAll_append,
      rows_actAll (List.forall_mem_singleton.mpr (sparesRows_linkEvidence _ _ _)),
      Option.bind_some]
    unfold ancestorWrites
    cases findAncestor svc (call.row svc id) search db with
    | none => rfl
    | some ancestor =>
      dsimp only
      rw [actAll_cons]
      split_ifs with hsticky
      · show List.map _ (IngestWrite.apply _ _).vulnerabilities = _
        rw [sparesRows_insertLineage]
        show List.map _ (db.vulnerabilities ++ [call.row svc id]) = _
        rw [List.map_append]
        congr 1
        · exact (List.map_congr_left fun u hu => if_neg (hfresh u hu)).trans (List.map_id' _)
        · exact congrArg (fun u => [u]) (if_pos rfl)
      · unfold Vulnerability.inherit
        rw [if_neg hsticky]
        exact sparesRows_insertLineage _ _

/-! ## The row of the finding, and all others -/

/-- The primary key of the findings, and `uq_vulnerabilities_project_fingerprint`. -/
structure FindingsDb.Keyed (db : FindingsDb) : Prop where
  ids : (db.vulnerabilities.map (·.id)).Nodup
  keys : (db.vulnerabilities.map Vulnerability.key).Nodup

/-- How a finding has been stored. -/
structure Stored (svc : IngestServices) (call : FindingCall) (db db' : FindingsDb)
    (row : Vulnerability) : Prop where
  finding : db'.finding call.key = some row
  lastSeen : row.lastSeenScanId = some call.scanId
  redetected : ∀ v ∈ db.finding call.key, row = call.redetect svc v
  others : ∀ u ∈ db'.vulnerabilities, u = row ∨ u ∈ db.vulnerabilities ∧ u.key ≠ call.key
  keyed : db'.Keyed

theorem FindingsDb.Keyed.of_map {f : Vulnerability → Vulnerability} {db' : FindingsDb}
    (h : db.Keyed) (hid : ∀ v, (f v).id = v.id) (hkey : ∀ v, (f v).key = v.key)
    (hrows : db'.vulnerabilities = db.vulnerabilities.map f) : db'.Keyed := by
  constructor
  · rw [hrows, List.map_map]
    exact (List.map_congr_left fun v _ => hid v) ▸ h.ids
  · rw [hrows, List.map_map]
    exact (List.map_congr_left fun v _ => hkey v) ▸ h.keys

theorem FindingsDb.Keyed.of_append {row : Vulnerability} {db' : FindingsDb} (h : db.Keyed)
    (hid : ∀ u ∈ db.vulnerabilities, u.id ≠ row.id)
    (hkey : ∀ u ∈ db.vulnerabilities, u.key ≠ row.key)
    (hrows : db'.vulnerabilities = db.vulnerabilities ++ [row]) : db'.Keyed := by
  constructor
  · rw [hrows, List.map_append, List.nodup_append]
    exact ⟨h.ids, List.nodup_singleton _, by simpa using hid⟩
  · rw [hrows, List.map_append, List.nodup_append]
    exact ⟨h.keys, List.nodup_singleton _, by simpa using hkey⟩

theorem FindingsDb.key_ne {key : Uuid × String} (h : db.finding key = none) {u : Vulnerability}
    (hu : u ∈ db.vulnerabilities) : u.key ≠ key := by
  have := List.find?_eq_none.mp h u hu
  simpa using this

/-- **One row is the finding's, and all others stay.** -/
theorem stored_of_ingestWrites (svc : IngestServices) (call : FindingCall) (hkeyed : db.Keyed)
    (hfresh : ∀ u ∈ db.vulnerabilities, u.id ≠ moment.newId) :
    ∃ row, Stored svc call db (actAll (ingestWrites svc moment call db) db) row := by
  unfold ingestWrites
  cases hexisting : db.finding call.key with
  | none =>
    have hrows := rows_createWrites svc call hfresh
    have hid : (createdRow svc moment.newId call db).id = moment.newId :=
      createdRow_kept (fun ancestor => ancestor.inherit_assigns.id) _
    have hkey : (createdRow svc moment.newId call db).key = call.key :=
      createdRow_kept (fun ancestor => ancestor.inherit_assigns.key) _
    have hlast : (createdRow svc moment.newId call db).lastSeenScanId = some call.scanId := by
      refine createdRow_kept (g := (·.lastSeenScanId)) (fun ancestor v => ?_) _
      unfold Vulnerability.inherit
      split_ifs <;> rfl
    have hne : ∀ u ∈ db.vulnerabilities, u.key ≠ call.key := fun u =>
      FindingsDb.key_ne hexisting
    have hkeyed' : FindingsDb.Keyed _ := hkeyed.of_append
      (fun u hu heq => hfresh u hu (heq.trans hid)) (fun u hu heq => hne u hu (heq.trans hkey))
      hrows
    refine ⟨createdRow svc moment.newId call db, ?_, hlast, ?_, ?_, hkeyed'⟩
    · unfold FindingsDb.finding at hexisting ⊢
      rw [hrows, Rows.row_append, hexisting, if_pos hkey]
      rfl
    · rw [hexisting]
      rintro v ⟨⟩
    · intro u hu
      rw [hrows, List.mem_append, List.mem_singleton] at hu
      exact hu.symm.imp_right fun hu => ⟨hu, hne u hu⟩
  | some v =>
    have hrows := rows_redetectWrites svc call db moment.now v
    have hassigns := call.redetect_assigns svc
    have hv : v ∈ db.vulnerabilities := Rows.mem_of_row hexisting
    have hkey : v.key = call.key := Rows.row_key hexisting
    have hf : ∀ u, (if u.id = v.id then call.redetect svc u else u).key = u.key := fun u => by
      split_ifs
      · exact hassigns.key u
      · rfl
    refine ⟨call.redetect svc v, ?_, rfl, ?_, ?_, hkeyed.of_map ?_ hf hrows⟩
    · unfold FindingsDb.finding at hexisting ⊢
      rw [hrows, Rows.row_map hf, hexisting]
      exact congrArg some (if_pos rfl)
    · rw [hexisting]
      rintro v' ⟨⟩
      rfl
    · intro u hu
      rw [hrows] at hu
      obtain ⟨u₀, hu₀, rfl⟩ := List.mem_map.mp hu
      split_ifs with hid
      · left
        rw [List.inj_on_of_nodup_map hkeyed.ids hu₀ hv hid]
      · refine .inr ⟨hu₀, fun h => hid ?_⟩
        rw [List.inj_on_of_nodup_map hkeyed.keys hu₀ hv (h.trans hkey.symm)]
    · intro u
      split_ifs
      · exact hassigns.id u
      · rfl

end

end ScanPlatform
