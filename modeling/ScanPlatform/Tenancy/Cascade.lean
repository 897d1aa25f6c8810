import ScanPlatform.Base.Table
import ScanPlatform.Remediation.Db
import ScanPlatform.Scope.Authorization

/-!
# Workspaces and what cascades from them

The rows through which a row of `evidence` belongs to a workspace. Evidence of a scanner has a tool
run, and with it the workspace of its scan; proof of remediation has a row of
`remediation_evidence`. A row is deleted together with the rows that refer to it by a foreign key
with `ON DELETE CASCADE`; findings and assets, which lead to no evidence, are left out.

* `WorkspaceDb`: the manager's rows, the workspaces and the remediation items with their proof;
* `evidenceCriterion`: who sees a row of `evidence`;
* `deleteEvidence`, `deleteToolRuns`, `deleteScans`, `deleteItems`, `deleteProjects`,
  `deleteWorkspace`: the deletions;
* `Intact`: every reference names a row, and a proof is one row with one link;
* `Owned`, `Linked`, **`owned_iff_linked`**: every row has exactly one owner when every row without
  a tool run has a link;
* `Intact.deleteProjects`, `deleteProjects_linked_iff` and the like: what the deletions do to them.
-/

set_option autoImplicit false

namespace ScanPlatform.Tenancy

open Owners

/-- A row of `remediation_evidence`. -/
structure RemediationEvidence where
  remediationItemId : Uuid
  evidenceId : Uuid
  workspaceId : Uuid

structure WorkspaceDb extends Db where
  /-- The ids of `workspaces`. -/
  workspaces : List Uuid
  items : Table Uuid RemediationItem
  remediationEvidence : List RemediationEvidence

def WorkspaceDb.empty : WorkspaceDb where
  __ := Db.empty
  workspaces := []
  items _ := none
  remediationEvidence := []

def WorkspaceDb.hasWorkspace (db : WorkspaceDb) (id : Uuid) : Bool := db.workspaces.any (· = id)

theorem WorkspaceDb.hasWorkspace_iff {db : WorkspaceDb} {id : Uuid} :
    db.hasWorkspace id = true ↔ id ∈ db.workspaces := by
  simp [WorkspaceDb.hasWorkspace]

/-! ## Who sees evidence -/

/-- `_via_criterion` of `evidence`: the workspace of the scan of the tool run. -/
def viaToolRun (db : WorkspaceDb) (workspaceId : Uuid) (e : Evidence) : Bool :=
  e.toolRunId.any fun id => (db.toolRuns id).any fun r =>
    (db.scans r.scanId).any fun s => s.workspaceId = workspaceId

/-- The other branch of `_evidence_criterion`. -/
def viaRemediation (db : WorkspaceDb) (workspaceId : Uuid) (e : Evidence) : Bool :=
  db.remediationEvidence.any fun l => l.evidenceId = e.id ∧ l.workspaceId = workspaceId

/-- `_evidence_criterion`. -/
def evidenceCriterion (db : WorkspaceDb) (workspaceId : Uuid) (e : Evidence) : Bool :=
  viaToolRun db workspaceId e || viaRemediation db workspaceId e

/-- Each row of `evidence` is seen by exactly one workspace. -/
def Owned (db : WorkspaceDb) : Prop :=
  ∀ e ∈ db.evidence, ∃! w, w ∈ db.workspaces ∧ evidenceCriterion db w e = true

/-! ## Deletions -/

def deleteEvidence (gone : Evidence → Bool) (db : WorkspaceDb) : WorkspaceDb :=
  let goneId id := db.evidence.any fun e => gone e ∧ e.id = id
  { db with
    evidence := db.evidence.filter fun e => !gone e
    remediationEvidence := db.remediationEvidence.filter fun l => !goneId l.evidenceId }

def deleteToolRuns (gone : Uuid → ToolRun → Bool) (db : WorkspaceDb) : WorkspaceDb :=
  let goneId id := (db.toolRuns id).any (gone id)
  let db := deleteEvidence (fun e => e.toolRunId.any goneId) db
  { db with toolRuns := db.toolRuns.delete gone }

def deleteScans (gone : Uuid → Scan → Bool) (db : WorkspaceDb) : WorkspaceDb :=
  let goneId id := (db.scans id).any (gone id)
  let db := deleteToolRuns (fun _ r => goneId r.scanId) db
  { db with scans := db.scans.delete gone }

def deleteTargets (gone : Uuid → Target → Bool) (db : WorkspaceDb) : WorkspaceDb :=
  let goneId id := (db.targets id).any (gone id)
  let db := deleteScans (fun _ s => goneId s.targetId) db
  { db with
    targets := db.targets.delete gone
    scopes := db.scopes.filter fun scope => !goneId scope.targetId }

def deleteItems (gone : Uuid → RemediationItem → Bool) (db : WorkspaceDb) : WorkspaceDb :=
  let goneId id := (db.items id).any (gone id)
  { db with
    items := db.items.delete gone
    remediationEvidence := db.remediationEvidence.filter fun l => !goneId l.remediationItemId }

/-- What is scanned in the projects. -/
def deleteScansOf (gone : Uuid → Project → Bool) (db : WorkspaceDb) : WorkspaceDb :=
  let goneId id := (db.projects id).any (gone id)
  deleteScans (fun _ s => goneId s.projectId) (deleteTargets (fun _ t => goneId t.projectId) db)

def deleteProjects (gone : Uuid → Project → Bool) (db : WorkspaceDb) : WorkspaceDb :=
  let goneId id := (db.projects id).any (gone id)
  let db := deleteItems (fun _ i => goneId i.projectId) (deleteScansOf gone db)
  { db with projects := db.projects.delete gone }

/-- What is in a workspace. -/
def clearWorkspace (workspaceId : Uuid) (db : WorkspaceDb) : WorkspaceDb :=
  deleteItems (fun _ i => i.workspaceId = workspaceId)
    (deleteScans (fun _ s => s.workspaceId = workspaceId)
      (deleteProjects (fun _ p => p.workspaceId = workspaceId) db))

/-- The row of a workspace, with its sites and the links that name it. -/
def dropWorkspace (workspaceId : Uuid) (db : WorkspaceDb) : WorkspaceDb :=
  { db with
    workspaces := db.workspaces.filter (· ≠ workspaceId)
    sites := db.sites.delete fun _ site => site.workspaceId = workspaceId
    remediationEvidence := db.remediationEvidence.filter (·.workspaceId ≠ workspaceId) }

def deleteWorkspace (workspaceId : Uuid) (db : WorkspaceDb) : WorkspaceDb :=
  dropWorkspace workspaceId (clearWorkspace workspaceId db)

/-! ## References -/

/-- Every reference names a row, an item and its proof are in the workspace of the project, and a
proof has no tool run and one link. -/
structure Intact (db : WorkspaceDb) : Prop where
  projects : ∀ id p, db.projects id = some p → p.workspaceId ∈ db.workspaces
  scans : ∀ id s, db.scans id = some s → s.workspaceId ∈ db.workspaces
  toolRuns : ∀ id r, db.toolRuns id = some r → ∃ s, db.scans r.scanId = some s
  evidence : ∀ e ∈ db.evidence, ∀ id ∈ e.toolRunId, ∃ r, db.toolRuns id = some r
  evidenceIds : (db.evidence.map (·.id)).Nodup
  items : ∀ id i, db.items id = some i →
    ∃ p, db.projects i.projectId = some p ∧ p.workspaceId = i.workspaceId
  links : ∀ l ∈ db.remediationEvidence,
    ∃ i, db.items l.remediationItemId = some i ∧ i.workspaceId = l.workspaceId
  proofs : ∀ l ∈ db.remediationEvidence,
    ∃ e ∈ db.evidence, e.id = l.evidenceId ∧ e.toolRunId = none
  proofIds : (db.remediationEvidence.map (·.evidenceId)).Nodup

/-- Each row of `evidence` without a tool run has a link. -/
def Linked (db : WorkspaceDb) : Prop :=
  ∀ e ∈ db.evidence, e.toolRunId = none → ∃ l ∈ db.remediationEvidence, l.evidenceId = e.id

/-- The workspace of the scan of the tool run. -/
def WorkspaceDb.origin (db : WorkspaceDb) (e : Evidence) : Option Uuid :=
  ((e.toolRunId.bind db.toolRuns).bind fun r => db.scans r.scanId).map (·.workspaceId)

def WorkspaceDb.ProofOf (db : WorkspaceDb) (e : Evidence) (workspaceId : Uuid) : Prop :=
  ∃ l ∈ db.remediationEvidence, l.evidenceId = e.id ∧ l.workspaceId = workspaceId

theorem evidenceCriterion_iff (db : WorkspaceDb) (workspaceId : Uuid) (e : Evidence) :
    evidenceCriterion db workspaceId e = true ↔
      Owner (db.origin e) (db.ProofOf e) workspaceId := by
  unfold evidenceCriterion Owner
  rw [Bool.or_eq_true]
  refine or_congr ?_ ?_
  · unfold viaToolRun WorkspaceDb.origin
    cases e.toolRunId with
    | none => simp
    | some id =>
      rw [Option.any_some, Option.bind_some]
      cases db.toolRuns id with
      | none => simp
      | some r => cases hs : db.scans r.scanId <;> simp [hs]
  · simp [viaRemediation, WorkspaceDb.ProofOf]

variable {db : WorkspaceDb}

/-- The only row with an id. -/
theorem Intact.evidence_unique (h : Intact db) {e e' : Evidence} (he : e ∈ db.evidence)
    (he' : e' ∈ db.evidence) (hid : e.id = e'.id) : e = e' :=
  List.inj_on_of_nodup_map h.evidenceIds he he' hid

theorem Intact.link_unique (h : Intact db) {l l' : RemediationEvidence}
    (hl : l ∈ db.remediationEvidence) (hl' : l' ∈ db.remediationEvidence)
    (hid : l.evidenceId = l'.evidenceId) : l = l' :=
  List.inj_on_of_nodup_map h.proofIds hl hl' hid

theorem Intact.link_workspace (h : Intact db) {l : RemediationEvidence}
    (hl : l ∈ db.remediationEvidence) : l.workspaceId ∈ db.workspaces := by
  obtain ⟨i, hi, hiw⟩ := h.links l hl
  obtain ⟨p, hp, hpw⟩ := h.items _ i hi
  rw [← hiw, ← hpw]
  exact h.projects _ p hp

theorem Intact.origin_isSome (h : Intact db) {e : Evidence} (he : e ∈ db.evidence) :
    (db.origin e).isSome ↔ e.toolRunId ≠ none := by
  unfold WorkspaceDb.origin
  cases hid : e.toolRunId with
  | none => simp
  | some id =>
    obtain ⟨r, hr⟩ := h.evidence e he id hid
    obtain ⟨s, hs⟩ := h.toolRuns id r hr
    simp [hr, hs]

theorem Intact.separate (h : Intact db) {e : Evidence} (he : e ∈ db.evidence) :
    Separate (db.origin e) (db.ProofOf e) where
  exclusive w hw := by
    obtain ⟨l, hl, hid, -⟩ := hw
    obtain ⟨e', he', hid', hnone⟩ := h.proofs l hl
    obtain rfl := h.evidence_unique he' he (hid'.trans hid)
    unfold WorkspaceDb.origin
    rw [hnone]
    rfl
  functional w w' := by
    rintro ⟨l, hl, hid, rfl⟩ ⟨l', hl', hid', rfl⟩
    rw [h.link_unique hl hl' (hid.trans hid'.symm)]

/-- Whoever sees a row is there. -/
theorem Intact.owner_exists (h : Intact db) {e : Evidence} {w : Uuid}
    (hw : Owner (db.origin e) (db.ProofOf e) w) : w ∈ db.workspaces := by
  rcases hw with hw | ⟨l, hl, -, rfl⟩
  · obtain ⟨s, hs, rfl⟩ := Option.map_eq_some_iff.mp hw
    obtain ⟨r, -, hs⟩ := Option.bind_eq_some_iff.mp hs
    exact h.scans _ s hs
  · exact h.link_workspace hl

/-- **Every row has exactly one owner** when every row without a tool run has a link. -/
theorem owned_iff_linked (h : Intact db) : Owned db ↔ Linked db := by
  refine forall₂_congr fun e he => ?_
  have hunique : (∃! w, w ∈ db.workspaces ∧ evidenceCriterion db w e = true) ↔
      ∃! w, Owner (db.origin e) (db.ProofOf e) w := by
    refine existsUnique_congr fun w => ?_
    rw [evidenceCriterion_iff]
    exact and_iff_right_of_imp h.owner_exists
  rw [hunique, (h.separate he).existsUnique_iff, h.origin_isSome he]
  constructor
  · intro howner hnone
    obtain ⟨w, l, hl, hid, -⟩ := howner.resolve_left (not_not.mpr hnone)
    exact ⟨l, hl, hid⟩
  · intro hlinked
    by_cases hnone : e.toolRunId = none
    · obtain ⟨l, hl, hid⟩ := hlinked hnone
      exact .inr ⟨_, l, hl, hid, rfl⟩
    · exact .inl hnone

/-! ## What the deletions keep -/

/-- The proofs, their links and the rows that the links refer to are the same. -/
structure SameProofs (db db' : WorkspaceDb) : Prop where
  workspaces : db'.workspaces = db.workspaces
  projects : db'.projects = db.projects
  items : db'.items = db.items
  links : db'.remediationEvidence = db.remediationEvidence
  evidence : ∀ e, e.toolRunId = none → (e ∈ db'.evidence ↔ e ∈ db.evidence)

theorem SameProofs.trans {db₁ db₂ db₃ : WorkspaceDb} (h : SameProofs db₁ db₂)
    (h' : SameProofs db₂ db₃) : SameProofs db₁ db₃ where
  workspaces := h'.workspaces.trans h.workspaces
  projects := h'.projects.trans h.projects
  items := h'.items.trans h.items
  links := h'.links.trans h.links
  evidence e he := (h'.evidence e he).trans (h.evidence e he)

theorem SameProofs.linked_iff {db db' : WorkspaceDb} (h : SameProofs db db') :
    Linked db' ↔ Linked db := by
  unfold Linked
  rw [h.links]
  constructor
  · intro hlinked e he hnone
    exact hlinked e ((h.evidence e hnone).mpr he) hnone
  · intro hlinked e he hnone
    exact hlinked e ((h.evidence e hnone).mp he) hnone

theorem mem_deleteEvidence {gone : Evidence → Bool} {e : Evidence} :
    e ∈ (deleteEvidence gone db).evidence ↔ e ∈ db.evidence ∧ gone e = false := by
  simp [deleteEvidence]

theorem mem_deleteEvidence_links {gone : Evidence → Bool} {l : RemediationEvidence} :
    l ∈ (deleteEvidence gone db).remediationEvidence ↔
      l ∈ db.remediationEvidence ∧ ∀ e ∈ db.evidence, gone e = true → e.id ≠ l.evidenceId := by
  simp [deleteEvidence]

theorem deleteEvidence_intact (h : Intact db) (gone : Evidence → Bool) :
    Intact (deleteEvidence gone db) :=
  { h with
    evidence := fun e he => h.evidence e (mem_deleteEvidence.mp he).1
    evidenceIds := h.evidenceIds.sublist (List.filter_sublist.map _)
    links := fun l hl => h.links l (mem_deleteEvidence_links.mp hl).1
    proofs := fun l hl => by
      obtain ⟨hl, hstays⟩ := mem_deleteEvidence_links.mp hl
      obtain ⟨e, he, hid, hnone⟩ := h.proofs l hl
      have hgone : gone e = false := Bool.eq_false_iff.mpr fun hgone => hstays e he hgone hid
      exact ⟨e, mem_deleteEvidence.mpr ⟨he, hgone⟩, hid, hnone⟩
    proofIds := h.proofIds.sublist (List.filter_sublist.map _) }

/-- A row that stays keeps its link. -/
theorem deleteEvidence_linked (h : Intact db) (hlinked : Linked db)
    (gone : Evidence → Bool) : Linked (deleteEvidence gone db) := by
  intro e he hnone
  obtain ⟨he, hstays⟩ := mem_deleteEvidence.mp he
  obtain ⟨l, hl, hid⟩ := hlinked e he hnone
  refine ⟨l, mem_deleteEvidence_links.mpr ⟨hl, fun e' he' hgone hid' => ?_⟩, hid⟩
  obtain rfl := h.evidence_unique he' he (hid'.trans hid)
  rw [hstays] at hgone
  cases hgone

/-- The evidence of tool runs is not the proof of any link. -/
theorem deleteEvidence_same (h : Intact db) (gone : Evidence → Bool)
    (hgone : ∀ e, gone e = true → e.toolRunId ≠ none) :
    SameProofs db (deleteEvidence gone db) where
  workspaces := rfl
  projects := rfl
  items := rfl
  links := by
    refine List.filter_eq_self.mpr fun l hl => ?_
    obtain ⟨e, he, hid, hnone⟩ := h.proofs l hl
    simp only [Bool.not_eq_true', List.any_eq_false, decide_eq_true_eq]
    rintro e' he' ⟨hgone', hid'⟩
    obtain rfl := h.evidence_unique he' he (hid'.trans hid.symm)
    exact hgone e' hgone' hnone
  evidence e hnone := by
    rw [mem_deleteEvidence]
    refine and_iff_left_of_imp fun _ => Bool.eq_false_iff.mpr fun h => ?_
    exact hgone e h hnone

theorem deleteToolRuns_intact (h : Intact db) (gone : Uuid → ToolRun → Bool) :
    Intact (deleteToolRuns gone db) :=
  { deleteEvidence_intact h fun e => e.toolRunId.any fun id => (db.toolRuns id).any (gone id) with
    toolRuns := fun id r hr => h.toolRuns id r (Table.delete_eq_some.mp hr).1
    evidence := fun e he id hid => by
      obtain ⟨he, hstays⟩ := mem_deleteEvidence.mp he
      obtain ⟨r, hr⟩ := h.evidence e he id hid
      rw [Option.mem_def.mp hid, Option.any_some] at hstays
      exact ⟨r, Table.delete_of_stays hr hstays⟩ }

theorem deleteToolRuns_same (h : Intact db) (gone : Uuid → ToolRun → Bool) :
    SameProofs db (deleteToolRuns gone db) := by
  have hsame := deleteEvidence_same h
    (fun e => e.toolRunId.any fun id => (db.toolRuns id).any (gone id)) fun e hgone hnone => by
      rw [hnone] at hgone
      cases hgone
  exact { hsame with }

theorem deleteScans_toolRuns {gone : Uuid → Scan → Bool} {id : Uuid} {r : ToolRun} :
    (deleteScans gone db).toolRuns id = some r ↔
      db.toolRuns id = some r ∧ (db.scans r.scanId).any (gone r.scanId) = false := by
  simp only [deleteScans, deleteToolRuns, deleteEvidence, Table.delete_eq_some]

theorem deleteScans_intact (h : Intact db) (gone : Uuid → Scan → Bool) :
    Intact (deleteScans gone db) :=
  { deleteToolRuns_intact h fun _ r => (db.scans r.scanId).any (gone r.scanId) with
    scans := fun id s hs => h.scans id s (Table.delete_eq_some.mp hs).1
    toolRuns := fun id r hr => by
      obtain ⟨hr, hstays⟩ := deleteScans_toolRuns.mp hr
      obtain ⟨s, hs⟩ := h.toolRuns id r hr
      exact ⟨s, Table.delete_of_stays hs hstays⟩ }

theorem deleteScans_same (h : Intact db) (gone : Uuid → Scan → Bool) :
    SameProofs db (deleteScans gone db) :=
  { deleteToolRuns_same h fun _ r => (db.scans r.scanId).any (gone r.scanId) with }

theorem deleteTargets_intact (h : Intact db) (gone : Uuid → Target → Bool) :
    Intact (deleteTargets gone db) :=
  { deleteScans_intact h fun _ s => (db.targets s.targetId).any (gone s.targetId) with }

theorem deleteTargets_same (h : Intact db) (gone : Uuid → Target → Bool) :
    SameProofs db (deleteTargets gone db) :=
  { deleteScans_same h fun _ s => (db.targets s.targetId).any (gone s.targetId) with }

/-! ## Deletions of what a proof belongs to -/

/-- The item of a link is deleted. -/
def ItemGone (gone : Uuid → RemediationItem → Bool) (db : WorkspaceDb) (l : RemediationEvidence) :
    Bool :=
  (db.items l.remediationItemId).any (gone l.remediationItemId)

theorem mem_deleteItems_links {gone : Uuid → RemediationItem → Bool} {l : RemediationEvidence} :
    l ∈ (deleteItems gone db).remediationEvidence ↔
      l ∈ db.remediationEvidence ∧ ItemGone gone db l = false := by
  simp [deleteItems, ItemGone]

theorem deleteItems_intact (h : Intact db) (gone : Uuid → RemediationItem → Bool) :
    Intact (deleteItems gone db) :=
  { h with
    items := fun id i hi => h.items id i (Table.delete_eq_some.mp hi).1
    links := fun l hl => by
      obtain ⟨hl, hstays⟩ := mem_deleteItems_links.mp hl
      obtain ⟨i, hi, hworkspace⟩ := h.links l hl
      exact ⟨i, Table.delete_of_stays hi hstays, hworkspace⟩
    proofs := fun l hl => h.proofs l (mem_deleteItems_links.mp hl).1
    proofIds := h.proofIds.sublist (List.filter_sublist.map _) }

/-- **The proof of an item that is deleted stays** without a link. -/
theorem deleteItems_linked_iff (h : Intact db) (hlinked : Linked db)
    (gone : Uuid → RemediationItem → Bool) :
    Linked (deleteItems gone db) ↔
      ∀ l ∈ db.remediationEvidence, ItemGone gone db l = false := by
  constructor
  · intro hafter l hl
    obtain ⟨e, he, hid, hnone⟩ := h.proofs l hl
    obtain ⟨l', hl', hid'⟩ := hafter e he hnone
    obtain ⟨hl', hstays⟩ := mem_deleteItems_links.mp hl'
    obtain rfl := h.link_unique hl' hl (hid'.trans hid)
    exact hstays
  · intro hstays e he hnone
    obtain ⟨l, hl, hid⟩ := hlinked e he hnone
    exact ⟨l, mem_deleteItems_links.mpr ⟨hl, hstays l hl⟩, hid⟩

theorem deleteScansOf_intact (h : Intact db) (gone : Uuid → Project → Bool) :
    Intact (deleteScansOf gone db) :=
  deleteScans_intact (deleteTargets_intact h _) _

theorem deleteScansOf_same (h : Intact db) (gone : Uuid → Project → Bool) :
    SameProofs db (deleteScansOf gone db) :=
  (deleteTargets_same h _).trans (deleteScans_same (deleteTargets_intact h _) _)

theorem deleteProjects_items {gone : Uuid → Project → Bool} {id : Uuid} {i : RemediationItem} :
    (deleteProjects gone db).items id = some i ↔
      db.items id = some i ∧ (db.projects i.projectId).any (gone i.projectId) = false := by
  simp only [deleteProjects, deleteItems, Table.delete_eq_some]
  rfl

/-- The project of a link's item is deleted. -/
def ProjectGone (gone : Uuid → Project → Bool) (db : WorkspaceDb) (l : RemediationEvidence) :
    Bool :=
  (db.items l.remediationItemId).any fun i => (db.projects i.projectId).any (gone i.projectId)

theorem deleteProjects_intact (h : Intact db) (gone : Uuid → Project → Bool) :
    Intact (deleteProjects gone db) :=
  { deleteItems_intact (deleteScansOf_intact h gone) fun _ i => (db.projects i.projectId).any
      (gone i.projectId) with
    projects := fun id p hp => h.projects id p (Table.delete_eq_some.mp hp).1
    items := fun id i hi => by
      obtain ⟨hi, hstays⟩ := deleteProjects_items.mp hi
      obtain ⟨p, hp, hworkspace⟩ := h.items id i hi
      exact ⟨p, Table.delete_of_stays hp hstays, hworkspace⟩ }

theorem deleteProjects_links (h : Intact db) {gone : Uuid → Project → Bool}
    {l : RemediationEvidence} :
    l ∈ (deleteProjects gone db).remediationEvidence ↔
      l ∈ db.remediationEvidence ∧ ProjectGone gone db l = false := by
  have hsame := deleteScansOf_same h gone
  simp only [deleteProjects, mem_deleteItems_links, ItemGone, ProjectGone,
    hsame.links, hsame.items]

/-- **The proof of a project that is deleted stays** without a link. -/
theorem deleteProjects_linked_iff (h : Intact db) (hlinked : Linked db)
    (gone : Uuid → Project → Bool) :
    Linked (deleteProjects gone db) ↔
      ∀ l ∈ db.remediationEvidence, ProjectGone gone db l = false := by
  have hsame := deleteScansOf_same h gone
  refine (deleteItems_linked_iff (deleteScansOf_intact h gone) (hsame.linked_iff.mpr hlinked)
    fun _ i => (db.projects i.projectId).any (gone i.projectId)).trans ?_
  simp only [ItemGone, ProjectGone, hsame.links, hsame.items]

/-! ## The deletion of a workspace -/

/-- `_delete_unreferenced_evidence`. -/
def deleteUnreferencedEvidence (workspaceId : Uuid) (db : WorkspaceDb) : WorkspaceDb :=
  deleteEvidence (fun e => e.toolRunId.isNone && viaRemediation db workspaceId e) db

/-- The proof of a workspace goes with its links. -/
theorem deleteUnreferencedEvidence_links (h : Intact db) {workspaceId : Uuid}
    {l : RemediationEvidence}
    (hl : l ∈ (deleteUnreferencedEvidence workspaceId db).remediationEvidence) :
    l.workspaceId ≠ workspaceId := by
  obtain ⟨hl, hstays⟩ := mem_deleteEvidence_links.mp hl
  intro hworkspace
  obtain ⟨e, he, hid, hnone⟩ := h.proofs l hl
  refine hstays e he ?_ hid
  simp only [viaRemediation, hnone, Option.isNone_none, Bool.true_and, List.any_eq_true,
    decide_eq_true_eq]
  exact ⟨l, hl, hid.symm, hworkspace⟩

theorem clearWorkspace_intact (h : Intact db) (workspaceId : Uuid) :
    Intact (clearWorkspace workspaceId db) :=
  deleteItems_intact (deleteScans_intact (deleteProjects_intact h _) _) _

theorem clearWorkspace_projects {workspaceId id : Uuid} {p : Project} :
    (clearWorkspace workspaceId db).projects id = some p ↔
      db.projects id = some p ∧ p.workspaceId ≠ workspaceId := by
  simp only [clearWorkspace, deleteItems, deleteScans, deleteToolRuns, deleteEvidence,
    deleteProjects, deleteScansOf, deleteTargets, Table.delete_eq_some, decide_eq_false_iff_not,
    ne_eq]

theorem clearWorkspace_scans {workspaceId id : Uuid} {s : Scan}
    (hs : (clearWorkspace workspaceId db).scans id = some s) : s.workspaceId ≠ workspaceId := by
  simp only [clearWorkspace, deleteItems, deleteScans, Table.delete_eq_some,
    decide_eq_false_iff_not] at hs
  exact hs.2

theorem dropWorkspace_intact (h : Intact db) {workspaceId : Uuid}
    (hprojects : ∀ id p, db.projects id = some p → p.workspaceId ≠ workspaceId)
    (hscans : ∀ id s, db.scans id = some s → s.workspaceId ≠ workspaceId) :
    Intact (dropWorkspace workspaceId db) :=
  have hstays : ∀ w ∈ db.workspaces, w ≠ workspaceId →
      w ∈ db.workspaces.filter (· ≠ workspaceId) := fun _ hw hne =>
    List.mem_filter.mpr ⟨hw, decide_eq_true hne⟩
  { h with
    projects := fun id p hp => hstays _ (h.projects id p hp) (hprojects id p hp)
    scans := fun id s hs => hstays _ (h.scans id s hs) (hscans id s hs)
    links := fun l hl => h.links l (List.mem_filter.mp hl).1
    proofs := fun l hl => h.proofs l (List.mem_filter.mp hl).1
    proofIds := h.proofIds.sublist (List.filter_sublist.map _) }

theorem deleteWorkspace_intact (h : Intact db) (workspaceId : Uuid) :
    Intact (deleteWorkspace workspaceId db) :=
  dropWorkspace_intact (clearWorkspace_intact h workspaceId)
    (fun _ _ hp => (clearWorkspace_projects.mp hp).2) fun _ _ hs => clearWorkspace_scans hs

theorem clearWorkspace_links (h : Intact db) {workspaceId : Uuid} {l : RemediationEvidence}
    (hl : l ∈ (clearWorkspace workspaceId db).remediationEvidence) :
    l ∈ db.remediationEvidence := by
  have hl' := (mem_deleteItems_links.mp hl).1
  rw [(deleteScans_same (deleteProjects_intact h _) _).links] at hl'
  exact ((deleteProjects_links h).mp hl').1

/-- Without proof of its own, a workspace takes no link of another one with it. -/
theorem clearWorkspace_linked (h : Intact db) (hlinked : Linked db) {workspaceId : Uuid}
    (hnone : ∀ l ∈ db.remediationEvidence, l.workspaceId ≠ workspaceId) :
    Linked (clearWorkspace workspaceId db) := by
  have hintact := deleteProjects_intact h fun _ p => p.workspaceId = workspaceId
  have hsame := deleteScans_same hintact fun _ s => s.workspaceId = workspaceId
  have hscans := deleteScans_intact hintact fun _ s => s.workspaceId = workspaceId
  have hprojects : ∀ l ∈ db.remediationEvidence,
      ProjectGone (fun _ p => p.workspaceId = workspaceId) db l = false := by
    intro l hl
    obtain ⟨i, hi, hiw⟩ := h.links l hl
    obtain ⟨p, hp, hpw⟩ := h.items _ i hi
    simp only [ProjectGone, hi, hp, Option.any_some, decide_eq_false_iff_not]
    rw [hpw, hiw]
    exact hnone l hl
  have hlinked' := (deleteProjects_linked_iff h hlinked _).mpr hprojects
  refine (deleteItems_linked_iff hscans (hsame.linked_iff.mpr hlinked') _).mpr fun l hl => ?_
  obtain ⟨i, hi, hiw⟩ := hscans.links l hl
  simp only [ItemGone, hi, Option.any_some, decide_eq_false_iff_not]
  rw [hsame.links] at hl
  rw [hiw]
  exact hnone l ((deleteProjects_links h).mp hl).1

/-- **A workspace without proof** is deleted without a proof that stays behind. -/
theorem deleteWorkspace_linked (h : Intact db) (hlinked : Linked db) {workspaceId : Uuid}
    (hnone : ∀ l ∈ db.remediationEvidence, l.workspaceId ≠ workspaceId) :
    Linked (deleteWorkspace workspaceId db) := by
  intro e he hrun
  obtain ⟨l, hl, hid⟩ := clearWorkspace_linked h hlinked hnone e he hrun
  refine ⟨l, List.mem_filter.mpr ⟨hl, decide_eq_true ?_⟩, hid⟩
  exact hnone l (clearWorkspace_links h hl)

end ScanPlatform.Tenancy
