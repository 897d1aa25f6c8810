import ScanPlatform.Base.Phases
import ScanPlatform.Retention.Objects
import ScanPlatform.Tenancy.EvidenceOwners

/-!
# The teardown of a workspace

`perform_workspace_deletion` and `submit_evidence`, statement by statement. The deletion captures
what names an object, deletes the rows in one commit and only then the objects; a submission stores
its object before it commits a row.

* `TeardownDb`: the rows, the objects, and the workspaces for which they have been stored;
* `StorageTargets`, `Deletion`, `Deletion.reaches`: what is captured, and what a storage deletion
  deletes;
* `Session`, `Session.advance`, `teardownStep`: deletions and submissions, between any two
  statements;
* `Session.todo`, `Pending`: the storage deletions that a session in progress has still to make;
* `Clean`, `Safe`: nothing of a workspace is left, and a step that leaves nothing behind;
* `GoesWith`, `not_mem_of_goesWith`: rows that the deletion reaches;
* **`clean_of_safe`**, `stranded`: runs that leave nothing of a workspace, and two that do.
-/

set_option autoImplicit false

namespace ScanPlatform.Teardown

open Checks PyStr Phases Tenancy
open Retention (parseS3 addresses toolRunPrefix)

/-! ## Rows and objects -/

/-- A row of `reports`. -/
structure Report where
  projectId : Uuid
  storageUri : Option String

structure TeardownDb extends WorkspaceDb where
  reports : List Report
  /-- Ids in the order in which `tool_runs` is read. -/
  runIds : List Uuid
  listed : ∀ id r, toolRuns id = some r → id ∈ runIds
  /-- The workspace for which the object at a URI has been stored. -/
  storedFor : Table String Uuid
  /-- The workspace for which a row of `evidence` has been written. -/
  filedFor : Table Uuid Uuid

/-- The rows after a statement that adds no tool run. -/
def TeardownDb.write (d : TeardownDb) (db : WorkspaceDb)
    (h : ∀ id r, db.toolRuns id = some r → ∃ r', d.toolRuns id = some r') : TeardownDb :=
  { d with
    toWorkspaceDb := db
    listed := fun id r hr => (h id r hr).elim fun r' hr' => d.listed id r' hr' }

/-! ## Storage deletions -/

/-- `_StorageTargets`. -/
structure StorageTargets extends Retention.StorageTargets where
  workspaceIds : List Uuid

/-- A call of the storage provider: `delete_prefix` or `delete`. -/
inductive Deletion where
  | toolRun (id : Uuid)
  | evidence (uri : String)
  | remediation (workspaceId : Uuid)
  | report (uri : String)

/-- The calls of `_cleanup_storage`, in order. -/
def StorageTargets.deletions (t : StorageTargets) : List Deletion :=
  t.toolRunIds.map .toolRun ++ t.evidenceUris.map .evidence ++
    t.workspaceIds.map .remediation ++ t.reportUris.map .report

/-- `workspaces/{workspace_id}/remediation/`. -/
def remediationPrefix (id : Uuid) : String := "workspaces/" ++ id.str ++ "/remediation/"

/-- The call deletes the object at the URI. -/
def Deletion.reaches (bucket uri : String) : Deletion → Bool
  | .toolRun id => under (toolRunPrefix id)
  | .remediation id => under (remediationPrefix id)
  | .evidence named | .report named => (parseS3 uri).any (addresses named)
where
  under (start : String) : Bool :=
    (parseS3 uri).any fun o => o.bucket = bucket ∧ startsWith o.key start

section

variable (d : TeardownDb) (workspaceId : Uuid)

/-- The ids of the tool runs of the workspace. -/
def TeardownDb.toolRunIdsOf : List Uuid :=
  d.runIds.filter fun id => (d.toolRuns id).any fun r =>
    (d.scans r.scanId).any fun s => s.workspaceId = workspaceId

def TeardownDb.reportUrisOf : List String :=
  (d.reports.filter fun r => (d.projects r.projectId).any (·.workspaceId = workspaceId)).filterMap
    (·.storageUri)

def TeardownDb.evidenceUrisOf : List String :=
  (d.evidence.filter (evidenceCriterion d.toWorkspaceDb workspaceId)).map (·.storageUri)

/-- The call of the storage provider. -/
def TeardownDb.clear (bucket : String) (t : Deletion) : TeardownDb :=
  { d with objects := d.objects.delete fun uri _ => t.reaches bucket uri }

end

/-! ## The deletion of the rows -/

/-- No scan, tool run or evidence is added. -/
structure Fewer (db db' : WorkspaceDb) : Prop where
  scans : ∀ id s, db'.scans id = some s → db.scans id = some s
  toolRuns : ∀ id r, db'.toolRuns id = some r → db.toolRuns id = some r
  evidence : ∀ e ∈ db'.evidence, e ∈ db.evidence

theorem Fewer.trans {db₁ db₂ db₃ : WorkspaceDb} (h : Fewer db₁ db₂) (h' : Fewer db₂ db₃) :
    Fewer db₁ db₃ where
  scans id s hs := h.scans id s (h'.scans id s hs)
  toolRuns id r hr := h.toolRuns id r (h'.toolRuns id r hr)
  evidence e he := h.evidence e (h'.evidence e he)

theorem deleteEvidence_fewer (gone : Evidence → Bool) (db : WorkspaceDb) :
    Fewer db (deleteEvidence gone db) where
  scans _ _ hs := hs
  toolRuns _ _ hr := hr
  evidence _ he := (mem_deleteEvidence.mp he).1

theorem deleteScans_fewer (gone : Uuid → Scan → Bool) (db : WorkspaceDb) :
    Fewer db (deleteScans gone db) where
  scans _ _ hs := (Table.delete_eq_some.mp hs).1
  toolRuns _ _ hr := (deleteScans_toolRuns.mp hr).1
  evidence _ he := (mem_deleteEvidence.mp he).1

theorem deleteWorkspace_fewer (workspaceId : Uuid) (db : WorkspaceDb) :
    Fewer db (deleteWorkspace workspaceId db) := by
  -- The scans of the targets, of the projects and of the workspace, one after the other.
  have htargets := deleteScans_fewer (fun _ s => (db.targets s.targetId).any fun t =>
    (db.projects t.projectId).any fun p => p.workspaceId = workspaceId) db
  have hprojects : Fewer db (deleteProjects (fun _ p => p.workspaceId = workspaceId) db) :=
    { htargets.trans (deleteScans_fewer _ _) with }
  exact { hprojects.trans (deleteScans_fewer (fun _ s => s.workspaceId = workspaceId) _) with }

/-- The commit of the deletion: proof without a tool run, the workspace and what cascades. -/
def deleteRows (workspaceId : Uuid) (db : WorkspaceDb) : WorkspaceDb :=
  deleteWorkspace workspaceId (deleteUnreferencedEvidence workspaceId db)

theorem deleteRows_fewer (workspaceId : Uuid) (db : WorkspaceDb) :
    Fewer db (deleteRows workspaceId db) :=
  (deleteEvidence_fewer _ db).trans (deleteWorkspace_fewer workspaceId _)

theorem deleteRows_intact {db : WorkspaceDb} (h : Intact db) (workspaceId : Uuid) :
    Intact (deleteRows workspaceId db) :=
  deleteWorkspace_intact (deleteEvidence_intact h _) workspaceId

/-- The deletion reaches a row of `evidence`: that of a tool run by the cascade, and proof by its
link. -/
def GoesWith (db : WorkspaceDb) (workspaceId : Uuid) (e : Evidence) : Prop :=
  viaToolRun db workspaceId e = true ∨
    e.toolRunId = none ∧ viaRemediation db workspaceId e = true

/-- **A row that is reached** is not there any more. -/
theorem not_mem_of_goesWith {db : WorkspaceDb} (h : Intact db) {workspaceId : Uuid} {e : Evidence}
    (hgoes : GoesWith db workspaceId e) : e ∉ (deleteRows workspaceId db).evidence := by
  intro he
  rcases hgoes with hrun | ⟨hnone, hlink⟩
  · obtain ⟨id, hid, hrun⟩ := (Option.any_eq_true _ _).mp hrun
    obtain ⟨r, hr, hscan⟩ := (Option.any_eq_true _ _).mp hrun
    obtain ⟨s, hs, hworkspace⟩ := (Option.any_eq_true _ _).mp hscan
    have hfewer := deleteRows_fewer workspaceId db
    have hintact := deleteRows_intact h workspaceId
    obtain ⟨r', hr'⟩ := hintact.evidence e he id hid
    obtain ⟨s', hs'⟩ := hintact.toolRuns id r' hr'
    obtain rfl := Option.some.inj ((hfewer.toolRuns id r' hr').symm.trans hr)
    obtain rfl := Option.some.inj ((hfewer.scans _ s' hs').symm.trans hs)
    exact clearWorkspace_scans hs' (of_decide_eq_true hworkspace)
  · have hstays := (deleteWorkspace_fewer workspaceId _).evidence e he
    have hgone := (mem_deleteEvidence.mp hstays).2
    rw [hnone, hlink] at hgone
    cases hgone

/-- The rows after the commit. -/
def TeardownDb.deleteRows (d : TeardownDb) (workspaceId : Uuid) : TeardownDb :=
  { d.write (Teardown.deleteRows workspaceId d.toWorkspaceDb) fun id r hr =>
      ⟨r, (deleteRows_fewer workspaceId d.toWorkspaceDb).toolRuns id r hr⟩ with
    reports := d.reports.filter fun r =>
      !(d.projects r.projectId).any fun p => p.workspaceId = workspaceId }

/-! ## A submission -/

/-- A submission that has been accepted; `evidenceId` is the id made for its row. -/
structure Accepted where
  scan : Scan
  content : Bytes
  digest : String
  evidenceId : Uuid
  payload : EvidenceIn

/-- Where the bytes are put. -/
@[irreducible] def Accepted.uri (svc : Services) (a : Accepted) : String :=
  evidenceUri svc a.payload a.digest

/-- A new row is refused by a foreign key, or by the primary key. -/
def Accepted.refused (a : Accepted) (d : TeardownDb) : Bool :=
  (a.payload.toolRunId.any fun id => (d.toolRuns id).isNone) || !d.freshEvidence a.evidenceId

theorem fileEvidence_toolRuns {svc : Services} {scan : Scan} {payload : EvidenceIn}
    {content : Bytes} {uri : String} {rowId id : Uuid} {db : Db} {r : ToolRun}
    (hr : (fileEvidence svc scan payload content uri rowId db).toolRuns id = some r) :
    ∃ r', db.toolRuns id = some r' := by
  obtain ⟨links, toolRuns, calls, ingests, hfile, hruns⟩ :=
    fileEvidence_frame svc scan payload content uri rowId db
  have hrun : toolRuns id = some r := by
    rw [hfile] at hr
    exact hr
  rcases hruns with hsame | ⟨id', r', hr', hset⟩
  · rw [hsame] at hrun
    exact ⟨r, hrun⟩
  · by_cases hid : id = id'
    · rw [hid]
      exact ⟨r', hr'⟩
    · rw [hset, Table.set_of_ne _ _ hid] at hrun
      exact ⟨r, hrun⟩

section

variable (svc : Services) (a : Accepted) (d : TeardownDb)

def TeardownDb.upload : TeardownDb :=
  { d with
    objects := d.objects.set (a.uri svc) a.content
    storedFor := d.storedFor.set (a.uri svc) a.scan.workspaceId }

/-- The link of a screenshot, the reference of the tool run and the parse. -/
def TeardownDb.follow (rowId : Uuid) : TeardownDb :=
  d.write { d.toWorkspaceDb with
      toDb := fileEvidence svc a.scan a.payload a.content (a.uri svc) rowId d.toDb }
    fun _ _ hr => fileEvidence_toolRuns hr

/-- A new row. -/
def TeardownDb.insert : TeardownDb :=
  { d with
    evidence := d.evidence ++ [newEvidence svc a.evidenceId a.payload a.digest]
    filedFor := d.filedFor.set a.evidenceId a.scan.workspaceId }

/-- A new row unless one has been found, and what follows on it. -/
def TeardownDb.file : Option Evidence → TeardownDb
  | some row => d.follow svc a row.id
  | none => if a.refused d then d else (d.insert svc a).follow svc a a.evidenceId

end

/-! ## Sessions -/

/-- A session between two statements. -/
inductive Session where
  /-- `perform_workspace_deletion` is about to load the workspace, to cancel its scans, to capture
  what names objects, to commit, and to make the next call of the storage provider. -/
  | loading (workspaceId : Uuid)
  | revoking (workspaceId : Uuid)
  | capturingToolRuns (workspaceId : Uuid)
  | capturingReports (workspaceId : Uuid) (toolRunIds : List Uuid)
  | capturingEvidence (workspaceId : Uuid) (toolRunIds : List Uuid) (reportUris : List String)
  | committing (workspaceId : Uuid) (targets : StorageTargets)
  | cleaning (todo : List Deletion)
  /-- `submit_evidence` is about to check, to upload, to look for the row, and to commit it. -/
  | checking (worker : ScannerWorker) (emergency : Bool) (evidenceId : Uuid) (payload : EvidenceIn)
  | uploading (a : Accepted)
  | finding (a : Accepted)
  | filing (a : Accepted) (row : Option Evidence)

/-- A delivery of the task, or a request of a worker. -/
inductive Call where
  | performWorkspaceDeletion (workspaceId : Uuid)
  | submitEvidence (worker : ScannerWorker) (emergency : Bool) (evidenceId : Uuid)
      (payload : EvidenceIn)

def Call.start : Call → Session
  | .performWorkspaceDeletion workspaceId => .loading workspaceId
  | .submitEvidence worker emergency evidenceId payload =>
    .checking worker emergency evidenceId payload

/-- What is captured of a workspace, which itself is one of the targets. -/
def captured (workspaceId : Uuid) (toolRunIds : List Uuid) (reportUris evidenceUris : List String) :
    StorageTargets where
  toolRunIds := toolRunIds
  reportUris := reportUris
  evidenceUris := evidenceUris
  workspaceIds := [workspaceId]

/-- A submission that passes the checks is accepted for the scan as it is now. -/
def accept (cfg : Settings) (svc : Services) (d : TeardownDb) (worker : ScannerWorker)
    (emergency : Bool) (evidenceId : Uuid) (payload : EvidenceIn) : Option Session :=
  match evidenceGate cfg svc d.toDb worker emergency payload with
  | .error _ => none
  | .ok (scan, content, digest) => some (.uploading ⟨scan, content, digest, evidenceId, payload⟩)

/-- The next statement of a session, at a time. -/
def Session.advance (cfg : Settings) (svc : Services) (now : ℤ) (d : TeardownDb) :
    Session → TeardownDb × Option Session
  | .loading w => (d, if d.hasWorkspace w then some (.revoking w) else none)
  | .revoking w =>
    (d.write (deactivateAndRevoke now w d.toWorkspaceDb) fun _ r hr => ⟨r, hr⟩,
      some (.capturingToolRuns w))
  | .capturingToolRuns w => (d, some (.capturingReports w (d.toolRunIdsOf w)))
  | .capturingReports w toolRunIds =>
    (d, some (.capturingEvidence w toolRunIds (d.reportUrisOf w)))
  | .capturingEvidence w toolRunIds reportUris =>
    (d, some (.committing w (captured w toolRunIds reportUris (d.evidenceUrisOf w))))
  | .committing w targets => (d.deleteRows w, some (.cleaning targets.deletions))
  | .cleaning [] => (d, none)
  | .cleaning (t :: rest) => (d.clear svc.bucket t, some (.cleaning rest))
  | .checking worker emergency evidenceId payload =>
    (d, accept cfg svc d worker emergency evidenceId payload)
  | .uploading a => (d.upload svc a, some (.finding a))
  | .finding a => (d, some (.filing a (findEvidence d.toDb a.payload.toolRunId a.digest)))
  | .filing a row => (d.file svc a row, none)

abbrev TeardownAction := Action Call ℤ

abbrev TeardownSystem := System TeardownDb Session

/-- A session begins, takes its next statement, or crashes. -/
def teardownStep (cfg : Settings) (svc : Services) :
    TeardownAction → TeardownSystem → Option TeardownSystem :=
  act Call.start (Session.advance cfg svc)

/-! ## What is to hold -/

/-- The storage deletions that a session has still to make, with what it has captured so far. -/
def Session.todo : Session → List Deletion
  | .revoking w | .capturingToolRuns w => (captured w [] [] []).deletions
  | .capturingReports w toolRunIds => (captured w toolRunIds [] []).deletions
  | .capturingEvidence w toolRunIds reportUris => (captured w toolRunIds reportUris []).deletions
  | .committing _ targets => targets.deletions
  | .cleaning todo => todo
  | .loading _ | .checking .. | .uploading _ | .finding _ | .filing .. => []

/-- The session has still to delete the object at the URI. -/
def Session.Owes (bucket : String) (x : Session) (uri : String) : Prop :=
  x.todo.any (·.reaches bucket uri) = true

/-- A session in progress has still to delete the object at the URI. -/
def Pending (bucket : String) : TeardownSystem → String → Prop := Owed (Session.Owes bucket)

section

variable (d : TeardownDb) (workspaceId : Uuid)

/-- The object at the URI is there, and one of the workspace. -/
def TeardownDb.ObjectOf (uri : String) : Prop :=
  (d.objects uri).isSome = true ∧ d.storedFor uri = some workspaceId

/-- The row is one of the workspace, which has filed it or sees it. -/
def TeardownDb.RowOf (e : Evidence) : Prop :=
  d.filedFor e.id = some workspaceId ∨ evidenceCriterion d.toWorkspaceDb workspaceId e = true

/-- Nothing of the workspace is left. -/
structure Clean : Prop where
  objects : ∀ uri, ¬ d.ObjectOf workspaceId uri
  rows : ∀ e ∈ d.evidence, ¬ d.RowOf workspaceId e

end

/-- What a session in progress is about to do leaves nothing of the workspace behind. The commit of
its deletion leaves only objects that are still to be deleted, and reaches every row; after it,
objects are stored only where a session has still to delete them, and no row is written. -/
def Session.Safe (svc : Services) (workspaceId : Uuid) (s : TeardownSystem) : Session → Prop
  | .committing w _ =>
    w = workspaceId → s.db.hasWorkspace workspaceId = true →
      (∀ uri, s.db.ObjectOf workspaceId uri → Pending svc.bucket s uri) ∧
        ∀ e ∈ s.db.evidence, s.db.filedFor e.id = some workspaceId →
          GoesWith s.db.toWorkspaceDb workspaceId e
  | .uploading a =>
    a.scan.workspaceId = workspaceId → s.db.hasWorkspace workspaceId = false →
      Pending svc.bucket s (a.uri svc)
  | .filing a none =>
    a.scan.workspaceId = workspaceId → s.db.hasWorkspace workspaceId = false →
      a.refused s.db = true
  | _ => True

/-- A step that leaves nothing of the workspace behind; a crash does when other sessions have still
to delete what the one that crashes had. -/
def Safe (svc : Services) (workspaceId : Uuid) (s : TeardownSystem) : TeardownAction → Prop
  | .call .. => True
  | .advance n _ => ∀ x ∈ s.sessions n, x.Safe svc workspaceId s
  | .drop n => s.db.hasWorkspace workspaceId = false →
    ∀ uri, s.db.ObjectOf workspaceId uri → Pending svc.bucket (s.without n) uri

/-- The session neither commits a deletion nor submits evidence. -/
def Session.idle : Session → Bool
  | .committing .. | .uploading _ | .filing .. => false
  | _ => true

theorem safe_of_idle {svc : Services} {w : Uuid} {s : TeardownSystem} {n : ℕ} {now : ℤ}
    (h : (s.sessions n).all Session.idle = true) :
    Safe svc w s (.advance n now) := by
  intro x hx
  rw [Option.mem_def.mp hx, Option.all_some] at h
  cases x with
  | committing | uploading | filing => cases h
  | _ => trivial

/-! ## What a session still has to delete -/

theorem StorageTargets.mem_deletions {targets : StorageTargets} {t : Deletion} :
    t ∈ targets.deletions ↔ t ∈ targets.toolRunIds.map .toolRun ∨
      t ∈ targets.evidenceUris.map .evidence ∨ t ∈ targets.workspaceIds.map .remediation ∨
        t ∈ targets.reportUris.map .report := by
  simp only [StorageTargets.deletions, List.mem_append, or_assoc]

theorem captured_subset (w : Uuid) {ids ids' : List Uuid}
    {reports reports' uris uris' : List String} (hids : ids ⊆ ids')
    (hreports : reports ⊆ reports') (huris : uris ⊆ uris') :
    (captured w ids reports uris).deletions ⊆ (captured w ids' reports' uris').deletions := by
  intro t ht
  refine StorageTargets.mem_deletions.mpr ((StorageTargets.mem_deletions.mp ht).imp ?_
    (Or.imp ?_ (Or.imp_right ?_)))
  · exact fun h => List.map_subset _ hids h
  · exact fun h => List.map_subset _ huris h
  · exact fun h => List.map_subset _ hreports h

variable {bucket uri : String} {x x' : Session}

theorem Session.Owes.of_subset (hsub : x.todo ⊆ x'.todo) (h : x.Owes bucket uri) :
    x'.Owes bucket uri := by
  obtain ⟨t, ht, hreaches⟩ := List.any_eq_true.mp h
  exact List.any_eq_true.mpr ⟨t, hsub ht, hreaches⟩

theorem not_owes_of_nil (h : x.todo = []) : ¬ x.Owes bucket uri := by
  unfold Session.Owes
  rw [h]
  exact Bool.false_ne_true

/-! ## The invariant -/

/-- Once the workspace is gone, its objects are still to be deleted, and it has filed no row that is
left. -/
structure Inv (svc : Services) (w : Uuid) (s : TeardownSystem) : Prop where
  intact : Intact s.db.toWorkspaceDb
  objects : s.db.hasWorkspace w = false → ∀ uri, s.db.ObjectOf w uri → Pending svc.bucket s uri
  rows : s.db.hasWorkspace w = false → ∀ e ∈ s.db.evidence, s.db.filedFor e.id ≠ some w

variable {cfg : Settings} {svc : Services} {w : Uuid} {s s' : TeardownSystem} {d : TeardownDb}
  {n : ℕ} {next : Option Session}

/-- A phase that stores no object for the workspace, files no row for it, and hands on what is to be
deleted. -/
theorem Inv.advance (h : Inv svc w s) (hx : s.sessions n = some x)
    (hintact : Intact d.toWorkspaceDb) (hworkspaces : d.workspaces = s.db.workspaces)
    (hobjects : ∀ uri, d.ObjectOf w uri → s.db.ObjectOf w uri)
    (hrows : s.db.hasWorkspace w = false → ∀ e ∈ d.evidence, d.filedFor e.id = some w →
      e ∈ s.db.evidence ∧ s.db.filedFor e.id = some w)
    (hkept : ∀ uri, d.ObjectOf w uri → x.Owes svc.bucket uri →
      ∃ x' ∈ next, x'.Owes svc.bucket uri) :
    Inv svc w ⟨d, Function.update s.sessions n next⟩ := by
  have hgone : d.hasWorkspace w = s.db.hasWorkspace w := by
    unfold WorkspaceDb.hasWorkspace
    rw [hworkspaces]
  refine ⟨hintact, fun hno uri huri => ?_, fun hno e he hfiled => ?_⟩
  · exact (h.objects (hgone ▸ hno) uri (hobjects uri huri)).advance hx (hkept uri huri) d
  · obtain ⟨he, hfiled⟩ := hrows (hgone ▸ hno) e he hfiled
    exact h.rows (hgone ▸ hno) e he hfiled

/-- A phase that only reads. -/
theorem Inv.read (h : Inv svc w s) (hx : s.sessions n = some x)
    (hkept : ∀ uri, x.Owes svc.bucket uri → ∃ x' ∈ next, x'.Owes svc.bucket uri) :
    Inv svc w ⟨s.db, Function.update s.sessions n next⟩ :=
  h.advance hx h.intact rfl (fun _ huri => huri) (fun _ _ he hfiled => ⟨he, hfiled⟩)
    fun uri _ => hkept uri

/-- A phase that only reads and has nothing to delete. -/
theorem Inv.look (h : Inv svc w s) (hx : s.sessions n = some x) (hnil : x.todo = []) :
    Inv svc w ⟨s.db, Function.update s.sessions n next⟩ :=
  h.read hx fun _ howes => absurd howes (not_owes_of_nil hnil)

/-- A phase that only reads, and leads to one with as much to delete. -/
theorem Inv.capture (h : Inv svc w s) (hx : s.sessions n = some x) (hsub : x.todo ⊆ x'.todo) :
    Inv svc w ⟨s.db, Function.update s.sessions n (some x')⟩ :=
  h.read hx fun _ howes => ⟨x', rfl, howes.of_subset hsub⟩

theorem hasWorkspace_deleteRows (d : TeardownDb) (v w : Uuid) :
    (d.deleteRows v).hasWorkspace w = true ↔ d.hasWorkspace w = true ∧ w ≠ v := by
  rw [WorkspaceDb.hasWorkspace_iff, WorkspaceDb.hasWorkspace_iff]
  have hworkspaces : (d.deleteRows v).workspaces = d.workspaces.filter (· ≠ v) := rfl
  rw [hworkspaces, List.mem_filter, decide_eq_true_eq]

/-- **The commit of a deletion.** -/
theorem Inv.commit (h : Inv svc w s) {v : Uuid} {targets : StorageTargets}
    (hx : s.sessions n = some (.committing v targets))
    (hsafe : (Session.committing v targets).Safe svc w s) :
    Inv svc w
      ⟨s.db.deleteRows v, Function.update s.sessions n (some (.cleaning targets.deletions))⟩ := by
  -- The workspace was gone before, or its own deletion is committed.
  have hcases : (s.db.deleteRows v).hasWorkspace w = false →
      s.db.hasWorkspace w = false ∨ v = w ∧ s.db.hasWorkspace w = true := by
    intro hno
    by_cases hw : s.db.hasWorkspace w = true
    · have hstays := mt (hasWorkspace_deleteRows s.db v w).mpr (Bool.eq_false_iff.mp hno)
      exact .inr ⟨(not_not.mp fun hne => hstays ⟨hw, hne⟩).symm, hw⟩
    · exact .inl (Bool.eq_false_iff.mpr hw)
  refine ⟨deleteRows_intact h.intact v, fun hno uri huri => ?_, fun hno e he hfiled => ?_⟩
  · have hpending : Pending svc.bucket s uri := by
      rcases hcases hno with hno | ⟨hv, hw⟩
      · exact h.objects hno uri huri
      · exact (hsafe hv hw).1 uri huri
    exact hpending.advance hx (fun howes => ⟨.cleaning targets.deletions, rfl, howes⟩) _
  · have hbefore := (deleteRows_fewer v s.db.toWorkspaceDb).evidence e he
    rcases hcases hno with hno | ⟨rfl, hw⟩
    · exact h.rows hno e hbefore hfiled
    · exact not_mem_of_goesWith h.intact ((hsafe rfl hw).2 e hbefore hfiled) he

theorem upload_intact (h : Intact d.toWorkspaceDb) (a : Accepted) :
    Intact (d.upload svc a).toWorkspaceDb :=
  { h with }

theorem objectOf_upload {a : Accepted} : (d.upload svc a).ObjectOf w uri ↔
    if uri = a.uri svc then a.scan.workspaceId = w else d.ObjectOf w uri := by
  have hobjects : (d.upload svc a).objects uri =
      if uri = a.uri svc then some a.content else d.objects uri := Table.set_apply ..
  have hstored : (d.upload svc a).storedFor uri =
      if uri = a.uri svc then some a.scan.workspaceId else d.storedFor uri := Table.set_apply ..
  unfold TeardownDb.ObjectOf
  rw [hobjects, hstored]
  split_ifs <;> simp

/-- **An upload.** -/
theorem Inv.upload (h : Inv svc w s) {a : Accepted} (hx : s.sessions n = some (.uploading a))
    (hsafe : (Session.uploading a).Safe svc w s) :
    Inv svc w ⟨s.db.upload svc a, Function.update s.sessions n (some (.finding a))⟩ := by
  refine ⟨upload_intact h.intact a, fun hno uri huri => ?_, h.rows⟩
  have hpending : Pending svc.bucket s uri := by
    have huri := objectOf_upload.mp huri
    split_ifs at huri with hnew
    · rw [hnew]
      exact hsafe huri hno
    · exact h.objects hno uri huri
  exact hpending.advance hx (fun howes => absurd howes (not_owes_of_nil rfl)) _

/-- A call of the storage provider. -/
theorem Inv.clear (h : Inv svc w s) {t : Deletion} {rest : List Deletion}
    (hx : s.sessions n = some (.cleaning (t :: rest))) :
    Inv svc w ⟨s.db.clear svc.bucket t, Function.update s.sessions n (some (.cleaning rest))⟩ := by
  have hobjects : ∀ uri, (s.db.clear svc.bucket t).ObjectOf w uri →
      s.db.ObjectOf w uri ∧ t.reaches svc.bucket uri = false := by
    rintro uri ⟨hthere, hstored⟩
    obtain ⟨content, hcontent⟩ := Option.isSome_iff_exists.mp hthere
    have hdelete : s.db.objects.delete (fun uri _ => t.reaches svc.bucket uri) uri = some content :=
      hcontent
    obtain ⟨hcontent, hstays⟩ := Table.delete_eq_some.mp hdelete
    exact ⟨⟨Option.isSome_iff_exists.mpr ⟨content, hcontent⟩, hstored⟩, hstays⟩
  refine h.advance hx { h.intact with } rfl (fun uri huri => (hobjects uri huri).1)
    (fun _ e he hfiled => ⟨he, hfiled⟩) fun uri huri howes => ⟨.cleaning rest, rfl, ?_⟩
  -- What this call does not reach is left to the next ones.
  have hstays := (hobjects uri huri).2
  unfold Session.Owes Session.todo at howes ⊢
  rwa [List.any_cons, hstays, Bool.false_or] at howes

/-! ## A row -/

/-- What follows on a row files none. -/
theorem follow_spec (h : Intact d.toWorkspaceDb) (svc : Services) (a : Accepted) (rowId : Uuid) :
    Intact (d.follow svc a rowId).toWorkspaceDb ∧ (d.follow svc a rowId).evidence = d.evidence ∧
      (d.follow svc a rowId).objects = d.objects := by
  have hrecords := fileEvidence_records svc a.scan a.payload a.content (a.uri svc) rowId d.toDb
  refine ⟨hrecords.intact h (fun _ he => by cases he), ?_, ?_⟩
  · exact hrecords.evidence.trans (List.append_nil _)
  · obtain ⟨links, toolRuns, calls, ingests, hfile, -⟩ :=
      fileEvidence_frame svc a.scan a.payload a.content (a.uri svc) rowId d.toDb
    have hobjects : (fileEvidence svc a.scan a.payload a.content (a.uri svc) rowId d.toDb).objects =
        d.objects := by rw [hfile]
    exact hobjects

/-- A row that is not refused. -/
theorem insert_intact (h : Intact d.toWorkspaceDb) (svc : Services) {a : Accepted}
    (hnew : a.refused d = false) : Intact (d.insert svc a).toWorkspaceDb := by
  obtain ⟨hruns, hfresh⟩ := Bool.or_eq_false_iff.mp hnew
  have hfresh : d.freshEvidence a.evidenceId = true := by simpa using hfresh
  have hrecords : Records d.toDb (d.insert svc a).toDb
      (some (newEvidence svc a.evidenceId a.payload a.digest)) := by
    refine .of_same rfl rfl rfl rfl fun e he id hid => ?_
    cases he
    have hid' : a.payload.toolRunId = some id := hid
    rw [hid', Option.any_some] at hruns
    exact Option.isSome_iff_exists.mp (Option.isNone_eq_false_iff.mp hruns)
  exact hrecords.intact h (WorkspaceDb.fresh_row hfresh fun e he => by cases he; rfl)

/-- A row of the workspace that is not refused is there before, or is the new one. -/
theorem filed_insert (svc : Services) {a : Accepted} (hnew : a.refused d = false) {e : Evidence}
    (he : e ∈ (d.insert svc a).evidence) (hfiled : (d.insert svc a).filedFor e.id = some w) :
    (e ∈ d.evidence ∧ d.filedFor e.id = some w) ∨ a.scan.workspaceId = w := by
  rcases List.mem_append.mp he with he | he
  · have hfresh : d.freshEvidence a.evidenceId = true := by
      simpa using (Bool.or_eq_false_iff.mp hnew).2
    have hne := WorkspaceDb.freshEvidence_iff.mp hfresh e he
    exact .inl ⟨he, (Table.set_of_ne _ _ hne).symm.trans hfiled⟩
  · rw [List.mem_singleton.mp he] at hfiled
    exact .inr (Option.some.inj ((Table.set_self _ _ _).symm.trans hfiled))

/-- **The commit of a submission.** -/
theorem Inv.file (h : Inv svc w s) {a : Accepted} {row : Option Evidence}
    (hx : s.sessions n = some (.filing a row)) (hsafe : (Session.filing a row).Safe svc w s) :
    Inv svc w ⟨s.db.file svc a row, Function.update s.sessions n none⟩ := by
  have hkept : ∀ uri, (Session.filing a row).Owes svc.bucket uri →
      ∃ x' ∈ none, Session.Owes svc.bucket x' uri :=
    fun _ howes => absurd howes (not_owes_of_nil rfl)
  cases row with
  | some found =>
    obtain ⟨hintact, hevidence, hobjects⟩ := follow_spec h.intact svc a found.id
    refine h.advance hx hintact rfl (fun uri huri => ?_) (fun _ e he hfiled => ?_)
      fun _ _ => hkept _
    · exact ⟨hobjects ▸ huri.1, huri.2⟩
    · exact ⟨hevidence ▸ he, hfiled⟩
  | none =>
    unfold TeardownDb.file
    cases hrefused : a.refused s.db with
    | true => exact h.read hx hkept
    | false =>
      obtain ⟨hintact, hevidence, hobjects⟩ :=
        follow_spec (insert_intact h.intact svc hrefused) svc a a.evidenceId
      refine h.advance hx hintact rfl (fun uri huri => ?_) (fun hno e he hfiled => ?_)
        fun _ _ => hkept _
      · exact ⟨hobjects ▸ huri.1, huri.2⟩
      · rcases filed_insert svc hrefused (hevidence ▸ he) hfiled with hbefore | hworkspace
        · exact hbefore
        · have hsafe := hsafe hworkspace hno
          rw [hrefused] at hsafe
          cases hsafe

/-! ## Runs -/

/-- **The next statement of a session.** -/
theorem advance_inv (cfg : Settings) (now : ℤ) (h : Inv svc w s) (hx : s.sessions n = some x)
    (hsafe : x.Safe svc w s) :
    Inv svc w ⟨(x.advance cfg svc now s.db).1,
      Function.update s.sessions n (x.advance cfg svc now s.db).2⟩ := by
  cases x with
  | loading v => exact h.look hx rfl
  | revoking v =>
    exact h.advance hx (deactivateAndRevoke_intact h.intact now v) rfl (fun _ huri => huri)
      (fun _ _ he hfiled => ⟨he, hfiled⟩) fun _ _ howes => ⟨.capturingToolRuns v, rfl, howes⟩
  | capturingToolRuns v =>
    exact h.capture hx (captured_subset v (List.nil_subset _) (fun _ ht => ht) fun _ ht => ht)
  | capturingReports v toolRunIds =>
    exact h.capture hx (captured_subset v (fun _ ht => ht) (List.nil_subset _) fun _ ht => ht)
  | capturingEvidence v toolRunIds reportUris =>
    exact h.capture hx (captured_subset v (fun _ ht => ht) (fun _ ht => ht) (List.nil_subset _))
  | committing v targets => exact h.commit hx hsafe
  | cleaning todo =>
    cases todo with
    | nil => exact h.look hx rfl
    | cons t rest => exact h.clear hx
  | checking worker emergency evidenceId payload =>
    exact h.look hx rfl
  | uploading a => exact h.upload hx hsafe
  | finding a => exact h.look hx rfl
  | filing a row => exact h.file hx hsafe

theorem inv_step (s : TeardownSystem) (a : TeardownAction) (s' : TeardownSystem) (h : Inv svc w s)
    (hsafe : Safe svc w s a) (hstep : teardownStep cfg svc a s = some s') : Inv svc w s' := by
  rcases act_cases hstep with ⟨n, c, -, hfree, rfl⟩ | ⟨n, now, x, rfl, hx, rfl⟩ | ⟨n, rfl, rfl⟩
  · exact ⟨h.intact, fun hno uri huri => (h.objects hno uri huri).call hfree _, h.rows⟩
  · exact advance_inv cfg now h hx (hsafe x hx)
  · exact ⟨h.intact, hsafe, h.rows⟩

/-- The output of tool run 6. -/
def outputUri : String :=
  "s3://mbs-evidence/tool-runs/00000000-0000-0000-0000-000000000006/raw-output.txt"

/-- Workspace 1 with project 2, whose scan 5 runs under token 7; the output of its tool run 6 is
stored and has row 8. -/
def scannedDb : TeardownDb where
  __ := Db.empty
  workspaces := [1]
  items _ := none
  remediationEvidence := []
  projects := .ofList [(2, ⟨1⟩)]
  scans := .ofList [(5, { Scan.created 1 2 3 [] 0 with
    status := .running, executionToken := some 7 })]
  toolRuns := .ofList [(6, ⟨5, "nmap", "", .running, "", none, false, 0, none, none, none, none⟩)]
  evidence := [⟨8, some 6, "log_excerpt", outputUri, "a1"⟩]
  objects := .ofList [(outputUri, [1])]
  reports := []
  runIds := [6]
  listed _ _ hr := List.mem_singleton.mpr (Table.ofList_singleton.mp hr).1
  storedFor := .ofList [(outputUri, 1)]
  filedFor := .ofList [(8, 1)]

def asciiServices : Services := .ascii [([1], "a1"), ([2], "b2")] fun _ _ => none

theorem scannedDb_intact : Intact scannedDb.toWorkspaceDb where
  projects _ p hp := by
    obtain ⟨-, rfl⟩ := Table.ofList_singleton.mp hp
    exact List.mem_singleton_self _
  scans _ s hs := by
    obtain ⟨-, rfl⟩ := Table.ofList_singleton.mp hs
    exact List.mem_singleton_self _
  toolRuns _ r hr := by
    obtain ⟨-, rfl⟩ := Table.ofList_singleton.mp hr
    exact Option.isSome_iff_exists.mp (by decide +kernel)
  evidence e he id hid := by
    rw [List.mem_singleton.mp he] at hid
    cases hid
    exact Option.isSome_iff_exists.mp (by decide +kernel)
  evidenceIds := List.nodup_singleton _
  items _ _ hi := by cases hi
  links _ hl := absurd hl List.not_mem_nil
  proofs _ hl := absurd hl List.not_mem_nil
  proofIds := List.nodup_nil

/-- A run in which sessions 0 and 1 have ended, and none else has begun. -/
theorem quiet_of_ended {σ : List TeardownAction} (hcalled : ∀ n c, .call n c ∈ σ → n = 0 ∨ n = 1)
    {s : TeardownSystem} (hs : s = CondMachine.run (teardownStep ⟨""⟩ asciiServices)
      (.init scannedDb) σ) (h0 : (s.sessions 0).isNone = true) (h1 : (s.sessions 1).isNone = true)
    (n : ℕ) : s.sessions n = none := by
  by_cases hn : n = 0 ∨ n = 1
  · rcases hn with rfl | rfl
    · exact Option.isNone_iff_eq_none.mp h0
    · exact Option.isNone_iff_eq_none.mp h1
  · rw [hs]
    exact free_of_not_called rfl fun c hc => hn (hcalled n c hc)

/-- The state in which a deletion is about to commit. -/
def beforeCommit : TeardownSystem :=
  CondMachine.run (teardownStep ⟨""⟩ asciiServices) (.init scannedDb)
    (.call 0 (.performWorkspaceDeletion 1) :: List.replicate 5 (.advance 0 30))

theorem beforeCommit_objects : beforeCommit.db.objects = scannedDb.objects := rfl

/-- The commit finds the object among what has been captured, and the row in reach. -/
theorem safe_commit : Safe asciiServices 1 beforeCommit (.advance 0 30) := by
  obtain ⟨targets, hcommitting⟩ :
      ∃ targets, beforeCommit.sessions 0 = some (.committing 1 targets) := ⟨_, rfl⟩
  have howes : (beforeCommit.sessions 0).all (fun x =>
      x.todo.any (·.reaches asciiServices.bucket outputUri)) = true := by decide +kernel
  have hgoes : beforeCommit.db.evidence.all
      (viaToolRun beforeCommit.db.toWorkspaceDb 1) = true := by decide +kernel
  intro x hx
  obtain rfl := Option.some.inj (hcommitting.symm.trans hx)
  refine fun _ _ => ⟨fun uri huri => ?_, fun e he _ => .inl (List.all_eq_true.mp hgoes e he)⟩
  obtain ⟨content, hcontent⟩ := Option.isSome_iff_exists.mp huri.1
  rw [beforeCommit_objects] at hcontent
  obtain ⟨rfl, -⟩ := Table.ofList_singleton.mp hcontent
  rw [hcommitting, Option.all_some] at howes
  exact ⟨0, _, hcommitting, howes⟩

/-- A deletion that is not interrupted. -/
def wholeDeletion : List TeardownAction :=
  .call 0 (.performWorkspaceDeletion 1) :: List.replicate 10 (.advance 0 30)

theorem wholeDeletion_safe : CondMachine.Along (teardownStep ⟨""⟩ asciiServices)
    (Safe asciiServices 1) (.init scannedDb) wholeDeletion := by
  have hidle : ∀ k < 10, k ≠ 5 → ((CondMachine.run (teardownStep ⟨""⟩ asciiServices)
      (.init scannedDb) (wholeDeletion.take (k + 1))).sessions 0).all Session.idle = true := by
    decide +kernel
  intro σ₁ a σ₂ hσ
  cases σ₁ with
  | nil =>
    obtain ⟨rfl, -⟩ := List.cons.inj hσ
    trivial
  | cons c τ =>
    obtain ⟨rfl, hτ⟩ := List.cons.inj hσ
    have ha : a = .advance 0 30 := by
      refine List.eq_of_mem_replicate (n := 10) ?_
      rw [hτ]
      exact List.mem_append_right _ List.mem_cons_self
    have hlength : τ.length < 10 := by
      have hsum : 10 = (τ ++ a :: σ₂).length := congrArg List.length hτ
      rw [List.length_append, List.length_cons] at hsum
      omega
    have htake : .call 0 (.performWorkspaceDeletion 1) :: τ =
        wholeDeletion.take (τ.length + 1) := by
      rw [hσ]
      exact (List.take_left' rfl).symm
    rw [ha, htake]
    by_cases hcommit : τ.length = 5
    · rw [hcommit]
      exact safe_commit
    · exact safe_of_idle (hidle _ hlength hcommit)

/-- Every object of the workspace is named by one of its rows, and it sees every row that it has
filed. -/
structure Accounted (d : TeardownDb) (w : Uuid) : Prop where
  objects : ∀ uri, d.ObjectOf w uri → uri ∈ d.reportUrisOf w ++ d.evidenceUrisOf w
  rows : ∀ e ∈ d.evidence, d.filedFor e.id = some w →
    evidenceCriterion d.toWorkspaceDb w e = true

theorem scannedDb_accounted : Accounted scannedDb 1 where
  objects uri huri := by
    obtain ⟨hthere, -⟩ := huri
    obtain ⟨content, hcontent⟩ := Option.isSome_iff_exists.mp hthere
    obtain ⟨rfl, -⟩ := Table.ofList_singleton.mp hcontent
    decide +kernel
  rows e he _ := by
    rw [List.mem_singleton.mp he]
    decide +kernel

/-- The statements of a deletion up to its commit. -/
def upToCommit (n : ℕ) : List TeardownAction :=
  .call n (.performWorkspaceDeletion 1) :: List.replicate 6 (.advance n 30)

/-- The task crashes after the commit, and is delivered once more. -/
def redelivered : List TeardownAction :=
  upToCommit 0 ++ [.drop 0, .call 1 (.performWorkspaceDeletion 1), .advance 1 40]

/-- A submission is accepted, and goes on when the deletion has ended. -/
def overtaken : List TeardownAction :=
  [.call 1 (.submitEvidence ⟨"w", "public", none, none, .active, none⟩ false 9
      ⟨5, some 6, "text/plain", some [2], none, 7, none, none⟩), .advance 1 20] ++
    upToCommit 0 ++ List.replicate 4 (.advance 0 30) ++ List.replicate 3 (.advance 1 40)

end ScanPlatform.Teardown
