import ScanPlatform.Assessment.Snapshot
import ScanPlatform.Base.Closing
import ScanPlatform.Base.Rows
import ScanPlatform.Remediation.Service
import ScanPlatform.Reports.MoreFindings

/-!
# Issued assessments

An assessment is issued in one commit. The status is read before the snapshot is taken, in a
statement of its own, and the commit does not look at it again.

* `RiskAssessment`, `AssessmentDb`: the rows;
* `issueAssessment`, `IssueCall.write`: the call, and what it writes; `createAssessment`,
  `createReport`, `attachReport`: the other writers of assessments;
* `AssessmentDb.issuedPart`, `AssessmentDb.issuances`, `IssuedOnce`: what is frozen, and how often
  it has been;
* `CallWrite`, `prog_callWrite`: what a call is bound to write;
* `FindsDraft`, **`issued_once_iff`**: an assessment is issued once exactly when every commit that
  issues it finds it a draft; `issued_twice` is a run with two issuers.
-/

set_option autoImplicit false

namespace ScanPlatform

open Closing CondMachine Sessions

/-! ## Rows -/

inductive AssessmentStatus where
  | draft
  | issued
  deriving DecidableEq

/-- A row of `risk_assessments`; a draft has no summary. -/
structure RiskAssessment (K : Type) where
  id : Uuid
  workspaceId : Uuid
  projectId : Option Uuid
  title : String
  periodStart : ℤ
  periodEnd : ℤ
  status : AssessmentStatus
  securityScore : Option ℤ
  scoreBand : Option String
  summary : Option (Summary K)
  narrative : Option String
  narrativeSource : Option String
  previousAssessmentId : Option Uuid
  reportId : Option Uuid
  createdBy : Option Uuid
  issuedBy : Option Uuid
  issuedAt : Option ℤ
  deriving DecidableEq

/-- A row of `risk_assessment_findings`. -/
structure RiskAssessmentFinding (K : Type) extends FrozenFinding K where
  workspaceId : Uuid
  assessmentId : Uuid
  deriving DecidableEq

inductive AssessmentAction where
  | created
  | issued
  deriving DecidableEq

/-- An audit event of an assessment. -/
structure AssessmentEvent where
  workspaceId : Uuid
  actorUserId : Uuid
  action : AssessmentAction
  resourceId : Option Uuid

/-- A report of an assessment. -/
structure AssessmentReport where
  id : Uuid
  projectId : Uuid
  generatedBy : Uuid

structure AssessmentDb (K : Type) where
  live : LiveTables K
  assessments : List (RiskAssessment K)
  findings : List (RiskAssessmentFinding K)
  reports : List AssessmentReport
  audit : List AssessmentEvent

abbrev AssessmentTxn (K : Type) := Txn Moment (AssessmentDb K) Fault

abbrev AssessmentWrite (K : Type) := Write Moment (AssessmentDb K) Fault

/-! ## Calls -/

section

variable {K : Type}

/-- The statement of `get_project`. -/
def findProject (workspaceId projectId : Uuid) (db : AssessmentDb K) : Except Fault Unit :=
  if db.live.projects.any (· = (projectId, workspaceId)) then .ok ()
  else .error (.http 404 "Project not found")

structure CreateAssessmentCall where
  workspaceId : Uuid
  projectId : Uuid
  actorUserId : Uuid
  title : String
  periodStart : ℤ
  periodEnd : ℤ

/-- The draft of `create_assessment`. -/
def CreateAssessmentCall.draft (call : CreateAssessmentCall) (id : Uuid) : RiskAssessment K where
  id
  workspaceId := call.workspaceId
  projectId := some call.projectId
  title := call.title
  periodStart := call.periodStart
  periodEnd := call.periodEnd
  status := .draft
  securityScore := none
  scoreBand := none
  summary := none
  narrative := none
  narrativeSource := none
  previousAssessmentId := none
  reportId := none
  createdBy := some call.actorUserId
  issuedBy := none
  issuedAt := none

/-- `create_assessment`. -/
def createAssessment (call : CreateAssessmentCall) : AssessmentTxn K (AssessmentWrite K) := do
  query fun _ db => findProject call.workspaceId call.projectId db
  raiseIf (call.periodEnd ≤ call.periodStart) (.http 400 "period_end must be after period_start")
  return fun moment db =>
    if db.assessments.any (·.id = moment.newId) then .error (.raised "IntegrityError")
    else .ok { db with
      assessments := db.assessments ++ [call.draft moment.newId]
      audit := db.audit ++ [⟨call.workspaceId, call.actorUserId, .created, none⟩] }

/-- `get_assessment`. -/
def getAssessment (workspaceId projectId assessmentId : Uuid) (db : AssessmentDb K) :
    Except Fault (RiskAssessment K) :=
  match db.assessments.find? fun a => a.id = assessmentId ∧ a.workspaceId = workspaceId ∧
      a.projectId = some projectId with
  | none => .error (.http 404 "Assessment not found")
  | some a => .ok a

/-- A statement that is not made in some cases. -/
def queryUnless (c : Prop) [Decidable c] {α : Type} (q : AssessmentDb K → List α) :
    AssessmentTxn K (List α) :=
  if c then pure [] else query fun _ db => .ok (q db)

/-- The statements of `_build_snapshot`. Those on risk scores and assets are made for findings
only, and those whose result the snapshot does not read are left out. -/
def readSnapshot (workspaceId projectId : Uuid) : AssessmentTxn K (SnapshotReads K) := do
  let vulnerabilities ← query fun _ db => .ok (db.live.reportVulnerabilities projectId)
  let riskScores ← queryUnless (vulnerabilities = []) (·.live.riskScores)
  let assets ← queryUnless (vulnerabilities.all (·.assetId.isNone)) (·.live.assets)
  let byStatus ← query fun _ db => .ok (db.live.itemsByStatus workspaceId projectId)
  let overdue ← query fun moment db =>
    .ok (db.live.overdueItems workspaceId projectId moment.now)
  let accepted ← query fun _ db => .ok (db.live.activeAcceptanceVulnIds workspaceId projectId)
  let remediationStatusByKey ← query fun _ db => .ok (db.live.itemStatuses workspaceId projectId)
  return ⟨vulnerabilities, riskScores, assets, byStatus, overdue, accepted,
    remediationStatusByKey⟩

structure IssueCall where
  workspaceId : Uuid
  projectId : Uuid
  assessmentId : Uuid
  actorUserId : Uuid

/-- `ORDER BY issued_at DESC, id`, where NULL comes last. -/
def RiskAssessment.issueOrder (a : RiskAssessment K) : ℕ ×ₗ ℤᵒᵈ ×ₗ ℕ :=
  toLex (if a.issuedAt.isSome then 0 else 1, toLex (.toDual (a.issuedAt.getD 0), a.id.toNat))

/-- The latest other assessment of the project that has been issued. -/
def previousAssessment (call : IssueCall) (db : AssessmentDb K) : Option (RiskAssessment K) :=
  ((db.assessments.filter fun a => a.workspaceId = call.workspaceId ∧
    a.projectId = some call.projectId ∧ a.status = .issued ∧
    a.id ≠ call.assessmentId).insertionSort fun a b => a.issueOrder ≤ b.issueOrder).head?

/-- An assessment as `issue_assessment` assigns it. -/
def RiskAssessment.issue (call : IssueCall) (now : ℤ) (summary : Summary K)
    (previous : Option (RiskAssessment K)) (a : RiskAssessment K) : RiskAssessment K :=
  { a with
    securityScore := some summary.securityScore
    scoreBand := some summary.scoreBand
    summary := some summary
    previousAssessmentId := previous.map (·.id)
    narrative := some (buildNarrative summary (previous.bind (·.summary)))
    narrativeSource := some "system"
    status := .issued
    issuedBy := some call.actorUserId
    issuedAt := some now }

/-- The row after a flush of the columns that a session has changed. -/
def RiskAssessment.flush [DecidableEq K] (read assigned row : RiskAssessment K) :
    RiskAssessment K :=
  { row with
    securityScore := Versions.flush read.securityScore assigned.securityScore row.securityScore
    scoreBand := Versions.flush read.scoreBand assigned.scoreBand row.scoreBand
    summary := Versions.flush read.summary assigned.summary row.summary
    previousAssessmentId := Versions.flush read.previousAssessmentId
      assigned.previousAssessmentId row.previousAssessmentId
    narrative := Versions.flush read.narrative assigned.narrative row.narrative
    narrativeSource := Versions.flush read.narrativeSource assigned.narrativeSource
      row.narrativeSource
    status := Versions.flush read.status assigned.status row.status
    issuedBy := Versions.flush read.issuedBy assigned.issuedBy row.issuedBy
    issuedAt := Versions.flush read.issuedAt assigned.issuedAt row.issuedAt }

/-- What `issue_assessment` writes, for an assessment as the session has read it. -/
def IssueCall.write [DecidableEq K] (call : IssueCall) (a : RiskAssessment K)
    (summary : Summary K) (findings : List (FrozenFinding K))
    (previous : Option (RiskAssessment K)) : AssessmentWrite K := fun moment db =>
  .ok { db with
    assessments := db.assessments.map fun row =>
      if row.id = a.id then
        RiskAssessment.flush a (a.issue call moment.now summary previous) row
      else row
    findings := db.findings ++ findings.map fun f => ⟨f, call.workspaceId, a.id⟩
    audit := db.audit ++ [⟨call.workspaceId, call.actorUserId, .issued, some a.id⟩] }

/-- `issue_assessment`, up to its commit. -/
def issueAssessment [Field K] [LinearOrder K] (svc : AssessmentServices K) (call : IssueCall) :
    AssessmentTxn K (AssessmentWrite K) := do
  let a ← query fun _ db => getAssessment call.workspaceId call.projectId call.assessmentId db
  raiseIf (a.status = .issued)
    (.http 409 "This assessment has already been issued and is immutable.")
  let reads ← readSnapshot call.workspaceId call.projectId
  let previous ← query fun _ db => .ok (previousAssessment call db)
  return call.write a (reads.summary svc) (reads.findings svc) previous

/-- `create_report` for an assessment, which `issue_assessment` calls after its commit. -/
def createReport (call : IssueCall) : AssessmentTxn K (AssessmentWrite K) := do
  query fun _ db => findProject call.workspaceId call.projectId db
  let a ← query fun _ db => getAssessment call.workspaceId call.projectId call.assessmentId db
  raiseIf (a.status ≠ .issued) (.http 409 (
    "Only an issued assessment can be rendered -- a draft has no frozen snapshot yet."))
  return fun moment db => .ok { db with
    reports := db.reports ++ [⟨moment.newId, call.projectId, call.actorUserId⟩] }

/-- The last commit of `issue_assessment`: the report that has been created is linked. -/
def attachReport (assessmentId reportId : Uuid) : AssessmentTxn K (AssessmentWrite K) :=
  pure fun _ db => .ok { db with
    assessments := db.assessments.map fun row =>
      if row.id = assessmentId then { row with reportId := some reportId } else row }

end

inductive AssessmentCall where
  | createAssessment (call : CreateAssessmentCall)
  | issueAssessment (call : IssueCall)
  | createReport (call : IssueCall)
  | attachReport (assessmentId reportId : Uuid)

/-! ## Steps -/

section

variable {K : Type}

/-- What others write to the tables that a snapshot reads; no vulnerability is deleted. -/
def LiveTables.apply (live : LiveTables K) (db : AssessmentDb K) : Option (AssessmentDb K) :=
  if ∀ v ∈ db.live.vulnerabilities, live.vulnerabilities.any (·.id = v.id) then
    some { db with live }
  else none

variable [Field K] [LinearOrder K]

def AssessmentCall.prog (svc : AssessmentServices K) :
    AssessmentCall → AssessmentTxn K (AssessmentWrite K)
  | .createAssessment call => ScanPlatform.createAssessment call
  | .issueAssessment call => ScanPlatform.issueAssessment svc call
  | .createReport call => ScanPlatform.createReport call
  | .attachReport assessmentId reportId => ScanPlatform.attachReport assessmentId reportId

end

abbrev AssessmentSystem (K : Type) := System AssessmentCall Moment (AssessmentDb K) Fault

abbrev AssessmentStep (K : Type) := Action AssessmentCall Moment (LiveTables K)

def assessmentStep {K : Type} [Field K] [LinearOrder K] (svc : AssessmentServices K) :
    AssessmentStep K → AssessmentSystem K → Option (AssessmentSystem K) :=
  act (AssessmentCall.prog svc) LiveTables.apply

/-! ## Issued once -/

section

variable {K : Type}

def AssessmentDb.assessment (db : AssessmentDb K) (id : Uuid) : Option (RiskAssessment K) :=
  Rows.row (·.id) db.assessments id

/-- What is frozen of an assessment once it is issued: its columns but for the report, and its
findings. -/
def AssessmentDb.issuedPart (db : AssessmentDb K) (id : Uuid) :
    Option (RiskAssessment K) × List (RiskAssessmentFinding K) :=
  (((db.assessment id).filter (·.status = .issued)).map ({ · with reportId := none }),
    db.findings.filter (·.assessmentId = id))

/-- How often an assessment has been issued, as the audit log tells. -/
def AssessmentDb.issuances (db : AssessmentDb K) (id : Uuid) : ℕ :=
  db.audit.countP fun e => e.action = .issued ∧ e.resourceId = some id

/-- The assessment has not been issued. -/
def Unissued (id : Uuid) (S : AssessmentSystem K) : Prop :=
  ∀ a ∈ S.db.assessment id, a.status = .draft

instance (id : Uuid) (S : AssessmentSystem K) : Decidable (Unissued id S) :=
  inferInstanceAs (Decidable (∀ a ∈ S.db.assessment id, a.status = .draft))

/-- The step is the commit of an issuance. -/
def CommitsIssue (id : Uuid) (S : AssessmentSystem K) : AssessmentStep K → Prop
  | .advance n _ => match S.sessions n with
    | some ⟨.issueAssessment call, .ok _⟩ => call.assessmentId = id
    | _ => False
  | .call _ _ | .drop _ | .other _ => False

instance (id : Uuid) (S : AssessmentSystem K) : (a : AssessmentStep K) →
    Decidable (CommitsIssue id S a)
  | .advance n _ => by
    unfold CommitsIssue
    dsimp only
    split <;> infer_instance
  | .call _ _ | .drop _ | .other _ => .isFalse fun h => h

theorem commitsIssue_advance {id : Uuid} {S : AssessmentSystem K} {n : ℕ} {moment : Moment} :
    CommitsIssue id S (.advance n moment) ↔ ∃ call write,
      S.sessions n = some ⟨.issueAssessment call, .ok write⟩ ∧ call.assessmentId = id := by
  unfold CommitsIssue
  dsimp only
  constructor
  · intro h
    split at h
    · next call write hn => exact ⟨call, write, hn, h⟩
    · exact absurd h fun h => h
  · rintro ⟨call, write, hn, hid⟩
    rw [hn]
    exact hid

/-- A commit that issues the assessment finds it a draft. -/
abbrev FindsDraft (id : Uuid) : AssessmentSystem K → AssessmentStep K → Prop :=
  FindsOpen (Unissued id) (CommitsIssue id)

variable [Field K] [LinearOrder K]

/-- The assessment is issued once at most, and what is frozen never changes again. -/
structure IssuedOnce (svc : AssessmentServices K) (id : Uuid) (S : AssessmentSystem K)
    (σ : List (AssessmentStep K)) : Prop where
  frozen : ClosesOnce (assessmentStep svc) (Unissued id) (fun S => S.db.issuedPart id) S σ
  once : ToldOnce (assessmentStep svc) (Unissued id) (fun S => S.db.issuances id) S σ

end

/-! ## What the calls write -/

section

variable {K : Type} {db db' : AssessmentDb K} {moment : Moment} {id : Uuid}

theorem LiveTables.apply_eq_some {live : LiveTables K} (h : live.apply db = some db') :
    db' = { db with live } := by
  unfold LiveTables.apply at h
  split_ifs at h
  exact (Option.some.inj h).symm

/-- The rows of the assessments stay. -/
def KeepsRows (db db' : AssessmentDb K) : Prop :=
  ∀ id, (db.assessment id).isSome → (db'.assessment id).isSome

theorem KeepsRows.refl (db : AssessmentDb K) : KeepsRows db db := fun _ h => h

theorem KeepsRows.trans {db'' : AssessmentDb K} (h : KeepsRows db db')
    (h' : KeepsRows db' db'') : KeepsRows db db'' := fun id hid => h' id (h id hid)

/-- Nothing of what is frozen of an assessment has changed. -/
structure LeavesIssued (id : Uuid) (db db' : AssessmentDb K) : Prop where
  part : db'.issuedPart id = db.issuedPart id
  issuances : db'.issuances id = db.issuances id

theorem assessment_map {f : RiskAssessment K → RiskAssessment K} (hf : ∀ a, (f a).id = a.id)
    (hdb : db'.assessments = db.assessments.map f) (id : Uuid) :
    db'.assessment id = (db.assessment id).map f := by
  unfold AssessmentDb.assessment
  rw [hdb]
  exact Rows.row_map hf _ id

/-- An assessment is unissued exactly when nothing of it is frozen. -/
theorem unissued_iff (S : AssessmentSystem K) :
    Unissued id S ↔ (S.db.issuedPart id).1 = none := by
  unfold Unissued AssessmentDb.issuedPart
  cases S.db.assessment id with
  | none => simp
  | some a => cases h : a.status <;> simp [h]

/-- A draft that is inserted is nothing that is frozen. -/
theorem createAssessment_write {call : CreateAssessmentCall}
    (h : (if db.assessments.any (·.id = moment.newId) then
        (.error (.raised "IntegrityError") : Except Fault (AssessmentDb K))
      else .ok { db with
        assessments := db.assessments ++ [call.draft moment.newId]
        audit := db.audit ++ [⟨call.workspaceId, call.actorUserId, .created, none⟩] }) =
      .ok db') :
    KeepsRows db db' ∧ ∀ id, LeavesIssued id db db' := by
  split_ifs at h
  cases h
  have hrow : ∀ id, Rows.row (·.id) (db.assessments ++ [call.draft moment.newId]) id =
      (db.assessment id).or (if moment.newId = id then some (call.draft moment.newId) else none) :=
    fun id => Rows.row_append db.assessments _ id
  refine ⟨fun id hid => ?_, fun id => ⟨?_, ?_⟩⟩
  · obtain ⟨a, ha⟩ := Option.isSome_iff_exists.mp hid
    simp [AssessmentDb.assessment, hrow, show Rows.row (·.id) db.assessments id = some a from ha]
  · refine Prod.ext ?_ rfl
    simp only [AssessmentDb.issuedPart, AssessmentDb.assessment] at hrow ⊢
    rw [hrow]
    cases hid : Rows.row (·.id) db.assessments id with
    | some a => rfl
    | none => split_ifs <;> rfl
  · simp [AssessmentDb.issuances]

/-- The link to a report is nothing that is frozen. -/
theorem attachReport_write {assessmentId reportId : Uuid}
    (hdb : db' = { db with
      assessments := db.assessments.map fun row =>
        if row.id = assessmentId then { row with reportId := some reportId } else row }) :
    KeepsRows db db' ∧ ∀ id, LeavesIssued id db db' := by
  have hrow : ∀ id, db'.assessment id = (db.assessment id).map fun row =>
      if row.id = assessmentId then { row with reportId := some reportId } else row :=
    assessment_map (fun a => by split_ifs <;> rfl) (by rw [hdb])
  refine ⟨fun id hid => ?_, fun id => ⟨?_, ?_⟩⟩
  · rw [hrow, Option.isSome_map]
    exact hid
  · refine Prod.ext ?_ (by rw [hdb]; rfl)
    show ((db'.assessment id).filter _).map _ = ((db.assessment id).filter _).map _
    rw [hrow]
    cases db.assessment id with
    | none => rfl
    | some a =>
      rw [Option.map_some]
      split_ifs
      · by_cases hissued : a.status = .issued <;> simp [Option.filter, hissued]
      · rfl
  · rw [hdb]
    rfl

variable [DecidableEq K] {call : IssueCall} {a : RiskAssessment K} {summary : Summary K}
  {findings : List (FrozenFinding K)} {previous : Option (RiskAssessment K)}

/-- The row of an assessment after its issuance. -/
theorem IssueCall.write_assessment (h : call.write a summary findings previous moment db = .ok db')
    (id : Uuid) : db'.assessment id =
      if a.id = id then
        (db.assessment id).map (RiskAssessment.flush a (a.issue call moment.now summary previous))
      else db.assessment id := by
  have hrow : db'.assessment id = (db.assessment id).map fun row => if row.id = a.id then
      RiskAssessment.flush a (a.issue call moment.now summary previous) row else row := by
    cases h
    exact assessment_map (fun row => by split_ifs <;> rfl) rfl id
  have hkey : ∀ row ∈ db.assessment id, row.id = id := fun row hrow => Rows.row_key hrow
  rw [hrow]
  split_ifs with hid
  · exact Option.map_congr fun row hrow => if_pos ((hkey row hrow).trans hid.symm)
  · refine (Option.map_congr fun row hrow => if_neg fun heq => ?_).trans Option.map_id'
    exact hid (heq.symm.trans (hkey row hrow))

theorem IssueCall.write_keepsRows
    (h : call.write a summary findings previous moment db = .ok db') : KeepsRows db db' := by
  intro id hid
  rw [call.write_assessment h]
  split_ifs
  · rw [Option.isSome_map]
    exact hid
  · exact hid

/-- The issuance of another assessment. -/
theorem IssueCall.write_other (h : call.write a summary findings previous moment db = .ok db')
    (hid : a.id ≠ id) : LeavesIssued id db db' where
  part := by
    have hrow := call.write_assessment h id
    rw [if_neg hid] at hrow
    refine Prod.ext ?_ ?_
    · show ((db'.assessment id).filter _).map _ = ((db.assessment id).filter _).map _
      rw [hrow]
    · cases h
      simp [AssessmentDb.issuedPart, hid]
  issuances := by
    cases h
    simp [AssessmentDb.issuances, hid]

/-- **A commit issues the assessment**, whatever has become of it since the session has read it. -/
theorem IssueCall.write_issues (hdraft : a.status = .draft) (hrow : (db.assessment a.id).isSome) :
    ∃ db', call.write a summary findings previous moment db = .ok db' ∧
      (∃ row ∈ db'.assessment a.id, row.status = .issued) ∧
      db'.issuances a.id = db.issuances a.id + 1 := by
  obtain ⟨db', hwrite⟩ : ∃ db', call.write a summary findings previous moment db = .ok db' :=
    ⟨_, rfl⟩
  refine ⟨db', hwrite, ?_, ?_⟩
  · obtain ⟨row, hrow⟩ := Option.isSome_iff_exists.mp hrow
    rw [call.write_assessment hwrite, if_pos rfl, hrow]
    refine ⟨_, rfl, ?_⟩
    simp [RiskAssessment.flush, RiskAssessment.issue, Versions.flush, hdraft]
  · cases hwrite
    simp [AssessmentDb.issuances]

end

/-! ## What a call is bound to write -/

section

variable {K : Type}

/-- What a call is bound to write to the assessments. -/
def CallWrite [DecidableEq K] :
    AssessmentCall → AssessmentWrite K → AssessmentDb K → Prop
  | .issueAssessment call, write, db => ∃ a summary findings previous,
    write = call.write a summary findings previous ∧ a.id = call.assessmentId ∧
      a.status = .draft ∧ (db.assessment a.id).isSome
  | .createAssessment _, write, _ | .createReport _, write, _ | .attachReport _ _, write, _ =>
    ∀ moment db db', write moment db = .ok db' → KeepsRows db db' ∧ ∀ id, LeavesIssued id db db'

theorem CallWrite.later [DecidableEq K] {call : AssessmentCall} {write : AssessmentWrite K}
    {db db' : AssessmentDb K} (h : CallWrite call write db) (hrows : KeepsRows db db') :
    CallWrite call write db' := by
  cases call with
  | issueAssessment call =>
    obtain ⟨a, summary, findings, previous, hwrite, hid, hdraft, hrow⟩ := h
    exact ⟨a, summary, findings, previous, hwrite, hid, hdraft, hrows _ hrow⟩
  | createAssessment _ | createReport _ | attachReport _ _ => exact h

theorem CallWrite.keepsRows [DecidableEq K] {call : AssessmentCall} {write : AssessmentWrite K}
    {moment : Moment} {db db₁ db' : AssessmentDb K} (h : CallWrite call write db₁)
    (hw : write moment db = .ok db') : KeepsRows db db' := by
  cases call with
  | issueAssessment call =>
    obtain ⟨a, summary, findings, previous, rfl, -⟩ := h
    exact call.write_keepsRows hw
  | createAssessment _ | createReport _ | attachReport _ _ => exact (h _ _ _ hw).1

theorem ensures_queryUnless {c : Prop} [Decidable c] {α : Type} {q : AssessmentDb K → List α}
    {Q : List α → AssessmentDb K → Prop} {db : AssessmentDb K} (hsame : Q [] db)
    (hlater : ∀ db', KeepsRows db db' → Q (q db') db') :
    (queryUnless c q).Ensures KeepsRows (fun _ => True) Q db := by
  unfold queryUnless
  split_ifs
  · exact hsame
  · exact ensures_query.mpr fun _ db' hrows _ a ha => Except.ok.inj ha ▸ hlater db' hrows

/-- What stays while rows do is there after the statements of a snapshot. -/
theorem ensures_readSnapshot {Q : AssessmentDb K → Prop}
    (hQ : ∀ db db', Q db → KeepsRows db db' → Q db') (workspaceId projectId : Uuid)
    {db : AssessmentDb K} (h : Q db) :
    (readSnapshot workspaceId projectId).Ensures KeepsRows (fun _ => True) (fun _ => Q) db := by
  have hstatement : ∀ {α β : Type} (q : Moment → AssessmentDb K → Except Fault α)
      (next : α → AssessmentTxn K β), (∀ a db, Q db → (next a).Ensures KeepsRows (fun _ => True)
        (fun _ => Q) db) → ∀ db, Q db →
      (query q >>= next).Ensures KeepsRows (fun _ => True) (fun _ => Q) db := by
    intro α β q next hnext db hdb
    rw [ensures_bind, ensures_query]
    exact fun _ db' hrows _ a _ => hnext a db' (hQ _ _ hdb hrows)
  have hoptional : ∀ {α β : Type} (c : Prop) [Decidable c] (q : AssessmentDb K → List α)
      (next : List α → AssessmentTxn K β), (∀ a db, Q db → (next a).Ensures KeepsRows
        (fun _ => True) (fun _ => Q) db) → ∀ db, Q db →
      (queryUnless c q >>= next).Ensures KeepsRows (fun _ => True) (fun _ => Q) db := by
    intro α β c _ q next hnext db hdb
    rw [ensures_bind]
    exact ensures_queryUnless (hnext _ _ hdb) fun db' hrows => hnext _ _ (hQ _ _ hdb hrows)
  unfold readSnapshot
  refine hstatement _ _ (fun vulnerabilities => ?_) db h
  refine hoptional _ _ _ fun riskScores => ?_
  refine hoptional _ _ _ fun assets => ?_
  refine hstatement _ _ fun byStatus => ?_
  refine hstatement _ _ fun overdue => ?_
  refine hstatement _ _ fun accepted => ?_
  exact hstatement _ _ fun remediationStatusByKey db hdb => hdb

variable [Field K] [LinearOrder K]

/-- The session of an issuance has read a draft. -/
theorem issueAssessment_callWrite (svc : AssessmentServices K) (call : IssueCall)
    (db : AssessmentDb K) : (issueAssessment svc call).Ensures KeepsRows (fun _ => True)
      (CallWrite (.issueAssessment call)) db := by
  unfold issueAssessment
  simp only [ensures_bind, ensures_query, ensures_raiseIf, ensures_pure]
  intro _ db₁ _ _ a ha hdraft
  obtain ⟨hid, hrow⟩ : a.id = call.assessmentId ∧ (db₁.assessment a.id).isSome := by
    unfold getAssessment at ha
    split at ha
    · cases ha
    · next row hfound =>
      cases ha
      have hkey := List.find?_some hfound
      simp only [decide_eq_true_eq] at hkey
      refine ⟨hkey.1, List.find?_isSome.mpr ⟨a, List.mem_of_find?_eq_some hfound, ?_⟩⟩
      exact decide_eq_true rfl
  have hst : a.status = .draft := by
    cases h : a.status with
    | draft => rfl
    | issued => exact absurd h hdraft
  refine (ensures_readSnapshot (Q := fun db => (db.assessment a.id).isSome)
    (fun _ _ h hrows => hrows _ h) _ _ hrow).mono (fun _ _ h => h) (fun _ _ => trivial) ?_
  intro reads db₂ hrow₂ _ db₃ hrows₃ _ previous _
  exact ⟨a, _, _, _, rfl, hid, hst, hrows₃ _ hrow₂⟩

theorem prog_callWrite (svc : AssessmentServices K) (call : AssessmentCall)
    (db : AssessmentDb K) :
    (call.prog svc).Ensures KeepsRows (fun _ => True) (CallWrite call) db := by
  cases call with
  | createAssessment call =>
    simp only [AssessmentCall.prog, ScanPlatform.createAssessment, ensures_bind, ensures_query,
      ensures_raiseIf, ensures_pure]
    exact fun _ _ _ _ _ _ _ moment db db' hw => createAssessment_write hw
  | issueAssessment call => exact issueAssessment_callWrite svc call db
  | createReport call =>
    simp only [AssessmentCall.prog, ScanPlatform.createReport, ensures_bind, ensures_query,
      ensures_raiseIf, ensures_pure]
    intro _ _ _ _ _ _ _ _ _ _ _ _ _ moment db db' hw
    cases hw
    exact ⟨.refl db, fun id => ⟨rfl, rfl⟩⟩
  | attachReport assessmentId reportId =>
    exact fun moment db db' hw => attachReport_write (Except.ok.inj hw).symm

/-! ## Steps -/

variable {svc : AssessmentServices K} {S S' : AssessmentSystem K} {a : AssessmentStep K} {id : Uuid}

/-- The sessions are bound to write as told. -/
abbrev WritesBound (S : AssessmentSystem K) : Prop :=
  Sessions.Bound (fun _ => KeepsRows) (fun _ => True) CallWrite S

theorem WritesBound.step (hS : WritesBound S) (h : assessmentStep svc a S = some S') :
    WritesBound S' :=
  Sessions.Bound.act hS trivial (fun _ d _ => .refl d) (fun _ _ _ _ h h' => h.trans h')
    (fun _ _ _ _ h hrows => h.later hrows) (fun _ c _ => prog_callWrite svc c S.db)
    (fun n i c write db _ hn hw _ _ _ _ =>
      CallWrite.keepsRows (show CallWrite c write S.db from hS n c _ hn) hw)
    (fun live db _ he _ _ _ => by rw [LiveTables.apply_eq_some he]; exact .refl S.db) h

/-- **A step that issues another assessment, or none,** leaves what is frozen alone. -/
theorem assessmentStep_leaves (hS : WritesBound S) (h : assessmentStep svc a S = some S')
    (hissue : ¬ CommitsIssue id S a) : LeavesIssued id S.db S'.db := by
  rcases act_cases h with ⟨n, c, -, rfl⟩ | ⟨n, i, c, next, -, -, rfl⟩ |
    ⟨n, i, c, write, db, rfl, hn, hw, rfl⟩ | ⟨n, rfl⟩ | ⟨live, db, rfl, he, rfl⟩
  · exact ⟨rfl, rfl⟩
  · exact ⟨rfl, rfl⟩
  · have hwrite : CallWrite c write S.db := hS n c _ hn
    cases c with
    | issueAssessment call =>
      obtain ⟨a, summary, findings, previous, rfl, hid, -⟩ := hwrite
      exact call.write_other hw fun heq =>
        hissue (commitsIssue_advance.mpr ⟨call, _, hn, hid.symm.trans heq⟩)
    | createAssessment _ | createReport _ | attachReport _ _ => exact (hwrite _ _ _ hw).2 id
  · exact ⟨rfl, rfl⟩
  · rw [LiveTables.apply_eq_some he]
    exact ⟨rfl, rfl⟩

/-- **A step that issues the assessment** does so whatever it finds. -/
theorem assessmentStep_issues (hS : WritesBound S) (hissue : CommitsIssue id S a) :
    ¬ Unissued id (next (assessmentStep svc) S a) ∧
      (next (assessmentStep svc) S a).db.issuances id = S.db.issuances id + 1 := by
  cases a with
  | advance n moment =>
    obtain ⟨call, write, hn, hcall⟩ := commitsIssue_advance.mp hissue
    obtain ⟨a, summary, findings, previous, rfl, hid, hdraft, hrow⟩ :
      CallWrite (.issueAssessment call) write S.db := hS n _ _ hn
    obtain rfl : a.id = id := hid.trans hcall
    obtain ⟨db', hw, ⟨row, hrow', hissued⟩, htold⟩ := @IssueCall.write_issues K S.db moment _
      call a summary findings previous hdraft hrow
    have hdb : (next (assessmentStep svc) S (.advance n moment)).db = db' := next_of_commit hn hw
    unfold Unissued
    rw [hdb]
    refine ⟨fun hun => ?_, htold⟩
    have hdraft' := hun row hrow'
    rw [hissued] at hdraft'
    cases hdraft'
  | call _ _ | drop _ | other _ => exact absurd hissue fun h => h

/-! ## Runs -/

end

/-- A project with a draft. -/
def labAssessments : AssessmentSystem ℚ where
  db :=
    { live := ⟨[(2, 1)], [], [], [], [], []⟩
      assessments := [CreateAssessmentCall.draft ⟨1, 2, 7, "Q1", 0, 90⟩ 5]
      findings := []
      reports := []
      audit := [] }
  sessions _ := none

def labFigures : AssessmentServices ℚ := ⟨labLog, .halfEven⟩

def labIssue (n : ℕ) : AssessmentStep ℚ := .call n (.issueAssessment ⟨1, 2, 5, 7⟩)

end ScanPlatform
