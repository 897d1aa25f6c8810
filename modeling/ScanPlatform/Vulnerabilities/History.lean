import ScanPlatform.Remediation.Lasting
import ScanPlatform.Vulnerabilities.Db
import ScanPlatform.Vulnerabilities.Stored

/-!
# Histories of findings

Scans, ingestion, analysts and the remediation workflow, one call after the other.

* `FindingsStep`, `findingsStep`: the calls, and what each makes of the database;
* `FindingsDb.empty`: where a history begins;
* `ingest_eq_some`, `itemCreated`, `operation_eq_some`: what a step that takes effect has done;
* `SparesRow`, `rows_cases`, **`keyed_step`**: what a step does to the findings, whose keys stay
  unique.
-/

set_option autoImplicit false

namespace ScanPlatform

open CondMachine Sessions UnitOfWork

/-! ## Steps -/

inductive FindingsStep where
  | createProject (id : Uuid) (project : Project)
  | createScan (id workspaceId projectId targetId : Uuid) (config : Json.Object) (now : ℤ)
  | scan (id : Uuid) (step : ScanStep)
  | write (members : List (Uuid × Uuid)) (toolRuns : List ToolRun)
  | storeEvidence (evidence : Evidence)
  | ingest (moment : Moment) (call : FindingCall)
  | setStatus (now : ℤ) (call : StatusCall)
  | createItem (id : Uuid) (issue : NewIssue)
  | claimVerification (now : ℤ) (id workerToken : Uuid)
  | operation (op : RemediationOperation) (moment : Moment)

/-- A call that fails writes nothing. A finding needs a fresh id, its scan and its evidence, and an
item is created in the workspace of its project. -/
def findingsStep (svc : IngestServices) : FindingsStep → FindingsDb → Option FindingsDb
  | .createProject id project, db =>
    if (db.projects id).isNone then some { db with projects := db.projects.set id project }
    else none
  | .createScan id workspaceId projectId targetId config now, db =>
    if (db.scans id).isNone then
      some { db with
        scans := db.scans.set id (Scan.created workspaceId projectId targetId config now) }
    else none
  | .scan id step, db => (db.scans.update id (scanStep step)).map fun scans => { db with scans }
  | .write members toolRuns, db => some { db with members, toolRuns }
  | .storeEvidence evidence, db => some { db with evidence := db.evidence ++ [evidence] }
  | .ingest moment call, db =>
    if (∀ v ∈ db.vulnerabilities, v.id ≠ moment.newId) ∧ (db.scans call.scanId).isSome ∧
        ∃ e ∈ db.evidence, e.id = call.evidenceId then storeFinding svc moment call db
    else none
  | .setStatus now call, db => (ScanPlatform.setStatus call now db).toOption
  | .createItem id issue, db =>
    if (db.projects issue.projectId).any (·.workspaceId = issue.workspaceId) then
      (ScanPlatform.createItem id issue db.toRemediationDb).map fun workflow =>
        { db with toRemediationDb := workflow }
    else none
  | .claimVerification now id workerToken, db => some { db with
      requests := db.requests.map (ScanPlatform.claimVerification now id workerToken) }
  | .operation op moment, db =>
    (exec (op.prog svc.toRemediationServices) moment db.toRemediationDb).toOption.map
      fun workflow => { db with toRemediationDb := workflow }

def FindingsDb.empty : FindingsDb where
  items _ := none
  issues _ := none
  events := []
  requests := []
  acceptances := []
  members := []
  scans _ := none
  vulnerabilities := []
  toolRuns := []
  projects _ := none
  evidence := []
  history := []
  lineage := []
  vulnerabilityEvidence _ := none

section

variable {svc : IngestServices} {db db' : FindingsDb}

theorem ingest_eq_some {moment : Moment} {call : FindingCall}
    (h : findingsStep svc (.ingest moment call) db = some db') :
    (∀ v ∈ db.vulnerabilities, v.id ≠ moment.newId) ∧
      db' = actAll (ingestWrites svc moment call db) db := by
  dsimp only [findingsStep] at h
  split_ifs at h with hguard
  rw [storeFinding_eq_some svc moment hguard.2.2] at h
  exact ⟨hguard.1, (Option.some.inj h).symm⟩

/-- What the creation of an item does. -/
structure ItemCreated (id : Uuid) (issue : NewIssue) (db db' : FindingsDb) : Prop where
  project : ∃ project ∈ db.projects issue.projectId, project.workspaceId = issue.workspaceId
  fresh : db.items id = none
  items : db'.items = db.items.set id issue.item
  untracked : db.issues (issue.projectId, issue.key) = none
  issues : db'.issues = db.issues.set (issue.projectId, issue.key) id
  projects : db'.projects = db.projects
  requests : db'.requests = db.requests
  vulnerabilities : db'.vulnerabilities = db.vulnerabilities
  history : db'.history = db.history

theorem itemCreated {id : Uuid} {issue : NewIssue}
    (h : findingsStep svc (.createItem id issue) db = some db') : ItemCreated id issue db db' := by
  dsimp only [findingsStep] at h
  split_ifs at h with hproject
  obtain ⟨workflow, hcreate, rfl⟩ := Option.map_eq_some_iff.mp h
  unfold createItem at hcreate
  split_ifs at hcreate with hfree
  cases hcreate
  obtain ⟨project, hp, hworkspace⟩ := (Option.any_eq_true _ _).mp hproject
  refine ⟨⟨project, hp, by simpa using hworkspace⟩, ?_, rfl, ?_, rfl, rfl, rfl, rfl, rfl⟩
  · simpa using hfree.1
  · simpa using hfree.2

theorem operation_eq_some {op : RemediationOperation} {moment : Moment}
    (h : findingsStep svc (.operation op moment) db = some db') :
    exec (op.prog svc.toRemediationServices) moment db.toRemediationDb = .ok db'.toRemediationDb ∧
      db'.projects = db.projects := by
  obtain ⟨workflow, hexec, rfl⟩ := Option.map_eq_some_iff.mp h
  exact ⟨Checks.toOption_eq_some.mp hexec, rfl⟩

/-! ## The rows of the findings -/

/-- What a step other than ingestion keeps of a finding. -/
structure SparesRow (f : Vulnerability → Vulnerability) : Prop where
  id : ∀ v, (f v).id = v.id
  key : ∀ v, (f v).key = v.key
  lastSeen : ∀ v, (f v).lastSeenScanId = v.lastSeenScanId
  tracked : ∀ v, (f v).tracked = v.tracked

/-- Apart from ingestion, a step assigns neither the keys of a finding nor its tracked fields nor
the scan that has seen it last, and records no history. -/
theorem rows_cases {a : FindingsStep} (h : findingsStep svc a db = some db') :
    (∃ moment call, a = .ingest moment call) ∨ db'.history = db.history ∧
      ∃ f, SparesRow f ∧ db'.vulnerabilities = db.vulnerabilities.map f := by
  have same : db'.vulnerabilities = db.vulnerabilities →
      ∃ f, SparesRow f ∧ db'.vulnerabilities = db.vulnerabilities.map f := fun heq =>
    ⟨id, ⟨fun _ => rfl, fun _ => rfl, fun _ => rfl, fun _ => rfl⟩, heq.trans (List.map_id _).symm⟩
  cases a with
  | ingest moment call => exact .inl ⟨moment, call, rfl⟩
  | setStatus now call =>
    obtain ⟨v, -, -, newStatus, -, rfl⟩ := setStatus_eq_ok (Checks.toOption_eq_some.mp h)
    refine .inr ⟨rfl, _, ⟨fun u => ?_, fun u => ?_, fun u => ?_, fun u => ?_⟩, rfl⟩ <;>
      split_ifs <;> rfl
  | createProject id project =>
    dsimp only [findingsStep] at h
    split_ifs at h
    cases h
    exact .inr ⟨rfl, same rfl⟩
  | createScan id workspaceId projectId targetId config now =>
    dsimp only [findingsStep] at h
    split_ifs at h
    cases h
    exact .inr ⟨rfl, same rfl⟩
  | scan id step =>
    obtain ⟨scans, -, rfl⟩ := Option.map_eq_some_iff.mp h
    exact .inr ⟨rfl, same rfl⟩
  | write members toolRuns | storeEvidence evidence | claimVerification now id workerToken =>
    cases h
    exact .inr ⟨rfl, same rfl⟩
  | createItem id issue =>
    have hcreated := itemCreated h
    exact .inr ⟨hcreated.history, same hcreated.vulnerabilities⟩
  | operation op moment =>
    have hlasting := exec_lasting (operation_eq_some h).1
    obtain ⟨workflow, -, rfl⟩ := Option.map_eq_some_iff.mp h
    exact .inr ⟨rfl, same (congrArg (·.1.1) hlasting)⟩

/-- **The keys of the findings stay unique.** -/
theorem keyed_step {a : FindingsStep} (hkeyed : db.Keyed)
    (h : findingsStep svc a db = some db') : db'.Keyed := by
  rcases rows_cases h with ⟨moment, call, rfl⟩ | ⟨-, f, hf, hrows⟩
  · obtain ⟨hfresh, rfl⟩ := ingest_eq_some h
    obtain ⟨row, hstored⟩ := stored_of_ingestWrites svc call hkeyed hfresh
    exact hstored.keyed
  · exact hkeyed.of_map hf.id hf.key hrows

end

theorem keyed_empty : FindingsDb.empty.Keyed := ⟨List.nodup_nil, List.nodup_nil⟩

end ScanPlatform
