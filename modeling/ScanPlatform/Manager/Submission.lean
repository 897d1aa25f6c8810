import ScanPlatform.Manager.Evidence

/-!
# Submissions of a tool run

The three requests with which a worker reports a tool run, and the database after the manager has
handled any number of them.

* `Submission`, `submit`: the endpoints as one;
* `Arrival`, `handle`: a submission that reaches the manager;
* `SameGates`: what the gates read is the same;
* `submitToolStarted_of_gate`, `submitToolResult_of_gate`: what an announcement and a result do;
* `submit_frame`: what they leave alone;
* `submitEvidence_unknown`, **`submitEvidence_filed`**: what evidence does for a tool run that does
  not exist, and for one that does.
-/

set_option autoImplicit false

namespace ScanPlatform

open Checks

inductive Submission where
  | toolStarted (payload : ToolStartedIn)
  | toolResult (payload : ToolResultIn)
  | evidence (payload : EvidenceIn)

def Submission.scanId : Submission → Uuid
  | .toolStarted payload => payload.scanId
  | .toolResult payload => payload.scanId
  | .evidence payload => payload.scanId

def Submission.executionToken : Submission → Uuid
  | .toolStarted payload => payload.executionToken
  | .toolResult payload => payload.executionToken
  | .evidence payload => payload.executionToken

def Submission.isToolStarted : Submission → Bool
  | .toolStarted _ => true
  | .toolResult _ | .evidence _ => false

def Submission.isToolResult : Submission → Bool
  | .toolResult _ => true
  | .toolStarted _ | .evidence _ => false

def Submission.isEvidence : Submission → Bool
  | .evidence _ => true
  | .toolStarted _ | .toolResult _ => false

/-- The database after a request, and whether it was accepted; `evidenceId` is the id made for a
new evidence row. -/
def submit (cfg : Settings) (svc : Services) (worker : ScannerWorker) (emergency : Bool) (now : ℤ)
    (evidenceId : Uuid) : Submission → Db → Db × Except Fault Unit
  | .toolStarted payload, db => submitToolStarted cfg worker emergency now payload db
  | .toolResult payload, db =>
    let out := submitToolResult cfg svc worker emergency now payload db
    (out.1, out.2.map fun _ => ())
  | .evidence payload, db =>
    let out := submitEvidence cfg svc worker emergency evidenceId payload db
    (out.1, out.2.map fun _ => ())

/-- A submission that the manager handles, at which time, and the id made for a new evidence row. -/
structure Arrival where
  submission : Submission
  now : ℤ
  evidenceId : Uuid

def handle (cfg : Settings) (svc : Services) (worker : ScannerWorker) (emergency : Bool) (db : Db)
    (a : Arrival) : Db :=
  (submit cfg svc worker emergency a.now a.evidenceId a.submission db).1

variable {cfg : Settings} {svc : Services} {worker : ScannerWorker} {emergency : Bool} {now : ℤ}
  {evidenceId : Uuid}

/-! ## The gates -/

/-- What the gates read is the same in both databases. -/
structure SameGates (db db' : Db) : Prop where
  scans : db'.scans = db.scans
  sites : db'.sites = db.sites

theorem SameGates.refl (db : Db) : SameGates db db := ⟨rfl, rfl⟩

theorem SameGates.trans {db₁ db₂ db₃ : Db} (h : SameGates db₁ db₂) (h' : SameGates db₂ db₃) :
    SameGates db₁ db₃ :=
  ⟨h'.scans.trans h.scans, h'.sites.trans h.sites⟩

theorem SameGates.authorizeScanForWorker {db db' : Db} (h : SameGates db db') (scanId : Uuid) :
    authorizeScanForWorker cfg db' worker emergency scanId =
      authorizeScanForWorker cfg db worker emergency scanId := by
  unfold ScanPlatform.authorizeScanForWorker getSiteForWorkspace
  rw [h.scans, h.sites]

theorem SameGates.toolGate {db db' : Db} (h : SameGates db db') (scanId executionToken : Uuid)
    (toolName : String) :
    toolGate cfg db' worker emergency scanId executionToken toolName =
      toolGate cfg db worker emergency scanId executionToken toolName := by
  unfold ScanPlatform.toolGate
  rw [h.authorizeScanForWorker]

theorem SameGates.evidenceGate {db db' : Db} (h : SameGates db db') (payload : EvidenceIn) :
    evidenceGate cfg svc db' worker emergency payload =
      evidenceGate cfg svc db worker emergency payload := by
  unfold ScanPlatform.evidenceGate
  rw [h.authorizeScanForWorker]

/-! ## Announcements -/

theorem submitToolStarted_of_refused {payload : ToolStartedIn} {db : Db} {fault : Fault}
    (h : toolGate cfg db worker emergency payload.scanId payload.executionToken payload.toolName =
      .error fault) :
    submitToolStarted cfg worker emergency now payload db = (db, .error fault) := by
  unfold submitToolStarted
  rw [h]

variable (now) in
/-- An announcement opens the tool run or leaves it in the status that it has. -/
theorem submitToolStarted_of_gate {payload : ToolStartedIn} {db : Db} {scan : Scan}
    (h : toolGate cfg db worker emergency payload.scanId payload.executionToken payload.toolName =
      .ok scan)
    (hown : ∀ r ∈ db.toolRuns payload.toolRunId, r.scanId = payload.scanId) :
    ∃ r, submitToolStarted cfg worker emergency now payload db =
        ({ db with toolRuns := db.toolRuns.set payload.toolRunId r }, .ok ()) ∧
      r.scanId = payload.scanId ∧
      r.status = ((db.toolRuns payload.toolRunId).map (·.status)).getD .running ∧
      r.exitCode = (db.toolRuns payload.toolRunId).bind (·.exitCode) := by
  unfold submitToolStarted
  simp only [h]
  cases hrow : db.toolRuns payload.toolRunId with
  | none => exact ⟨_, rfl, rfl, rfl, rfl⟩
  | some old =>
    have hscan : old.scanId = payload.scanId := hown old hrow
    simp only [if_neg (not_not.mpr hscan)]
    split_ifs with hrunning
    · exact ⟨_, rfl, hscan, rfl, rfl⟩
    · refine ⟨old, ?_, hscan, rfl, rfl⟩
      rw [Table.set_eq_self hrow]

variable (cfg worker emergency now) in
/-- An announcement writes tool runs only. -/
theorem submitToolStarted_frame (payload : ToolStartedIn) (db : Db) :
    ∃ toolRuns, (submitToolStarted cfg worker emergency now payload db).1 =
      { db with toolRuns } := by
  unfold submitToolStarted
  split
  · exact ⟨_, rfl⟩
  · split
    · exact ⟨_, rfl⟩
    · split_ifs <;> exact ⟨_, rfl⟩

/-! ## Results -/

/-- The status of a tool run after a result: the first one that was reported. -/
def statusAfterResult (old : Option ToolStatus) (reported : ToolStatus) : ToolStatus :=
  match old with
  | some status => if status ∈ allowedToolStatuses then status else reported
  | none => reported

theorem submitToolResult_of_refused {payload : ToolResultIn} {db : Db} {fault : Fault}
    (h : toolGate cfg db worker emergency payload.scanId payload.executionToken payload.toolName =
      .error fault) :
    submitToolResult cfg svc worker emergency now payload db = (db, .error fault) := by
  unfold submitToolResult
  rw [h]

variable (svc now) in
theorem submitToolResult_of_gate {payload : ToolResultIn} {db : Db} {scan : Scan}
    {status : ToolStatus}
    (h : toolGate cfg db worker emergency payload.scanId payload.executionToken payload.toolName =
      .ok scan)
    (hown : ∀ r ∈ db.toolRuns payload.toolRunId, r.scanId = payload.scanId)
    (hstatus : reportedToolStatus payload.status = some status) :
    ∃ r assets out, submitToolResult cfg svc worker emergency now payload db =
        ({ db with toolRuns := db.toolRuns.set payload.toolRunId r, assets }, .ok out) ∧
      r.scanId = payload.scanId ∧
      r.status = statusAfterResult ((db.toolRuns payload.toolRunId).map (·.status)) status := by
  unfold submitToolResult
  simp only [h, hstatus]
  cases hrow : db.toolRuns payload.toolRunId with
  | none => exact ⟨_, _, _, rfl, rfl, rfl⟩
  | some old =>
    have hscan : old.scanId = payload.scanId := hown old hrow
    have hnot : ¬ (some old).any (fun r => decide (r.scanId ≠ payload.scanId)) = true := by
      simp [hscan]
    simp only [if_neg hnot]
    exact ⟨_, _, _, rfl, hscan, rfl⟩

variable (cfg svc worker emergency now) in
/-- A result writes tool runs and assets only. -/
theorem submitToolResult_frame (payload : ToolResultIn) (db : Db) :
    ∃ toolRuns assets, (submitToolResult cfg svc worker emergency now payload db).1 =
      { db with toolRuns, assets } := by
  unfold submitToolResult
  split
  · exact ⟨_, _, rfl⟩
  · split
    · exact ⟨_, _, rfl⟩
    · split_ifs <;> exact ⟨_, _, rfl⟩

variable (cfg svc worker emergency now evidenceId) in
/-- **Announcements and results** leave the evidence and the calls of the pipeline alone. -/
theorem submit_frame {submission : Submission} (h : submission.isEvidence = false) (db : Db) :
    ∃ toolRuns assets, (submit cfg svc worker emergency now evidenceId submission db).1 =
      { db with toolRuns, assets } := by
  cases submission with
  | toolStarted payload =>
    obtain ⟨toolRuns, hdb⟩ := submitToolStarted_frame cfg worker emergency now payload db
    exact ⟨toolRuns, db.assets, hdb⟩
  | toolResult payload => exact submitToolResult_frame cfg svc worker emergency now payload db
  | evidence payload => cases h

theorem submit_ingestCalls {submission : Submission} (h : submission.isEvidence = false) (db : Db) :
    (submit cfg svc worker emergency now evidenceId submission db).1.ingestCalls =
      db.ingestCalls := by
  obtain ⟨_, _, hdb⟩ := submit_frame cfg svc worker emergency now evidenceId h db
  rw [hdb]

theorem submit_evidence {submission : Submission} (h : submission.isEvidence = false) (db : Db) :
    (submit cfg svc worker emergency now evidenceId submission db).1.evidence = db.evidence := by
  obtain ⟨_, _, hdb⟩ := submit_frame cfg svc worker emergency now evidenceId h db
  rw [hdb]

/-! ## Evidence -/

theorem submitEvidence_of_refused {payload : EvidenceIn} {db : Db} {fault : Fault}
    (h : evidenceGate cfg svc db worker emergency payload = .error fault) :
    submitEvidence cfg svc worker emergency evidenceId payload db = (db, .error fault) := by
  unfold submitEvidence
  rw [h]

/-- Evidence for a tool run that does not exist leaves its bytes in the object store. -/
theorem submitEvidence_unknown {payload : EvidenceIn} {db : Db} {scan : Scan} {content : Bytes}
    {digest : String} {id : Uuid}
    (h : evidenceGate cfg svc db worker emergency payload = .ok (scan, content, digest))
    (hid : payload.toolRunId = some id) (hrow : db.toolRuns id = none)
    (hfiled : ∀ e ∈ db.evidence, e.toolRunId ≠ some id) :
    submitEvidence cfg svc worker emergency evidenceId payload db =
      ({ db with objects := db.objects.set (evidenceUri svc payload digest) content },
        .error (.raised "IntegrityError")) := by
  have hfind : findEvidence db payload.toolRunId digest = none := by
    rw [hid]
    refine List.find?_eq_none.mpr fun e he hsame => hfiled e he ?_
    exact (of_decide_eq_true hsame).1
  unfold submitEvidence
  simp only [h, findEvidence_objects, hfind]
  simp only [hid, Option.any_some, hrow, Option.isNone_none, if_true]

/-- What accepted evidence for a tool run that exists does. -/
structure EvidenceFiled (svc : Services) (payload : EvidenceIn) (evidenceId id : Uuid) (r : ToolRun)
    (db db' : Db) : Prop where
  toolRuns : ∃ ref, db'.toolRuns = db.toolRuns.set id { r with rawOutputRef := ref } ∧
    (ref = r.rawOutputRef ↔ r.rawOutputRef.getD "" ≠ "")
  evidence : db'.evidence = db.evidence ++
    if (findEvidence db payload.toolRunId (payload.digest svc)).isSome then []
    else [newEvidence svc evidenceId payload (payload.digest svc)]
  parsed : ∃ calls ingests, db'.parserCalls = db.parserCalls ++ calls ∧
    db'.ingestCalls = db.ingestCalls ++ ingests ∧
      ((∃ name content target rowId, payload.ParsedAs r name ∧ payload.content = some content ∧
          calls = [⟨id, name, rawOutput svc r content⟩] ∧
          ingests = pipelineCalls target payload.scanId id rowId
            (svc.parser name (rawOutput svc r content))) ∨
        (∀ name, ¬ payload.ParsedAs r name) ∧ calls = [] ∧ ingests = [])
  gates : SameGates db db'

theorem submitEvidence_filed {payload : EvidenceIn} {db : Db} {out : EvidenceOut} {id : Uuid}
    {r : ToolRun} (h : (submitEvidence cfg svc worker emergency evidenceId payload db).2 = .ok out)
    (hid : payload.toolRunId = some id) (hr : db.toolRuns id = some r) :
    EvidenceFiled svc payload evidenceId id r db
      (submitEvidence cfg svc worker emergency evidenceId payload db).1 := by
  obtain ⟨scan, content, objects, rowId, new, -, hcontent, hdb, hrow⟩ := submitEvidence_accepted h
  obtain ⟨links, calls, ingests, hfile, hcalls⟩ := fileEvidence_known svc scan content
    (evidenceUri svc payload (payload.digest svc)) rowId
    { db with objects, evidence := db.evidence ++ new } hid hr
  rw [hdb, hfile]
  refine ⟨?_, ?_, ⟨calls, ingests, rfl, rfl, ?_⟩, rfl, rfl⟩
  · by_cases href : r.rawOutputRef.getD "" = ""
    · refine ⟨_, if_pos href, iff_of_false (fun hsame => ?_) (not_not.mpr href)⟩
      rw [← hsame, Option.getD_some] at href
      exact evidenceUri_ne_empty svc payload _ href
    · exact ⟨r.rawOutputRef, (if_neg href).trans (Table.set_eq_self hr).symm, iff_of_true rfl href⟩
  · have hnew : new = if (findEvidence db payload.toolRunId (payload.digest svc)).isSome then []
        else [newEvidence svc evidenceId payload (payload.digest svc)] := by
      clear hdb hfile hcalls
      generalize findEvidence db payload.toolRunId (payload.digest svc) = found at hrow ⊢
      cases found with
      | some row => exact hrow.1
      | none => exact hrow.1
    rw [← hnew]
  · rcases hcalls with ⟨name, hparsed, rfl, rfl⟩ | hnone
    · exact .inl ⟨name, content, _, rowId, hparsed, hcontent, rfl, rfl⟩
    · exact .inr hnone

variable (evidenceId) in
/-- Evidence that passes its gate is accepted when its tool run exists. -/
theorem submitEvidence_of_gate {payload : EvidenceIn} {db : Db} {scan : Scan} {content : Bytes}
    {digest : String} {id : Uuid} {r : ToolRun}
    (h : evidenceGate cfg svc db worker emergency payload = .ok (scan, content, digest))
    (hid : payload.toolRunId = some id) (hr : db.toolRuns id = some r) :
    ∃ out, (submitEvidence cfg svc worker emergency evidenceId payload db).2 = .ok out := by
  unfold submitEvidence
  simp only [h]
  split
  · exact ⟨_, rfl⟩
  · simp only [hid, Option.any_some, hr, Option.isNone_some, Bool.false_eq_true, if_false]
    exact ⟨_, rfl⟩

variable (cfg svc worker emergency evidenceId) in
/-- Evidence for a tool run is refused, fails because the tool run does not exist, or is filed. -/
theorem submitEvidence_cases {payload : EvidenceIn} {db : Db} {id : Uuid}
    (hid : payload.toolRunId = some id)
    (hfiled : db.toolRuns id = none → ∀ e ∈ db.evidence, e.toolRunId ≠ some id) :
    (∃ fault, evidenceGate cfg svc db worker emergency payload = .error fault ∧
        submitEvidence cfg svc worker emergency evidenceId payload db = (db, .error fault)) ∨
      ∃ passed, evidenceGate cfg svc db worker emergency payload = .ok passed ∧
        ((db.toolRuns id = none ∧ ∃ objects,
            submitEvidence cfg svc worker emergency evidenceId payload db =
              ({ db with objects }, .error (.raised "IntegrityError"))) ∨
          ∃ r, db.toolRuns id = some r ∧ EvidenceFiled svc payload evidenceId id r db
            (submitEvidence cfg svc worker emergency evidenceId payload db).1) := by
  cases hgate : evidenceGate cfg svc db worker emergency payload with
  | error fault => exact .inl ⟨fault, rfl, submitEvidence_of_refused hgate⟩
  | ok passed =>
    obtain ⟨scan, content, digest⟩ := passed
    refine .inr ⟨_, rfl, ?_⟩
    cases hrow : db.toolRuns id with
    | none => exact .inl ⟨rfl, _, submitEvidence_unknown hgate hid hrow (hfiled hrow)⟩
    | some r =>
      obtain ⟨out, hout⟩ := submitEvidence_of_gate evidenceId hgate hid hrow
      exact .inr ⟨r, rfl, submitEvidence_filed hout hid hrow⟩

end ScanPlatform
