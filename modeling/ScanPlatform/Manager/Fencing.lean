import ScanPlatform.Base.CondMachine
import ScanPlatform.Manager.Submission

/-!
# The fence of the requests of a tool run

A request of a worker is checked against the execution token of its scan by a separate read, and
commits afterwards, in one or two transactions of its own. In between other processes may end the
ownership that it was checked for.

* `PendingCommit`, `openRequest`, `commitAll`: a request as its checks and its commits;
* **`submit_eq_commits`**: without interference this is what the endpoint does;
* `Traffic`, `trafficStep`: any number of requests, interleaved with the updates of the scans;
* `WritesFenced`, `KeepsOwners`: the fence, and the condition under which it holds;
* **`writes_fenced`**, `write_after_requeue`: the runs in which the fence holds, and one in which a
  request writes into the execution that replaced its own.
-/

set_option autoImplicit false

namespace ScanPlatform

open Checks CondMachine

/-! ## A request as its checks and its commits -/

/-- A transaction that a request has still to commit. -/
inductive PendingCommit where
  | announcement (payload : ToolStartedIn) (now : ℤ)
  | toolRun (payload : ToolResultIn) (status : ToolStatus) (now : ℤ)
  | assets (upserts : List AssetUpsert)
  | evidence (scan : Scan) (payload : EvidenceIn) (content : Bytes) (digest : String)
    (evidenceId : Uuid)

/-- The tool run of an announcement. -/
def announce (payload : ToolStartedIn) (now : ℤ) (db : Db) : Db × Except Fault Unit :=
  let startedAt := resolveToolStartedAt payload.startedAt now
  match db.toolRuns payload.toolRunId with
  | none =>
    ({ db with toolRuns := db.toolRuns.set payload.toolRunId {
        scanId := payload.scanId
        toolName := payload.toolName
        toolVersion := toolVersion payload.toolName
        status := .running
        commandHash := ""
        effectiveCommand := none
        timedOut := false
        startedAt
        completedAt := none
        exitCode := none
        rawOutputRef := none
        errorMessage := none } }, .ok ())
  | some existing =>
    if existing.scanId ≠ payload.scanId then
      (db, .error (.http 403 "TOOL_RUN_BELONGS_TO_ANOTHER_SCAN"))
    else if existing.status = .running ∧ existing.completedAt = none then
      ({ db with toolRuns := db.toolRuns.set payload.toolRunId { existing with startedAt } },
        .ok ())
    else (db, .ok ())

/-- The tool run of a result: the first of its two transactions. -/
def storeResult (svc : Services) (payload : ToolResultIn) (status : ToolStatus) (now : ℤ)
    (db : Db) : Db × Except Fault Unit :=
  if (db.toolRuns payload.toolRunId).any (·.scanId ≠ payload.scanId) then
    (db, .error (.http 403 "TOOL_RUN_BELONGS_TO_ANOTHER_SCAN"))
  else
    let startedAt := resolveToolStartedAt payload.startedAt now
    let toolRun := match db.toolRuns payload.toolRunId with
      | none => newToolRun svc status startedAt now payload
      | some existing => recordResult svc status startedAt now payload existing
    ({ db with toolRuns := db.toolRuns.set payload.toolRunId toolRun }, .ok ())

/-- The transaction of a piece of evidence. -/
def storeEvidence (svc : Services) (scan : Scan) (payload : EvidenceIn) (content : Bytes)
    (digest : String) (evidenceId : Uuid) (db : Db) : Db × Except Fault Unit :=
  let uri := evidenceUri svc payload digest
  let db := { db with objects := db.objects.set uri content }
  match findEvidence db payload.toolRunId digest with
  | some row => (fileEvidence svc scan payload content uri row.id db, .ok ())
  | none =>
    if payload.toolRunId.any fun id => (db.toolRuns id).isNone then
      (db, .error (.raised "IntegrityError"))
    else
      (fileEvidence svc scan payload content uri evidenceId
        { db with evidence := db.evidence ++ [newEvidence svc evidenceId payload digest] }, .ok ())

/-- The rows that a transaction works on are read when it is committed. -/
def PendingCommit.apply (svc : Services) (db : Db) : PendingCommit → Db × Except Fault Unit
  | .announcement payload now => announce payload now db
  | .toolRun payload status now => storeResult svc payload status now db
  | .assets upserts =>
    ({ db with assets := db.assets ++ upserts.filter (!svc.upsertRaises ·) }, .ok ())
  | .evidence scan payload content digest evidenceId =>
    storeEvidence svc scan payload content digest evidenceId db

/-- The checks of a request, and what it will commit when it passes them. -/
def openRequest (cfg : Settings) (svc : Services) (worker : ScannerWorker) (emergency : Bool)
    (a : Arrival) (db : Db) : Except Fault (List PendingCommit) :=
  match a.submission with
  | .toolStarted payload => do
    let _ ← toolGate cfg db worker emergency payload.scanId payload.executionToken payload.toolName
    return [.announcement payload a.now]
  | .toolResult payload => do
    let scan ← toolGate cfg db worker emergency payload.scanId payload.executionToken
      payload.toolName
    match reportedToolStatus payload.status with
    | none => .error (.http 400 "INVALID_TOOL_STATUS")
    | some status =>
      return [.toolRun payload status a.now,
        .assets (payload.findings.filterMap (assetUpsert scan))]
  | .evidence payload => do
    let (scan, content, digest) ← evidenceGate cfg svc db worker emergency payload
    return [.evidence scan payload content digest a.evidenceId]

/-- The commits of a request one after the other; the first that fails is the last. -/
def commitAll (svc : Services) : List PendingCommit → Db → Db
  | [], db => db
  | c :: cs, db =>
    match c.apply svc db with
    | (db, .ok ()) => commitAll svc cs db
    | (db, .error _) => db

section

variable {cfg : Settings} {svc : Services} {worker : ScannerWorker} {emergency : Bool}

theorem commitAll_singleton (c : PendingCommit) (db : Db) :
    commitAll svc [c] db = (c.apply svc db).1 := by
  rcases h : c.apply svc db with ⟨db', out⟩
  simp only [commitAll, h]
  cases out <;> rfl

/-- **Without interference** a request does what its endpoint does. -/
theorem submit_eq_commits (a : Arrival) (db : Db) :
    (submit cfg svc worker emergency a.now a.evidenceId a.submission db).1 =
      match openRequest cfg svc worker emergency a db with
      | .error _ => db
      | .ok commits => commitAll svc commits db := by
  obtain ⟨submission, now, evidenceId⟩ := a
  cases submission with
  | toolStarted payload =>
    simp only [submit, openRequest, submitToolStarted]
    cases toolGate cfg db worker emergency payload.scanId payload.executionToken
      payload.toolName with
    | error fault => rfl
    | ok scan =>
      simp only [bind, Except.bind, pure, Except.pure, commitAll_singleton]
      rfl
  | toolResult payload =>
    simp only [submit, openRequest, submitToolResult]
    cases toolGate cfg db worker emergency payload.scanId payload.executionToken
      payload.toolName with
    | error fault => rfl
    | ok scan =>
      simp only [bind, Except.bind]
      cases reportedToolStatus payload.status with
      | none => rfl
      | some status =>
        simp only [pure, Except.pure, commitAll, PendingCommit.apply, storeResult]
        split_ifs <;> rfl
  | evidence payload =>
    simp only [submit, openRequest, submitEvidence]
    cases evidenceGate cfg svc db worker emergency payload with
    | error fault => rfl
    | ok passed =>
      obtain ⟨scan, content, digest⟩ := passed
      simp only [bind, Except.bind, pure, Except.pure, commitAll_singleton, PendingCommit.apply,
        storeEvidence, findEvidence_objects]
      cases findEvidence db payload.toolRunId digest with
      | some row => rfl
      | none =>
        simp only
        split_ifs <;> rfl

/-- A request that passed its checks carries the token of its scan. -/
theorem openRequest_owned {a : Arrival} {db : Db} {commits : List PendingCommit}
    (h : openRequest cfg svc worker emergency a db = .ok commits) :
    ∃ s ∈ db.scans a.submission.scanId,
      s.executionToken = some a.submission.executionToken := by
  unfold openRequest at h
  cases hsub : a.submission with
  | toolStarted payload =>
    rw [hsub] at h
    obtain ⟨scan, hgate, -⟩ := bind_eq_ok.mp h
    obtain ⟨hscan, htoken, -⟩ := toolGate_ok hgate
    exact ⟨scan, hscan, htoken⟩
  | toolResult payload =>
    rw [hsub] at h
    obtain ⟨scan, hgate, -⟩ := bind_eq_ok.mp h
    obtain ⟨hscan, htoken, -⟩ := toolGate_ok hgate
    exact ⟨scan, hscan, htoken⟩
  | evidence payload =>
    rw [hsub] at h
    obtain ⟨⟨scan, content, digest⟩, hgate, -⟩ := bind_eq_ok.mp h
    obtain ⟨hscan, htoken⟩ := evidenceGate_token hgate
    exact ⟨scan, hscan, htoken⟩

variable (svc) in
/-- No transaction of a request writes a scan. -/
theorem PendingCommit.apply_scans (c : PendingCommit) (db : Db) :
    (c.apply svc db).1.scans = db.scans := by
  cases c with
  | announcement payload now =>
    simp only [apply, announce]
    split
    · rfl
    · split_ifs <;> rfl
  | toolRun payload status now =>
    simp only [apply, storeResult]
    split_ifs <;> rfl
  | assets upserts => rfl
  | evidence scan payload content digest evidenceId =>
    simp only [apply, storeEvidence, findEvidence_objects]
    cases findEvidence db payload.toolRunId digest with
    | some row => exact fileEvidence_scans ..
    | none =>
      simp only
      split_ifs
      · rfl
      · exact fileEvidence_scans ..

end

/-! ## Requests in flight -/

/-- A request that has passed its checks. -/
structure InFlight where
  scanId : Uuid
  executionToken : Uuid
  commits : List PendingCommit

structure Traffic where
  db : Db
  inFlight : Table ℕ InFlight

inductive TrafficStep where
  | arrive (request : ℕ) (worker : ScannerWorker) (emergency : Bool) (arrival : Arrival)
  | commit (request : ℕ)
  /-- The worker has gone, or the manager. -/
  | drop (request : ℕ)
  | onScan (scanId : Uuid) (step : ScanStep)
  | reap (now timeoutSeconds : ℤ) (staleHeartbeatSeconds : Option ℤ)

/-- The request after the commit of `c`. -/
def InFlight.after (q : InFlight) (cs : List PendingCommit) : Except Fault Unit → Option InFlight
  | .ok () => some { q with commits := cs }
  | .error _ => none

def trafficStep (cfg : Settings) (svc : Services) : TrafficStep → Traffic → Option Traffic
  | .arrive n worker emergency a, T =>
    match T.inFlight n, openRequest cfg svc worker emergency a T.db with
    | none, .ok commits =>
      some { T with inFlight := T.inFlight.set n {
        scanId := a.submission.scanId
        executionToken := a.submission.executionToken
        commits } }
    | _, _ => none
  | .commit n, T =>
    match T.inFlight n with
    | none => none
    | some q =>
      match q.commits with
      | [] => none
      | c :: cs =>
        let out := c.apply svc T.db
        some { db := out.1, inFlight := Function.update T.inFlight n (q.after cs out.2) }
  | .drop n, T => some { T with inFlight := Function.update T.inFlight n none }
  | .onScan id step, T =>
    (T.db.scans.update id (scanStep step)).map fun scans => { T with db := { T.db with scans } }
  | .reap now timeout stale, T =>
    some { T with db := { T.db with
      scans := T.db.scans.updateAll (scanStep (.reap now timeout stale)) } }

/-- The statement that a step executes on the row of a scan. -/
def TrafficStep.rowStep (id : Uuid) : TrafficStep → Option ScanStep
  | .onScan j step => if j = id then some step else none
  | .reap now timeout stale => some (.reap now timeout stale)
  | .arrive .. | .commit _ | .drop _ => none

/-! ## The fence -/

/-- The tool runs, assets, vulnerabilities and evidence are the same. -/
structure SameToolData (db db' : Db) : Prop where
  toolRuns : db'.toolRuns = db.toolRuns
  assets : db'.assets = db.assets
  evidence : db'.evidence = db.evidence
  vulnerabilities : db'.vulnerabilities = db.vulnerabilities
  vulnerabilityEvidence : db'.vulnerabilityEvidence = db.vulnerabilityEvidence
  ingestCalls : db'.ingestCalls = db.ingestCalls

/-- The request carries the token that its scan has now. -/
def Traffic.Owns (T : Traffic) (q : InFlight) : Prop :=
  ∃ s ∈ T.db.scans q.scanId, s.executionToken = some q.executionToken

/-- **The fence**: what a step writes is committed by a request that carries the token of its
scan. -/
def WritesFenced (cfg : Settings) (svc : Services) (T : Traffic) (a : TrafficStep) : Prop :=
  ∀ T', trafficStep cfg svc a T = some T' → ¬ SameToolData T.db T'.db →
    ∃ n q, a = .commit n ∧ T.inFlight n = some q ∧ T.Owns q

/-- A request for the scan has passed its checks and has something left to commit. -/
def Traffic.Busy (T : Traffic) (id : Uuid) : Prop :=
  ∃ n q, T.inFlight n = some q ∧ q.commits ≠ [] ∧ q.scanId = id

/-- While a request for a scan is between its checks and its last commit, nothing but heartbeats
takes effect on the scan. -/
def KeepsOwners (T : Traffic) (a : TrafficStep) : Prop :=
  ∀ id, T.Busy id → ∀ step ∈ a.rowStep id, ∀ s ∈ T.db.scans id,
    (scanStep step s).isSome → ∃ now tok, step = .heartbeat now tok

/-- Every request with something left to commit carries the token of its scan. -/
def Traffic.AllOwn (T : Traffic) : Prop :=
  ∀ n q, T.inFlight n = some q → q.commits ≠ [] → T.Owns q

variable {cfg : Settings} {svc : Services}

/-- **What a step does**: a request passes its checks, commits its next transaction or is dropped,
or the rows of scans are updated. -/
theorem trafficStep_cases {a : TrafficStep} {T T' : Traffic}
    (h : trafficStep cfg svc a T = some T') :
    (∃ n worker emergency arrival commits, a = .arrive n worker emergency arrival ∧
      openRequest cfg svc worker emergency arrival T.db = .ok commits ∧
      T' = { T with inFlight := T.inFlight.set n {
        scanId := arrival.submission.scanId
        executionToken := arrival.submission.executionToken
        commits } }) ∨
    (∃ n q c cs, a = .commit n ∧ T.inFlight n = some q ∧ q.commits = c :: cs ∧
      T' = { db := (c.apply svc T.db).1
             inFlight := Function.update T.inFlight n (q.after cs (c.apply svc T.db).2) }) ∨
    (∃ n, a = .drop n ∧ T' = { T with inFlight := Function.update T.inFlight n none }) ∨
    ∃ scans, T' = { T with db := { T.db with scans } } ∧
      ∀ id, scans id = (T.db.scans id).map fun s => (a.rowStep id).elim s (next scanStep s) := by
  cases a with
  | arrive n worker emergency arrival =>
    simp only [trafficStep] at h
    split at h
    case h_1 commits _ hopen =>
      cases h
      exact .inl ⟨n, worker, emergency, arrival, commits, rfl, hopen, rfl⟩
    · cases h
  | commit n =>
    simp only [trafficStep] at h
    split at h
    · cases h
    case h_2 q hq =>
      split at h
      · cases h
      case h_2 c cs hcs =>
        cases h
        exact .inr (.inl ⟨n, q, c, cs, rfl, hq, hcs, rfl⟩)
  | drop n =>
    cases h
    exact .inr (.inr (.inl ⟨n, rfl, rfl⟩))
  | onScan j step =>
    simp only [trafficStep, Option.map_eq_some_iff] at h
    obtain ⟨scans, hscans, rfl⟩ := h
    refine .inr (.inr (.inr ⟨scans, rfl, fun id => ?_⟩))
    have hrow := Table.update_getD_apply T.db.scans j id (scanStep step)
    rw [hscans, Option.getD_some] at hrow
    rw [hrow]
    by_cases hj : j = id
    · subst hj
      simp [TrafficStep.rowStep, next]
    · simp [TrafficStep.rowStep, hj, Ne.symm hj]
  | reap now timeout stale =>
    cases h
    exact .inr (.inr (.inr ⟨_, rfl, fun id => rfl⟩))

/-- What a step does to the rows of the scans. -/
theorem trafficStep_row {a : TrafficStep} {T T' : Traffic} (h : trafficStep cfg svc a T = some T')
    (id : Uuid) :
    T'.db.scans id = (T.db.scans id).map fun s => (a.rowStep id).elim s (next scanStep s) := by
  have hsame : ∀ scans : Table Uuid Scan, a.rowStep id = none → scans id = T.db.scans id →
      scans id = (T.db.scans id).map fun s => (a.rowStep id).elim s (next scanStep s) := by
    intro scans hnone hscans
    simp [hnone, hscans]
  rcases trafficStep_cases h with ⟨n, worker, emergency, arrival, commits, rfl, -, rfl⟩ |
    ⟨n, q, c, cs, rfl, -, -, rfl⟩ | ⟨n, rfl, rfl⟩ | ⟨scans, rfl, hscans⟩
  · exact hsame _ rfl rfl
  · exact hsame _ rfl (congrFun (c.apply_scans svc T.db) id)
  · exact hsame _ rfl rfl
  · exact hscans id

/-- A heartbeat leaves the token as it is. -/
theorem executionToken_of_heartbeat {step : ScanStep} {s : Scan}
    (h : (scanStep step s).isSome → ∃ now tok, step = .heartbeat now tok) :
    (next scanStep s step).executionToken = s.executionToken := by
  rcases next_cases scanStep s step with hstep | ⟨-, hstep⟩
  · obtain ⟨now, tok, rfl⟩ := h (by rw [hstep]; rfl)
    obtain ⟨-, hrow⟩ := stampHeartbeat_eq_some.mp hstep
    rw [hrow]
  · rw [hstep]

/-- The step lemma of ownership: a request that owns its scan still does after a step that keeps
the owners. -/
theorem owns_step {a : TrafficStep} {T T' : Traffic} (h : trafficStep cfg svc a T = some T')
    (hkeep : KeepsOwners T a) {n : ℕ} {q : InFlight} (hn : T.inFlight n = some q)
    (hleft : q.commits ≠ []) (hown : T.Owns q) : T'.Owns q := by
  obtain ⟨s, hs, htoken⟩ := hown
  rw [Option.mem_def] at hs
  have hrow := trafficStep_row h q.scanId
  rw [hs, Option.map_some] at hrow
  refine ⟨_, hrow, ?_⟩
  cases hstep : a.rowStep q.scanId with
  | none => exact htoken
  | some step =>
    rw [Option.elim_some, executionToken_of_heartbeat (hkeep _ ⟨n, q, hn, hleft, rfl⟩ _ hstep _ hs)]
    exact htoken

/-- The requests after a step: each of them was there with what it has left and one commit more
at most, or has just passed its checks. -/
theorem inFlight_step {a : TrafficStep} {T T' : Traffic} (h : trafficStep cfg svc a T = some T')
    {n : ℕ} {q' : InFlight} (hn : T'.inFlight n = some q') :
    (∃ q, T.inFlight n = some q ∧ q.scanId = q'.scanId ∧ q.executionToken = q'.executionToken ∧
        (q'.commits ≠ [] → q.commits ≠ [])) ∨
      T'.Owns q' := by
  rcases trafficStep_cases h with ⟨m, worker, emergency, arrival, commits, rfl, hopen, rfl⟩ |
    ⟨m, q, c, cs, rfl, hq, hcs, rfl⟩ | ⟨m, rfl, rfl⟩ | ⟨scans, rfl, -⟩
  · simp only [Table.set_apply] at hn
    split_ifs at hn with hnm
    · cases hn
      exact .inr (openRequest_owned hopen)
    · exact .inl ⟨q', hn, rfl, rfl, id⟩
  · simp only [Function.update_apply] at hn
    split_ifs at hn with hnm
    · subst hnm
      refine .inl ⟨q, hq, ?_⟩
      cases hout : (c.apply svc T.db).2 with
      | error fault =>
        rw [hout] at hn
        cases hn
      | ok u =>
        rw [hout] at hn
        cases hn
        refine ⟨rfl, rfl, fun _ => ?_⟩
        rw [hcs]
        exact List.cons_ne_nil c cs
    · exact .inl ⟨q', hn, rfl, rfl, id⟩
  · simp only [Function.update_apply] at hn
    split_ifs at hn
    exact .inl ⟨q', hn, rfl, rfl, id⟩
  · exact .inl ⟨q', hn, rfl, rfl, id⟩

theorem allOwn_step (T : Traffic) (a : TrafficStep) (T' : Traffic) (hT : T.AllOwn)
    (hkeep : KeepsOwners T a) (h : trafficStep cfg svc a T = some T') : T'.AllOwn := by
  intro n q' hn hleft
  rcases inFlight_step h hn with ⟨q, hq, hscan, htoken, hcommits⟩ | hown
  · obtain ⟨s, hs, howner⟩ := owns_step h hkeep hq (hcommits hleft) (hT n q hq (hcommits hleft))
    rw [hscan] at hs
    rw [htoken] at howner
    exact ⟨s, hs, howner⟩
  · exact hown

/-- Only a commit writes the data of the tools. -/
theorem sameToolData_step {a : TrafficStep} {T T' : Traffic}
    (h : trafficStep cfg svc a T = some T') (hwrites : ¬ SameToolData T.db T'.db) :
    ∃ n q, a = .commit n ∧ T.inFlight n = some q ∧ q.commits ≠ [] := by
  rcases trafficStep_cases h with ⟨n, worker, emergency, arrival, commits, rfl, -, rfl⟩ |
    ⟨n, q, c, cs, rfl, hq, hcs, rfl⟩ | ⟨n, rfl, rfl⟩ | ⟨scans, rfl, -⟩
  · exact absurd ⟨rfl, rfl, rfl, rfl, rfl, rfl⟩ hwrites
  · refine ⟨n, q, rfl, hq, ?_⟩
    rw [hcs]
    exact List.cons_ne_nil c cs
  · exact absurd ⟨rfl, rfl, rfl, rfl, rfl, rfl⟩ hwrites
  · exact absurd ⟨rfl, rfl, rfl, rfl, rfl, rfl⟩ hwrites

/-- **Writes are fenced** in every run in which nothing but heartbeats takes effect on a scan
between the checks of a request for it and the last of its commits. -/
theorem writes_fenced {T₀ : Traffic} (h0 : ∀ n, T₀.inFlight n = none) {σ : List TrafficStep}
    (hkeep : Along (trafficStep cfg svc) KeepsOwners T₀ σ) :
    Along (trafficStep cfg svc) (WritesFenced cfg svc) T₀ σ := by
  refine Along.of_invariant allOwn_step (fun T a hown _ T' h hwrites => ?_) (fun n q hn => ?_) hkeep
  · obtain ⟨n, q, ha, hn, hleft⟩ := sameToolData_step h hwrites
    exact ⟨n, q, ha, hn, hown n q hn hleft⟩
  · rw [h0 n] at hn
    cases hn

/-! ## A request that is overtaken -/

/-- Scan 5 is running under token 7; nothing is in flight. -/
def runningTraffic : Traffic where
  db := { Db.empty with scans := .ofList [(5, {
    Scan.created 1 2 3 [("requested_modules", .arr [.str "nmap"])] 0 with
    status := .running, executionToken := some 7 })] }
  inFlight _ := none

/-- The announcement of tool run 9 of scan 5, under token 7. -/
def announceNmap : TrafficStep :=
  .arrive 0 ⟨"w", "public", none, none, .active, none⟩ false
    ⟨.toolStarted ⟨5, 9, "nmap", 7, none⟩, 0, 1⟩

/-- A run in which the scan is requeued after the commit. -/
theorem writes_fenced_announcement :
    Along (trafficStep ⟨""⟩ (.ascii [] fun _ _ => none))
      (WritesFenced ⟨""⟩ (.ascii [] fun _ _ => none)) runningTraffic
      [announceNmap, .commit 0, .onScan 5 (.requeue 3), .onScan 5 (.claim 4 8)] := by
  refine writes_fenced (fun _ => rfl) ?_
  have hidle : ∀ (T : Traffic) (a : TrafficStep), (∀ id, a.rowStep id = none) →
      KeepsOwners T a := fun T a hnone id _ step hstep => by
    rw [hnone id] at hstep
    cases hstep
  have hdone : ∀ (T : Traffic) (a : TrafficStep), T.inFlight =
      (run (trafficStep ⟨""⟩ (.ascii [] fun _ _ => none)) runningTraffic
        [announceNmap, .commit 0]).inFlight → KeepsOwners T a := by
    rintro T a hT id ⟨n, q, hn, hleft, -⟩
    rw [hT] at hn
    by_cases hn0 : n = 0
    · subst hn0
      cases hn
      exact absurd rfl hleft
    · have hnone : (run (trafficStep ⟨""⟩ (.ascii [] fun _ _ => none)) runningTraffic
          [announceNmap, .commit 0]).inFlight n = none :=
        (Function.update_of_ne hn0 _ _).trans (Table.set_of_ne _ _ hn0)
      rw [hnone] at hn
      cases hn
  exact Along.cons (hidle _ _ fun _ => rfl) <| Along.cons (hidle _ _ fun _ => rfl) <|
    Along.cons (hdone _ _ rfl) <| Along.cons (hdone _ _ rfl) <| along_nil _ _

/-- **A write of a request that was overtaken**: the scan is requeued and claimed under token 8
between the check of token 7 and the commit. -/
theorem write_after_requeue :
    ¬ Along (trafficStep ⟨""⟩ (.ascii [] fun _ _ => none))
      (WritesFenced ⟨""⟩ (.ascii [] fun _ _ => none)) runningTraffic
      [announceNmap, .onScan 5 (.requeue 3), .onScan 5 (.claim 4 8), .commit 0] := by
  intro hfenced
  obtain ⟨n, q, hn, hq, s, hs, htoken⟩ :=
    hfenced [announceNmap, .onScan 5 (.requeue 3), .onScan 5 (.claim 4 8)] (.commit 0) [] rfl _ rfl
      fun hsame => by
        have hrow := congrFun hsame.toolRuns 9
        cases hrow
  cases hn
  cases hq
  cases hs
  exact absurd htoken (by decide)

end ScanPlatform
