import ScanPlatform.Base.Client
import ScanPlatform.Manager.Submission
import ScanPlatform.Manager.ToolRunPhase

/-!
# The worker's executor

`ManagerResultSink` posts the submissions of a worker to the manager, with a bounded number of
retries, over a network that may lose a request or its answer.

What `execute_leased_job` does for one tool: it announces the run, runs the tool, submits its raw
output, reports its result and submits screenshots. The run itself is an argument, which is the
exception or what the tool returned.

* `SubmitError`: how a submission fails for the worker;
* `Attempt`, `postOnce`, `post`: what happens to one attempt, and `_post`;
* `Fates`, `Link`, `serve`: the attempts of all submissions of a tool run, and the manager behind
  the network as a server;
* `post_invariant`, `post_unreached`, **`post_reached`**: the rules for a submission;
* `serve_invariant`, **`serve_handled`**: the rules for the server;
* `Exchange`: a worker's part of the exchange with the manager;
* `announcement`, `crashResult`, `runResult`, `evidencePayload`: what the worker sends;
* `runLeasedTool`: the tool of a leased job;
* **`exchange_handled`**: its run behind the network as handled submissions;
* `asks_captureAndSubmitScreenshots`, **`asks_runLeasedTool_failed`**: what it can send.
-/

set_option autoImplicit false

/-! ## The worker's result sink -/

namespace ScanPlatform

/-- The exception that a submission raises. -/
inductive SubmitError where
  /-- `EvidenceRejected`. -/
  | rejected (reason : String)
  /-- `HTTPStatusError`. -/
  | status (code : ℕ)
  /-- `TransportError`. -/
  | transport

/-- `_is_retryable`. -/
def SubmitError.retryable : SubmitError → Bool
  | .rejected _ => false
  | .status code => 500 ≤ code ∨ code = 429
  | .transport => true

/-- The status of the answer to a request. -/
def Fault.status : Fault → ℕ
  | .http status _ => status
  | .raised _ => 500

/-- What happens to one attempt: it never reaches the manager, or it is handled and the worker gets
the answer or not. -/
inductive Attempt where
  | lost
  | handled (now : ℤ) (evidenceId : Uuid) (answered : Bool)

/-- The attempt reaches the manager. -/
def Attempt.Handled : Attempt → Prop
  | .lost => False
  | .handled _ _ _ => True

variable (cfg : Settings) (svc : Services) (worker : ScannerWorker) (emergency : Bool)

/-- `_post_once`. -/
def postOnce (submission : Submission) (db : Db) : Attempt → Db × Except SubmitError Unit
  | .lost => (db, .error .transport)
  | .handled now evidenceId answered =>
    let (db', answer) := submit cfg svc worker emergency now evidenceId submission db
    (db', if answered then answer.mapError fun fault => .status fault.status
      else .error .transport)

/-- `_POST_MAX_ATTEMPTS`. -/
def postMaxAttempts : ℕ := 3

/-- `_post` with `left` attempts left; attempts that the list does not name are lost. -/
def post (submission : Submission) : ℕ → List Attempt → Db → Db × Except SubmitError Unit
  | 0, _, db => (db, .error .transport)
  | left + 1, attempts, db =>
    let (db, answer) := postOnce cfg svc worker emergency submission db (attempts.headD .lost)
    match answer with
    | .ok () => (db, .ok ())
    | .error e =>
      if e.retryable ∧ left ≠ 0 then post submission left attempts.tail db
      else (db, .error e)

/-- The attempts of the submissions of a tool run: its announcement, its raw output, its result and
its screenshots, one after the other. -/
structure Fates where
  started : List Attempt
  evidence : List Attempt
  result : List Attempt
  screenshots : List (List Attempt)

/-- The manager behind the network. -/
structure Link where
  db : Db
  fates : Fates

/-- A submission to the manager; only the raw output names a tool. -/
def serve (submission : Submission) (link : Link) : Link × Except SubmitError Unit :=
  let submitted (attempts : List Attempt) (fates : Fates) : Link × Except SubmitError Unit :=
    let (db, answer) := post cfg svc worker emergency submission postMaxAttempts attempts link.db
    (⟨db, fates⟩, answer)
  match submission with
  | .toolStarted _ => submitted link.fates.started link.fates
  | .toolResult _ => submitted link.fates.result link.fates
  | .evidence payload =>
    if payload.toolName.isSome then submitted link.fates.evidence link.fates
    else submitted (link.fates.screenshots.headD [])
      { link.fates with screenshots := link.fates.screenshots.tail }

variable {cfg svc worker emergency}

/-! ## The attempts of a submission -/

theorem postOnce_lost (submission : Submission) (db : Db) :
    postOnce cfg svc worker emergency submission db .lost = (db, .error .transport) := rfl

/-- **What handling a submission preserves, posting it preserves.** -/
theorem post_invariant {submission : Submission} {I : Db → Prop}
    (h : ∀ now evidenceId db, I db →
      I (submit cfg svc worker emergency now evidenceId submission db).1)
    (left : ℕ) (attempts : List Attempt) {db : Db} (hdb : I db) :
    I (post cfg svc worker emergency submission left attempts db).1 := by
  induction left generalizing attempts db with
  | zero => exact hdb
  | succ left ih =>
    have honce : I (postOnce cfg svc worker emergency submission db (attempts.headD .lost)).1 := by
      cases attempts.headD .lost with
      | lost => exact hdb
      | handled now evidenceId answered => exact h now evidenceId db hdb
    simp only [post]
    split
    · exact honce
    · split_ifs
      · exact ih attempts.tail honce
      · exact honce

/-- A submission whose attempts are all lost changes nothing. -/
theorem post_unreached {submission : Submission} {left : ℕ} {attempts : List Attempt} {db : Db}
    (h : ∀ a ∈ attempts.take left, ¬ a.Handled) :
    (post cfg svc worker emergency submission left attempts db).1 = db := by
  induction left generalizing attempts with
  | zero => rfl
  | succ left ih =>
    have hlost : attempts.headD .lost = .lost := by
      cases attempts with
      | nil => rfl
      | cons a rest =>
        cases a with
        | lost => rfl
        | handled now evidenceId answered => exact absurd trivial (h _ List.mem_cons_self)
    simp only [post, hlost, postOnce_lost]
    split_ifs
    · refine ih fun a ha => h a ?_
      cases attempts with
      | nil => rw [List.tail_nil, List.take_nil] at ha; cases ha
      | cons b rest => exact List.mem_cons_of_mem _ ha
    · rfl

/-- **A submission that reaches the manager** has been handled, at least once. -/
theorem post_reached {submission : Submission} {I J : Db → Prop}
    (hfirst : ∀ now evidenceId db, I db →
      J (submit cfg svc worker emergency now evidenceId submission db).1)
    (hagain : ∀ now evidenceId db, J db →
      J (submit cfg svc worker emergency now evidenceId submission db).1)
    {left : ℕ} {attempts : List Attempt} (hreach : ∃ a ∈ attempts.take left, a.Handled) {db : Db}
    (hdb : I db) : J (post cfg svc worker emergency submission left attempts db).1 := by
  induction left generalizing attempts with
  | zero => obtain ⟨a, ha, -⟩ := hreach; cases ha
  | succ left ih =>
    obtain ⟨a, ha, hhandled⟩ := hreach
    cases attempts with
    | nil => cases ha
    | cons b rest =>
      cases b with
      | handled now evidenceId answered =>
        have honce := hfirst now evidenceId db hdb
        simp only [post, List.headD_cons, List.tail_cons]
        split
        · exact honce
        · split_ifs
          · exact post_invariant hagain left rest honce
          · exact honce
      | lost =>
        have hrest : a ∈ rest.take left := by
          rcases List.mem_cons.mp ha with rfl | ha
          · cases hhandled
          · exact ha
        have hleft : left ≠ 0 := by
          rintro rfl
          cases hrest
        simp only [post, List.headD_cons, List.tail_cons, postOnce_lost]
        rw [if_pos ⟨rfl, hleft⟩]
        exact ih ⟨a, hrest, hhandled⟩

/-! ## The server -/

theorem serve_toolStarted (payload : ToolStartedIn) (link : Link) :
    (serve cfg svc worker emergency (.toolStarted payload) link).1 =
      ⟨(post cfg svc worker emergency (.toolStarted payload) postMaxAttempts link.fates.started
        link.db).1, link.fates⟩ := rfl

theorem serve_toolResult (payload : ToolResultIn) (link : Link) :
    (serve cfg svc worker emergency (.toolResult payload) link).1 =
      ⟨(post cfg svc worker emergency (.toolResult payload) postMaxAttempts link.fates.result
        link.db).1, link.fates⟩ := rfl

theorem serve_rawOutput {payload : EvidenceIn} (h : payload.toolName.isSome) (link : Link) :
    (serve cfg svc worker emergency (.evidence payload) link).1 =
      ⟨(post cfg svc worker emergency (.evidence payload) postMaxAttempts link.fates.evidence
        link.db).1, link.fates⟩ := by
  simp only [serve, h, if_true]

/-- What handling a submission preserves, the server preserves. -/
theorem serve_invariant {submission : Submission} {I : Db → Prop}
    (h : ∀ now evidenceId db, I db →
      I (submit cfg svc worker emergency now evidenceId submission db).1)
    {link : Link} (hlink : I link.db) :
    I (serve cfg svc worker emergency submission link).1.db := by
  unfold serve
  cases submission with
  | toolStarted payload => exact post_invariant h _ _ hlink
  | toolResult payload => exact post_invariant h _ _ hlink
  | evidence payload =>
    simp only
    split_ifs
    · exact post_invariant h _ _ hlink
    · exact post_invariant h _ _ hlink

theorem post_handled (submission : Submission) (left : ℕ) (attempts : List Attempt) (db : Db) :
    ∃ arrivals : List Arrival, (post cfg svc worker emergency submission left attempts db).1 =
        arrivals.foldl (handle cfg svc worker emergency) db ∧
      ∀ a ∈ arrivals, a.submission = submission := by
  refine post_invariant (I := fun db' => ∃ arrivals : List Arrival,
    db' = arrivals.foldl (handle cfg svc worker emergency) db ∧
      ∀ a ∈ arrivals, a.submission = submission) ?_ left attempts ⟨[], rfl, List.forall_mem_nil _⟩
  rintro now evidenceId _ ⟨arrivals, rfl, hsame⟩
  refine ⟨arrivals ++ [⟨submission, now, evidenceId⟩], ?_, fun a ha => ?_⟩
  · rw [List.foldl_append]
    rfl
  · rcases List.mem_append.mp ha with ha | ha
    · exact hsame a ha
    · rw [List.mem_singleton.mp ha]

/-- **A submission is handled some number of times**, possibly none. -/
theorem serve_handled (submission : Submission) (link : Link) :
    ∃ arrivals : List Arrival, (serve cfg svc worker emergency submission link).1.db =
        arrivals.foldl (handle cfg svc worker emergency) link.db ∧
      ∀ a ∈ arrivals, a.submission = submission := by
  unfold serve
  cases submission with
  | toolStarted payload => exact post_handled _ _ _ _
  | toolResult payload => exact post_handled _ _ _ _
  | evidence payload =>
    simp only
    split_ifs
    · exact post_handled _ _ _ _
    · exact post_handled _ _ _ _

end ScanPlatform

/-! ## The worker's executor -/

namespace ScanPlatform

open Client PyStr

abbrev Exchange := Client Submission (Except SubmitError Unit)

/-- The part of a leased job that concerns a tool run. -/
structure LeasedJob where
  scanId : Uuid
  executionToken : Uuid

/-- `_is_authoritative_refusal`. -/
def SubmitError.refusal : SubmitError → Bool
  | .status code => code = 401 ∨ code = 403 ∨ code = 409
  | .rejected _ | .transport => false

/-- The submission was refused, which stops the scan before the next tool. -/
def refused : Except SubmitError Unit → Bool
  | .ok () => false
  | .error e => e.refusal

/-- The submission failed without having been refused. -/
def outage : Except SubmitError Unit → Bool
  | .ok () => false
  | .error e => !e.refusal

/-- What a tool leaves for the loop over the tools. -/
structure ToolOutcome where
  status : RunStatus
  findings : List CommonFinding
  refused : Bool
  persisted : Bool

/-- A tool run of the job, as it is reported. -/
def LeasedJob.reported (job : LeasedJob) (runner : Runner) (toolRunId : Uuid)
    (status : ToolStatus) : Reported where
  scanId := job.scanId
  executionToken := job.executionToken
  toolName := runner.info.name
  toolRunId
  status

/-! ## What the worker sends -/

def announcement (job : LeasedJob) (runner : Runner) (toolRunId : Uuid) (startedAt : ℤ) :
    ToolStartedIn where
  scanId := job.scanId
  toolRunId
  toolName := runner.info.name
  executionToken := job.executionToken
  startedAt := some startedAt

/-- The result of a run that raised; `reason` is the exception as a text. -/
def crashResult (job : LeasedJob) (runner : Runner) (toolRunId : Uuid) (startedAt : ℤ)
    (reason : String) : ToolResultIn where
  scanId := job.scanId
  toolRunId
  toolName := runner.info.name
  executionToken := job.executionToken
  status := RunStatus.text .failed
  findings := []
  exitCode := none
  errorMessage := some (upTo 2000 reason)
  startedAt := some startedAt
  effectiveCommand := none
  timedOut := none

/-- `_finding_to_dict`. -/
def findingToDict (finding : CommonFinding) : Json.Value :=
  .obj [("asset_type", .str finding.assetType), ("value", .str finding.value),
    ("metadata", .obj finding.metadata)]

/-- The reason of a run that did not complete. -/
def toolError (raw : RawToolOutput) (status : RunStatus) : Option String :=
  if status = .completed then none
  else (some (upTo 2000 (strip raw.stderr))).filter (· ≠ "")

def runResult (job : LeasedJob) (runner : Runner) (toolRunId : Uuid) (startedAt : ℤ)
    (raw : RawToolOutput) (status : RunStatus) (findings : List CommonFinding) :
    ToolResultIn where
  scanId := job.scanId
  toolRunId
  toolName := runner.info.name
  executionToken := job.executionToken
  status := status.text
  findings := findings.map findingToDict
  exitCode := some raw.exitCode
  errorMessage := toolError raw status
  startedAt := some startedAt
  effectiveCommand := some raw.command
  timedOut := some raw.timedOut

def evidencePayload (svc : Services) (job : LeasedJob) (toolRunId : Uuid) (content : Bytes)
    (contentType : String) (toolName fingerprint : Option String) : EvidenceIn where
  scanId := job.scanId
  toolRunId := some toolRunId
  contentType
  content := some content
  sha256 := some (svc.sha256 content)
  executionToken := job.executionToken
  toolName
  fingerprint

/-- `ManagerResultSink.submit_evidence`, which makes the checks of the manager first. -/
def sendEvidence (svc : Services) (job : LeasedJob) (toolRunId : Uuid) (content : Bytes)
    (contentType : String) (toolName fingerprint : Option String) :
    Exchange (Except SubmitError Unit) :=
  match validateEvidence svc content contentType with
  | .error reason => pure (.error (.rejected reason))
  | .ok _ => request (.evidence
      (evidencePayload svc job toolRunId content contentType toolName fingerprint))

/-- The raw output of a run, which names the parser of the tool. -/
def rawEvidence (svc : Services) (job : LeasedJob) (runner : Runner) (toolRunId : Uuid)
    (raw : RawToolOutput) : EvidenceIn :=
  evidencePayload svc job toolRunId (svc.encode raw.stdout) "text/plain" (some runner.info.name)
    none

/-- A run without output has nothing to store. -/
def sendRawOutput (svc : Services) (job : LeasedJob) (runner : Runner) (toolRunId : Uuid)
    (raw : RawToolOutput) : Exchange (Except SubmitError Unit) :=
  if raw.stdout = "" then pure (.ok ())
  else sendEvidence svc job toolRunId (svc.encode raw.stdout) "text/plain" (some runner.info.name)
    none

/-! ## The tool of a leased job -/

/-- The images, each under the fingerprint of its finding; what fails is passed over. -/
def sendScreenshots (svc : Services) (job : LeasedJob) (toolRunId : Uuid) :
    List (String × Bytes) → Exchange Unit
  | [] => pure ()
  | (fingerprint, image) :: rest => do
    let _ ← sendEvidence svc job toolRunId image "image/png" none (some fingerprint)
    sendScreenshots svc job toolRunId rest

/-- `_capture_and_submit_screenshots`; `capture` returns the images of findings, or `none` when it
raises. -/
def captureAndSubmitScreenshots (svc : Services)
    (capture : List VulnerabilityFinding → Option (List (String × Bytes))) (job : LeasedJob)
    (runner : Runner) (toolRunId : Uuid) (raw : RawToolOutput) (status : RunStatus) :
    Exchange Unit :=
  if status = .failed then pure ()
  else
    match runner.parseVulnerabilities raw with
    | none | some [] => pure ()
    | some findings => sendScreenshots svc job toolRunId ((capture findings).getD [])

/-- One tool of `execute_leased_job`, from its announcement on. -/
def runLeasedTool (svc : Services)
    (capture : List VulnerabilityFinding → Option (List (String × Bytes))) (job : LeasedJob)
    (runner : Runner) (toolRunId : Uuid) (startedAt : ℤ) (run : Except String RawToolOutput) :
    Exchange ToolOutcome := do
  let announced ← request (.toolStarted (announcement job runner toolRunId startedAt))
  match run with
  | .error reason =>
    let reported ← request (.toolResult (crashResult job runner toolRunId startedAt reason))
    return ⟨.failed, [], refused announced || refused reported, reported.isOk⟩
  | .ok raw =>
    let classified := runner.classify raw
    let findings := if classified = .failed then [] else runner.findings raw
    let stored ← sendRawOutput svc job runner toolRunId raw
    let status :=
      if outage stored ∧ classified = .completed then RunStatus.partialRun else classified
    let reported ← request (.toolResult
      (runResult job runner toolRunId startedAt raw status findings))
    captureAndSubmitScreenshots svc capture job runner toolRunId raw status
    return ⟨status, findings, refused announced || refused stored || refused reported,
      reported.isOk⟩

/-- **What the worker does behind the network** is that the manager handles submissions of it. -/
theorem exchange_handled {α : Type} {cfg : Settings} {svc : Services} {worker : ScannerWorker}
    {emergency : Bool} (c : Exchange α) (link : Link) :
    ∃ arrivals : List Arrival, (run (serve cfg svc worker emergency) c link).1.db =
        arrivals.foldl (handle cfg svc worker emergency) link.db ∧
      ∀ a ∈ arrivals, Asks a.submission c :=
  run_handled serve_handled c link

/-! ## What a worker can send -/

theorem asks_sendEvidence {svc : Services} {job : LeasedJob} {toolRunId : Uuid} {content : Bytes}
    {contentType : String} {toolName fingerprint : Option String} {submission : Submission}
    (h : Asks submission
      (sendEvidence svc job toolRunId content contentType toolName fingerprint)) :
    submission = .evidence
      (evidencePayload svc job toolRunId content contentType toolName fingerprint) := by
  unfold sendEvidence at h
  split at h
  · exact absurd h (not_asks_pure _ _)
  · exact asks_request.mp h

/-- Of its images the worker sends the bytes and the fingerprint of a finding. -/
theorem asks_captureAndSubmitScreenshots {svc : Services}
    {capture : List VulnerabilityFinding → Option (List (String × Bytes))} {job : LeasedJob}
    {runner : Runner} {toolRunId : Uuid} {raw : RawToolOutput} {status : RunStatus}
    {submission : Submission}
    (h : Asks submission
      (captureAndSubmitScreenshots svc capture job runner toolRunId raw status)) :
    ∃ fingerprint image, submission = .evidence
      (evidencePayload svc job toolRunId image "image/png" none (some fingerprint)) := by
  have hall : ∀ shots, Asks submission (sendScreenshots svc job toolRunId shots) →
      ∃ fingerprint image, submission = .evidence
        (evidencePayload svc job toolRunId image "image/png" none (some fingerprint)) := by
    intro shots
    induction shots with
    | nil => exact fun h => absurd h (not_asks_pure _ _)
    | cons shot shots ih =>
      intro h
      rcases h.of_bind with h | ⟨_, h⟩
      · exact ⟨shot.1, shot.2, asks_sendEvidence h⟩
      · exact ih h
  unfold captureAndSubmitScreenshots at h
  split_ifs at h
  · exact absurd h (not_asks_pure _ _)
  · split at h
    · exact absurd h (not_asks_pure _ _)
    · exact absurd h (not_asks_pure _ _)
    · exact hall _ h

/-- **For a run that failed** the worker sends the announcement, the raw output if there is any, and
the result, whatever it is answered. -/
theorem asks_runLeasedTool_failed {svc : Services}
    {capture : List VulnerabilityFinding → Option (List (String × Bytes))} {job : LeasedJob}
    {runner : Runner} {toolRunId : Uuid} {startedAt : ℤ} {raw : RawToolOutput}
    (hfailed : runner.classify raw = .failed) {submission : Submission}
    (h : Asks submission
      (runLeasedTool svc capture job runner toolRunId startedAt (.ok raw))) :
    submission = .toolStarted (announcement job runner toolRunId startedAt) ∨
      submission = .evidence (rawEvidence svc job runner toolRunId raw) ∧ raw.stdout ≠ "" ∨
      submission = .toolResult (runResult job runner toolRunId startedAt raw .failed []) := by
  rcases asks_request_bind.mp h with h | ⟨announced, h⟩
  · exact .inl h
  simp only [hfailed, if_true, reduceCtorEq, and_false, if_false] at h
  rcases h.of_bind with h | ⟨stored, h⟩
  · unfold sendRawOutput at h
    split_ifs at h with hempty
    · exact absurd h (not_asks_pure _ _)
    · exact .inr (.inl ⟨asks_sendEvidence h, hempty⟩)
  rcases asks_request_bind.mp h with h | ⟨reported, h⟩
  · exact .inr (.inr h)
  rcases h.of_bind with h | ⟨_, h⟩
  · simp only [captureAndSubmitScreenshots, if_true] at h
    exact absurd h (not_asks_pure _ _)
  · exact absurd h (not_asks_pure _ _)

end ScanPlatform
