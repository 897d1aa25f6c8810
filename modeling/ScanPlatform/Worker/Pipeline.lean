import ScanPlatform.Engine.Orchestrator
import ScanPlatform.Worker.Executor

/-!
# The worker's pipeline

The loop of `execute_leased_job` over the tools of a leased scan. Everything that happens outside
the loop is an argument: what the stop probe is answered, what the tool returns or raises, and what
each submission is answered.

* `ProbeAnswer`, `scanStatus`, `stopReason`: the stop probe;
* `Turn`, `Turn.answer`: what happens to one turn of the loop;
* `Visit`, `executeTools`, `leasedOutcome`, `executeLeasedJob`: the loop and the aggregate;
* **`startTool_raised`**, **`startTool_ran`**, `startTool_refused`: what one tool leaves, and which
  of its refusals the loop gets to know.
-/

set_option autoImplicit false

namespace ScanPlatform

open Client

/-! ## The stop probe -/

/-- What the manager answers to `GET /v1/scan-status`, if anything. -/
inductive ProbeAnswer where
  | answered (stopReason : Option String)
  | status (code : ℕ)
  | transport

/-- How `ManagerClient._request` raises. -/
inductive ProbeError where
  | leaseError (reason : String)
  | httpError

def reasonAuthFailed : String := "WORKER_AUTH_FAILED"

/-- `ManagerClient.scan_status`. -/
def scanStatus : ProbeAnswer → Except ProbeError (Option String)
  | .answered reason => .ok (reason.filter (· ≠ ""))
  | .status code =>
    if code = 401 ∨ code = 403 then .error (.leaseError reasonAuthFailed)
    else if 400 ≤ code ∧ code < 500 then .error (.leaseError "MANAGER_REQUEST_REJECTED")
    else .error .httpError
  | .transport => .error .httpError

/-- `_STOP_REASONS`. -/
def stopReasons : List String := ["cancelled", "revoked"]

/-- `_stop_reason`. -/
def stopReason (probe : ProbeAnswer) : Option String :=
  match scanStatus probe with
  | .ok reason => reason.filter (· ∈ stopReasons)
  | .error (.leaseError reason) => if reason = reasonAuthFailed then some "revoked" else none
  | .error .httpError => none

/-- The manager refused the probe. -/
def ProbeAnswer.refused : ProbeAnswer → Bool
  | .status code => code = 401 ∨ code = 403 ∨ code = 409
  | .answered _ | .transport => false

/-! ## One turn -/

/-- What happens to one turn of the loop: a new id, the clock, the answer to the stop probe, the run
of the tool and the answers to its submissions. -/
structure Turn where
  toolRunId : Uuid
  startedAt : ℤ
  probe : ProbeAnswer
  run : Except String RawToolOutput
  started : Except SubmitError Unit
  evidence : Except SubmitError Unit
  result : Except SubmitError Unit
  /-- Of the screenshots, in their order; where this ends, they are accepted. -/
  screenshots : List (Except SubmitError Unit)

/-- The answer to a submission, `screenshots` being those that are left; only the raw output names a
tool. -/
def Turn.answer (turn : Turn) (submission : Submission)
    (screenshots : List (Except SubmitError Unit)) :
    List (Except SubmitError Unit) × Except SubmitError Unit :=
  match submission with
  | .toolStarted _ => (screenshots, turn.started)
  | .toolResult _ => (screenshots, turn.result)
  | .evidence payload =>
    if payload.toolName.isSome then (screenshots, turn.evidence)
    else (screenshots.tail, screenshots.headD (.ok ()))

/-- A tool that was started: its submissions with their answers, and what it leaves. -/
structure ToolCalls where
  calls : List (Submission × Except SubmitError Unit)
  outcome : ToolOutcome

/-- A turn that the loop came to. -/
structure Visit where
  runner : Runner
  probe : ProbeAnswer
  ran : Option ToolCalls

/-- Some call of the turn was refused. -/
def Visit.refused (v : Visit) : Prop :=
  v.probe.refused = true ∨ ∃ r ∈ v.ran, ∃ call ∈ r.calls, ScanPlatform.refused call.2 = true

/-! ## The loop -/

section

variable (svc : Services) (capture : List VulnerabilityFinding → Option (List (String × Bytes)))
  (job : LeasedJob)

/-- One tool in its turn. -/
def startTool (runner : Runner) (turn : Turn) : ToolCalls :=
  let tool := runLeasedTool svc capture job runner turn.toolRunId turn.startedAt turn.run
  { calls := trace turn.answer tool turn.screenshots
    outcome := (run turn.answer tool turn.screenshots).2 }

/-- The loop of `execute_leased_job` over its runners, each with its position, at which `turns`
gives its turn; `latched` is the stop latch. A refusal that is latched wins without another
probe. -/
def executeTools (targetType : Option String) (turns : ℕ → Turn) :
    Bool → List (Runner × ℕ) → List Visit
  | _, [] => []
  | latched, (runner, i) :: rest =>
    if latched then []
    else if (stopReason (turns i).probe).isSome then [⟨runner, (turns i).probe, none⟩]
    else if runner.applicable targetType = false then
      ⟨runner, (turns i).probe, none⟩ :: executeTools targetType turns latched rest
    else
      let tool := startTool svc capture job runner (turns i)
      ⟨runner, (turns i).probe, some tool⟩ ::
        executeTools targetType turns (latched || tool.outcome.refused) rest

/-- The status that `execute_leased_job` returns after its loop. -/
def leasedOutcome (statuses : List RunStatus) (persistenceFailures : ℕ) : TerminalStatus :=
  if statuses ≠ [] ∧ ∀ s ∈ statuses, s = .failed then ⟨.failed, failed_terminal⟩
  else if ∃ s ∈ statuses, s = .failed ∨ s = .partialRun then
    ⟨.completedWithErrors, completedWithErrors_terminal⟩
  else if statuses ≠ [] then
    if persistenceFailures ≠ 0 then ⟨.completedWithErrors, completedWithErrors_terminal⟩
    else ⟨.completed, completed_terminal⟩
  else ⟨.failed, failed_terminal⟩

/-- What an execution of a leased job returns, and the turns that it came to. -/
structure LeasedRun where
  status : TerminalStatus
  visits : List Visit

/-- The tools that were started, in their order. -/
def LeasedRun.started (r : LeasedRun) : List Runner :=
  r.visits.filterMap fun v => v.ran.map fun _ => v.runner

/-- `execute_leased_job`. -/
def executeLeasedJob (registry : String → Option Runner) (targetType : Option String)
    (requested : List String) (turns : ℕ → Turn) : LeasedRun :=
  let runners := selectRunners registry requested
  if runners = [] then ⟨⟨.failed, failed_terminal⟩, []⟩
  else
    let visits := executeTools svc capture job targetType turns false runners.zipIdx
    let tools := visits.filterMap (·.ran)
    ⟨leasedOutcome (tools.map (·.outcome.status)) (tools.countP (!·.outcome.persisted)), visits⟩

end

theorem leasedOutcome_reported (statuses : List RunStatus) (persistenceFailures : ℕ) :
    (leasedOutcome statuses persistenceFailures).1 ∈
      [ScanStatus.completed, .completedWithErrors, .failed] := by
  unfold leasedOutcome
  split_ifs <;> simp

section

variable (svc : Services) (capture : List VulnerabilityFinding → Option (List (String × Bytes)))
  (job : LeasedJob) (registry : String → Option Runner) (targetType : Option String)
  (requested : List String) (turns : ℕ → Turn)

/-- The status is one that a worker may report. -/
theorem executeLeasedJob_reported :
    (executeLeasedJob svc capture job registry targetType requested turns).status.1 ∈
      [ScanStatus.completed, .completedWithErrors, .failed] := by
  simp only [executeLeasedJob]
  split_ifs
  · simp
  · exact leasedOutcome_reported _ _

theorem executeLeasedJob_visits :
    (executeLeasedJob svc capture job registry targetType requested turns).visits =
      executeTools svc capture job targetType turns false
        (selectRunners registry requested).zipIdx := by
  simp only [executeLeasedJob]
  split_ifs with hnone
  · rw [hnone]
    rfl
  · rfl

end

/-! ## One tool in its turn -/

/-- The answer to the raw output of a tool: what is empty is not sent, and what the checks of the
sink reject neither. -/
def Turn.rawAnswer (svc : Services) (turn : Turn) (raw : RawToolOutput) :
    Except SubmitError Unit :=
  if raw.stdout = "" then .ok ()
  else
    match validateEvidence svc (svc.encode raw.stdout) "text/plain" with
    | .error reason => .error (.rejected reason)
    | .ok _ => turn.evidence

/-- The status of a tool that returned: an outage of its evidence lowers a completed one. -/
def Turn.ranStatus (svc : Services) (runner : Runner) (turn : Turn) (raw : RawToolOutput) :
    RunStatus :=
  if outage (turn.rawAnswer svc raw) ∧ runner.classify raw = .completed then .partialRun
  else runner.classify raw

/-- The images that are sent for a tool run. -/
def Turn.images (svc : Services)
    (capture : List VulnerabilityFinding → Option (List (String × Bytes))) (runner : Runner)
    (turn : Turn) : List (String × Bytes) :=
  match turn.run with
  | .error _ => []
  | .ok raw =>
    if runner.classify raw = .failed then []
    else
      match runner.parseVulnerabilities raw with
      | none | some [] => []
      | some findings => ((capture findings).getD []).filter fun shot =>
        (validateEvidence svc shot.2 "image/png").isOk

/-- One of the images is refused. -/
def Turn.imageRefused (svc : Services)
    (capture : List VulnerabilityFinding → Option (List (String × Bytes))) (runner : Runner)
    (turn : Turn) : Bool :=
  (turn.screenshots.take (turn.images svc capture runner).length).any refused

/-- The announcement, the raw output or the result is refused, which sets the stop latch. -/
def Turn.latches (svc : Services) (turn : Turn) : Bool :=
  match turn.run with
  | .error _ => refused turn.started || refused turn.result
  | .ok raw => refused turn.started || refused (turn.rawAnswer svc raw) || refused turn.result

section

variable {svc : Services} {capture : List VulnerabilityFinding → Option (List (String × Bytes))}
  {job : LeasedJob} {runner : Runner} {turn : Turn}

@[simp] theorem Turn.answer_toolStarted (payload : ToolStartedIn)
    (shots : List (Except SubmitError Unit)) :
    turn.answer (.toolStarted payload) shots = (shots, turn.started) := rfl

@[simp] theorem Turn.answer_toolResult (payload : ToolResultIn)
    (shots : List (Except SubmitError Unit)) :
    turn.answer (.toolResult payload) shots = (shots, turn.result) := rfl

/-- What a piece of evidence is answered, and whether it is sent at all. -/
theorem sendEvidence_cases (toolRunId : Uuid) (content : Bytes) (contentType : String)
    (toolName fingerprint : Option String) :
    (∃ reason, validateEvidence svc content contentType = .error reason ∧
      sendEvidence svc job toolRunId content contentType toolName fingerprint =
        pure (.error (.rejected reason))) ∨
    (validateEvidence svc content contentType).isOk = true ∧
      sendEvidence svc job toolRunId content contentType toolName fingerprint =
        request (.evidence
          (evidencePayload svc job toolRunId content contentType toolName fingerprint)) := by
  unfold sendEvidence
  cases validateEvidence svc content contentType with
  | error reason => exact .inl ⟨reason, rfl, rfl⟩
  | ok digest => exact .inr ⟨rfl, rfl⟩

/-- The raw output leaves the screenshots alone, and is refused if its answer says so. -/
theorem sendRawOutput_answer (raw : RawToolOutput) (shots : List (Except SubmitError Unit)) :
    run turn.answer (sendRawOutput svc job runner turn.toolRunId raw) shots =
        (shots, turn.rawAnswer svc raw) ∧
      ((∃ call ∈ trace turn.answer (sendRawOutput svc job runner turn.toolRunId raw) shots,
        refused call.2 = true) ↔ refused (turn.rawAnswer svc raw) = true) := by
  unfold sendRawOutput Turn.rawAnswer
  split_ifs
  · exact ⟨rfl, by simp [refused]⟩
  · rcases @sendEvidence_cases svc job turn.toolRunId (svc.encode raw.stdout) "text/plain"
      (some runner.info.name) none with ⟨reason, hbad, hsend⟩ | ⟨hok, hsend⟩
    · rw [hsend, hbad]
      exact ⟨rfl, by simp [refused, SubmitError.refusal]⟩
    · rw [hsend]
      cases hv : validateEvidence svc (svc.encode raw.stdout) "text/plain" with
      | error reason => rw [hv] at hok; cases hok
      | ok digest =>
        refine ⟨rfl, ?_⟩
        rw [trace_request]
        simp [Turn.answer, evidencePayload]

/-- An image is refused if one of the answers to those that are sent is. -/
theorem sendScreenshots_refused (shots : List (String × Bytes))
    (answers : List (Except SubmitError Unit)) :
    (∃ call ∈ trace turn.answer (sendScreenshots svc job turn.toolRunId shots) answers,
      refused call.2 = true) ↔
    (answers.take (shots.filter fun shot =>
      (validateEvidence svc shot.2 "image/png").isOk).length).any refused = true := by
  induction shots generalizing answers with
  | nil => simp [sendScreenshots]
  | cons shot shots ih =>
    simp only [sendScreenshots, trace_bind, List.mem_append, or_and_right, exists_or]
    rcases @sendEvidence_cases svc job turn.toolRunId shot.2 "image/png" none (some shot.1) with
      ⟨reason, hbad, hsend⟩ | ⟨hok, hsend⟩
    · have hnot : (validateEvidence svc shot.2 "image/png").isOk = false := by rw [hbad]; rfl
      rw [hsend, trace_pure, run_pure, ih]
      simp only [List.filter_cons, hnot, Bool.false_eq_true, if_false, List.not_mem_nil, false_and,
        exists_false, false_or]
    · rw [hsend, trace_request, run_request, ih]
      simp only [List.filter_cons, hok, if_true, List.length_cons, Turn.answer, evidencePayload,
        Option.isSome_none, Bool.false_eq_true, if_false]
      cases answers with
      | nil => simp [refused]
      | cons answer answers => simp

theorem captureAndSubmitScreenshots_refused {raw : RawToolOutput} (hrun : turn.run = .ok raw)
    {status : RunStatus} (hstatus : status = .failed ↔ runner.classify raw = .failed) :
    (∃ call ∈ trace turn.answer
        (captureAndSubmitScreenshots svc capture job runner turn.toolRunId raw status)
        turn.screenshots, refused call.2 = true) ↔
      turn.imageRefused svc capture runner = true := by
  unfold captureAndSubmitScreenshots Turn.imageRefused Turn.images
  simp only [hrun, hstatus]
  split_ifs
  · simp
  · cases runner.parseVulnerabilities raw with
    | none => simp
    | some findings =>
      cases findings with
      | nil => simp
      | cons finding findings => exact sendScreenshots_refused _ _

/-- **A tool whose run raised** reports that. -/
theorem startTool_raised {reason : String} (hrun : turn.run = .error reason) :
    (startTool svc capture job runner turn).outcome =
      ⟨.failed, [], turn.latches svc, turn.result.isOk⟩ ∧
    ((∃ call ∈ (startTool svc capture job runner turn).calls, refused call.2 = true) ↔
      turn.latches svc = true) := by
  have hlatches : turn.latches svc = (refused turn.started || refused turn.result) := by
    simp only [Turn.latches, hrun]
  rw [hlatches]
  simp only [startTool, runLeasedTool, hrun, run_bind, trace_bind, run_request, trace_request,
    run_pure, trace_pure, Turn.answer_toolStarted, Turn.answer_toolResult]
  simp

theorem Turn.ranStatus_failed {raw : RawToolOutput} :
    turn.ranStatus svc runner raw = .failed ↔ runner.classify raw = .failed := by
  unfold Turn.ranStatus
  split_ifs with h
  · simp [h.2]
  · rfl

/-- **A tool whose run returned** reports what it found; a refusal of its screenshots is the only
one that it does not latch. -/
theorem startTool_ran {raw : RawToolOutput} (hrun : turn.run = .ok raw) :
    (startTool svc capture job runner turn).outcome =
      ⟨turn.ranStatus svc runner raw,
        if runner.classify raw = .failed then [] else runner.findings raw, turn.latches svc,
        turn.result.isOk⟩ ∧
    ((∃ call ∈ (startTool svc capture job runner turn).calls, refused call.2 = true) ↔
      turn.latches svc = true ∨ turn.imageRefused svc capture runner = true) := by
  have hlatches : turn.latches svc =
      (refused turn.started || refused (turn.rawAnswer svc raw) || refused turn.result) := by
    simp only [Turn.latches, hrun]
  have hstored := fun shots => (@sendRawOutput_answer svc job runner turn raw shots).1
  have hrefused := (@sendRawOutput_answer svc job runner turn raw turn.screenshots).2
  have himages := @captureAndSubmitScreenshots_refused svc capture job runner turn raw hrun
    (turn.ranStatus svc runner raw) Turn.ranStatus_failed
  rw [hlatches, ← himages]
  simp only [startTool, runLeasedTool, hrun, run_bind, trace_bind, run_request, trace_request,
    run_pure, trace_pure, Turn.answer_toolStarted, Turn.answer_toolResult, hstored,
    Turn.ranStatus]
  refine ⟨trivial, ?_⟩
  simp only [List.mem_append, or_and_right, exists_or, hrefused, List.mem_singleton,
    exists_eq_left, Bool.or_eq_true, List.append_nil]
  simp only [or_assoc]

/-- The loop gets to know the refusals of a tool but those of its images. -/
theorem startTool_refused :
    (startTool svc capture job runner turn).outcome.refused = turn.latches svc ∧
    ((∃ call ∈ (startTool svc capture job runner turn).calls, refused call.2 = true) ↔
      turn.latches svc = true ∨ turn.imageRefused svc capture runner = true) := by
  cases hrun : turn.run with
  | error reason =>
    obtain ⟨hout, hcalls⟩ := @startTool_raised svc capture job runner turn reason hrun
    have himage : turn.imageRefused svc capture runner = false := by
      simp [Turn.imageRefused, Turn.images, hrun]
    rw [hout, hcalls, himage]
    simp
  | ok raw =>
    obtain ⟨hout, hcalls⟩ := @startTool_ran svc capture job runner turn raw hrun
    exact ⟨by rw [hout], hcalls⟩

end

end ScanPlatform
