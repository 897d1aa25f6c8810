import ScanPlatform.Base.CondMachine
import ScanPlatform.Manager.ToolRuns

/-!
# The history of a tool run

Announcements and results that carry the id of one tool run, in any order and repeated any number
of times, while everything else in the database may change between them.

* `ReportStep`, `reportStep`: the requests and the changes elsewhere;
* `ToolRun.Wf`: a row is open and blank, or done and not inverted;
* `report_row`: what a step does to a row;
* **`tool_runs_one_way`**: a terminal status and its completion time stay;
* `Outcome`, `ToolResultIn.Repeats`: the outcome of a row, and a result that repeats one;
* **`outcome_first_wins_iff`**, `outcome_mixed`: when the outcome of the first result stays, and a
  run in which it is mixed with that of another.
-/

set_option autoImplicit false

namespace ScanPlatform

open CondMachine

inductive ReportStep where
  | toolStarted (worker : ScannerWorker) (emergency : Bool) (now : ℤ) (payload : ToolStartedIn)
  | toolResult (worker : ScannerWorker) (emergency : Bool) (now : ℤ) (payload : ToolResultIn)
  /-- All but the tool runs becomes what it is in `tables`. -/
  | elsewhere (tables : Db)

def reportStep (cfg : Settings) (svc : Services) : ReportStep → Db → Option Db
  | .toolStarted worker emergency now payload, db =>
    some (submitToolStarted cfg worker emergency now payload db).1
  | .toolResult worker emergency now payload, db =>
    some (submitToolResult cfg svc worker emergency now payload db).1
  | .elsewhere tables, db => some { tables with toolRuns := db.toolRuns }

/-! ## The rows -/

/-- Announced, with no result yet. -/
structure ToolRun.Open (r : ToolRun) : Prop where
  status : r.status = .running
  completedAt : r.completedAt = none
  exitCode : r.exitCode = none
  errorMessage : r.errorMessage = none
  timedOut : r.timedOut = false

/-- A result has been recorded, and the row is not inverted. -/
structure ToolRun.Done (r : ToolRun) : Prop where
  status : r.status ∈ allowedToolStatuses
  completedAt : ∃ done, r.completedAt = some done ∧ r.startedAt ≤ done

/-- What the two endpoints make of a row. -/
def ToolRun.Wf (r : ToolRun) : Prop := r.Open ∨ r.Done

theorem ToolRun.Open.not_terminal {r : ToolRun} (h : r.Open) :
    r.status ∉ allowedToolStatuses := by
  rw [h.status]
  decide

theorem ToolRun.Wf.done_of_terminal {r : ToolRun} (h : r.Wf)
    (hterminal : r.status ∈ allowedToolStatuses) : r.Done :=
  h.resolve_left fun hopen => hopen.not_terminal hterminal

theorem ToolRun.Wf.open_of_not_terminal {r : ToolRun} (h : r.Wf)
    (hterminal : r.status ∉ allowedToolStatuses) : r.Open :=
  h.resolve_right fun hdone => hterminal hdone.status

theorem reportedToolStatus_allowed {text : String} {status : ToolStatus}
    (h : reportedToolStatus text = some status) : status ∈ allowedToolStatuses := by
  unfold reportedToolStatus at h
  split at h <;> cases h <;> decide

/-- No start is reported later than the manager's own clock. -/
theorem resolveToolStartedAt_le (reported : Option ℤ) (completedAt : ℤ) :
    resolveToolStartedAt reported completedAt ≤ completedAt := by
  cases reported with
  | none => exact le_refl _
  | some reported =>
    simp only [resolveToolStartedAt]
    split_ifs
    · exact le_refl _
    · exact min_le_right _ _

section

variable (svc : Services) {status : ToolStatus} {startedAt now : ℤ} (payload : ToolResultIn)

theorem newToolRun_done (hstatus : status ∈ allowedToolStatuses) (hstart : startedAt ≤ now) :
    (newToolRun svc status startedAt now payload).Done :=
  ⟨hstatus, now, rfl, hstart⟩

/-- A result that finds an open row completes it. -/
theorem recordResult_open {r : ToolRun} (hr : r.Open) (hstatus : status ∈ allowedToolStatuses)
    (hstart : startedAt ≤ now) : (recordResult svc status startedAt now payload r).Done := by
  refine ⟨?_, now, ?_, ?_⟩
  · simp only [recordResult]
    rwa [if_neg hr.not_terminal]
  · simp only [recordResult, hr.completedAt]
  · simp only [recordResult]
    split_ifs with hlate
    · exact hstart
    · exact not_lt.mp hlate

/-- **A result that finds a row done** leaves its status and its completion time; the start moves
back at most, when the manager's clock has gone back. -/
theorem recordResult_done {r : ToolRun} (hr : r.Done) (hstart : startedAt ≤ now) :
    (recordResult svc status startedAt now payload r).Done ∧
      (recordResult svc status startedAt now payload r).status = r.status ∧
      (recordResult svc status startedAt now payload r).completedAt = r.completedAt := by
  obtain ⟨done, hdone, hle⟩ := hr.completedAt
  have hkept : (recordResult svc status startedAt now payload r).status = r.status :=
    if_pos hr.status
  have hstarted : (recordResult svc status startedAt now payload r).startedAt ≤ done := by
    simp only [recordResult]
    split_ifs with hlate
    · omega
    · exact hle
  have hcompleted : (recordResult svc status startedAt now payload r).completedAt = some done := by
    simp only [recordResult, hdone] at hstarted ⊢
    rw [if_neg (not_lt.mpr hstarted)]
  exact ⟨⟨hkept ▸ hr.status, done, hcompleted, hstarted⟩, hkept, hcompleted.trans hdone.symm⟩

end

/-! ## What a step does to a row -/

/-- The checks of a result: the gate of the tool, the status and the scan of the row. -/
def ToolResultIn.Accepted (cfg : Settings) (db : Db) (worker : ScannerWorker) (emergency : Bool)
    (payload : ToolResultIn) (status : ToolStatus) : Prop :=
  (∃ scan, toolGate cfg db worker emergency payload.scanId payload.executionToken
      payload.toolName = .ok scan) ∧
    reportedToolStatus payload.status = some status ∧
    ∀ r ∈ db.toolRuns payload.toolRunId, r.scanId = payload.scanId

/-- The row that an accepted result writes. -/
def resultRow (svc : Services) (status : ToolStatus) (now : ℤ) (payload : ToolResultIn)
    (old : Option ToolRun) : ToolRun :=
  match old with
  | none => newToolRun svc status (resolveToolStartedAt payload.startedAt now) now payload
  | some old => recordResult svc status (resolveToolStartedAt payload.startedAt now) now payload old

/-- The step is a result for the tool run that passes its checks. -/
def ReportStep.Submits (cfg : Settings) (id : Uuid) (db : Db) (a : ReportStep)
    (payload : ToolResultIn) (status : ToolStatus) : Prop :=
  ∃ worker emergency now, a = .toolResult worker emergency now payload ∧
    payload.toolRunId = id ∧ payload.Accepted cfg db worker emergency status

variable {cfg : Settings} {svc : Services} {worker : ScannerWorker} {emergency : Bool} {now : ℤ}

theorem submitToolResult_of_accepted {payload : ToolResultIn} {db : Db} {status : ToolStatus}
    (h : payload.Accepted cfg db worker emergency status) :
    (submitToolResult cfg svc worker emergency now payload db).1.toolRuns =
      db.toolRuns.set payload.toolRunId
        (resultRow svc status now payload (db.toolRuns payload.toolRunId)) := by
  obtain ⟨⟨scan, hgate⟩, hstatus, hown⟩ := h
  have hnot : ¬ (db.toolRuns payload.toolRunId).any
      (fun r => decide (r.scanId ≠ payload.scanId)) = true := by
    cases hrow : db.toolRuns payload.toolRunId with
    | none => simp
    | some old => simp [hown old hrow]
  unfold submitToolResult
  simp only [hgate, hstatus, if_neg hnot]
  rfl

theorem submitToolResult_of_not_accepted {payload : ToolResultIn} {db : Db}
    (h : ∀ status, ¬ payload.Accepted cfg db worker emergency status) :
    (submitToolResult cfg svc worker emergency now payload db).1 = db := by
  unfold submitToolResult
  cases hgate : toolGate cfg db worker emergency payload.scanId payload.executionToken
      payload.toolName with
  | error fault => rfl
  | ok scan =>
    cases hstatus : reportedToolStatus payload.status with
    | none => rfl
    | some status =>
      simp only
      split_ifs with hother
      · rfl
      · refine absurd ⟨⟨scan, hgate⟩, hstatus, fun r hr => ?_⟩ (h status)
        rw [Option.mem_def] at hr
        simpa [hr] using hother

/-- What an announcement makes of the row of its tool run. -/
theorem submitToolStarted_row (payload : ToolStartedIn) (db : Db) (id : Uuid) :
    (submitToolStarted cfg worker emergency now payload db).1.toolRuns id = db.toolRuns id ∨
      (db.toolRuns id = none ∧
        ∃ r, (submitToolStarted cfg worker emergency now payload db).1.toolRuns id = some r ∧
          r.Open) ∨
      ∃ r startedAt, db.toolRuns id = some r ∧ r.status = .running ∧ r.completedAt = none ∧
        (submitToolStarted cfg worker emergency now payload db).1.toolRuns id =
          some { r with startedAt } := by
  unfold submitToolStarted
  split
  · exact .inl rfl
  · by_cases hid : id = payload.toolRunId
    · subst hid
      cases hrow : db.toolRuns payload.toolRunId with
      | none =>
        refine .inr (.inl ⟨rfl, _, Table.set_self .., ?_⟩)
        exact ⟨rfl, rfl, rfl, rfl, rfl⟩
      | some old =>
        simp only
        split_ifs with hscan hrunning
        · exact .inl hrow
        · exact .inr (.inr ⟨old, _, rfl, hrunning.1, hrunning.2, Table.set_self ..⟩)
        · exact .inl hrow
    · refine .inl ?_
      simp only
      split
      · exact Table.set_of_ne _ _ hid
      · split_ifs
        · rfl
        · exact Table.set_of_ne _ _ hid
        · rfl

/-- **What a step does to a row**: it leaves the row, opens it, moves the start of an open row, or
records an accepted result on it. -/
theorem report_row {a : ReportStep} {db db' : Db} (h : reportStep cfg svc a db = some db')
    (id : Uuid) :
    (∃ payload status now, a.Submits cfg id db payload status ∧
        db'.toolRuns id = some (resultRow svc status now payload (db.toolRuns id))) ∨
      (∀ payload status, ¬ a.Submits cfg id db payload status) ∧
        (db'.toolRuns id = db.toolRuns id ∨
          (db.toolRuns id = none ∧ ∃ r, db'.toolRuns id = some r ∧ r.Open) ∨
          ∃ r startedAt, db.toolRuns id = some r ∧ r.status = .running ∧ r.completedAt = none ∧
            db'.toolRuns id = some { r with startedAt }) := by
  cases a with
  | toolStarted worker emergency now payload =>
    cases h
    refine .inr ⟨?_, submitToolStarted_row payload db id⟩
    rintro payload' status ⟨_, _, _, hstep, -⟩
    cases hstep
  | elsewhere tables =>
    cases h
    refine .inr ⟨?_, .inl rfl⟩
    rintro payload' status ⟨_, _, _, hstep, -⟩
    cases hstep
  | toolResult worker emergency now payload =>
    cases h
    by_cases haccepted : ∃ status, payload.Accepted cfg db worker emergency status
    · obtain ⟨status, haccepted⟩ := haccepted
      rw [submitToolResult_of_accepted haccepted]
      by_cases hid : id = payload.toolRunId
      · subst hid
        exact .inl ⟨payload, status, now, ⟨worker, emergency, now, rfl, rfl, haccepted⟩,
          Table.set_self ..⟩
      · refine .inr ⟨?_, .inl (Table.set_of_ne _ _ hid)⟩
        rintro payload' status' ⟨_, _, _, hstep, hsame, -⟩
        cases hstep
        exact hid hsame.symm
    · refine .inr ⟨?_, .inl ?_⟩
      · rintro payload' status ⟨_, _, _, hstep, -, hpasses⟩
        cases hstep
        exact haccepted ⟨status, hpasses⟩
      · rw [submitToolResult_of_not_accepted (not_exists.mp haccepted)]

/-! ## One way -/

/-- An accepted result leaves a row that is done. -/
theorem resultRow_done {status : ToolStatus} (now : ℤ) (payload : ToolResultIn)
    {old : Option ToolRun} (hstatus : status ∈ allowedToolStatuses) (hwf : ∀ r ∈ old, r.Wf) :
    (resultRow svc status now payload old).Done := by
  have hstart := resolveToolStartedAt_le payload.startedAt now
  cases old with
  | none => exact newToolRun_done svc payload hstatus hstart
  | some r =>
    rcases hwf r rfl with hopen | hdone
    · exact recordResult_open svc payload hopen hstatus hstart
    · exact (recordResult_done svc payload hdone hstart).1

/-- The step lemma of the rows. -/
theorem wf_report (id : Uuid) (db : Db) (a : ReportStep) (db' : Db)
    (hwf : ∀ r ∈ db.toolRuns id, r.Wf) (h : reportStep cfg svc a db = some db') :
    ∀ r ∈ db'.toolRuns id, r.Wf := by
  intro r' hr'
  rw [Option.mem_def] at hr'
  rcases report_row h id with ⟨payload, status, now, hsubmits, hrow⟩ | ⟨-, hrow⟩
  · obtain ⟨_, _, _, -, -, -, hstatus, -⟩ := hsubmits
    rw [hrow] at hr'
    cases hr'
    exact .inr (resultRow_done now payload (reportedToolStatus_allowed hstatus) hwf)
  · rcases hrow with hrow | ⟨-, r, hrow, hopen⟩ | ⟨r, startedAt, hr, hrunning, -, hrow⟩
    · exact hwf r' (hrow ▸ hr')
    · rw [hrow] at hr'
      cases hr'
      exact .inl hopen
    · rw [hrow] at hr'
      cases hr'
      have hopen := (hwf r hr).open_of_not_terminal (by rw [hrunning]; decide)
      exact .inl ⟨hopen.status, hopen.completedAt, hopen.exitCode, hopen.errorMessage,
        hopen.timedOut⟩

/-- A row that is done stays as it is, unless an accepted result is recorded on it. -/
theorem report_row_of_done {id : Uuid} {db : Db} {a : ReportStep} {db' : Db} {r : ToolRun}
    (h : reportStep cfg svc a db = some db') (hr : db.toolRuns id = some r) (hdone : r.Done) :
    (∃ payload status now, a.Submits cfg id db payload status ∧
      db'.toolRuns id = some (resultRow svc status now payload (some r))) ∨
    db'.toolRuns id = some r := by
  rcases report_row h id with ⟨payload, status, now, hsubmits, hrow⟩ | ⟨-, hrow⟩
  · rw [hr] at hrow
    exact .inl ⟨payload, status, now, hsubmits, hrow⟩
  · rcases hrow with hrow | ⟨hnone, -⟩ | ⟨r', startedAt, hr', hrunning, -⟩
    · exact .inr (hrow.trans hr)
    · rw [hr] at hnone
      cases hnone
    · rw [hr] at hr'
      cases hr'
      have hterminal := hdone.status
      rw [hrunning] at hterminal
      exact absurd hterminal (by decide)

/-- A step keeps a row that is done, with its status and its completion time. -/
theorem done_report {id : Uuid} {db : Db} {a : ReportStep} {db' : Db} {r : ToolRun}
    (h : reportStep cfg svc a db = some db') (hr : db.toolRuns id = some r) (hdone : r.Done) :
    ∃ r', db'.toolRuns id = some r' ∧ r'.Done ∧ r'.status = r.status ∧
      r'.completedAt = r.completedAt := by
  rcases report_row_of_done h hr hdone with ⟨payload, status, now, -, hrow⟩ | hrow
  · have hstart := resolveToolStartedAt_le payload.startedAt now
    exact ⟨_, hrow, recordResult_done svc payload hdone hstart⟩
  · exact ⟨r, hrow, hdone, rfl, rfl⟩

theorem run_wf {id : Uuid} {db : Db} (hwf : ∀ r ∈ db.toolRuns id, r.Wf) (σ : List ReportStep) :
    ∀ r ∈ (run (reportStep cfg svc) db σ).toolRuns id, r.Wf :=
  run_invariant (I := fun db : Db => ∀ r ∈ db.toolRuns id, r.Wf) (wf_report id) hwf σ

theorem run_done {id : Uuid} {db : Db} {r : ToolRun} (hr : db.toolRuns id = some r)
    (hdone : r.Done) (σ : List ReportStep) :
    ∃ r', (run (reportStep cfg svc) db σ).toolRuns id = some r' ∧ r'.Done ∧
      r'.status = r.status ∧ r'.completedAt = r.completedAt := by
  refine run_invariant (I := fun db : Db => ∃ r', db.toolRuns id = some r' ∧ r'.Done ∧
    r'.status = r.status ∧ r'.completedAt = r.completedAt) ?_ ⟨r, hr, hdone, rfl, rfl⟩ σ
  rintro db a db' ⟨r', hr', hdone', hstatus, hcompleted⟩ h
  obtain ⟨r'', hr'', hdone'', hstatus', hcompleted'⟩ := done_report h hr' hdone'
  exact ⟨r'', hr'', hdone'', hstatus'.trans hstatus, hcompleted'.trans hcompleted⟩

/-- **Tool runs move one way**: a row that is not there yet, or is as the endpoints leave it, is
never inverted once it is completed; and a terminal status stays, with the time of completion. -/
theorem tool_runs_one_way {id : Uuid} {db : Db} (hwf : ∀ r ∈ db.toolRuns id, r.Wf)
    (σ : List ReportStep) :
    ∀ r ∈ (run (reportStep cfg svc) db σ).toolRuns id,
      (∀ done ∈ r.completedAt, r.startedAt ≤ done) ∧
      (r.completedAt.isSome ↔ r.status ∈ allowedToolStatuses) ∧
      (r.status ∈ allowedToolStatuses → ∀ τ,
        ∃ r' ∈ (run (reportStep cfg svc) db (σ ++ τ)).toolRuns id,
          r'.status = r.status ∧ r'.completedAt = r.completedAt) := by
  intro r hr
  have hrow := run_wf hwf σ r hr
  refine ⟨fun done hdone => ?_, ?_, fun hterminal τ => ?_⟩
  · rcases hrow with hopen | ⟨-, done', hdone', hle⟩
    · rw [hopen.completedAt] at hdone
      cases hdone
    · rw [hdone'] at hdone
      cases hdone
      exact hle
  · rcases hrow with hopen | hdone
    · refine iff_of_false ?_ hopen.not_terminal
      rw [hopen.completedAt]
      exact Bool.false_ne_true
    · obtain ⟨done, hdone', -⟩ := hdone.completedAt
      exact iff_of_true (by rw [hdone']; rfl) hdone.status
  · rw [run_append]
    obtain ⟨r', hr', -, hstatus, hcompleted⟩ := run_done hr (hrow.done_of_terminal hterminal) τ
    exact ⟨r', hr', hstatus, hcompleted⟩

/-- Scan 5 is running under token 7, and requests nmap. -/
def nmapScan : Db where
  __ := Db.empty
  scans := .ofList [(5, {
    Scan.created 1 2 3 [("requested_modules", .arr [.str "nmap"])] 0 with
    status := .running, executionToken := some 7 })]

/-- A result for tool run 9. -/
def nmapResult (now : ℤ) (status : String) (exitCode : Option ℤ) (errorMessage : Option String) :
    ReportStep :=
  .toolResult ⟨"w", "public", none, none, .active, none⟩ false now
    ⟨5, 9, "nmap", 7, status, [], exitCode, errorMessage, some 100, none, none⟩

/-- A result whose start lies in the future, and an announcement that comes after it. -/
theorem tool_runs_one_way_late :
    ∃ r ∈ (run (reportStep ⟨""⟩ (.ascii [] fun _ _ => none)) nmapScan
        [nmapResult 10 "completed" (some 0) none]).toolRuns 9,
      (∀ done ∈ r.completedAt, r.startedAt ≤ done) ∧
      (r.completedAt.isSome ↔ r.status ∈ allowedToolStatuses) ∧
      (r.status ∈ allowedToolStatuses → ∀ τ,
        ∃ r' ∈ (run (reportStep ⟨""⟩ (.ascii [] fun _ _ => none)) nmapScan
            ([nmapResult 10 "completed" (some 0) none] ++ τ)).toolRuns 9,
          r'.status = r.status ∧ r'.completedAt = r.completedAt) :=
  ⟨_, rfl, tool_runs_one_way (fun r hr => by cases hr) _ _ rfl⟩

/-! ## The outcome of a tool run -/

/-- What a row says about how its tool ended. -/
structure Outcome where
  status : ToolStatus
  exitCode : Option ℤ
  errorMessage : Option String
  timedOut : Bool

def ToolRun.outcome (r : ToolRun) : Outcome := ⟨r.status, r.exitCode, r.errorMessage, r.timedOut⟩

/-- The outcome that a result reports. -/
def ToolResultIn.outcome (payload : ToolResultIn) (status : ToolStatus) : Outcome where
  status
  exitCode := payload.exitCode
  errorMessage := payload.errorMessage.filter (· ≠ "")
  timedOut := payload.timedOut.getD false

/-- A result that repeats an outcome: each of the exit code, the error message and the timeout that
it reports is the same. -/
structure ToolResultIn.Repeats (payload : ToolResultIn) (o : Outcome) : Prop where
  exitCode : ∀ code ∈ payload.exitCode, o.exitCode = some code
  errorMessage : ∀ message ∈ payload.errorMessage, message ≠ "" → o.errorMessage = some message
  timedOut : payload.timedOut = some true → o.timedOut = true

/-- A retry of a request repeats it. -/
theorem ToolResultIn.repeats_self (payload : ToolResultIn) (status : ToolStatus) :
    payload.Repeats (payload.outcome status) where
  exitCode _ h := h
  errorMessage message h hne := Option.filter_eq_some_iff.mpr ⟨h, decide_eq_true hne⟩
  timedOut h := by rw [outcome, h, Option.getD_some]

/-- The tool run has no result yet. -/
def Db.Unreported (db : Db) (id : Uuid) : Prop :=
  ∀ r ∈ db.toolRuns id, r.status ∉ allowedToolStatuses

/-- **One outcome**: from the first accepted result on, the row has the outcome of that result. -/
def FirstOutcomeStays (cfg : Settings) (svc : Services) (id : Uuid) (db : Db)
    (σ : List ReportStep) : Prop :=
  ∀ σ₁ a σ₂ payload status, σ = σ₁ ++ a :: σ₂ →
    (run (reportStep cfg svc) db σ₁).Unreported id →
    a.Submits cfg id (run (reportStep cfg svc) db σ₁) payload status →
    ∀ τ, τ <+: σ₂ →
      ((run (reportStep cfg svc) db (σ₁ ++ a :: τ)).toolRuns id).map (·.outcome) =
        some (payload.outcome status)

/-- Every accepted result that is not the first repeats the first. -/
def LaterRepeatFirst (cfg : Settings) (svc : Services) (id : Uuid) (db : Db)
    (σ : List ReportStep) : Prop :=
  ∀ σ₁ a σ₂ payload status, σ = σ₁ ++ a :: σ₂ →
    (run (reportStep cfg svc) db σ₁).Unreported id →
    a.Submits cfg id (run (reportStep cfg svc) db σ₁) payload status →
    ∀ τ₁ b τ₂ later status', σ₂ = τ₁ ++ b :: τ₂ →
      b.Submits cfg id (run (reportStep cfg svc) db (σ₁ ++ a :: τ₁)) later status' →
      later.Repeats (payload.outcome status)

/-- The first result gives a row its outcome. -/
theorem resultRow_outcome_of_open {status : ToolStatus} (payload : ToolResultIn)
    {old : Option ToolRun} (hopen : ∀ r ∈ old, r.Open) :
    (resultRow svc status now payload old).outcome = payload.outcome status := by
  cases old with
  | none => rfl
  | some r =>
    have hr := hopen r rfl
    simp only [resultRow, recordResult, ToolRun.outcome, ToolResultIn.outcome, hr.exitCode,
      hr.errorMessage, hr.timedOut, if_neg hr.not_terminal, Option.or_none, Bool.or_false]

/-- `new.or old` is `old` exactly when `new` says nothing else. -/
theorem Option.or_eq_right_iff_forall {α : Type} {new old : Option α} :
    new.or old = old ↔ ∀ x ∈ new, old = some x := by
  cases new with
  | none => simp
  | some x => simp [eq_comm]

/-- **A later result leaves the outcome of a row** exactly when it repeats it. -/
theorem recordResult_outcome_iff {status : ToolStatus} {startedAt : ℤ} {payload : ToolResultIn}
    {r : ToolRun} (hterminal : r.status ∈ allowedToolStatuses) :
    (recordResult svc status startedAt now payload r).outcome = r.outcome ↔
      payload.Repeats r.outcome := by
  have hexit : payload.exitCode.or r.exitCode = r.exitCode ↔
      ∀ code ∈ payload.exitCode, r.exitCode = some code := Option.or_eq_right_iff_forall
  have hmessage : (payload.errorMessage.filter (· ≠ "")).or r.errorMessage = r.errorMessage ↔
      ∀ message ∈ payload.errorMessage, message ≠ "" → r.errorMessage = some message := by
    rw [Option.or_eq_right_iff_forall]
    simp [Option.filter_eq_some_iff]
  have htimedOut : (payload.timedOut.getD false || r.timedOut) = r.timedOut ↔
      (payload.timedOut = some true → r.timedOut = true) := by
    cases payload.timedOut with
    | none => simp
    | some b => cases b <;> simp
  simp only [recordResult, ToolRun.outcome, Outcome.mk.injEq, if_pos hterminal, true_and,
    hexit, hmessage, htimedOut]
  exact ⟨fun ⟨h₁, h₂, h₃⟩ => ⟨h₁, h₂, h₃⟩, fun ⟨h₁, h₂, h₃⟩ => ⟨h₁, h₂, h₃⟩⟩

theorem ReportStep.Submits.unique {id : Uuid} {db : Db} {a : ReportStep}
    {payload payload' : ToolResultIn} {status status' : ToolStatus}
    (h : a.Submits cfg id db payload status) (h' : a.Submits cfg id db payload' status') :
    payload' = payload ∧ status' = status := by
  obtain ⟨_, _, _, rfl, -, -, hstatus, -⟩ := h
  obtain ⟨_, _, _, hstep, -, -, hstatus', -⟩ := h'
  cases hstep
  rw [hstatus] at hstatus'
  exact ⟨rfl, (Option.some.inj hstatus').symm⟩

theorem ReportStep.Submits.allowed {id : Uuid} {db : Db} {a : ReportStep} {payload : ToolResultIn}
    {status : ToolStatus} (h : a.Submits cfg id db payload status) :
    status ∈ allowedToolStatuses := by
  obtain ⟨_, _, _, -, -, -, hstatus, -⟩ := h
  exact reportedToolStatus_allowed hstatus

variable (svc) in
/-- The row after an accepted result. -/
theorem next_of_submits {id : Uuid} {db : Db} {a : ReportStep} {payload : ToolResultIn}
    {status : ToolStatus} (h : a.Submits cfg id db payload status) :
    ∃ now, (next (reportStep cfg svc) db a).toolRuns id =
      some (resultRow svc status now payload (db.toolRuns id)) := by
  obtain ⟨worker, emergency, now, rfl, rfl, haccepted⟩ := h
  refine ⟨now, ?_⟩
  have hnext : next (reportStep cfg svc) db (.toolResult worker emergency now payload) =
      (submitToolResult cfg svc worker emergency now payload db).1 := next_some rfl
  rw [hnext, submitToolResult_of_accepted haccepted, Table.set_self]

/-- The step lemma of the outcome: a row that is done keeps it exactly when a result that is
accepted repeats it. -/
theorem next_outcome_iff {id : Uuid} {db : Db} {a : ReportStep} {r : ToolRun}
    (hr : db.toolRuns id = some r) (hdone : r.Done) :
    ((next (reportStep cfg svc) db a).toolRuns id).map (·.outcome) = some r.outcome ↔
      ∀ payload status, a.Submits cfg id db payload status → payload.Repeats r.outcome := by
  by_cases hsubmits : ∃ payload status, a.Submits cfg id db payload status
  · obtain ⟨payload, status, hsubmits⟩ := hsubmits
    obtain ⟨now, hrow⟩ := next_of_submits svc hsubmits
    rw [hrow, hr, Option.map_some, Option.some.injEq]
    refine (recordResult_outcome_iff hdone.status).trans ⟨fun h payload' status' h' => ?_, fun h =>
      h payload status hsubmits⟩
    rw [(hsubmits.unique h').1]
    exact h
  · refine iff_of_true ?_ fun payload status h => absurd ⟨payload, status, h⟩ hsubmits
    rcases next_cases (reportStep cfg svc) db a with h | ⟨-, h⟩
    · rcases report_row_of_done h hr hdone with ⟨payload, status, _, h', -⟩ | hrow
      · exact absurd ⟨payload, status, h'⟩ hsubmits
      · rw [hrow]
        rfl
    · rw [h, hr]
      rfl

/-- The first accepted result gives the row its outcome. -/
theorem next_first_outcome {id : Uuid} {db : Db} {a : ReportStep} {payload : ToolResultIn}
    {status : ToolStatus} (hwf : ∀ r ∈ db.toolRuns id, r.Wf) (hnew : db.Unreported id)
    (h : a.Submits cfg id db payload status) :
    ((next (reportStep cfg svc) db a).toolRuns id).map (·.outcome) =
      some (payload.outcome status) := by
  obtain ⟨now, hrow⟩ := next_of_submits svc h
  rw [hrow, Option.map_some, resultRow_outcome_of_open payload fun r hr =>
    (hwf r hr).open_of_not_terminal (hnew r hr)]

/-- **When the outcome of the first result stays**: in a run from a row that is not there yet, or
is as the endpoints leave it, exactly when every later result that is accepted repeats it. -/
theorem outcome_first_wins_iff {id : Uuid} {db : Db} (hwf : ∀ r ∈ db.toolRuns id, r.Wf)
    (σ : List ReportStep) :
    FirstOutcomeStays cfg svc id db σ ↔ LaterRepeatFirst cfg svc id db σ := by
  have hconcat : ∀ (σ₁ : List ReportStep) a τ b,
      run (reportStep cfg svc) db (σ₁ ++ a :: (τ ++ [b])) =
        next (reportStep cfg svc) (run (reportStep cfg svc) db (σ₁ ++ a :: τ)) b := by
    intro σ₁ a τ b
    rw [← run_concat, List.append_assoc, List.cons_append]
  -- A row with the outcome of an accepted result is done.
  have hdone : ∀ (σ' : List ReportStep) (o : Outcome), o.status ∈ allowedToolStatuses →
      ((run (reportStep cfg svc) db σ').toolRuns id).map (·.outcome) = some o →
      ∃ r, (run (reportStep cfg svc) db σ').toolRuns id = some r ∧ r.Done ∧ r.outcome = o := by
    intro σ' o hallowed ho
    obtain ⟨r, hr, rfl⟩ := Option.map_eq_some_iff.mp ho
    exact ⟨r, hr, (run_wf hwf σ' r hr).done_of_terminal hallowed, rfl⟩
  constructor
  · intro hstays σ₁ a σ₂ payload status hσ hnew hfirst τ₁ b τ₂ later status' hσ₂ hlater
    subst hσ₂
    have hbefore := hstays σ₁ a _ payload status hσ hnew hfirst τ₁ (List.prefix_append _ _)
    have hafter := hstays σ₁ a _ payload status hσ hnew hfirst (τ₁ ++ [b])
      ⟨τ₂, by rw [List.append_assoc]; rfl⟩
    obtain ⟨r, hr, hrdone, ho⟩ := hdone _ _ hfirst.allowed hbefore
    rw [hconcat, ← ho] at hafter
    rw [← ho]
    exact (next_outcome_iff hr hrdone).mp hafter later status' hlater
  · intro hrepeat σ₁ a σ₂ payload status hσ hnew hfirst τ hτ
    induction τ using List.reverseRecOn with
    | nil =>
      rw [run_concat]
      exact next_first_outcome (run_wf hwf σ₁) hnew hfirst
    | append_singleton τ b ih =>
      obtain ⟨τ₂, rfl⟩ := hτ
      have hbefore := ih ⟨b :: τ₂, by rw [List.append_assoc]; rfl⟩
      obtain ⟨r, hr, hrdone, ho⟩ := hdone _ _ hfirst.allowed hbefore
      rw [hconcat, ← ho]
      refine (next_outcome_iff hr hrdone).mpr fun later status' hlater => ?_
      rw [ho]
      exact hrepeat σ₁ a _ payload status hσ hnew hfirst τ b τ₂ later status'
        (by rw [List.append_assoc]; rfl) hlater

/-- The same result, submitted twice. -/
theorem outcome_first_wins_retry :
    FirstOutcomeStays ⟨""⟩ (.ascii [] fun _ _ => none) 9 nmapScan
      [nmapResult 10 "completed" (some 0) none, nmapResult 20 "completed" (some 0) none] := by
  refine (outcome_first_wins_iff (fun r hr => by cases hr) _).mpr ?_
  rintro σ₁ a σ₂ payload status hσ - ⟨worker, emergency, now, rfl, -⟩ τ₁ b τ₂ later status' rfl
    ⟨worker', emergency', now', rfl, -⟩
  have hsame : ∀ worker emergency now (p : ToolResultIn),
      ReportStep.toolResult worker emergency now p ∈
        [nmapResult 10 "completed" (some 0) none, nmapResult 20 "completed" (some 0) none] →
      p = ⟨5, 9, "nmap", 7, "completed", [], some 0, none, some 100, none, none⟩ := by
    intro worker emergency now p hp
    rcases List.mem_cons.mp hp with hp | hp
    · cases hp
      rfl
    · rw [List.mem_singleton] at hp
      cases hp
      rfl
  have hpayload := hsame worker emergency now payload (by rw [hσ]; simp)
  have hlater := hsame worker' emergency' now' later (by rw [hσ]; simp)
  rw [hpayload.trans hlater.symm]
  exact later.repeats_self status

/-- **A completed row with the error of another result**: the second result is refused its status,
but not its exit code and its message. -/
theorem outcome_mixed :
    ((run (reportStep ⟨""⟩ (.ascii [] fun _ _ => none)) nmapScan
        [nmapResult 10 "completed" (some 0) none,
          nmapResult 20 "failed" (some 1) (some "killed")]).toolRuns 9).map (·.outcome) =
      some ⟨.completed, some 1, some "killed", false⟩ ∧
    ¬ FirstOutcomeStays ⟨""⟩ (.ascii [] fun _ _ => none) 9 nmapScan
      [nmapResult 10 "completed" (some 0) none,
        nmapResult 20 "failed" (some 1) (some "killed")] := by
  have hmixed : ((run (reportStep ⟨""⟩ (.ascii [] fun _ _ => none)) nmapScan
      [nmapResult 10 "completed" (some 0) none,
        nmapResult 20 "failed" (some 1) (some "killed")]).toolRuns 9).map (·.outcome) =
      some ⟨.completed, some 1, some "killed", false⟩ := by
    rfl
  refine ⟨hmixed, fun hstays => ?_⟩
  have hfirst := hstays [] (nmapResult 10 "completed" (some 0) none)
    [nmapResult 20 "failed" (some 1) (some "killed")] _ .completed rfl (fun r hr => by cases hr)
    ⟨_, _, _, rfl, rfl, ⟨_, rfl⟩, rfl, fun r hr => by cases hr⟩ _ (List.prefix_refl _)
  rw [List.nil_append, hmixed] at hfirst
  cases hfirst

end ScanPlatform
