import ScanPlatform.Worker.JobTasks
import ScanPlatform.Worker.Unreadable

/-!
# Which jobs are answered

Whether `_handle_job` calls `client.complete` before it ends, for any JSON object, any answers of
the probes, any end of the execution and any order of the tasks.

* `Answered`: a call, no success but that of the executor, and no task left;
* `Caught`: what is raised is caught where it is raised;
* `Silent`, `silent_step_iff`: an answer is given up by what is not caught;
* **`job_answered_iff`**: which jobs are answered; `job_without_answer` is one that is not.
-/

set_option autoImplicit false

namespace ScanPlatform

open Json CondMachine

namespace LeasedJob

section

variable {py : Texts} {w : Worker} {job : Object}

/-- The job is answered, a success is one of the executor, and no task is left. -/
structure Answered (s : JobTasks) : Prop where
  sent : s.sent ≠ []
  completed : ∀ answer ∈ s.sent, answer.Completed →
    s.execution = .ended (.returned answer.status)
  execution : s.execution.Idle
  watchdog : s.watchdog.Idle
  beat : s.beat ≠ .running

variable (py w job) in
/-- What is raised is caught: the job can be read, and neither the executor nor a check of the
watchdog ends in a `BaseException` that is awaited. -/
def Caught (s : JobTasks) : JobEvent → Prop
  | .start => s.phase = .received → ¬ Unreadable py w job
  | .invoke raised => s.phase = .invoking → raised ≠ some .baseException
  | .wake => s.phase = .waiting → s.execution ≠ .ended (.raised .baseException) ∧
      (s.execution = .running → s.watchdog ≠ .lost .baseException)
  | _ => True

/-- There will be no answer. -/
def Silent (s : JobTasks) : Prop :=
  match s.phase with
  | .cancelling => s.watchdog = .lost .baseException
  | .stoppingBeat verdict | .stoppingWatchdog verdict => verdict = none
  | .ended => s.sent = []
  | _ => False

theorem silent_after {verdict : Verdict} {beat : Beat} {execution : Execution}
    {watchdog : Watchdog} {sent : List Answer} (hsent : sent = []) :
    Silent ⟨verdict.after, beat, execution, watchdog, sent⟩ ↔ verdict = none := by
  cases verdict with
  | some answer => simp [Silent, Verdict.after]
  | none => simp [Silent, Verdict.after, hsent]

theorem Raised.verdict_eq_none {e : Raised} : e.verdict = none ↔ e = .baseException := by
  cases e <;> simp [Raised.verdict]

theorem Ending.verdict_eq_none {e : Ending} : e.verdict = none ↔ e = .raised .baseException := by
  cases e with
  | returned status => simp [Ending.verdict]
  | raised e => simp [Ending.verdict, Raised.verdict_eq_none]

theorem Loss.verdict_eq_none {loss : Loss} : loss.verdict = none ↔ loss = .baseException := by
  cases loss <;> simp [Loss.verdict]

theorem silent_begin : Silent (begin py w job .received) ↔ Unreadable py w job := by
  rw [← handleJob_escaped_iff]
  unfold begin
  cases handleJob py w job with
  | rejected reason => simp [Silent]
  | escaped => simp [Silent, JobTasks.received]
  | noExecutor => simp [Silent]
  | executed policy => simp [Silent]

/-- An event that does not take place raises nothing. -/
theorem caught_of_none {s : JobTasks} {a : JobEvent} (h : jobStep py w job a s = none) :
    Caught py w job s a := by
  cases a with
  | start =>
    intro hphase
    simp [jobStep, hphase] at h
  | invoke raised =>
    intro hphase
    cases raised <;> simp [jobStep, hphase] at h
  | wake =>
    intro hphase
    refine ⟨fun hexec => ?_, fun hexec hlost => ?_⟩
    · simp [jobStep, hphase, hexec] at h
    · simp [jobStep, hphase, hexec, hlost] at h
  | executionEnds | check | cancelledEnds | beatStops | watchdogStops | complete => trivial

/-- **An answer is given up** only by what is not caught, and for good. -/
theorem silent_step_iff {s s' : JobTasks} {a : JobEvent} (hs : Underway s)
    (h : jobStep py w job a s = some s') : Silent s' ↔ Silent s ∨ ¬ Caught py w job s a := by
  have hkept : (Silent s' ↔ Silent s) → Caught py w job s a →
      (Silent s' ↔ Silent s ∨ ¬ Caught py w job s a) := fun hsame hcaught =>
    hsame.trans (or_iff_left (not_not.mpr hcaught)).symm
  cases jobStep_moves h with
  | start hphase =>
    rw [Underway, hphase] at hs
    subst hs
    rw [silent_begin]
    simp [Silent, Caught, JobTasks.received]
  | raises e hphase => simp [Silent, Caught, hphase, Raised.verdict_eq_none]
  | runs hphase => simp [Silent, Caught, hphase]
  | ends e hexec => exact hkept Iff.rfl trivial
  | checks hrunning => exact hkept Iff.rfl trivial
  | loses loss hrunning =>
    refine hkept ?_ trivial
    rcases hs.watching hrunning with hphase | ⟨verdict, hphase⟩
    · simp [Silent, hphase]
    · simp [Silent, hphase]
  | wakes e hphase hexec => simp [Silent, Caught, hphase, hexec, Ending.verdict_eq_none]
  | cancels loss hphase hexec hlost => simp [Silent, Caught, hphase, hexec, hlost]
  | cancelled loss hphase hlost =>
    refine hkept ?_ trivial
    simp [Silent, hphase, hlost, Loss.verdict_eq_none]
  | beatStops verdict hphase hnone =>
    rw [Underway, hphase] at hs
    have hverdict : Silent s ↔ verdict = none := by simp [Silent, hphase]
    exact hkept ((silent_after hs.1).trans hverdict.symm) trivial
  | stopsWatchdog verdict hphase hrunning =>
    have hverdict : Silent s ↔ verdict = none := by simp [Silent, hphase]
    exact hkept hverdict.symm trivial
  | awaitsWatchdog verdict hphase hnotStarted hnotRunning =>
    have hverdict : Silent s ↔ verdict = none := by simp [Silent, hphase]
    exact hkept hverdict.symm trivial
  | watchdogStops verdict hphase =>
    rw [Underway, hphase] at hs
    have hverdict : Silent s ↔ verdict = none := by simp [Silent, hphase]
    exact hkept ((silent_after hs.1).trans hverdict.symm) trivial
  | completes retries answer hphase =>
    refine hkept ?_ trivial
    simp [Silent, hphase]

theorem not_silent_next (s : JobTasks) (a : JobEvent) (hs : Underway s) (hsilent : ¬ Silent s) :
    ¬ Silent (next (jobStep py w job) s a) ↔ Caught py w job s a := by
  rcases next_cases (jobStep py w job) s a with h | ⟨h, hnext⟩
  · rw [silent_step_iff hs h, or_iff_right hsilent, not_not]
  · rw [hnext]
    exact iff_of_true hsilent (caught_of_none h)

/-- An answer is given in a run that catches what is raised. -/
theorem not_silent_run {σ : List JobEvent} :
    ¬ Silent (run (jobStep py w job) .received σ) ↔
      Along (jobStep py w job) (Caught py w job) .received σ :=
  never_iff_along (fun _ _ _ hs h => hs.step h)
    (fun _ _ _ hs hsilent h => (silent_step_iff hs h).mpr (.inl hsilent))
    not_silent_next underway_received (by simp [Silent, JobTasks.received]) σ

end

/-- **A job is answered** exactly when it can be read and what is raised is caught. -/
theorem job_answered_iff (py : Texts) (w : Worker) (job : Object) (σ : List JobEvent)
    (hended : (run (jobStep py w job) .received σ).phase = .ended) :
    Answered (run (jobStep py w job) .received σ) ↔
      Along (jobStep py w job) (Caught py w job) .received σ := by
  rw [← not_silent_run]
  have hs : Underway (run (jobStep py w job) .received σ) := underway_run σ
  generalize run (jobStep py w job) .received σ = s at hs hended ⊢
  rw [Underway, hended] at hs
  obtain ⟨⟨verdict, hfits, hsends⟩, hbeat, hwatchdog⟩ := hs
  constructor
  · intro h
    simpa [Silent, hended] using h.sent
  · intro h
    refine ⟨by simpa [Silent, hended] using h, fun answer hanswer hcompleted => ?_, hfits.idle,
      hwatchdog, hbeat⟩
    exact hfits.completed (hsends.all answer hanswer) hcompleted

/-- A job whose workspace is no UUID, and the run that ends with the exception. -/
def namelessJob : Object := labJob ++ [("workspace_id", .str "acme")]

/-- **There is no answer** to a job whose workspace is no UUID. -/
theorem job_without_answer :
    (run (jobStep labTexts labWorker namelessJob) .received [.start]).phase = .ended ∧
      ¬ Answered (run (jobStep labTexts labWorker namelessJob) .received [.start]) := by
  have hrun : run (jobStep labTexts labWorker namelessJob) .received [.start] =
      { JobTasks.received with phase := .ended } := by decide
  rw [hrun]
  exact ⟨rfl, fun h => h.sent rfl⟩

/-- The events of a job whose execution ends with the status. -/
def answeredEvents (status : String) : List JobEvent :=
  [.start, .invoke none, .executionEnds (.returned (some status)), .wake, .beatStops,
    .complete noRetries]

theorem labJob_answered :
    Answered (run (jobStep labTexts labWorker labJob) .received (answeredEvents "completed")) ∧
      Along (jobStep labTexts labWorker labJob) (Caught labTexts labWorker labJob) .received
        (answeredEvents "completed") := by
  have hrun : run (jobStep labTexts labWorker labJob) .received (answeredEvents "completed") =
      ⟨.ended, .cancelled, .ended (.returned (some "completed")), .notStarted,
        [⟨some "completed", none⟩]⟩ := by decide
  have hanswered : Answered
      (run (jobStep labTexts labWorker labJob) .received (answeredEvents "completed")) := by
    rw [hrun]
    exact ⟨by simp, by simp, by simp [Execution.Idle], by simp [Watchdog.Idle], by simp⟩
  exact ⟨hanswered, (job_answered_iff _ _ _ _ (by rw [hrun])).mp hanswered⟩

end LeasedJob

end ScanPlatform
