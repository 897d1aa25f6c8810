import ScanPlatform.Base.CondMachine
import ScanPlatform.Worker.JobGates

/-!
# The tasks of a job

`_handle_job` with the tasks it starts: the liveness beat, the execution and, on a VPN worker with
a probe, the egress watchdog. The event loop runs them in any order, and what was awaited may have
gone on before the waiter wakes up.

* `JobTasks`, `JobEvent`, `jobStep`: the tasks of a job, and what the event loop does next;
* `JobMove`, **`jobStep_moves`**: what an event can do;
* `Fits`, `Sends`: the verdict of an execution, and the answers that it leads to;
* `Underway`, **`Underway.step`**, `underway_run`: which tasks run in which phase;
* `Answer.Completed`, `Fits.completed`: a success is one of the executor.
-/

set_option autoImplicit false

namespace ScanPlatform

open Checks Json CondMachine

namespace LeasedJob

/-! ## Tasks -/

/-- An exception of the executor or of its call. The last kind is no `Exception`. -/
inductive Raised where
  | leaseError (reason : String)
  | exception (typeName : String)
  | baseException
  deriving DecidableEq

/-- How an execution ends; the status is `none` for an object that is no text. -/
inductive Ending where
  | returned (status : Option String)
  | raised (e : Raised)
  deriving DecidableEq

inductive Execution where
  | notStarted
  | running
  /-- It has ended, and has not been cancelled before. -/
  | ended (e : Ending)
  | cancelling
  | cancelled
  deriving DecidableEq

/-- What a check of the watchdog raises: `EGRESS_LOST_MIDSCAN`, or what is no `Exception`. -/
inductive Loss where
  | egressLost
  | baseException
  deriving DecidableEq

inductive Watchdog where
  | notStarted
  | running
  | lost (loss : Loss)
  | cancelling
  | cancelled
  deriving DecidableEq

inductive Beat where
  | notStarted
  | running
  | cancelled
  deriving DecidableEq

/-- The arguments of `client.complete`. -/
structure Answer where
  status : Option String
  reason : Option String
  deriving DecidableEq

/-- The status and the reason at the terminal write; `none` is an exception that no handler
catches. -/
abbrev Verdict := Option Answer

inductive Phase where
  | received
  | invoking
  /-- In `asyncio.wait`, or awaiting the coroutine. -/
  | waiting
  /-- The cancelled execution is awaited. -/
  | cancelling
  | stoppingBeat (verdict : Verdict)
  | stoppingWatchdog (verdict : Verdict)
  | completing (answer : Answer)
  | ended
  deriving DecidableEq

structure JobTasks where
  phase : Phase
  beat : Beat
  execution : Execution
  watchdog : Watchdog
  /-- The calls of `client.complete`. -/
  sent : List Answer
  deriving DecidableEq

def JobTasks.received : JobTasks := ⟨.received, .notStarted, .notStarted, .notStarted, []⟩

def failed (reason : String) : Answer := ⟨some "failed", some reason⟩

def Raised.verdict : Raised → Verdict
  | .leaseError reason => some (failed reason)
  | .exception typeName => some (failed typeName)
  | .baseException => none

/-- What `await exec_task` leads to. -/
def Ending.verdict : Ending → Verdict
  | .returned status => some ⟨status, none⟩
  | .raised e => e.verdict

/-- What `raise watchdog_exc` leads to. -/
def Loss.verdict : Loss → Verdict
  | .egressLost => some (failed "VPN_EGRESS_LOST_MIDSCAN")
  | .baseException => none

/-- After the `finally`. -/
def Verdict.after : Verdict → Phase
  | some answer => .completing answer
  | none => .ended

/-! ## The event loop -/

inductive JobEvent where
  /-- The gates and the policy. -/
  | start
  /-- The executor is called, which may raise at once. -/
  | invoke (raised : Option Raised)
  | executionEnds (e : Ending)
  /-- A check of the watchdog, which may fail. -/
  | check (loss : Option Loss)
  | wake
  | cancelledEnds
  | beatStops
  | watchdogStops
  /-- `_safe_complete`, with its retries. -/
  | complete (retries : Fin 3)

/-- The first call of `_safe_complete` is answered. -/
def noRetries : Fin 3 := 0

/-- `self.identity.is_vpn_egress and self.egress_probe is not None`. -/
def Worker.watches (py : Texts) (w : Worker) : Bool :=
  w.identity.isVpnEgress py && w.egressProbe.isSome

variable (py : Texts) (w : Worker) (job : Object)

def begin (s : JobTasks) : JobTasks :=
  match handleJob py w job with
  | .rejected reason => { s with phase := .completing (failed reason) }
  | .escaped => { s with phase := .ended }
  | .noExecutor =>
    { s with phase := .stoppingBeat (some (failed "NO_EXECUTOR")), beat := .running }
  | .executed _ => { s with phase := .invoking, beat := .running }

def jobStep : JobEvent → JobTasks → Option JobTasks
  | .start, s => if s.phase = .received then some (begin py w job s) else none
  | .invoke raised, s =>
    if s.phase = .invoking then
      match raised with
      | some e => some { s with phase := .stoppingBeat e.verdict }
      | none => some { s with
          phase := .waiting
          execution := .running
          watchdog := if w.watches py then .running else .notStarted }
    else none
  | .executionEnds e, s =>
    if s.execution = .running then some { s with execution := .ended e } else none
  | .check loss, s =>
    if s.watchdog = .running then
      match loss with
      | some loss => some { s with watchdog := .lost loss }
      | none => some s
    else none
  | .wake, s =>
    if s.phase = .waiting then
      match s.execution, s.watchdog with
      | .ended e, _ => some { s with phase := .stoppingBeat e.verdict }
      | .running, .lost _ => some { s with phase := .cancelling, execution := .cancelling }
      | _, _ => none
    else none
  | .cancelledEnds, s =>
    match s.phase, s.watchdog with
    | .cancelling, .lost loss =>
      some { s with phase := .stoppingBeat loss.verdict, execution := .cancelled }
    | _, _ => none
  | .beatStops, s =>
    match s.phase with
    | .stoppingBeat verdict =>
      match s.watchdog with
      | .notStarted => some { s with phase := verdict.after, beat := .cancelled }
      | .running => some { s with
          phase := .stoppingWatchdog verdict, beat := .cancelled, watchdog := .cancelling }
      | _ => some { s with phase := .stoppingWatchdog verdict, beat := .cancelled }
    | _ => none
  | .watchdogStops, s =>
    match s.phase with
    | .stoppingWatchdog verdict =>
      some { s with
        phase := verdict.after
        watchdog := if s.watchdog = .cancelling then .cancelled else s.watchdog }
    | _ => none
  | .complete retries, s =>
    match s.phase with
    | .completing answer => some { s with
        phase := .ended, sent := s.sent ++ List.replicate (retries + 1) answer }
    | _ => none

/-! ## What an event can do -/

/-- What an event does, and in which state it takes place. -/
inductive JobMove (s : JobTasks) : JobEvent → JobTasks → Prop
  | start (hphase : s.phase = .received) : JobMove s .start (begin py w job s)
  | raises (e : Raised) (hphase : s.phase = .invoking) :
    JobMove s (.invoke (some e)) { s with phase := .stoppingBeat e.verdict }
  | runs (hphase : s.phase = .invoking) :
    JobMove s (.invoke none) { s with
      phase := .waiting
      execution := .running
      watchdog := if w.watches py then .running else .notStarted }
  | ends (e : Ending) (hexec : s.execution = .running) :
    JobMove s (.executionEnds e) { s with execution := .ended e }
  | checks (hrunning : s.watchdog = .running) : JobMove s (.check none) s
  | loses (loss : Loss) (hrunning : s.watchdog = .running) :
    JobMove s (.check (some loss)) { s with watchdog := .lost loss }
  | wakes (e : Ending) (hphase : s.phase = .waiting) (hexec : s.execution = .ended e) :
    JobMove s .wake { s with phase := .stoppingBeat e.verdict }
  | cancels (loss : Loss) (hphase : s.phase = .waiting) (hexec : s.execution = .running)
    (hlost : s.watchdog = .lost loss) :
    JobMove s .wake { s with phase := .cancelling, execution := .cancelling }
  | cancelled (loss : Loss) (hphase : s.phase = .cancelling) (hlost : s.watchdog = .lost loss) :
    JobMove s .cancelledEnds
      { s with phase := .stoppingBeat loss.verdict, execution := .cancelled }
  | beatStops (verdict : Verdict) (hphase : s.phase = .stoppingBeat verdict)
    (hnone : s.watchdog = .notStarted) :
    JobMove s .beatStops { s with phase := verdict.after, beat := .cancelled }
  | stopsWatchdog (verdict : Verdict) (hphase : s.phase = .stoppingBeat verdict)
    (hrunning : s.watchdog = .running) :
    JobMove s .beatStops { s with
      phase := .stoppingWatchdog verdict, beat := .cancelled, watchdog := .cancelling }
  | awaitsWatchdog (verdict : Verdict) (hphase : s.phase = .stoppingBeat verdict)
    (hnotStarted : s.watchdog ≠ .notStarted) (hnotRunning : s.watchdog ≠ .running) :
    JobMove s .beatStops { s with phase := .stoppingWatchdog verdict, beat := .cancelled }
  | watchdogStops (verdict : Verdict) (hphase : s.phase = .stoppingWatchdog verdict) :
    JobMove s .watchdogStops { s with
      phase := verdict.after
      watchdog := if s.watchdog = .cancelling then .cancelled else s.watchdog }
  | completes (retries : Fin 3) (answer : Answer) (hphase : s.phase = .completing answer) :
    JobMove s (.complete retries) { s with
      phase := .ended, sent := s.sent ++ List.replicate (retries + 1) answer }

variable {py w job} in
/-- **What an event can do.** -/
theorem jobStep_moves {s s' : JobTasks} {a : JobEvent} (h : jobStep py w job a s = some s') :
    JobMove py w job s a s' := by
  cases a with
  | start =>
    obtain ⟨hphase, rfl⟩ := guarded_eq_some.mp h
    exact .start hphase
  | invoke raised =>
    obtain ⟨hphase, h⟩ := Option.ite_none_right_eq_some.mp h
    cases raised with
    | some e =>
      cases h
      exact .raises e hphase
    | none =>
      cases h
      exact .runs hphase
  | executionEnds e =>
    obtain ⟨hexec, rfl⟩ := guarded_eq_some.mp h
    exact .ends e hexec
  | check loss =>
    obtain ⟨hrunning, h⟩ := Option.ite_none_right_eq_some.mp h
    cases loss with
    | none =>
      cases h
      exact .checks hrunning
    | some loss =>
      cases h
      exact .loses loss hrunning
  | wake =>
    obtain ⟨hphase, h⟩ := Option.ite_none_right_eq_some.mp h
    split at h
    · rename_i e hexec
      cases h
      exact .wakes e hphase hexec
    · rename_i loss hexec hlost
      cases h
      exact .cancels loss hphase hexec hlost
    · cases h
  | cancelledEnds =>
    simp only [jobStep] at h
    split at h
    · rename_i loss hphase hlost
      cases h
      exact .cancelled loss hphase hlost
    · cases h
  | beatStops =>
    simp only [jobStep] at h
    split at h
    · rename_i verdict hphase
      split at h
      · rename_i hnone
        cases h
        exact .beatStops verdict hphase hnone
      · rename_i hrunning
        cases h
        exact .stopsWatchdog verdict hphase hrunning
      · rename_i hnotStarted hnotRunning
        cases h
        exact .awaitsWatchdog verdict hphase hnotStarted hnotRunning
    · cases h
  | watchdogStops =>
    simp only [jobStep] at h
    split at h
    · rename_i verdict hphase
      cases h
      exact .watchdogStops verdict hphase
    · cases h
  | complete retries =>
    simp only [jobStep] at h
    split at h
    · rename_i answer hphase
      cases h
      exact .completes retries answer hphase
    · cases h

/-! ## Which tasks run in which phase -/

/-- A task that has not been started or has finished. -/
def Execution.Idle (e : Execution) : Prop := e ≠ .running ∧ e ≠ .cancelling

def Watchdog.Idle (t : Watchdog) : Prop := t ≠ .running ∧ t ≠ .cancelling

/-- The watchdog has not been cancelled. -/
def Watchdog.Live (t : Watchdog) : Prop := t ≠ .cancelling ∧ t ≠ .cancelled

/-- The verdict is that of an execution that has ended by itself, and no success otherwise. -/
structure Fits (execution : Execution) (verdict : Verdict) : Prop where
  idle : execution.Idle
  ended : ∀ e, execution = .ended e → verdict = e.verdict
  failed : (∀ e, execution ≠ .ended e) → ∀ answer ∈ verdict, answer.status = some "failed"

/-- The calls of `client.complete` are those of a verdict. -/
structure Sends (sent : List Answer) (verdict : Verdict) : Prop where
  all : ∀ answer ∈ sent, verdict = some answer
  some : verdict.isSome → sent ≠ []

def Underway (s : JobTasks) : Prop :=
  match s.phase with
  | .received => s = .received
  | .invoking => s = ⟨.invoking, .running, .notStarted, .notStarted, []⟩
  | .waiting => s.sent = [] ∧ (s.execution = .running ∨ ∃ e, s.execution = .ended e) ∧
      s.watchdog.Live
  | .cancelling => s.sent = [] ∧ s.execution = .cancelling ∧ ∃ loss, s.watchdog = .lost loss
  | .stoppingBeat verdict => s.sent = [] ∧ Fits s.execution verdict ∧ s.watchdog.Live
  | .stoppingWatchdog verdict => s.sent = [] ∧ Fits s.execution verdict ∧ s.beat = .cancelled ∧
      (s.watchdog = .cancelling ∨ ∃ loss, s.watchdog = .lost loss)
  | .completing answer => s.sent = [] ∧ Fits s.execution (some answer) ∧ s.beat ≠ .running ∧
      s.watchdog.Idle
  | .ended => (∃ verdict, Fits s.execution verdict ∧ Sends s.sent verdict) ∧ s.beat ≠ .running ∧
      s.watchdog.Idle

section

variable {py : Texts} {w : Worker} {job : Object}

theorem fits_ended (e : Ending) : Fits (.ended e) e.verdict :=
  ⟨by simp [Execution.Idle], by rintro e' ⟨⟩; rfl, fun h => absurd rfl (h e)⟩

/-- A verdict without an execution that has ended by itself is a failure. -/
theorem fits_failed {execution : Execution} {verdict : Verdict}
    (h : execution = .notStarted ∨ execution = .cancelled)
    (hfailed : ∀ answer ∈ verdict, answer.status = some "failed") : Fits execution verdict := by
  rcases h with rfl | rfl
  · exact ⟨by simp [Execution.Idle], by rintro e ⟨⟩, fun _ => hfailed⟩
  · exact ⟨by simp [Execution.Idle], by rintro e ⟨⟩, fun _ => hfailed⟩

theorem Raised.verdict_failed (e : Raised) :
    ∀ answer ∈ e.verdict, answer.status = some "failed" := by
  cases e <;> rintro answer ⟨⟩
  · rfl
  · rfl

theorem Loss.verdict_failed (loss : Loss) :
    ∀ answer ∈ loss.verdict, answer.status = some "failed" := by
  cases loss <;> rintro answer ⟨⟩
  rfl

/-- What the `finally` leaves. -/
theorem underway_after {s : JobTasks} {verdict : Verdict} (hphase : s.phase = verdict.after)
    (hsent : s.sent = []) (hfits : Fits s.execution verdict) (hbeat : s.beat ≠ .running)
    (hwatchdog : s.watchdog.Idle) : Underway s := by
  cases verdict with
  | some answer =>
    rw [Underway, hphase]
    exact ⟨hsent, hfits, hbeat, hwatchdog⟩
  | none =>
    rw [Underway, hphase]
    exact ⟨⟨none, hfits, by simp [hsent], by simp⟩, hbeat, hwatchdog⟩

theorem underway_begin : Underway (begin py w job .received) := by
  unfold begin
  cases handleJob py w job with
  | rejected reason =>
    exact ⟨rfl, fits_failed (.inl rfl) (by rintro _ ⟨⟩; rfl), by simp [JobTasks.received],
      by simp [Watchdog.Idle, JobTasks.received]⟩
  | escaped =>
    exact ⟨⟨none, fits_failed (.inl rfl) (by rintro _ ⟨⟩), by simp [JobTasks.received], by simp⟩,
      by simp [JobTasks.received], by simp [Watchdog.Idle, JobTasks.received]⟩
  | noExecutor =>
    exact ⟨rfl, fits_failed (.inl rfl) (by rintro _ ⟨⟩; rfl),
      by simp [Watchdog.Live, JobTasks.received]⟩
  | executed policy => rfl

/-- An execution runs while it is waited for. -/
theorem Underway.waiting {s : JobTasks} (hs : Underway s) (h : s.execution = .running) :
    s.phase = .waiting := by
  obtain ⟨phase, beat, execution, watchdog, sent⟩ := s
  obtain rfl : execution = .running := h
  cases phase with
  | waiting => rfl
  | received | invoking => cases hs
  | cancelling => cases hs.2.1
  | stoppingBeat | stoppingWatchdog | completing => exact absurd rfl hs.2.1.idle.1
  | ended =>
    obtain ⟨⟨verdict, hfits, -⟩, -⟩ := hs
    exact absurd rfl hfits.idle.1

/-- The watchdog runs while the execution is waited for, and while the beat is stopped. -/
theorem Underway.watching {s : JobTasks} (hs : Underway s) (h : s.watchdog = .running) :
    s.phase = .waiting ∨ ∃ verdict, s.phase = .stoppingBeat verdict := by
  obtain ⟨phase, beat, execution, watchdog, sent⟩ := s
  obtain rfl : watchdog = .running := h
  cases phase with
  | waiting => exact .inl rfl
  | stoppingBeat verdict => exact .inr ⟨verdict, rfl⟩
  | received | invoking => cases hs
  | cancelling =>
    obtain ⟨-, -, loss, hlost⟩ := hs
    cases hlost
  | stoppingWatchdog =>
    obtain ⟨-, -, -, hstop | ⟨loss, hlost⟩⟩ := hs
    · cases hstop
    · cases hlost
  | completing => exact absurd rfl hs.2.2.2.1
  | ended => exact absurd rfl hs.2.2.1

theorem Underway.step {s s' : JobTasks} {a : JobEvent} (hs : Underway s)
    (h : jobStep py w job a s = some s') : Underway s' := by
  cases jobStep_moves h with
  | start hphase =>
    rw [Underway, hphase] at hs
    exact hs ▸ underway_begin
  | raises e hphase =>
    rw [Underway, hphase] at hs
    subst hs
    exact ⟨rfl, fits_failed (.inl rfl) e.verdict_failed, by simp [Watchdog.Live]⟩
  | runs hphase =>
    rw [Underway, hphase] at hs
    subst hs
    refine ⟨rfl, .inl rfl, ?_⟩
    change Watchdog.Live (if _ then _ else _)
    split_ifs <;> simp [Watchdog.Live]
  | ends e hexec =>
    have hphase := hs.waiting hexec
    simp only [Underway, hphase] at hs ⊢
    exact ⟨hs.1, .inr ⟨e, rfl⟩, hs.2.2⟩
  | checks hrunning => exact hs
  | loses loss hrunning =>
    rcases hs.watching hrunning with hphase | ⟨verdict, hphase⟩
    · simp only [Underway, hphase] at hs ⊢
      exact ⟨hs.1, hs.2.1, by simp [Watchdog.Live]⟩
    · simp only [Underway, hphase] at hs ⊢
      exact ⟨hs.1, hs.2.1, by simp [Watchdog.Live]⟩
  | wakes e hphase hexec =>
    rw [Underway, hphase] at hs
    obtain ⟨hsent, -, hlive⟩ := hs
    exact ⟨hsent, hexec ▸ fits_ended e, hlive⟩
  | cancels loss hphase hexec hlost =>
    rw [Underway, hphase] at hs
    exact ⟨hs.1, rfl, loss, hlost⟩
  | cancelled loss hphase hlost =>
    rw [Underway, hphase] at hs
    exact ⟨hs.1, fits_failed (.inr rfl) loss.verdict_failed, by simp [hlost, Watchdog.Live]⟩
  | beatStops verdict hphase hnone =>
    rw [Underway, hphase] at hs
    obtain ⟨hsent, hfits, -⟩ := hs
    exact underway_after rfl hsent hfits (by simp) (by simp [hnone, Watchdog.Idle])
  | stopsWatchdog verdict hphase hrunning =>
    rw [Underway, hphase] at hs
    exact ⟨hs.1, hs.2.1, rfl, .inl rfl⟩
  | awaitsWatchdog verdict hphase hnotStarted hnotRunning =>
    rw [Underway, hphase] at hs
    obtain ⟨hsent, hfits, hlive⟩ := hs
    refine ⟨hsent, hfits, rfl, .inr ?_⟩
    cases hwatchdog : s.watchdog with
    | notStarted => exact absurd hwatchdog hnotStarted
    | running => exact absurd hwatchdog hnotRunning
    | lost loss => exact ⟨loss, rfl⟩
    | cancelling => exact absurd hwatchdog hlive.1
    | cancelled => exact absurd hwatchdog hlive.2
  | watchdogStops verdict hphase =>
    rw [Underway, hphase] at hs
    obtain ⟨hsent, hfits, hbeat, hwatchdog⟩ := hs
    refine underway_after rfl hsent hfits (by simp [hbeat]) ?_
    rcases hwatchdog with hstop | ⟨loss, hlost⟩
    · simp [hstop, Watchdog.Idle]
    · simp [hlost, Watchdog.Idle]
  | completes retries answer hphase =>
    rw [Underway, hphase] at hs
    obtain ⟨hsent, hfits, hbeat, hwatchdog⟩ := hs
    refine ⟨⟨some answer, hfits, ?_, ?_⟩, hbeat, hwatchdog⟩
    · simp [hsent]
    · simp [hsent]

theorem underway_received : Underway .received := rfl

theorem underway_run (σ : List JobEvent) : Underway (run (jobStep py w job) .received σ) :=
  run_invariant (I := Underway) (fun _ _ _ hs h => hs.step h) underway_received σ

/-- `status in ("completed", "completed_with_errors")`. -/
def Answer.Completed (answer : Answer) : Prop :=
  answer.status = some "completed" ∨ answer.status = some "completed_with_errors"

theorem not_completed_of_failed {answer : Answer} (h : answer.status = some "failed") :
    ¬ answer.Completed := by
  simp [Answer.Completed, h]

/-- A success is one of an execution that has ended by itself. -/
theorem Fits.completed {execution : Execution} {verdict : Verdict} (h : Fits execution verdict)
    {answer : Answer} (hanswer : verdict = some answer) (hcompleted : answer.Completed) :
    execution = .ended (.returned answer.status) := by
  by_cases hended : ∃ e, execution = .ended e
  · obtain ⟨e, rfl⟩ := hended
    have hverdict := (h.ended e rfl).symm.trans hanswer
    cases e with
    | returned status =>
      cases hverdict
      rfl
    | raised e =>
      exact absurd hcompleted (not_completed_of_failed (e.verdict_failed answer hverdict))
  · have hfailed := h.failed (fun e he => hended ⟨e, he⟩) answer hanswer
    exact absurd hcompleted (not_completed_of_failed hfailed)

end

end LeasedJob

end ScanPlatform
