import Mathlib.Algebra.Order.Ring.Unbundled.Rat
import Mathlib.Data.Rat.Defs
import ScanPlatform.Base.CondMachine
import ScanPlatform.Base.Utf8
import ScanPlatform.Tools.Drain

/-!
# The process of a tool

`run_with_timeout`, with `terminate_and_reap`: the function reads two pipes and feeds a third while
it waits for a child, under a deadline and under budgets, and may be cancelled. What the child, the
event loop and the caller do comes in any order.

* `Budgets`, `RunSettings`, `TimedRun`: what the function is given and what it returns;
* `Child`, `Pump`, `Gather`, `Phase`, `RunState`: the child, the three pumps, and where the function
  stands;
* `RunState.resume`, `RunState.cancel`, `RunState.deadline`, `processStep`: the events, until the
  function ends;
* `Leads`, **`leads_of_step`**: what an event can do to the child and to the function;
* `RunState.Sound`, **`processStep_sound`**: the invariant;
* `NoneLeft`, `Covered`, **`none_left_iff`**: when no child is left behind. `child_left` are two
  runs in which one is.
-/

set_option autoImplicit false

namespace ScanPlatform.Tools

open CondMachine

/-! ## What the function is given and what it returns -/

structure Budgets where
  maxStdoutBytes : Option ℕ
  maxStderrBytes : Option ℕ
  maxStdoutLines : Option ℕ
  maxRssBytes : Option ℕ

/-- No budget is given. -/
def Budgets.none : Budgets := ⟨.none, .none, .none, .none⟩

structure RunSettings where
  timeout : Option ℚ
  budgets : Budgets

/-- Whether there is a deadline: `timeout is not None and timeout > 0`. -/
def RunSettings.timed (settings : RunSettings) : Bool := settings.timeout.any (0 < ·)

def Budgets.given (budgets : Budgets) : Bool :=
  budgets.maxStdoutBytes.isSome || budgets.maxStderrBytes.isSome ||
    budgets.maxStdoutLines.isSome || budgets.maxRssBytes.isSome

inductive Pipe where
  | stdout
  | stderr
  deriving DecidableEq

/-- What `_drain` is given for a pipe. -/
def Budgets.of (budgets : Budgets) : Pipe → OutputBudget
  | .stdout => ⟨budgets.maxStdoutBytes, budgets.maxStdoutLines⟩
  | .stderr => ⟨budgets.maxStderrBytes, .none⟩

/-- A budget that has been exceeded. -/
inductive Trip where
  | output (pipe : Pipe) (limit : Limit)
  | rss
  deriving DecidableEq

def Pipe.name : Pipe → String
  | .stdout => "stdout"
  | .stderr => "stderr"

def Trip.name : Trip → String
  | .output pipe .lines => pipe.name ++ "_lines"
  | .output pipe .bytes => pipe.name ++ "_bytes"
  | .rss => "rss"

structure TimedRun where
  stdout : List Char
  stderr : List Char
  timedOut : Bool
  exitCode : Option ℤ
  resourceLimited : Bool
  stdoutBytesSeen : ℕ
  stderrBytesSeen : ℕ
  stdoutLinesSeen : ℕ
  limitTripped : String
  peakRssBytes : Option ℕ

/-! ## The state of a call -/

/-- What a pump raises. `asyncio.TimeoutError` is the `TimeoutError` of the operating system. -/
inductive Raised where
  | timeoutError
  | other (name : String)

/-- How the function ends. -/
inductive Ending where
  | returned (result : TimedRun)
  | raised (name : String)
  | cancelled

structure Child where
  /-- The status with which the child has exited. -/
  exited : Option ℤ
  /-- `proc.returncode`: the status, once the event loop has been told. -/
  returncode : Option ℤ
  /-- A kill has been sent. -/
  killed : Bool

inductive Pump where
  | feed
  | drain (pipe : Pipe)
  deriving DecidableEq

/-- The future of `asyncio.gather`. -/
inductive Gather where
  | pending
  | finished
  | raised (e : Raised)
  | cancelled

/-- Why a child is stopped. -/
inductive Cause where
  | budget
  | deadline
  | cancelled

/-- What the function waits for. -/
inductive Phase where
  /-- `_pumps_or_budget`, under the deadline. -/
  | pumping
  /-- `proc.wait()`. -/
  | waiting
  /-- The pumps, after they have been cancelled. -/
  | stopping (cause : Cause)
  /-- `proc.communicate()`, in `terminate_and_reap`. -/
  | reaping (cause : Cause)
  | done (ending : Ending)

structure RunState where
  child : Child
  /-- The pumps that have not ended. -/
  running : List Pump
  gather : Gather
  stdout : Drain
  stderr : Drain
  tripped : List Trip
  peakRss : Option ℕ
  /-- The watchdog samples the child. -/
  watching : Bool
  deadlinePassed : Bool
  phase : Phase

def RunState.init (settings : RunSettings) : RunState where
  child := ⟨none, none, false⟩
  running := [.feed, .drain .stdout, .drain .stderr]
  gather := .pending
  stdout := .init
  stderr := .init
  tripped := []
  peakRss := none
  watching := settings.budgets.maxRssBytes.isSome
  deadlinePassed := false
  phase := .pumping

/-! ## The pumps -/

namespace RunState

variable (s : RunState)

/-- A pump ends. The gather ends with the first exception, or with the last pump. -/
def endPump (pump : Pump) (raised : Option Raised) : RunState :=
  let running := s.running.filter (· ≠ pump)
  let gather := match s.gather, raised with
    | .pending, some e => .raised e
    | .pending, none => if running = [] then .finished else .pending
    | gather, _ => gather
  { s with running, gather }

def drainOf : Pipe → Drain
  | .stdout => s.stdout
  | .stderr => s.stderr

def setDrain (d : Drain) : Pipe → RunState
  | .stdout => { s with stdout := d }
  | .stderr => { s with stderr := d }

/-- A chunk is read. The pump ends when it exceeds a budget. -/
def chunk (budgets : Budgets) (pipe : Pipe) (bytes : Bytes) : RunState :=
  let d := (s.drainOf pipe).chunk (budgets.of pipe) bytes
  let s := s.setDrain d pipe
  match d.tripped with
  | some limit =>
    ({ s with tripped := s.tripped ++ [.output pipe limit] } : RunState).endPump (.drain pipe) none
  | none => s

/-- The body of the loop of `_rss_watchdog`. -/
def sample (maxRssBytes : Option ℕ) (rss : Option ℕ) : RunState :=
  if s.child.returncode.isSome then { s with watching := false }
  else
    match rss with
    | none => s
    | some rss =>
      let s := { s with peakRss := some (s.peakRss.elim rss (max · rss)) }
      if maxRssBytes.any (· < rss) then { s with tripped := s.tripped ++ [.rss], watching := false }
      else s

/-- `pumps.cancel()`, which leaves a gather alone that has ended. -/
def cancelPumps : RunState :=
  match s.gather with
  | .pending => { s with running := [], gather := .cancelled }
  | .finished | .raised _ | .cancelled => s

/-! ## The function -/

/-- What is returned, with what the pipes have given so far. -/
def timedRun (timedOut resourceLimited : Bool) : TimedRun where
  stdout := Utf8.decode s.stdout.output
  stderr := Utf8.decode s.stderr.output
  timedOut := timedOut
  exitCode := s.child.returncode
  resourceLimited := resourceLimited
  stdoutBytesSeen := s.stdout.seen
  stderrBytesSeen := s.stderr.seen
  stdoutLinesSeen := s.stdout.linesSeen
  limitTripped := if resourceLimited then (s.tripped.head?.map Trip.name).getD "" else ""
  peakRssBytes := s.peakRss

/-- The child is to be stopped: the pumps are cancelled and awaited. -/
def stop (cause : Cause) : RunState := { s.cancelPumps with phase := .stopping cause }

/-- `proc.kill()`. -/
def kill : RunState := { s with child := { s.child with killed := true } }

/-- The beginning of `terminate_and_reap`. -/
def terminate (cause : Cause) : RunState :=
  { (if s.child.returncode.isNone then s.kill else s) with
    watching := false, phase := .reaping cause }

/-- What follows `terminate_and_reap`. -/
def reaped : Cause → RunState
  | .budget => { s with phase := .done (.returned (s.timedRun false true)) }
  | .deadline => { s with phase := .done (.returned (s.timedRun true false)) }
  | .cancelled => { s with phase := .done .cancelled }

/-- `_pumps_or_budget` ends, if it can. -/
def pumped (budgets : Budgets) : Option RunState :=
  if budgets.given then
    match s.tripped, s.gather with
    | [], .pending => none
    -- What the pumps have raised stays in the gather, which is not asked for it.
    | [], _ => some { s with watching := false, phase := .waiting }
    | _ :: _, _ => some (({ s with watching := false } : RunState).stop .budget)
  else
    match s.gather with
    | .pending => none
    | .finished => some { s with phase := .waiting }
    | .raised .timeoutError => some (s.stop .deadline)
    | .raised (.other name) => some { s with phase := .done (.raised name) }
    | .cancelled => some (s.stop .cancelled)

/-- The function goes on, if what it waits for has ended. -/
def resume (budgets : Budgets) : Option RunState :=
  match s.phase with
  | .pumping => s.pumped budgets
  | .waiting =>
    if s.child.returncode.isSome then
      some { s with phase := .done (.returned (s.timedRun false false)) }
    else none
  | .stopping cause => some (s.terminate cause)
  | .reaping cause => if s.child.returncode.isSome then some (s.reaped cause) else none
  | .done _ => none

/-- The deadline passes. It interrupts nothing but `_pumps_or_budget`. -/
def deadline : RunState :=
  let s := { s with deadlinePassed := true }
  match s.phase with
  | .pumping => s.stop .deadline
  | .waiting | .stopping _ | .reaping _ | .done _ => s

/-- The function is cancelled. -/
def cancel : Option RunState :=
  match s.phase with
  | .pumping | .waiting => some (s.stop .cancelled)
  -- `await pumps` is in a `suppress`.
  | .stopping cause => some (s.terminate cause)
  -- Within the `try` the handler of cancellation begins anew.
  | .reaping .budget => some (s.stop .cancelled)
  | .reaping .deadline | .reaping .cancelled => some { s with phase := .done .cancelled }
  | .done _ => none

/-- `proc.communicate()` raises. A `TimeoutError` is the end of the cleanup: the child is killed
again. -/
def reapRaises (e : Raised) : Option RunState :=
  match s.phase with
  | .reaping cause =>
    match e with
    | .timeoutError => some (s.kill.reaped cause)
    | .other name => some { s with phase := .done (.raised name) }
  | .pumping | .waiting | .stopping _ | .done _ => none

end RunState

/-! ## The events -/

inductive ProcessEvent where
  | chunk (pipe : Pipe) (bytes : Bytes)
  /-- A pump returns: the child has been fed, or a pipe is closed. -/
  | returns (pump : Pump)
  | raises (pump : Pump) (e : Raised)
  | exits (status : ℤ)
  /-- The event loop is told of the exit. -/
  | noticed
  | sample (rss : Option ℕ)
  | deadline
  | cancel
  /-- What the function waits for has ended. -/
  | resume
  | reapRaises (e : Raised)

variable (settings : RunSettings)

/-- What an event does while the function has not ended. -/
def RunState.on : ProcessEvent → RunState → Option RunState
  | .chunk pipe bytes, s =>
    if .drain pipe ∈ s.running ∧ bytes ≠ [] then some (s.chunk settings.budgets pipe bytes)
    else none
  | .returns pump, s => if pump ∈ s.running then some (s.endPump pump none) else none
  | .raises pump e, s => if pump ∈ s.running then some (s.endPump pump (some e)) else none
  | .exits status, s =>
    if s.child.exited.isNone then some { s with child := { s.child with exited := some status } }
    else none
  | .noticed, s =>
    if s.child.returncode.isNone ∧ s.child.exited.isSome then
      some { s with child := { s.child with returncode := s.child.exited } }
    else none
  | .sample rss, s =>
    if s.watching then some (s.sample settings.budgets.maxRssBytes rss) else none
  | .deadline, s => if settings.timed ∧ ¬ s.deadlinePassed then some s.deadline else none
  | .cancel, s => s.cancel
  | .resume, s => s.resume settings.budgets
  | .reapRaises e, s => s.reapRaises e

def Phase.ended : Phase → Bool
  | .done _ => true
  | .pumping | .waiting | .stopping _ | .reaping _ => false

def processStep (a : ProcessEvent) (s : RunState) : Option RunState :=
  if s.phase.ended then none else s.on settings a

/-! ## What holds in every run -/

def Child.Gone (c : Child) : Prop := c.exited.isSome ∨ c.killed

/-- The function waits for what a child does. -/
def Phase.waits : Phase → Bool
  | .pumping | .waiting | .reaping _ => true
  | .stopping _ | .done _ => false

/-- Whoever has been told of an exit has not been told too early, no child is killed while the
function waits for it, and one that is reaped has been stopped. -/
structure RunState.Sound (s : RunState) : Prop where
  noticed : ∀ status, s.child.returncode = some status → s.child.exited = some status
  unkilled : s.phase = .pumping ∨ s.phase = .waiting → s.child.killed = false
  stopped : ∀ cause, s.phase = .reaping cause → s.child.Gone
  early : s.deadlinePassed → s.phase ≠ .pumping

/-- What the pumps and the watchdog leave alone. -/
structure RunState.Kept (s s' : RunState) : Prop where
  child : s'.child = s.child
  deadlinePassed : s'.deadlinePassed = s.deadlinePassed
  phase : s'.phase = s.phase

section

variable {settings : RunSettings} {s s' : RunState}

theorem RunState.Sound.init (settings : RunSettings) : (RunState.init settings).Sound where
  noticed status h := by simp [RunState.init] at h
  unkilled _ := rfl
  stopped cause h := by simp [RunState.init] at h
  early h := by simp [RunState.init] at h

theorem RunState.kept_endPump (s : RunState) (pump : Pump) (raised : Option Raised) :
    s.Kept (s.endPump pump raised) := ⟨rfl, rfl, rfl⟩

theorem RunState.kept_chunk (s : RunState) (budgets : Budgets) (pipe : Pipe) (bytes : Bytes) :
    s.Kept (s.chunk budgets pipe bytes) := by
  have hset : ∀ d, s.Kept (s.setDrain d pipe) := by
    intro d
    cases pipe <;> exact ⟨rfl, rfl, rfl⟩
  unfold RunState.chunk
  dsimp only
  split
  · exact ⟨(hset _).child, (hset _).deadlinePassed, (hset _).phase⟩
  · exact hset _

theorem RunState.kept_sample (s : RunState) (maxRssBytes rss : Option ℕ) :
    s.Kept (s.sample maxRssBytes rss) := by
  unfold RunState.sample
  by_cases hended : s.child.returncode.isSome
  · rw [if_pos hended]
    exact ⟨rfl, rfl, rfl⟩
  · rw [if_neg hended]
    cases rss with
    | none => exact ⟨rfl, rfl, rfl⟩
    | some rss =>
      dsimp only
      split_ifs <;> exact ⟨rfl, rfl, rfl⟩

@[simp] theorem RunState.cancelPumps_child (s : RunState) : s.cancelPumps.child = s.child := by
  unfold RunState.cancelPumps
  split <;> rfl

@[simp] theorem RunState.stop_child (s : RunState) (cause : Cause) :
    (s.stop cause).child = s.child := s.cancelPumps_child

@[simp] theorem RunState.stop_phase (s : RunState) (cause : Cause) :
    (s.stop cause).phase = .stopping cause := rfl

/-! ### What an event can do -/

/-- Where an event leads to, as far as the child and the function are concerned. -/
inductive Leads (settings : RunSettings) (s : RunState) : ProcessEvent → RunState → Prop where
  | kept {a : ProcessEvent} {s' : RunState} (h : s.Kept s') : Leads settings s a s'
  | exits (status : ℤ) (h : s.child.exited = none) :
      Leads settings s (.exits status) { s with child := { s.child with exited := some status } }
  | noticed (h : s.child.exited.isSome) :
      Leads settings s .noticed { s with child := { s.child with returncode := s.child.exited } }
  /-- The deadline passes where it interrupts nothing. -/
  | late {s' : RunState} (htimed : settings.timed) (h : s.phase ≠ .pumping)
      (hchild : s'.child = s.child) (hphase : s'.phase = s.phase) : Leads settings s .deadline s'
  | stopping {a : ProcessEvent} {s' : RunState} (cause : Cause) (hchild : s'.child = s.child)
      (hphase : s'.phase = .stopping cause) : Leads settings s a s'
  | reaping {a : ProcessEvent} (cause : Cause) (h : s.phase = .stopping cause) :
      Leads settings s a (s.terminate cause)
  | waiting {a : ProcessEvent} {s' : RunState} (h : s.phase = .pumping)
      (hchild : s'.child = s.child) (hdeadline : s'.deadlinePassed = s.deadlinePassed)
      (hphase : s'.phase = .waiting) : Leads settings s a s'
  | returned {a : ProcessEvent} {s' : RunState} (h : s.phase = .waiting)
      (hnoticed : s.child.returncode.isSome) (hchild : s'.child = s.child) {ending : Ending}
      (hphase : s'.phase = .done ending) : Leads settings s a s'
  | reaped {a : ProcessEvent} {s' : RunState} {cause : Cause} (h : s.phase = .reaping cause)
      (hchild : s'.child = s.child ∨ s'.child = s.kill.child) {ending : Ending}
      (hphase : s'.phase = .done ending) : Leads settings s a s'
  /-- Nothing handles what a pump has raised. -/
  | raised {s' : RunState} (name : String) (h : s.phase = .pumping)
      (hgiven : settings.budgets.given = false) (hgather : s.gather = .raised (.other name))
      (hchild : s'.child = s.child) (hphase : s'.phase = .done (.raised name)) :
      Leads settings s .resume s'

/-- `_pumps_or_budget` ends, where a budget is given. -/
theorem pumped_given (hgiven : settings.budgets.given)
    (hstep : s.pumped settings.budgets = some s') :
    s' = { s with watching := false, phase := .waiting } ∨
      s.tripped ≠ [] ∧ s' = ({ s with watching := false } : RunState).stop .budget := by
  unfold RunState.pumped at hstep
  rw [if_pos hgiven] at hstep
  cases htripped : s.tripped with
  | nil =>
    left
    rw [htripped] at hstep
    cases hgather : s.gather with
    | pending => simp [hgather] at hstep
    | finished | raised e | cancelled =>
      simp only [hgather, Option.some.injEq] at hstep
      rw [← hstep]
  | cons trip tripped =>
    simp only [htripped, Option.some.injEq] at hstep
    right
    exact ⟨List.cons_ne_nil _ _, htripped ▸ hstep.symm⟩

theorem leads_pumped (h : s.phase = .pumping) (hstep : s.pumped settings.budgets = some s') :
    Leads settings s .resume s' := by
  cases hgiven : settings.budgets.given with
  | true =>
    rcases pumped_given hgiven hstep with rfl | ⟨-, rfl⟩
    · exact .waiting h rfl rfl rfl
    · exact .stopping .budget (RunState.stop_child _ _) rfl
  | false =>
    unfold RunState.pumped at hstep
    rw [hgiven, if_neg Bool.false_ne_true] at hstep
    cases hgather : s.gather with
    | pending => simp [hgather] at hstep
    | finished =>
      simp only [hgather, Option.some.injEq] at hstep
      subst hstep
      exact .waiting h rfl rfl rfl
    | raised e =>
      cases e with
      | timeoutError =>
        simp only [hgather, Option.some.injEq] at hstep
        subst hstep
        exact .stopping .deadline (RunState.stop_child _ _) rfl
      | other name =>
        simp only [hgather, Option.some.injEq] at hstep
        subst hstep
        exact .raised name h hgiven hgather rfl rfl
    | cancelled =>
      simp only [hgather, Option.some.injEq] at hstep
      subst hstep
      exact .stopping .cancelled (RunState.stop_child _ _) rfl

theorem RunState.reaped_child (s : RunState) (cause : Cause) :
    (s.reaped cause).child = s.child := by
  cases cause <;> rfl

theorem RunState.reaped_phase (s : RunState) (cause : Cause) :
    ∃ ending, (s.reaped cause).phase = .done ending := by
  cases cause <;> exact ⟨_, rfl⟩

theorem leads_resume (hstep : s.resume settings.budgets = some s') :
    Leads settings s .resume s' := by
  unfold RunState.resume at hstep
  cases hphase : s.phase with
  | pumping =>
    rw [hphase] at hstep
    exact leads_pumped hphase hstep
  | waiting =>
    simp only [hphase, guarded_eq_some] at hstep
    obtain ⟨hnoticed, rfl⟩ := hstep
    exact .returned hphase hnoticed rfl rfl
  | stopping cause =>
    simp only [hphase, Option.some.injEq] at hstep
    subst hstep
    exact .reaping cause hphase
  | reaping cause =>
    simp only [hphase, guarded_eq_some] at hstep
    obtain ⟨-, rfl⟩ := hstep
    obtain ⟨ending, hending⟩ := s.reaped_phase cause
    exact .reaped hphase (.inl (s.reaped_child cause)) hending
  | done ending => simp [hphase] at hstep

theorem leads_cancel (hstep : s.cancel = some s') : Leads settings s .cancel s' := by
  unfold RunState.cancel at hstep
  cases hphase : s.phase with
  | pumping | waiting =>
    simp only [hphase, Option.some.injEq] at hstep
    subst hstep
    exact .stopping .cancelled (s.stop_child _) rfl
  | stopping cause =>
    simp only [hphase, Option.some.injEq] at hstep
    subst hstep
    exact .reaping cause hphase
  | reaping cause =>
    cases cause with
    | budget =>
      simp only [hphase, Option.some.injEq] at hstep
      subst hstep
      exact .stopping .cancelled (s.stop_child _) rfl
    | deadline | cancelled =>
      simp only [hphase, Option.some.injEq] at hstep
      subst hstep
      exact .reaped hphase (.inl rfl) rfl
  | done ending => simp [hphase] at hstep

theorem leads_deadline (htimed : settings.timed) : Leads settings s .deadline s.deadline := by
  unfold RunState.deadline
  cases hphase : s.phase with
  | pumping => exact .stopping .deadline (RunState.stop_child _ _) rfl
  | waiting | stopping cause | reaping cause | done ending =>
    exact .late htimed (by simp [hphase]) rfl hphase.symm

theorem leads_reapRaises {e : Raised} (hstep : s.reapRaises e = some s') :
    Leads settings s (.reapRaises e) s' := by
  unfold RunState.reapRaises at hstep
  cases hphase : s.phase with
  | reaping cause =>
    cases e with
    | timeoutError =>
      simp only [hphase, Option.some.injEq] at hstep
      subst hstep
      obtain ⟨ending, hending⟩ := s.kill.reaped_phase cause
      exact .reaped hphase (.inr (s.kill.reaped_child cause)) hending
    | other name =>
      simp only [hphase, Option.some.injEq] at hstep
      subst hstep
      exact .reaped hphase (.inl rfl) rfl
  | pumping | waiting | stopping cause | done ending => simp [hphase] at hstep

/-- **What an event can do.** -/
theorem leads_of_step {a : ProcessEvent} (h : processStep settings a s = some s') :
    Leads settings s a s' := by
  obtain ⟨-, h⟩ := Option.ite_none_left_eq_some.mp h
  cases a with
  | chunk pipe bytes =>
    obtain ⟨-, rfl⟩ := guarded_eq_some.mp h
    exact .kept (s.kept_chunk _ _ _)
  | returns pump =>
    obtain ⟨-, rfl⟩ := guarded_eq_some.mp h
    exact .kept (s.kept_endPump _ _)
  | raises pump e =>
    obtain ⟨-, rfl⟩ := guarded_eq_some.mp h
    exact .kept (s.kept_endPump _ _)
  | exits status =>
    obtain ⟨hnone, rfl⟩ := guarded_eq_some.mp h
    exact .exits status (Option.isNone_iff_eq_none.mp hnone)
  | noticed =>
    obtain ⟨hexited, rfl⟩ := guarded_eq_some.mp h
    exact .noticed hexited.2
  | sample rss =>
    obtain ⟨-, rfl⟩ := guarded_eq_some.mp h
    exact .kept (s.kept_sample _ _)
  | deadline =>
    obtain ⟨htimed, rfl⟩ := guarded_eq_some.mp h
    exact leads_deadline htimed.1
  | cancel => exact leads_cancel h
  | resume => exact leads_resume h
  | reapRaises e => exact leads_reapRaises h

/-! ### The invariant -/

theorem RunState.Sound.kept (h : s.Sound) (hkept : s.Kept s') : s'.Sound := by
  obtain ⟨hchild, hdeadline, hphase⟩ := hkept
  refine ⟨?_, ?_, ?_, ?_⟩
  · rw [hchild]
    exact h.noticed
  · rw [hchild, hphase]
    exact h.unkilled
  · rw [hchild, hphase]
    exact h.stopped
  · rw [hdeadline, hphase]
    exact h.early

/-- Where the function does not wait for the child, only what it has been told of it counts. -/
theorem RunState.Sound.elsewhere (h : s.Sound)
    (hchild : s'.child = s.child ∨ s'.child = s.kill.child) (hwaits : s'.phase.waits = false) :
    s'.Sound where
  noticed := by
    rcases hchild with hchild | hchild
    · rw [hchild]
      exact h.noticed
    · rw [hchild]
      exact h.noticed
  unkilled hphase := by
    rcases hphase with hphase | hphase
    · simp [hphase, Phase.waits] at hwaits
    · simp [hphase, Phase.waits] at hwaits
  stopped cause hphase := by simp [hphase, Phase.waits] at hwaits
  early _ hphase := by simp [hphase, Phase.waits] at hwaits

theorem RunState.terminate_child (s : RunState) (cause : Cause) :
    (s.terminate cause).child = if s.child.returncode.isNone then s.kill.child else s.child := by
  unfold RunState.terminate
  split_ifs <;> rfl

theorem RunState.Sound.terminate_noticed (h : s.Sound) (cause : Cause) {status : ℤ} :
    (s.terminate cause).child.returncode = some status →
      (s.terminate cause).child.exited = some status := by
  rw [s.terminate_child]
  split_ifs
  · exact h.noticed status
  · exact h.noticed status

/-- A child that has been told of has exited. -/
theorem RunState.Sound.exited_of_noticed (h : s.Sound) (hnoticed : s.child.returncode.isSome) :
    s.child.exited.isSome := by
  obtain ⟨status, hstatus⟩ := Option.isSome_iff_exists.mp hnoticed
  exact Option.isSome_of_eq_some (h.noticed status hstatus)

theorem RunState.Sound.terminate_gone (h : s.Sound) (cause : Cause) :
    (s.terminate cause).child.Gone := by
  rw [s.terminate_child]
  split_ifs with hnone
  · exact .inr rfl
  · exact .inl (h.exited_of_noticed (by simpa [Option.isSome_iff_ne_none] using hnone))

/-- **The invariant.** -/
theorem processStep_sound {a : ProcessEvent} (h : s.Sound)
    (hstep : processStep settings a s = some s') : s'.Sound := by
  cases leads_of_step hstep with
  | kept hkept => exact h.kept hkept
  | exits status hnone =>
    refine ⟨fun told htold => ?_, h.unkilled, fun _ _ => .inl rfl, h.early⟩
    rw [h.noticed told htold] at hnone
    cases hnone
  | noticed hexited => exact ⟨fun _ htold => htold, h.unkilled, h.stopped, h.early⟩
  | late htimed hpast hchild hphase =>
    refine ⟨?_, ?_, ?_, ?_⟩
    · rw [hchild]
      exact h.noticed
    · rw [hchild, hphase]
      exact h.unkilled
    · rw [hchild, hphase]
      exact h.stopped
    · rw [hphase]
      exact fun _ => hpast
  | stopping cause hchild hphase => exact h.elsewhere (.inl hchild) (by rw [hphase]; rfl)
  | reaping cause hphase =>
    have hreaping : (s.terminate cause).phase = .reaping cause := rfl
    refine ⟨fun _ => h.terminate_noticed cause, ?_, fun _ _ => h.terminate_gone cause, ?_⟩
    · rintro (hp | hp)
      · simp [hreaping] at hp
      · simp [hreaping] at hp
    · intro _ hp
      simp [hreaping] at hp
  | waiting hpumping hchild hdeadline hphase =>
    refine ⟨?_, fun _ => ?_, ?_, ?_⟩
    · rw [hchild]
      exact h.noticed
    · rw [hchild]
      exact h.unkilled (.inl hpumping)
    · intro cause hp
      simp [hphase] at hp
    · intro _ hp
      simp [hphase] at hp
  | returned hwaiting hnoticed hchild hphase =>
    exact h.elsewhere (.inl hchild) (by rw [hphase]; rfl)
  | reaped hreaping hchild hphase => exact h.elsewhere hchild (by rw [hphase]; rfl)
  | raised name hpumping hgiven hgather hchild hphase =>
    exact h.elsewhere (.inl hchild) (by rw [hphase]; rfl)

/-! ## No child is left behind -/

/-- A function that has ended has left no child behind, and one whose deadline has passed waits for
no child that nothing stops. -/
structure NoneLeft (settings : RunSettings) (s : RunState) : Prop where
  ended : ∀ ending, s.phase = .done ending → s.child.Gone
  late : settings.timed → s.deadlinePassed → s.phase.waits → s.child.Gone

/-- The deadline does not pass while the function waits for the exit of a child that runs, after the
region which it covers, and without budgets nothing but a `TimeoutError` reaches the function from a
pump before the child has exited. -/
def Covered (settings : RunSettings) (s : RunState) : ProcessEvent → Prop
  | .deadline => settings.timed → s.phase = .waiting → s.child.exited.isSome
  | .resume => s.phase = .pumping → settings.budgets.given = false →
      ∀ name, s.gather = .raised (.other name) → s.child.exited.isSome
  | _ => True

theorem NoneLeft.init (settings : RunSettings) : NoneLeft settings (.init settings) where
  ended ending h := by simp [RunState.init] at h
  late _ h := by simp [RunState.init] at h

/-- A child that is gone. -/
theorem NoneLeft.of_gone (h : s.child.Gone) : NoneLeft settings s := ⟨fun _ _ => h, fun _ _ _ => h⟩

/-- A function that waits for its pumps to be cancelled. -/
theorem NoneLeft.of_stopping {cause : Cause} (h : s.phase = .stopping cause) :
    NoneLeft settings s := by
  refine ⟨fun ending hp => ?_, fun _ _ hw => ?_⟩
  · simp [h] at hp
  · simp [h, Phase.waits] at hw

theorem RunState.Sound.reaping (h : s.Sound) {cause : Cause} (hphase : s.phase = .reaping cause)
    (hchild : s'.child = s.child ∨ s'.child = s.kill.child) : s'.child.Gone := by
  rcases hchild with hchild | hchild
  · rw [hchild]
    exact h.stopped cause hphase
  · rw [hchild]
    exact .inr rfl

/-- The deadline passes where it interrupts nothing. -/
theorem RunState.Sound.late (h : s.Sound) (hleft : NoneLeft settings s) (htimed : settings.timed)
    (hcovered : Covered settings s .deadline) (hpast : s.phase ≠ .pumping)
    (hchild : s'.child = s.child) (hphase : s'.phase = s.phase) : NoneLeft settings s' := by
  refine ⟨?_, fun _ _ hw => ?_⟩
  · rw [hphase, hchild]
    exact hleft.ended
  · rw [hphase] at hw
    rw [hchild]
    cases hp : s.phase with
    | pumping => exact absurd hp hpast
    | waiting => exact .inl (hcovered htimed hp)
    | reaping cause => exact h.stopped cause hp
    | stopping cause => simp [hp, Phase.waits] at hw
    | done ending => simp [hp, Phase.waits] at hw

/-- Under the condition no event leaves a child behind. -/
theorem noneLeft_of_covered {a : ProcessEvent} (h : s.Sound) (hleft : NoneLeft settings s)
    (hcovered : Covered settings s a) (hstep : processStep settings a s = some s') :
    NoneLeft settings s' := by
  cases leads_of_step hstep with
  | kept hkept =>
    obtain ⟨hchild, hdeadline, hphase⟩ := hkept
    refine ⟨?_, ?_⟩
    · rw [hchild, hphase]
      exact hleft.ended
    · rw [hchild, hdeadline, hphase]
      exact hleft.late
  | exits status hnone => exact .of_gone (.inl rfl)
  | noticed hexited => exact .of_gone (.inl hexited)
  | late htimed hpast hchild hphase =>
    exact h.late hleft htimed hcovered hpast hchild hphase
  | stopping cause hchild hphase => exact .of_stopping hphase
  | reaping cause hphase => exact .of_gone (h.terminate_gone cause)
  | waiting hpumping hchild hdeadline hphase =>
    refine ⟨fun ending hp => ?_, fun _ hlate _ => ?_⟩
    · simp [hphase] at hp
    · rw [hdeadline] at hlate
      exact absurd hpumping (h.early hlate)
  | returned hwaiting hnoticed hchild hphase =>
    refine .of_gone ?_
    rw [hchild]
    exact .inl (h.exited_of_noticed hnoticed)
  | reaped hreaping hchild hphase => exact .of_gone (h.reaping hreaping hchild)
  | raised name hpumping hgiven hgather hchild hphase =>
    refine .of_gone ?_
    rw [hchild]
    exact .inl (hcovered hpumping hgiven name hgather)

/-- A child that the function waits for is gone when it has exited. -/
theorem RunState.Sound.exited (h : s.Sound) (hphase : s.phase = .pumping ∨ s.phase = .waiting)
    (hgone : s.child.Gone) : s.child.exited.isSome := by
  rcases hgone with hexited | hkilled
  · exact hexited
  · rw [h.unkilled hphase] at hkilled
    exact absurd hkilled Bool.false_ne_true

/-- Where the condition fails, a child is left behind. -/
theorem covered_of_noneLeft {a : ProcessEvent} (h : s.Sound)
    (hleft : NoneLeft settings (next (processStep settings) s a)) : Covered settings s a := by
  cases a with
  | deadline =>
    intro htimed hphase
    have hnext : (next (processStep settings) s .deadline).phase = .waiting ∧
        (next (processStep settings) s .deadline).deadlinePassed ∧
        (next (processStep settings) s .deadline).child = s.child := by
      have hgoes : s.phase.ended = false := by rw [hphase]; rfl
      by_cases hlate : s.deadlinePassed
      · have hnone : processStep settings .deadline s = none := by
          simp [processStep, hgoes, RunState.on, hlate]
        rw [next_none hnone]
        exact ⟨hphase, hlate, rfl⟩
      · have hsome : processStep settings .deadline s = some s.deadline := by
          simp [processStep, hgoes, RunState.on, hlate, htimed]
        rw [next_some hsome]
        simp [RunState.deadline, hphase]
    obtain ⟨hwaiting, hlate, hchild⟩ := hnext
    refine h.exited (.inr hphase) ?_
    rw [← hchild]
    exact hleft.late htimed hlate (by rw [hwaiting]; rfl)
  | resume =>
    intro hphase hgiven name hgather
    have hsome : processStep settings .resume s =
        some { s with phase := .done (.raised name) } := by
      simp [processStep, Phase.ended, RunState.on, RunState.resume, hphase, RunState.pumped, hgiven,
        hgather]
    rw [next_some hsome] at hleft
    exact h.exited (.inl hphase) (hleft.ended _ rfl)
  | chunk | returns | raises | exits | noticed | sample | cancel | reapRaises => exact trivial

end

/-- **When no child is left behind**: in every state of a run, if and only if every event meets the
condition in the state in which it comes. -/
theorem none_left_iff (settings : RunSettings) (σ : List ProcessEvent) :
    (∀ σ₁ σ₂, σ = σ₁ ++ σ₂ →
        NoneLeft settings (run (processStep settings) (.init settings) σ₁)) ↔
      Along (processStep settings) (Covered settings) (.init settings) σ := by
  refine holds_iff_along (fun _ _ _ => processStep_sound) (fun s a h hleft => ?_)
    (.init settings) (.init settings) σ
  refine ⟨covered_of_noneLeft h, fun hcovered => ?_⟩
  rcases next_cases (processStep settings) s a with hstep | ⟨-, hstep⟩
  · exact noneLeft_of_covered h hleft hcovered hstep
  · rw [hstep]
    exact hleft

def labTimed : RunSettings := ⟨some 1, .none⟩

/-- A child closes both pipes and goes on when the deadline passes, and one cannot be fed. -/
theorem child_left :
    ¬ NoneLeft labTimed (run (processStep labTimed) (.init labTimed)
        [.returns .feed, .returns (.drain .stdout), .returns (.drain .stderr), .resume,
          .deadline]) ∧
      ¬ NoneLeft labTimed (run (processStep labTimed) (.init labTimed)
        [.raises .feed (.other "OSError"), .resume]) := by
  constructor
  · intro h
    have hgone := h.late (by decide) (by decide) (by decide)
    exact absurd hgone (by unfold Child.Gone; decide)
  · intro h
    have hgone := h.ended (.raised "OSError") rfl
    exact absurd hgone (by unfold Child.Gone; decide)

end ScanPlatform.Tools
