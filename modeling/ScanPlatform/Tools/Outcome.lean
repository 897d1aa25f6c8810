import ScanPlatform.Tools.Process

/-!
# What a call of a tool reports

A call of `run_with_timeout` with a byte budget and a line budget on the output, seen from its end:
what it returns of the child, of the limits, and of what the child has written.

* `stateAfter`, `readOf`, `closedBy`, `Overran`: a call, what it has read, and whether it was late;
* `RunState.Told`, **`returned_cases`**: the three ways to return;
* `RunState.Reads`, **`stdout_begins`**: what is kept of the output.
-/

set_option autoImplicit false

namespace ScanPlatform.Tools

open CondMachine

variable (settings : RunSettings)

/-! ## A call -/

/-- The call after some events. -/
def stateAfter (σ : List ProcessEvent) : RunState :=
  run (processStep settings) (.init settings) σ

/-- The events that took effect. -/
def effective (σ : List ProcessEvent) : List ProcessEvent :=
  taken (processStep settings) (.init settings) σ

def ProcessEvent.output : ProcessEvent → Option Bytes
  | .chunk .stdout bytes => some bytes
  | _ => none

/-- What has been read of the output. -/
def readOf (σ : List ProcessEvent) : Bytes :=
  ((effective settings σ).filterMap ProcessEvent.output).flatten

def ProcessEvent.closesOutput : ProcessEvent → Bool
  | .returns (.drain .stdout) => true
  | _ => false

/-- The output has been read to its end. -/
def closedBy (σ : List ProcessEvent) : Bool :=
  (effective settings σ).any ProcessEvent.closesOutput

/-- The deadline has passed while the pumps ran, or before the child had exited. -/
def Overran (σ : List ProcessEvent) : Prop :=
  ∃ σ₁ σ₂, σ = σ₁ ++ .deadline :: σ₂ ∧
    (processStep settings .deadline (stateAfter settings σ₁)).isSome ∧
    ((stateAfter settings σ₁).phase = .pumping ∨ (stateAfter settings σ₁).child.exited = none)

section

variable {settings : RunSettings} {s s' : RunState} {a : ProcessEvent} {σ : List ProcessEvent}

theorem Overran.concat (h : Overran settings σ) (a : ProcessEvent) :
    Overran settings (σ ++ [a]) := by
  obtain ⟨σ₁, σ₂, rfl, hdeadline⟩ := h
  exact ⟨σ₁, σ₂ ++ [a], by simp, hdeadline⟩

/-! ## The ways to return -/

/-- What is reported of a child that the function has waited for, of one that has exceeded a
budget, and of a late one. -/
def RunState.Reports (late : Prop) (s : RunState) (r : TimedRun) : Prop :=
  r = s.timedRun false false ∧ s.child.returncode.isSome ∨
    r = s.timedRun false true ∧ s.tripped ≠ [] ∨
    r = s.timedRun true false ∧ late

/-- Why a child is stopped, and what is reported of it. -/
structure RunState.Told (late : Prop) (s : RunState) : Prop where
  budget : s.phase = .stopping .budget ∨ s.phase = .reaping .budget → s.tripped ≠ []
  deadline : s.phase = .stopping .deadline ∨ s.phase = .reaping .deadline → late
  returned : ∀ r, s.phase = .done (.returned r) → s.Reports late r

variable {late : Prop}

theorem RunState.Told.init (settings : RunSettings) : (RunState.init settings).Told late where
  budget h := by simp [RunState.init] at h
  deadline h := by simp [RunState.init] at h
  returned r h := by simp [RunState.init] at h

/-- The function stays where it is. -/
theorem RunState.Told.quiet (h : s.Told late) (hphase : s'.phase = s.phase)
    (hgoes : s.phase.ended = false) (htripped : s.tripped ≠ [] → s'.tripped ≠ []) :
    s'.Told late where
  budget hp := htripped (h.budget (hphase ▸ hp))
  deadline hp := h.deadline (hphase ▸ hp)
  returned r hp := by
    rw [← hphase, hp] at hgoes
    cases hgoes

theorem RunState.Told.mono {late' : Prop} (h : s.Told late) (hlate : late → late') :
    s.Told late' where
  budget := h.budget
  deadline hp := hlate (h.deadline hp)
  returned r hp := (h.returned r hp).imp id fun hr => hr.imp id (And.imp id hlate)

/-- The child is stopped for a reason. -/
theorem RunState.Told.stopping {cause : Cause} (hphase : s.phase = .stopping cause)
    (hbudget : cause = .budget → s.tripped ≠ []) (hdeadline : cause = .deadline → late) :
    s.Told late := by
  refine ⟨fun hp => ?_, fun hp => ?_, fun r hp => ?_⟩
  · refine hbudget ?_
    simpa [hphase] using hp
  · refine hdeadline ?_
    simpa [hphase] using hp
  · simp [hphase] at hp

@[simp] theorem RunState.stop_tripped (s : RunState) (cause : Cause) :
    (s.stop cause).tripped = s.tripped := by
  unfold RunState.stop RunState.cancelPumps
  cases s.gather <;> rfl

theorem RunState.Told.stop {cause : Cause} (hbudget : cause = .budget → s.tripped ≠ [])
    (hdeadline : cause = .deadline → late) : (s.stop cause).Told late := by
  refine .stopping rfl ?_ hdeadline
  rw [s.stop_tripped]
  exact hbudget

/-- The pumps have been stopped. -/
theorem RunState.Told.terminate (h : s.Told late) {cause : Cause}
    (hphase : s.phase = .stopping cause) : (s.terminate cause).Told late := by
  have hreaping : (s.terminate cause).phase = .reaping cause := rfl
  have htripped : (s.terminate cause).tripped = s.tripped := by
    unfold RunState.terminate
    split_ifs <;> rfl
  refine ⟨fun hp => ?_, fun hp => ?_, fun r hp => ?_⟩
  · rw [htripped]
    refine h.budget (.inl ?_)
    simpa [hreaping, hphase] using hp
  · refine h.deadline (.inl ?_)
    simpa [hreaping, hphase] using hp
  · simp [hreaping] at hp

/-- The function ends without a result. -/
theorem RunState.Told.ended {ending : Ending} (hphase : s.phase = .done ending)
    (hnone : ∀ r, ending ≠ .returned r) : s.Told late := by
  refine ⟨fun hp => ?_, fun hp => ?_, fun r hp => ?_⟩
  · simp [hphase] at hp
  · simp [hphase] at hp
  · rw [hphase] at hp
    exact absurd (Phase.done.inj hp) (hnone r)

/-- The function returns. -/
theorem RunState.Told.returns {r : TimedRun} (hphase : s.phase = .done (.returned r))
    (hr : s.Reports late r) : s.Told late := by
  refine ⟨fun hp => ?_, fun hp => ?_, fun r' hp => ?_⟩
  · simp [hphase] at hp
  · simp [hphase] at hp
  · rw [hphase] at hp
    obtain rfl := Ending.returned.inj (Phase.done.inj hp)
    exact hr

/-- The child has been reaped, in a state that reports the same. -/
theorem RunState.Told.reaped (h : s.Told late) {cause : Cause} (hphase : s.phase = .reaping cause)
    (htripped : s'.tripped = s.tripped) : (s'.reaped cause).Told late := by
  cases cause with
  | budget =>
    have hdone : (s'.reaped .budget).phase = .done (.returned (s'.timedRun false true)) := rfl
    refine .returns hdone (.inr (.inl ⟨rfl, ?_⟩))
    rw [show (s'.reaped .budget).tripped = s.tripped from htripped]
    exact h.budget (.inr hphase)
  | deadline =>
    have hdone : (s'.reaped .deadline).phase = .done (.returned (s'.timedRun true false)) := rfl
    exact .returns hdone (.inr (.inr ⟨rfl, h.deadline (.inr hphase)⟩))
  | cancelled =>
    have hdone : (s'.reaped .cancelled).phase = .done .cancelled := rfl
    exact .ended hdone fun r h => by cases h

theorem RunState.chunk_tripped (s : RunState) (budgets : Budgets) (pipe : Pipe) (bytes : Bytes)
    (h : s.tripped ≠ []) : (s.chunk budgets pipe bytes).tripped ≠ [] := by
  have hset : ∀ d, (s.setDrain d pipe).tripped = s.tripped := by
    intro d
    cases pipe <;> rfl
  unfold RunState.chunk
  dsimp only
  split
  · simp [RunState.endPump]
  · rw [hset]
    exact h

theorem RunState.sample_tripped (s : RunState) (maxRssBytes rss : Option ℕ) (h : s.tripped ≠ []) :
    (s.sample maxRssBytes rss).tripped ≠ [] := by
  unfold RunState.sample
  split_ifs
  · exact h
  · cases rss with
    | none => exact h
    | some rss =>
      dsimp only
      split_ifs
      · simp
      · exact h

theorem RunState.Told.pumped (hgiven : settings.budgets.given)
    (hstep : s.pumped settings.budgets = some s') : s'.Told late := by
  rcases pumped_given hgiven hstep with rfl | ⟨htripped, rfl⟩
  · refine ⟨fun hp => ?_, fun hp => ?_, fun r hp => ?_⟩
    · simp at hp
    · simp at hp
    · simp at hp
  · refine .stop (fun _ => htripped) (fun h => ?_)
    cases h

theorem RunState.Told.resume (hgiven : settings.budgets.given) (h : s.Told late)
    (hstep : s.resume settings.budgets = some s') : s'.Told late := by
  unfold RunState.resume at hstep
  cases hphase : s.phase with
  | pumping =>
    rw [hphase] at hstep
    exact .pumped hgiven hstep
  | waiting =>
    simp only [hphase, guarded_eq_some] at hstep
    obtain ⟨hnoticed, rfl⟩ := hstep
    exact .returns rfl (.inl ⟨rfl, hnoticed⟩)
  | stopping cause =>
    simp only [hphase, Option.some.injEq] at hstep
    subst hstep
    exact h.terminate hphase
  | reaping cause =>
    simp only [hphase, guarded_eq_some] at hstep
    obtain ⟨-, rfl⟩ := hstep
    exact h.reaped hphase rfl
  | done ending => simp [hphase] at hstep

theorem RunState.Told.cancel (h : s.Told late) (hstep : s.cancel = some s') : s'.Told late := by
  have hstop : (s.stop .cancelled).Told late := .stop (fun h => by cases h) (fun h => by cases h)
  unfold RunState.cancel at hstep
  cases hphase : s.phase with
  | pumping | waiting =>
    simp only [hphase, Option.some.injEq] at hstep
    exact hstep ▸ hstop
  | stopping cause =>
    simp only [hphase, Option.some.injEq] at hstep
    subst hstep
    exact h.terminate hphase
  | reaping cause =>
    cases cause with
    | budget =>
      simp only [hphase, Option.some.injEq] at hstep
      exact hstep ▸ hstop
    | deadline | cancelled =>
      simp only [hphase, Option.some.injEq] at hstep
      subst hstep
      exact .ended rfl fun r h => by cases h
  | done ending => simp [hphase] at hstep

theorem RunState.Told.reapRaises (h : s.Told late) {e : Raised}
    (hstep : s.reapRaises e = some s') : s'.Told late := by
  unfold RunState.reapRaises at hstep
  cases hphase : s.phase with
  | reaping cause =>
    cases e with
    | timeoutError =>
      simp only [hphase, Option.some.injEq] at hstep
      subst hstep
      exact h.reaped hphase rfl
    | other name =>
      simp only [hphase, Option.some.injEq] at hstep
      subst hstep
      exact .ended rfl fun r h => by cases h
  | pumping | waiting | stopping cause | done ending => simp [hphase] at hstep

theorem RunState.Told.deadline_passes (h : s.Told late) (hgoes : s.phase.ended = false)
    (hlate : s.phase = .pumping → late) : s.deadline.Told late := by
  unfold RunState.deadline
  cases hphase : s.phase with
  | pumping => exact .stop (fun h => by cases h) fun _ => hlate hphase
  | waiting | stopping cause | reaping cause | done ending =>
    exact h.quiet hphase.symm hgoes fun h => h

/-- **One event**: where it lets the function return, it has a reason. -/
theorem told_step (hgiven : settings.budgets.given) (h : s.Told late)
    (hlate : a = .deadline → s.phase = .pumping → late)
    (hstep : processStep settings a s = some s') : s'.Told late := by
  obtain ⟨hgoes, hstep⟩ := Option.ite_none_left_eq_some.mp hstep
  have hgoes : s.phase.ended = false := by simpa using hgoes
  cases a with
  | chunk pipe bytes =>
    obtain ⟨-, rfl⟩ := guarded_eq_some.mp hstep
    exact h.quiet (s.kept_chunk _ _ _).phase hgoes (s.chunk_tripped _ _ _)
  | returns pump =>
    obtain ⟨-, rfl⟩ := guarded_eq_some.mp hstep
    exact h.quiet rfl hgoes fun h => h
  | raises pump e =>
    obtain ⟨-, rfl⟩ := guarded_eq_some.mp hstep
    exact h.quiet rfl hgoes fun h => h
  | exits status =>
    obtain ⟨-, rfl⟩ := guarded_eq_some.mp hstep
    exact h.quiet rfl hgoes fun h => h
  | noticed =>
    obtain ⟨-, rfl⟩ := guarded_eq_some.mp hstep
    exact h.quiet rfl hgoes fun h => h
  | sample rss =>
    obtain ⟨-, rfl⟩ := guarded_eq_some.mp hstep
    exact h.quiet (s.kept_sample _ _).phase hgoes (s.sample_tripped _ _)
  | deadline =>
    obtain ⟨-, rfl⟩ := guarded_eq_some.mp hstep
    exact h.deadline_passes hgoes (hlate rfl)
  | cancel => exact h.cancel hstep
  | resume => exact h.resume hgiven hstep
  | reapRaises e => exact h.reapRaises hstep

theorem stateAfter_told (hgiven : settings.budgets.given) (σ : List ProcessEvent) :
    (stateAfter settings σ).Told (Overran settings σ) := by
  induction σ using List.reverseRecOn with
  | nil => exact .init settings
  | append_singleton σ a ih =>
    have hσ := ih.mono fun h => h.concat a
    unfold stateAfter at hσ ⊢
    rw [run_concat]
    rcases next_cases (processStep settings) (run (processStep settings) (.init settings) σ) a
      with hstep | ⟨-, hstep⟩
    · refine told_step hgiven hσ (fun ha hp => ?_) hstep
      subst ha
      exact ⟨σ, [], rfl, Option.isSome_of_eq_some hstep, .inl hp⟩
    · rw [hstep]
      exact hσ

/-- **The ways to return**, where a budget is given. -/
theorem returned_cases (hgiven : settings.budgets.given) {r : TimedRun}
    (h : (stateAfter settings σ).phase = .done (.returned r)) :
    (stateAfter settings σ).Reports (Overran settings σ) r :=
  (stateAfter_told hgiven σ).returned r h

theorem stateAfter_sound (settings : RunSettings) (σ : List ProcessEvent) :
    (stateAfter settings σ).Sound :=
  run_invariant (fun _ _ _ => processStep_sound) (.init settings) σ

/-! ## What is kept of the output -/

variable {cap lineCap : ℕ} {all : Bytes}

/-- What is kept is the beginning of what has been read, and all of it while the pump runs. -/
structure RunState.Reads (cap lineCap : ℕ) (all : Bytes) (s : RunState) : Prop where
  kept : s.stdout.output <+: all
  reading : .drain .stdout ∈ s.running → s.stdout.Reading cap lineCap all

theorem RunState.Reads.init (settings : RunSettings) (hcap : 0 < cap) (hlines : 0 < lineCap) :
    (RunState.init settings).Reads cap lineCap [] :=
  ⟨List.nil_prefix, fun _ => .init hcap hlines⟩

/-- Nothing of the output is read, and no pump begins. -/
structure RunState.Quiet (s s' : RunState) : Prop where
  stdout : s'.stdout = s.stdout
  running : ∀ pump ∈ s'.running, pump ∈ s.running

theorem RunState.Reads.quiet (h : s.Reads cap lineCap all) (hquiet : s.Quiet s') :
    s'.Reads cap lineCap all := by
  refine ⟨hquiet.stdout ▸ h.kept, fun hmem => ?_⟩
  rw [hquiet.stdout]
  exact h.reading (hquiet.running _ hmem)

theorem RunState.quiet_endPump (s : RunState) (pump : Pump) (raised : Option Raised) :
    s.Quiet (s.endPump pump raised) := ⟨rfl, fun _ hmem => (List.mem_filter.mp hmem).1⟩

theorem RunState.quiet_chunk (s : RunState) (budgets : Budgets) (bytes : Bytes) :
    s.Quiet (s.chunk budgets .stderr bytes) := by
  unfold RunState.chunk
  dsimp only
  split
  · exact ⟨rfl, fun _ hmem => (List.mem_filter.mp hmem).1⟩
  · exact ⟨rfl, fun _ hmem => hmem⟩

theorem RunState.quiet_sample (s : RunState) (maxRssBytes rss : Option ℕ) :
    s.Quiet (s.sample maxRssBytes rss) := by
  unfold RunState.sample
  split_ifs
  · exact ⟨rfl, fun _ hmem => hmem⟩
  · cases rss with
    | none => exact ⟨rfl, fun _ hmem => hmem⟩
    | some rss =>
      dsimp only
      split_ifs <;> exact ⟨rfl, fun _ hmem => hmem⟩

theorem RunState.quiet_stop (s : RunState) (cause : Cause) : s.Quiet (s.stop cause) := by
  unfold RunState.stop RunState.cancelPumps
  cases s.gather with
  | pending => exact ⟨rfl, fun _ hmem => absurd hmem List.not_mem_nil⟩
  | finished | raised | cancelled => exact ⟨rfl, fun _ hmem => hmem⟩

theorem RunState.quiet_terminate (s : RunState) (cause : Cause) : s.Quiet (s.terminate cause) := by
  unfold RunState.terminate
  split_ifs <;> exact ⟨rfl, fun _ hmem => hmem⟩

theorem RunState.quiet_reaped (s : RunState) (cause : Cause) : s.Quiet (s.reaped cause) := by
  cases cause <;> exact ⟨rfl, fun _ hmem => hmem⟩

theorem RunState.quiet_pumped {budgets : Budgets} (hstep : s.pumped budgets = some s') :
    s.Quiet s' := by
  unfold RunState.pumped at hstep
  split at hstep
  · split at hstep
    · cases hstep
    · exact Option.some.inj hstep ▸ ⟨rfl, fun _ hmem => hmem⟩
    · have hquiet := RunState.quiet_stop { s with watching := false } .budget
      exact Option.some.inj hstep ▸ ⟨hquiet.stdout, hquiet.running⟩
  · split at hstep
    · cases hstep
    · exact Option.some.inj hstep ▸ ⟨rfl, fun _ hmem => hmem⟩
    · exact Option.some.inj hstep ▸ s.quiet_stop _
    · exact Option.some.inj hstep ▸ ⟨rfl, fun _ hmem => hmem⟩
    · exact Option.some.inj hstep ▸ s.quiet_stop _

theorem RunState.quiet_resume {budgets : Budgets} (hstep : s.resume budgets = some s') :
    s.Quiet s' := by
  unfold RunState.resume at hstep
  split at hstep
  · exact RunState.quiet_pumped hstep
  · obtain ⟨-, rfl⟩ := guarded_eq_some.mp hstep
    exact ⟨rfl, fun _ hmem => hmem⟩
  · exact Option.some.inj hstep ▸ s.quiet_terminate _
  · obtain ⟨-, rfl⟩ := guarded_eq_some.mp hstep
    exact s.quiet_reaped _
  · cases hstep

theorem RunState.quiet_cancel (hstep : s.cancel = some s') : s.Quiet s' := by
  unfold RunState.cancel at hstep
  split at hstep
  · exact Option.some.inj hstep ▸ s.quiet_stop _
  · exact Option.some.inj hstep ▸ s.quiet_stop _
  · exact Option.some.inj hstep ▸ s.quiet_terminate _
  · exact Option.some.inj hstep ▸ s.quiet_stop _
  · exact Option.some.inj hstep ▸ ⟨rfl, fun _ hmem => hmem⟩
  · exact Option.some.inj hstep ▸ ⟨rfl, fun _ hmem => hmem⟩
  · cases hstep

theorem RunState.quiet_deadline (s : RunState) : s.Quiet s.deadline := by
  unfold RunState.deadline
  dsimp only
  split
  · have hquiet := RunState.quiet_stop { s with deadlinePassed := true } .deadline
    exact ⟨hquiet.stdout, hquiet.running⟩
  all_goals exact ⟨rfl, fun _ hmem => hmem⟩

theorem RunState.quiet_reapRaises {e : Raised} (hstep : s.reapRaises e = some s') :
    s.Quiet s' := by
  unfold RunState.reapRaises at hstep
  split at hstep
  · split at hstep
    · have hquiet := s.kill.quiet_reaped
      exact Option.some.inj hstep ▸ ⟨(hquiet _).stdout, (hquiet _).running⟩
    · exact Option.some.inj hstep ▸ ⟨rfl, fun _ hmem => hmem⟩
  all_goals cases hstep

/-- A chunk of the output. -/
theorem RunState.Reads.chunk (h : s.Reads cap lineCap all) {budgets : Budgets}
    (hbudget : budgets.of .stdout = ⟨some cap, some lineCap⟩)
    (hrunning : .drain .stdout ∈ s.running) (bytes : Bytes) :
    (s.chunk budgets .stdout bytes).Reads cap lineCap (all ++ bytes) := by
  have hreading := h.reading hrunning
  have hprefix : ∀ n, (all ++ bytes).take n <+: all ++ bytes :=
    fun n => List.take_prefix n _
  unfold RunState.chunk
  simp only [hbudget, RunState.drainOf]
  by_cases hin : lineCap ≤ all.countP isNewline + bytes.countP isNewline
  · obtain ⟨e, -, -, houtput, htripped⟩ := hreading.chunk_lines hin
    rw [htripped]
    refine ⟨?_, fun hmem => ?_⟩
    · exact houtput ▸ hprefix _
    · simp [RunState.endPump, RunState.setDrain] at hmem
  · have hbytes := hreading.chunk_bytes hin
    by_cases hfull : cap ≤ all.length + bytes.length
    · rw [if_pos hfull] at hbytes
      obtain ⟨houtput, htripped⟩ := hbytes
      rw [htripped]
      refine ⟨?_, fun hmem => ?_⟩
      · exact houtput ▸ hprefix _
      · simp [RunState.endPump, RunState.setDrain] at hmem
    · rw [if_neg hfull] at hbytes
      rw [hbytes.tripped]
      exact ⟨hbytes.output ▸ List.prefix_refl _, fun _ => hbytes⟩

/-- **One event**: what is read is kept as far as the budgets allow. -/
theorem reads_step (hbudget : settings.budgets.of .stdout = ⟨some cap, some lineCap⟩)
    (h : s.Reads cap lineCap all) (hstep : processStep settings a s = some s') :
    s'.Reads cap lineCap (all ++ a.output.getD []) := by
  obtain ⟨-, hstep⟩ := Option.ite_none_left_eq_some.mp hstep
  have hquiet : s.Quiet s' → s'.Reads cap lineCap (all ++ []) := by
    rw [List.append_nil]
    exact h.quiet
  cases a with
  | chunk pipe bytes =>
    obtain ⟨hrunning, rfl⟩ := guarded_eq_some.mp hstep
    cases pipe with
    | stdout => exact h.chunk hbudget hrunning.1 bytes
    | stderr => exact hquiet (s.quiet_chunk _ _)
  | returns pump =>
    obtain ⟨-, rfl⟩ := guarded_eq_some.mp hstep
    exact hquiet (s.quiet_endPump _ _)
  | raises pump e =>
    obtain ⟨-, rfl⟩ := guarded_eq_some.mp hstep
    exact hquiet (s.quiet_endPump _ _)
  | exits status =>
    obtain ⟨-, rfl⟩ := guarded_eq_some.mp hstep
    exact hquiet ⟨rfl, fun _ hmem => hmem⟩
  | noticed =>
    obtain ⟨-, rfl⟩ := guarded_eq_some.mp hstep
    exact hquiet ⟨rfl, fun _ hmem => hmem⟩
  | sample rss =>
    obtain ⟨-, rfl⟩ := guarded_eq_some.mp hstep
    exact hquiet (s.quiet_sample _ _)
  | deadline =>
    obtain ⟨-, rfl⟩ := guarded_eq_some.mp hstep
    exact hquiet s.quiet_deadline
  | cancel => exact hquiet (RunState.quiet_cancel hstep)
  | resume => exact hquiet (RunState.quiet_resume hstep)
  | reapRaises e => exact hquiet (RunState.quiet_reapRaises hstep)

theorem stateAfter_reads (hbudget : settings.budgets.of .stdout = ⟨some cap, some lineCap⟩)
    (hcap : 0 < cap) (hlines : 0 < lineCap) (σ : List ProcessEvent) :
    (stateAfter settings σ).Reads cap lineCap (readOf settings σ) := by
  induction σ using List.reverseRecOn with
  | nil => exact .init settings hcap hlines
  | append_singleton σ a ih =>
    unfold stateAfter readOf effective at ih ⊢
    rw [run_concat]
    rcases next_cases (processStep settings) (run (processStep settings) (.init settings) σ) a
      with hstep | ⟨hnone, hstep⟩
    · have hread := reads_step hbudget ih hstep
      have hlast : (List.filterMap ProcessEvent.output [a]).flatten = a.output.getD [] := by
        cases houtput : a.output <;> simp [houtput]
      rw [taken_concat_some hstep, List.filterMap_append, List.flatten_append, hlast]
      exact hread
    · rw [hstep, taken_concat_none hnone]
      exact ih

/-- **What is kept of the output** is the beginning of what has been read. -/
theorem stdout_begins (hbudget : settings.budgets.of .stdout = ⟨some cap, some lineCap⟩)
    (hcap : 0 < cap) (hlines : 0 < lineCap) (σ : List ProcessEvent) :
    (stateAfter settings σ).stdout.output <+: readOf settings σ :=
  (stateAfter_reads hbudget hcap hlines σ).kept

end

end ScanPlatform.Tools
