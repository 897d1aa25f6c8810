import ScanPlatform.Worker.Pipeline

/-!
# Outages and refusals during a leased scan

An outage of the manager must not shorten a leased scan, and a refusal must end it before the next
tool. The loop latches the refusals of an announcement, of the raw output and of a result. It passes
over those of the images, and takes a conflict that the stop probe is answered for an outage.

* `OutagesContinueRefusalsStop`: what is promised for an execution;
* `Quiet`, `unheeded`, `Heeded`: when a refusal that the loop passes over is without effect;
* **`outagesContinueRefusalsStop_iff`**, `image_refusal_unheeded`: when the promise is kept, and an
  execution that goes on after a refusal.
-/

set_option autoImplicit false

namespace ScanPlatform

/-- The execution returns a status of the three that a worker reports; when no call is refused and
no probe says stop, every requested tool that is registered and applies is started once, in the
order of the phases; and no tool is started in a turn after one in which a call was refused. -/
structure OutagesContinueRefusalsStop (registry : String → Option Runner)
    (targetType : Option String) (requested : List String) (r : LeasedRun) : Prop where
  returns : r.status.1 ∈ [ScanStatus.completed, .completedWithErrors, .failed]
  outages : (∀ v ∈ r.visits, ¬ v.refused ∧ stopReason v.probe = none) →
    r.started.Perm ((requested.filterMap registry).filter (·.applicable targetType)) ∧
      r.started.Pairwise fun a b => a.info.phase ≤ b.info.phase
  refusals : r.visits.Pairwise fun v w => v.refused → w.ran = none

section

variable (svc : Services) (capture : List VulnerabilityFinding → Option (List (String × Bytes)))
  (job : LeasedJob) (targetType : Option String) (turns : ℕ → Turn)

/-- Of the tools that are left none is started: none applies before a probe says stop. -/
def Quiet : List (Runner × ℕ) → Prop
  | [] => True
  | (runner, i) :: rest =>
    (stopReason (turns i).probe).isSome ∨ runner.applicable targetType = false ∧ Quiet rest

/-- A refusal of the turn that the loop does not get to know: the probe is answered with a conflict,
or one of the images of the tool is refused. -/
def unheeded (runner : Runner) (turn : Turn) : Prop :=
  turn.probe = .status 409 ∨
    runner.applicable targetType = true ∧ turn.imageRefused svc capture runner = true

/-- After every such refusal no tool is left to start, or the scan ends for another refusal of the
same tool. -/
def Heeded : List (Runner × ℕ) → Prop
  | [] => True
  | (runner, i) :: rest =>
    (stopReason (turns i).probe).isSome ∨
      runner.applicable targetType = true ∧ (turns i).latches svc = true ∨
      (unheeded svc capture targetType runner (turns i) → Quiet targetType turns rest) ∧ Heeded rest

variable {svc capture job targetType turns}

/-! ## The turns of the loop -/

theorem stopReason_of_refused {probe : ProbeAnswer} (h : probe.refused = true) :
    (stopReason probe).isSome = true ∨ probe = .status 409 := by
  cases probe with
  | answered reason => cases h
  | transport => cases h
  | status code =>
    simp only [ProbeAnswer.refused, decide_eq_true_eq] at h
    rcases h with rfl | rfl | rfl
    · exact .inl rfl
    · exact .inl rfl
    · exact .inr rfl

theorem visit_skipped_refused {runner : Runner} {probe : ProbeAnswer}
    (hgo : (stopReason probe).isSome = false) :
    (Visit.mk runner probe none).refused ↔ probe = .status 409 := by
  unfold Visit.refused
  constructor
  · rintro (h | ⟨r, hr, -⟩)
    · exact (stopReason_of_refused h).resolve_left (by simp [hgo])
    · cases hr
  · rintro rfl
    exact .inl rfl

theorem visit_ran_refused {runner : Runner} {turn : Turn}
    (hgo : (stopReason turn.probe).isSome = false) (happ : runner.applicable targetType = true)
    (hlatch : turn.latches svc = false) :
    (Visit.mk runner turn.probe (some (startTool svc capture job runner turn))).refused ↔
      unheeded svc capture targetType runner turn := by
  have hcalls := (@startTool_refused svc capture job runner turn).2
  simp only [hlatch, Bool.false_eq_true, false_or] at hcalls
  unfold Visit.refused unheeded
  simp only [Option.mem_def, Option.some.injEq, exists_eq_left', hcalls, happ, true_and]
  refine or_congr_left ⟨fun h => ?_, fun h => by rw [h]; rfl⟩
  exact (stopReason_of_refused h).resolve_left (by simp [hgo])

/-- **No tool is started** in a quiet list, and only there. -/
theorem executeTools_quiet (runners : List (Runner × ℕ)) :
    (∀ w ∈ executeTools svc capture job targetType turns false runners, w.ran = none) ↔
      Quiet targetType turns runners := by
  induction runners with
  | nil => simp [executeTools, Quiet]
  | cons r rest ih =>
    obtain ⟨runner, i⟩ := r
    simp only [executeTools, Quiet, Bool.false_eq_true, if_false]
    split_ifs with hstop happ
    · simp [hstop]
    · simp [hstop, happ, ih]
    · simp [hstop, happ]

theorem executeTools_latched (runners : List (Runner × ℕ)) :
    executeTools svc capture job targetType turns true runners = [] := by
  cases runners <;> simp [executeTools]

variable (svc capture job) in
/-- What comes after a turn is quiet if that turn was refused. -/
theorem forall_executeTools_iff (p : Prop) (runners : List (Runner × ℕ)) :
    (∀ w ∈ executeTools svc capture job targetType turns false runners, p → w.ran = none) ↔
      (p → Quiet targetType turns runners) := by
  rw [← @executeTools_quiet svc capture job targetType turns runners]
  exact ⟨fun h hp w hw => h w hw hp, fun h w hw hp => h hp w hw⟩

variable (job) in
/-- **Every refusal ends the scan** if and only if those that the loop passes over are heeded. -/
theorem executeTools_heeded (runners : List (Runner × ℕ)) :
    ((executeTools svc capture job targetType turns false runners).Pairwise
      fun v w => v.refused → w.ran = none) ↔ Heeded svc capture targetType turns runners := by
  induction runners with
  | nil => simp [executeTools, Heeded]
  | cons r rest ih =>
    obtain ⟨runner, i⟩ := r
    simp only [executeTools, Heeded, Bool.false_eq_true, if_false]
    split_ifs with hstop happ
    · simp [hstop]
    · have hgo : (stopReason (turns i).probe).isSome = false := by simpa using hstop
      have hun : unheeded svc capture targetType runner (turns i) ↔
          (turns i).probe = .status 409 := by simp [unheeded, happ]
      rw [List.pairwise_cons, ih, forall_executeTools_iff, visit_skipped_refused hgo, hun]
      simp [hgo, happ]
    · have hgo : (stopReason (turns i).probe).isSome = false := by simpa using hstop
      have happ' : runner.applicable targetType = true := by simpa using happ
      simp only [hgo, happ', Bool.false_eq_true, false_or, true_and]
      rw [startTool_refused.1]
      cases hlatch : (turns i).latches svc with
      | true => simp [executeTools_latched]
      | false =>
        rw [Bool.false_or, List.pairwise_cons, ih, forall_executeTools_iff,
          visit_ran_refused hgo happ' hlatch]
        simp

/-- When nothing is refused and no probe says stop, every tool that applies is started. -/
theorem executeTools_started (runners : List (Runner × ℕ))
    (h : ∀ v ∈ executeTools svc capture job targetType turns false runners,
      ¬ v.refused ∧ stopReason v.probe = none) :
    (executeTools svc capture job targetType turns false runners).filterMap
        (fun v => v.ran.map fun _ => v.runner) =
      (runners.map Prod.fst).filter (·.applicable targetType) := by
  induction runners with
  | nil => rfl
  | cons r rest ih =>
    obtain ⟨runner, i⟩ := r
    simp only [executeTools, Bool.false_eq_true, if_false] at h ⊢
    split_ifs at h ⊢ with hstop happ
    · have hnone := (h _ List.mem_cons_self).2
      simp [hnone] at hstop
    · rw [List.filterMap_cons_none rfl, ih fun v hv => h v (List.mem_cons_of_mem _ hv)]
      simp [happ]
    · have happ' : runner.applicable targetType = true := by simpa using happ
      have hlatch : (turns i).latches svc = false := by
        by_contra hl
        refine (h _ List.mem_cons_self).1 (.inr ⟨_, rfl, ?_⟩)
        exact (@startTool_refused svc capture job runner (turns i)).2.mpr (.inl (by simpa using hl))
      rw [startTool_refused.1, hlatch, Bool.false_or] at h ⊢
      simp only [List.filterMap_cons, Option.map_some, List.map_cons, List.filter_cons, happ',
        if_true]
      rw [ih fun v hv => h v (List.mem_cons_of_mem _ hv)]

end

/-- **When outages never shorten a leased scan and refusals always do.** An outage never does
shorten it; a refusal ends it exactly when those that the loop passes over are heeded. -/
theorem outagesContinueRefusalsStop_iff (svc : Services)
    (capture : List VulnerabilityFinding → Option (List (String × Bytes))) (job : LeasedJob)
    (registry : String → Option Runner) (targetType : Option String) (requested : List String)
    (turns : ℕ → Turn) :
    OutagesContinueRefusalsStop registry targetType requested
        (executeLeasedJob svc capture job registry targetType requested turns) ↔
      Heeded svc capture targetType turns (selectRunners registry requested).zipIdx := by
  have hvisits := executeLeasedJob_visits svc capture job registry targetType requested turns
  constructor
  · intro h
    have hrefusals := h.refusals
    rw [hvisits] at hrefusals
    exact (executeTools_heeded job _).mp hrefusals
  · intro h
    refine ⟨executeLeasedJob_reported _ _ _ _ _ _ _, fun hall => ?_, ?_⟩
    · rw [hvisits] at hall
      have hstarted := executeTools_started _ hall
      rw [List.zipIdx_map_fst, ← hvisits] at hstarted
      change LeasedRun.started _ = _ at hstarted
      rw [hstarted]
      exact ⟨(selectRunners_perm registry requested).filter _,
        (selectRunners_sorted registry requested).filter _⟩
    · rw [hvisits]
      exact (executeTools_heeded job _).mpr h

/-- A tool that always finds the same vulnerability. -/
def oneFinding (name : String) (phase : ℕ) : Runner where
  info := ⟨name, "3.11.0", true, phase, none⟩
  benignExitCodes := []
  hardFailure _ := false
  parse _ := some []
  parseVulnerabilities _ :=
    some [⟨"t||http://h/a", "t", "high", none, none, none, none, some "http://h/a", []⟩]

def twoTools (name : String) : Option Runner :=
  if name = "nuclei" then some (oneFinding "nuclei" 50)
  else if name = "nuclei-dast" then some (oneFinding "nuclei-dast" 55)
  else none

/-- The manager accepts the submissions of a tool and refuses its image. -/
def refusedImage : Turn where
  toolRunId := 9
  startedAt := 10
  probe := .answered none
  run := .ok ⟨"nuclei -u http://h", "found", "", 0, false⟩
  started := .ok ()
  evidence := .ok ()
  result := .ok ()
  screenshots := [.error (.status 403)]

def oneImage (findings : List VulnerabilityFinding) : Option (List (String × Bytes)) :=
  some (findings.map fun f => (f.fingerprint, [137, 80, 78, 71]))

def twoToolsRun : LeasedRun :=
  executeLeasedJob (.ascii [] fun _ _ => none) oneImage ⟨5, 7⟩ twoTools (some "domain")
    ["nuclei", "nuclei-dast"] fun _ => refusedImage

/-- **A refusal that is not heeded.** The manager refuses the image of the first tool, and the
second tool is started. -/
theorem image_refusal_unheeded :
    twoToolsRun.started.map (·.info.name) = ["nuclei", "nuclei-dast"] ∧
      ¬ OutagesContinueRefusalsStop twoTools (some "domain") ["nuclei", "nuclei-dast"]
        twoToolsRun := by
  refine ⟨by decide, fun h => ?_⟩
  have hrefusals := h.refusals
  unfold twoToolsRun at hrefusals
  rw [executeLeasedJob_visits, executeTools_heeded] at hrefusals
  have hsel : selectRunners twoTools ["nuclei", "nuclei-dast"] =
      [oneFinding "nuclei" 50, oneFinding "nuclei-dast" 55] := rfl
  rw [hsel] at hrefusals
  rcases hrefusals with hstop | ⟨-, hlatch⟩ | ⟨hquiet, -⟩
  · cases hstop
  · revert hlatch
    decide
  · rcases hquiet (.inr ⟨rfl, by decide⟩) with hstop | ⟨happ, -⟩
    · cases hstop
    · cases happ

end ScanPlatform
