import ScanPlatform.Agent.Engagement
import ScanPlatform.Base.Trace

/-!
# Cancellation of an engagement

The stop check of the decision loop leaves the loop when the scan is cancelled; the round that the
loop belongs to goes on.

* `Stopped`, `Starts`, `StopsRespected`: nothing is started after a stop has been observed;
* `NothingToAttempt`, `IdleAfterStop`: the exploitation phase has nothing to attempt then;
* **`stops_respected_iff`**: stops are respected exactly when the phase has nothing to attempt.
-/

set_option autoImplicit false

namespace ScanPlatform

open Loop Trace

/-- A stop check has observed that the scan is no longer the running scan of this execution. -/
def Stopped (trace : List AgentEvent) : Prop := ∃ stop, .checked (some stop) ∈ trace

/-- The event starts a tool run or an exploitation attempt. -/
def Starts : AgentEvent → Prop
  | .toolRun _ | .attempted _ => True
  | .checked _ | .decided _ _ | .exploitation _ => False

/-- Nothing is started after a stop has been observed. -/
def StopsRespected (trace : List AgentEvent) : Prop :=
  Always (fun before e => Starts e → ¬ Stopped before) trace

/-- No module may attempt one of the findings: none applies, or the host is not approved, or the
safety gate refuses. -/
def NothingToAttempt (x : EngagementContext) (findings : List ExploitFinding) : Prop :=
  ∀ roe approved, fromConfig x.settings x.config = .ok roe →
    approvedHosts x.config = .ok approved →
      ∀ v ∈ findings, ∀ m ∈ exploitRegistry, ¬ Attemptable x roe approved v m

/-- An exploitation phase after an observed stop has nothing to attempt. -/
def IdleAfterStop (x : EngagementContext) (trace : List AgentEvent) : Prop :=
  Always (fun before e => ∀ findings, e = .exploitation findings → Stopped before →
    NothingToAttempt x findings) trace

section

variable {x : EngagementContext} {roe : RulesOfEngagement} {tr new : List AgentEvent}

theorem stopped_append : Stopped (tr ++ new) ↔ Stopped tr ∨ Stopped new := by
  simp only [Stopped, List.mem_append, exists_or]

/-- Both hold, or neither does. -/
def Agrees (x : EngagementContext) (tr : List AgentEvent) : Prop :=
  StopsRespected tr ∧ IdleAfterStop x tr ∨ ¬ StopsRespected tr ∧ ¬ IdleAfterStop x tr

theorem Agrees.iff (h : Agrees x tr) : StopsRespected tr ↔ IdleAfterStop x tr := by
  rcases h with ⟨h₁, h₂⟩ | ⟨h₁, h₂⟩
  · exact iff_of_true h₁ h₂
  · exact iff_of_false h₁ h₂

/-- No stop has been observed, or something has gone wrong. -/
def Running (x : EngagementContext) (tr : List AgentEvent) : Prop :=
  ¬ Stopped tr ∨ ¬ StopsRespected tr ∧ ¬ IdleAfterStop x tr

/-- Before a stop has been observed, both hold. -/
theorem respected_of_not_stopped (h : ¬ Stopped tr) : StopsRespected tr ∧ IdleAfterStop x tr := by
  have hbefore : ∀ {before e after}, tr = before ++ e :: after → ¬ Stopped before := by
    rintro before e after rfl hstop
    exact h (stopped_append.mpr (.inl hstop))
  exact ⟨fun _ _ _ heq _ => hbefore heq, fun _ _ _ heq _ _ hstop => (hbefore heq hstop).elim⟩

theorem Running.agrees (h : Running x tr) : Agrees x tr := by
  rcases h with h | h
  · exact .inl (respected_of_not_stopped h)
  · exact .inr h

/-- What has gone wrong stays so. -/
theorem wrong_append (h : ¬ StopsRespected tr ∧ ¬ IdleAfterStop x tr) :
    ¬ StopsRespected (tr ++ new) ∧ ¬ IdleAfterStop x (tr ++ new) :=
  ⟨fun hall => h.1 hall.of_append, fun hall => h.2 hall.of_append⟩

theorem Running.append (h : Running x tr) (hnew : ¬ Stopped new) : Running x (tr ++ new) := by
  rcases h with h | h
  · exact .inl fun hstop => (stopped_append.mp hstop).elim h hnew
  · exact .inr (wrong_append h)

/-- A stop check is no start. -/
theorem Running.checked (h : Running x tr) (stop : Option StopReason) :
    Agrees x (tr ++ [.checked stop]) := by
  rcases h with h | h
  · obtain ⟨hrespected, hidle⟩ := respected_of_not_stopped (x := x) h
    exact .inl ⟨always_concat.mpr ⟨hrespected, fun hstarts => hstarts.elim⟩,
      always_concat.mpr ⟨hidle, fun _ heq => by cases heq⟩⟩
  · exact .inr (wrong_append h)

/-! ## The exploitation phase -/

variable {approved : List String} {findings : List ExploitFinding}

theorem phaseResults_eq_nil_iff (hroe : fromConfig x.settings x.config = .ok roe)
    (happroved : approvedHosts x.config = .ok approved) :
    phaseResults x roe approved findings = [] ↔ NothingToAttempt x findings := by
  have hpairs : phaseResults x roe approved findings = [] ↔
      ∀ v ∈ findings, ∀ m ∈ exploitRegistry, ¬ Attemptable x roe approved v m := by
    constructor
    · intro h v hv m hm hattempt
      have hpair : (v, m) ∈ findings.flatMap fun v => exploitRegistry.map fun m => (v, m) :=
        List.mem_flatMap.mpr ⟨v, hv, List.mem_map.mpr ⟨m, hm, rfl⟩⟩
      have hmem : m.attempt x.redacted x.targetValue v ∈ phaseResults x roe approved findings :=
        List.mem_flatMap.mpr ⟨(v, m), hpair, by simp [attemptResults, hattempt]⟩
      rw [h] at hmem
      cases hmem
    · intro h
      refine List.flatMap_eq_nil_iff.mpr fun pair hpair => ?_
      obtain ⟨v, hv, hm⟩ := List.mem_flatMap.mp hpair
      obtain ⟨m, hmodule, rfl⟩ := List.mem_map.mp hm
      exact if_neg (h v hv m hmodule)
  rw [hpairs]
  constructor
  · intro h roe' approved' hroe' happroved'
    obtain rfl : roe = roe' := Except.ok.inj (hroe.symm.trans hroe')
    obtain rfl : approved = approved' := Except.ok.inj (happroved.symm.trans happroved')
    exact h
  · exact fun h => h roe approved hroe happroved

/-- The phase respects a stop exactly when it has nothing to attempt. -/
theorem Agrees.exploited (hroe : fromConfig x.settings x.config = .ok roe)
    (happroved : approvedHosts x.config = .ok approved) (h : Agrees x tr)
    (hstop : Stopped tr) : Agrees x (tr ++ .exploitation findings ::
      (phaseResults x roe approved findings).map .attempted) := by
  rcases h with ⟨hrespected, hidle⟩ | hwrong
  · by_cases hnil : phaseResults x roe approved findings = []
    · rw [hnil]
      have hnothing := (phaseResults_eq_nil_iff hroe happroved).mp hnil
      refine .inl ⟨always_concat.mpr ⟨hrespected, fun hstarts => hstarts.elim⟩,
        always_concat.mpr ⟨hidle, fun findings' heq _ => ?_⟩⟩
      cases heq
      exact hnothing
    · obtain ⟨result, results, hres⟩ := List.exists_cons_of_ne_nil hnil
      refine .inr ⟨fun hall => ?_, fun hall => ?_⟩
      · refine hall (tr ++ [.exploitation findings]) (.attempted result)
          (results.map .attempted) ?_ trivial (stopped_append.mpr (.inl hstop))
        rw [hres, List.append_assoc]
        rfl
      · have hnothing := hall tr (.exploitation findings) _ rfl findings rfl hstop
        exact hnil ((phaseResults_eq_nil_iff hroe happroved).mpr hnothing)
  · exact .inr (wrong_append hwrong)

theorem not_stopped_exploitation (results : List ExploitResult) :
    ¬ Stopped (.exploitation findings :: results.map .attempted) := by
  rintro ⟨stop, hmem⟩
  simp at hmem

/-- The phase, whether a stop has been observed or not. -/
theorem Agrees.phase (hroe : fromConfig x.settings x.config = .ok roe)
    (happroved : approvedHosts x.config = .ok approved) (h : Agrees x tr) :
    Agrees x (tr ++ .exploitation findings ::
      (phaseResults x roe approved findings).map .attempted) := by
  by_cases hstop : Stopped tr
  · exact h.exploited hroe happroved hstop
  · have hrunning : Running x tr := .inl hstop
    exact (hrunning.append (not_stopped_exploitation _)).agrees

/-- A phase that attempts something after a stop goes wrong. -/
theorem Agrees.phase_running (hroe : fromConfig x.settings x.config = .ok roe)
    (happroved : approvedHosts x.config = .ok approved) (h : Agrees x tr)
    (hne : phaseResults x roe approved findings ≠ []) :
    Running x (tr ++ .exploitation findings ::
      (phaseResults x roe approved findings).map .attempted) := by
  by_cases hstop : Stopped tr
  · rcases h.exploited hroe happroved hstop with ⟨-, hidle⟩ | hwrong
    · have hnothing := hidle tr (.exploitation findings) _ rfl findings rfl hstop
      exact absurd ((phaseResults_eq_nil_iff hroe happroved).mpr hnothing) hne
    · exact .inr hwrong
  · have hrunning : Running x tr := .inl hstop
    exact hrunning.append (not_stopped_exploitation _)

/-! ## The loops -/

theorem decisionTurn_agrees (x : EngagementContext) (roe : RulesOfEngagement)
    (round : AgentRound) :
    Rule (fun s => s.stepNo < x.settings.maxSteps) (fun s => some (decisionTurn x roe round s))
      (fun s => Running x s.trace) (fun s _ => Agrees x s.trace) where
  exit _ h _ := h.agrees
  again s s' h _ hturn := by
    have heffect := decisionTurn_effect x roe round s
    rw [Option.some.inj hturn] at heffect
    cases heffect with
    | blocked hafter => exact hafter.trace ▸ h.append (by simp [Stopped])
    | ran _ hafter => exact hafter.trace ▸ h.append (by simp [Stopped])
  leave s s' h _ hturn := by
    have heffect := decisionTurn_effect x roe round s
    rw [Option.some.inj hturn] at heffect
    cases heffect with
    | cancelled hafter => exact hafter.trace ▸ h.checked _
    | finished hafter => exact hafter.trace ▸ (h.append (by simp [Stopped])).agrees
  raised s fault s' h _ hturn := by
    have heffect := decisionTurn_effect x roe round s
    rw [Option.some.inj hturn] at heffect
    cases heffect with
    | revoked hafter => exact hafter.trace ▸ h.checked _
    | failed hafter => exact hafter.trace ▸ (h.append (by simp [Stopped])).agrees
    | toolRaised _ hafter => exact hafter.trace ▸ (h.append (by simp [Stopped])).agrees

theorem roundTurn_agrees (hroe : fromConfig x.settings x.config = .ok roe) (fuel : ℕ) :
    Rule (fun r => r.roundNo < x.settings.maxRounds) (roundTurn x roe fuel)
      (fun r => Running x r.engagement.trace) (fun r _ => Agrees x r.engagement.trace) where
  exit _ h _ := h.agrees
  again r r' h _ hturn := by
    obtain ⟨s, ended, hloop, heffect⟩ := roundTurn_effect hturn
    have hagrees : Agrees x s.trace := Loop.run_rule (decisionTurn_agrees x roe _) h hloop
    cases heffect with
    | next happroved hne hafter => exact hafter.trace ▸ hagrees.phase_running hroe happroved hne
  leave r r' h _ hturn := by
    obtain ⟨s, ended, hloop, heffect⟩ := roundTurn_effect hturn
    have hagrees : Agrees x s.trace := Loop.run_rule (decisionTurn_agrees x roe _) h hloop
    cases heffect with
    | detected => exact hagrees
    | last happroved hafter => exact hafter.trace ▸ hagrees.phase hroe happroved
  raised r fault r' h _ hturn := by
    obtain ⟨s, ended, hloop, heffect⟩ := roundTurn_effect hturn
    have hagrees : Agrees x s.trace := Loop.run_rule (decisionTurn_agrees x roe _) h hloop
    cases heffect with
    | raised => exact hagrees
    | unreadable hafter =>
      have htrace := hafter.trace
      rw [List.append_nil] at htrace
      exact htrace ▸ hagrees

end

/-- **A cancelled engagement stops** exactly when no exploitation phase that follows an observed
stop has anything to attempt. -/
theorem stops_respected_iff (x : EngagementContext) : ∃ s ended,
    (∀ fuel, x.settings.maxSteps < fuel → x.settings.maxRounds < fuel →
      runAgentDriven x fuel = some (s, ended)) ∧
    (StopsRespected s.trace ↔ IdleAfterStop x s.trace) := by
  have hstart : Running x Engagement.start.trace := .inl (by simp [Stopped, Engagement.start])
  obtain ⟨s, ended, hends, hagrees⟩ := runAgentDriven_rule x (Q := fun s => Agrees x s.trace)
    (I := fun r => Running x r.engagement.trace) hstart.agrees hstart
    fun roe hroe fuel => roundTurn_agrees hroe fuel
  exact ⟨s, ended, hends, hagrees.iff⟩

/-- The scan is cancelled before the first turn, and it has seen a known vulnerability. -/
def labCancelled : EngagementContext where
  services := labAgentServices
  redacted _ := ""
  settings := { labAgentSettings with
    safetyCeiling := SafetyTier.intrusive
    exploitationEnabled := true }
  scanId := 1
  executionToken := 7
  config := [("safety_tier", .str "intrusive"), ("exploitation_enabled", .bool true),
    ("approved_hosts", .arr [.str "*"])]
  targetType := "ip_range"
  targetValue := "203.0.113.20"
  activeTestingAllowed := true
  existing := none
  rounds _ := {
    turns _ := {
      db := labScanDb .cancelled
      elapsed := 0
      gathered := .ok ()
      reply := .error "TimeoutError"
      outcome := .ok ([], .completed) }
    findings := [⟨none, "CVE-2021-44228||http://203.0.113.20", "Apache Log4j RCE", "critical"⟩] }

/-- **An attempt follows the cancellation.** -/
theorem attempt_after_cancellation : ¬ ∃ s ended, (∀ fuel,
    labCancelled.settings.maxSteps < fuel → labCancelled.settings.maxRounds < fuel →
      runAgentDriven labCancelled fuel = some (s, ended)) ∧ StopsRespected s.trace := by
  rintro ⟨s, ended, hends, hrespected⟩
  have hrun := hends 41 (by decide) (by decide)
  have htrace : (runAgentDriven labCancelled 41).map (fun r => r.1.trace) = some
      ([.checked (some .cancelled), .exploitation (labCancelled.rounds 0).findings] ++
        [.attempted (knownCveValidator.attempt (fun _ => "") "203.0.113.20"
          ⟨none, "CVE-2021-44228||http://203.0.113.20", "Apache Log4j RCE", "critical"⟩)]) := by
    rfl
  rw [hrun, Option.map_some, Option.some.injEq] at htrace
  exact hrespected _ _ [] htrace trivial ⟨.cancelled, List.mem_cons_self⟩

end ScanPlatform
