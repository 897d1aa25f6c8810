import ScanPlatform.Agent.Engagement

/-!
# The envelope of an engagement

Whatever the model answers, and whatever the tools do, an engagement stays within what the settings,
the config of its scan and the scope of its target allow.

* `toolRuns`, `decidedSteps`: the tools that have been run, the steps of the persisted decisions;
* `InEnvelope`, `StaysWithin`: the envelope;
* `DecisionInv`: the invariant of the decision loop and of the rounds;
* **`agent_stays_within`**: an engagement ends and stays within its envelope.
-/

set_option autoImplicit false

namespace ScanPlatform

open Loop

def toolRuns (trace : List AgentEvent) : List String :=
  trace.filterMap fun
    | .toolRun tool => some tool
    | .checked _ | .decided _ _ | .exploitation _ | .attempted _ => none

def decidedSteps (trace : List AgentEvent) : List ℕ :=
  trace.filterMap fun
    | .decided stepNo _ => some stepNo
    | .checked _ | .toolRun _ | .exploitation _ | .attempted _ => none

/-- A runner may be used in the engagement; `IsTier` says which texts of the config ask for a
tier. -/
structure InEnvelope (x : EngagementContext) (IsTier : String → Prop) (r : RunnerInfo) :
    Prop where
  applies : r.appliesTo x.targetType
  ceiling : tierAtMost r.safetyTier x.settings.safetyCeiling
  requested : ∀ tier, x.config.get "safety_tier" = some (.str tier) → IsTier tier →
    tierAtMost r.safetyTier tier
  active : r.requiresActiveTesting → x.activeTestingAllowed

structure StaysWithin (x : EngagementContext) (IsTier : String → Prop) (s : Engagement) :
    Prop where
  tools : ∀ tool ∈ toolRuns s.trace, ∃ r, registered tool = some r ∧ InEnvelope x IsTier r
  once : (toolRuns s.trace).Nodup
  decisions : (decidedSteps s.trace).Nodup
  budget : (decidedSteps s.trace).length ≤ x.settings.maxSteps

/-- One of the four safety tiers. -/
def IsSafetyTier (tier : String) : Prop :=
  tier ∈ [SafetyTier.passive, SafetyTier.activeSafe, SafetyTier.intrusive, SafetyTier.simulated]

instance (tier : String) : Decidable (IsSafetyTier tier) :=
  inferInstanceAs (Decidable (_ ∈ _))

/-- One of the tiers that are ordered, and that an action can have. -/
def IsExecutionTier (tier : String) : Prop := (tierOrder tier).isSome

/-! ## The invariant -/

/-- The tools that have been run are in the envelope, each once, and the decisions have used up the
steps from 0 on. -/
structure DecisionInv (x : EngagementContext) (s : Engagement) : Prop where
  tools : ∀ tool ∈ toolRuns s.trace, ∃ r, registered tool = some r ∧
    InEnvelope x IsExecutionTier r
  once : (toolRuns s.trace).Nodup
  decisions : decidedSteps s.trace = List.range s.stepNo
  budget : s.stepNo ≤ x.settings.maxSteps

/-- The tools that have been run are remembered. -/
def Remembers (s : Engagement) : Prop := ∀ tool ∈ toolRuns s.trace, tool ∈ s.alreadyRun

section

variable {x : EngagementContext} {roe : RulesOfEngagement} {s s' : Engagement}
  {events : List AgentEvent} {decided : Bool} {ran : List String}

theorem DecisionInv.staysWithin (h : DecisionInv x s) : StaysWithin x IsExecutionTier s where
  tools := h.tools
  once := h.once
  decisions := h.decisions ▸ List.nodup_range
  budget := by
    rw [h.decisions, List.length_range]
    exact h.budget

/-- A tool that is offered has not been run, and is in the envelope. -/
theorem Offered.inEnvelope (hroe : fromConfig x.settings x.config = .ok roe) {tool : String}
    (h : Offered x roe s tool) : tool ∉ s.alreadyRun ∧
      ∃ r, registered tool = some r ∧ InEnvelope x IsExecutionTier r := by
  obtain ⟨r, hr, rfl⟩ := h
  obtain ⟨hmem, hnot, hqualifies⟩ := available_of_mem hr
  simp only [AgentScope.qualifies, EngagementContext.scope, Bool.and_eq_true, Bool.or_eq_true,
    Bool.not_eq_true'] at hqualifies
  obtain ⟨⟨happlies, htier⟩, hactive⟩ := hqualifies
  obtain ⟨hceiling, hrequested⟩ := fromConfig_maxTier hroe htier
  refine ⟨hnot, r, registered_of_mem r hmem, happlies, hceiling, hrequested, fun hrequires => ?_⟩
  rcases hactive with hno | hallowed
  · rw [hno] at hrequires
    cases hrequires
  · exact hallowed

/-- Events that start at most one tool, which is offered, and persist at most the next decision. -/
theorem DecisionInv.after (hroe : fromConfig x.settings x.config = .ok roe) (h : DecisionInv x s)
    (hs : Remembers s) (hlt : s.stepNo < x.settings.maxSteps)
    (hafter : s.After s' events decided ran)
    (htools : ∀ tool ∈ toolRuns events, Offered x roe s tool) (hone : (toolRuns events).Nodup)
    (hdecided : decidedSteps events = if decided then [s.stepNo] else []) : DecisionInv x s' := by
  obtain ⟨htrace, hstep, -⟩ := hafter
  have hruns : toolRuns s'.trace = toolRuns s.trace ++ toolRuns events := by
    rw [htrace]
    exact List.filterMap_append ..
  have hsteps : decidedSteps s'.trace = decidedSteps s.trace ++ decidedSteps events := by
    rw [htrace]
    exact List.filterMap_append ..
  refine ⟨?_, ?_, ?_, ?_⟩
  · intro tool htool
    rw [hruns, List.mem_append] at htool
    rcases htool with htool | htool
    · exact h.tools tool htool
    · exact ((htools tool htool).inEnvelope hroe).2
  · rw [hruns]
    refine h.once.append hone fun tool hold hnew => ?_
    exact ((htools tool hnew).inEnvelope hroe).1 (hs tool hold)
  · rw [hsteps, h.decisions, hdecided, hstep]
    cases decided with
    | true => exact List.range_succ.symm
    | false => simp
  · rw [hstep]
    cases decided <;> simp <;> omega

theorem Remembers.after (hs : Remembers s) (hafter : s.After s' events decided ran)
    (hran : ∀ tool ∈ toolRuns events, tool ∈ ran) : Remembers s' := by
  intro tool htool
  have hruns : toolRuns s'.trace = toolRuns s.trace ++ toolRuns events := by
    rw [hafter.trace]
    exact List.filterMap_append ..
  rw [hruns, List.mem_append] at htool
  rw [hafter.alreadyRun, List.mem_append]
  exact htool.imp (hs tool) (hran tool)

/-! ## The loops -/

/-- The exploitation phase starts no tool and persists no decision. -/
theorem DecisionInv.exploited (h : DecisionInv x s) {findings : List ExploitFinding}
    {results : List ExploitResult}
    (hafter : s.After s' (.exploitation findings :: results.map .attempted) false []) :
    DecisionInv x s' ∧ (Remembers s → Remembers s') := by
  have hruns : toolRuns (.exploitation findings :: results.map .attempted) = [] := by
    simp [toolRuns, List.filterMap_map]
  have hsteps : decidedSteps (.exploitation findings :: results.map .attempted) = [] := by
    simp [decidedSteps, List.filterMap_map]
  have htoolRuns : toolRuns s'.trace = toolRuns s.trace := by
    rw [hafter.trace, toolRuns, List.filterMap_append]
    exact (congrArg _ hruns).trans (List.append_nil _)
  have hdecided : decidedSteps s'.trace = decidedSteps s.trace := by
    rw [hafter.trace, decidedSteps, List.filterMap_append]
    exact (congrArg _ hsteps).trans (List.append_nil _)
  have hstep : s'.stepNo = s.stepNo := hafter.stepNo
  refine ⟨⟨htoolRuns ▸ h.tools, htoolRuns ▸ h.once, ?_, ?_⟩, fun hs => ?_⟩
  · rw [hdecided, h.decisions, hstep]
  · rw [hstep]
    exact h.budget
  · exact hs.after hafter (by simp [hruns])

/-- The decision loop keeps the invariant, and the tools are remembered when it does not raise. -/
theorem decisionTurn_rule (hroe : fromConfig x.settings x.config = .ok roe) (round : AgentRound) :
    Rule (fun s => s.stepNo < x.settings.maxSteps) (fun s => some (decisionTurn x roe round s))
      (fun s => DecisionInv x s ∧ Remembers s)
      (fun s ended => DecisionInv x s ∧ (ended = .ok () → Remembers s)) where
  exit _ h _ := ⟨h.1, fun _ => h.2⟩
  again s s' h hguard hturn := by
    have heffect := decisionTurn_effect x roe round s
    have hlt : s.stepNo < x.settings.maxSteps := of_decide_eq_true hguard
    rw [Option.some.inj hturn] at heffect
    cases heffect with
    | blocked hafter =>
      exact ⟨h.1.after hroe h.2 hlt hafter (by simp [toolRuns]) (by simp [toolRuns])
        (by simp [decidedSteps]), h.2.after hafter (by simp [toolRuns])⟩
    | ran htool hafter =>
      exact ⟨h.1.after hroe h.2 hlt hafter (by simpa [toolRuns] using htool) (by simp [toolRuns])
        (by simp [decidedSteps]), h.2.after hafter (by simp [toolRuns])⟩
  leave s s' h hguard hturn := by
    have heffect := decisionTurn_effect x roe round s
    have hlt : s.stepNo < x.settings.maxSteps := of_decide_eq_true hguard
    rw [Option.some.inj hturn] at heffect
    cases heffect with
    | cancelled hafter =>
      exact ⟨h.1.after hroe h.2 hlt hafter (by simp [toolRuns]) (by simp [toolRuns])
        (by simp [decidedSteps]), fun _ => h.2.after hafter (by simp [toolRuns])⟩
    | finished hafter =>
      exact ⟨h.1.after hroe h.2 hlt hafter (by simp [toolRuns]) (by simp [toolRuns])
        (by simp [decidedSteps]), fun _ => h.2.after hafter (by simp [toolRuns])⟩
  raised s fault s' h hguard hturn := by
    have heffect := decisionTurn_effect x roe round s
    have hlt : s.stepNo < x.settings.maxSteps := of_decide_eq_true hguard
    rw [Option.some.inj hturn] at heffect
    refine ⟨?_, fun hok => by cases hok⟩
    cases heffect with
    | revoked hafter | failed hafter =>
      exact h.1.after hroe h.2 hlt hafter (by simp [toolRuns]) (by simp [toolRuns])
        (by simp [decidedSteps])
    | toolRaised htool hafter =>
      exact h.1.after hroe h.2 hlt hafter (by simpa [toolRuns] using htool) (by simp [toolRuns])
        (by simp [decidedSteps])

theorem roundTurn_rule (hroe : fromConfig x.settings x.config = .ok roe) (fuel : ℕ) :
    Rule (fun r => r.roundNo < x.settings.maxRounds) (roundTurn x roe fuel)
      (fun r => DecisionInv x r.engagement ∧ Remembers r.engagement)
      (fun r _ => DecisionInv x r.engagement) where
  exit _ h _ := h.1
  again r r' h _ hturn := by
    obtain ⟨s, ended, hloop, heffect⟩ := roundTurn_effect hturn
    obtain ⟨hinv, hremembers⟩ := Loop.run_rule (decisionTurn_rule hroe _) h hloop
    cases heffect with
    | next _ _ hafter =>
      obtain ⟨hinv', hremembers'⟩ := hinv.exploited hafter
      exact ⟨hinv', hremembers' (hremembers rfl)⟩
  leave r r' h _ hturn := by
    obtain ⟨s, ended, hloop, heffect⟩ := roundTurn_effect hturn
    have hinv := (Loop.run_rule (decisionTurn_rule hroe _) h hloop).1
    cases heffect with
    | detected => exact hinv
    | last _ hafter => exact (hinv.exploited hafter).1
  raised r fault r' h _ hturn := by
    obtain ⟨s, ended, hloop, heffect⟩ := roundTurn_effect hturn
    have hinv := (Loop.run_rule (decisionTurn_rule hroe _) h hloop).1
    cases heffect with
    | raised => exact hinv
    | unreadable hafter =>
      obtain ⟨htrace, hstep, -⟩ := hafter
      rw [List.append_nil] at htrace
      have hstep' : _ = s.stepNo := hstep
      exact ⟨htrace ▸ hinv.tools, htrace ▸ hinv.once, htrace ▸ hstep' ▸ hinv.decisions,
        hstep' ▸ hinv.budget⟩

end

/-- **The model cannot leave the envelope.** For every config, every answer of the model and every
outcome of the tools, the engagement ends, and its tools and decisions are within the envelope. -/
theorem agent_stays_within (x : EngagementContext) : ∃ s ended,
    (∀ fuel, x.settings.maxSteps < fuel → x.settings.maxRounds < fuel →
      runAgentDriven x fuel = some (s, ended)) ∧ StaysWithin x IsExecutionTier s := by
  have hstart : DecisionInv x .start ∧ Remembers .start := by
    refine ⟨⟨?_, List.nodup_nil, rfl, Nat.zero_le _⟩, ?_⟩ <;> intro tool htool <;> cases htool
  obtain ⟨s, ended, hends, hinv⟩ := runAgentDriven_rule x (Q := DecisionInv x)
    (I := fun r => DecisionInv x r.engagement ∧ Remembers r.engagement) hstart.1 hstart
    fun roe hroe fuel => roundTurn_rule hroe fuel
  exact ⟨s, ended, hends, hinv.staysWithin⟩

/-- The config asks for the tier `simulated`, and the model for `httpx` and then for nothing. -/
def labSimulated : EngagementContext where
  services := labAgentServices
  redacted _ := ""
  settings := labAgentSettings
  scanId := 1
  executionToken := 7
  config := [("safety_tier", .str SafetyTier.simulated)]
  targetType := "domain"
  targetValue := "shop.example"
  activeTestingAllowed := false
  existing := none
  rounds _ := {
    turns n := {
      db := labScanDb .running
      elapsed := 0
      gathered := .ok ()
      reply := .ok (.obj (if n = 0 then [("action", .str "run_tool"), ("tool", .str "httpx")]
        else [("action", .str "finish")]))
      outcome := .ok ([], .completed) }
    findings := [] }

/-- **A simulated engagement sends probes.** -/
theorem simulated_sends_probes : ¬ ∃ s ended, (∀ fuel,
    labSimulated.settings.maxSteps < fuel → labSimulated.settings.maxRounds < fuel →
      runAgentDriven labSimulated fuel = some (s, ended)) ∧
        StaysWithin labSimulated IsSafetyTier s := by
  rintro ⟨s, ended, hends, hwithin⟩
  have hrun := hends 41 (by decide) (by decide)
  have htools : (runAgentDriven labSimulated 41).map (fun r => toolRuns r.1.trace) =
      some ["httpx"] := by
    decide +kernel
  rw [hrun, Option.map_some, Option.some.injEq] at htools
  obtain ⟨r, hr, henvelope⟩ := hwithin.tools "httpx" (by rw [htools]; exact List.mem_cons_self)
  have htier := henvelope.requested SafetyTier.simulated rfl (by decide)
  have hregistered : (registered "httpx").map RunnerInfo.safetyTier =
      some SafetyTier.activeSafe := by
    decide
  rw [hr, Option.map_some, Option.some.injEq] at hregistered
  rw [hregistered] at htier
  exact absurd htier (by decide)

end ScanPlatform
