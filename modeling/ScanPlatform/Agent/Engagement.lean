import ScanPlatform.Agent.Decide
import ScanPlatform.Base.Loop
import ScanPlatform.Engine.Orchestrator
import ScanPlatform.Engine.Safety

/-!
# The engagement of the agent

`_run_agent_driven`: rounds of a decision loop, each followed by the exploitation phase. What the
engagement is given from outside at each turn of the loop is an argument.

* `AgentTurn`, `AgentRound`, `EngagementContext`: what it is given;
* `AgentEvent`, `Engagement`: its state, with what it has done so far;
* `decisionTurn`, `exploitationPhase`, `roundTurn`, `runAgentDriven`: the engagement;
* **`decisionTurn_effect`**: what a turn of the decision loop can do;
* **`runAgentDriven_ends`**, `runAgentDriven_rule`: the engagement ends, and what its rounds make of
  it.
-/

set_option autoImplicit false

namespace ScanPlatform

/-- What a turn of the decision loop is given: the database at the stop check, the seconds since the
loop started, whether gathering the prompt raises, the answer of the model, and the tool run. -/
structure AgentTurn where
  db : Db
  elapsed : ℚ
  gathered : Except Fault Unit
  reply : Except String Json.Value
  outcome : Except Fault (List CommonFinding × RunStatus)

/-- What a round is given: its turns by their step number, and the vulnerabilities that the scan has
last seen when the exploitation phase starts. -/
structure AgentRound where
  turns : ℕ → AgentTurn
  findings : List ExploitFinding

structure EngagementContext where
  services : AgentServices
  redacted : String → String
  settings : AgentSettings
  scanId : Uuid
  executionToken : Uuid
  config : Json.Object
  targetType : String
  targetValue : String
  activeTestingAllowed : Bool
  /-- The statuses of the tool runs of the scan, if it has an engagement already. -/
  existing : Option (List ToolStatus)
  rounds : ℕ → AgentRound

structure AgentStep where
  stepNo : ℕ
  phase : String
  actionType : String
  toolOrModule : Option String
  safetyTier : Option String
  resultSummary : Option String
  status : String

inductive AgentEvent where
  /-- The stop check of a turn. -/
  | checked (stop : Option StopReason)
  /-- A decision is persisted. -/
  | decided (stepNo : ℕ) (decision : AgentDecision)
  /-- A tool run starts. -/
  | toolRun (tool : String)
  /-- The exploitation phase goes over these findings. -/
  | exploitation (findings : List ExploitFinding)
  /-- An exploitation attempt. -/
  | attempted (result : ExploitResult)

structure Engagement where
  currentPhase : String
  stepNo : ℕ
  aiCalls : ℕ
  stall : ℕ
  alreadyRun : List String
  discovered : List CommonFinding
  toolStatuses : List RunStatus
  steps : List AgentStep
  trace : List AgentEvent

def Engagement.start : Engagement where
  currentPhase := "reconnaissance"
  stepNo := 0
  aiCalls := 0
  stall := 0
  alreadyRun := []
  discovered := []
  toolStatuses := []
  steps := []
  trace := []

namespace Engagement

def log (s : Engagement) (event : AgentEvent) : Engagement := { s with trace := s.trace ++ [event] }

/-- `_record` and `_persist_decision`, with the step number that they use up. -/
def persist (s : Engagement) (decision : AgentDecision) (phase actionType : String)
    (tool safetyTier : Option String) (result status : String) : Engagement :=
  { s with
    steps := s.steps ++ [{
      stepNo := s.stepNo
      phase
      actionType
      toolOrModule := tool
      safetyTier
      resultSummary := some (PyStr.upTo 2000 result)
      status }]
    trace := s.trace ++ [.decided s.stepNo decision]
    stepNo := s.stepNo + 1 }

/-- `_budget_stop_reason`. -/
def budgetStopReason (s : Engagement) (settings : AgentSettings) (elapsed : ℚ) : Option String :=
  if settings.maxAiCalls ≠ 0 ∧ settings.maxAiCalls ≤ s.aiCalls then some "ai_call_budget_exhausted"
  else if settings.timeBudgetSeconds ≠ 0 ∧ settings.timeBudgetSeconds ≤ elapsed then
    some "time_budget_exhausted"
  else if settings.stallLimit ≠ 0 ∧ settings.stallLimit ≤ s.stall then some "no_progress"
  else none

end Engagement

open Loop

variable (x : EngagementContext) (roe : RulesOfEngagement)

/-! ## The decision loop -/

def EngagementContext.scope : AgentScope where
  targetType := x.targetType
  activeTestingAllowed := x.activeTestingAllowed
  maxTier := roe.maxTier

/-- The tool that was decided on is run, unless the safety gate blocks it. -/
def runDecided (turn : AgentTurn) (decision : AgentDecision) (tool : String) (runner : RunnerInfo)
    (s : Engagement) : Turn Engagement Fault :=
  match assertActionAllowed runner.safetyTier roe "" none with
  | .error violation =>
    .again ({ s with alreadyRun := s.alreadyRun ++ [tool] }.persist decision decision.phase
      "tool_run" tool runner.safetyTier s!"BLOCKED: {violation}" "blocked")
  | .ok () =>
    match turn.outcome with
    | .error fault => .raised fault (s.log (.toolRun tool))
    | .ok (findings, status) =>
      .again ({ s.log (.toolRun tool) with
        discovered := s.discovered ++ findings
        toolStatuses := s.toolStatuses ++ [status]
        alreadyRun := s.alreadyRun ++ [tool]
        currentPhase := decision.phase
        stall := if findings.isEmpty then s.stall + 1 else 0 }.persist decision decision.phase
          "tool_run" tool runner.safetyTier s!"{status.text}: {findings.length} finding(s)"
          status.text)

/-- What follows from a decision of the agent. -/
def onDecision (turn : AgentTurn) (decision : AgentDecision) (s : Engagement) :
    Turn Engagement Fault :=
  match decision.action, truthyTool decision with
  | .runTool, some tool =>
    match registered tool with
    | none => .raised (.raised "KeyError") s
    | some runner => runDecided roe turn decision tool runner s
  | _, _ =>
    .leave (s.persist decision decision.phase "decision" none none "engagement finished" "executed")
where
  truthyTool (decision : AgentDecision) : Option String := decision.tool.filter (· ≠ "")

/-- One turn of `_decision_loop`. -/
def decisionTurn (round : AgentRound) (s : Engagement) : Turn Engagement Fault :=
  let turn := round.turns s.stepNo
  let stop := executionStopReason turn.db x.scanId x.executionToken
  let s := s.log (.checked stop)
  match stop with
  | some .cancelled => .leave s
  | some .revoked => .raised (.raised "ExecutionRevoked") s
  | none =>
    match s.budgetStopReason x.settings turn.elapsed with
    | some reason =>
      .leave (s.persist (.finishWith s.currentPhase s!"budget stop: {reason}" reason)
        s.currentPhase "decision" none none "engagement stopped (budget)" "executed")
    | none =>
      let available := (availableTools (x.scope roe) s.alreadyRun).map RunnerInfo.name
      match turn.gathered with
      | .error fault => .raised fault s
      | .ok () =>
        match agentDecide x.services s.currentPhase x.settings.minConfidence available
          turn.reply with
        | .error fault => .raised fault s
        | .ok decision => onDecision roe turn decision { s with aiCalls := s.aiCalls + 1 }

/-- `_decision_loop`. -/
def decisionLoop (round : AgentRound) (fuel : ℕ) (s : Engagement) :
    Option (Engagement × Except Fault Unit) :=
  Loop.run (fun s => s.stepNo < x.settings.maxSteps) (fun s => some (decisionTurn x roe round s))
    fuel s

/-! ## The exploitation phase -/

/-- `set(scan.config.get("approved_hosts", []))`; what cannot be the element of a set raises. -/
def approvedHosts (config : Json.Object) : Except Fault (List String) :=
  match (config.get "approved_hosts").map Json.Value.items with
  | none => .ok []
  | some none => .error (.raised "TypeError")
  | some (some items) => items.foldr (fun item hosts =>
      match item with
      | .arr _ | .obj _ => .error (.raised "TypeError")
      | .str host => hosts.map (host :: ·)
      | .null | .bool _ | .num _ _ => hosts) (.ok [])

def hostOk (approved : List String) (host : String) : Prop := "*" ∈ approved ∨ host ∈ approved

instance (approved : List String) (host : String) : Decidable (hostOk approved host) :=
  inferInstanceAs (Decidable (_ ∨ _))

/-- The phase so far, with its own step number. -/
structure Exploitation where
  engagement : Engagement
  stepNo : ℕ
  results : List ExploitResult

/-- `_rec` in the exploitation phase. -/
def Exploitation.record (p : Exploitation) (m : ExploitModule) (actionType status detail : String) :
    Exploitation :=
  { p with
    engagement.steps := p.engagement.steps ++ [{
      stepNo := p.stepNo
      phase := "exploitation"
      actionType
      toolOrModule := some m.name
      safetyTier := some m.safetyTier
      resultSummary := some (PyStr.upTo 2000 detail)
      status }]
    stepNo := p.stepNo + 1 }

/-- A module and a finding. -/
def tryModule (approved : List String) (p : Exploitation) (v : ExploitFinding) (m : ExploitModule) :
    Exploitation :=
  if ¬ m.canAttempt v then p
  else if roe.requireApproval ∧ ¬ hostOk approved x.targetValue then
    p.record m "approval_wait" "skipped" (s!"host '{x.targetValue}' not approved -- " ++
      s!"modeled only: {PyStr.upTo 60 v.title}")
  else
    match assertActionAllowed m.safetyTier roe m.proofAction none with
    | .error violation => p.record m "exploit" "blocked" violation
    | .ok () =>
      let res := m.attempt x.redacted x.targetValue v
      let accessType := res.accessType.getD "None"
      { p with
        engagement := p.engagement.log (.attempted res)
        results := p.results ++ [res] }.record m "exploit"
          (if res.exploitable then "executed" else "skipped") s!"{accessType}: {res.proof}"

/-- `_run_exploitation_phase`. -/
def exploitationPhase (findings : List ExploitFinding) (s : Engagement) :
    Engagement × Except Fault (List ExploitResult) :=
  match approvedHosts x.config with
  | .error fault => (s, .error fault)
  | .ok approved =>
    let pairs := findings.flatMap fun v => exploitRegistry.map fun m => (v, m)
    let p := pairs.foldl (fun p (v, m) => tryModule x roe approved p v m)
      ⟨s.log (.exploitation findings), s.stepNo, []⟩
    (p.engagement, .ok p.results)

/-! ## The rounds -/

structure Rounds where
  roundNo : ℕ
  engagement : Engagement

/-- One turn of the outer loop. -/
def roundTurn (fuel : ℕ) (r : Rounds) : Option (Turn Rounds Fault) :=
  match decisionLoop x roe (x.rounds r.roundNo) fuel r.engagement with
  | none => none
  | some (s, .error fault) => some (.raised fault { r with engagement := s })
  | some (s, .ok ()) =>
    if roe.exploitationEnabled then
      match exploitationPhase x roe (x.rounds r.roundNo).findings
        { s with currentPhase := "exploitation" } with
      | (s, .error fault) => some (.raised fault { r with engagement := s })
      | (s, .ok confirmed) =>
        let newAccess := confirmed.filter ExploitResult.exploitable
        if newAccess.isEmpty ∨ x.settings.maxRounds ≤ r.roundNo + 1 then
          some (.leave ⟨r.roundNo + 1, s⟩)
        else some (.again ⟨r.roundNo + 1, s⟩)
    else some (.leave ⟨r.roundNo + 1, s⟩)

/-- `_run_agent_driven`, with less than `fuel` turns of each of its loops. -/
def runAgentDriven (fuel : ℕ) : Option (Engagement × Except Fault (List ToolStatus)) :=
  match fromConfig x.settings x.config with
  | .error fault => some (.start, .error fault)
  | .ok roe =>
    match x.existing with
    | some statuses => some (.start, .ok (statuses.filter (· ≠ .skippedUnauthorized)))
    | none =>
      (Loop.run (fun r => r.roundNo < x.settings.maxRounds) (roundTurn x roe fuel) fuel
        ⟨0, .start⟩).map fun (r, ended) => (r.engagement,
          ended.map fun _ => r.engagement.toolStatuses.map RunStatus.toolStatus)

/-! ## What a turn can do -/

/-- The tool is offered by the registry in the state. -/
def Offered (s : Engagement) (tool : String) : Prop :=
  ∃ r ∈ availableTools (x.scope roe) s.alreadyRun, r.name = tool

/-- The state after some events and, if a decision was persisted, with the next step number. -/
structure Engagement.After (s s' : Engagement) (events : List AgentEvent) (decided : Bool)
    (ran : List String) : Prop where
  trace : s'.trace = s.trace ++ events
  stepNo : s'.stepNo = s.stepNo + decided.toNat
  alreadyRun : s'.alreadyRun = s.alreadyRun ++ ran

/-- What a turn of the decision loop can do. -/
inductive TurnEffect (s : Engagement) : Turn Engagement Fault → Prop
  | cancelled {s' : Engagement} (h : s.After s' [.checked (some .cancelled)] false []) :
    TurnEffect s (.leave s')
  | revoked {s' : Engagement} (h : s.After s' [.checked (some .revoked)] false []) :
    TurnEffect s (.raised (.raised "ExecutionRevoked") s')
  | failed {s' : Engagement} {fault : Fault} (h : s.After s' [.checked none] false []) :
    TurnEffect s (.raised fault s')
  | finished {s' : Engagement} {d : AgentDecision}
    (h : s.After s' [.checked none, .decided s.stepNo d] true []) : TurnEffect s (.leave s')
  | blocked {s' : Engagement} {d : AgentDecision} {t : String}
    (h : s.After s' [.checked none, .decided s.stepNo d] true [t]) :
    TurnEffect s (.again s')
  | toolRaised {s' : Engagement} {fault : Fault} {t : String} (htool : Offered x roe s t)
    (h : s.After s' [.checked none, .toolRun t] false []) : TurnEffect s (.raised fault s')
  | ran {s' : Engagement} {d : AgentDecision} {t : String} (htool : Offered x roe s t)
    (h : s.After s' [.checked none, .toolRun t, .decided s.stepNo d] true [t]) :
    TurnEffect s (.again s')

variable {x roe}

theorem Engagement.After.log {s s' : Engagement} {events : List AgentEvent} {decided : Bool}
    {ran : List String} (h : s.After s' events decided ran) (event : AgentEvent) :
    s.After (s'.log event) (events ++ [event]) decided ran :=
  ⟨by rw [Engagement.log, h.trace, List.append_assoc], h.stepNo, h.alreadyRun⟩

theorem Engagement.After.persist {s s' : Engagement} {events : List AgentEvent}
    {ran : List String} (h : s.After s' events false ran) (decision : AgentDecision)
    (phase actionType : String) (tool safetyTier : Option String) (result status : String) :
    s.After (s'.persist decision phase actionType tool safetyTier result status)
      (events ++ [.decided s.stepNo decision]) true ran := by
  have hstep : s'.stepNo = s.stepNo := h.stepNo
  refine ⟨?_, ?_, h.alreadyRun⟩
  · show s'.trace ++ [.decided s'.stepNo decision] = _
    rw [h.trace, hstep, List.append_assoc]
  · show s'.stepNo + 1 = _
    rw [hstep]
    rfl

theorem onDecision_effect {turn : AgentTurn} {decision : AgentDecision} {s s₁ : Engagement}
    (hs : s.After s₁ [.checked none] false [])
    (htool : ∀ tool, decision.tool = some tool → Offered x roe s tool) :
    TurnEffect x roe s (onDecision roe turn decision s₁) := by
  have hran : ∀ tool, s₁.alreadyRun ++ [tool] = s.alreadyRun ++ [tool] := fun tool => by
    rw [hs.alreadyRun, List.append_nil]
  unfold onDecision
  split
  · next tool _ hdec =>
    have hmem : decision.tool = some tool := by
      unfold onDecision.truthyTool at hdec
      exact (Option.filter_eq_some_iff.mp hdec).1
    split
    · exact .failed hs
    · unfold runDecided
      split
      · have hblocked : s.After { s₁ with alreadyRun := s₁.alreadyRun ++ [tool] } [.checked none]
            false [tool] := ⟨hs.trace, hs.stepNo, hran tool⟩
        exact .blocked (hblocked.persist ..)
      · have hstarted := hs.log (.toolRun tool)
        split
        · exact .toolRaised (htool tool hmem) hstarted
        · next findings status _ =>
          have hended : s.After { s₁.log (.toolRun tool) with
              discovered := s₁.discovered ++ findings
              toolStatuses := s₁.toolStatuses ++ [status]
              alreadyRun := s₁.alreadyRun ++ [tool]
              currentPhase := decision.phase
              stall := if findings.isEmpty then s₁.stall + 1 else 0 }
              [.checked none, .toolRun tool] false [tool] :=
            ⟨hstarted.trace, hstarted.stepNo, hran tool⟩
          exact .ran (htool tool hmem) (hended.persist ..)
  · exact .finished (hs.persist ..)

/-- **What a turn of the decision loop does** is one of the effects. -/
theorem decisionTurn_effect (x : EngagementContext) (roe : RulesOfEngagement) (round : AgentRound)
    (s : Engagement) : TurnEffect x roe s (decisionTurn x roe round s) := by
  have hchecked : ∀ stop, s.After (s.log (.checked stop)) [.checked stop] false [] := fun stop =>
    ⟨rfl, rfl, (List.append_nil _).symm⟩
  unfold decisionTurn
  dsimp only
  split
  · next hstop => rw [hstop]; exact .cancelled (hchecked _)
  · next hstop => rw [hstop]; exact .revoked (hchecked _)
  · next hstop =>
    rw [hstop]
    split
    · exact .finished ((hchecked none).persist ..)
    · split
      · exact .failed (hchecked none)
      · split
        · exact .failed (hchecked none)
        · next decision hdecide =>
          have hnone := hchecked none
          refine onDecision_effect ⟨hnone.trace, hnone.stepNo, hnone.alreadyRun⟩ ?_
          intro tool htool
          have hmem := agentDecide_tool_mem hdecide htool
          exact List.mem_map.mp hmem

/-! ## What the exploitation phase does -/

/-- The module confirms the finding: it applies, the host is approved and the safety gate lets it
pass. -/
def Attemptable (x : EngagementContext) (roe : RulesOfEngagement) (approved : List String)
    (v : ExploitFinding) (m : ExploitModule) : Prop :=
  m.canAttempt v ∧ (roe.requireApproval → hostOk approved x.targetValue) ∧
    assertActionAllowed m.safetyTier roe m.proofAction none = .ok ()

instance (approved : List String) (v : ExploitFinding) (m : ExploitModule) :
    Decidable (Attemptable x roe approved v m) :=
  inferInstanceAs (Decidable (_ ∧ _ ∧ _))

/-- The results of a finding and a module. -/
def attemptResults (x : EngagementContext) (roe : RulesOfEngagement) (approved : List String)
    (v : ExploitFinding) (m : ExploitModule) : List ExploitResult :=
  if Attemptable x roe approved v m then [m.attempt x.redacted x.targetValue v] else []

/-- The phase has gone on with these results. -/
structure Exploitation.After (p p' : Exploitation) (new : List ExploitResult) : Prop where
  results : p'.results = p.results ++ new
  engagement : p.engagement.After p'.engagement (new.map .attempted) false []

theorem tryModule_after (approved : List String) (p : Exploitation) (v : ExploitFinding)
    (m : ExploitModule) :
    p.After (tryModule x roe approved p v m) (attemptResults x roe approved v m) := by
  have hnone : ∀ {p' : Exploitation}, ¬ Attemptable x roe approved v m → p'.results = p.results →
      p'.engagement.trace = p.engagement.trace → p'.engagement.stepNo = p.engagement.stepNo →
      p'.engagement.alreadyRun = p.engagement.alreadyRun →
        p.After p' (attemptResults x roe approved v m) := by
    intro p' hno hresults htrace hstep hran
    unfold attemptResults
    rw [if_neg hno]
    exact ⟨by simp [hresults], by simp [htrace], by simp [hstep], by simp [hran]⟩
  unfold tryModule
  split
  · next hcan => exact hnone (fun h => hcan h.1) rfl rfl rfl rfl
  · next hcan =>
    split
    · next hwait => exact hnone (fun h => hwait.2 (h.2.1 hwait.1)) rfl rfl rfl rfl
    · next hok =>
      split
      · next hblocked =>
        exact hnone (fun h => by rw [h.2.2] at hblocked; cases hblocked) rfl rfl rfl rfl
      · next hallowed =>
        have happroved : roe.requireApproval → hostOk approved x.targetValue := fun hr =>
          not_not.mp fun hno => hok ⟨hr, hno⟩
        unfold attemptResults
        rw [if_pos ⟨not_not.mp hcan, happroved, hallowed⟩]
        exact ⟨rfl, rfl, rfl, (List.append_nil _).symm⟩

theorem Exploitation.After.trans {p p' p'' : Exploitation} {new new' : List ExploitResult}
    (h : p.After p' new) (h' : p'.After p'' new') : p.After p'' (new ++ new') := by
  refine ⟨by rw [h'.results, h.results, List.append_assoc], ?_, ?_, ?_⟩
  · rw [h'.engagement.trace, h.engagement.trace, List.map_append, List.append_assoc]
  · exact h'.engagement.stepNo.trans h.engagement.stepNo
  · rw [h'.engagement.alreadyRun, h.engagement.alreadyRun, List.append_nil]

/-- The results of a phase. -/
def phaseResults (x : EngagementContext) (roe : RulesOfEngagement) (approved : List String)
    (findings : List ExploitFinding) : List ExploitResult :=
  (findings.flatMap fun v => exploitRegistry.map fun m => (v, m)).flatMap fun (v, m) =>
    attemptResults x roe approved v m

theorem foldl_tryModule_after (approved : List String)
    (pairs : List (ExploitFinding × ExploitModule)) (p : Exploitation) :
    p.After (pairs.foldl (fun p (v, m) => tryModule x roe approved p v m) p)
      (pairs.flatMap fun (v, m) => attemptResults x roe approved v m) := by
  induction pairs generalizing p with
  | nil =>
    have hstart : p.engagement.After p.engagement [] false [] :=
      ⟨(List.append_nil _).symm, rfl, (List.append_nil _).symm⟩
    exact ⟨(List.append_nil _).symm, hstart⟩
  | cons pair pairs ih =>
    obtain ⟨v, m⟩ := pair
    rw [List.foldl_cons, List.flatMap_cons]
    exact (tryModule_after approved p v m).trans (ih _)

/-- **What the exploitation phase does.** -/
theorem exploitationPhase_after (x : EngagementContext) (roe : RulesOfEngagement)
    (findings : List ExploitFinding) (s : Engagement) :
    (∃ fault, approvedHosts x.config = .error fault ∧
      exploitationPhase x roe findings s = (s, .error fault)) ∨
    ∃ approved s', approvedHosts x.config = .ok approved ∧
      exploitationPhase x roe findings s = (s', .ok (phaseResults x roe approved findings)) ∧
      s.After s' (.exploitation findings ::
        (phaseResults x roe approved findings).map .attempted) false [] := by
  unfold exploitationPhase
  cases happroved : approvedHosts x.config with
  | error fault => exact .inl ⟨fault, rfl, rfl⟩
  | ok approved =>
    obtain ⟨hresults, htrace, hstep, hran⟩ := foldl_tryModule_after (x := x) approved
      (findings.flatMap fun v => exploitRegistry.map fun m => (v, m))
      ⟨s.log (.exploitation findings), s.stepNo, []⟩
    refine .inr ⟨approved, _, rfl, Prod.ext rfl (congrArg Except.ok hresults), ?_, hstep, hran⟩
    rw [htrace]
    exact List.append_assoc ..

/-- What a round can do once its decision loop has ended in a state. -/
inductive RoundEffect (x : EngagementContext) (roe : RulesOfEngagement) (r : Rounds)
    (s : Engagement) : Except Fault Unit → Turn Rounds Fault → Prop
  | raised (fault : Fault) : RoundEffect x roe r s (.error fault) (.raised fault ⟨r.roundNo, s⟩)
  | detected (hdisabled : roe.exploitationEnabled = false) :
    RoundEffect x roe r s (.ok ()) (.leave ⟨r.roundNo + 1, s⟩)
  | unreadable {s' : Engagement} {fault : Fault} (h : s.After s' [] false []) :
    RoundEffect x roe r s (.ok ()) (.raised fault ⟨r.roundNo, s'⟩)
  | last {s' : Engagement} {approved : List String}
    (happroved : approvedHosts x.config = .ok approved)
    (h : s.After s' (.exploitation (x.rounds r.roundNo).findings ::
      (phaseResults x roe approved (x.rounds r.roundNo).findings).map .attempted) false []) :
    RoundEffect x roe r s (.ok ()) (.leave ⟨r.roundNo + 1, s'⟩)
  | next {s' : Engagement} {approved : List String}
    (happroved : approvedHosts x.config = .ok approved)
    (hne : phaseResults x roe approved (x.rounds r.roundNo).findings ≠ [])
    (h : s.After s' (.exploitation (x.rounds r.roundNo).findings ::
      (phaseResults x roe approved (x.rounds r.roundNo).findings).map .attempted) false []) :
    RoundEffect x roe r s (.ok ()) (.again ⟨r.roundNo + 1, s'⟩)

/-- **What a round does**: its decision loop, and one of the effects. -/
theorem roundTurn_effect {fuel : ℕ} {r : Rounds} {turn : Turn Rounds Fault}
    (h : roundTurn x roe fuel r = some turn) : ∃ s ended,
      decisionLoop x roe (x.rounds r.roundNo) fuel r.engagement = some (s, ended) ∧
        RoundEffect x roe r s ended turn := by
  unfold roundTurn at h
  split at h
  · cases h
  · next s fault hloop =>
    cases h
    exact ⟨s, _, hloop, .raised fault⟩
  · next s hloop =>
    refine ⟨s, _, hloop, ?_⟩
    split at h
    · next henabled =>
      rcases exploitationPhase_after x roe (x.rounds r.roundNo).findings
        { s with currentPhase := "exploitation" } with
        ⟨fault, -, hphase⟩ | ⟨approved, s', happroved, hphase, htrace, hstep, hran⟩
      · rw [hphase] at h
        cases h
        exact .unreadable ⟨(List.append_nil _).symm, rfl, (List.append_nil _).symm⟩
      · rw [hphase] at h
        dsimp only at h
        split at h <;> cases h
        · exact .last happroved ⟨htrace, hstep, hran⟩
        · next hagain =>
          refine .next happroved (fun hnil => hagain (.inl ?_)) ⟨htrace, hstep, hran⟩
          rw [hnil]
          rfl
    · next hdisabled =>
      cases h
      exact .detected (by simpa using hdisabled)

/-! ## The engagement ends -/

theorem stepNo_lt_of_again {round : AgentRound} {s s' : Engagement}
    (h : decisionTurn x roe round s = .again s') : s'.stepNo = s.stepNo + 1 := by
  have heffect := decisionTurn_effect x roe round s
  rw [h] at heffect
  cases heffect with
  | blocked h => exact h.stepNo
  | ran _ h => exact h.stepNo

theorem decisionLoop_ends (x : EngagementContext) (roe : RulesOfEngagement) (round : AgentRound)
    {fuel : ℕ} (hfuel : x.settings.maxSteps < fuel) (s : Engagement) :
    ∃ r, decisionLoop x roe round fuel s = some r := by
  refine Loop.run_ends (I := fun _ => True) (fun s => x.settings.maxSteps - s.stepNo) ?_ trivial
    (by omega)
  intro s _ hguard
  refine ⟨_, rfl, fun s' hagain => ⟨trivial, ?_⟩⟩
  have hstep := stepNo_lt_of_again hagain
  have hlt : s.stepNo < x.settings.maxSteps := of_decide_eq_true hguard
  omega

theorem roundNo_of_again {fuel : ℕ} {r r' : Rounds}
    (h : roundTurn x roe fuel r = some (.again r')) : r'.roundNo = r.roundNo + 1 := by
  obtain ⟨s, ended, -, heffect⟩ := roundTurn_effect h
  cases heffect with
  | next => rfl

theorem roundTurn_ends {fuel : ℕ} (hfuel : x.settings.maxSteps < fuel) (r : Rounds) :
    ∃ turn, roundTurn x roe fuel r = some turn := by
  obtain ⟨⟨s, ended⟩, hloop⟩ := decisionLoop_ends x roe (x.rounds r.roundNo) hfuel r.engagement
  unfold roundTurn
  rw [hloop]
  cases ended with
  | error fault => exact ⟨_, rfl⟩
  | ok _ =>
    dsimp only
    split
    · split
      · exact ⟨_, rfl⟩
      · split <;> exact ⟨_, rfl⟩
    · exact ⟨_, rfl⟩

theorem roundTurn_mono {fuel fuel' : ℕ} (hle : fuel ≤ fuel') (r : Rounds)
    (turn : Turn Rounds Fault) (h : roundTurn x roe fuel r = some turn) :
    roundTurn x roe fuel' r = some turn := by
  unfold roundTurn at h ⊢
  cases hloop : decisionLoop x roe (x.rounds r.roundNo) fuel r.engagement with
  | none => rw [hloop] at h; cases h
  | some res =>
    have hloop' : decisionLoop x roe (x.rounds r.roundNo) fuel' r.engagement = some res :=
      Loop.run_mono (fun _ _ hbody => hbody) hle hloop
    rw [hloop] at h
    rw [hloop']
    exact h

/-- **The engagement ends**, in the same way whatever the bound on its turns, once it exceeds the
step and the round budgets. -/
theorem runAgentDriven_ends (x : EngagementContext) : ∃ r, ∀ fuel, x.settings.maxSteps < fuel →
    x.settings.maxRounds < fuel → runAgentDriven x fuel = some r := by
  unfold runAgentDriven
  cases fromConfig x.settings x.config with
  | error fault => exact ⟨_, fun _ _ _ => rfl⟩
  | ok roe =>
    cases x.existing with
    | some statuses => exact ⟨_, fun _ _ _ => rfl⟩
    | none =>
      let bound := max x.settings.maxSteps x.settings.maxRounds + 1
      have hends : ∃ r, Loop.run (fun r => r.roundNo < x.settings.maxRounds)
          (roundTurn x roe bound) bound ⟨0, .start⟩ = some r := by
        refine Loop.run_ends (I := fun _ => True)
          (fun r => x.settings.maxRounds - r.roundNo) ?_ trivial (by omega)
        intro r _ hguard
        obtain ⟨turn, hturn⟩ : ∃ turn, roundTurn x roe bound r = some turn :=
          roundTurn_ends (by omega) r
        refine ⟨turn, hturn, fun r' hagain => ⟨trivial, ?_⟩⟩
        have hround := roundNo_of_again (hagain ▸ hturn)
        have hlt : r.roundNo < x.settings.maxRounds := of_decide_eq_true hguard
        omega
      obtain ⟨r, hr⟩ := hends
      refine ⟨(r.1.engagement, r.2.map fun _ =>
        r.1.engagement.toolStatuses.map RunStatus.toolStatus), fun fuel hsteps hrounds => ?_⟩
      have hle : bound ≤ fuel := by omega
      have hrun : Loop.run (fun r => r.roundNo < x.settings.maxRounds) (roundTurn x roe fuel) fuel
          ⟨0, .start⟩ = some r := Loop.run_mono (roundTurn_mono hle) hle hr
      dsimp only
      rw [hrun]
      rfl

/-- **The rule of an engagement**: what holds at its start, and what its rounds make of it. -/
theorem runAgentDriven_rule (x : EngagementContext) {I : Rounds → Prop} {Q : Engagement → Prop}
    (hstart : Q .start) (h0 : I ⟨0, .start⟩)
    (hrounds : ∀ roe, fromConfig x.settings x.config = .ok roe → ∀ fuel,
      Rule (fun r => r.roundNo < x.settings.maxRounds) (roundTurn x roe fuel) I
        fun r _ => Q r.engagement) :
    ∃ s ended, (∀ fuel, x.settings.maxSteps < fuel → x.settings.maxRounds < fuel →
      runAgentDriven x fuel = some (s, ended)) ∧ Q s := by
  obtain ⟨⟨s, ended⟩, hends⟩ := runAgentDriven_ends x
  refine ⟨s, ended, hends, ?_⟩
  have hrun := hends (max x.settings.maxSteps x.settings.maxRounds + 1) (by omega) (by omega)
  unfold runAgentDriven at hrun
  split at hrun
  · cases hrun
    exact hstart
  · next roe hroe =>
    split at hrun
    · cases hrun
      exact hstart
    · obtain ⟨⟨r, outcome⟩, hloop, heq⟩ := Option.map_eq_some_iff.mp hrun
      cases heq
      exact Loop.run_rule (hrounds roe hroe _) h0 hloop

/-! ## An engagement -/

/-- The defaults of the settings. -/
def labAgentSettings : AgentSettings where
  safetyCeiling := SafetyTier.activeSafe
  exploitationEnabled := false
  maxSteps := 40
  minConfidence := 0
  timeBudgetSeconds := 0
  maxAiCalls := 0
  stallLimit := 0
  maxRounds := 1

/-- `float()` and `str()` of the values that the answers below hold. -/
def labAgentServices : AgentServices where
  float
    | .num m e => .finite (m / 10 ^ e)
    | .null | .bool _ | .str _ | .arr _ | .obj _ => .refused
  str
    | .str s => s
    | .null | .bool _ | .num _ _ | .arr _ | .obj _ => ""

/-- The scan of the engagement, in a status. -/
def labScanDb (status : ScanStatus) : Db :=
  { Db.empty with
    scans := Db.empty.scans.set 1 { Scan.created 2 3 4 [] 0 with
      status
      executionToken := some 7 } }

end ScanPlatform
