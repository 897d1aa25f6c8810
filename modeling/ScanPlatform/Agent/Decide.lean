import Mathlib.Algebra.Order.Ring.Rat
import ScanPlatform.Base.Checks
import ScanPlatform.Engine.Safety

/-!
# The decision of the agent

The model answers with any JSON value, or not at all; the code takes the next tool from the answer.
The arithmetic of the ranking is exact.

* `PyFloat`, `AgentServices`: `float()` and `str()` of a JSON value;
* `CandidateAction`, `AgentDecision`, `parseCandidates`, `agentDecide`: the decision;
* **`agentDecide_tool_mem`**: a decision that runs a tool runs one that was offered.
-/

set_option autoImplicit false

namespace ScanPlatform

/-- What `float(value)` gives or raises: `refused` is a `TypeError` or a `ValueError`. -/
inductive PyFloat where
  | finite (q : ℚ)
  | infinite (positive : Bool)
  | nan
  | refused
  | overflow

structure AgentServices where
  float : Json.Value → PyFloat
  str : Json.Value → String

structure CandidateAction where
  tool : String
  confidence : ℚ
  expectedValue : String
  risk : String
  expectedEvidence : List String
  rationale : String

inductive AgentAction where
  | runTool
  | finish
  deriving DecidableEq

structure AgentDecision where
  action : AgentAction
  tool : Option String
  phase : String
  rationale : String
  observations : List String := []
  inferences : List String := []
  hypotheses : List String := []
  /-- Best first. -/
  candidates : List CandidateAction := []
  confidence : ℚ := 0
  stopReason : Option String := none

/-- `_VALUE_WEIGHT`. -/
def valueWeight (label : String) : ℚ :=
  ([("low", 1), ("medium", 115 / 100), ("high", 13 / 10)].lookup label).getD 1

/-- `_RISK_RANK`. -/
def riskRank (label : String) : ℚ :=
  ([("low", 0), ("medium", 1), ("high", 2)].lookup label).getD 0

/-- `_candidate_score`. -/
def candidateScore (c : CandidateAction) : ℚ :=
  c.confidence * valueWeight c.expectedValue - 1 / 10 * riskRank c.risk

/-- `_str_list`. -/
def strList (svc : AgentServices) (value : Option Json.Value) (limit maxLen : ℕ) : List String :=
  let items : List Json.Value := match value with
    | some (.str s) => [.str s]
    | some (.arr xs) => xs
    | _ => []
  let texts := (items.map fun item => PyStr.strip (svc.str item)).filter (· ≠ "")
  (texts.map (PyStr.upTo maxLen)).take limit

/-- `_clamp_confidence`; an integer that is too large for a float raises. -/
def clampConfidence (svc : AgentServices) (value : Option Json.Value) : Except Fault ℚ :=
  match value.map svc.float with
  | some (.finite q) => .ok (max 0 (min 1 q))
  | some (.infinite positive) => .ok (if positive then 1 else 0)
  | some .nan => .ok 1
  | some .refused | none => .ok (1 / 2)
  | some .overflow => .error (.raised "OverflowError")

/-- `_norm_label`. -/
def normLabel (svc : AgentServices) (value : Option Json.Value) : String :=
  let given := value.filter Json.Value.truthy
  let text := PyStr.lower (PyStr.strip ((given.map svc.str).getD ""))
  if text ∈ ["low", "medium", "high"] then text else "medium"

/-- `str(it.get("rationale", ""))[:300]`. -/
def rationaleOf (svc : AgentServices) (it : Json.Object) : String :=
  PyStr.upTo 300 (((it.get "rationale").map svc.str).getD "")

/-- The tool that an answer names, if it is offered. -/
def offeredTool (available : List String) (it : Json.Object) : Option String :=
  match it.get "tool" with
  | some (.str tool) => if tool ∈ available then some tool else none
  | _ => none

/-- An object of `candidate_actions`. -/
def parseCandidate (svc : AgentServices) (available : List String) (it : Json.Object) :
    Except Fault (Option CandidateAction) :=
  match offeredTool available it with
  | none => .ok none
  | some tool =>
    (clampConfidence svc (it.get "confidence")).map fun confidence => some {
      tool
      confidence
      expectedValue := normLabel svc (it.get "expected_value")
      risk := normLabel svc (it.get "risk")
      expectedEvidence := strList svc (it.get "expected_evidence") 6 300
      rationale := rationaleOf svc it }

/-- One item of `candidate_actions`. -/
def parseItem (svc : AgentServices) (available : List String) :
    Json.Value → Except Fault (Option CandidateAction)
  | .obj it => parseCandidate svc available it
  | _ => .ok none

/-- The schema with a single tool. -/
def parseFlat (svc : AgentServices) (available : List String) (raw : Json.Object) :
    Except Fault (Option CandidateAction) :=
  match raw.get "action", offeredTool available raw with
  | some (.str "run_tool"), some tool =>
    (clampConfidence svc (raw.get "confidence")).map fun confidence => some {
      tool
      confidence
      expectedValue := "medium"
      risk := "medium"
      expectedEvidence := []
      rationale := rationaleOf svc raw }
  | _, _ => .ok none

/-- The candidates of an answer in its own order. -/
def parseAll (svc : AgentServices) (raw : Json.Object) (available : List String) :
    Except Fault (List (Option CandidateAction)) :=
  match raw.get "candidate_actions" with
  | some (.arr items) => items.mapM (parseItem svc available)
  | _ => (parseFlat svc available raw).map fun c => [c]

/-- `_parse_candidates`: the best first, in the order of the answer among equals. -/
def parseCandidates (svc : AgentServices) (raw : Json.Object) (available : List String)
    (minConfidence : ℚ) : Except Fault (List CandidateAction) :=
  (parseAll svc raw available).map fun parsed =>
    let out := (parsed.filterMap id).filter fun c =>
      minConfidence ≤ 0 ∨ minConfidence ≤ c.confidence
    out.insertionSort fun a b => candidateScore b ≤ candidateScore a

/-- `raw.get(key)`, as a text if it counts as true. -/
def truthyText (svc : AgentServices) (raw : Json.Object) (key : String) : Option String :=
  ((raw.get key).filter Json.Value.truthy).map svc.str

/-- The decision that ends the engagement without an answer of the model. -/
def AgentDecision.finishWith (phase rationale stopReason : String) : AgentDecision where
  action := .finish
  tool := none
  phase
  rationale
  stopReason := some stopReason

/-- The decision on an answer that is an object. -/
def decideOn (svc : AgentServices) (currentPhase : String) (minConfidence : ℚ)
    (raw : Json.Object) (candidates : List CandidateAction) : AgentDecision :=
  let stopReason := (truthyText svc raw "stop_reason").map (PyStr.upTo 200)
  let defaultStop :=
    if 0 < minConfidence ∧ candidates.isEmpty then "below_confidence_floor" else "no_candidates"
  let decision : AgentDecision := {
    action := .finish
    tool := none
    phase := ((truthyText svc raw "kill_chain_phase").or (truthyText svc raw "phase")).getD
      currentPhase
    rationale := stopReason.getD "no valid candidate actions"
    observations := strList svc (raw.get "observations") 8 300
    inferences := strList svc (raw.get "inferences") 8 300
    hypotheses := strList svc (raw.get "hypotheses") 8 300
    candidates
    stopReason := some (stopReason.getD defaultStop) }
  match raw.get "action", candidates with
  | some (.str "finish"), _ => decision
  | _, [] => decision
  | _, best :: _ =>
    { decision with
      action := .runTool
      tool := some best.tool
      rationale := if best.rationale = "" then "selected by confidence" else best.rationale
      confidence := best.confidence
      stopReason := none }

/-- `RedTeamAgent.decide`; `reply` is what the client returns, or the name of what it raises. -/
def agentDecide (svc : AgentServices) (currentPhase : String) (minConfidence : ℚ)
    (available : List String) (reply : Except String Json.Value) : Except Fault AgentDecision :=
  if available = [] then
    .ok (.finishWith currentPhase "no further safe actions available" "no_available_tools")
  else
    match reply with
    | .error exception =>
      .ok (.finishWith currentPhase s!"ai_unavailable: {exception}" "ai_unavailable")
    | .ok (.obj raw) =>
      (parseCandidates svc raw available minConfidence).map
        (decideOn svc currentPhase minConfidence raw)
    | .ok _ => .ok (.finishWith currentPhase "ai returned non-object" "bad_ai_output")

/-! ## Only offered tools -/

variable {svc : AgentServices} {available : List String}

theorem offeredTool_mem {it : Json.Object} {tool : String}
    (h : offeredTool available it = some tool) : tool ∈ available := by
  unfold offeredTool at h
  split at h
  · split at h
    · next hmem => cases h; exact hmem
    · cases h
  · cases h

theorem parseItem_mem {item : Json.Value} {c : CandidateAction}
    (h : parseItem svc available item = .ok (some c)) : c.tool ∈ available := by
  unfold parseItem at h
  split at h
  · unfold parseCandidate at h
    split at h
    · cases h
    · next htool =>
      obtain ⟨confidence, -, hc⟩ := Checks.map_eq_ok.mp h
      cases hc
      exact offeredTool_mem htool
  · cases h

theorem parseFlat_mem {raw : Json.Object} {c : CandidateAction}
    (h : parseFlat svc available raw = .ok (some c)) : c.tool ∈ available := by
  unfold parseFlat at h
  split at h
  · next htool =>
    obtain ⟨confidence, -, hc⟩ := Checks.map_eq_ok.mp h
    cases hc
    exact offeredTool_mem htool
  · cases h

theorem parseAll_mem {raw : Json.Object} {parsed : List (Option CandidateAction)}
    (h : parseAll svc raw available = .ok parsed) : ∀ c, some c ∈ parsed → c.tool ∈ available := by
  intro c hc
  unfold parseAll at h
  split at h
  · obtain ⟨item, -, hitem⟩ := Checks.mem_of_mapM_eq_ok h _ hc
    exact parseItem_mem hitem
  · obtain ⟨c', hc', rfl⟩ := Checks.map_eq_ok.mp h
    obtain rfl := List.mem_singleton.mp hc
    exact parseFlat_mem hc'

theorem parseCandidates_mem {raw : Json.Object} {minConfidence : ℚ}
    {candidates : List CandidateAction}
    (h : parseCandidates svc raw available minConfidence = .ok candidates) :
    ∀ c ∈ candidates, c.tool ∈ available := by
  obtain ⟨parsed, hparsed, rfl⟩ := Checks.map_eq_ok.mp h
  intro c hc
  have hkept := List.mem_filter.mp ((List.perm_insertionSort _ _).mem_iff.mp hc)
  obtain ⟨o, ho, hsome⟩ := List.mem_filterMap.mp hkept.1
  exact parseAll_mem hparsed c (hsome ▸ ho)

/-- The tool of a decision is that of its first candidate. -/
theorem decideOn_tool {currentPhase : String} {minConfidence : ℚ} {raw : Json.Object}
    {candidates : List CandidateAction} {tool : String}
    (h : (decideOn svc currentPhase minConfidence raw candidates).tool = some tool) :
    ∃ c ∈ candidates, c.tool = tool := by
  unfold decideOn at h
  dsimp only at h
  split at h
  · cases h
  · cases h
  · next best rest _ =>
    cases h
    exact ⟨best, List.mem_cons_self, rfl⟩

/-- **The agent never freelances**: what it runs was offered. -/
theorem agentDecide_tool_mem {currentPhase : String} {minConfidence : ℚ}
    {reply : Except String Json.Value} {decision : AgentDecision}
    (h : agentDecide svc currentPhase minConfidence available reply = .ok decision) {tool : String}
    (htool : decision.tool = some tool) : tool ∈ available := by
  unfold agentDecide at h
  split at h
  · cases h
    cases htool
  · split at h
    · cases h
      cases htool
    · obtain ⟨candidates, hcandidates, rfl⟩ := Checks.map_eq_ok.mp h
      obtain ⟨c, hc, rfl⟩ := decideOn_tool htool
      exact parseCandidates_mem hcandidates c hc
    · cases h
      cases htool

end ScanPlatform
