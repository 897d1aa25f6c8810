import ScanPlatform.Agent.Decide

/-!
# The audit rows of a decision

What the orchestrator persists of a decision, and which answers of the model give a decision that
its columns take.

* `ColumnType`, `Column`, `Fits`: the declared columns, and the values that they take;
* `AgentDecision.summary`, `stepCells`, `engagementCells`, `decisionCells`: the rows of a decision;
* `proposals`, `Survives`: the objects of an answer that name an offered tool;
* **`decision_persistable_iff`**: the answers that give a decision which can be persisted.
-/

set_option autoImplicit false

namespace ScanPlatform

/-! ## Columns -/

inductive ColumnType where
  /-- `String(length)`, in characters. -/
  | string (length : ℕ)
  | text
  | float
  | json

inductive ColumnValue where
  | null
  | str (s : String)
  | num (q : ℚ)
  | json (v : Json.Value)

structure Column where
  name : String
  type : ColumnType
  nullable : Bool

/-- The column takes the value; `TEXT` holds 65535 bytes of UTF-8. -/
def Column.Takes (c : Column) : ColumnValue → Prop
  | .null => c.nullable
  | .str s =>
    match c.type with
    | .string length => s.length ≤ length
    | .text => s.utf8ByteSize ≤ 65535
    | .float | .json => False
  | .num _ =>
    match c.type with
    | .float => True
    | .string _ | .text | .json => False
  | .json _ =>
    match c.type with
    | .json => True
    | .string _ | .text | .float => False

/-- Every column takes its value. -/
def Fits (cells : List (Column × ColumnValue)) : Prop := ∀ cell ∈ cells, cell.1.Takes cell.2

def ColumnValue.ofText : Option String → ColumnValue
  | none => .null
  | some s => .str s

/-- A list of texts, in a `JSON` column. -/
def ColumnValue.ofTexts (texts : List String) : ColumnValue := .json (.arr (texts.map .str))

/-! ## The rows of a decision -/

def AgentAction.text : AgentAction → String
  | .runTool => "run_tool"
  | .finish => "finish"

/-- `"; ".join(texts)` under a label, if there are any. -/
def labelled (label : String) (sep : String) (texts : List String) : List String :=
  if texts.isEmpty then [] else [label ++ sep.intercalate texts]

/-- `AgentDecision.summary`; `fixed2` is the format `.2f`. -/
def AgentDecision.summary (fixed2 : ℚ → String) (d : AgentDecision) : String :=
  let chosen := d.candidates.map fun c => s!"{c.tool}@{fixed2 c.confidence}"
  let reason := ((d.stopReason.filter (· ≠ "")).or (some d.rationale)).filter (· ≠ "")
  let last := match d.action with
    | .runTool =>
      let tool := d.tool.getD "None"
      let confidence := fixed2 d.confidence
      let rationale := d.rationale
      s!"selected: {tool}@{confidence} -- {rationale}"
    | .finish => "finish: " ++ reason.getD "no further safe actions"
  let parts := labelled "obs: " "; " (d.observations.take 4) ++
    labelled "inf: " "; " (d.inferences.take 3) ++ labelled "hyp: " "; " (d.hypotheses.take 3) ++
    labelled "candidates: " ", " (chosen.take 5) ++ [last]
  PyStr.upTo 2000 (" | ".intercalate parts)

/-- `(text or None) and text[:2000]`. -/
def bounded (text : String) : Option String :=
  if text = "" then none else some (PyStr.upTo 2000 text)

/-- `_serialize_candidates`, with each confidence as `amount` writes it. -/
def CandidateAction.serialize (amount : ℚ → Json.Value) (c : CandidateAction) : Json.Value :=
  .obj [("tool", .str c.tool), ("confidence", amount c.confidence),
    ("expected_value", .str c.expectedValue), ("risk", .str c.risk),
    ("expected_evidence", .arr (c.expectedEvidence.map .str)), ("rationale", .str c.rationale)]

/-- How numbers are written into a text and into a `JSON` column. -/
structure NumberFormats where
  fixed2 : ℚ → String
  amount : ℚ → Json.Value

/-- What `_record` writes of a decision into `agent_steps`. -/
def AgentDecision.stepCells (formats : NumberFormats) (d : AgentDecision) :
    List (Column × ColumnValue) :=
  [(⟨"phase", .string 32, false⟩, .str d.phase),
    (⟨"tool_or_module", .string 64, true⟩, .ofText d.tool),
    (⟨"rationale", .text, true⟩, .ofText (bounded (d.summary formats.fixed2)))]

/-- What a decision that runs a tool leaves in `engagement_state`. -/
def AgentDecision.engagementCells (d : AgentDecision) : List (Column × ColumnValue) :=
  match d.action with
  | .runTool => [(⟨"current_phase", .string 32, false⟩, .str d.phase)]
  | .finish => []

/-- What `persist_agent_decision` writes of a decision into `agent_decisions`. -/
def AgentDecision.decisionCells (formats : NumberFormats) (d : AgentDecision) :
    List (Column × ColumnValue) :=
  [(⟨"phase", .string 32, false⟩, .str d.phase),
    (⟨"action", .string 16, false⟩, .str d.action.text),
    (⟨"observations", .json, false⟩, .ofTexts d.observations),
    (⟨"inferences", .json, false⟩, .ofTexts d.inferences),
    (⟨"hypotheses", .json, false⟩, .ofTexts d.hypotheses),
    (⟨"candidates", .json, false⟩,
      .json (.arr (d.candidates.map (CandidateAction.serialize formats.amount)))),
    (⟨"selected_tool", .string 64, true⟩, .ofText d.tool),
    (⟨"selected_confidence", .float, true⟩, .num d.confidence),
    (⟨"rationale", .text, true⟩, .ofText (bounded d.rationale)),
    (⟨"stop_reason", .string 64, true⟩, .ofText d.stopReason)]

/-- Every row that a decision leads to fits its columns. -/
def AgentDecision.Persistable (formats : NumberFormats) (d : AgentDecision) : Prop :=
  Fits (d.stepCells formats) ∧ Fits d.engagementCells ∧ Fits (d.decisionCells formats)

/-! ## What an answer proposes -/

/-- An object that names an offered tool. -/
def proposal (available : List String) : Json.Value → Option Json.Object
  | .obj it => if (offeredTool available it).isSome then some it else none
  | .null | .bool _ | .num _ _ | .str _ | .arr _ => none

/-- An answer that names an offered tool itself, and asks to run it. -/
def flatProposal (available : List String) (raw : Json.Object) : Option Json.Object :=
  match raw.get "action" with
  | some (.str "run_tool") => proposal available (.obj raw)
  | _ => none

/-- The objects of an answer that may become candidates. -/
def proposals (available : List String) (raw : Json.Object) : List Json.Object :=
  match raw.get "candidate_actions" with
  | some (.arr items) => items.filterMap (proposal available)
  | _ => (flatProposal available raw).toList

/-- The confidence of the object is a number for `float()`, and not below the floor. -/
def Survives (svc : AgentServices) (minConfidence : ℚ) (it : Json.Object) : Prop :=
  ∃ q, clampConfidence svc (it.get "confidence") = .ok q ∧ (minConfidence ≤ 0 ∨ minConfidence ≤ q)

/-- What an answer that is an object must keep to. -/
structure AnswerFits (svc : AgentServices) (available : List String) (currentPhase : String)
    (minConfidence : ℚ) (raw : Json.Object) : Prop where
  confidence : ∀ it ∈ proposals available raw, ∀ v ∈ it.get "confidence", svc.float v ≠ .overflow
  phase : (((truthyText svc raw "kill_chain_phase").or (truthyText svc raw "phase")).getD
    currentPhase).length ≤ 32
  stopReason : (raw.get "action" = some (.str "finish") ∨
      ∀ it ∈ proposals available raw, ¬ Survives svc minConfidence it) →
    ∀ reason ∈ truthyText svc raw "stop_reason", reason.length ≤ 64

/-- What the answer of the model must keep to. -/
def ReplyFits (svc : AgentServices) (available : List String) (currentPhase : String)
    (minConfidence : ℚ) : Except String Json.Value → Prop
  | .ok (.obj raw) =>
    if available = [] then currentPhase.length ≤ 32
    else AnswerFits svc available currentPhase minConfidence raw
  | _ => currentPhase.length ≤ 32

/-! ## The columns of a decision -/

theorem length_upTo (n : ℕ) (s : String) : (PyStr.upTo n s).length = min n s.length := by
  simp [PyStr.upTo, String.length_ofList, List.length_take, String.length_toList]

theorem utf8ByteSize_ofList_le (l : List Char) : (String.ofList l).utf8ByteSize ≤ 4 * l.length := by
  induction l with
  | nil => simp
  | cons c l ih =>
    rw [String.ofList_cons, String.utf8ByteSize_append, String.utf8ByteSize_singleton,
      List.length_cons]
    have hchar : c.utf8Size ≤ 4 := c.utf8Size_le_four
    omega

theorem bounded_takes (name : String) (text : String) :
    (Column.mk name .text true).Takes (.ofText (bounded text)) := by
  unfold bounded
  split_ifs
  · rfl
  · show (PyStr.upTo 2000 text).utf8ByteSize ≤ 65535
    have hsize := utf8ByteSize_ofList_le (text.toList.take 2000)
    have hlength := List.length_take_le 2000 text.toList
    unfold PyStr.upTo
    omega

/-- **A decision can be persisted** if and only if its phase, its tool and its stop reason are as
short as their columns. -/
theorem persistable_iff (formats : NumberFormats) (d : AgentDecision) :
    d.Persistable formats ↔ d.phase.length ≤ 32 ∧ (∀ tool ∈ d.tool, tool.length ≤ 64) ∧
      ∀ reason ∈ d.stopReason, reason.length ≤ 64 := by
  have htext : ∀ name : String, ∀ s : Option String,
      (Column.mk name (.string 64) true).Takes (.ofText s) ↔ ∀ t ∈ s, t.length ≤ 64 := by
    rintro name (_ | t) <;> simp [ColumnValue.ofText, Column.Takes]
  have haction : d.action.text.length ≤ 16 := by
    cases d.action <;> decide
  have hengagement : Fits d.engagementCells ↔ d.action = .runTool → d.phase.length ≤ 32 := by
    unfold AgentDecision.engagementCells
    cases d.action <;> simp [Fits, Column.Takes]
  rw [AgentDecision.Persistable, hengagement]
  simp only [Fits, AgentDecision.stepCells, AgentDecision.decisionCells, List.forall_mem_cons,
    List.not_mem_nil, false_imp_iff, implies_true, and_true, htext, bounded_takes, true_and]
  simp only [Column.Takes, ColumnValue.ofTexts, true_and, haction]
  tauto

/-! ## The candidates of an answer -/

section

variable {svc : AgentServices} {available : List String} {raw : Json.Object} {minConfidence : ℚ}

theorem clampConfidence_isOk {value : Option Json.Value} :
    (∃ q, clampConfidence svc value = .ok q) ↔ ∀ v ∈ value, svc.float v ≠ .overflow := by
  cases value with
  | none => simp [clampConfidence]
  | some v => cases h : svc.float v <;> simp [clampConfidence, h]

/-- What becomes of an item or of a flat answer. -/
def Parses (svc : AgentServices) (o : Option Json.Object)
    (parsed : Except Fault (Option CandidateAction)) : Prop :=
  match o with
  | none => parsed = .ok none
  | some it => ∃ mk : ℚ → CandidateAction, (∀ q, (mk q).confidence = q) ∧
      parsed = (clampConfidence svc (it.get "confidence")).map fun q => some (mk q)

theorem proposal_of_none {it : Json.Object} (h : offeredTool available it = none) :
    proposal available (.obj it) = none := by
  simp [proposal, h]

theorem proposal_of_some {it : Json.Object} {tool : String}
    (h : offeredTool available it = some tool) : proposal available (.obj it) = some it := by
  simp [proposal, h]

theorem parseItem_parses (item : Json.Value) :
    Parses svc (proposal available item) (parseItem svc available item) := by
  cases item with
  | obj it =>
    simp only [parseItem, parseCandidate]
    cases h : offeredTool available it with
    | none =>
      rw [proposal_of_none h]
      rfl
    | some tool =>
      rw [proposal_of_some h]
      exact ⟨_, fun q => rfl, rfl⟩
  | null | bool | num | str | arr => rfl

theorem parseFlat_parses :
    Parses svc (flatProposal available raw) (parseFlat svc available raw) := by
  unfold flatProposal
  cases h : offeredTool available raw with
  | none =>
    have hparse : parseFlat svc available raw = .ok none := by
      unfold parseFlat
      rw [h]
      split
      · next hsome => cases hsome
      · rfl
    rw [proposal_of_none h, hparse]
    split <;> rfl
  | some tool =>
    unfold parseFlat
    rw [proposal_of_some h]
    split
    · next haction =>
      rw [haction, h]
      exact ⟨_, fun q => rfl, rfl⟩
    · next hother =>
      rw [h]
      split
      · next haction _ => exact absurd haction hother
      · rfl

/-- **The parse succeeds** when every proposal has a confidence for `float()`. -/
theorem parseAll_isOk : (∃ parsed, parseAll svc raw available = .ok parsed) ↔
    ∀ it ∈ proposals available raw, ∃ q, clampConfidence svc (it.get "confidence") = .ok q := by
  have hone : ∀ {o : Option Json.Object} {r : Except Fault (Option CandidateAction)},
      Parses svc o r → ((∃ c, r = .ok c) ↔
        ∀ it ∈ o, ∃ q, clampConfidence svc (it.get "confidence") = .ok q) := by
    rintro (_ | it) r h
    · simp [show r = .ok none from h]
    · obtain ⟨mk, -, rfl⟩ := h
      simp [Checks.map_eq_ok]
  unfold parseAll
  split
  · next items heq =>
    have hproposals : proposals available raw = items.filterMap (proposal available) := by
      rw [proposals, heq]
    rw [hproposals, Checks.mapM_isOk]
    constructor
    · intro h it hit
      obtain ⟨item, hitem, hproposal⟩ := List.mem_filterMap.mp hit
      exact (hone (parseItem_parses item)).mp (h item hitem) it hproposal
    · intro h item hitem
      exact (hone (parseItem_parses item)).mpr fun it hit =>
        h it (List.mem_filterMap.mpr ⟨item, hitem, hit⟩)
  · next hother =>
    have hproposals : proposals available raw = (flatProposal available raw).toList := by
      unfold proposals
      split
      · next items heq => exact absurd heq (hother items)
      · rfl
    simp only [hproposals, Checks.map_eq_ok, Option.mem_toList]
    refine Iff.trans ?_ (hone parseFlat_parses)
    constructor
    · rintro ⟨-, c, hc, -⟩
      exact ⟨c, hc⟩
    · rintro ⟨c, hc⟩
      exact ⟨_, c, hc, rfl⟩

/-- **The candidates that are parsed** have the confidences of the proposals. -/
theorem parseAll_confidence {parsed : List (Option CandidateAction)}
    (h : parseAll svc raw available = .ok parsed) (q : ℚ) :
    (∃ c, some c ∈ parsed ∧ c.confidence = q) ↔
      ∃ it ∈ proposals available raw, clampConfidence svc (it.get "confidence") = .ok q := by
  have hone : ∀ {o : Option Json.Object} {r : Except Fault (Option CandidateAction)},
      Parses svc o r → ((∃ c, r = .ok (some c) ∧ c.confidence = q) ↔
        ∃ it ∈ o, clampConfidence svc (it.get "confidence") = .ok q) := by
    rintro (_ | it) r h
    · simp [show r = .ok none from h]
    · obtain ⟨mk, hmk, rfl⟩ := h
      simp only [Checks.map_eq_ok, Option.some.injEq, Option.mem_def, exists_eq_left']
      constructor
      · rintro ⟨c, ⟨q', hq', rfl⟩, rfl⟩
        rwa [hmk]
      · exact fun hq => ⟨mk q, ⟨q, hq, rfl⟩, hmk q⟩
  unfold parseAll at h
  unfold proposals
  split at h
  · next items heq =>
    simp only [heq, List.mem_filterMap]
    constructor
    · rintro ⟨c, hc, rfl⟩
      obtain ⟨item, hitem, hparsed⟩ := Checks.mem_of_mapM_eq_ok h _ hc
      obtain ⟨it, hit, hq⟩ := (hone (parseItem_parses item)).mp ⟨c, hparsed, rfl⟩
      exact ⟨it, ⟨item, hitem, hit⟩, hq⟩
    · rintro ⟨it, ⟨item, hitem, hit⟩, hq⟩
      obtain ⟨c, hc, hcq⟩ := (hone (parseItem_parses item)).mpr ⟨it, hit, hq⟩
      obtain ⟨b, hb, hbc⟩ := Checks.mem_mapM_of_mem h item hitem
      rw [hc] at hbc
      cases hbc
      exact ⟨c, hb, hcq⟩
  · next hother =>
    obtain ⟨o, ho, rfl⟩ := Checks.map_eq_ok.mp h
    simp only [List.mem_singleton, Option.mem_toList]
    refine Iff.trans ?_ (hone parseFlat_parses)
    rw [ho]
    simp [eq_comm]

theorem parseCandidates_isOk :
    (∃ candidates, parseCandidates svc raw available minConfidence = .ok candidates) ↔
      ∀ it ∈ proposals available raw, ∀ v ∈ it.get "confidence", svc.float v ≠ .overflow := by
  simp only [← clampConfidence_isOk, ← parseAll_isOk]
  constructor
  · rintro ⟨candidates, h⟩
    obtain ⟨parsed, hparsed, -⟩ := Checks.map_eq_ok.mp h
    exact ⟨parsed, hparsed⟩
  · rintro ⟨parsed, hparsed⟩
    exact ⟨_, Checks.map_eq_ok.mpr ⟨parsed, hparsed, rfl⟩⟩

/-- **No candidate is left** when no proposal survives the floor. -/
theorem parseCandidates_eq_nil {candidates : List CandidateAction}
    (h : parseCandidates svc raw available minConfidence = .ok candidates) :
    candidates = [] ↔ ∀ it ∈ proposals available raw, ¬ Survives svc minConfidence it := by
  obtain ⟨parsed, hparsed, rfl⟩ := Checks.map_eq_ok.mp h
  rw [← List.length_eq_zero_iff, (List.perm_insertionSort _ _).length_eq, List.length_eq_zero_iff,
    List.filter_eq_nil_iff]
  simp only [decide_eq_true_eq, List.mem_filterMap, id_eq, exists_eq_right]
  constructor
  · rintro hnone it hit ⟨q, hq, hfloor⟩
    obtain ⟨c, hc, rfl⟩ := (parseAll_confidence hparsed q).mpr ⟨it, hit, hq⟩
    exact hnone c hc hfloor
  · intro hnone c hc hfloor
    obtain ⟨it, hit, hq⟩ := (parseAll_confidence hparsed c.confidence).mp ⟨c, hc, rfl⟩
    exact hnone it hit ⟨c.confidence, hq, hfloor⟩

/-! ## Which answers give a decision that can be persisted -/

variable {currentPhase : String} {candidates : List CandidateAction}

theorem decideOn_phase : (decideOn svc currentPhase minConfidence raw candidates).phase =
    ((truthyText svc raw "kill_chain_phase").or (truthyText svc raw "phase")).getD
      currentPhase := by
  unfold decideOn
  dsimp only
  split <;> rfl

theorem decideOn_stopReason : (∀ reason ∈
      (decideOn svc currentPhase minConfidence raw candidates).stopReason, reason.length ≤ 64) ↔
    (raw.get "action" = some (.str "finish") ∨ candidates = [] →
      ∀ reason ∈ truthyText svc raw "stop_reason", reason.length ≤ 64) := by
  have hfinish : (∀ reason ∈ some (((truthyText svc raw "stop_reason").map (PyStr.upTo 200)).getD
        (if 0 < minConfidence ∧ candidates.isEmpty then "below_confidence_floor"
          else "no_candidates")), reason.length ≤ 64) ↔
      ∀ reason ∈ truthyText svc raw "stop_reason", reason.length ≤ 64 := by
    cases truthyText svc raw "stop_reason" with
    | none =>
      simp only [Option.map_none, Option.getD_none, Option.mem_some_iff, forall_eq',
        Option.not_mem_none, false_imp_iff, implies_true, iff_true]
      split_ifs <;> decide
    | some reason =>
      simp only [Option.map_some, Option.getD_some, Option.mem_some_iff, forall_eq', length_upTo]
      omega
  unfold decideOn
  dsimp only
  split
  · next haction =>
    rw [hfinish]
    exact ⟨fun h _ => h, fun h => h (.inl haction)⟩
  · rw [hfinish]
    exact ⟨fun h _ => h, fun h => h (.inr rfl)⟩
  · next haction =>
    refine ⟨fun _ h => ?_, fun _ _ h => by cases h⟩
    rcases h with h | h
    · exact absurd h haction
    · cases h

end

theorem registered_length : ∀ r ∈ toolRegistry, r.name.length ≤ 64 := by decide

/-- **A hostile answer is persisted** if and only if it keeps to the columns. -/
theorem decision_persistable_iff (svc : AgentServices) (formats : NumberFormats)
    (scope : AgentScope) (alreadyRun : List String) (currentPhase : String) (minConfidence : ℚ)
    (reply : Except String Json.Value) :
    (∃ decision, agentDecide svc currentPhase minConfidence
        ((availableTools scope alreadyRun).map RunnerInfo.name) reply = .ok decision ∧
      decision.Persistable formats) ↔
    ReplyFits svc ((availableTools scope alreadyRun).map RunnerInfo.name) currentPhase minConfidence
      reply := by
  have hoffered : ∀ tool ∈ (availableTools scope alreadyRun).map RunnerInfo.name,
      tool.length ≤ 64 := by
    intro tool htool
    obtain ⟨r, hr, rfl⟩ := List.mem_map.mp htool
    exact registered_length r (available_of_mem hr).1
  generalize (availableTools scope alreadyRun).map RunnerInfo.name = available at hoffered ⊢
  -- Without an answer to read, the phase stays and the texts are those of the code.
  have hwith : ∀ rationale stopReason, stopReason.length ≤ 64 → ((∃ decision,
      (.ok (.finishWith currentPhase rationale stopReason) : Except Fault AgentDecision) =
        .ok decision ∧ decision.Persistable formats) ↔ currentPhase.length ≤ 32) := by
    intro rationale stopReason hstop
    simp [persistable_iff, AgentDecision.finishWith, hstop]
  unfold agentDecide ReplyFits
  by_cases havailable : available = []
  · simp only [havailable, if_true]
    rw [hwith _ _ (by decide)]
    split <;> rfl
  · simp only [havailable, if_false]
    split
    · exact hwith _ _ (by decide)
    · next raw =>
      simp only [Checks.map_eq_ok]
      constructor
      · rintro ⟨decision, ⟨candidates, hcandidates, rfl⟩, hfits⟩
        obtain ⟨hphase, -, hstop⟩ := (persistable_iff formats _).mp hfits
        rw [decideOn_phase] at hphase
        rw [decideOn_stopReason, parseCandidates_eq_nil hcandidates] at hstop
        exact ⟨parseCandidates_isOk.mp ⟨candidates, hcandidates⟩, hphase, hstop⟩
      · rintro ⟨hconfidence, hphase, hstop⟩
        obtain ⟨candidates, hcandidates⟩ := parseCandidates_isOk.mpr hconfidence
        refine ⟨_, ⟨candidates, hcandidates, rfl⟩, (persistable_iff formats _).mpr
          ⟨decideOn_phase ▸ hphase, fun tool htool => ?_, ?_⟩⟩
        · obtain ⟨c, hc, rfl⟩ := decideOn_tool htool
          exact hoffered _ (parseCandidates_mem hcandidates c hc)
        · rw [decideOn_stopReason, parseCandidates_eq_nil hcandidates]
          exact hstop
    · next hother =>
      rw [hwith _ _ (by decide)]
      split
      · next heq => exact absurd (Except.ok.inj heq) (hother _)
      · rfl

/-- `float()` and `str()` of texts and whole numbers; from 2^1024 - 2^970 on, a number is too large
for a float. -/
def auditServices : AgentServices where
  float
    | .num m 0 => if 2 ^ 1024 - 2 ^ 970 ≤ |m| then .overflow else .finite m
    | .num m e => .finite (m / 10 ^ e)
    | .null | .bool _ | .str _ | .arr _ | .obj _ => .refused
  str
    | .str s => s
    | .num m _ => toString m
    | .null | .bool _ | .arr _ | .obj _ => ""

/-- What the agent decides on an answer against a fresh domain. -/
def plainDecision (answer : Json.Object) : Except Fault AgentDecision :=
  agentDecide auditServices "reconnaissance" 0
    ((availableTools ⟨"domain", false, SafetyTier.activeSafe⟩ []).map RunnerInfo.name)
    (.ok (.obj answer))

/-- A long phase, a long stop reason, and a confidence that no float holds. -/
def hostileAnswers : List Json.Object :=
  [[("action", .str "finish"),
      ("kill_chain_phase", .str "reconnaissance, weaponization and delivery")],
    [("action", .str "finish"), ("stop_reason", .str
      "every capability that the scope allows has been exercised, and nothing new was found")],
    [("action", .str "run_tool"), ("tool", .str "httpx"), ("confidence", .num (10 ^ 400) 0)]]

/-- **Hostile answers abort the engagement.** -/
theorem hostile_answers_abort : ¬ ∃ answer ∈ hostileAnswers, ∃ formats decision,
    plainDecision answer = .ok decision ∧ decision.Persistable formats := by
  have hlong : ∀ answer ∈ hostileAnswers, (plainDecision answer).toOption.all (fun d =>
      32 < d.phase.length ∨ d.stopReason.any fun reason => 64 < reason.length) = true := by
    decide +kernel
  rintro ⟨answer, hanswer, formats, decision, hdecision, hfits⟩
  obtain ⟨hphase, -, hstop⟩ := (persistable_iff formats decision).mp hfits
  have hone := hlong answer hanswer
  simp only [hdecision, Except.toOption, Option.all_some, decide_eq_true_eq,
    Option.any_eq_true] at hone
  rcases hone with hone | ⟨reason, hreason, hone⟩
  · omega
  · have := hstop reason hreason
    omega

end ScanPlatform
