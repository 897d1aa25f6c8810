import Mathlib.Data.List.Sort
import Mathlib.Data.Prod.Lex
import Mathlib.Data.String.Basic
import ScanPlatform.Engine.Runner
import ScanPlatform.Engine.Safety
import ScanPlatform.Net.ScopeSoundness

/-!
# Coverage and the next steps

Which of the surfaces that were found still lack the test that is expected of them, and which tests
are eligible next.

* `CoverageState`, `capabilityRunState`, `surfaceCoverage`, `buildCoverage`: the coverage;
* `AdaptiveCall`, `urlReasons`, `propose`, `selectAdaptiveCandidates`: the next steps;
* `Eligible`, `Actionable`, `JudgesEachSurface`: each surface is judged by its own state, in
  whatever order the findings come;
* `selected`, **`returns_selectAdaptiveCandidates`**: the selection, without the cache of the scope
  guard;
* `candidateAt`, **`proposals_eq`**, `state_of_propose`: what the loop makes of each finding;
* `Settled`, **`judges_of_settled`**, **`settled_of_judges`**: when each surface is judged by its
  own state; `adaptive_mixes_surfaces` is a service whose page is behind a login.
-/

set_option autoImplicit false

namespace ScanPlatform

open DerivedScope Json

/-! ## Coverage -/

inductive CoverageState where
  | discovered
  | outOfScope
  | unsupported
  | attemptedFailed
  | partialRun
  | covered
  | verified
  | requiresAuth
  deriving DecidableEq

structure ToolRunOutcome where
  tool : String
  status : String

structure SurfaceCoverage where
  assetType : String
  value : String
  expectedCapability : Option String
  state : CoverageState
  inScope : Bool
  reason : String

/-- The surfaces, and those among them that are owed a test. -/
structure CoverageProjection where
  surfaces : List SurfaceCoverage
  debt : List SurfaceCoverage

/-- `capability_for_tool`. -/
def capabilityForTool (tool : String) : Option String :=
  (registered tool).map RunnerInfo.capability

/-- `_expected_capability`. -/
def expectedCapability (assetType value : String) : Option String :=
  if assetType = "url" ∧ value ≠ "" ∧ '?' ∈ value.toList then some "dast_fuzzing"
  else
    [("subdomain", "web_service_discovery"), ("http_service", "web_crawling"),
      ("service", "service_fingerprinting"), ("port", "service_fingerprinting"),
      ("url", "parameter_discovery")].lookup assetType

/-- `_capability_run_state`. -/
def capabilityRunState (capability : String) (outcomes : List ToolRunOutcome) : CoverageState :=
  if toolsForCapability capability = [] then .unsupported
  else
    let states :=
      (outcomes.filter fun o => capabilityForTool o.tool = some capability).map (·.status)
    if states = [] then .discovered
    else if states.any (· ∈ ["completed", "completed_with_errors"]) then .covered
    else if states.any (· = "partial") then .partialRun
    else if states.all (· ∈ ["failed", "abandoned_revoked"]) then .attemptedFailed
    else .discovered

/-- `auth_state in UNCROSSED_AUTH_STATES`; a list or an object cannot be looked up in a set. -/
def isUncrossed : Option Value → Option Bool
  | some (.str s) => some (s ∈ ["protected", "login_redirect"])
  | some (.arr _) | some (.obj _) => none
  | none | some .null | some (.bool _) | some (.num _ _) => some false

namespace CommonFinding

/-- A finding with a type and a value. -/
def counted (f : CommonFinding) : Bool := f.assetType ≠ "" ∧ f.value ≠ ""

def authState (f : CommonFinding) : Option Value := f.metadata.get "auth_state"

/-- The state of a finding that is behind a boundary. -/
def authText (f : CommonFinding) : String :=
  match f.authState with
  | some (.str s) => s
  | _ => ""

def inScope (f : CommonFinding) : Bool := ((f.metadata.get "in_scope").getD (.bool true)).truthy

end CommonFinding

/-- What `reason` says of a state that the runs decide. -/
def runReason (expected targetType : String) : CoverageState → String
  | .covered => s!"{expected} ran to completion"
  | .partialRun => s!"{expected} ran only partially (timeout/kill/partial output)"
  | .attemptedFailed => s!"{expected} ran but every run failed"
  | .unsupported => s!"no tool implements {expected} for target_type={targetType}"
  | .discovered => s!"{expected} never ran against this surface"
  -- The runs decide no other state.
  | .outOfScope | .verified | .requiresAuth => ""

section

variable (outcomes : List ToolRunOutcome) (targetType : String) (verifiedLocations : List String)

/-- The state of a surface and the reason, once it is known whether it is behind a boundary. -/
def surfaceState (f : CommonFinding) (behindAuth : Bool) : CoverageState × String :=
  if !f.inScope then (.outOfScope, "outside authorized scope; not probed")
  else if f.value ∈ verifiedLocations then (.verified, "a finding here reached VERIFIED")
  else if behindAuth then
    (.requiresAuth, "behind an auth boundary (" ++ f.authText ++
      "); not reachable by the unauthenticated scan")
  else match expectedCapability f.assetType f.value with
    | none =>
      (.unsupported, "no expected next capability for asset_type=" ++ f.assetType)
    | some expected =>
      let state := capabilityRunState expected outcomes
      (state, runReason expected targetType state)

def surfaceWith (f : CommonFinding) (behindAuth : Bool) : SurfaceCoverage where
  assetType := f.assetType
  value := f.value
  expectedCapability := expectedCapability f.assetType f.value
  state := (surfaceState outcomes targetType verifiedLocations f behindAuth).1
  inScope := f.inScope
  reason := (surfaceState outcomes targetType verifiedLocations f behindAuth).2

/-- The body of the loop; `none` is a `TypeError`. -/
def surfaceCoverage (f : CommonFinding) : Option SurfaceCoverage :=
  (isUncrossed f.authState).map (surfaceWith outcomes targetType verifiedLocations f)

/-- `build_coverage`. -/
def buildCoverage (findings : List CommonFinding) : Option CoverageProjection :=
  ((findings.filter CommonFinding.counted).mapM
    (surfaceCoverage outcomes targetType verifiedLocations)).map fun surfaces =>
      { surfaces
        debt := surfaces.filter fun s =>
          s.state ∈ [CoverageState.discovered, CoverageState.attemptedFailed] ∧ s.inScope ∧
            s.expectedCapability.isSome }

end

/-! ## The next steps -/

/-- `_ACTIONABLE_COVERAGE`. -/
def CoverageState.actionable (state : CoverageState) : Bool :=
  state ∈ [CoverageState.discovered, CoverageState.attemptedFailed, CoverageState.partialRun]

/-- `_REASON_STRENGTH`. -/
def reasonStrength : List String :=
  ["discovered_parameter", "api_surface", "live_web_service", "incomplete_coverage",
    "attempted_failed_upstream", "partial_upstream"]

structure AdaptiveCandidate where
  capability : String
  tool : RunnerInfo
  target : String
  reasons : List String
  provenance : Object

/-- `_sort_key`. -/
def AdaptiveCandidate.sortKey (c : AdaptiveCandidate) : ℕ ×ₗ ℕ ×ₗ String ×ₗ String :=
  let strongest := (c.reasons.map fun r => reasonStrength.idxOf r).foldr min reasonStrength.length
  toLex (c.tool.phase, toLex (strongest, toLex (c.target, c.capability)))

/-- What candidates are told apart by. -/
def AdaptiveCandidate.key (c : AdaptiveCandidate) : String × String := (c.capability, c.target)

/-- `_coverage_reason`. -/
def coverageReason : CoverageState → String
  | .attemptedFailed => "attempted_failed_upstream"
  | .partialRun => "partial_upstream"
  | .discovered | .outOfScope | .unsupported | .covered | .verified | .requiresAuth =>
    "incomplete_coverage"

/-- A parameter of the endpoint is known. -/
def CommonFinding.hasParam (f : CommonFinding) : Bool :=
  (f.metadata.get "params").any Value.truthy || '?' ∈ f.value.toList

/-- `_url_reasons`. -/
def urlReasons (f : CommonFinding) (state : CoverageState) : String × List String :=
  let reasons := if (f.metadata.get "is_api").any Value.truthy then ["api_surface"] else []
  let (capability, reasons) :=
    if f.hasParam then ("dast_fuzzing", "discovered_parameter" :: reasons)
    else ("parameter_discovery", reasons ++ ["incomplete_coverage"])
  (capability, (reasons ++ [coverageReason state]).eraseDups)

/-- `_http_service_reasons`. -/
def httpServiceReasons (state : CoverageState) : String × List String :=
  ("web_crawling", ["live_web_service", coverageReason state])

/-- The capability that a finding calls for and the reasons. -/
def derived (f : CommonFinding) (state : CoverageState) : Option (String × List String) :=
  if f.assetType = "url" then some (urlReasons f state)
  else if f.assetType = "http_service" then some (httpServiceReasons state)
  else none

/-- The provenance of a candidate: members that are falsy are left out. -/
def provenance (f : CommonFinding) : Object :=
  [("source", (f.metadata.get "source").getD .null), ("asset_type", .str f.assetType)] ++
    ["raw_url", "params"].filterMap fun k =>
      ((f.metadata.get k).filter Value.truthy).map fun v => (k, v)

/-- What `select_adaptive_candidates` is given besides the findings. -/
structure AdaptiveCall where
  outcomes : List ToolRunOutcome
  scope : AgentScope
  targetValue : String
  alreadyRun : List String
  enforceScope : Bool

/-- The scope guard and its resolver, and `str(v)` of a value that is no text. -/
structure AdaptiveServices where
  guard : ScopeGuard
  resolver : String → Option (List String)
  text : Value → String

def targetTypeOf (name : String) : TargetType :=
  if name = "domain" then .domain else if name = "ip_range" then .ipRange else .other name

/-- A value as the scope guard sees it. -/
def AdaptiveServices.pyValue (svc : AdaptiveServices) : Option Value → PyValue
  | none => ⟨false, "None"⟩
  | some (.str s) => ⟨s ≠ "", s⟩
  | some v => ⟨v.truthy, svc.text v⟩

/-- A finding as the scope guard sees it. -/
def AdaptiveServices.scoped (svc : AdaptiveServices) (f : CommonFinding) :
    DerivedScope.Finding where
  host := svc.pyValue (f.metadata.get "host")
  ip := svc.pyValue (f.metadata.get "ip")
  value := ⟨f.value ≠ "", f.value⟩

/-- `state_by_value.get(value)`: the last surface of a value counts. -/
def CoverageProjection.stateByValue (projection : CoverageProjection) (value : String) :
    Option CoverageState :=
  (projection.surfaces.reverse.find? (·.value = value)).map (·.state)

section

variable (svc : AdaptiveServices) (call : AdaptiveCall)

/-- The candidate for a finding with an actionable state, if a tool resolves. -/
def propose (f : CommonFinding) (state : CoverageState) : Option AdaptiveCandidate :=
  (derived f state).bind fun (capability, reasons) =>
    (resolveCapability call.scope call.alreadyRun capability).map fun tool =>
      { capability, tool, target := f.value, reasons, provenance := provenance f }

/-- A candidate is added unless there is one for its capability and target. -/
def addCandidate (candidates : List AdaptiveCandidate) (c : AdaptiveCandidate) :
    List AdaptiveCandidate :=
  if c.key ∈ candidates.map AdaptiveCandidate.key then candidates else candidates ++ [c]

/-- `not enforce_scope or finding_in_scope(...)`. -/
def scopeAllows (extra : Finset String) (f : CommonFinding) : DerivedScope.Scan Bool :=
  if call.enforceScope then
    findingInScope svc.guard svc.resolver (targetTypeOf call.scope.targetType) call.targetValue
      (svc.scoped f) (some extra)
  else pure true

/-- The body of the loop of `select_adaptive_candidates`. -/
def considerFinding (projection : CoverageProjection) (extra : Finset String)
    (candidates : List AdaptiveCandidate) (f : CommonFinding) :
    DerivedScope.Scan (List AdaptiveCandidate) :=
  if !f.counted then pure candidates
  else
    let state := (projection.stateByValue f.value).getD .discovered
    if !state.actionable then pure candidates
    else do
      let ok ← scopeAllows svc call extra f
      pure (if ok then ((propose call f state).map (addCandidate candidates)).getD candidates
        else candidates)

/-- `select_adaptive_candidates`; `none` is a `TypeError`. -/
def selectAdaptiveCandidates (findings : List CommonFinding) :
    DerivedScope.Scan (Option (List AdaptiveCandidate)) :=
  match buildCoverage call.outcomes call.scope.targetType [] findings with
  | none => pure none
  | some projection => do
    let extra ← derivedScopeRoots svc.guard svc.resolver (targetTypeOf call.scope.targetType)
      call.targetValue (findings.map svc.scoped)
    let candidates ← findings.foldlM (considerFinding svc call projection extra) []
    pure (some (candidates.insertionSort fun a b => a.sortKey ≤ b.sortKey))

end

/-! ## What the next steps should be -/

section

variable (svc : AdaptiveServices) (call : AdaptiveCall)

/-- The finding calls for the capability. -/
def CallsFor (f : CommonFinding) (capability : String) : Prop :=
  f.assetType = "url" ∧
      capability = (if f.hasParam then "dast_fuzzing" else "parameter_discovery") ∨
    f.assetType = "http_service" ∧ capability = "web_crawling"

/-- The roots of the findings. -/
def scopeRoots (findings : List CommonFinding) : Finset String :=
  rootsOf svc.guard svc.resolver (targetTypeOf call.scope.targetType) call.targetValue
    (findings.map svc.scoped)

/-- The finding is in scope, where that is enforced. -/
def Entitled (roots : Finset String) (f : CommonFinding) : Prop :=
  call.enforceScope = true → InScope svc.guard svc.resolver (targetTypeOf call.scope.targetType)
    call.targetValue roots (DerivedScope.norm svc.guard (extractHost (svc.scoped f)))

instance (roots : Finset String) (f : CommonFinding) : Decidable (Entitled svc call roots f) :=
  inferInstanceAs (Decidable (_ → _))

/-- The coverage state that is computed for the finding itself; `none` is a `TypeError`. -/
def ownState (f : CommonFinding) : Option CoverageState :=
  (surfaceCoverage call.outcomes call.scope.targetType [] f).map (·.state)

/-- The finding itself has a state that is actionable. -/
def Actionable (f : CommonFinding) : Prop :=
  ∃ state, ownState call f = some state ∧ state.actionable

/-- Whatever its state is, a test of the capability may be the next step for the finding. One
without a type or a value has no state. -/
structure Eligible (findings : List CommonFinding) (capability : String) (f : CommonFinding) :
    Prop where
  mem : f ∈ findings
  counted : f.counted
  calls : CallsFor f capability
  scope : Entitled svc call (scopeRoots svc call findings) f
  resolves : (resolveCapability call.scope call.alreadyRun capability).isSome

/-- Each surface is judged by its own state, in whatever order the findings come. -/
structure JudgesEachSurface (findings : List CommonFinding) : Prop where
  order : ∀ findings', findings'.Perm findings → ∀ cache cache',
    Consistent svc.resolver cache → Consistent svc.resolver cache' →
      ((selectAdaptiveCandidates svc call findings').run cache').1 =
        ((selectAdaptiveCandidates svc call findings).run cache).1
  pairs : ∀ cache, Consistent svc.resolver cache → ∀ capability value,
    (∃ candidates, ((selectAdaptiveCandidates svc call findings).run cache).1 = some candidates ∧
      ∃ c ∈ candidates, c.capability = capability ∧ c.target = value) ↔
    ∃ f, Eligible svc call findings capability f ∧ f.value = value ∧ Actionable call f

end

/-! ## The coverage of the findings -/

section

variable {svc : AdaptiveServices} {call : AdaptiveCall} {findings : List CommonFinding}
  {f g : CommonFinding} {state : CoverageState} {capability : String}

/-- The state of the last finding of a value. -/
def stateAt (call : AdaptiveCall) (findings : List CommonFinding) (value : String) :
    CoverageState :=
  (((findings.filter CommonFinding.counted).reverse.find? (·.value = value)).bind
    (ownState call)).getD .discovered

/-- Nothing fails when every state can be computed. -/
def Readable (call : AdaptiveCall) (findings : List CommonFinding) : Prop :=
  ∀ f ∈ findings, f.counted → (ownState call f).isSome

instance : Decidable (Readable call findings) := inferInstanceAs (Decidable (∀ f ∈ findings, _))

theorem mapM_eq_some_map {α β : Type} {h : α → Option β} {k : α → β} {l : List α}
    (heq : ∀ a ∈ l, h a = some (k a)) : l.mapM h = some (l.map k) := by
  induction l with
  | nil => rfl
  | cons a l ih =>
    rw [List.forall_mem_cons] at heq
    rw [List.mapM_cons, heq.1, ih heq.2]
    rfl

theorem mapM_eq_none {α β : Type} {h : α → Option β} {l : List α} {a : α} (ha : a ∈ l)
    (hnone : h a = none) : l.mapM h = none := by
  induction l with
  | nil => cases ha
  | cons b l ih =>
    rw [List.mapM_cons]
    rcases List.mem_cons.mp ha with rfl | ha
    · rw [hnone]
      rfl
    · rw [ih ha]
      cases h b <;> rfl

theorem ownState_isSome : (ownState call f).isSome = (isUncrossed f.authState).isSome := by
  unfold ownState surfaceCoverage
  rw [Option.isSome_map, Option.isSome_map]

/-- The surface of a finding whose state can be computed. -/
def surfaceOf (call : AdaptiveCall) (f : CommonFinding) : SurfaceCoverage :=
  surfaceWith call.outcomes call.scope.targetType [] f ((isUncrossed f.authState).getD false)

theorem surfaceCoverage_eq (h : (ownState call f).isSome) :
    surfaceCoverage call.outcomes call.scope.targetType [] f = some (surfaceOf call f) := by
  rw [ownState_isSome] at h
  obtain ⟨behindAuth, hbehind⟩ := Option.isSome_iff_exists.mp h
  unfold surfaceCoverage surfaceOf
  rw [hbehind]
  rfl

theorem ownState_eq (h : (ownState call f).isSome) :
    ownState call f = some (surfaceOf call f).state := by
  rw [ownState, surfaceCoverage_eq h]
  rfl

/-- **The coverage** is there when every state can be computed, and it gives each value the state of
the last finding. -/
theorem buildCoverage_spec (call : AdaptiveCall) (findings : List CommonFinding) :
    ¬ Readable call findings ∧
        buildCoverage call.outcomes call.scope.targetType [] findings = none ∨
      Readable call findings ∧ ∃ projection,
        buildCoverage call.outcomes call.scope.targetType [] findings = some projection ∧
          ∀ value, (projection.stateByValue value).getD .discovered =
            stateAt call findings value := by
  by_cases hreadable : Readable call findings
  · right
    have hall : ∀ f ∈ findings.filter CommonFinding.counted, (ownState call f).isSome := by
      intro f hf
      obtain ⟨hmem, hcounted⟩ := List.mem_filter.mp hf
      exact hreadable f hmem hcounted
    have hmap := mapM_eq_some_map fun f hf => surfaceCoverage_eq (hall f hf)
    refine ⟨hreadable, _, by rw [buildCoverage, hmap]; rfl, fun value => ?_⟩
    unfold CoverageProjection.stateByValue stateAt
    rw [← List.map_reverse, List.find?_map, Option.map_map]
    cases hfind : (findings.filter CommonFinding.counted).reverse.find? (·.value = value) with
    | none =>
      have hcomp : (findings.filter CommonFinding.counted).reverse.find?
          ((fun s : SurfaceCoverage => decide (s.value = value)) ∘ surfaceOf call) = none := hfind
      rw [hcomp]
      rfl
    | some f =>
      have hcomp : (findings.filter CommonFinding.counted).reverse.find?
          ((fun s : SurfaceCoverage => decide (s.value = value)) ∘ surfaceOf call) = some f := hfind
      have hf := List.mem_reverse.mp (List.mem_of_find?_eq_some hfind)
      rw [hcomp, Option.bind_some, ownState_eq (hall f hf)]
      rfl
  · left
    refine ⟨hreadable, ?_⟩
    simp only [Readable, not_forall] at hreadable
    obtain ⟨f, hmem, hcounted, hnone⟩ := hreadable
    have hnone' : surfaceCoverage call.outcomes call.scope.targetType [] f = none := by
      unfold ownState at hnone
      simpa using hnone
    rw [buildCoverage, mapM_eq_none (List.mem_filter.mpr ⟨hmem, hcounted⟩) hnone']
    rfl

/-! ## The selection -/

/-- The candidate that the loop proposes for a finding, given the states of the values. -/
def candidateWith (svc : AdaptiveServices) (call : AdaptiveCall) (roots : Finset String)
    (states : String → CoverageState) (f : CommonFinding) : Option AdaptiveCandidate :=
  if f.counted ∧ (states f.value).actionable ∧ Entitled svc call roots f then
    propose call f (states f.value)
  else none

theorem returns_scopeAllows (roots : Finset String) (f : CommonFinding) :
    Returns (Consistent svc.resolver) (scopeAllows svc call roots f)
      (decide (Entitled svc call roots f)) := by
  unfold scopeAllows
  by_cases henforce : call.enforceScope = true
  · rw [if_pos henforce]
    refine (returns_hostInScope (targetTypeOf call.scope.targetType) call.targetValue _
      (some roots)).decide ?_
    rw [decide_eq_true_iff]
    exact ⟨fun h _ => h, fun h => h henforce⟩
  · rw [if_neg henforce]
    exact (Returns.pure true).decide ⟨fun _ h => absurd h henforce, fun _ => rfl⟩

theorem returns_considerFinding {projection : CoverageProjection}
    {states : String → CoverageState} {roots : Finset String}
    (hstates : ∀ value, (projection.stateByValue value).getD .discovered = states value)
    (candidates : List AdaptiveCandidate) (f : CommonFinding) :
    Returns (Consistent svc.resolver) (considerFinding svc call projection roots candidates f)
      (((candidateWith svc call roots states f).map (addCandidate candidates)).getD
        candidates) := by
  unfold considerFinding candidateWith
  by_cases hcounted : f.counted
  · rw [if_neg (by simp [hcounted])]
    dsimp only
    rw [hstates]
    by_cases hact : (states f.value).actionable
    · rw [if_neg (by simp [hact])]
      refine (returns_scopeAllows roots f).bind ?_
      by_cases hentitled : Entitled svc call roots f
      · rw [if_pos (decide_eq_true hentitled), if_pos ⟨hcounted, hact, hentitled⟩]
        exact Returns.pure _
      · rw [if_neg fun h => hentitled (of_decide_eq_true h), if_neg fun h => hentitled h.2.2]
        exact Returns.pure _
    · rw [if_pos (by simpa using hact), if_neg fun h => hact h.2.1]
      exact Returns.pure _
  · rw [if_pos (by simpa using hcounted), if_neg fun h => hcounted h.1]
    exact Returns.pure _

/-- The candidates in the order of the findings. -/
def adaptiveProposals (svc : AdaptiveServices) (call : AdaptiveCall)
    (findings : List CommonFinding) : List AdaptiveCandidate :=
  findings.foldl (fun candidates f => ((candidateWith svc call (scopeRoots svc call findings)
    (stateAt call findings) f).map (addCandidate candidates)).getD candidates) []

/-- The selection, of the resolver's answers alone. -/
def selected (svc : AdaptiveServices) (call : AdaptiveCall) (findings : List CommonFinding) :
    Option (List AdaptiveCandidate) :=
  if Readable call findings then
    some ((adaptiveProposals svc call findings).insertionSort fun a b => a.sortKey ≤ b.sortKey)
  else none

/-- **What is selected.** -/
theorem returns_selectAdaptiveCandidates (findings : List CommonFinding) :
    Returns (Consistent svc.resolver) (selectAdaptiveCandidates svc call findings)
      (selected svc call findings) := by
  unfold selectAdaptiveCandidates selected
  rcases buildCoverage_spec call findings with
    ⟨hno, hnone⟩ | ⟨hreadable, projection, hsome, hstates⟩
  · rw [hnone, if_neg hno]
    exact Returns.pure none
  · rw [hsome, if_pos hreadable]
    refine (returns_derivedScopeRoots (targetTypeOf call.scope.targetType) call.targetValue
      (findings.map svc.scoped)).bind ?_
    refine Returns.map _ ?_
    exact Returns.foldlM (fun candidates f => returns_considerFinding hstates candidates f)
      findings []

/-! ## What the loop proposes -/

/-- Whatever the state is, a finding calls for its capability. -/
theorem derived_fst {reasons : List String} (h : derived f state = some (capability, reasons)) :
    CallsFor f capability := by
  unfold derived at h
  split_ifs at h with hurl hservice
  · left
    refine ⟨hurl, ?_⟩
    have hfst : (urlReasons f state).1 = capability := congrArg Prod.fst (Option.some.inj h)
    rw [← hfst]
    unfold urlReasons
    split_ifs <;> rfl
  · exact .inr ⟨hservice, (congrArg Prod.fst (Option.some.inj h)).symm⟩

theorem exists_derived (h : CallsFor f capability) (state : CoverageState) :
    ∃ reasons, derived f state = some (capability, reasons) := by
  unfold derived
  obtain ⟨hurl, rfl⟩ | ⟨hservice, rfl⟩ := h
  · rw [if_pos hurl]
    refine ⟨(urlReasons f state).2, congrArg some (Prod.ext ?_ rfl)⟩
    unfold urlReasons
    split_ifs <;> rfl
  · rw [if_neg (by rw [hservice]; decide), if_pos hservice]
    exact ⟨_, rfl⟩

theorem propose_eq_some {c : AdaptiveCandidate} (h : propose call f state = some c) :
    CallsFor f c.capability ∧ c.target = f.value ∧
      (resolveCapability call.scope call.alreadyRun c.capability).isSome ∧
      derived f state = some (c.capability, c.reasons) := by
  obtain ⟨⟨capability, reasons⟩, hderived, h⟩ := Option.bind_eq_some_iff.mp h
  obtain ⟨tool, htool, rfl⟩ := Option.map_eq_some_iff.mp h
  exact ⟨derived_fst hderived, rfl, Option.isSome_iff_exists.mpr ⟨tool, htool⟩, hderived⟩

theorem exists_propose (h : CallsFor f capability) (state : CoverageState)
    (hresolves : (resolveCapability call.scope call.alreadyRun capability).isSome) :
    ∃ c, propose call f state = some c ∧ c.capability = capability := by
  obtain ⟨reasons, hreasons⟩ := exists_derived h state
  obtain ⟨tool, htool⟩ := Option.isSome_iff_exists.mp hresolves
  refine ⟨⟨capability, tool, f.value, reasons, provenance f⟩, ?_, rfl⟩
  rw [propose, hreasons, Option.bind_some]
  dsimp only
  rw [htool]
  rfl

/-- The reason that tells an actionable state from the others. -/
theorem mem_derived {reasons : List String} {r : String}
    (h : derived f state = some (capability, reasons))
    (hr : r = "attempted_failed_upstream" ∨ r = "partial_upstream") :
    r ∈ reasons ↔ r = coverageReason state := by
  have hother : r ∉ ["api_surface", "discovered_parameter", "incomplete_coverage",
      "live_web_service"] := by
    rcases hr with rfl | rfl <;> decide
  simp only [List.mem_cons, List.not_mem_nil, or_false, not_or] at hother
  unfold derived at h
  split_ifs at h
  · have hsnd : (urlReasons f state).2 = reasons := congrArg Prod.snd (Option.some.inj h)
    rw [← hsnd]
    unfold urlReasons
    split_ifs <;> simp [List.mem_eraseDups, hother]
  · have hsnd : (httpServiceReasons state).2 = reasons := congrArg Prod.snd (Option.some.inj h)
    rw [← hsnd]
    simp [httpServiceReasons, hother]

/-- **A candidate tells the actionable states apart.** -/
theorem state_of_propose {state' : CoverageState} {c : AdaptiveCandidate}
    (h : propose call f state = some c) (h' : propose call f state' = some c)
    (hact : state.actionable) (hact' : state'.actionable) : state = state' := by
  obtain ⟨-, -, -, hderived⟩ := propose_eq_some h
  obtain ⟨-, -, -, hderived'⟩ := propose_eq_some h'
  have hfailed := (mem_derived hderived (.inl rfl)).symm.trans (mem_derived hderived' (.inl rfl))
  have hpartial := (mem_derived hderived (.inr rfl)).symm.trans (mem_derived hderived' (.inr rfl))
  clear h h' hderived hderived'
  revert hact hact' hfailed hpartial
  cases state <;> cases state' <;> decide

/-- A finding is told by its capability and its value. -/
theorem assetType_of_callsFor (hf : CallsFor f capability) (hg : CallsFor g capability) :
    f.assetType = g.assetType := by
  have hurl : ∀ x : CommonFinding, (if x.hasParam then "dast_fuzzing" else "parameter_discovery") ≠
      "web_crawling" := by
    intro x
    split_ifs <;> decide
  obtain ⟨hf, hcap⟩ | ⟨hf, hcap⟩ := hf <;> obtain ⟨hg, hcap'⟩ | ⟨hg, hcap'⟩ := hg
  · rw [hf, hg]
  · exact absurd (hcap.symm.trans hcap') (hurl f)
  · exact absurd (hcap'.symm.trans hcap) (hurl g)
  · rw [hf, hg]

theorem candidateWith_eq_some {roots : Finset String} {states : String → CoverageState}
    {c : AdaptiveCandidate} :
    candidateWith svc call roots states f = some c ↔
      (f.counted ∧ (states f.value).actionable ∧ Entitled svc call roots f) ∧
        propose call f (states f.value) = some c := by
  unfold candidateWith
  split_ifs with h
  · exact (and_iff_right h).symm
  · constructor
    · intro hnone
      cases hnone
    · exact fun hboth => absurd hboth.1 h

/-- At most one finding of each type and value. -/
def Distinct (findings : List CommonFinding) : Prop :=
  (findings.map fun f => (f.assetType, f.value)).Nodup

theorem Distinct.eq (h : Distinct findings) (hf : f ∈ findings) (hg : g ∈ findings)
    (htype : f.assetType = g.assetType) (hvalue : f.value = g.value) : f = g :=
  List.inj_on_of_nodup_map h hf hg (by rw [htype, hvalue])

theorem foldl_addCandidate {α : Type} {h : α → Option AdaptiveCandidate} {l : List α}
    (hnodup : ((l.filterMap h).map AdaptiveCandidate.key).Nodup) :
    l.foldl (fun candidates a => ((h a).map (addCandidate candidates)).getD candidates) [] =
      l.filterMap h := by
  induction l using List.reverseRecOn with
  | nil => rfl
  | append_singleton l a ih =>
    rw [List.filterMap_append, List.map_append] at hnodup
    rw [List.foldl_append, ih hnodup.of_append_left, List.filterMap_append]
    cases ha : h a with
    | none => simp [ha]
    | some c =>
      have hfresh : c.key ∉ (l.filterMap h).map AdaptiveCandidate.key := by
        intro hmem
        refine List.disjoint_of_nodup_append hnodup hmem ?_
        simp [ha]
      rw [List.filterMap_cons_some ha, List.filterMap_nil]
      simp only [List.foldl_cons, List.foldl_nil, ha, Option.map_some, Option.getD_some,
        addCandidate, if_neg hfresh]

theorem nodup_keys {roots : Finset String} {states : String → CoverageState}
    (h : Distinct findings) :
    ((findings.filterMap (candidateWith svc call roots states)).map
      AdaptiveCandidate.key).Nodup := by
  refine List.pairwise_map.mpr (List.pairwise_filterMap.mpr ?_)
  refine (List.pairwise_map.mp h).imp fun hne c hc d hd heq => hne ?_
  obtain ⟨hcalls, htarget, -⟩ := propose_eq_some (candidateWith_eq_some.mp hc).2
  obtain ⟨hcalls', htarget', -⟩ := propose_eq_some (candidateWith_eq_some.mp hd).2
  obtain ⟨hcapability, hvalue⟩ := Prod.mk.inj heq
  rw [← hcapability] at hcalls'
  rw [assetType_of_callsFor hcalls hcalls', ← htarget, ← htarget', hvalue]

/-- The candidate for a finding. -/
def candidateAt (svc : AdaptiveServices) (call : AdaptiveCall) (findings : List CommonFinding) :
    CommonFinding → Option AdaptiveCandidate :=
  candidateWith svc call (scopeRoots svc call findings) (stateAt call findings)

/-- **No candidate is dropped.** -/
theorem proposals_eq (h : Distinct findings) :
    adaptiveProposals svc call findings = findings.filterMap (candidateAt svc call findings) :=
  foldl_addCandidate (nodup_keys h)

theorem mem_selected (h : Distinct findings) {candidates : List AdaptiveCandidate}
    (hselected : selected svc call findings = some candidates) {c : AdaptiveCandidate} :
    c ∈ candidates ↔ ∃ f ∈ findings, candidateAt svc call findings f = some c := by
  unfold selected at hselected
  split_ifs at hselected
  rw [← Option.some.inj hselected, List.mem_insertionSort, proposals_eq h, List.mem_filterMap]

/-! ## Other orders of the findings -/

section

variable {findings' : List CommonFinding} (hperm : findings'.Perm findings)

include hperm

theorem Distinct.perm (h : Distinct findings) : Distinct findings' :=
  (hperm.map _).nodup_iff.mpr h

theorem readable_perm : Readable call findings' ↔ Readable call findings :=
  ⟨fun h f hf => h f (hperm.mem_iff.mpr hf), fun h f hf => h f (hperm.mem_iff.mp hf)⟩

theorem scopeRoots_perm : scopeRoots svc call findings' = scopeRoots svc call findings := by
  unfold scopeRoots rootsOf
  cases targetTypeOf call.scope.targetType with
  | domain =>
    have hnames := (hperm.map svc.scoped).map fun f => DerivedScope.norm svc.guard (extractHost f)
    simp only [List.toFinset_eq_of_perm _ _ hnames]
  | ipRange => rfl
  | other name => rfl

end

/-- The state of a value is that of some finding with it. -/
theorem exists_stateAt (hreadable : Readable call findings) (hf : f ∈ findings)
    (hcounted : f.counted) :
    ∃ g ∈ findings, g.counted ∧ g.value = f.value ∧
      ownState call g = some (stateAt call findings f.value) := by
  have hsome : ((findings.filter CommonFinding.counted).reverse.find?
      (·.value = f.value)).isSome := by
    rw [List.find?_isSome]
    exact ⟨f, by simp [hf, hcounted], by simp⟩
  obtain ⟨g, hg⟩ := Option.isSome_iff_exists.mp hsome
  have hmem := List.mem_filter.mp (List.mem_reverse.mp (List.mem_of_find?_eq_some hg))
  have hvalue := List.find?_some hg
  obtain ⟨state, hstate⟩ := Option.isSome_iff_exists.mp (hreadable g hmem.1 hmem.2)
  refine ⟨g, hmem.1, hmem.2, of_decide_eq_true hvalue, ?_⟩
  rw [stateAt, hg, Option.bind_some, hstate]
  rfl

/-- It is that of a finding that comes last. -/
theorem stateAt_concat (hcounted : g.counted) (hstate : ownState call g = some state) :
    stateAt call (findings ++ [g]) g.value = state := by
  have hlast : (findings ++ [g]).filter CommonFinding.counted =
      findings.filter CommonFinding.counted ++ [g] := by
    rw [List.filter_append, List.filter_cons_of_pos hcounted, List.filter_nil]
  rw [stateAt, hlast, List.reverse_append, List.reverse_singleton, List.singleton_append,
    List.find?_cons_of_pos (by simp), Option.bind_some, hstate]
  rfl

/-! ## When each surface is judged by its own state -/

/-- What the findings that share a value with an eligible one have to agree on; where a state cannot
be computed, no finding that is eligible has an actionable one. -/
structure Settled (svc : AdaptiveServices) (call : AdaptiveCall) (findings : List CommonFinding) :
    Prop where
  agree : Readable call findings → ∀ capability f, Eligible svc call findings capability f →
    ∀ g ∈ findings, g.counted → g.value = f.value → Actionable call f ∨ Actionable call g →
      ownState call g = ownState call f
  unreadable : ¬ Readable call findings → ∀ capability f,
    Eligible svc call findings capability f → ¬ Actionable call f

theorem candidateWith_congr {roots : Finset String} {states states' : String → CoverageState}
    (h : ∀ capability, f.counted → CallsFor f capability → Entitled svc call roots f →
      (resolveCapability call.scope call.alreadyRun capability).isSome →
        (states f.value).actionable ∨ (states' f.value).actionable →
          states f.value = states' f.value) :
    candidateWith svc call roots states f = candidateWith svc call roots states' f := by
  refine Option.ext fun c => ?_
  rw [candidateWith_eq_some, candidateWith_eq_some]
  constructor
  · rintro ⟨⟨hcounted, hact, hentitled⟩, hpropose⟩
    obtain ⟨hcalls, -, hresolves, -⟩ := propose_eq_some hpropose
    rw [← h _ hcounted hcalls hentitled hresolves (.inl hact)]
    exact ⟨⟨hcounted, hact, hentitled⟩, hpropose⟩
  · rintro ⟨⟨hcounted, hact, hentitled⟩, hpropose⟩
    obtain ⟨hcalls, -, hresolves, -⟩ := propose_eq_some hpropose
    rw [h _ hcounted hcalls hentitled hresolves (.inr hact)]
    exact ⟨⟨hcounted, hact, hentitled⟩, hpropose⟩

/-- The candidate for a finding by its own state. -/
def ownCandidate (svc : AdaptiveServices) (call : AdaptiveCall) (roots : Finset String)
    (f : CommonFinding) : Option AdaptiveCandidate :=
  candidateWith svc call roots (fun _ => (ownState call f).getD .discovered) f

/-- **By its own state, in every order.** -/
theorem candidateAt_eq_own {findings' : List CommonFinding} (h : Settled svc call findings)
    (hreadable : Readable call findings) (hperm : findings'.Perm findings) (hf : f ∈ findings) :
    candidateAt svc call findings' f = ownCandidate svc call (scopeRoots svc call findings) f := by
  unfold candidateAt ownCandidate
  rw [scopeRoots_perm hperm]
  refine candidateWith_congr fun capability hcounted hcalls hentitled hresolves hact => ?_
  obtain ⟨g, hg, hgcounted, hvalue, hstate⟩ := exists_stateAt ((readable_perm hperm).mpr hreadable)
    (hperm.mem_iff.mpr hf) hcounted
  obtain ⟨own, hown⟩ := Option.isSome_iff_exists.mp (hreadable f hf hcounted)
  rw [hown, Option.getD_some] at hact ⊢
  have heq := h.agree hreadable capability f ⟨hf, hcounted, hcalls, hentitled, hresolves⟩ g
    (hperm.mem_iff.mp hg) hgcounted hvalue (hact.symm.imp (fun hact => ⟨own, hown, hact⟩)
      fun hact => ⟨_, hstate, hact⟩)
  rw [hstate, hown] at heq
  exact Option.some.inj heq

theorem pairwise_sort (cs : List AdaptiveCandidate) :
    (cs.insertionSort fun a b => a.sortKey ≤ b.sortKey).Pairwise fun a b =>
      a.sortKey ≤ b.sortKey := by
  have : Std.Total fun a b : AdaptiveCandidate => a.sortKey ≤ b.sortKey :=
    ⟨fun a b => le_total a.sortKey b.sortKey⟩
  have : IsTrans AdaptiveCandidate fun a b => a.sortKey ≤ b.sortKey :=
    ⟨fun _ _ _ hab hbc => le_trans hab hbc⟩
  exact List.pairwise_insertionSort _ cs

/-- No two candidates come at the same place. -/
theorem sorted_eq {cs cs' : List AdaptiveCandidate} (hperm : cs'.Perm cs)
    (hnodup : (cs.map AdaptiveCandidate.key).Nodup) :
    (cs'.insertionSort fun a b => a.sortKey ≤ b.sortKey) =
      cs.insertionSort fun a b => a.sortKey ≤ b.sortKey := by
  have hall := (List.perm_insertionSort (fun a b => a.sortKey ≤ b.sortKey) cs').trans
    (hperm.trans (List.perm_insertionSort (fun a b => a.sortKey ≤ b.sortKey) cs).symm)
  refine List.Perm.eq_of_pairwise (fun a b ha hb hab hba => ?_) (pairwise_sort cs')
    (pairwise_sort cs) hall
  have hkey : a.key = b.key := by
    have heq := le_antisymm hab hba
    unfold AdaptiveCandidate.sortKey at heq
    simp only [toLex_inj, Prod.mk.injEq] at heq
    exact Prod.ext heq.2.2.2 heq.2.2.1
  have hmem : ∀ {c l}, c ∈ List.insertionSort (fun a b : AdaptiveCandidate =>
      a.sortKey ≤ b.sortKey) l → c ∈ l := fun hc => (List.mem_insertionSort _).mp hc
  exact List.inj_on_of_nodup_map hnodup (hperm.mem_iff.mp (hmem ha)) (hmem hb) hkey

/-- **The order of the findings does not matter** where they agree. -/
theorem selected_of_perm (hdistinct : Distinct findings) (h : Settled svc call findings)
    {findings' : List CommonFinding} (hperm : findings'.Perm findings) :
    selected svc call findings' = selected svc call findings := by
  unfold selected
  by_cases hreadable : Readable call findings
  · rw [if_pos hreadable, if_pos ((readable_perm hperm).mpr hreadable),
      proposals_eq hdistinct, proposals_eq (hdistinct.perm hperm)]
    have hsame : findings'.filterMap (candidateAt svc call findings') =
        findings'.filterMap (candidateAt svc call findings) := by
      refine List.filterMap_congr fun f hf => ?_
      rw [candidateAt_eq_own h hreadable hperm (hperm.mem_iff.mp hf),
        candidateAt_eq_own h hreadable (.refl _) (hperm.mem_iff.mp hf)]
    rw [hsame]
    exact congrArg some (sorted_eq (hperm.filterMap _) (nodup_keys hdistinct))
  · rw [if_neg hreadable, if_neg fun hno => hreadable ((readable_perm hperm).mp hno)]

/-- **Where the findings agree, each surface is judged by its own state.** -/
theorem judges_of_settled (hdistinct : Distinct findings) (h : Settled svc call findings) :
    JudgesEachSurface svc call findings where
  order := by
    intro findings' hperm cache cache' hcache hcache'
    rw [((returns_selectAdaptiveCandidates findings') cache' hcache').1,
      ((returns_selectAdaptiveCandidates findings) cache hcache).1]
    exact selected_of_perm hdistinct h hperm
  pairs := by
    intro cache hcache capability value
    rw [((returns_selectAdaptiveCandidates findings) cache hcache).1]
    by_cases hreadable : Readable call findings
    · have hselected : selected svc call findings = some _ := if_pos hreadable
      constructor
      · rintro ⟨candidates, hcandidates, c, hc, rfl, rfl⟩
        obtain ⟨f, hf, hcandidate⟩ := (mem_selected hdistinct hcandidates).mp hc
        rw [candidateAt_eq_own h hreadable (.refl _) hf] at hcandidate
        obtain ⟨⟨hcounted, hact, hentitled⟩, hpropose⟩ := candidateWith_eq_some.mp hcandidate
        obtain ⟨hcalls, htarget, hresolves, -⟩ := propose_eq_some hpropose
        obtain ⟨own, hown⟩ := Option.isSome_iff_exists.mp (hreadable f hf hcounted)
        rw [hown] at hact
        exact ⟨f, ⟨hf, hcounted, hcalls, hentitled, hresolves⟩, htarget.symm, own, hown, hact⟩
      · rintro ⟨f, heligible, rfl, own, hown, hact⟩
        obtain ⟨c, hpropose, rfl⟩ := exists_propose heligible.calls own heligible.resolves
        have hcandidate : candidateAt svc call findings f = some c := by
          rw [candidateAt_eq_own h hreadable (.refl _) heligible.mem]
          refine candidateWith_eq_some.mpr ?_
          rw [hown]
          exact ⟨⟨heligible.counted, hact, heligible.scope⟩, hpropose⟩
        exact ⟨_, hselected, c, (mem_selected hdistinct hselected).mpr
          ⟨f, heligible.mem, hcandidate⟩, rfl, (propose_eq_some hpropose).2.1⟩
    · have hselected : selected svc call findings = none := if_neg hreadable
      rw [hselected]
      constructor
      · rintro ⟨candidates, hcandidates, -⟩
        cases hcandidates
      · rintro ⟨f, heligible, -, hact⟩
        exact absurd hact (h.unreadable hreadable _ f heligible)

/-- Any finding may come last. -/
theorem exists_last (h : f ∈ findings) : ∃ l, (l ++ [f]).Perm findings := by
  obtain ⟨before, after, rfl⟩ := List.append_of_mem h
  exact ⟨before ++ after, (List.perm_append_singleton f _).trans List.perm_middle.symm⟩

/-- What an order proposes, the others propose. -/
theorem JudgesEachSurface.same {l l' : List CommonFinding} {c : AdaptiveCandidate}
    (h : JudgesEachSurface svc call findings) (hdistinct : Distinct findings)
    (hreadable : Readable call findings) (hl : l.Perm findings) (hl' : l'.Perm findings)
    (hc : ∃ f ∈ l, candidateAt svc call l f = some c) :
    ∃ f ∈ l', candidateAt svc call l' f = some c := by
  have hselected : ∀ {l'' : List CommonFinding}, l''.Perm findings →
      ∃ candidates, selected svc call l'' = some candidates := fun hperm =>
    ⟨_, if_pos ((readable_perm hperm).mpr hreadable)⟩
  have hsame : ∀ {l'' : List CommonFinding}, l''.Perm findings →
      selected svc call l'' = selected svc call findings := by
    intro l'' hperm
    have horder := h.order l'' hperm none none trivial trivial
    rwa [((returns_selectAdaptiveCandidates l'') none trivial).1,
      ((returns_selectAdaptiveCandidates findings) none trivial).1] at horder
  obtain ⟨candidates, hcandidates⟩ := hselected hl
  have hcandidates' : selected svc call l' = some candidates := by
    rw [hsame hl', ← hsame hl, hcandidates]
  exact (mem_selected (hdistinct.perm hl') hcandidates').mp
    ((mem_selected (hdistinct.perm hl) hcandidates).mpr hc)

/-- An actionable state of a finding that comes last is that of every other finding of the value:
else the candidate would not be the same in the order in which that one comes last. -/
theorem JudgesEachSurface.agree_of_last {g' : CommonFinding} {state' : CoverageState}
    (h : JudgesEachSurface svc call findings) (hdistinct : Distinct findings)
    (hreadable : Readable call findings) (hf : Eligible svc call findings capability f)
    (hg : g ∈ findings) (hgcounted : g.counted) (hgvalue : g.value = f.value)
    (hg' : g' ∈ findings) (hgcounted' : g'.counted) (hgvalue' : g'.value = f.value)
    (hstate : ownState call g = some state) (hstate' : ownState call g' = some state')
    (hact : state.actionable) : state' = state := by
  obtain ⟨l, hl⟩ := exists_last hg
  obtain ⟨l', hl'⟩ := exists_last hg'
  obtain ⟨c, hpropose, rfl⟩ := exists_propose hf.calls state hf.resolves
  have hat : stateAt call (l ++ [g]) f.value = state := hgvalue ▸ stateAt_concat hgcounted hstate
  have hat' : stateAt call (l' ++ [g']) f.value = state' :=
    hgvalue' ▸ stateAt_concat hgcounted' hstate'
  have hcandidate : candidateAt svc call (l ++ [g]) f = some c := by
    refine candidateWith_eq_some.mpr ?_
    rw [scopeRoots_perm hl, hat]
    exact ⟨⟨hf.counted, hact, hf.scope⟩, hpropose⟩
  obtain ⟨f', hf', hcandidate'⟩ := h.same hdistinct hreadable hl hl'
    ⟨f, hl.mem_iff.mpr hf.mem, hcandidate⟩
  obtain ⟨⟨-, hact', -⟩, hpropose'⟩ := candidateWith_eq_some.mp hcandidate'
  obtain ⟨hcalls', htarget', -⟩ := propose_eq_some hpropose'
  -- the candidate is one for the same finding
  obtain rfl : f' = f := hdistinct.eq (hl'.mem_iff.mp hf') hf.mem
    (assetType_of_callsFor hcalls' hf.calls) (htarget'.symm.trans (propose_eq_some hpropose).2.1)
  rw [hat'] at hact' hpropose'
  exact state_of_propose hpropose' hpropose hact' hact

/-- **Where each surface is judged by its own state, the findings agree.** -/
theorem settled_of_judges (hdistinct : Distinct findings)
    (h : JudgesEachSurface svc call findings) : Settled svc call findings where
  agree := by
    intro hreadable capability f hf g hg hgcounted hvalue hact
    obtain ⟨state, hstate⟩ := Option.isSome_iff_exists.mp (hreadable f hf.mem hf.counted)
    obtain ⟨state', hstate'⟩ := Option.isSome_iff_exists.mp (hreadable g hg hgcounted)
    rcases hact with ⟨own, hown, hact⟩ | ⟨own, hown, hact⟩
    · have heq := h.agree_of_last hdistinct hreadable hf hf.mem hf.counted rfl hg hgcounted hvalue
        hown hstate' hact
      rw [hown, hstate', heq]
    · have heq := h.agree_of_last hdistinct hreadable hf hg hgcounted hvalue hf.mem hf.counted rfl
        hown hstate hact
      rw [hown, hstate, heq]
  unreadable := by
    intro hreadable capability f hf hact
    obtain ⟨candidates, hcandidates, -⟩ := (h.pairs none trivial capability f.value).mpr
      ⟨f, hf, rfl, hact⟩
    rw [((returns_selectAdaptiveCandidates findings) none trivial).1, selected,
      if_neg hreadable] at hcandidates
    cases hcandidates

end

/-- The findings of a target: at most one of each type and value. -/
structure TargetFindings where
  findings : List CommonFinding
  distinct : Distinct findings

/-- **Each surface is judged by its own state** exactly where the findings that share a value with
an eligible one agree on it. -/
theorem adaptive_judges_iff (svc : AdaptiveServices) (call : AdaptiveCall) (fs : TargetFindings) :
    JudgesEachSurface svc call fs.findings ↔ Settled svc call fs.findings :=
  ⟨settled_of_judges fs.distinct, judges_of_settled fs.distinct⟩

/-! ## A page behind a login -/

def loginServices : AdaptiveServices := ⟨labGuard, fun _ => none, fun _ => ""⟩

def loginCall : AdaptiveCall where
  outcomes := []
  scope := ⟨"domain", true, "active_safe"⟩
  targetValue := "ex.com"
  alreadyRun := []
  enforceScope := true

def liveService : CommonFinding := ⟨"http_service", "http://ex.com/", [("host", .str "ex.com")]⟩

def loginPage : CommonFinding :=
  ⟨"url", "http://ex.com/", [("host", .str "ex.com"), ("auth_state", .str "protected")]⟩

def loginFindings : TargetFindings where
  findings := [liveService, loginPage]
  distinct := by simp [Distinct, liveService, loginPage]

/-- **A surface is judged by another one's state**: the service and the page have one value. -/
theorem adaptive_mixes_surfaces :
    ¬ JudgesEachSurface loginServices loginCall loginFindings.findings := by
  intro h
  have hsettled := settled_of_judges loginFindings.distinct h
  have hreadable : Readable loginCall loginFindings.findings := by decide
  have heligible : Eligible loginServices loginCall loginFindings.findings "web_crawling"
      liveService :=
    { mem := List.mem_cons_self ..
      counted := by decide
      calls := .inr ⟨rfl, rfl⟩
      scope := by decide
      resolves := by decide }
  have hsame := hsettled.agree hreadable _ _ heligible loginPage (by simp [loginFindings])
    (by decide) rfl (.inl ⟨.discovered, by decide, rfl⟩)
  exact absurd hsame (by decide)

end ScanPlatform
