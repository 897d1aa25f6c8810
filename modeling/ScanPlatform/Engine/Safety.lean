import Mathlib.Data.List.Sort
import Mathlib.Data.Rat.Defs
import ScanPlatform.Base.Grouping
import ScanPlatform.Base.Json
import ScanPlatform.Base.PyStr
import ScanPlatform.Engine.Runner
import ScanPlatform.Manager.Db

/-!
# Safety tiers and rules of engagement

The agent reasons about capabilities; the registry decides which tool serves one.

The curated modules confirm from a finding that a host can be exploited; they send nothing.
`redacted` is the reference that a proof carries instead of data.

* `tierOrder`, `tierAtMost`: the order of the tiers; a text that is no tier is above every ceiling,
  and a ceiling that is no tier is below every one;
* `RulesOfEngagement`, `fromConfig`: the envelope of an engagement;
* `assertActionAllowed`: the gate before an action;
* `capabilityRegistry`, `categoryTree`: the tools of each capability, the capabilities of each
  category;
* `resolveCapability`, `availableTools`: the tools that the agent may choose from;
* **`available_of_mem`**: each of them is registered, applies and stays within the envelope;
* `ExploitModule`, `canAttempt`: a module and the findings it takes;
* `exploitRegistry`: the registered modules.
-/

set_option autoImplicit false

namespace ScanPlatform

namespace SafetyTier

def passive : String := "passive"
def activeSafe : String := "active_safe"
def intrusive : String := "intrusive"
def simulated : String := "simulated"

end SafetyTier

/-- `_TIER_ORDER`. -/
def tierOrder (tier : String) : Option ℤ :=
  [(SafetyTier.passive, 0), (SafetyTier.activeSafe, 1), (SafetyTier.intrusive, 2)].lookup tier

def tierAtMost (tier ceiling : String) : Bool :=
  (tierOrder tier).getD 99 ≤ (tierOrder ceiling).getD (-1)

def defaultPostExploitAllowlist : List String :=
  ["whoami", "id", "hostname", "uname", "pwd", "list_dir", "count_rows", "read_canary"]

def destructiveWords : List String :=
  ["delete", "drop", "truncate", "insert", "update", "write", "rm", "unlink", "chmod", "chown",
    "mkfs", "format", "shutdown", "reboot", "kill", "persist", "backdoor", "implant", "exfil",
    "exfiltrate", "encrypt", "ransom"]

def destructiveSubstrings : List String := [">>", " > "]

/-- The settings that the agent reads; a limit of 0 on calls, time or stalls is none. -/
structure AgentSettings where
  safetyCeiling : String
  exploitationEnabled : Bool
  maxSteps : ℕ
  minConfidence : ℚ
  timeBudgetSeconds : ℚ
  maxAiCalls : ℕ
  stallLimit : ℕ
  maxRounds : ℕ

structure RulesOfEngagement where
  maxTier : String
  exploitationEnabled : Bool
  requireApproval : Bool
  allowedPostExploit : List String

/-- `bool(cfg.get(key, default))`. -/
def configFlag (config : Json.Object) (key : String) (default : Bool) : Bool :=
  ((config.get key).map Json.Value.truthy).getD default

/-- The tier that the config asks for, when it is one at most the ceiling; a list or an object as
the key of a dictionary raises. -/
def requestedTier (config : Json.Object) (ceiling : String) : Except Fault String :=
  match config.get "safety_tier" with
  | none => .ok ceiling
  | some (.str requested) => .ok (if tierAtMost requested ceiling then requested else ceiling)
  | some (.arr _) | some (.obj _) => .error (.raised "TypeError")
  | some .null | some (.bool _) | some (.num _ _) => .ok ceiling

/-- `RulesOfEngagement.from_config`. -/
def fromConfig (s : AgentSettings) (config : Json.Object) : Except Fault RulesOfEngagement :=
  (requestedTier config s.safetyCeiling).map fun maxTier => {
    maxTier
    exploitationEnabled := configFlag config "exploitation_enabled" false && s.exploitationEnabled
    requireApproval := configFlag config "require_approval" true
    allowedPostExploit := defaultPostExploitAllowlist }

/-- `is_destructive`. -/
def isDestructive (operation : String) : Bool :=
  let op := PyStr.lower operation
  let words := (op.toList.splitOnP fun c => ¬ ('a' ≤ c ∧ c ≤ 'z')).map String.ofList
  destructiveSubstrings.any (PyStr.contains op) || words.any (· ∈ destructiveWords)

/-- `assert_action_allowed`; the error is the text of the violation. -/
def assertActionAllowed (safetyTier : String) (roe : RulesOfEngagement) (operation : String)
    (postExploitPrimitive : Option String) : Except String Unit :=
  if safetyTier = SafetyTier.simulated then .ok ()
  else if isDestructive operation then
    .error s!"destructive operation denied: '{PyStr.upTo 80 operation}'"
  else if ¬ tierAtMost safetyTier roe.maxTier then
    .error s!"safety_tier '{safetyTier}' exceeds engagement ceiling '{roe.maxTier}'"
  else if safetyTier = SafetyTier.intrusive ∧ ¬ roe.exploitationEnabled then
    .error "active exploitation is not enabled for this engagement"
  else
    match postExploitPrimitive with
    | none => .ok ()
    | some primitive =>
      if primitive ∈ roe.allowedPostExploit then .ok ()
      else .error s!"post-exploit primitive '{primitive}' is not on the read-only allowlist"

theorem tierAtMost_trans {a b c : String} (hab : tierAtMost a b) (hbc : tierAtMost b c) :
    tierAtMost a c := by
  unfold tierAtMost at *
  simp only [decide_eq_true_eq] at *
  cases hb : tierOrder b <;> simp only [hb, Option.getD_none, Option.getD_some] at hab hbc <;> omega

theorem tierAtMost_of_not {a b c : String} (hab : tierAtMost a b) (hcb : ¬ tierAtMost c b)
    (hc : (tierOrder c).isSome) : tierAtMost a c := by
  obtain ⟨n, hn⟩ := Option.isSome_iff_exists.mp hc
  unfold tierAtMost at *
  simp only [decide_eq_true_eq, hn, Option.getD_some] at *
  omega

/-- **The rules of engagement are never more permissive than the ceiling or the config.** -/
theorem fromConfig_maxTier {s : AgentSettings} {config : Json.Object} {roe : RulesOfEngagement}
    (h : fromConfig s config = .ok roe) {tier : String} (htier : tierAtMost tier roe.maxTier) :
    tierAtMost tier s.safetyCeiling ∧ ∀ requested,
      config.get "safety_tier" = some (.str requested) → (tierOrder requested).isSome →
        tierAtMost tier requested := by
  unfold fromConfig at h
  cases hr : requestedTier config s.safetyCeiling with
  | error fault => rw [hr] at h; cases h
  | ok maxTier =>
    rw [hr] at h
    cases h
    unfold requestedTier at hr
    split at hr
    · next hnone =>
      cases hr
      exact ⟨htier, fun requested hreq => by rw [hnone] at hreq; cases hreq⟩
    · next text htext =>
      cases hr
      by_cases hle : tierAtMost text s.safetyCeiling
      · simp only [hle, if_true] at htier
        refine ⟨tierAtMost_trans htier hle, fun requested hreq _ => ?_⟩
        rw [htext] at hreq
        cases hreq
        exact htier
      · simp only [hle, Bool.false_eq_true, if_false] at htier
        refine ⟨htier, fun requested hreq hsome => ?_⟩
        rw [htext] at hreq
        cases hreq
        exact tierAtMost_of_not htier hle hsome
    · cases hr
    · cases hr
    all_goals
      next hother =>
        cases hr
        exact ⟨htier, fun requested hreq => by rw [hother] at hreq; cases hreq⟩

end ScanPlatform

/-! ## The capability registry -/

namespace ScanPlatform

open Grouping

/-- `capability`, which every registered runner overrides. -/
def RunnerInfo.capability (r : RunnerInfo) : String :=
  ([("subfinder", "subdomain_discovery"), ("amass", "subdomain_discovery"),
    ("dnsx", "subdomain_discovery"), ("httpx", "web_service_discovery"),
    ("whatweb", "web_service_discovery"), ("naabu", "port_discovery"),
    ("nmap", "service_fingerprinting"), ("katana", "web_crawling"), ("ffuf", "content_discovery"),
    ("arjun", "parameter_discovery"), ("nuclei", "vulnerability_detection"),
    ("nuclei-dast", "dast_fuzzing")].lookup r.name).getD ""

/-- `safety_tier`, which the runners that only query public sources override. -/
def RunnerInfo.safetyTier (r : RunnerInfo) : String :=
  if r.name ∈ ["subfinder", "amass", "dnsx"] then SafetyTier.passive else SafetyTier.activeSafe

/-- `applicable_target_types is None or target_type in applicable_target_types`. -/
def RunnerInfo.appliesTo (r : RunnerInfo) (targetType : String) : Bool :=
  r.applicableTargetTypes.all fun types => targetType ∈ types

/-- `sorted(TOOL_REGISTRY.items(), key=phase)`. -/
def byPhase (tools : List RunnerInfo) : List RunnerInfo :=
  tools.insertionSort fun a b => a.phase ≤ b.phase

/-- `capability_registry`. -/
def capabilityRegistry : List (String × List RunnerInfo) :=
  groupBy RunnerInfo.capability (byPhase toolRegistry)

def toolsForCapability (capability : String) : List RunnerInfo :=
  (capabilityRegistry.lookup capability).getD []

/-- `CAPABILITY_CATEGORY`. -/
def categoryForCapability (capability : String) : String :=
  ([("subdomain_discovery", "discovery"), ("web_service_discovery", "web"),
    ("web_crawling", "web"), ("content_discovery", "web"), ("parameter_discovery", "web"),
    ("vulnerability_detection", "web"), ("dast_fuzzing", "web"), ("port_discovery", "network"),
    ("service_fingerprinting", "network")].lookup capability).getD "uncategorized"

/-- `category_tree`: the capabilities of each category. -/
def categoryTree : List (String × List String) :=
  groupBy categoryForCapability (capabilityRegistry.map Prod.fst)

/-- What decides which tools qualify. -/
structure AgentScope where
  targetType : String
  activeTestingAllowed : Bool
  maxTier : String

/-- The tool applies to the target, is within the ceiling and is allowed by the scope. -/
def AgentScope.qualifies (scope : AgentScope) (r : RunnerInfo) : Bool :=
  r.appliesTo scope.targetType && tierAtMost r.safetyTier scope.maxTier &&
    (!r.requiresActiveTesting || scope.activeTestingAllowed)

/-- `resolve_capability`: the first tool of the capability that qualifies and has not run. -/
def resolveCapability (scope : AgentScope) (alreadyRun : List String) (capability : String) :
    Option RunnerInfo :=
  (toolsForCapability capability).find? fun r => r.name ∉ alreadyRun && scope.qualifies r

/-- `RedTeamAgent.available_tools`. -/
def availableTools (scope : AgentScope) (alreadyRun : List String) : List RunnerInfo :=
  byPhase ((categoryTree.flatMap Prod.snd).filterMap (resolveCapability scope alreadyRun))

theorem toolsForCapability_subset (capability : String) :
    toolsForCapability capability ⊆ toolRegistry := by
  unfold toolsForCapability
  cases h : capabilityRegistry.lookup capability with
  | none => simp
  | some tools =>
    obtain ⟨before, after, hsplit, -⟩ := List.lookup_eq_some_iff.mp h
    have hmem : (capability, tools) ∈ capabilityRegistry := by simp [hsplit]
    unfold capabilityRegistry at hmem
    rw [groupBy_eq] at hmem
    obtain ⟨k, -, hk⟩ := List.mem_map.mp hmem
    cases hk
    intro r hr
    have hr' : r ∈ byPhase toolRegistry := (List.mem_filter.mp hr).1
    exact (List.perm_insertionSort _ _).mem_iff.mp hr'

/-- **What the agent may choose** is registered, has not run, and qualifies. -/
theorem available_of_mem {scope : AgentScope} {alreadyRun : List String} {r : RunnerInfo}
    (h : r ∈ availableTools scope alreadyRun) :
    r ∈ toolRegistry ∧ r.name ∉ alreadyRun ∧ scope.qualifies r := by
  have hmem := (List.perm_insertionSort _ _).mem_iff.mp h
  obtain ⟨capability, -, hr⟩ := List.mem_filterMap.mp hmem
  have hsome := List.find?_some hr
  simp only [Bool.and_eq_true, decide_eq_true_eq] at hsome
  exact ⟨toolsForCapability_subset capability (List.mem_of_find?_eq_some hr), hsome⟩

end ScanPlatform

/-! ## Exploitation modules -/

namespace ScanPlatform

/-- What a module is given of a vulnerability. -/
structure ExploitFinding where
  category : Option String
  fingerprint : String
  title : String
  severity : String

structure ExploitResult where
  module : String
  target : String
  exploitable : Bool
  accessType : Option String
  proof : String
  detail : String
  deriving DecidableEq

structure ExploitModule where
  name : String
  safetyTier : String := SafetyTier.intrusive
  appliesToCwe : List String
  appliesToSignatures : List String
  /-- The single benign action of the module. -/
  proofAction : String
  attempt : (redacted : String → String) → String → ExploitFinding → ExploitResult

def ExploitModule.canAttempt (m : ExploitModule) (finding : ExploitFinding) : Bool :=
  let cat := PyStr.lower (PyStr.strip (finding.category.getD ""))
  let haystack := PyStr.lower s!"{finding.fingerprint} {finding.title}"
  (cat ≠ "" && decide (cat ∈ m.appliesToCwe)) ||
    m.appliesToSignatures.any (PyStr.contains haystack)

/-- `finding.get("fingerprint") or finding.get("title") or ""`. -/
def ExploitFinding.signature (finding : ExploitFinding) : String :=
  if finding.fingerprint = "" then finding.title else finding.fingerprint

def defaultCredentialsValidator : ExploitModule where
  name := "default_credentials"
  appliesToCwe := ["cwe-798", "cwe-1392"]
  appliesToSignatures := ["default-login", "default_login", "defaultcred", "default-cred"]
  proofAction := "login_check"
  attempt redacted target finding := {
    module := "default_credentials"
    target
    exploitable := true
    accessType := some "valid_credentials"
    proof := s!"default credentials accepted (login verified; ref {redacted finding.signature})"
    detail := "Confirmed foothold via valid accounts; read-only, no changes made." }

def knownCveValidator : ExploitModule where
  name := "known_cve"
  appliesToCwe := []
  appliesToSignatures := ["cve-"]
  proofAction := "version_confirm"
  attempt redacted target finding :=
    let sig := PyStr.lower finding.signature
    let tokens := PyStr.words (sig.map fun c => if c = '|' then ' ' else c)
    let cve := (tokens.find? fun token => PyStr.startsWith token "cve-").getD "cve"
    let severe := PyStr.lower finding.severity ∈ ["high", "critical"]
    { module := "known_cve"
      target
      exploitable := true
      accessType := some (if severe then "rce_proof" else "info_access")
      proof := s!"known-vulnerable: {cve} confirmed by detection (ref {redacted sig})"
      detail := "Exploitability confirmed from a vetted CVE template match; non-destructive." }

/-- `EXPLOIT_REGISTRY`. -/
def exploitRegistry : List ExploitModule := [defaultCredentialsValidator, knownCveValidator]

end ScanPlatform
