import ScanPlatform.Base.Ipaddress
import ScanPlatform.Base.Json
import ScanPlatform.Base.Uuid
import ScanPlatform.Net.NetGuard

/-!
# What a worker checks of a job

A job is a JSON object that the manager hands over. The worker holds it against its own identity,
looks at its tunnels, and builds the network policy from the job again before it executes it.

* `WorkerIdentity`, `TunnelStatus`, `EgressStatus`: the worker and what its probes see;
* `assertJobMatchesWorker`, `validateLeasedJob`, `preflightPrivateJob`, `preflightEgressJob`,
  `buildPolicyForJob`: the gates and the policy;
* `handleJob`: what becomes of a job;
* `Contained`: what an execution has to rest on;
* `validateLeasedJob_eq_ok`, `preflightPrivateJob_eq_ok`, `preflightEgressJob_eq_ok`,
  `buildPolicyForJob_eq_ok`: what each gate lets through;
* **`handleJob_contained`**: a job that is executed is contained.
-/

set_option autoImplicit false

namespace ScanPlatform

open Checks Ipaddress Json PyStr

namespace LeasedJob

/-- `str()` of a value that is no text, and `s.lower()`. -/
structure Texts where
  repr : Value → String
  lower : String → String

/-- `str(v)`. -/
def Texts.str (py : Texts) : Value → String
  | .str s => s
  | v => py.repr v

/-- A configured text that is not empty. -/
def configured (text : Option String) : Option String := text.filter (· ≠ "")

structure WorkerIdentity where
  poolId : String
  siteId : Option String
  egressMode : String

/-- `(self.egress_mode or "direct").strip().lower()`. -/
def WorkerIdentity.mode (py : Texts) (identity : WorkerIdentity) : String :=
  py.lower (strip (if identity.egressMode = "" then "direct" else identity.egressMode))

def WorkerIdentity.isVpnEgress (py : Texts) (identity : WorkerIdentity) : Bool :=
  identity.mode py = "vpn"

/-- What a job is refused with: a `LeaseError`, or another exception. -/
inductive JobFault where
  | leaseError (reason : String)
  | other
  deriving DecidableEq

def require (b : Bool) (reason : String) : Except JobFault Unit :=
  if b then .ok () else .error (.leaseError reason)

theorem require_eq_ok {b : Bool} {reason : String} : require b reason = .ok () ↔ b = true := by
  cases b <;> simp [require]

/-- A check and what follows it. -/
theorem check_bind {α : Type} {check : Except JobFault Unit} {x : Except JobFault α} {a : α} :
    (check >>= fun _ => x) = .ok a ↔ check = .ok () ∧ x = .ok a := by
  rw [bind_eq_ok]
  exact ⟨fun ⟨_, h⟩ => h, fun h => ⟨(), h⟩⟩

/-! ## Fields of a job -/

/-- `job.get(k)`. -/
def field (job : Object) (k : String) : Value := (job.get k).getD .null

/-- `v or w`. -/
def either (v w : Value) : Value := if v.truthy then v else w

def isText (v : Value) (s : String) : Bool :=
  match v with
  | .str t => t = s
  | _ => false

/-- `job.get("network_zone") or "public"`. -/
def networkZone (job : Object) : Value := either (field job "network_zone") (.str "public")

def isPrivate (job : Object) : Bool := isText (networkZone job) "private"

/-- `str(v) if v else None`. -/
def textOf (py : Texts) (v : Value) : Option String :=
  if v.truthy then configured (some (py.str v)) else none

/-- The entries of a field that is iterated over, as `str(raw).strip()`. -/
def entries (py : Texts) (v : Value) : Except JobFault (List String) :=
  if v.truthy then
    match v.items with
    | some items => .ok (items.map fun raw => strip (py.str raw))
    | none => .error .other
  else .ok []

/-! ## The identity -/

/-- A private job is for the site of the worker, and another one for a worker without a site. -/
def assertSiteMatches (zone : Value) (jobSite ownSite : Option String) : Except JobFault Unit :=
  if isText zone "private" then do
    require jobSite.isSome "WORKER_UNAUTHORIZED"
    require ownSite.isSome "WORKER_UNAUTHORIZED"
    require (ownSite = jobSite) "SITE_MISMATCH"
  else require ownSite.isNone "WORKER_UNAUTHORIZED"

/-- `assert_job_matches_worker`, with the reasons as `validate_leased_job` gives them. -/
def assertJobMatchesWorker (py : Texts) (zone siteId poolId : Value) (identity : WorkerIdentity) :
    Except JobFault Unit := do
  assertSiteMatches (either zone (.str "public")) (textOf py siteId) (configured identity.siteId)
  require (!(poolId.truthy && identity.poolId ≠ "" && !isText poolId identity.poolId))
    "POOL_MISMATCH"

/-- `(job.get("required_egress_mode") or "").strip().lower()`. -/
def requiredEgress (py : Texts) (job : Object) : Except JobFault String :=
  match either (field job "required_egress_mode") (.str "") with
  | .str s => .ok (py.lower (strip s))
  | _ => .error .other

/-- The value of the target. -/
def targetValue (job : Object) : Except JobFault Value :=
  match either (field job "target") (.obj []) with
  | .obj target => .ok (field target "value")
  | _ => .error .other

def validateLeasedJob (py : Texts) (identity : WorkerIdentity) (job : Object) :
    Except JobFault Unit := do
  require (field job "scan_id").truthy "JOB_MISSING_TARGET"
  require (field job "execution_token").truthy "EXECUTION_TOKEN_INVALID"
  require (Uuid.ofHex (py.str (field job "execution_token"))).isSome "EXECUTION_TOKEN_INVALID"
  assertJobMatchesWorker py (networkZone job) (field job "site_id") (field job "pool_id") identity
  require (!isPrivate job || (field job "authorized_cidrs").truthy) "CIDR_NOT_AUTHORIZED"
  let required ← requiredEgress py job
  require (required = "" || required = identity.mode py) "EGRESS_MODE_MISMATCH"
  let target ← targetValue job
  require target.truthy "JOB_MISSING_TARGET"

/-! ## The tunnel of a site -/

structure TunnelStatus where
  interfaceUp : Bool
  lastHandshakeAge : Option ℤ
  routes : List String
  dnsOk : Bool
  peerReachable : Bool

/-- `_DEFAULT_ROUTES`. -/
def defaultRoutes : List String := ["0.0.0.0/0", "::/0"]

/-- An entry of `build_allowed_ips`; the error is a `WireGuardConfigError`. -/
def allowedIp (entry : String) : Except Unit IpNetwork :=
  if entry ∈ defaultRoutes then .error ()
  else
    match ipNetwork entry with
    | none => .error ()
    | some net => if net.prefixlen = 0 then .error () else .ok net

/-- Without those whose text has been there before. -/
def distinct (nets : List IpNetwork) : List IpNetwork :=
  nets.foldl (fun out net => if out.any (·.str = net.str) then out else out ++ [net]) []

/-- `build_allowed_ips`. -/
def buildAllowedIps (cidrs : List String) : Except Unit (List String) := do
  let nets ← (cidrs.filter (· ≠ "")).mapM allowedIp
  if (distinct nets).isEmpty then .error () else .ok ((distinct nets).map IpNetwork.str)

/-- `DEFAULT_MAX_HANDSHAKE_AGE_S`. -/
def defaultMaxHandshakeAge : ℤ := 180

/-- `assert_tunnel_healthy`, with the reasons as `preflight_private_job` gives them. The networks
are read after the first four checks. -/
def assertTunnelHealthy (maxHandshakeAge : ℤ) (status : TunnelStatus)
    (cidrs : Except JobFault (List String)) : Except JobFault Unit := do
  require status.interfaceUp "TUNNEL_UNHEALTHY"
  require status.lastHandshakeAge.isSome "NO_HANDSHAKE"
  require (status.lastHandshakeAge.all (· ≤ maxHandshakeAge)) "HANDSHAKE_STALE"
  require status.peerReachable "PEER_UNREACHABLE"
  match buildAllowedIps (← cidrs) with
  | .error () => .error (.leaseError "CIDR_NOT_AUTHORIZED")
  | .ok allowed => do
    require (allowed.all (· ∈ status.routes)) "ROUTE_MISSING"
    require status.dnsOk "DNS_UNAVAILABLE"

/-- A probe of the worker, if it has one: what it sees, or what the gate makes of its exception. -/
abbrev Probe (S : Type) := Option (Except JobFault S)

def preflightPrivateJob (py : Texts) (probe : Probe TunnelStatus) (job : Object) :
    Except JobFault Unit :=
  if !isPrivate job then .ok ()
  else
    match probe with
    | none => .error (.leaseError "TUNNEL_UNHEALTHY")
    | some (.error fault) => .error fault
    | some (.ok status) =>
      assertTunnelHealthy defaultMaxHandshakeAge status
        (entries py (field job "authorized_cidrs"))

/-! ## The egress of a VPN worker -/

structure EgressStatus where
  interfaceUp : Bool
  lastHandshakeAge : Option ℤ
  defaultRouteInTable : Bool
  policyRulePresent : Bool
  mainTableUntouched : Bool
  observedExitIp : Option String
  exitIpAge : Option ℤ
  killswitchActive : Bool

/-- The settings of `preflight_egress_job`. -/
structure EgressSettings where
  expectedExitIp : String
  forbiddenExitIps : List String
  maxHandshakeAge : ℤ

/-- `assert_egress_healthy`; the limit of the age of an exit address is the default one. -/
def assertEgressHealthy (cfg : EgressSettings) (status : EgressStatus) : Except JobFault Unit := do
  require status.interfaceUp "VPN_EGRESS_DOWN"
  require status.lastHandshakeAge.isSome "VPN_EGRESS_NO_HANDSHAKE"
  require (status.lastHandshakeAge.all (· ≤ cfg.maxHandshakeAge)) "VPN_EGRESS_HANDSHAKE_STALE"
  require status.defaultRouteInTable "VPN_EGRESS_ROUTE_MISSING"
  require status.policyRulePresent "VPN_EGRESS_RULE_MISSING"
  require status.mainTableUntouched "VPN_EGRESS_LEAK"
  require status.killswitchActive "VPN_EGRESS_KILLSWITCH_MISSING"
  require (configured status.observedExitIp).isSome "VPN_EGRESS_EXIT_IP_UNKNOWN"
  require (status.exitIpAge.all (· ≤ 120)) "VPN_EGRESS_EXIT_IP_STALE"
  let observed := strip (status.observedExitIp.getD "")
  require (cfg.expectedExitIp = "" || observed = strip cfg.expectedExitIp)
    "VPN_EGRESS_EXIT_IP_MISMATCH"
  require (cfg.forbiddenExitIps.all fun bad => observed ≠ strip bad) "VPN_EGRESS_EXIT_IP_MISMATCH"

def preflightEgressJob (py : Texts) (cfg : EgressSettings) (identity : WorkerIdentity)
    (probe : Probe EgressStatus) : Except JobFault Unit :=
  if !identity.isVpnEgress py then .ok ()
  else
    match probe with
    | none => .error (.leaseError "VPN_EGRESS_UNHEALTHY")
    | some (.error fault) => .error fault
    | some (.ok status) => assertEgressHealthy cfg status

/-! ## The policy -/

/-- `_parse_cidrs`. -/
def parseCidrs (cidrs : List String) : List IpNetwork :=
  distinct ((cidrs.filter (· ≠ "")).filterMap ipNetwork)

/-- `uuid.UUID(str(v)) if v else None`. -/
def uuidOf (py : Texts) (v : Value) : Except JobFault (Option Uuid) :=
  if v.truthy then
    match Uuid.ofHex (py.str v) with
    | some u => .ok (some u)
    | none => .error .other
  else .ok none

/-- The policy of a leased job: what the guard reads of it, and whom it is for. -/
structure JobPolicy extends ScanNetworkPolicy where
  workspaceId : Option Uuid
  scanId : Option Uuid
  siteId : Option Uuid
  dnsServers : List String

def buildPolicyForJob (py : Texts) (job : Object) : Except JobFault JobPolicy := do
  let workspaceId ← uuidOf py (field job "workspace_id")
  let scanId ← uuidOf py (field job "scan_id")
  if !isPrivate job then
    return ⟨publicOnly, workspaceId, scanId, none, []⟩
  else
    match Uuid.ofHex (py.str (field job "site_id")) with
    | none => .error .other
    | some siteId => do
      let cidrs ← entries py (field job "authorized_cidrs")
      let dnsServers ← entries py (field job "dns_servers")
      return ⟨⟨"private", parseCidrs cidrs⟩, workspaceId, scanId, some siteId,
        dnsServers.filter (· ≠ "")⟩

/-! ## What becomes of a job -/

inductive Handled where
  /-- It is handed back with the reason. -/
  | rejected (reason : String)
  /-- An exception leaves `_handle_job`. -/
  | escaped
  | noExecutor
  /-- The executor is invoked with this policy bound. -/
  | executed (policy : JobPolicy)

/-- A worker: its configuration, its probes, and whether it has an executor. -/
structure Worker where
  identity : WorkerIdentity
  egress : EgressSettings
  tunnelProbe : Probe TunnelStatus
  egressProbe : Probe EgressStatus
  hasExecutor : Bool

/-- The three gates of `_handle_job`. -/
def gates (py : Texts) (w : Worker) (job : Object) : Except JobFault Unit := do
  validateLeasedJob py w.identity job
  preflightPrivateJob py w.tunnelProbe job
  preflightEgressJob py w.egress w.identity w.egressProbe

/-- `_handle_job`, up to the executor. -/
def handleJob (py : Texts) (w : Worker) (job : Object) : Handled :=
  match gates py w job with
  | .error (.leaseError reason) => .rejected reason
  | .error .other => .escaped
  | .ok () =>
    match buildPolicyForJob py job with
    | .error _ => .escaped
    | .ok policy => if w.hasExecutor then .executed policy else .noExecutor

/-! ## What an execution has to rest on -/

def TunnelStatus.Healthy (status : TunnelStatus) : Prop :=
  status.interfaceUp ∧ (∃ age ∈ status.lastHandshakeAge, age ≤ defaultMaxHandshakeAge) ∧
    status.peerReachable ∧ status.dnsOk

/-- The path goes through the VPN, the kill-switch is active, and the exit address is known, fresh,
the expected one if there is one, and none that is forbidden. -/
def EgressStatus.Healthy (cfg : EgressSettings) (status : EgressStatus) : Prop :=
  status.interfaceUp ∧ (∃ age ∈ status.lastHandshakeAge, age ≤ cfg.maxHandshakeAge) ∧
    status.defaultRouteInTable ∧ status.policyRulePresent ∧ status.mainTableUntouched ∧
    status.killswitchActive ∧
    ∃ exitIp ∈ configured status.observedExitIp, (∀ age ∈ status.exitIpAge, age ≤ 120) ∧
      (cfg.expectedExitIp ≠ "" → strip exitIp = strip cfg.expectedExitIp) ∧
      ∀ bad ∈ cfg.forbiddenExitIps, strip exitIp ≠ strip bad

/-- The networks that a job is authorized for. -/
def authorizedCidrs (py : Texts) (job : Object) : Except JobFault (List String) :=
  entries py (field job "authorized_cidrs")

/-- What the execution of a job with this policy has to rest on. -/
structure Contained (py : Texts) (w : Worker) (job : Object) (policy : JobPolicy) : Prop where
  zone : isPrivate job = true ↔ (configured w.identity.siteId).isSome
  site : ∀ site ∈ configured w.identity.siteId,
    (field job "site_id").truthy = true ∧ py.str (field job "site_id") = site
  pool : (field job "pool_id").truthy = true → w.identity.poolId ≠ "" →
    field job "pool_id" = .str w.identity.poolId
  mode : (field job "required_egress_mode").truthy = true →
    ∃ text, field job "required_egress_mode" = .str text ∧
      (py.lower (strip text) = "" ∨ py.lower (strip text) = w.identity.mode py)
  cidrs : isPrivate job = true → ∃ cidrs, authorizedCidrs py job = .ok cidrs ∧
    (∃ cidr ∈ cidrs, cidr ≠ "") ∧
      ∀ cidr ∈ cidrs, cidr ≠ "" → ∃ net, ipNetwork cidr = some net ∧ net.prefixlen ≠ 0
  tunnel : isPrivate job = true → ∃ status, w.tunnelProbe = some (.ok status) ∧ status.Healthy ∧
    ∀ cidrs, authorizedCidrs py job = .ok cidrs →
      ∀ cidr ∈ cidrs, ∀ net, ipNetwork cidr = some net → net.str ∈ status.routes
  egress : w.identity.isVpnEgress py = true →
    ∃ status, w.egressProbe = some (.ok status) ∧ status.Healthy w.egress
  policy : ∀ ip, policy.allowsPrivateIp ip = true → isPrivate job = true ∧
    ∃ cidrs, authorizedCidrs py job = .ok cidrs ∧
      ∃ cidr ∈ cidrs, ∃ net, ipNetwork cidr = some net ∧ net.contains ip = true

/-! ## What the gates let through -/

section

variable {py : Texts}

theorem isText_iff {v : Value} {s : String} : isText v s = true ↔ v = .str s := by
  cases v <;> simp [isText]

/-- The zone that is not empty is left as it is. -/
theorem either_networkZone (job : Object) :
    either (networkZone job) (.str "public") = networkZone job := by
  unfold networkZone either
  by_cases h : (field job "network_zone").truthy
  · simp [h]
  · simp [h]

theorem textOf_eq_some {v : Value} {s : String} (h : textOf py v = some s) :
    v.truthy = true ∧ py.str v = s := by
  unfold textOf configured at h
  split_ifs at h with hv
  exact ⟨hv, Option.some.inj (Option.filter_eq_some_iff.mp h).1⟩

theorem assertJobMatchesWorker_eq_ok {job : Object} {siteId poolId : Value}
    {identity : WorkerIdentity}
    (h : assertJobMatchesWorker py (networkZone job) siteId poolId identity = .ok ()) :
    (isPrivate job = true ↔ (configured identity.siteId).isSome) ∧
      (∀ site ∈ configured identity.siteId, siteId.truthy = true ∧ py.str siteId = site) ∧
      (poolId.truthy = true → identity.poolId ≠ "" → poolId = .str identity.poolId) := by
  simp only [assertJobMatchesWorker, either_networkZone, check_bind, require_eq_ok] at h
  obtain ⟨hsite, hpool⟩ := h
  have hsame : poolId.truthy = true → identity.poolId ≠ "" → poolId = .str identity.poolId := by
    intro htruthy hset
    exact isText_iff.mp (by simpa [htruthy, hset] using hpool)
  unfold assertSiteMatches at hsite
  change (if isPrivate job = true then _ else _) = _ at hsite
  by_cases hzone : isPrivate job = true
  · rw [if_pos hzone] at hsite
    simp only [check_bind, require_eq_ok, decide_eq_true_eq] at hsite
    obtain ⟨-, hown, heq⟩ := hsite
    refine ⟨iff_of_true hzone hown, fun site hs => ?_, hsame⟩
    exact textOf_eq_some (heq ▸ hs)
  · rw [if_neg hzone, require_eq_ok, Option.isNone_iff_eq_none] at hsite
    rw [hsite]
    exact ⟨by simpa using hzone, by simp, hsame⟩

theorem requiredEgress_eq_ok {job : Object} {mode : String}
    (h : requiredEgress py job = .ok mode)
    (hset : (field job "required_egress_mode").truthy = true) :
    ∃ text, field job "required_egress_mode" = .str text ∧ mode = py.lower (strip text) := by
  unfold requiredEgress either at h
  rw [if_pos hset] at h
  split at h
  · rename_i text htext
    cases h
    exact ⟨text, htext, rfl⟩
  · cases h

theorem validateLeasedJob_eq_ok {identity : WorkerIdentity} {job : Object}
    (h : validateLeasedJob py identity job = .ok ()) :
    assertJobMatchesWorker py (networkZone job) (field job "site_id") (field job "pool_id")
        identity = .ok () ∧
      ∃ required, requiredEgress py job = .ok required ∧
        (required = "" ∨ required = identity.mode py) := by
  simp only [validateLeasedJob, check_bind] at h
  obtain ⟨-, -, -, hmatch, -, hrest⟩ := h
  obtain ⟨required, hrequired, hrest⟩ := bind_eq_ok.mp hrest
  have hmode := require_eq_ok.mp (check_bind.mp hrest).1
  exact ⟨hmatch, required, hrequired, by simpa using hmode⟩

theorem distinct_subset (nets : List IpNetwork) : distinct nets ⊆ nets := by
  have hfold : ∀ nets out : List IpNetwork, ∀ net ∈ nets.foldl
      (fun out net => if out.any (·.str = net.str) then out else out ++ [net]) out,
        net ∈ out ∨ net ∈ nets := by
    intro nets
    induction nets with
    | nil => exact fun out net h => .inl h
    | cons n nets ih =>
      intro out net h
      rcases ih _ net h with hout | hnets
      · dsimp only at hout
        split_ifs at hout with hany
        · exact .inl hout
        · rcases List.mem_append.mp hout with hout | hn
          · exact .inl hout
          · exact .inr (List.mem_singleton.mp hn ▸ List.mem_cons_self)
      · exact .inr (List.mem_cons_of_mem _ hnets)
  exact fun net h => (hfold nets [] net h).resolve_left List.not_mem_nil

/-- The text of every network stays. -/
theorem str_mem_distinct {nets : List IpNetwork} {net : IpNetwork} (h : net ∈ nets) :
    ∃ net' ∈ distinct nets, net'.str = net.str := by
  have hfold : ∀ nets out : List IpNetwork,
      (∃ n ∈ out, n.str = net.str) ∨ (∃ n ∈ nets, n.str = net.str) →
        ∃ n ∈ nets.foldl (fun out net => if out.any (·.str = net.str) then out else out ++ [net])
          out, n.str = net.str := by
    intro nets
    induction nets with
    | nil => exact fun out h => h.resolve_right (by simp)
    | cons m nets ih =>
      intro out h
      refine ih _ ?_
      rcases h with ⟨n, hn, hstr⟩ | ⟨n, hn, hstr⟩
      · refine .inl ⟨n, ?_, hstr⟩
        dsimp only
        split_ifs
        · exact hn
        · exact List.mem_append_left _ hn
      · rcases List.mem_cons.mp hn with rfl | hn
        · refine .inl ?_
          dsimp only
          split_ifs with hany
          · obtain ⟨n', hn', heq⟩ := List.any_eq_true.mp hany
            exact ⟨n', hn', (of_decide_eq_true heq).trans hstr⟩
          · exact ⟨n, List.mem_append_right _ (List.mem_singleton_self _), hstr⟩
        · exact .inr ⟨n, hn, hstr⟩
  exact hfold nets [] (.inr ⟨net, h, rfl⟩)

theorem allowedIp_eq_ok {entry : String} {net : IpNetwork} :
    allowedIp entry = .ok net ↔
      entry ∉ defaultRoutes ∧ ipNetwork entry = some net ∧ net.prefixlen ≠ 0 := by
  unfold allowedIp
  split_ifs with hdefault
  · simp [hdefault]
  · cases hnet : ipNetwork entry with
    | none => simp
    | some n =>
      dsimp only
      split_ifs with hzero
      · simp only [Option.some.injEq, false_iff, not_and, not_not]
        rintro - rfl
        exact hzero
      · simp only [Except.ok.injEq, Option.some.injEq, hdefault, not_false_eq_true, true_and]
        exact ⟨fun h => ⟨h, h ▸ hzero⟩, fun h => h.1⟩

/-- The networks of a site are valid, there is one, and none is a default route. -/
theorem buildAllowedIps_eq_ok {cidrs allowed : List String}
    (h : buildAllowedIps cidrs = .ok allowed) :
    (∃ cidr ∈ cidrs, cidr ≠ "") ∧
      ∀ cidr ∈ cidrs, cidr ≠ "" → ∃ net, ipNetwork cidr = some net ∧ net.prefixlen ≠ 0 ∧
        net.str ∈ allowed := by
  obtain ⟨nets, hnets, h⟩ := bind_eq_ok.mp h
  split_ifs at h with hempty
  have hallowed := Except.ok.inj h
  constructor
  · cases hd : distinct nets with
    | nil => simp [hd] at hempty
    | cons n rest =>
      have hn : n ∈ nets := distinct_subset nets (hd ▸ List.mem_cons_self)
      obtain ⟨cidr, hcidr, -⟩ := mem_of_mapM_eq_ok hnets n hn
      obtain ⟨hmem, hne⟩ := List.mem_filter.mp hcidr
      exact ⟨cidr, hmem, by simpa using hne⟩
  · intro cidr hcidr hne
    obtain ⟨net, hnet, hok⟩ := mem_mapM_of_mem hnets cidr
      (List.mem_filter.mpr ⟨hcidr, by simpa using hne⟩)
    obtain ⟨-, hparse, hprefix⟩ := allowedIp_eq_ok.mp hok
    obtain ⟨net', hnet', hstr⟩ := str_mem_distinct hnet
    refine ⟨net, hparse, hprefix, ?_⟩
    rw [← hallowed, ← hstr]
    exact List.mem_map_of_mem hnet'

/-- What the checks before those of the routes ask for. -/
def TunnelStatus.Fresh (maxHandshakeAge : ℤ) (status : TunnelStatus) : Prop :=
  status.interfaceUp ∧ (∃ age ∈ status.lastHandshakeAge, age ≤ maxHandshakeAge) ∧
    status.peerReachable

theorem assertTunnelHealthy_eq_ok {limit : ℤ} {status : TunnelStatus}
    {cidrs : Except JobFault (List String)} :
    assertTunnelHealthy limit status cidrs = .ok () ↔
      status.Fresh limit ∧ status.dnsOk ∧ ∃ texts allowed, cidrs = .ok texts ∧
        buildAllowedIps texts = .ok allowed ∧ ∀ text ∈ allowed, text ∈ status.routes := by
  simp only [assertTunnelHealthy, check_bind, require_eq_ok, TunnelStatus.Fresh]
  constructor
  · rintro ⟨hup, hsome, hage, hpeer, h⟩
    obtain ⟨age, hage'⟩ := Option.isSome_iff_exists.mp hsome
    obtain ⟨texts, htexts, h⟩ := bind_eq_ok.mp h
    split at h
    · cases h
    · rename_i allowed hallowed
      rw [check_bind, require_eq_ok, require_eq_ok] at h
      refine ⟨⟨hup, ⟨age, hage', by simpa [hage'] using hage⟩, hpeer⟩, h.2, texts, allowed, htexts,
        hallowed, ?_⟩
      simpa using h.1
  · rintro ⟨⟨hup, ⟨age, hage', hle⟩, hpeer⟩, hdns, texts, allowed, htexts, hallowed, hroutes⟩
    have hage := Option.mem_def.mp hage'
    refine ⟨hup, by simp [hage], by simpa [hage] using hle, hpeer,
      bind_eq_ok.mpr ⟨texts, htexts, ?_⟩⟩
    rw [hallowed]
    exact check_bind.mpr ⟨require_eq_ok.mpr (by simpa using hroutes), require_eq_ok.mpr hdns⟩

theorem preflightPrivateJob_eq_ok {probe : Probe TunnelStatus} {job : Object}
    (h : preflightPrivateJob py probe job = .ok ()) (hprivate : isPrivate job = true) :
    ∃ status, probe = some (.ok status) ∧ status.Healthy ∧
      ∃ cidrs, authorizedCidrs py job = .ok cidrs ∧ ∃ allowed,
        buildAllowedIps cidrs = .ok allowed ∧ ∀ text ∈ allowed, text ∈ status.routes := by
  unfold preflightPrivateJob at h
  rw [hprivate, if_neg (by simp)] at h
  split at h
  · cases h
  · cases h
  · rename_i status
    obtain ⟨⟨hup, hage, hpeer⟩, hdns, cidrs, allowed, hcidrs, hallowed⟩ :=
      assertTunnelHealthy_eq_ok.mp h
    exact ⟨status, rfl, ⟨hup, hage, hpeer, hdns⟩, cidrs, hcidrs, allowed, hallowed⟩

theorem assertEgressHealthy_eq_ok {cfg : EgressSettings} {status : EgressStatus}
    (h : assertEgressHealthy cfg status = .ok ()) : status.Healthy cfg := by
  simp only [assertEgressHealthy, check_bind, require_eq_ok] at h
  obtain ⟨hup, hsome, hage, hroute, hrule, hmain, hkill, hknown, hfresh, hexpected, hforbidden⟩ := h
  obtain ⟨age, hage'⟩ := Option.isSome_iff_exists.mp hsome
  obtain ⟨exitIp, hexit⟩ := Option.isSome_iff_exists.mp hknown
  have hobserved : status.observedExitIp = some exitIp := (Option.filter_eq_some_iff.mp hexit).1
  rw [hobserved, Option.getD_some] at hexpected hforbidden
  refine ⟨hup, ⟨age, hage', by simpa [hage'] using hage⟩, hroute, hrule, hmain, hkill, exitIp,
    hexit, fun age hage => ?_, fun hne => ?_, fun bad hbad => ?_⟩
  · simpa [Option.mem_def.mp hage] using hfresh
  · simpa [hne] using hexpected
  · simpa using List.all_eq_true.mp hforbidden bad hbad

theorem preflightEgressJob_eq_ok {cfg : EgressSettings} {identity : WorkerIdentity}
    {probe : Probe EgressStatus} (h : preflightEgressJob py cfg identity probe = .ok ())
    (hvpn : identity.isVpnEgress py = true) :
    ∃ status, probe = some (.ok status) ∧ status.Healthy cfg := by
  unfold preflightEgressJob at h
  rw [hvpn, if_neg (by simp)] at h
  split at h
  · cases h
  · cases h
  · exact ⟨_, rfl, assertEgressHealthy_eq_ok h⟩

/-- **The policy** is that of the zone and the networks of the job. -/
theorem buildPolicyForJob_eq_ok {job : Object} {policy : JobPolicy}
    (h : buildPolicyForJob py job = .ok policy) :
    if isPrivate job then ∃ cidrs, authorizedCidrs py job = .ok cidrs ∧
      policy.toScanNetworkPolicy = ⟨"private", parseCidrs cidrs⟩
    else policy.toScanNetworkPolicy = publicOnly := by
  unfold buildPolicyForJob at h
  obtain ⟨workspaceId, -, h⟩ := bind_eq_ok.mp h
  obtain ⟨scanId, -, h⟩ := bind_eq_ok.mp h
  cases hprivate : isPrivate job with
  | false =>
    rw [hprivate, if_pos (by simp)] at h
    cases h
    rfl
  | true =>
    rw [hprivate, if_neg (by simp)] at h
    split at h
    · cases h
    · obtain ⟨cidrs, hcidrs, h⟩ := bind_eq_ok.mp h
      obtain ⟨dnsServers, -, h⟩ := bind_eq_ok.mp h
      cases h
      exact ⟨cidrs, hcidrs, rfl⟩

/-- A private address that the policy covers lies in a network of the job. -/
theorem allowsPrivateIp_of_policy {job : Object} {policy : JobPolicy}
    (h : buildPolicyForJob py job = .ok policy) {ip : Ip} (hip : policy.allowsPrivateIp ip = true) :
    isPrivate job = true ∧ ∃ cidrs, authorizedCidrs py job = .ok cidrs ∧
      ∃ cidr ∈ cidrs, ∃ net, ipNetwork cidr = some net ∧ net.contains ip = true := by
  have hpolicy := buildPolicyForJob_eq_ok h
  cases hprivate : isPrivate job with
  | false =>
    rw [hprivate, if_neg (by simp)] at hpolicy
    rw [hpolicy] at hip
    simp [ScanNetworkPolicy.allowsPrivateIp, ScanNetworkPolicy.isPrivate, publicOnly] at hip
  | true =>
    rw [hprivate, if_pos rfl] at hpolicy
    obtain ⟨cidrs, hcidrs, hpolicy⟩ := hpolicy
    rw [hpolicy] at hip
    obtain ⟨-, hany⟩ := Bool.and_eq_true_iff.mp hip
    obtain ⟨net, hnet, hcontains⟩ := List.any_eq_true.mp hany
    obtain ⟨cidr, hcidr, hparse⟩ := List.mem_filterMap.mp (distinct_subset _ hnet)
    exact ⟨rfl, cidrs, hcidrs, cidr, (List.mem_filter.mp hcidr).1, net, hparse, hcontains⟩

end

/-! ## What is executed -/

theorem handleJob_executed {py : Texts} {w : Worker} {job : Object} {policy : JobPolicy}
    (h : handleJob py w job = .executed policy) :
    gates py w job = .ok () ∧ buildPolicyForJob py job = .ok policy := by
  unfold handleJob at h
  split at h
  · cases h
  · cases h
  · rename_i hgates
    split at h
    · cases h
    · rename_i policy' hpolicy
      split_ifs at h
      cases h
      exact ⟨hgates, hpolicy⟩

/-- **A job that is executed is contained**, whatever the manager has handed over. -/
theorem handleJob_contained (py : Texts) (w : Worker) (job : Object) (policy : JobPolicy)
    (h : handleJob py w job = .executed policy) : Contained py w job policy := by
  obtain ⟨hgates, hpolicy⟩ := handleJob_executed h
  simp only [gates, check_bind] at hgates
  obtain ⟨hvalid, htunnel, hegress⟩ := hgates
  obtain ⟨hmatch, required, hrequired, hmode⟩ := validateLeasedJob_eq_ok hvalid
  obtain ⟨hzone, hsite, hpool⟩ := assertJobMatchesWorker_eq_ok hmatch
  refine ⟨hzone, hsite, hpool, fun hset => ?_, fun hprivate => ?_, fun hprivate => ?_,
    preflightEgressJob_eq_ok hegress, fun ip => allowsPrivateIp_of_policy hpolicy⟩
  · obtain ⟨text, htext, rfl⟩ := requiredEgress_eq_ok hrequired hset
    exact ⟨text, htext, hmode⟩
  · obtain ⟨status, -, -, cidrs, hcidrs, allowed, hallowed, -⟩ :=
      preflightPrivateJob_eq_ok htunnel hprivate
    obtain ⟨hsome, hall⟩ := buildAllowedIps_eq_ok hallowed
    refine ⟨cidrs, hcidrs, hsome, fun cidr hcidr hne => ?_⟩
    obtain ⟨net, hparse, hprefix, -⟩ := hall cidr hcidr hne
    exact ⟨net, hparse, hprefix⟩
  · obtain ⟨status, hprobe, hhealthy, cidrs, hcidrs, allowed, hallowed, hroutes⟩ :=
      preflightPrivateJob_eq_ok htunnel hprivate
    refine ⟨status, hprobe, hhealthy, fun cidrs' hcidrs' cidr hcidr net hnet => ?_⟩
    obtain rfl := Except.ok.inj (hcidrs.symm.trans hcidrs')
    have hne : cidr ≠ "" := by
      rintro rfl
      cases hnet
    obtain ⟨net', hparse, -, hmem⟩ := (buildAllowedIps_eq_ok hallowed).2 cidr hcidr hne
    obtain rfl := Option.some.inj (hparse.symm.trans hnet)
    exact hroutes _ hmem

/-! ## A worker of a site -/

def labTexts : Texts := ⟨fun _ => "{}", PyStr.lower⟩

def labWorker : Worker where
  identity := ⟨"private", some "00000000-0000-0000-0000-000000000007", "direct"⟩
  egress := ⟨"", [], 180⟩
  tunnelProbe := some (.ok ⟨true, some 42, ["10.20.0.0/16"], true, true⟩)
  egressProbe := none
  hasExecutor := true

/-- The manager may write the zone and the modes as it likes. -/
def labJob : Object :=
  [("scan_id", .str "00000000-0000-0000-0000-000000000001"),
    ("execution_token", .str "00000000-0000-0000-0000-000000000002"),
    ("network_zone", .str "private"), ("site_id", .str "00000000-0000-0000-0000-000000000007"),
    ("authorized_cidrs", .arr [.str " 10.20.0.7/16", .str ""]),
    ("required_egress_mode", .str " Direct"), ("target", .obj [("value", .str "10.20.0.9")])]

def Handled.isExecuted : Handled → Bool
  | .executed _ => true
  | _ => false

theorem labJob_contained :
    ∃ policy, handleJob labTexts labWorker labJob = .executed policy ∧
      Contained labTexts labWorker labJob policy := by
  have hexecuted : (handleJob labTexts labWorker labJob).isExecuted = true := by decide
  cases h : handleJob labTexts labWorker labJob with
  | executed policy => exact ⟨policy, rfl, handleJob_contained _ _ _ policy h⟩
  | rejected | escaped | noExecutor =>
    rw [h] at hexecuted
    cases hexecuted

end LeasedJob

end ScanPlatform
