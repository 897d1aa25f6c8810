import ScanPlatform.Base.Calendar
import ScanPlatform.Base.Json
import ScanPlatform.Base.RowLocks
import ScanPlatform.Engine.Runner
import ScanPlatform.Manager.Db
import ScanPlatform.Manager.Lease
import ScanPlatform.Net.NetGuard

/-!
# Creating projects, targets and scans

The plan of a workspace bounds how much it may have. A quota is checked under the lock of the row of
the workspace, which the transaction of the caller then holds.

The three requests that a quota bounds, statement by statement, without the escape hatch of local
development. A row that a session has loaded is not selected again by its primary key.

* `Plan`, `plans`, `getPlan`: the catalog;
* `TenantDb`: the rows that quotas count, and those that the creation of such rows reads;
* `countProjects`, `countTargets`, `countScansSince`, `monthStart`: what is counted;
* `planForUpdate`, `enforceProjectQuota` and its siblings: the checks;
* **`monthStart_mono`**: months do not run back;
* `getProject`, `getTarget`, `requireVerifiedTarget`: what the requests look up;
* `validateTargetValue`, `validateSite`: the address of a target;
* `insertProject`, `insertTarget`, `insertScan`: the rows that are added, with their keys checked;
* `createProject`, `createTarget`, `createScan`: the requests.
-/

set_option autoImplicit false

/-! ## Plans and quotas -/

namespace ScanPlatform

open RowLocks

/-! ## The catalog -/

structure Plan where
  tier : String
  name : String
  maxProjects : Option ℕ
  maxTargets : Option ℕ
  maxScansPerMonth : Option ℕ

def Plan.free : Plan where
  tier := "free"
  name := "Free"
  maxProjects := some 2
  maxTargets := some 5
  maxScansPerMonth := some 10

def Plan.pro : Plan where
  tier := "pro"
  name := "Professional"
  maxProjects := some 25
  maxTargets := some 200
  maxScansPerMonth := some 500

def Plan.enterprise : Plan := ⟨"enterprise", "Enterprise", none, none, none⟩

def Plan.pilot : Plan := ⟨"pilot", "Pilot", none, none, none⟩

/-- `PLANS`. -/
def plans : List Plan := [.free, .pro, .enterprise, .pilot]

/-- `get_plan`; an unknown tier falls back to the default. -/
def getPlan (tier : Option String) : Plan :=
  let tier := (tier.filter (· ≠ "")).getD "pilot"
  (plans.find? (·.tier = tier)).getD .pilot

/-! ## The rows -/

/-- A row of `projects`. -/
structure ProjectRow extends Project where
  id : Uuid
  name : String
  description : Option String
  createdBy : Uuid

/-- A row of `targets`. -/
structure TargetRow extends Target where
  id : Uuid
  addedBy : Uuid
  networkZone : String
  siteId : Option Uuid

/-- A row of `scans`. -/
structure ScanRow extends Scan where
  id : Uuid
  initiatedBy : Uuid
  scanType : String
  createdAt : ℤ

/-- The database at a time. The identifiers of projects are a primary key, and those of the
workspace of a project and of the project of a target are foreign keys. `workspaces` keeps
`plan_tier`. -/
structure TenantDb where
  now : ℤ
  workspaces : Table Uuid String
  projects : List ProjectRow
  targets : List TargetRow
  scans : List ScanRow
  sites : Table Uuid PrivateSite
  scopes : List AuthorizationScope
  distinct : (projects.map (·.id)).Nodup
  housed : ∀ p ∈ projects, (workspaces p.workspaceId).isSome
  owned : ∀ t ∈ targets, ∃ p ∈ projects, p.id = t.projectId

/-! ## What is counted -/

/-- The target is one of a project of the workspace. -/
def TenantDb.targetIn (d : TenantDb) (workspaceId : Uuid) (t : TargetRow) : Bool :=
  d.projects.any fun p => p.id = t.projectId ∧ p.workspaceId = workspaceId

/-- `_count_projects`. -/
def TenantDb.countProjects (d : TenantDb) (workspaceId : Uuid) : ℕ :=
  d.projects.countP (·.workspaceId = workspaceId)

/-- `_count_targets`; a target joins one project. -/
def TenantDb.countTargets (d : TenantDb) (workspaceId : Uuid) : ℕ :=
  d.targets.countP (d.targetIn workspaceId)

/-- When the scans of a workspace were created. -/
def TenantDb.scanTimes (d : TenantDb) (workspaceId : Uuid) : List ℤ :=
  (d.scans.filter (·.workspaceId = workspaceId)).map (·.createdAt)

def TenantDb.countScansSince (d : TenantDb) (start : ℤ) (workspaceId : Uuid) : ℕ :=
  (d.scanTimes workspaceId).countP (start ≤ ·)

def day : ℤ := 86400 * second

/-- `_month_start`, of a time since 1970. -/
def monthStart (now : ℤ) : ℤ :=
  Calendar.monthBegin (Calendar.monthOf (now / day).toNat) * day

/-! ## The checks -/

/-- How a request fails. A site that is not authorized is answered with status 403, and a target
that is not allowed with status 400. -/
inductive TenantFault where
  | http (status : ℕ) (detail : String)
  | siteNotAuthorized (reason : String)
  | targetNotAllowed (reason : TargetNotAllowed)
  | raised (exception : String)

/-- Transactions of the API, which lock rows of `workspaces`. -/
abbrev TenantTxn (α : Type) := Txn Uuid TenantDb TenantFault α

def overLimit (current : ℕ) (limit : Option ℕ) : Bool := limit.any (· ≤ current)

/-- `_plan_for_update`. -/
def planForUpdate (workspaceId : Uuid) : TenantTxn Plan :=
  lockRow workspaceId fun d => getPlan (d.workspaces workspaceId)

/-- The check of a quota: `current` counts, and `limit` is what the plan allows. -/
def enforceQuota (current : TenantTxn ℕ) (limit : Plan → Option ℕ) (message : Plan → ℕ → String)
    (workspaceId : Uuid) : TenantTxn Unit := do
  let plan ← planForUpdate workspaceId
  let count ← current
  raiseIf (overLimit count (limit plan)) (.http 402 (message plan ((limit plan).getD 0)))

def enforceProjectQuota (workspaceId : Uuid) : TenantTxn Unit :=
  enforceQuota (query fun d => .ok (d.countProjects workspaceId)) (·.maxProjects)
    (fun plan limit =>
      let name := plan.name
      s!"Project limit reached for the {name} plan ({limit}). Upgrade to add more.")
    workspaceId

def enforceTargetQuota (workspaceId : Uuid) : TenantTxn Unit :=
  enforceQuota (query fun d => .ok (d.countTargets workspaceId)) (·.maxTargets)
    (fun plan limit =>
      let name := plan.name
      s!"Target limit reached for the {name} plan ({limit}). Upgrade to add more.")
    workspaceId

/-- `_count_scans_this_month`: the month is that of the time before the statement. -/
def countScansThisMonth (workspaceId : Uuid) : TenantTxn ℕ := do
  let start ← query fun d => .ok (monthStart d.now)
  query fun d => .ok (d.countScansSince start workspaceId)

def enforceScanQuota (workspaceId : Uuid) : TenantTxn Unit :=
  enforceQuota (countScansThisMonth workspaceId) (·.maxScansPerMonth)
    (fun plan limit =>
      let name := plan.name
      s!"Monthly scan limit reached for the {name} plan ({limit}/month). Upgrade for more.")
    workspaceId

/-! ## Rules -/

theorem overLimit_eq_false {current : ℕ} {limit : Option ℕ} :
    overLimit current limit = false ↔ ∀ m ∈ limit, current < m := by
  cases limit <;> simp [overLimit]

/-- A later time is in the same month or in a later one. -/
theorem monthStart_mono {a b : ℤ} (hab : a ≤ b) : monthStart a ≤ monthStart b := by
  have hdays : (a / day).toNat ≤ (b / day).toNat :=
    Int.toNat_le_toNat (Int.ediv_le_ediv (by decide) hab)
  have hmonths := Calendar.monthBegin_mono (Calendar.monthOf_mono hdays)
  exact Int.mul_le_mul_of_nonneg_right (Int.ofNat_le.mpr hmonths) (by decide)

end ScanPlatform

/-! ## Creating projects, targets and scans -/

namespace ScanPlatform

namespace Tenant

open RowLocks Ipaddress PyStr

/-- The settings that the requests read. -/
structure CreationSettings where
  net : NetSettings
  supportedTargetTypes : List String
  aiEnabled : Bool
  aiProvider : String
  celeryScanDispatchEnabled : Bool

/-! ## Lookups -/

def getProject (workspaceId projectId : Uuid) : TenantTxn ProjectRow :=
  query fun d =>
    match d.projects.find? fun p => p.id = projectId ∧ p.workspaceId = workspaceId with
    | none => .error (.http 404 "Project not found")
    | some project => .ok project

def getTarget (workspaceId projectId targetId : Uuid) : TenantTxn TargetRow := do
  let _ ← getProject workspaceId projectId
  query fun d =>
    match d.targets.find? fun t => t.id = targetId ∧ t.projectId = projectId with
    | none => .error (.http 404 "Target not found")
    | some target => .ok target

def getCurrentScope (workspaceId projectId targetId : Uuid) : TenantTxn AuthorizationScope := do
  let _ ← getTarget workspaceId projectId targetId
  query fun d =>
    match (d.scopes.filter (·.targetId = targetId)).maxOn? (·.createdAt) with
    | none => .error (.http 404 "No authorization scope submitted for this target")
    | some scope => .ok scope

def requireVerifiedTarget (workspaceId projectId targetId : Uuid) :
    TenantTxn AuthorizationScope := do
  let scope ← (getCurrentScope workspaceId projectId targetId).mapError fun
    | .http 404 _ => .http 403 "No authorization scope has been submitted for this target"
    | fault => fault
  let now ← query fun d => .ok d.now
  raiseIf (!scope.verified) (.http 403 "This target's authorization scope is not verified")
  raiseIf (scope.expiresAt.any (· < now))
    (.http 403 "This target's authorization scope has expired")
  return scope

/-! ## Sites -/

def siteRefusal {α : Type} : Except String α → Except TenantFault α
  | .ok a => .ok a
  | .error reason => .error (.siteNotAuthorized reason)

def getSiteForWorkspace (siteId workspaceId : Uuid) : TenantTxn PrivateSite :=
  query fun d => siteRefusal
    (ScanPlatform.getSiteForWorkspace { Db.empty with sites := d.sites } siteId workspaceId)

/-- `_parse_cidrs`; a network that is listed twice is kept twice. -/
def parseCidrs (values : List String) : List IpNetwork :=
  values.filterMap fun raw => if strip raw = "" then none else ipNetwork (strip raw)

def authorizedNetworks (site : PrivateSite) : Except String (List IpNetwork) :=
  let nets := parseCidrs site.authorizedCidrs
  if nets.isEmpty then .error "NO_AUTHORIZED_CIDRS" else .ok nets

def assertAddressWithinSite (site : PrivateSite) (ip : Ip) : Except String Unit := do
  let nets ← authorizedNetworks site
  if ip.unmap.inAny nets then return () else .error "TARGET_OUTSIDE_AUTHORIZED_CIDRS"

/-- `build_scan_network_policy` for the private zone, of a site that belongs to the workspace. -/
def privatePolicy (site : PrivateSite) : Except String ScanNetworkPolicy := do
  assertSiteScannable site
  let nets ← authorizedNetworks site
  return ⟨"private", nets⟩

/-! ## Addresses -/

/-- `validate_target_value`; `resolver` stands for `resolve_hostname`. A name of the local host is
not permitted. -/
def validateTargetValue (cfg : NetSettings) (policy : ScanNetworkPolicy)
    (resolver : String → Except NetFault (List String)) (targetType value : String) :
    Except NetFault Unit :=
  if targetType ≠ "domain" ∧ targetType ≠ "ip_range" then .ok ()
  else
    let host := hostFromValue value
    match ipNetwork host with
    | some net => do
      assertIpAllowed cfg policy (some net.networkAddress)
      assertIpAllowed cfg policy (some net.broadcastAddress)
    | none =>
      if lower host ∈ ["localhost", "localhost.localdomain"] then
        .error (.targetNotAllowed .notPermitted)
      else
        match resolver host with
        | .error .gaierror => .ok ()
        | .error fault => .error fault
        | .ok addrs => addrs.forM fun addr => assertIpAllowed cfg policy (ipAddress addr)

/-- A private target lies within the networks of its site. -/
def validateSite (site : PrivateSite) (targetType value : String) : Except String Unit :=
  if targetType ∈ ["domain", "ip_range"] then
    match ipNetwork (strip value) with
    | none => .ok ()
    | some net => do
      assertAddressWithinSite site net.networkAddress
      assertAddressWithinSite site net.broadcastAddress
  else .ok ()

def netRefusal : Except NetFault Unit → Except TenantFault Unit
  | .ok () => .ok ()
  | .error (.targetNotAllowed reason) => .error (.targetNotAllowed reason)
  | .error .gaierror => .error (.raised "gaierror")

/-! ## Rows -/

/-- A project is inserted when its identifier is new and its workspace exists. -/
def insertProject (row : ProjectRow) (d : TenantDb) : Option TenantDb :=
  if h : (∀ p ∈ d.projects, p.id ≠ row.id) ∧ (d.workspaces row.workspaceId).isSome then
    some { d with
      projects := d.projects ++ [row]
      distinct := by
        rw [List.map_append, List.nodup_append]
        refine ⟨d.distinct, List.nodup_singleton _, fun a ha b hb hab => ?_⟩
        obtain ⟨p, hp, rfl⟩ := List.mem_map.mp ha
        rw [List.map_singleton, List.mem_singleton] at hb
        exact h.1 p hp (hab.trans hb)
      housed := fun p hp => by
        rcases List.mem_append.mp hp with hp | hp
        · exact d.housed p hp
        · rw [List.mem_singleton.mp hp]
          exact h.2
      owned := fun t ht => by
        obtain ⟨p, hp, hid⟩ := d.owned t ht
        exact ⟨p, List.mem_append_left _ hp, hid⟩ }
  else none

/-- A target is inserted when its identifier is new and its project exists. -/
def insertTarget (row : TargetRow) (d : TenantDb) : Option TenantDb :=
  if h : (∀ t ∈ d.targets, t.id ≠ row.id) ∧ ∃ p ∈ d.projects, p.id = row.projectId then
    some { d with
      targets := d.targets ++ [row]
      owned := fun t ht => by
        rcases List.mem_append.mp ht with ht | ht
        · exact d.owned t ht
        · rw [List.mem_singleton.mp ht]
          exact h.2 }
  else none

/-- A scan is inserted when its identifier is new, and its workspace, project and target exist. -/
def insertScan (row : ScanRow) (d : TenantDb) : Option TenantDb :=
  if (∀ s ∈ d.scans, s.id ≠ row.id) ∧ (d.workspaces row.workspaceId).isSome ∧
      (∃ p ∈ d.projects, p.id = row.projectId) ∧ ∃ t ∈ d.targets, t.id = row.targetId then
    some { d with scans := d.scans ++ [row] }
  else none

/-- The task of a scan is recorded. -/
def setCeleryTaskId (id : Uuid) (taskId : String) (d : TenantDb) : Option TenantDb :=
  some { d with scans := d.scans.map fun s =>
    if s.id = id then { s with celeryTaskId := some taskId } else s }

/-! ## The requests -/

/-- A call of `create_project`; `id` is the fresh identifier of the row. -/
structure ProjectCreate where
  workspaceId : Uuid
  creatorId : Uuid
  id : Uuid
  name : String
  description : Option String

def createProject (c : ProjectCreate) : TenantTxn Uuid := do
  enforceProjectQuota c.workspaceId
  write fun _ => insertProject {
    id := c.id
    workspaceId := c.workspaceId
    name := c.name
    description := c.description
    createdBy := c.creatorId }
  commit
  return c.id

/-- A call of `create_target`; `resolver` is what the name service answers. -/
structure TargetCreate where
  workspaceId : Uuid
  projectId : Uuid
  addedBy : Uuid
  id : Uuid
  targetType : String
  value : String
  criticality : String
  siteId : Option Uuid
  resolver : String → Except NetFault (List String)

/-- The site of a target with its policy. -/
def targetSite (c : TargetCreate) : TenantTxn (Option (PrivateSite × ScanNetworkPolicy)) :=
  match c.siteId with
  | none => return none
  | some siteId => do
    let site ← getSiteForWorkspace siteId c.workspaceId
    check (siteRefusal (assertSiteScannable site))
    let policy ← check (siteRefusal (privatePolicy site))
    return some (site, policy)

def createTarget (cfg : CreationSettings) (c : TargetCreate) : TenantTxn Uuid := do
  let _ ← getProject c.workspaceId c.projectId
  let site ← targetSite c
  let policy := (site.map Prod.snd).getD publicOnly
  check (netRefusal (validateTargetValue cfg.net policy c.resolver c.targetType c.value))
  check (site.elim (.ok ()) fun s => siteRefusal (validateSite s.1 c.targetType c.value))
  enforceTargetQuota c.workspaceId
  write fun _ => insertTarget {
    id := c.id
    projectId := c.projectId
    type := c.targetType
    value := c.value
    criticality := c.criticality
    addedBy := c.addedBy
    networkZone := if site.isSome then "private" else "public"
    siteId := c.siteId }
  commit
  return c.id

/-- `supported_target_types`. -/
def CreationSettings.supported (cfg : CreationSettings) : List String :=
  ["domain", "ip_range"].filter (· ∈ cfg.supportedTargetTypes)

/-- A call of `create_scan`; `enqueue` is what the task queue answers. -/
structure ScanCreate where
  workspaceId : Uuid
  projectId : Uuid
  initiatedBy : Uuid
  targetId : Uuid
  id : Uuid
  scanType : String
  requestedModules : List String
  useAiPlanner : Bool
  useAgent : Bool
  exploitationEnabled : Bool
  approvedHosts : List String
  toolConfig : Json.Object
  enqueue : Except String String

/-- `sorted` and `", ".join`. -/
def joinSorted (texts : List String) : String := ", ".intercalate (texts.mergeSort (· ≤ ·))

/-- The checks of the body. -/
def ScanCreate.validate (cfg : CreationSettings) (c : ScanCreate) : Except TenantFault Unit := do
  let unknown := c.requestedModules.filter fun m => (registered m).isNone
  if unknown ≠ [] then
    .error (.http 400 ("Unknown tool module(s): " ++ ", ".intercalate unknown))
  let unknown := (c.toolConfig.map Prod.fst).filter (· ∉ allowedToolConfigKeys)
  if unknown ≠ [] then
    .error (.http 400 ("Unknown tool_config key(s): " ++ joinSorted unknown ++ ". Allowed: " ++
      joinSorted allowedToolConfigKeys))
  if c.useAiPlanner ∧ !cfg.aiEnabled then
    .error (.http 400 ("AI planner requires an API key for the configured AI provider (" ++
      "\x27" ++ cfg.aiProvider ++ "\x27). Turn off \x27Use AI planner\x27 to run the scan " ++
      "without AI, or set the provider\x27s API key."))

/-- `config` of the row. -/
def ScanCreate.config (c : ScanCreate) (target : TargetRow) (zone : String) : Json.Object :=
  let texts (l : List String) : Json.Value := .arr (l.map .str)
  [("requested_modules", texts c.requestedModules), ("use_ai_planner", .bool c.useAiPlanner),
    ("use_agent", .bool c.useAgent), ("exploitation_enabled", .bool c.exploitationEnabled),
    ("approved_hosts", texts c.approvedHosts), ("network_zone", .str zone),
    ("site_id", target.siteId.elim .null fun site => .str (Uuid.str site))].foldl
      (fun config m => config.set m.1 m.2) c.toolConfig

/-- The site chain of a private target. -/
def validateZone (workspaceId : Uuid) (target : TargetRow) (zone : String) : TenantTxn Unit :=
  if zone = "private" then
    match target.siteId with
    | none => check (.error (.siteNotAuthorized "TARGET_MISSING_SITE"))
    | some siteId => do
      let site ← getSiteForWorkspace siteId workspaceId
      let _ ← check (siteRefusal (privatePolicy site))
  else return

/-- What follows the quota in `create_scan` up to the row. -/
def ScanCreate.authorize (cfg : CreationSettings) (c : ScanCreate) (target : TargetRow) :
    TenantTxn Json.Object := do
  check (c.validate cfg)
  let scope ← requireVerifiedTarget c.workspaceId c.projectId c.targetId
  let active := c.requestedModules.filter requiresActiveTesting
  raiseIf (!scope.activeTestingAllowed ∧ active ≠ []) (.http 403
    ("Active testing not authorized for this target; requested active module(s): " ++
      ", ".intercalate active))
  let zone := if target.networkZone = "" then "public" else target.networkZone
  validateZone c.workspaceId target zone
  return c.config target zone

/-- What follows the row, in another transaction. -/
def ScanCreate.dispatch (cfg : CreationSettings) (c : ScanCreate) : TenantTxn Unit :=
  if cfg.celeryScanDispatchEnabled then
    match c.enqueue with
    | .error exception => check (.error (.raised exception))
    | .ok taskId => write fun _ => setCeleryTaskId c.id taskId
  else return

def createScan (cfg : CreationSettings) (c : ScanCreate) : TenantTxn Uuid := do
  let target ← getTarget c.workspaceId c.projectId c.targetId
  let supported := joinSorted cfg.supported
  raiseIf (target.type ∉ cfg.supported) (.http 400
    ("Target type \x27" ++ target.type ++ "\x27 is not supported for scanning yet (supported: " ++
      (if supported = "" then "none" else supported) ++
      "). Refusing to start a scan that would assess nothing."))
  enforceScanQuota c.workspaceId
  let config ← c.authorize cfg target
  write fun d => insertScan { Scan.created c.workspaceId c.projectId c.targetId config d.now with
    id := c.id
    initiatedBy := c.initiatedBy
    scanType := c.scanType
    createdAt := d.now }
  commit
  c.dispatch cfg
  commit
  return c.id

end Tenant

end ScanPlatform
