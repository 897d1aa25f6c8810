import ScanPlatform.Worker.JobGates

/-!
# The tunnel in the report and at the gate

`observe_tunnel_health` reports the tunnel that `preflight_private_job` judges for a job. Both ask
`assert_tunnel_healthy`, the report with the routes of the tunnel and the configured threshold, the
gate with the networks of the job and the default one.

* `maxHandshakeAge`, `observeTunnelHealth`: the report;
* `Usable`, `Carries`, `PlainRoutes`: what the status says apart from the age;
* `preflight_accepts_iff`, `report_healthy_iff`: when the gate accepts, and when the report is good;
* **`report_agrees_iff`**: when they agree; `report_disagrees` is a status on which they do not.
-/

set_option autoImplicit false

namespace ScanPlatform

open Checks Ipaddress Json PyStr

namespace LeasedJob

/-! ## The report -/

/-- `_max_handshake_age_s`; the setting is `none` where it cannot be read. -/
def maxHandshakeAge (setting : Option ℤ) : ℤ :=
  match setting with
  | some value => if value = 0 then defaultMaxHandshakeAge else value
  | none => defaultMaxHandshakeAge

/-- The detail of a report; the texts of the last two end in the type of the exception. -/
inductive HealthDetail where
  | reason (reason : String)
  | probeFailed
  | healthCheckFailed
  deriving DecidableEq

structure HealthReport where
  healthy : Bool
  handshakeAge : Option ℤ
  detail : Option HealthDetail
  deriving DecidableEq

def observeTunnelHealth (setting : Option ℤ) (identity : WorkerIdentity)
    (probe : Probe TunnelStatus) : HealthReport :=
  match configured identity.siteId, probe with
  | none, _ | _, none => ⟨true, none, none⟩
  | some _, some (.error _) => ⟨false, none, some .probeFailed⟩
  | some _, some (.ok status) =>
    let unhealthy := fun detail : HealthDetail =>
      (⟨false, status.lastHandshakeAge, some detail⟩ : HealthReport)
    if status.routes.isEmpty then
      if !status.interfaceUp then unhealthy (.reason "TUNNEL_UNHEALTHY")
      else if status.lastHandshakeAge.isNone then unhealthy (.reason "NO_HANDSHAKE")
      else unhealthy (.reason "ROUTE_MISSING")
    else
      match assertTunnelHealthy (maxHandshakeAge setting) status
          (.ok (status.routes.map strip)) with
      | .ok () => ⟨true, status.lastHandshakeAge, none⟩
      -- A `WireGuardConfigError`, which is no `TunnelUnhealthy`.
      | .error (.leaseError "CIDR_NOT_AUTHORIZED") => unhealthy .healthCheckFailed
      | .error (.leaseError reason) => unhealthy (.reason reason)
      | .error .other => unhealthy .healthCheckFailed

/-! ## What the status says -/

/-- The interface is up, there has been a handshake, the peer is reachable and names are
resolved. -/
structure TunnelStatus.Usable (status : TunnelStatus) : Prop where
  up : status.interfaceUp = true
  handshake : status.lastHandshakeAge.isSome = true
  peer : status.peerReachable = true
  dns : status.dnsOk = true

/-- A valid network that is no default route, with a route in the tunnel. -/
def TunnelStatus.Carries (status : TunnelStatus) (cidr : String) : Prop :=
  ∃ net, allowedIp cidr = .ok net ∧ net.str ∈ status.routes

/-- Every route of the tunnel is a valid network that is no default route, as it is printed. -/
def TunnelStatus.PlainRoutes (status : TunnelStatus) : Prop :=
  ∀ route ∈ status.routes, strip route ≠ "" → status.Carries (strip route)

section

variable {py : Texts}

theorem slash_mem_str (net : IpNetwork) : '/' ∈ net.str.toList := by
  simp [IpNetwork.str]

/-- **Which networks have all their routes.** -/
theorem buildAllowedIps_carried {status : TunnelStatus} {cidrs : List String} :
    (∃ allowed, buildAllowedIps cidrs = .ok allowed ∧ ∀ text ∈ allowed, text ∈ status.routes) ↔
      (∃ cidr ∈ cidrs, cidr ≠ "") ∧ ∀ cidr ∈ cidrs, cidr ≠ "" → status.Carries cidr := by
  have hfilter : ∀ cidr, cidr ∈ cidrs.filter (· ≠ "") ↔ cidr ∈ cidrs ∧ cidr ≠ "" := by
    simp [List.mem_filter]
  constructor
  · rintro ⟨allowed, h, hroutes⟩
    refine ⟨(buildAllowedIps_eq_ok h).1, fun cidr hcidr hne => ?_⟩
    obtain ⟨nets, hnets, h⟩ := bind_eq_ok.mp h
    split_ifs at h
    obtain ⟨net, hnet, hok⟩ := mem_mapM_of_mem hnets cidr ((hfilter cidr).mpr ⟨hcidr, hne⟩)
    obtain ⟨net', hnet', hstr⟩ := str_mem_distinct hnet
    refine ⟨net, hok, hroutes _ ?_⟩
    rw [← Except.ok.inj h, ← hstr]
    exact List.mem_map_of_mem hnet'
  · rintro ⟨⟨cidr, hcidr, hne⟩, hcarries⟩
    obtain ⟨nets, hnets⟩ : ∃ nets, (cidrs.filter (· ≠ "")).mapM allowedIp = .ok nets := by
      refine mapM_isOk.mpr fun cidr hcidr => ?_
      obtain ⟨net, hok, -⟩ := hcarries cidr ((hfilter cidr).mp hcidr).1 ((hfilter cidr).mp hcidr).2
      exact ⟨net, hok⟩
    have hsome : (distinct nets).isEmpty = false := by
      obtain ⟨net, hnet, -⟩ := mem_mapM_of_mem hnets cidr ((hfilter cidr).mpr ⟨hcidr, hne⟩)
      obtain ⟨net', hnet', -⟩ := str_mem_distinct hnet
      exact List.isEmpty_eq_false_iff_exists_mem.mpr ⟨net', hnet'⟩
    refine ⟨(distinct nets).map IpNetwork.str, bind_eq_ok.mpr ⟨nets, hnets, ?_⟩,
      fun text htext => ?_⟩
    · rw [hsome, if_neg (by simp)]
    · obtain ⟨net, hnet, rfl⟩ := List.mem_map.mp htext
      obtain ⟨cidr, hcidr, hok⟩ := mem_of_mapM_eq_ok hnets net (distinct_subset nets hnet)
      obtain ⟨net', hok', hroute⟩ :=
        hcarries cidr ((hfilter cidr).mp hcidr).1 ((hfilter cidr).mp hcidr).2
      rwa [Except.ok.inj (hok.symm.trans hok')]

theorem fresh_iff {status : TunnelStatus} {limit : ℤ} : status.Fresh limit ∧ status.dnsOk = true ↔
    status.Usable ∧ ∀ age ∈ status.lastHandshakeAge, age ≤ limit := by
  constructor
  · rintro ⟨⟨hup, ⟨age, hage, hle⟩, hpeer⟩, hdns⟩
    refine ⟨⟨hup, Option.isSome_iff_exists.mpr ⟨age, hage⟩, hpeer, hdns⟩, fun age' hage' => ?_⟩
    exact Option.mem_unique hage hage' ▸ hle
  · rintro ⟨⟨hup, hsome, hpeer, hdns⟩, hle⟩
    obtain ⟨age, hage⟩ := Option.isSome_iff_exists.mp hsome
    exact ⟨⟨hup, ⟨age, hage, hle age hage⟩, hpeer⟩, hdns⟩

theorem carries_ne_empty {status : TunnelStatus} {cidr : String} (h : status.Carries cidr) :
    cidr ≠ "" := by
  rintro rfl
  obtain ⟨net, hok, -⟩ := h
  cases (allowedIp_eq_ok.mp hok).2.1

/-- **When the gate accepts** a job whose networks the tunnel carries. -/
theorem preflight_accepts_iff {status : TunnelStatus} {job : Object} {cidrs : List String}
    (hprivate : isPrivate job = true) (hcidrs : authorizedCidrs py job = .ok cidrs)
    (hne : cidrs ≠ []) (hcarries : ∀ cidr ∈ cidrs, status.Carries cidr) :
    preflightPrivateJob py (some (.ok status)) job = .ok () ↔
      status.Usable ∧ ∀ age ∈ status.lastHandshakeAge, age ≤ defaultMaxHandshakeAge := by
  have hroutes : ∃ texts allowed, authorizedCidrs py job = .ok texts ∧
      buildAllowedIps texts = .ok allowed ∧ ∀ text ∈ allowed, text ∈ status.routes := by
    obtain ⟨cidr, hcidr⟩ := List.exists_mem_of_ne_nil _ hne
    obtain ⟨allowed, hallowed⟩ := buildAllowedIps_carried.mpr
      ⟨⟨cidr, hcidr, carries_ne_empty (hcarries cidr hcidr)⟩,
        fun cidr hcidr _ => hcarries cidr hcidr⟩
    exact ⟨cidrs, allowed, hcidrs, hallowed⟩
  unfold preflightPrivateJob
  rw [hprivate, if_neg (by simp)]
  change assertTunnelHealthy _ _ (authorizedCidrs py job) = _ ↔ _
  rw [assertTunnelHealthy_eq_ok, ← and_assoc, fresh_iff, and_iff_left hroutes]

theorem forall_age_iff {o : Option ℤ} {age limit : ℤ} (h : age ∈ o) :
    (∀ age ∈ o, age ≤ limit) ↔ age ≤ limit :=
  ⟨fun hall => hall age h, fun hle _ h' => Option.mem_unique h h' ▸ hle⟩

/-- **When the report is good** for a tunnel with a route. -/
theorem report_healthy_iff {setting : Option ℤ} {identity : WorkerIdentity} {status : TunnelStatus}
    (hsite : (configured identity.siteId).isSome = true)
    (hroute : ∃ route ∈ status.routes, strip route ≠ "") :
    (observeTunnelHealth setting identity (some (.ok status))).healthy = true ↔
      (status.Usable ∧ ∀ age ∈ status.lastHandshakeAge, age ≤ maxHandshakeAge setting) ∧
        status.PlainRoutes := by
  obtain ⟨site, hsite⟩ := Option.isSome_iff_exists.mp hsite
  obtain ⟨route, hroute, hne⟩ := hroute
  have hsome : status.routes.isEmpty = false :=
    List.isEmpty_eq_false_iff_exists_mem.mpr ⟨route, hroute⟩
  have hverdict : (observeTunnelHealth setting identity (some (.ok status))).healthy = true ↔
      assertTunnelHealthy (maxHandshakeAge setting) status (.ok (status.routes.map strip)) =
        .ok () := by
    unfold observeTunnelHealth
    rw [hsite]
    dsimp only
    rw [hsome, if_neg (by simp)]
    split <;> simp [*]
  have hplain : (∃ texts allowed, (Except.ok (status.routes.map strip) : Except JobFault _) =
      .ok texts ∧ buildAllowedIps texts = .ok allowed ∧ ∀ text ∈ allowed, text ∈ status.routes) ↔
        status.PlainRoutes := by
    constructor
    · rintro ⟨texts, allowed, htexts, hallowed⟩ route hroute hne
      cases htexts
      exact (buildAllowedIps_carried.mp ⟨allowed, hallowed⟩).2 _ (List.mem_map_of_mem hroute) hne
    · intro h
      obtain ⟨allowed, hallowed⟩ := buildAllowedIps_carried.mpr
        ⟨⟨strip route, List.mem_map_of_mem hroute, hne⟩, fun cidr hcidr hne => by
          obtain ⟨route, hroute, rfl⟩ := List.mem_map.mp hcidr
          exact h route hroute hne⟩
      exact ⟨_, allowed, rfl, hallowed⟩
  rw [hverdict, assertTunnelHealthy_eq_ok, ← and_assoc, fresh_iff, hplain]

end

/-- The default threshold and the configured one, with the routes as they are, judge the age
alike. -/
def AgesAlike (setting : Option ℤ) (status : TunnelStatus) : Prop :=
  status.Usable → ∀ age ∈ status.lastHandshakeAge,
    (age ≤ defaultMaxHandshakeAge ↔ age ≤ maxHandshakeAge setting ∧ status.PlainRoutes)

/-- **The report and the gate agree** exactly on the tunnels that are not usable, and on those whose
age both thresholds judge alike, no route being odd. -/
theorem report_agrees_iff (py : Texts) (setting : Option ℤ) (identity : WorkerIdentity)
    (status : TunnelStatus) (job : Object) (cidrs : List String)
    (hsite : (configured identity.siteId).isSome = true) (hprivate : isPrivate job = true)
    (hcidrs : authorizedCidrs py job = .ok cidrs) (hne : cidrs ≠ [])
    (hcarries : ∀ cidr ∈ cidrs, status.Carries cidr) :
    ((observeTunnelHealth setting identity (some (.ok status))).healthy = true ↔
        preflightPrivateJob py (some (.ok status)) job = .ok ()) ↔
      AgesAlike setting status := by
  have hroute : ∃ route ∈ status.routes, strip route ≠ "" := by
    obtain ⟨cidr, hcidr⟩ := List.exists_mem_of_ne_nil _ hne
    obtain ⟨net, -, hroute⟩ := hcarries cidr hcidr
    exact ⟨net.str, hroute, strip_ne_empty (slash_mem_str net) (by decide)⟩
  rw [report_healthy_iff hsite hroute, preflight_accepts_iff hprivate hcidrs hne hcarries]
  constructor
  · intro h husable age hage
    rw [forall_age_iff hage, forall_age_iff hage, and_iff_right husable, and_iff_right husable] at h
    exact h.symm
  · intro h
    by_cases husable : status.Usable
    · obtain ⟨age, hage⟩ := Option.isSome_iff_exists.mp husable.handshake
      rw [forall_age_iff hage, forall_age_iff hage, and_iff_right husable, and_iff_right husable]
      exact (h husable age hage).symm
    · simp [husable]

/-- A job of the site for its only network. -/
def siteJob : Object := labJob.update [("authorized_cidrs", .arr [.str "10.20.0.0/16"])]

/-- A tunnel with a route to the network of the site. -/
def siteStatus (age : ℤ) : TunnelStatus := ⟨true, some age, ["10.20.0.0/16"], true, true⟩

theorem siteStatus_carries (age : ℤ) : (siteStatus age).Carries "10.20.0.0/16" :=
  ⟨_, rfl, by simp [siteStatus]; decide⟩

/-- **The report and the gate disagree** on a handshake of four minutes where five are allowed. -/
theorem report_disagrees :
    authorizedCidrs labTexts siteJob = .ok ["10.20.0.0/16"] ∧
      (siteStatus 240).Carries "10.20.0.0/16" ∧
      (observeTunnelHealth (some 300) labWorker.identity (some (.ok (siteStatus 240)))).healthy =
        true ∧
      preflightPrivateJob labTexts (some (.ok (siteStatus 240))) siteJob =
        .error (.leaseError "HANDSHAKE_STALE") :=
  ⟨by rfl, siteStatus_carries 240, by decide, by decide⟩

theorem report_agrees_on_fresh :
    ((observeTunnelHealth (some 300) labWorker.identity (some (.ok (siteStatus 42)))).healthy =
        true ↔
      preflightPrivateJob labTexts (some (.ok (siteStatus 42))) siteJob = .ok ()) ↔
    AgesAlike (some 300) (siteStatus 42) :=
  report_agrees_iff labTexts (some 300) labWorker.identity _ _ ["10.20.0.0/16"] (by decide)
    (by decide) (by rfl) (by simp) (by
      intro cidr hcidr
      rw [List.mem_singleton.mp hcidr]
      exact siteStatus_carries 42)

end LeasedJob

end ScanPlatform
