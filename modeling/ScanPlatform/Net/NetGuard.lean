import ScanPlatform.Base.Checks
import ScanPlatform.Base.Ipaddress

/-!
# The target guard

Which addresses a scan may reach: public ones, and others only when the global allow-list and the
policy of the scan both cover them. The texts of addresses that these functions hand on to each
other are given here as the addresses they denote.

* `isIpAllowed`, `assertIpAllowed`: one address;
* `assertNetworkWithinPolicy`: a range against the policy;
* `hostFromValue`, `resolveAndValidate`: a target.
-/

set_option autoImplicit false

namespace ScanPlatform

open Checks Ipaddress PyStr

/-- The settings that the guard reads. -/
structure NetSettings where
  scanAllowPrivateTargets : Bool
  scanAllowedCidrs : List String

structure ScanNetworkPolicy where
  networkZone : String
  authorizedCidrs : List IpNetwork

/-- `PUBLIC_ONLY`. -/
def publicOnly : ScanNetworkPolicy := ⟨"public", []⟩

def ScanNetworkPolicy.isPrivate (policy : ScanNetworkPolicy) : Bool :=
  policy.networkZone = "private"

def ScanNetworkPolicy.allowsPrivateIp (policy : ScanNetworkPolicy) (ip : Ip) : Bool :=
  policy.isPrivate && ip.inAny policy.authorizedCidrs

/-- Why a target is refused. -/
inductive TargetNotAllowed where
  /-- The site of the scan does not authorize the address. -/
  | notAuthorized
  /-- The address is private, reserved or that of a metadata service. -/
  | notPermitted
  | rangeNotContained
  deriving DecidableEq

inductive NetFault where
  | targetNotAllowed (reason : TargetNotAllowed)
  | gaierror
  deriving DecidableEq

/-- `_METADATA_IPS`, each as a network of one address. -/
def metadataIps : List IpNetwork :=
  networks ["169.254.169.254", "100.100.100.200", "fd00:ec2::254"]

/-- `_EXTRA_FORBIDDEN_NETS`. -/
def extraForbiddenNets : List IpNetwork := networks ["100.64.0.0/10"]

/-- `_allowed_networks`. -/
def allowedNetworks (cfg : NetSettings) : List IpNetwork :=
  cfg.scanAllowedCidrs.filterMap fun entry =>
    if strip entry = "" then none else ipNetwork (strip entry)

/-! ## One address -/

def explicitlyAllowedHost (cfg : NetSettings) (ip : Ip) : Bool :=
  (allowedNetworks cfg).any (·.isHost ip)

def inAllowedCidrs (cfg : NetSettings) (ip : Ip) : Bool := ip.inAny (allowedNetworks cfg)

def isForbidden (ip : Ip) : Bool :=
  ip.isPrivate || ip.isLoopback || ip.isLinkLocal || ip.isMulticast || ip.isReserved ||
    ip.isUnspecified || ip.inAny extraForbiddenNets

/-- What `is_ip_allowed` decides about a normalized address. -/
def ipAllowed (cfg : NetSettings) (policy : ScanNetworkPolicy) (ip : Ip) : Bool :=
  if metadataIps.any (·.isHost ip) then
    cfg.scanAllowPrivateTargets && explicitlyAllowedHost cfg ip && policy.allowsPrivateIp ip
  else if !isForbidden ip then true
  else if !(cfg.scanAllowPrivateTargets && inAllowedCidrs cfg ip) then false
  else policy.allowsPrivateIp ip

/-- `is_ip_allowed`; `none` stands for a text that is no address. -/
def isIpAllowed (cfg : NetSettings) (policy : ScanNetworkPolicy) (ipValue : Option Ip) : Bool :=
  match ipValue.map Ip.unmap with
  | none => false
  | some ip => ipAllowed cfg policy ip

def assertIpAllowed (cfg : NetSettings) (policy : ScanNetworkPolicy) (ipValue : Option Ip) :
    Except NetFault Unit :=
  if isIpAllowed cfg policy ipValue then .ok ()
  else
    let globallyPermitted := match ipValue.map Ip.unmap with
      | none => false
      | some ip => cfg.scanAllowPrivateTargets &&
          (inAllowedCidrs cfg ip || explicitlyAllowedHost cfg ip)
    .error (.targetNotAllowed (if globallyPermitted then .notAuthorized else .notPermitted))

/-! ## Ranges -/

/-- The test of the network address that makes a range private. -/
def isPrivateRange (edge : Ip) : Bool :=
  edge.isPrivate || edge.isLoopback || edge.isLinkLocal || edge.isReserved ||
    edge.inAny extraForbiddenNets

def assertNetworkWithinPolicy (policy : ScanNetworkPolicy) (net : IpNetwork) :
    Except NetFault Unit :=
  if !isPrivateRange net.networkAddress.unmap then .ok ()
  else if policy.authorizedCidrs.any (net.subnetOf ·) then .ok ()
  else .error (.targetNotAllowed .rangeNotContained)

/-! ## Targets -/

/-- `_host_from_value`. -/
def hostFromValue (value : String) : String :=
  let v := stripChars isSpace value.toList
  let v := (afterFirst "://".toList v).getD v
  let v := v.takeWhile (· ≠ '/')
  let v := (v.reverse.takeWhile (· ≠ '@')).reverse
  if v.head? = some '[' ∧ ']' ∈ v then String.ofList (v.tail.takeWhile (· ≠ ']'))
  else if v.count ':' = 1 then String.ofList (v.takeWhile (· ≠ ':'))
  else String.ofList v

/-- `resolve_and_validate`; `resolver` stands for `resolve_hostname`. -/
def resolveAndValidate (cfg : NetSettings) (policy : ScanNetworkPolicy)
    (resolver : ScanNetworkPolicy → String → Except NetFault (List String)) (host : String) :
    Except NetFault String :=
  match ipNetwork host with
  | some net => do
    assertIpAllowed cfg policy (some net.networkAddress)
    assertIpAllowed cfg policy (some net.broadcastAddress)
    assertNetworkWithinPolicy policy net
    return host
  | none => do
    let addrs ← resolver policy (hostFromValue host)
    match addrs with
    | [] => .error .gaierror
    | addr :: _ =>
      addrs.forM fun addr => assertIpAllowed cfg policy (ipAddress addr)
      return addr

example : hostFromValue " https://user@[::1]:8443/x" = "::1" := by decide

/-- **The two keys.** A metadata address is allowed when it is listed by itself and the policy
covers it; any other one when it is public, or both the allow-list and the policy cover it. -/
theorem ipAllowed_iff {cfg : NetSettings} {policy : ScanNetworkPolicy} {ip : Ip} :
    ipAllowed cfg policy ip = true ↔
      (metadataIps.any (·.isHost ip) = true ∧ cfg.scanAllowPrivateTargets = true ∧
        explicitlyAllowedHost cfg ip = true ∧ policy.allowsPrivateIp ip = true) ∨
      (¬ metadataIps.any (·.isHost ip) = true ∧ (¬ isForbidden ip = true ∨
        cfg.scanAllowPrivateTargets = true ∧ inAllowedCidrs cfg ip = true ∧
          policy.allowsPrivateIp ip = true)) := by
  unfold ipAllowed
  cases metadataIps.any (·.isHost ip) with
  | true => simp [and_assoc]
  | false =>
    cases isForbidden ip with
    | false => simp
    | true => cases cfg.scanAllowPrivateTargets <;> cases inAllowedCidrs cfg ip <;> simp

/-! ## What a target has passed -/

theorem assertIpAllowed_eq_ok {cfg : NetSettings} {policy : ScanNetworkPolicy}
    {ipValue : Option Ip} :
    assertIpAllowed cfg policy ipValue = .ok () ↔ isIpAllowed cfg policy ipValue = true := by
  unfold assertIpAllowed
  split_ifs with h
  · simp [h]
  · simp [h]

theorem assertNetworkWithinPolicy_eq_ok {policy : ScanNetworkPolicy} {net : IpNetwork} :
    assertNetworkWithinPolicy policy net = .ok () ↔
      (isPrivateRange net.networkAddress.unmap = true →
        ∃ authorized ∈ policy.authorizedCidrs, net.subnetOf authorized = true) := by
  unfold assertNetworkWithinPolicy
  cases isPrivateRange net.networkAddress.unmap with
  | false => simp
  | true => simp

/-- A range or an address is handed on unchanged when both of its edges are allowed and it lies
within the policy. -/
theorem resolveAndValidate_network {cfg : NetSettings} {policy : ScanNetworkPolicy}
    {resolver : ScanNetworkPolicy → String → Except NetFault (List String)} {host value : String}
    {net : IpNetwork} (hnet : ipNetwork host = some net) :
    resolveAndValidate cfg policy resolver host = .ok value ↔
      value = host ∧ isIpAllowed cfg policy (some net.networkAddress) = true ∧
        isIpAllowed cfg policy (some net.broadcastAddress) = true ∧
        (isPrivateRange net.networkAddress.unmap = true →
          ∃ authorized ∈ policy.authorizedCidrs, net.subnetOf authorized = true) := by
  rw [← assertIpAllowed_eq_ok, ← assertIpAllowed_eq_ok, ← assertNetworkWithinPolicy_eq_ok]
  simp only [resolveAndValidate, hnet, bind_eq_ok]
  constructor
  · rintro ⟨_, hfirst, _, hlast, _, hpolicy, hvalue⟩
    cases hvalue
    exact ⟨rfl, hfirst, hlast, hpolicy⟩
  · rintro ⟨rfl, hfirst, hlast, hpolicy⟩
    exact ⟨(), hfirst, (), hlast, (), hpolicy, rfl⟩

/-- The address that is handed on for a name is an allowed one. -/
theorem resolveAndValidate_name {cfg : NetSettings} {policy : ScanNetworkPolicy}
    {resolver : ScanNetworkPolicy → String → Except NetFault (List String)} {host value : String}
    (hnet : ipNetwork host = none) (h : resolveAndValidate cfg policy resolver host = .ok value) :
    isIpAllowed cfg policy (ipAddress value) = true := by
  simp only [resolveAndValidate, hnet, bind_eq_ok] at h
  obtain ⟨addrs, -, hvalue⟩ := h
  cases addrs with
  | nil => cases hvalue
  | cons addr addrs =>
    obtain ⟨_, hall, haddr⟩ := bind_eq_ok.mp hvalue
    cases haddr
    exact assertIpAllowed_eq_ok.mp (forM_eq_ok.mp hall value List.mem_cons_self)

end ScanPlatform
