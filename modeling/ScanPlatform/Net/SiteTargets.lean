import ScanPlatform.Billing.Creation
import ScanPlatform.Net.RangeSafety

/-!
# Ranges of private sites

A range that is added to a private site is checked twice: when it is created, by what is written in
front of the prefix and by the two edges, and when it is scanned, by the two edges and by the
network as a whole.

* `siteAccepts`: the checks of the creation;
* `InSite`: every address of the range lies in the networks of the site;
* `inSite_iff`: this is decided at the edges of the networks;
* **`site_targets_agree_iff`**: when a range that is accepted lies in the site and is accepted by
  the scan, and `gap_accepted`, one that is not.
-/

set_option autoImplicit false

namespace ScanPlatform

open Cuts Ipaddress PyStr

/-- The checks that `create_target` makes of the value of a target of the site, with the policy of
the site. -/
def siteAccepts (cfg : NetSettings) (site : PrivateSite) (policy : ScanNetworkPolicy)
    (resolver : String → Except NetFault (List String)) (targetType value : String) : Prop :=
  Tenant.privatePolicy site = .ok policy ∧
    Tenant.validateTargetValue cfg policy resolver targetType value = .ok () ∧
    Tenant.validateSite site targetType value = .ok ()

/-- Every address of the range lies in the networks. -/
def InSite (nets : List IpNetwork) : IpNetwork → Prop
  | .v4 net => ∀ x, net.contains x = true → (Ip.v4 x).unmap.inAny nets = true
  | .v6 net _ => ∀ x, net.contains x = true → (Ip.v6 x none).unmap.inAny nets = true

/-! ## The edges of the networks -/

/-- Where the networks begin and where they have ended. -/
def siteCuts4 (nets : List IpNetwork) : List ℕ := nets.flatMap cuts4

def siteCuts6 (nets : List IpNetwork) : List ℕ :=
  [mappedBase, mappedBase + 2 ^ 32] ++ (siteCuts4 nets).map (· + mappedBase) ++ nets.flatMap cuts6

/-- The first address of the range, and the addresses in it at which a network begins or after which
one ends, lie in the networks. -/
def NoGap (nets : List IpNetwork) : IpNetwork → Prop
  | .v4 net => ∀ x, net.contains x = true →
      x = net.networkAddress ∨ x.toNat ∈ siteCuts4 nets → (Ip.v4 x).unmap.inAny nets = true
  | .v6 net _ => ∀ x, net.contains x = true →
      x = net.networkAddress ∨ x.toNat ∈ siteCuts6 nets → (Ip.v6 x none).unmap.inAny nets = true

theorem inSite_iff (nets : List IpNetwork) (net : IpNetwork) :
    InSite nets net ↔ NoGap nets net := by
  have h4 : ConstOff BitVec.toNat (siteCuts4 nets) fun x => (Ip.v4 x).inAny nets = true :=
    (covers_v4_of (List.Subset.refl _)).inAny
  cases net with
  | v4 net => exact forall_block_iff net h4
  | v6 net scope =>
    have h6 : ConstOff BitVec.toNat (siteCuts6 nets) fun x => (Ip.v6 x none).inAny nets = true :=
      (covers_v6_of fun _ hc => List.mem_append_right _ hc).inAny
    refine forall_block_iff net
      (constOff_unmap (P := fun ip => ip.inAny nets = true) h4 h6 ?_ ?_ ?_)
    · simp [siteCuts6]
    · simp [siteCuts6]
    · exact fun c hc => List.mem_append_left _ (List.mem_append_right _ hc)

/-- The scope of an address does not matter to the networks. -/
theorem inAny_unmap_scope (nets : List IpNetwork) (x : BitVec 128) (scope : Option String) :
    (Ip.v6 x scope).unmap.inAny nets = (Ip.v6 x none).unmap.inAny nets := by
  simp only [Ip.unmap]
  split_ifs
  · rfl
  · unfold Ip.inAny
    congr 1
    funext net
    cases net <;> rfl

/-- The edges of a range that lies in the networks. -/
theorem InSite.edges {nets : List IpNetwork} {net : IpNetwork} (h : InSite nets net) :
    net.networkAddress.unmap.inAny nets = true ∧ net.broadcastAddress.unmap.inAny nets = true := by
  cases net with
  | v4 net =>
    refine ⟨h _ ?_, h _ ?_⟩
    · exact (net.contains_iff _).mpr ⟨le_rfl, by rw [net.toNat_broadcastAddress]; omega⟩
    · exact (net.contains_iff _).mpr ⟨by rw [net.toNat_broadcastAddress]; omega, le_rfl⟩
  | v6 net scope =>
    refine ⟨(inAny_unmap_scope nets _ scope).trans (h _ ?_), h _ ?_⟩
    · exact (net.contains_iff _).mpr ⟨le_rfl, by rw [net.toNat_broadcastAddress]; omega⟩
    · exact (net.contains_iff _).mpr ⟨by rw [net.toNat_broadcastAddress]; omega, le_rfl⟩

/-! ## What the creation looks at -/

/-- What is written in front of the prefix is allowed by itself: an address, or a name that is not
that of the local host and has only allowed addresses as far as it is known. -/
def FrontAllowed (cfg : NetSettings) (policy : ScanNetworkPolicy)
    (resolver : String → Except NetFault (List String)) (value : String) : Prop :=
  match ipNetwork (hostFromValue value) with
  | some front => isIpAllowed cfg policy (some front.networkAddress) = true ∧
      isIpAllowed cfg policy (some front.broadcastAddress) = true
  | none => lower (hostFromValue value) ∉ ["localhost", "localhost.localdomain"] ∧
      (resolver (hostFromValue value) = .error .gaierror ∨
        ∃ addrs, resolver (hostFromValue value) = .ok addrs ∧
          ∀ addr ∈ addrs, isIpAllowed cfg policy (ipAddress addr) = true)

/-- Both edges of the range lie in the networks. -/
def EdgesInSite (nets : List IpNetwork) (value : String) : Prop :=
  ∀ net, ipNetwork (strip value) = some net →
    net.networkAddress.unmap.inAny nets = true ∧ net.broadcastAddress.unmap.inAny nets = true

theorem validateTargetValue_eq_ok {cfg : NetSettings} {policy : ScanNetworkPolicy}
    {resolver : String → Except NetFault (List String)} {targetType value : String} :
    Tenant.validateTargetValue cfg policy resolver targetType value = .ok () ↔
      (targetType ∈ ["domain", "ip_range"] → FrontAllowed cfg policy resolver value) := by
  unfold Tenant.validateTargetValue FrontAllowed
  by_cases htype : targetType ∈ ["domain", "ip_range"]
  · have hchecked : ¬ (targetType ≠ "domain" ∧ targetType ≠ "ip_range") := by
      simpa [imp_iff_not_or, or_comm] using htype
    rw [if_neg hchecked, forall_prop_of_true htype]
    cases hfront : ipNetwork (hostFromValue value) with
    | some front =>
      simp only [hfront, Checks.bind_eq_ok]
      rw [← assertIpAllowed_eq_ok, ← assertIpAllowed_eq_ok]
      exact ⟨fun ⟨_, h⟩ => h, fun h => ⟨(), h⟩⟩
    | none =>
      simp only [hfront]
      split_ifs with hlocal
      · simp [hlocal]
      · rw [and_iff_right hlocal]
        match resolver (hostFromValue value) with
        | .error .gaierror => simp
        | .error (.targetNotAllowed reason) => simp
        | .ok addrs =>
          simp only [reduceCtorEq, false_or, Except.ok.injEq, exists_eq_left',
            ← assertIpAllowed_eq_ok]
          exact Checks.forM_eq_ok
  · have hunchecked : targetType ≠ "domain" ∧ targetType ≠ "ip_range" := by simpa using htype
    rw [if_pos hunchecked]
    simp only [htype, false_implies]

theorem assertAddressWithinSite_eq_ok {site : PrivateSite} {nets : List IpNetwork}
    (hnets : Tenant.authorizedNetworks site = .ok nets) {ip : Ip} :
    Tenant.assertAddressWithinSite site ip = .ok () ↔ ip.unmap.inAny nets = true := by
  unfold Tenant.assertAddressWithinSite
  rw [Checks.bind_eq_ok]
  simp only [hnets, Except.ok.injEq, exists_eq_left']
  cases ip.unmap.inAny nets with
  | true => simp [pure, Except.pure]
  | false => simp

theorem validateSite_eq_ok {site : PrivateSite} {nets : List IpNetwork}
    (hnets : Tenant.authorizedNetworks site = .ok nets) {targetType value : String} :
    Tenant.validateSite site targetType value = .ok () ↔
      (targetType ∈ ["domain", "ip_range"] → EdgesInSite nets value) := by
  unfold Tenant.validateSite EdgesInSite
  by_cases htype : targetType ∈ ["domain", "ip_range"]
  · rw [if_pos htype, forall_prop_of_true htype]
    cases ipNetwork (strip value) with
    | none => simp
    | some net => simp [Checks.bind_eq_ok, assertAddressWithinSite_eq_ok hnets]
  · rw [if_neg htype]
    simp only [htype, false_implies]

/-- The policy of a site has its networks. -/
theorem privatePolicy_eq_ok {site : PrivateSite} {policy : ScanNetworkPolicy}
    (h : Tenant.privatePolicy site = .ok policy) :
    policy.isPrivate = true ∧ Tenant.authorizedNetworks site = .ok policy.authorizedCidrs := by
  obtain ⟨_, -, h⟩ := Checks.bind_eq_ok.mp h
  obtain ⟨nets, hnets, h⟩ := Checks.bind_eq_ok.mp h
  cases h
  exact ⟨rfl, hnets⟩

/-! ## What the scan looks at -/

/-- The global boundary, which is the first of the two keys. -/
def clearsBoundary (cfg : NetSettings) (ip : Ip) : Bool :=
  if metadataIps.any (·.isHost ip) then
    cfg.scanAllowPrivateTargets && explicitlyAllowedHost cfg ip
  else !isForbidden ip || cfg.scanAllowPrivateTargets && inAllowedCidrs cfg ip

/-- An address of the site needs the first key only. -/
theorem ipAllowed_of_inAny {cfg : NetSettings} {policy : ScanNetworkPolicy} {ip : Ip}
    (hprivate : policy.isPrivate = true) (hin : ip.inAny policy.authorizedCidrs = true) :
    ipAllowed cfg policy ip = clearsBoundary cfg ip := by
  have hkey : policy.allowsPrivateIp ip = true := by
    rw [ScanNetworkPolicy.allowsPrivateIp, hprivate, hin, Bool.and_self]
  unfold ipAllowed clearsBoundary
  rw [hkey, Bool.and_true]
  cases isForbidden ip with
  | false => simp
  | true => cases cfg.scanAllowPrivateTargets <;> cases inAllowedCidrs cfg ip <;> simp

/-- What the creation does not look at. -/
structure SiteCovers (cfg : NetSettings) (nets : List IpNetwork) (net : IpNetwork) : Prop where
  first : clearsBoundary cfg net.networkAddress.unmap = true
  last : clearsBoundary cfg net.broadcastAddress.unmap = true
  within : isPrivateRange net.networkAddress.unmap = true →
    ∃ authorized ∈ nets, net.subnetOf authorized = true
  noGap : NoGap nets net

/-- **When creation and scan agree**: a range that is accepted for a site lies in the networks of
the site and is accepted by the scan, if and only if what the creation looks at decides what it does
not look at. -/
theorem site_targets_agree_iff (cfg : NetSettings) (site : PrivateSite)
    (resolver : String → Except NetFault (List String))
    (scanResolver : ScanNetworkPolicy → String → Except NetFault (List String))
    (targetType value : String) (net : IpNetwork) (hnet : ipNetwork value = some net) :
    (∀ policy, siteAccepts cfg site policy resolver targetType value →
      InSite policy.authorizedCidrs net ∧
        resolveAndValidate cfg policy scanResolver value = .ok value) ↔
      ∀ policy, Tenant.privatePolicy site = .ok policy →
        (targetType ∈ ["domain", "ip_range"] →
          FrontAllowed cfg policy resolver value ∧ EdgesInSite policy.authorizedCidrs value) →
        SiteCovers cfg policy.authorizedCidrs net := by
  refine forall_congr' fun policy => ?_
  unfold siteAccepts
  rw [and_imp]
  refine imp_congr_right fun hpolicy => ?_
  obtain ⟨hprivate, hnets⟩ := privatePolicy_eq_ok hpolicy
  rw [validateTargetValue_eq_ok, validateSite_eq_ok hnets, ← imp_and]
  refine imp_congr_right fun _ => ?_
  rw [resolveAndValidate_network hnet, and_iff_right rfl]
  constructor
  · rintro ⟨hin, hfirst, hlast, hwithin⟩
    exact ⟨(ipAllowed_of_inAny hprivate hin.edges.1).symm.trans hfirst,
      (ipAllowed_of_inAny hprivate hin.edges.2).symm.trans hlast, hwithin, (inSite_iff _ _).mp hin⟩
  · rintro ⟨hfirst, hlast, hwithin, hgap⟩
    have hin := (inSite_iff _ _).mpr hgap
    exact ⟨hin, (ipAllowed_of_inAny hprivate hin.edges.1).trans hfirst,
      (ipAllowed_of_inAny hprivate hin.edges.2).trans hlast, hwithin⟩

/-! ## Two networks with a gap between them -/

def labNet : NetSettings := ⟨true, ["10.0.0.0/8"]⟩

def gapSite : PrivateSite := ⟨1, .active, ["10.0.0.0/24", "10.0.3.0/24"], [], none⟩

def labResolver : String → Except NetFault (List String) := fun _ => .error .gaierror

/-- The upper half of the second network, and what lies from the first one to the second one. -/
def halfRange : Cidr 32 := .ofPrefix 0x0A000380 25 (by decide)

def gapRange : Cidr 32 := .ofPrefix 0x0A000000 22 (by decide)

theorem site_targets_agree_iff_lab :
    (∀ policy, siteAccepts labNet gapSite policy labResolver "ip_range" "10.0.3.128/25" →
      InSite policy.authorizedCidrs (.v4 halfRange) ∧
        resolveAndValidate labNet policy (fun _ => labResolver) "10.0.3.128/25" =
          .ok "10.0.3.128/25") ↔
      ∀ policy, Tenant.privatePolicy gapSite = .ok policy →
        ("ip_range" ∈ ["domain", "ip_range"] →
          FrontAllowed labNet policy labResolver "10.0.3.128/25" ∧
            EdgesInSite policy.authorizedCidrs "10.0.3.128/25") →
        SiteCovers labNet policy.authorizedCidrs (.v4 halfRange) :=
  site_targets_agree_iff labNet gapSite labResolver (fun _ => labResolver) "ip_range"
    "10.0.3.128/25" (.v4 halfRange) rfl

/-- **A range over the gap is accepted** for the site, though the addresses in the gap are not the
site's and the scan refuses it. -/
theorem gap_accepted : ¬ ∀ (cfg : NetSettings) (site : PrivateSite) (policy : ScanNetworkPolicy)
    (resolver : String → Except NetFault (List String))
    (scanResolver : ScanNetworkPolicy → String → Except NetFault (List String))
    (targetType value : String) (net : IpNetwork), ipNetwork value = some net →
    siteAccepts cfg site policy resolver targetType value →
      InSite policy.authorizedCidrs net ∧
        resolveAndValidate cfg policy scanResolver value = .ok value := by
  intro hall
  have hagree := hall labNet gapSite ⟨"private", Tenant.parseCidrs gapSite.authorizedCidrs⟩
    labResolver (fun _ => labResolver) "ip_range" "10.0.0.0/22" (.v4 gapRange) rfl
    ⟨rfl, by decide, by decide⟩
  exact absurd (hagree.1 0x0A000100 (by decide)) (by decide)

end ScanPlatform
