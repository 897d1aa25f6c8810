import ScanPlatform.Base.Cuts
import ScanPlatform.Net.NetGuard

/-!
# Ranges handed to a tool

A range is expanded by the tool that receives it, while the guard looks at its two edges and at the
policy. Whether an address is allowed changes only at the edges of finitely many blocks: those of
the special-purpose tables, of the global allow-list and of the policy. A range is therefore safe
when these boundary addresses, as far as they lie inside it, are allowed.

* `Denotes`, `SafeInFull`: the addresses of a target, and that all of them are allowed;
* `guardNetworks`, `cutPoints4`, `cutPoints6`: where the decision can change;
* `constOff_v4`, `constOff_v6`: it changes nowhere else;
* **`safe_in_full_iff`**, `private_interior`: when a target is safe in full, and a range with
  public edges and a private interior.
-/

set_option autoImplicit false

namespace ScanPlatform

open Cuts Ipaddress

/-! ## What a target denotes -/

/-- An address that a tool may take the target for: the address itself, or any address of the
range. -/
def Denotes (value : String) (ip : Ip) : Prop :=
  match ipAddress value with
  | some addr => ip = addr
  | none => ∃ net, ipNetwork value = some net ∧
      ((∃ x, ip = .v4 x) ∨ ∃ x, ip = .v6 x none) ∧ net.contains ip = true

/-- Every address of what is handed on is allowed. -/
def SafeInFull (cfg : NetSettings) (policy : ScanNetworkPolicy)
    (resolver : ScanNetworkPolicy → String → Except NetFault (List String)) (host : String) :
    Prop :=
  ∀ value, resolveAndValidate cfg policy resolver host = .ok value →
    ∀ ip, Denotes value ip → isIpAllowed cfg policy (some ip) = true

/-! ## Where the decision can change -/

/-- Every block that the decision about an address refers to. -/
def guardNetworks (cfg : NetSettings) (policy : ScanNetworkPolicy) : List IpNetwork :=
  privateNetworks ++ privateNetworksExceptions ++ loopbackNetworks ++ linkLocalNetworks ++
    multicastNetworks ++ reservedNetworks ++ unspecifiedNetworks ++ metadataIps ++
    extraForbiddenNets ++ allowedNetworks cfg ++ policy.authorizedCidrs

/-- The first address of a block and the first one after it. -/
def cuts4 : IpNetwork → List ℕ
  | .v4 net => [net.networkAddress.toNat, net.broadcastAddress.toNat + 1]
  | .v6 _ _ => []

def cuts6 : IpNetwork → List ℕ
  | .v4 _ => []
  | .v6 net _ => [net.networkAddress.toNat, net.broadcastAddress.toNat + 1]

/-- The first IPv4-mapped address. -/
def mappedBase : ℕ := 0xFFFF00000000

/-- The boundary addresses of version 4. -/
def cutPoints4 (cfg : NetSettings) (policy : ScanNetworkPolicy) : List ℕ :=
  (guardNetworks cfg policy).flatMap cuts4

/-- The boundary addresses of version 6, those of version 4 among them in their mapped form. -/
def cutPoints6 (cfg : NetSettings) (policy : ScanNetworkPolicy) : List ℕ :=
  [mappedBase, mappedBase + 2 ^ 32] ++ (cutPoints4 cfg policy).map (· + mappedBase) ++
    (guardNetworks cfg policy).flatMap cuts6

/-- The first address of the range and the boundary addresses that lie in it are allowed. -/
def BoundariesAllowed (cfg : NetSettings) (policy : ScanNetworkPolicy) : IpNetwork → Prop
  | .v4 net => ∀ x, net.contains x = true →
      x = net.networkAddress ∨ x.toNat ∈ cutPoints4 cfg policy →
        isIpAllowed cfg policy (some (.v4 x)) = true
  | .v6 net _ => ∀ x, net.contains x = true →
      x = net.networkAddress ∨ x.toNat ∈ cutPoints6 cfg policy →
        isIpAllowed cfg policy (some (.v6 x none)) = true

/-! ## It changes nowhere else -/

section

variable {w : ℕ} {mk : BitVec w → Ip} {C : List ℕ}

/-- Membership of each of the networks, and being the single address of one, change at the cut
points only. -/
def Covers (mk : BitVec w → Ip) (C : List ℕ) (nets : List IpNetwork) : Prop :=
  ∀ net ∈ nets, ConstOff BitVec.toNat C (fun x => net.contains (mk x) = true) ∧
    ConstOff BitVec.toNat C fun x => net.isHost (mk x) = true

theorem Covers.of_append {nets nets' : List IpNetwork} (h : Covers mk C (nets ++ nets')) :
    Covers mk C nets ∧ Covers mk C nets' :=
  ⟨fun net hnet => h net (List.mem_append_left _ hnet),
    fun net hnet => h net (List.mem_append_right _ hnet)⟩

theorem Covers.inAny {nets : List IpNetwork} (h : Covers mk C nets) :
    ConstOff BitVec.toNat C fun x => (mk x).inAny nets = true :=
  (constOff_exists fun net hnet => (h net hnet).1).congr fun x => by
    simp [Ip.inAny, List.any_eq_true]

theorem Covers.anyHost {nets : List IpNetwork} (h : Covers mk C nets) :
    ConstOff BitVec.toNat C fun x => nets.any (·.isHost (mk x)) = true :=
  (constOff_exists fun net hnet => (h net hnet).2).congr fun x => by simp [List.any_eq_true]

/-- **The decision changes at the cut points only**, if membership of the blocks does. -/
theorem constOff_ipAllowed {cfg : NetSettings} {policy : ScanNetworkPolicy}
    (h : Covers mk C (guardNetworks cfg policy)) :
    ConstOff BitVec.toNat C fun x => ipAllowed cfg policy (mk x) = true := by
  obtain ⟨h, hpolicy⟩ := h.of_append
  obtain ⟨h, hallow⟩ := h.of_append
  obtain ⟨h, hextra⟩ := h.of_append
  obtain ⟨h, hmeta⟩ := h.of_append
  obtain ⟨h, hunspecified⟩ := h.of_append
  obtain ⟨h, hreserved⟩ := h.of_append
  obtain ⟨h, hmulticast⟩ := h.of_append
  obtain ⟨h, hlinkLocal⟩ := h.of_append
  obtain ⟨h, hloopback⟩ := h.of_append
  obtain ⟨hprivate, hexceptions⟩ := h.of_append
  have hforbidden : ConstOff BitVec.toNat C fun x => isForbidden (mk x) = true := by
    refine ConstOff.congr (((((((hprivate.inAny.and hexceptions.inAny.not).or
      hloopback.inAny).or hlinkLocal.inAny).or hmulticast.inAny).or hreserved.inAny).or
      hunspecified.inAny).or hextra.inAny) fun x => ?_
    simp [isForbidden, Ip.isPrivate, Ip.isLoopback, Ip.isLinkLocal, Ip.isMulticast, Ip.isReserved,
      Ip.isUnspecified]
  have hkey2 : ConstOff BitVec.toNat C fun x => policy.allowsPrivateIp (mk x) = true :=
    ((constOff_const (policy.isPrivate = true)).and hpolicy.inAny).congr fun x => by
      simp [ScanNetworkPolicy.allowsPrivateIp]
  have hswitch : ConstOff (BitVec.toNat (w := w)) C fun _ => cfg.scanAllowPrivateTargets = true :=
    constOff_const _
  exact ConstOff.congr ((hmeta.anyHost.and (hswitch.and (hallow.anyHost.and hkey2))).or
    (hmeta.anyHost.not.and (hforbidden.not.or (hswitch.and (hallow.inAny.and hkey2)))))
    fun x => ipAllowed_iff

end

/-- A host address is that of a block of one address. -/
theorem isHost_v4 (net : Cidr 32) (x : BitVec 32) :
    (IpNetwork.v4 net).isHost (.v4 x) = true ↔
      net.prefixLen = 32 ∧ (IpNetwork.v4 net).contains (.v4 x) = true := by
  simp only [IpNetwork.isHost, IpNetwork.isSingle, IpNetwork.networkAddress, IpNetwork.contains,
    Bool.and_eq_true, decide_eq_true_eq, Ip.v4.injEq]
  refine and_congr_right fun hsingle => ?_
  rw [Cidr.contains, hsingle, and_netmask_full, decide_eq_true_eq]

theorem isHost_v6 (net : Cidr 128) (scope : Option String) (x : BitVec 128) :
    (IpNetwork.v6 net scope).isHost (.v6 x none) = true ↔
      (net.prefixLen = 128 ∧ scope = none) ∧
        (IpNetwork.v6 net scope).contains (.v6 x none) = true := by
  simp only [IpNetwork.isHost, IpNetwork.isSingle, IpNetwork.networkAddress, IpNetwork.contains,
    Bool.and_eq_true, decide_eq_true_eq, Ip.v6.injEq]
  rw [and_assoc]
  refine and_congr_right fun hsingle => ?_
  rw [Cidr.contains, hsingle, and_netmask_full, decide_eq_true_eq, eq_comm (a := none), and_comm]

/-- Networks of which the edges of version 4 are among the cut points. -/
theorem covers_v4_of {nets : List IpNetwork} {C : List ℕ} (hC : nets.flatMap cuts4 ⊆ C) :
    Covers Ip.v4 C nets := by
  intro net hnet
  cases net with
  | v4 net =>
    have hcuts : ∀ c ∈ cuts4 (.v4 net), c ∈ C := fun c hc => hC (List.mem_flatMap.mpr ⟨_, hnet, hc⟩)
    have hcontains : ConstOff BitVec.toNat C fun x => (IpNetwork.v4 net).contains (.v4 x) = true :=
      constOff_interval (hcuts _ (by simp [cuts4])) (hcuts _ (by simp [cuts4])) net.contains_iff
    exact ⟨hcontains, ((constOff_const _).and hcontains).congr (isHost_v4 net)⟩
  | v6 net scope =>
    exact ⟨(constOff_const False).congr fun x => by simp [IpNetwork.contains],
      (constOff_const False).congr fun x => by simp [IpNetwork.isHost, IpNetwork.networkAddress]⟩

theorem covers_v6_of {nets : List IpNetwork} {C : List ℕ} (hC : nets.flatMap cuts6 ⊆ C) :
    Covers (Ip.v6 · none) C nets := by
  intro net hnet
  cases net with
  | v6 net scope =>
    have hcuts : ∀ c ∈ cuts6 (.v6 net scope), c ∈ C :=
      fun c hc => hC (List.mem_flatMap.mpr ⟨_, hnet, hc⟩)
    have hcontains : ConstOff BitVec.toNat C fun x =>
        (IpNetwork.v6 net scope).contains (.v6 x none) = true :=
      constOff_interval (hcuts _ (by simp [cuts6])) (hcuts _ (by simp [cuts6])) net.contains_iff
    exact ⟨hcontains, ((constOff_const _).and hcontains).congr (isHost_v6 net scope)⟩
  | v4 net =>
    exact ⟨(constOff_const False).congr fun x => by simp [IpNetwork.contains],
      (constOff_const False).congr fun x => by simp [IpNetwork.isHost, IpNetwork.networkAddress]⟩

theorem covers_v4 (cfg : NetSettings) (policy : ScanNetworkPolicy) :
    Covers Ip.v4 (cutPoints4 cfg policy) (guardNetworks cfg policy) :=
  covers_v4_of (List.Subset.refl _)

theorem covers_v6 (cfg : NetSettings) (policy : ScanNetworkPolicy) :
    Covers (Ip.v6 · none) (cutPoints6 cfg policy) (guardNetworks cfg policy) :=
  covers_v6_of fun _ hc => List.mem_append_right _ hc

theorem constOff_v4 (cfg : NetSettings) (policy : ScanNetworkPolicy) :
    ConstOff BitVec.toNat (cutPoints4 cfg policy) fun x =>
      isIpAllowed cfg policy (some (.v4 x)) = true :=
  constOff_ipAllowed (covers_v4 cfg policy)

/-- An address of version 6 is mapped when it lies in the mapped block. -/
theorem unmap_v6 (P : Ip → Prop) (x : BitVec 128) :
    P (Ip.v6 x none).unmap ↔
      if mappedBase ≤ x.toNat ∧ x.toNat ≤ mappedBase + 2 ^ 32 - 1 then P (.v4 (x.setWidth 32))
      else P (.v6 x none) := by
  have hmapped : x >>> 32 = 0xFFFF ↔
      mappedBase ≤ x.toNat ∧ x.toNat ≤ mappedBase + 2 ^ 32 - 1 := by
    rw [← BitVec.toNat_inj, BitVec.toNat_ushiftRight, Nat.shiftRight_eq_div_pow]
    simp only [mappedBase, BitVec.ofNat_eq_ofNat, BitVec.toNat_ofNat]
    omega
  simp only [Ip.unmap]
  split_ifs with h h' h'
  · rfl
  · exact absurd (hmapped.mp h) h'
  · exact absurd (hmapped.mpr h') h
  · rfl

/-- **A predicate on normalized addresses** changes where it does in either version, and at the
edges of the mapped block. -/
theorem constOff_unmap {P : Ip → Prop} {C D : List ℕ}
    (h4 : ConstOff BitVec.toNat C fun x => P (.v4 x))
    (h6 : ConstOff BitVec.toNat D fun x => P (.v6 x none)) (hbase : mappedBase ∈ D)
    (htop : mappedBase + 2 ^ 32 ∈ D) (hCD : C.map (· + mappedBase) ⊆ D) :
    ConstOff BitVec.toNat D fun x => P (Ip.v6 x none).unmap := by
  refine ConstOff.congr (ConstOff.shift (f := fun x : BitVec 128 => x.setWidth 32) h4 h6 ?_ hbase
    htop hCD) (unmap_v6 P)
  intro x hlo hhi
  rw [BitVec.toNat_setWidth]
  simp only [mappedBase] at hlo hhi ⊢
  omega

theorem constOff_v6 (cfg : NetSettings) (policy : ScanNetworkPolicy) :
    ConstOff BitVec.toNat (cutPoints6 cfg policy) fun x =>
      isIpAllowed cfg policy (some (.v6 x none)) = true := by
  refine constOff_unmap (P := fun ip => ipAllowed cfg policy ip = true)
    (constOff_ipAllowed (covers_v4 cfg policy)) (constOff_ipAllowed (covers_v6 cfg policy)) ?_ ?_ ?_
  · simp [cutPoints6]
  · simp [cutPoints6]
  · intro c hc
    exact List.mem_append_left _ (List.mem_append_right _ hc)

/-! ## Ranges -/

/-- A block is decided at its first address and at its cut points. -/
theorem forall_block_iff {w : ℕ} (net : Cidr w) {C : List ℕ} {P : BitVec w → Prop}
    (hP : ConstOff BitVec.toNat C P) :
    (∀ x, net.contains x = true → P x) ↔
      ∀ x, net.contains x = true → x = net.networkAddress ∨ x.toNat ∈ C → P x := by
  have hkey : ∀ n, net.networkAddress.toNat ≤ n → n ≤ net.broadcastAddress.toNat →
      ∃ x : BitVec w, x.toNat = n := fun n _ hn =>
    ⟨BitVec.ofNat w n, by
      rw [BitVec.toNat_ofNat]
      exact Nat.mod_eq_of_lt (Nat.lt_of_le_of_lt hn net.broadcastAddress.isLt)⟩
  have hrange := forall_range_iff hP hkey
  simp only [List.mem_cons, BitVec.toNat_inj] at hrange
  simp only [net.contains_iff, and_imp]
  exact hrange

/-- Every address of the range, as a tool numbers them. -/
def RangeAllowed (cfg : NetSettings) (policy : ScanNetworkPolicy) : IpNetwork → Prop
  | .v4 net => ∀ x, net.contains x = true → isIpAllowed cfg policy (some (.v4 x)) = true
  | .v6 net _ => ∀ x, net.contains x = true → isIpAllowed cfg policy (some (.v6 x none)) = true

theorem rangeAllowed_iff (cfg : NetSettings) (policy : ScanNetworkPolicy) (net : IpNetwork) :
    RangeAllowed cfg policy net ↔ BoundariesAllowed cfg policy net := by
  cases net with
  | v4 net => exact forall_block_iff net (constOff_v4 cfg policy)
  | v6 net scope => exact forall_block_iff net (constOff_v6 cfg policy)

theorem denotes_range {host : String} {net : IpNetwork} (haddr : ipAddress host = none)
    (hnet : ipNetwork host = some net) (cfg : NetSettings) (policy : ScanNetworkPolicy) :
    (∀ ip, Denotes host ip → isIpAllowed cfg policy (some ip) = true) ↔
      RangeAllowed cfg policy net := by
  simp only [Denotes, haddr, hnet, Option.some.injEq]
  cases net with
  | v4 net =>
    constructor
    · intro h x hx
      exact h _ ⟨_, rfl, .inl ⟨x, rfl⟩, hx⟩
    · rintro h ip ⟨_, rfl, ⟨x, rfl⟩ | ⟨x, rfl⟩, hx⟩
      · exact h x hx
      · cases hx
  | v6 net scope =>
    constructor
    · intro h x hx
      exact h _ ⟨_, rfl, .inr ⟨x, rfl⟩, hx⟩
    · rintro h ip ⟨_, rfl, ⟨x, rfl⟩ | ⟨x, rfl⟩, hx⟩
      · cases hx
      · exact h x hx

/-- The one address of a block of one address is its last one. -/
theorem rangeAllowed_of_single {cfg : NetSettings} {policy : ScanNetworkPolicy} {net : IpNetwork}
    (hsingle : net.isSingle = true)
    (hlast : isIpAllowed cfg policy (some net.broadcastAddress) = true) :
    RangeAllowed cfg policy net := by
  cases net with
  | v4 net =>
    intro x hx
    have hfull : net.prefixLen = 32 := of_decide_eq_true hsingle
    have hxe : x = net.broadcastAddress := by
      rw [Cidr.contains, hfull, and_netmask_full, decide_eq_true_eq] at hx
      rw [hx, net.broadcastAddress_of_full hfull]
    rwa [hxe]
  | v6 net scope =>
    intro x hx
    have hfull : net.prefixLen = 128 := of_decide_eq_true hsingle
    have hxe : x = net.broadcastAddress := by
      rw [Cidr.contains, hfull, and_netmask_full, decide_eq_true_eq] at hx
      rw [hx, net.broadcastAddress_of_full hfull]
    rwa [hxe]

/-- **When a target is safe in full.** Whatever a name resolves to is. An address or a range is if
and only if one of its edges is refused, or it is private by its first address and not within the
policy, or its first address and the boundary addresses inside it are allowed. -/
theorem safe_in_full_iff (cfg : NetSettings) (policy : ScanNetworkPolicy)
    (resolver : ScanNetworkPolicy → String → Except NetFault (List String)) (host : String) :
    SafeInFull cfg policy resolver host ↔
      ∀ net, ipNetwork host = some net →
        isIpAllowed cfg policy (some net.networkAddress) = true →
        isIpAllowed cfg policy (some net.broadcastAddress) = true →
        (isPrivateRange net.networkAddress.unmap = true →
          ∃ authorized ∈ policy.authorizedCidrs, net.subnetOf authorized = true) →
        BoundariesAllowed cfg policy net := by
  cases hnet : ipNetwork host with
  | none =>
    refine ⟨fun _ net h => (by cases h), fun _ value hvalue ip hip => ?_⟩
    have hallowed := resolveAndValidate_name hnet hvalue
    cases haddr : ipAddress value with
    | none => rw [haddr] at hallowed; cases hallowed
    | some addr =>
      simp only [Denotes, haddr] at hip
      rwa [hip, ← haddr]
  | some net =>
    have haccept : SafeInFull cfg policy resolver host ↔
        (isIpAllowed cfg policy (some net.networkAddress) = true →
          isIpAllowed cfg policy (some net.broadcastAddress) = true →
          (isPrivateRange net.networkAddress.unmap = true →
            ∃ authorized ∈ policy.authorizedCidrs, net.subnetOf authorized = true) →
          ∀ ip, Denotes host ip → isIpAllowed cfg policy (some ip) = true) := by
      constructor
      · intro h hfirst hlast hpolicy
        exact h host ((resolveAndValidate_network hnet).mpr ⟨rfl, hfirst, hlast, hpolicy⟩)
      · rintro h value hvalue
        obtain ⟨rfl, hfirst, hlast, hpolicy⟩ := (resolveAndValidate_network hnet).mp hvalue
        exact h hfirst hlast hpolicy
    rw [haccept]
    simp only [Option.some.injEq, forall_eq', ← rangeAllowed_iff]
    refine forall_congr' fun hfirst => forall_congr' fun hlast => imp_congr_right fun _ => ?_
    cases haddr : ipAddress host with
    | none => exact denotes_range haddr hnet cfg policy
    | some addr =>
      obtain ⟨net', hnet', hsame, hsingle⟩ := ipNetwork_of_ipAddress haddr
      obtain rfl : net = net' := Option.some.inj (hnet.symm.trans hnet')
      refine ⟨fun _ => rangeAllowed_of_single hsingle hlast, fun _ ip hip => ?_⟩
      simp only [Denotes, haddr] at hip
      rwa [hip, ← hsame]

/-- **A range with public edges and a private interior** is handed on although no private address
is allowed at all. -/
theorem private_interior :
    resolveAndValidate ⟨false, []⟩ publicOnly (fun _ _ => .error .gaierror) "8.0.0.0/6" =
        .ok "8.0.0.0/6" ∧
      ¬ SafeInFull ⟨false, []⟩ publicOnly (fun _ _ => .error .gaierror) "8.0.0.0/6" := by
  have haccepted : resolveAndValidate ⟨false, []⟩ publicOnly (fun _ _ => .error .gaierror)
      "8.0.0.0/6" = .ok "8.0.0.0/6" := by decide
  refine ⟨haccepted, fun h => ?_⟩
  have hallowed := h "8.0.0.0/6" haccepted (.v4 0x0A000001) ?_
  · revert hallowed
    decide
  · exact ⟨_, rfl, .inl ⟨_, rfl⟩, by decide⟩

end ScanPlatform
