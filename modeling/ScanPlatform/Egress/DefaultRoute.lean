import ScanPlatform.Base.Cidr
import ScanPlatform.Egress.KillSwitch
import ScanPlatform.Worker.JobGates

/-!
# Default routes in disguise

`build_allowed_ips` and `install_killswitch` refuse a network of prefix length zero. They look at
each entry of a list alone, so that several entries may have every address between them.

* `AllowedIpsAccepts`, `KillswitchAccepts`, `AcceptedCidrs`: the lists that one of the two accepts,
  with their networks;
* `NoDefaultRoute`: the networks of neither version have every address;
* `AcceptedCidrs.noDefaultRoute_alone`: an entry alone never has;
* **`no_default_route_iff`**: when the list has not; `halves_accepted` is a list that has.
-/

set_option autoImplicit false

namespace ScanPlatform

open Checks Cidr Ipaddress Netfilter PyStr

/-- The entries of a list of CIDRs that are not empty. -/
def cidrEntries (cidrs : List String) : List String := (cidrs.map strip).filter (· ≠ "")

/-- `build_allowed_ips` accepts the list, and these are the networks that it goes by. -/
structure AllowedIpsAccepts (cidrs : List String) (nets : List IpNetwork) : Prop where
  returns : ∃ allowed, LeasedJob.buildAllowedIps (cidrs.map strip) = .ok allowed
  networks : (cidrEntries cidrs).mapM LeasedJob.allowedIp = .ok nets

/-- `install_killswitch` accepts the list, whatever firewall it finds. -/
structure KillswitchAccepts (cidrs : List String) (nets : List IpNetwork) : Prop where
  returns : ∃ fails int config endpointIp host,
    (installKillswitch fails int config cidrs endpointIp host).2 = .ok ()
  networks : dispatchExceptions cidrs = .ok (nets.map fun net => [.destination (some net)])

/-- A list that one of the two accepts. -/
structure AcceptedCidrs where
  cidrs : List String
  nets : List IpNetwork
  accepted : AllowedIpsAccepts cidrs nets ∨ KillswitchAccepts cidrs nets

/-! ## Networks of one version -/

def v4Blocks (nets : List IpNetwork) : List (Cidr 32) :=
  nets.filterMap fun
    | .v4 net => some net
    | .v6 _ _ => none

def v6Blocks (nets : List IpNetwork) : List (Cidr 128) :=
  nets.filterMap fun
    | .v4 _ => none
    | .v6 net _ => some net

/-- Neither the networks of version 4 nor those of version 6 have every address. -/
def NoDefaultRoute (nets : List IpNetwork) : Prop :=
  (¬ ∀ x : BitVec 32, ∃ net ∈ nets, net.contains (.v4 x) = true) ∧
    ¬ ∀ x : BitVec 128, ∃ net ∈ nets, net.contains (.v6 x none) = true

/-- The widest networks of a version do not add up to all of its addresses. -/
def LeavesOut (nets : List IpNetwork) : Prop :=
  addressCount (v4Blocks nets) ≠ 2 ^ 32 ∧ addressCount (v6Blocks nets) ≠ 2 ^ 128

theorem contains_v4 {nets : List IpNetwork} {x : BitVec 32} :
    (∃ net ∈ nets, net.contains (.v4 x) = true) ↔ ∃ net ∈ v4Blocks nets, net.contains x = true := by
  induction nets with
  | nil => simp [v4Blocks]
  | cons net nets ih =>
    cases net with
    | v4 net => simpa [v4Blocks, IpNetwork.contains] using or_congr_right ih
    | v6 net scope => simpa [v4Blocks, IpNetwork.contains] using ih

theorem contains_v6 {nets : List IpNetwork} {x : BitVec 128} :
    (∃ net ∈ nets, net.contains (.v6 x none) = true) ↔
      ∃ net ∈ v6Blocks nets, net.contains x = true := by
  induction nets with
  | nil => simp [v6Blocks]
  | cons net nets ih =>
    cases net with
    | v4 net => simpa [v6Blocks, IpNetwork.contains] using ih
    | v6 net scope => simpa [v6Blocks, IpNetwork.contains] using or_congr_right ih

theorem noDefaultRoute_iff_leavesOut (nets : List IpNetwork) :
    NoDefaultRoute nets ↔ LeavesOut nets := by
  unfold NoDefaultRoute LeavesOut
  simp only [contains_v4, contains_v6, covers_iff, ne_eq]

/-! ## What is accepted -/

/-- A network that `build_allowed_ips` takes for an entry. -/
theorem allowedIp_eq_ok {entry : String} {net : IpNetwork}
    (h : LeasedJob.allowedIp entry = .ok net) : ipNetwork entry = some net ∧ net.prefixlen ≠ 0 := by
  unfold LeasedJob.allowedIp at h
  split_ifs at h
  split at h
  · cases h
  · rename_i hnet
    split_ifs at h with hlen
    cases h
    exact ⟨hnet, hlen⟩

theorem mapM_allowedIp {entries : List String} {nets : List IpNetwork}
    (h : entries.mapM LeasedJob.allowedIp = .ok nets) :
    entries.filterMap ipNetwork = nets ∧ ∀ net ∈ nets, net.prefixlen ≠ 0 := by
  induction entries generalizing nets with
  | nil =>
    cases h
    exact ⟨rfl, nofun⟩
  | cons entry entries ih =>
    obtain ⟨net, rest, hnet, hrest, rfl⟩ := mapM_cons_eq_ok.mp h
    obtain ⟨hparsed, hlen⟩ := allowedIp_eq_ok hnet
    obtain ⟨hnets, hlens⟩ := ih hrest
    refine ⟨by rw [List.filterMap_cons_some hparsed, hnets], ?_⟩
    exact List.forall_mem_cons.mpr ⟨hlen, hlens⟩

theorem dispatchExceptions_eq_ok {cidrs : List String} {nets : List IpNetwork}
    (h : dispatchExceptions cidrs = .ok (nets.map fun net => [.destination (some net)])) :
    (cidrEntries cidrs).filterMap ipNetwork = nets ∧ ∀ net ∈ nets, net.prefixlen ≠ 0 := by
  induction cidrs generalizing nets with
  | nil =>
    obtain rfl : nets = [] := by simpa [dispatchExceptions] using h
    exact ⟨rfl, nofun⟩
  | cons cidr cidrs ih =>
    unfold dispatchExceptions at h
    dsimp only at h
    split_ifs at h with hempty
    · have hskip : cidrEntries (cidr :: cidrs) = cidrEntries cidrs :=
        List.filter_cons_of_neg (by simp [hempty])
      rw [hskip]
      exact ih h
    · have hkeep : cidrEntries (cidr :: cidrs) = strip cidr :: cidrEntries cidrs :=
        List.filter_cons_of_pos (by simp [hempty])
      rw [hkeep]
      split at h
      · cases h
      · rename_i net hnet
        split_ifs at h with hlen
        cases hrest : dispatchExceptions cidrs with
        | error e => simp [hrest, bind, Except.bind] at h
        | ok rest =>
          simp only [hrest, bind, Except.bind, pure, Except.pure, Except.ok.injEq] at h
          cases nets with
          | nil => cases h
          | cons net' nets =>
            obtain ⟨hhead, hrest'⟩ := List.cons.inj h
            obtain rfl : net = net' := by simpa using hhead
            obtain ⟨hnets, hlens⟩ := ih (hrest.trans (congrArg _ hrest'))
            refine ⟨by rw [List.filterMap_cons_some hnet, hnets], ?_⟩
            exact List.forall_mem_cons.mpr ⟨hlen, hlens⟩

namespace AcceptedCidrs

/-- The networks are those of the entries, and none of them has the prefix length zero. -/
theorem nets_eq (l : AcceptedCidrs) :
    (cidrEntries l.cidrs).filterMap ipNetwork = l.nets ∧ ∀ net ∈ l.nets, net.prefixlen ≠ 0 := by
  rcases l.accepted with h | h
  · exact mapM_allowedIp h.networks
  · exact dispatchExceptions_eq_ok h.networks

/-- **An entry alone** is no default route. -/
theorem noDefaultRoute_alone (l : AcceptedCidrs) {net : IpNetwork} (hnet : net ∈ l.nets) :
    NoDefaultRoute [net] := by
  have hlen := l.nets_eq.2 net hnet
  rw [noDefaultRoute_iff_leavesOut]
  cases net with
  | v4 net => exact ⟨addressCount_singleton_ne hlen, by simp [v6Blocks, addressCount_nil]⟩
  | v6 net scope => exact ⟨by simp [v4Blocks, addressCount_nil], addressCount_singleton_ne hlen⟩

end AcceptedCidrs

/-- **An accepted list is no default route** if and only if its widest networks of each version,
counted once, do not add up to all addresses. -/
theorem no_default_route_iff (l : AcceptedCidrs) :
    NoDefaultRoute l.nets ↔ LeavesOut ((cidrEntries l.cidrs).filterMap ipNetwork) := by
  rw [l.nets_eq.1]
  exact noDefaultRoute_iff_leavesOut l.nets

/-! ## Two halves -/

/-- The lower and the upper half of the addresses of version 4. -/
def halves : List String := ["0.0.0.0/1", "128.0.0.0/1"]

def halfNetworks : List IpNetwork := networks halves

theorem halves_allowed : AllowedIpsAccepts halves halfNetworks where
  returns := ⟨halves, by decide⟩
  networks := rfl

theorem halves_dispatched : KillswitchAccepts halves halfNetworks where
  returns := ⟨fun _ => none, labIntReader, labEgressConfig, none, ⟨⟨[], fun _ => none⟩, 0, []⟩, rfl⟩
  networks := rfl

/-- **Both accept the two halves** of the address space. -/
theorem halves_accepted :
    (¬ ∀ cidrs nets, AllowedIpsAccepts cidrs nets → NoDefaultRoute nets) ∧
      ¬ ∀ cidrs nets, KillswitchAccepts cidrs nets → NoDefaultRoute nets := by
  have hwhole : ¬ NoDefaultRoute halfNetworks := by
    rw [noDefaultRoute_iff_leavesOut]
    exact fun h => h.1 (by decide)
  exact ⟨fun hall => hwhole (hall _ _ halves_allowed),
    fun hall => hwhole (hall _ _ halves_dispatched)⟩

end ScanPlatform
