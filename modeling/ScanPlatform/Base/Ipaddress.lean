import Mathlib.Data.List.Basic
import ScanPlatform.Base.Cidr
import ScanPlatform.Base.PyStr

/-!
# The `ipaddress` module

Addresses and networks of both versions and the texts that Python accepts for them, as in version
3.12 of its `ipaddress` module. A network is read with `strict=False`.

* `Ip`, `IpNetwork`, `IpNetwork.contains`: addresses and networks;
* `ipAddress`, `ipNetwork`: the parsers;
* `Ip.isPrivate` and its siblings: the special-purpose blocks;
* `ipNetwork_of_ipAddress`: an address is a network of its own;
* `compressHextets`, `Ip.str`, `IpNetwork.str`: `str()`, which leaves out the longest run of zeros.
-/

set_option autoImplicit false

namespace Ipaddress

open PyStr

inductive Ip where
  | v4 (ip : BitVec 32)
  | v6 (ip : BitVec 128) (scopeId : Option String)
  deriving DecidableEq

/-- The scope is that of the network address. -/
inductive IpNetwork where
  | v4 (net : Cidr 32)
  | v6 (net : Cidr 128) (scopeId : Option String)

/-! ## Addresses -/

/-- `isascii() and isdigit()`. -/
def isDigits (s : List Char) : Bool := !s.isEmpty && s.all Char.isDigit

def decimal (s : List Char) : ℕ := s.foldl (fun n c => 10 * n + (c.toNat - '0'.toNat)) 0

/-- `_parse_octet`. -/
def parseOctet (s : List Char) : Option ℕ :=
  if isDigits s ∧ s.length ≤ 3 ∧ (s = ['0'] ∨ s.head? ≠ some '0') ∧ decimal s ≤ 255 then
    some (decimal s)
  else none

/-- `IPv4Address._ip_int_from_string`. -/
def parseV4 (s : List Char) : Option (BitVec 32) :=
  match s.splitOn '.' with
  | [a, b, c, d] => do
    let a ← parseOctet a
    let b ← parseOctet b
    let c ← parseOctet c
    let d ← parseOctet d
    return BitVec.ofNat 32 (((a * 256 + b) * 256 + c) * 256 + d)
  | _ => none

/-- `_parse_hextet`. -/
def parseHextet (s : List Char) : Option ℕ :=
  if s.isEmpty ∨ 4 < s.length then none
  else s.foldlM (fun n c => (hexDigit c).map (16 * n + ·)) 0

/-- An address that ends in the form of version 4 is written out in hexadecimal. -/
def expandV4 (parts : List (List Char)) : Option (List (List Char)) :=
  match parts.getLast? with
  | none => none
  | some last =>
    if '.' ∈ last then
      (parseV4 last).map fun ip =>
        parts.dropLast ++ [Nat.toDigits 16 (ip.toNat / 65536), Nat.toDigits 16 (ip.toNat % 65536)]
    else some parts

/-- The hextets `hi`, then as many zeros as are missing from eight, then the hextets `lo`. -/
def joinHextets (hi lo : List (List Char)) (skipped : ℕ) : Option (BitVec 128) := do
  let hi ← hi.mapM parseHextet
  let lo ← lo.mapM parseHextet
  return BitVec.ofNat 128
    ((hi ++ List.replicate skipped 0 ++ lo).foldl (fun n h => n * 65536 + h) 0)

/-- `IPv6Address._ip_int_from_string`. -/
def parseV6 (s : List Char) : Option (BitVec 128) :=
  if (s.splitOn ':').length < 3 then none
  else do
    let parts ← expandV4 (s.splitOn ':')
    let n := parts.length
    if 9 < n then none
    else
      -- The places of `::` between the first part and the last one.
      match (List.range n).filter fun i => 0 < i ∧ i + 1 < n ∧ parts[i]? = some [] with
      | [] =>
        if n ≠ 8 ∨ parts.head? = some [] ∨ parts.getLast? = some [] then none
        else joinHextets parts [] 0
      | [skip] =>
        let hi := if parts.head? = some [] then skip - 1 else skip
        let lo := if parts.getLast? = some [] then n - skip - 2 else n - skip - 1
        if parts.head? = some [] ∧ hi ≠ 0 ∨ parts.getLast? = some [] ∧ lo ≠ 0 ∨ 8 ≤ hi + lo then
          none
        else joinHextets (parts.take hi) (parts.drop (n - lo)) (8 - (hi + lo))
      | _ => none

/-- `_split_scope_id`. -/
def splitScopeId (s : List Char) : Option (List Char × Option String) :=
  match s.dropWhile (· ≠ '%') with
  | [] => some (s, none)
  | _ :: scope =>
    if scope.isEmpty ∨ '%' ∈ scope then none
    else some (s.takeWhile (· ≠ '%'), some (String.ofList scope))

def parseScoped (s : List Char) : Option (BitVec 128 × Option String) := do
  let (addr, scope) ← splitScopeId s
  let ip ← parseV6 addr
  return (ip, scope)

/-- `ip_address`; `none` stands for `ValueError`. -/
def ipAddress (text : String) : Option Ip :=
  let s := text.toList
  if '/' ∈ s then none
  else ((parseV4 s).map .v4).or ((parseScoped s).map fun p => .v6 p.1 p.2)

/-! ## Networks -/

/-- `_prefix_from_prefix_string`. -/
def prefixFromPrefixString (w : ℕ) (s : List Char) : Option { p : ℕ // p ≤ w } :=
  if h : isDigits s ∧ decimal s ≤ w then some ⟨decimal s, h.2⟩ else none

/-- `_prefix_from_ip_int`: the length of the prefix whose netmask this is. -/
def prefixFromIpInt (mask : BitVec 32) : Option { p : ℕ // p ≤ 32 } :=
  ((List.finRange 33).find? fun p => netmask 32 p.val = mask).map fun p =>
    ⟨p.val, Nat.lt_succ_iff.mp p.isLt⟩

/-- `_prefix_from_ip_string`: a netmask, or else a host mask. -/
def prefixFromIpString (s : List Char) : Option { p : ℕ // p ≤ 32 } := do
  let mask ← parseV4 s
  (prefixFromIpInt mask).or (prefixFromIpInt (mask ^^^ BitVec.allOnes 32))

/-- `IPv4Network`. -/
def ipv4Network (s : List Char) : Option IpNetwork :=
  match s.splitOn '/' with
  | [addr] => (parseV4 addr).map fun ip => .v4 (.ofPrefix ip 32 (Nat.le_refl _))
  | [addr, mask] => do
    let ip ← parseV4 addr
    let p ← (prefixFromPrefixString 32 mask).or (prefixFromIpString mask)
    return .v4 (.ofPrefix ip p p.2)
  | _ => none

/-- The scope is lost when host bits are cleared. -/
def ipv6NetworkOf (ip : BitVec 128) (scope : Option String) (p : { p : ℕ // p ≤ 128 }) :
    IpNetwork :=
  .v6 (.ofPrefix ip p p.2) (if ip &&& netmask 128 p = ip then scope else none)

/-- `IPv6Network`. -/
def ipv6Network (s : List Char) : Option IpNetwork :=
  match s.splitOn '/' with
  | [addr] => (parseScoped addr).map fun a => ipv6NetworkOf a.1 a.2 ⟨128, Nat.le_refl _⟩
  | [addr, mask] => do
    let a ← parseScoped addr
    let p ← prefixFromPrefixString 128 mask
    return ipv6NetworkOf a.1 a.2 p
  | _ => none

/-- `ip_network` with `strict=False`; `none` stands for `ValueError`. -/
def ipNetwork (text : String) : Option IpNetwork :=
  (ipv4Network text.toList).or (ipv6Network text.toList)

namespace IpNetwork

def networkAddress : IpNetwork → Ip
  | .v4 net => .v4 net.networkAddress
  | .v6 net scope => .v6 net.networkAddress scope

def broadcastAddress : IpNetwork → Ip
  | .v4 net => .v4 net.broadcastAddress
  | .v6 net _ => .v6 net.broadcastAddress none

/-- `num_addresses == 1`. -/
def isSingle : IpNetwork → Bool
  | .v4 net => net.prefixLen = 32
  | .v6 net _ => net.prefixLen = 128

/-- `ip in net`, which the version decides first and the scope does not matter to. -/
def contains : IpNetwork → Ip → Bool
  | .v4 net, .v4 ip => net.contains ip
  | .v6 net _, .v6 ip _ => net.contains ip
  | _, _ => false

/-- The single address of the network. -/
def isHost (net : IpNetwork) (ip : Ip) : Bool := net.isSingle && ip = net.networkAddress

end IpNetwork

/-- `a <= b` on addresses of one version: the scope counts when they are equal otherwise. -/
def Ip.le : Ip → Ip → Bool
  | .v4 a, .v4 b => a.toNat ≤ b.toNat
  | .v6 a s, .v6 b t => a.toNat < b.toNat ∨ a = b ∧ s = t
  | _, _ => false

/-- `net.version == other.version and net.subnet_of(other)`. -/
def IpNetwork.subnetOf (net other : IpNetwork) : Bool :=
  other.networkAddress.le net.networkAddress && net.broadcastAddress.le other.broadcastAddress

/-! ## Special-purpose blocks -/

/-- The networks of these texts. -/
def networks (texts : List String) : List IpNetwork := texts.filterMap ipNetwork

def Ip.inAny (ip : Ip) (nets : List IpNetwork) : Bool := nets.any (·.contains ip)

def privateNetworks : List IpNetwork := networks
  ["0.0.0.0/8", "10.0.0.0/8", "127.0.0.0/8", "169.254.0.0/16", "172.16.0.0/12", "192.0.0.0/24",
    "192.0.0.170/31", "192.0.2.0/24", "192.168.0.0/16", "198.18.0.0/15", "198.51.100.0/24",
    "203.0.113.0/24", "240.0.0.0/4", "255.255.255.255/32",
    "::1/128", "::/128", "::ffff:0:0/96", "64:ff9b:1::/48", "100::/64", "2001::/23",
    "2001:db8::/32", "2002::/16", "3fff::/20", "fc00::/7", "fe80::/10"]

def privateNetworksExceptions : List IpNetwork := networks
  ["192.0.0.9/32", "192.0.0.10/32", "2001:1::1/128", "2001:1::2/128", "2001:3::/32",
    "2001:4:112::/48", "2001:20::/28", "2001:30::/28"]

def loopbackNetworks : List IpNetwork := networks ["127.0.0.0/8", "::1/128"]

def linkLocalNetworks : List IpNetwork := networks ["169.254.0.0/16", "fe80::/10"]

def multicastNetworks : List IpNetwork := networks ["224.0.0.0/4", "ff00::/8"]

def reservedNetworks : List IpNetwork := networks
  ["240.0.0.0/4", "::/8", "100::/8", "200::/7", "400::/6", "800::/5", "1000::/4", "4000::/3",
    "6000::/3", "8000::/3", "a000::/3", "c000::/3", "e000::/4", "f000::/5", "f800::/6", "fe00::/9"]

def unspecifiedNetworks : List IpNetwork := networks ["0.0.0.0/32", "::/128"]

namespace Ip

def isPrivate (ip : Ip) : Bool := ip.inAny privateNetworks && !ip.inAny privateNetworksExceptions
def isLoopback (ip : Ip) : Bool := ip.inAny loopbackNetworks
def isLinkLocal (ip : Ip) : Bool := ip.inAny linkLocalNetworks
def isMulticast (ip : Ip) : Bool := ip.inAny multicastNetworks
def isReserved (ip : Ip) : Bool := ip.inAny reservedNetworks
def isUnspecified (ip : Ip) : Bool := ip.inAny unspecifiedNetworks

/-- The embedded address of `ipv4_mapped`, and any other address as it is. -/
def unmap : Ip → Ip
  | .v4 ip => .v4 ip
  | .v6 ip scope => if ip >>> 32 = 0xFFFF then .v4 (ip.setWidth 32) else .v6 ip scope

end Ip

/-! ## An address is a network of its own -/

theorem ipv6NetworkOf_full (ip : BitVec 128) (scope : Option String) :
    (ipv6NetworkOf ip scope ⟨128, Nat.le_refl _⟩).networkAddress = .v6 ip scope := by
  simp only [ipv6NetworkOf, IpNetwork.networkAddress, Cidr.ofPrefix, and_netmask_full, if_true]

/-- **An address is a network of its own.** -/
theorem ipNetwork_of_ipAddress {text : String} {ip : Ip} (h : ipAddress text = some ip) :
    ∃ net, ipNetwork text = some net ∧ net.networkAddress = ip ∧ net.isSingle = true := by
  simp only [ipAddress] at h
  split_ifs at h with hslash
  have hsplit : text.toList.splitOn '/' = [text.toList] :=
    List.splitOnP_eq_singleton fun c hc => by
      rw [beq_eq_false_iff_ne]
      rintro rfl
      exact hslash hc
  simp only [ipNetwork, ipv4Network, ipv6Network, hsplit]
  cases h4 : parseV4 text.toList with
  | some a =>
    rw [h4] at h
    cases h
    exact ⟨_, rfl, congrArg Ip.v4 (and_netmask_full a), rfl⟩
  | none =>
    rw [h4, Option.map_none, Option.none_or, Option.map_eq_some_iff] at h
    obtain ⟨⟨a, scope⟩, hscoped, rfl⟩ := h
    rw [hscoped]
    exact ⟨_, rfl, ipv6NetworkOf_full a scope, rfl⟩

/-! ## Texts -/

/-- The address in four decimal numbers. -/
def textV4 (ip : BitVec 32) : String :=
  ".".intercalate ((List.range 4).map fun i => toString (ip.toNat / 256 ^ (3 - i) % 256))

def hextets (ip : BitVec 128) : List ℕ :=
  (List.range 8).map fun i => ip.toNat / 65536 ^ (7 - i) % 65536

/-- How many zeros stand at the place. -/
def zerosAt (hs : List ℕ) (i : ℕ) : ℕ := ((hs.drop i).takeWhile (· = 0)).length

/-- The first place of the longest run of zeros. -/
def longestZeros (hs : List ℕ) : ℕ :=
  (List.range 8).foldl (fun best i => if zerosAt hs best < zerosAt hs i then i else best) 0

def joinHex (hs : List ℕ) : String :=
  ":".intercalate (hs.map fun h => String.ofList (Nat.toDigits 16 h))

/-- `_compress_hextets`. -/
def compressHextets (hs : List ℕ) : String :=
  let skip := longestZeros hs
  if 1 < zerosAt hs skip then
    joinHex (hs.take skip) ++ "::" ++ joinHex (hs.drop (skip + zerosAt hs skip))
  else joinHex hs

/-- `str(ip)`. -/
def Ip.str : Ip → String
  | .v4 ip => textV4 ip
  | .v6 ip none => compressHextets (hextets ip)
  | .v6 ip (some scope) => compressHextets (hextets ip) ++ "%" ++ scope

def IpNetwork.prefixlen : IpNetwork → ℕ
  | .v4 net => net.prefixLen
  | .v6 net _ => net.prefixLen

/-- `str(net)`. -/
def IpNetwork.str (net : IpNetwork) : String :=
  net.networkAddress.str ++ "/" ++ toString net.prefixlen

example : (ipNetwork "10.20.0.7/16").map IpNetwork.str = some "10.20.0.0/16" := by decide

example : (ipNetwork "FD00:0:0:1:0:0:0:1").map IpNetwork.str = some "fd00:0:0:1::1/128" := by decide

end Ipaddress
