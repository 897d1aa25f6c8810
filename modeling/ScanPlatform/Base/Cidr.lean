import Mathlib.Algebra.BigOperators.Group.Finset.Basic
import Mathlib.Algebra.Group.Nat.Defs
import Mathlib.Algebra.GroupWithZero.Nat
import Mathlib.Algebra.Order.BigOperators.Group.Finset
import Mathlib.Order.Interval.Finset.Nat

/-!
# Address blocks

A block of addresses of `w` bits is a network address and a prefix length. Its network address has
no host bits, so that the block is the range from it to its broadcast address.

Two blocks are apart, or one of them is part of the other. So the blocks that are part of no wider
one are apart, and they have all the addresses of a list of blocks between them. How many addresses
the list has is then a sum of powers of two.

* `netmask`, `hostmask`, `Cidr.ofPrefix`, `Cidr.contains`, `Cidr.broadcastAddress`;
* `toNat_and_netmask`: what a netmask does to an address;
* **`Cidr.contains_iff`**: a block is a range;
* `Cidr.nested`: blocks that have an address in common;
* `Cidr.outermost`: the widest blocks of a list, each once; `exists_outermost`,
  `outermost_disjoint`;
* **`Cidr.covers_iff`**: a list has every address if and only if the sizes of its widest blocks add
  up to all.
-/

set_option autoImplicit false

variable {w : ℕ}

/-- `ALL_ONES >> prefixlen`. -/
def hostmask (w prefixLen : ℕ) : BitVec w := BitVec.allOnes w >>> prefixLen

/-- `ALL_ONES ^ (ALL_ONES >> prefixlen)`. -/
def netmask (w prefixLen : ℕ) : BitVec w := BitVec.allOnes w ^^^ hostmask w prefixLen

theorem toNat_hostmask {prefixLen : ℕ} (h : prefixLen ≤ w) :
    (hostmask w prefixLen).toNat = 2 ^ (w - prefixLen) - 1 := by
  rw [hostmask, BitVec.toNat_ushiftRight, BitVec.toNat_allOnes, Nat.shiftRight_eq_div_pow]
  have hpow : 2 ^ w = 2 ^ (w - prefixLen) * 2 ^ prefixLen := by
    rw [← Nat.pow_add, Nat.sub_add_cancel h]
  have hp := Nat.two_pow_pos prefixLen
  have hk := Nat.two_pow_pos (w - prefixLen)
  rw [hpow]
  refine Nat.div_eq_of_lt_le ?_ ?_
  · rw [Nat.sub_mul, Nat.one_mul]
    omega
  · rw [Nat.sub_add_cancel hk]
    have := Nat.mul_pos hk hp
    omega

theorem and_netmask (x : BitVec w) {prefixLen : ℕ} (h : prefixLen ≤ w) :
    x &&& netmask w prefixLen = (x >>> (w - prefixLen)) <<< (w - prefixLen) := by
  ext i hi
  by_cases hlow : i < w - prefixLen
  · have hmasked : prefixLen + i < w := by omega
    simp [netmask, hostmask, hlow, hmasked]
  · have hkept : ¬ prefixLen + i < w := by omega
    have hshift : w - prefixLen + (i - (w - prefixLen)) = i := by omega
    simp [netmask, hostmask, hlow, hkept, hshift, hi]

theorem toNat_and_netmask (x : BitVec w) {prefixLen : ℕ} (h : prefixLen ≤ w) :
    (x &&& netmask w prefixLen).toNat =
      x.toNat / 2 ^ (w - prefixLen) * 2 ^ (w - prefixLen) := by
  rw [and_netmask x h, BitVec.toNat_shiftLeft, BitVec.toNat_ushiftRight,
    Nat.shiftRight_eq_div_pow, Nat.shiftLeft_eq]
  exact Nat.mod_eq_of_lt (Nat.lt_of_le_of_lt (Nat.div_mul_le_self _ _) x.isLt)

theorem and_netmask_full (x : BitVec w) : x &&& netmask w w = x := by
  apply BitVec.eq_of_toNat_eq
  rw [toNat_and_netmask x (Nat.le_refl w), Nat.sub_self, Nat.pow_zero, Nat.div_one, Nat.mul_one]

/-! ## Blocks -/

/-- `ip_network` with the network address of its first argument. -/
structure Cidr (w : ℕ) where
  networkAddress : BitVec w
  prefixLen : ℕ
  le : prefixLen ≤ w
  aligned : networkAddress &&& netmask w prefixLen = networkAddress

theorem and_netmask_self (x : BitVec w) (prefixLen : ℕ) :
    x &&& netmask w prefixLen &&& netmask w prefixLen = x &&& netmask w prefixLen := by
  rw [BitVec.and_assoc, BitVec.and_self]

/-- The block of an address, its host bits cleared. -/
def Cidr.ofPrefix (address : BitVec w) (prefixLen : ℕ) (le : prefixLen ≤ w) : Cidr w where
  networkAddress := address &&& netmask w prefixLen
  prefixLen
  le
  aligned := and_netmask_self address prefixLen

namespace Cidr

/-- `x in net`. -/
def contains (net : Cidr w) (x : BitVec w) : Bool :=
  x &&& netmask w net.prefixLen = net.networkAddress

def broadcastAddress (net : Cidr w) : BitVec w := net.networkAddress ||| hostmask w net.prefixLen

theorem toNat_broadcastAddress (net : Cidr w) :
    net.broadcastAddress.toNat =
      net.networkAddress.toNat + (2 ^ (w - net.prefixLen) - 1) := by
  have hdisjoint : net.networkAddress &&& hostmask w net.prefixLen = 0 := by
    rw [← net.aligned, BitVec.and_assoc]
    ext i hi
    simp [netmask]
  rw [broadcastAddress, ← BitVec.add_eq_or_of_and_eq_zero _ _ hdisjoint,
    BitVec.toNat_add_of_and_eq_zero hdisjoint, toNat_hostmask net.le]

/-- **A block is the range** from its network address to its broadcast address. -/
theorem contains_iff (net : Cidr w) (x : BitVec w) :
    net.contains x = true ↔
      net.networkAddress.toNat ≤ x.toNat ∧ x.toNat ≤ net.broadcastAddress.toNat := by
  have hpos := Nat.two_pow_pos (w - net.prefixLen)
  have haligned := toNat_and_netmask net.networkAddress net.le
  rw [net.aligned] at haligned
  rw [contains, decide_eq_true_eq, ← BitVec.toNat_inj, toNat_and_netmask x net.le,
    toNat_broadcastAddress]
  generalize 2 ^ (w - net.prefixLen) = size at hpos haligned ⊢
  constructor
  · intro h
    rw [← h]
    have := Nat.div_mul_le_self x.toNat size
    have := Nat.lt_div_mul_add hpos (a := x.toNat)
    omega
  · rintro ⟨hlo, hhi⟩
    rw [haligned] at hlo hhi ⊢
    congr 1
    exact Nat.div_eq_of_lt_le hlo (by rw [Nat.succ_mul]; omega)

/-- A block of one address. -/
theorem broadcastAddress_of_full (net : Cidr w) (h : net.prefixLen = w) :
    net.broadcastAddress = net.networkAddress := by
  apply BitVec.eq_of_toNat_eq
  rw [toNat_broadcastAddress, h, Nat.sub_self, Nat.pow_zero]
  rfl

end Cidr

/-! ## The union of address blocks -/

namespace Cidr

instance : DecidableEq (Cidr w) := fun a b =>
  decidable_of_iff (a.networkAddress = b.networkAddress ∧ a.prefixLen = b.prefixLen) <| by
    cases a
    cases b
    simp

/-- `num_addresses`. -/
def size (net : Cidr w) : ℕ := 2 ^ (w - net.prefixLen)

theorem contains_networkAddress (net : Cidr w) : net.contains net.networkAddress = true :=
  decide_eq_true net.aligned

/-- A longer netmask keeps what a shorter one keeps. -/
theorem netmask_and_netmask {p q : ℕ} (h : p ≤ q) :
    netmask w q &&& netmask w p = netmask w p := by
  ext i hi
  by_cases hp : p + i < w
  · simp [netmask, hostmask, hp]
  · have hq : ¬ q + i < w := by omega
    simp [netmask, hostmask, hp, hq]

/-- **Blocks are nested**: of two with an address in common the wider one has all of the other. -/
theorem nested {a b : Cidr w} (hle : a.prefixLen ≤ b.prefixLen) {x : BitVec w}
    (ha : a.contains x = true) (hb : b.contains x = true) {y : BitVec w}
    (hy : b.contains y = true) : a.contains y = true := by
  have ha := of_decide_eq_true ha
  have hb := of_decide_eq_true hb
  have hy := of_decide_eq_true hy
  refine decide_eq_true ?_
  have hmask : ∀ z : BitVec w, z &&& netmask w a.prefixLen =
      z &&& netmask w b.prefixLen &&& netmask w a.prefixLen := fun z => by
    rw [BitVec.and_assoc, netmask_and_netmask hle]
  rw [hmask y, hy, ← hb, ← hmask x, ha]

/-- The addresses of a block, as numbers. -/
def range (net : Cidr w) : Finset ℕ :=
  Finset.Ico net.networkAddress.toNat (net.networkAddress.toNat + net.size)

theorem mem_range {net : Cidr w} {x : BitVec w} :
    x.toNat ∈ net.range ↔ net.contains x = true := by
  have hpos := Nat.two_pow_pos (w - net.prefixLen)
  rw [range, Finset.mem_Ico, contains_iff, toNat_broadcastAddress, size]
  omega

theorem card_range (net : Cidr w) : net.range.card = net.size := by
  rw [range, Nat.card_Ico, Nat.add_sub_cancel_left]

theorem lt_of_mem_range {net : Cidr w} {n : ℕ} (h : n ∈ net.range) : n < 2 ^ w := by
  have hlast := net.broadcastAddress.isLt
  have hpos := Nat.two_pow_pos (w - net.prefixLen)
  rw [toNat_broadcastAddress] at hlast
  rw [range, Finset.mem_Ico, size] at h
  omega

/-! ## The widest blocks -/

/-- The block is part of a wider one. -/
def inWider (nets : List (Cidr w)) (net : Cidr w) : Bool :=
  nets.any fun m => m.prefixLen < net.prefixLen && m.contains net.networkAddress

/-- The blocks that are part of no wider one, each once. -/
def outermost (nets : List (Cidr w)) : List (Cidr w) := nets.dedup.filter (!inWider nets ·)

theorem mem_outermost {nets : List (Cidr w)} {net : Cidr w} :
    net ∈ outermost nets ↔ net ∈ nets ∧
      ∀ m ∈ nets, m.prefixLen < net.prefixLen → m.contains net.networkAddress = false := by
  simp [outermost, inWider]

theorem nodup_outermost (nets : List (Cidr w)) : (outermost nets).Nodup :=
  nets.nodup_dedup.filter _

/-- An address of a block is one of a widest block. -/
theorem exists_outermost {nets : List (Cidr w)} {net : Cidr w} (hnet : net ∈ nets) {x : BitVec w}
    (hx : net.contains x = true) : ∃ m ∈ outermost nets, m.contains x = true := by
  induction hlen : net.prefixLen using Nat.strong_induction_on generalizing net with
  | _ n ih =>
    by_cases hwider : ∃ m ∈ nets, m.prefixLen < net.prefixLen ∧
        m.contains net.networkAddress = true
    · obtain ⟨m, hm, hlt, hcontains⟩ := hwider
      have hmx := nested hlt.le hcontains (contains_networkAddress net) hx
      exact ih m.prefixLen (hlen ▸ hlt) hm hmx rfl
    · refine ⟨net, mem_outermost.mpr ⟨hnet, fun m hm hlt => ?_⟩, hx⟩
      exact Bool.eq_false_iff.mpr fun h => hwider ⟨m, hm, hlt, h⟩

theorem outermost_disjoint {nets : List (Cidr w)} {a b : Cidr w} (ha : a ∈ outermost nets)
    (hb : b ∈ outermost nets) (hne : a ≠ b) {x : BitVec w} (hax : a.contains x = true) :
    b.contains x = false := by
  by_contra hbx
  rw [Bool.not_eq_false] at hbx
  have hwide : ∀ {c d : Cidr w}, c ∈ nets → d ∈ outermost nets → c.contains x = true →
      d.contains x = true → ¬ c.prefixLen < d.prefixLen := fun hc hd hcx hdx hlt => by
    have hin := nested hlt.le hcx hdx (contains_networkAddress _)
    rw [(mem_outermost.mp hd).2 _ hc hlt] at hin
    cases hin
  have hlen : a.prefixLen = b.prefixLen := by
    have hab := hwide (mem_outermost.mp ha).1 hb hax hbx
    have hba := hwide (mem_outermost.mp hb).1 ha hbx hax
    omega
  have haddress : a.networkAddress = b.networkAddress := by
    rw [← of_decide_eq_true hax, ← of_decide_eq_true hbx, hlen]
  cases a
  cases b
  cases haddress
  cases hlen
  exact hne rfl

/-! ## How many addresses there are -/

/-- The sizes of the widest blocks, added up. -/
def addressCount (nets : List (Cidr w)) : ℕ := ((outermost nets).map size).sum

theorem addressCount_nil : addressCount ([] : List (Cidr w)) = 0 := rfl

/-- A block alone has not every address, unless its prefix is empty. -/
theorem addressCount_singleton_ne {net : Cidr w} (h : net.prefixLen ≠ 0) :
    addressCount [net] ≠ 2 ^ w := by
  have hwidest : outermost [net] = [net] := by simp [outermost, inWider]
  have hlt : w - net.prefixLen < w := by
    have := net.le
    omega
  simp only [addressCount, hwidest, List.map_cons, List.map_nil, List.sum_cons, List.sum_nil, size,
    Nat.add_zero]
  exact (Nat.pow_lt_pow_right Nat.one_lt_two hlt).ne

/-- The addresses of the blocks, as numbers. -/
def addresses (nets : List (Cidr w)) : Finset ℕ := (outermost nets).toFinset.biUnion range

theorem mem_addresses {nets : List (Cidr w)} {x : BitVec w} :
    x.toNat ∈ addresses nets ↔ ∃ net ∈ nets, net.contains x = true := by
  simp only [addresses, Finset.mem_biUnion, List.mem_toFinset, mem_range]
  constructor
  · rintro ⟨net, hnet, hx⟩
    exact ⟨net, (mem_outermost.mp hnet).1, hx⟩
  · rintro ⟨net, hnet, hx⟩
    exact exists_outermost hnet hx

theorem addresses_subset (nets : List (Cidr w)) : addresses nets ⊆ Finset.range (2 ^ w) := by
  intro n hn
  obtain ⟨net, -, hmem⟩ := Finset.mem_biUnion.mp hn
  exact Finset.mem_range.mpr (lt_of_mem_range hmem)

theorem card_addresses (nets : List (Cidr w)) : (addresses nets).card = addressCount nets := by
  have hdisjoint : ∀ a ∈ (outermost nets).toFinset, ∀ b ∈ (outermost nets).toFinset, a ≠ b →
      Disjoint a.range b.range := by
    intro a ha b hb hne
    rw [Finset.disjoint_left]
    intro n hna hnb
    -- A number below `2 ^ w` is that of an address.
    have hn : (BitVec.ofNat w n).toNat = n := by
      rw [BitVec.toNat_ofNat, Nat.mod_eq_of_lt (lt_of_mem_range hna)]
    rw [← hn, mem_range] at hna hnb
    rw [outermost_disjoint (List.mem_toFinset.mp ha) (List.mem_toFinset.mp hb) hne hna] at hnb
    cases hnb
  rw [addresses, Finset.card_biUnion hdisjoint, addressCount,
    ← List.sum_toFinset _ (nodup_outermost nets)]
  exact Finset.sum_congr rfl fun net _ => card_range net

/-- **A list of blocks has every address** if and only if its widest blocks have `2 ^ w` addresses
together. -/
theorem covers_iff (nets : List (Cidr w)) :
    (∀ x, ∃ net ∈ nets, net.contains x = true) ↔ addressCount nets = 2 ^ w := by
  rw [← card_addresses]
  constructor
  · intro hall
    have hfull : addresses nets = Finset.range (2 ^ w) := by
      refine Finset.Subset.antisymm (addresses_subset nets) fun n hn => ?_
      have hmod : (BitVec.ofNat w n).toNat = n := by
        rw [BitVec.toNat_ofNat, Nat.mod_eq_of_lt (Finset.mem_range.mp hn)]
      exact hmod ▸ mem_addresses.mpr (hall (BitVec.ofNat w n))
    rw [hfull, Finset.card_range]
  · intro hcard x
    have hfull : addresses nets = Finset.range (2 ^ w) :=
      Finset.eq_of_subset_of_card_le (addresses_subset nets) (by rw [hcard, Finset.card_range])
    exact mem_addresses.mp (hfull ▸ Finset.mem_range.mpr x.isLt)

end Cidr
