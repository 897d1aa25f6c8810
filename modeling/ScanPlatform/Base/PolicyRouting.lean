import Mathlib.Data.List.MinMax
import ScanPlatform.Base.Cidr

/-!
# Policy routing

Routing tables are looked up by the longest prefix. The rules of a policy are tried in ascending
priority and say which table a packet is looked up in. A lookup without a route falls through to the
next rule, and so does one that finds a prefix which the rule suppresses.

* `lookup`, `specific`: tables, with and without their default routes;
* `Rule`, `Policy`, `Policy.route`: rules, and the way of a packet;
* `addRule`, `replaceDefault`, `replaceDefault_idem`: what changes a policy;
* `Rule.lookup_of_selects`, `Rule.lookup_suppressed`, `route_cons`: one rule after the other.
-/

set_option autoImplicit false

namespace PolicyRouting

/-- A route to a block of addresses; `hop` is where it leads. -/
structure Route (w : ℕ) (H : Type*) where
  dst : Cidr w
  hop : H

variable {w : ℕ} {H : Type*}

/-! ## Tables -/

/-- The route with the longest prefix, and the first one of those. -/
def lookup (table : List (Route w H)) (address : BitVec w) : Option (Route w H) :=
  (table.filter (·.dst.contains address)).argmax (·.dst.prefixLen)

/-- The same, unless it is a default route. -/
def specific (table : List (Route w H)) (address : BitVec w) : Option (Route w H) :=
  (lookup table address).filter fun r => 0 < r.dst.prefixLen

theorem lookup_of_specific {table : List (Route w H)} {address : BitVec w} {r : Route w H}
    (h : specific table address = some r) : lookup table address = some r :=
  (Option.filter_eq_some_iff.mp h).1

/-- The block of all addresses. -/
def everything (w : ℕ) : Cidr w := .ofPrefix 0 0 (Nat.zero_le w)

theorem everything_contains (address : BitVec w) : (everything w).contains address = true := by
  simp [everything, Cidr.contains, Cidr.ofPrefix, netmask, hostmask]

/-- The default route is set or replaced. -/
def replaceDefault (hop : H) (table : List (Route w H)) : List (Route w H) :=
  table.filter (0 < ·.dst.prefixLen) ++ [⟨everything w, hop⟩]

theorem replaceDefault_idem (hop : H) (table : List (Route w H)) :
    replaceDefault hop (replaceDefault hop table) = replaceDefault hop table := by
  have hdefault : (everything w).prefixLen = 0 := rfl
  simp [replaceDefault, List.filter_append, hdefault]

/-- A table that has nothing but a default route. -/
theorem lookup_replaceDefault_nil (hop : H) (address : BitVec w) :
    lookup (replaceDefault hop []) address = some ⟨everything w, hop⟩ := by
  simp [lookup, replaceDefault, everything_contains]

/-! ## Rules -/

structure Packet (w : ℕ) where
  dst : BitVec w
  mark : BitVec 32

/-- The selector is `from all`, with `fwmark` where a mark is given. -/
structure Rule where
  priority : ℕ
  /-- `not`. -/
  invert : Bool
  fwmark : Option (BitVec 32)
  table : ℕ
  suppressPrefixLength : Option ℕ
  deriving DecidableEq

/-- The mark zero has no mask, so that every packet matches it. -/
def Rule.selects (r : Rule) (p : Packet w) : Bool :=
  (r.fwmark.all fun mark => mark = 0 ∨ p.mark = mark) != r.invert

/-- The table and the route that a rule finds. -/
def Rule.lookup (tables : ℕ → List (Route w H)) (r : Rule) (p : Packet w) :
    Option (ℕ × Route w H) :=
  if r.selects p then
    ((PolicyRouting.lookup (tables r.table) p.dst).filter fun route =>
      r.suppressPrefixLength.all (· < route.dst.prefixLen)).map fun route => (r.table, route)
  else none

theorem Rule.lookup_of_selects {tables : ℕ → List (Route w H)} {r : Rule} {p : Packet w}
    (h : r.selects p = true) (hall : r.suppressPrefixLength = none) :
    r.lookup tables p =
      (PolicyRouting.lookup (tables r.table) p.dst).map fun route => (r.table, route) := by
  rw [Rule.lookup, if_pos h, hall]
  cases PolicyRouting.lookup (tables r.table) p.dst with
  | none => rfl
  | some route => rfl

/-- A rule that suppresses default routes. -/
theorem Rule.lookup_suppressed {tables : ℕ → List (Route w H)} {r : Rule} {p : Packet w}
    (h : r.selects p = true) (hzero : r.suppressPrefixLength = some 0) :
    r.lookup tables p = (specific (tables r.table) p.dst).map fun route => (r.table, route) := by
  rw [Rule.lookup, if_pos h, hzero]
  rfl

/-! ## Policies -/

/-- The rules in the order in which they are tried, and the tables under their numbers. -/
structure Policy (w : ℕ) (H : Type*) where
  rules : List Rule
  tables : ℕ → List (Route w H)

/-- The way of a packet: the first rule that finds a route decides. -/
def Policy.route (s : Policy w H) (p : Packet w) : Option (ℕ × Route w H) :=
  s.rules.findSome? fun r => r.lookup s.tables p

/-- A rule comes behind those of its priority. -/
def addRule (r : Rule) (rules : List Rule) : List Rule :=
  rules.takeWhile (·.priority ≤ r.priority) ++ r :: rules.dropWhile (·.priority ≤ r.priority)

theorem route_cons (r : Rule) (rules : List Rule) (tables : ℕ → List (Route w H)) (p : Packet w) :
    Policy.route ⟨r :: rules, tables⟩ p =
      (r.lookup tables p).or (Policy.route ⟨rules, tables⟩ p) := by
  simp only [Policy.route, List.findSome?_cons]
  cases r.lookup tables p with
  | none => rfl
  | some found => rfl

end PolicyRouting
