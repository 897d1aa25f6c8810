import Mathlib.Data.Nat.Find

/-!
# Piecewise constant predicates

A predicate on keyed elements that changes at finitely many keys only. It holds on a whole range
if and only if it holds at the least element of the range and at the cut points inside the range.

* `ConstOff`: the predicate changes at these cut points only;
* `ConstOff.not`, `ConstOff.and`, `ConstOff.or`, `constOff_interval`, `ConstOff.shift`: how such
  predicates are built;
* **`forall_range_iff`**: a range is decided at its cut points.
-/

set_option autoImplicit false

namespace Cuts

variable {α : Type*} {key : α → ℕ} {C D : List ℕ} {P Q : α → Prop}

variable (key) in
/-- `P` does not change between two elements with no cut point above the first one and up to the
second. -/
def ConstOff (C : List ℕ) (P : α → Prop) : Prop :=
  ∀ a b, key a ≤ key b → (∀ c ∈ C, c ≤ key a ∨ key b < c) → (P a ↔ P b)

theorem constOff_const (p : Prop) : ConstOff key C fun _ => p := fun _ _ _ _ => Iff.rfl

theorem ConstOff.not (h : ConstOff key C P) : ConstOff key C fun a => ¬ P a :=
  fun a b hab hC => not_congr (h a b hab hC)

theorem ConstOff.and (hP : ConstOff key C P) (hQ : ConstOff key C Q) :
    ConstOff key C fun a => P a ∧ Q a :=
  fun a b hab hC => and_congr (hP a b hab hC) (hQ a b hab hC)

theorem ConstOff.or (hP : ConstOff key C P) (hQ : ConstOff key C Q) :
    ConstOff key C fun a => P a ∨ Q a :=
  fun a b hab hC => or_congr (hP a b hab hC) (hQ a b hab hC)

theorem ConstOff.congr (h : ConstOff key C P) (hPQ : ∀ a, Q a ↔ P a) : ConstOff key C Q :=
  fun a b hab hC => by rw [hPQ, hPQ]; exact h a b hab hC

/-- Membership of one of several sets that have their cut points in `C`. -/
theorem constOff_exists {ι : Type*} {l : List ι} {R : ι → α → Prop}
    (h : ∀ i ∈ l, ConstOff key C (R i)) : ConstOff key C fun a => ∃ i ∈ l, R i a :=
  fun a b hab hC => exists_congr fun i => and_congr_right fun hi => h i hi a b hab hC

theorem constOff_interval {lo hi : ℕ} (hlo : lo ∈ C) (hhi : hi + 1 ∈ C)
    (hP : ∀ a, P a ↔ lo ≤ key a ∧ key a ≤ hi) : ConstOff key C P := by
  intro a b hab hC
  have hl := hC lo hlo
  have hh := hC (hi + 1) hhi
  rw [hP, hP]
  omega

/-- A predicate on another type, read through a map that lowers the keys by `base` on the elements
from `base` on up to `top`; elsewhere another predicate counts. -/
theorem ConstOff.shift {β : Type*} {key' : β → ℕ} {f : β → α} {base top : ℕ} {R : β → Prop}
    (hP : ConstOff key C P) (hR : ConstOff key' D R)
    (hf : ∀ b, base ≤ key' b → key' b ≤ top → key (f b) + base = key' b)
    (hbase : base ∈ D) (htop : top + 1 ∈ D) (hCD : C.map (· + base) ⊆ D) :
    ConstOff key' D fun b => if base ≤ key' b ∧ key' b ≤ top then P (f b) else R b := by
  intro a b hab hD
  have hl := hD base hbase
  have hh := hD (top + 1) htop
  show (if _ then _ else _) ↔ if _ then _ else _
  have hsame : (base ≤ key' a ∧ key' a ≤ top) ↔ (base ≤ key' b ∧ key' b ≤ top) := by omega
  by_cases hb : base ≤ key' b ∧ key' b ≤ top
  · have ha := hsame.mpr hb
    have hfa := hf a ha.1 ha.2
    have hfb := hf b hb.1 hb.2
    rw [if_pos ha, if_pos hb]
    refine hP _ _ (by omega) fun c hc => ?_
    have hcut := hD (c + base) (hCD (List.mem_map_of_mem hc))
    omega
  · rw [if_neg hb, if_neg fun ha => hb (hsame.mp ha)]
    exact hR a b hab hD

/-- **A range is decided at its cut points** and its least element. -/
theorem forall_range_iff (hP : ConstOff key C P) {lo hi : ℕ}
    (hkey : ∀ n, lo ≤ n → n ≤ hi → ∃ a, key a = n) :
    (∀ a, lo ≤ key a → key a ≤ hi → P a) ↔
      ∀ a, lo ≤ key a → key a ≤ hi → key a ∈ lo :: C → P a := by
  refine ⟨fun h a hlo hhi _ => h a hlo hhi, fun h a hlo hhi => ?_⟩
  -- The greatest cut point up to the element stands for it.
  let n := Nat.findGreatest (· ∈ lo :: C) (key a)
  have hn : n ∈ lo :: C := Nat.findGreatest_spec hlo List.mem_cons_self
  have hlon : lo ≤ n := Nat.le_findGreatest hlo List.mem_cons_self
  have hna : n ≤ key a := Nat.findGreatest_le _
  obtain ⟨b, hb⟩ := hkey n hlon (Nat.le_trans hna hhi)
  refine (hP b a (by omega) fun c hc => ?_).mp (h b (by omega) (by omega) (hb ▸ hn))
  by_cases hca : c ≤ key a
  · left
    rw [hb]
    exact Nat.le_findGreatest hca (List.mem_cons_of_mem _ hc)
  · right
    omega

end Cuts
