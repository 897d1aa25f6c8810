import Mathlib.Data.List.Sort

/-!
# The newest of a list

A list sorted by a key, and its last elements.

* `sortByKey`, `sortByKey_strict`: the sorted list, and distinct keys in it;
* `mem_drop_iff`: the last `k` of a list in strict order;
* **`mem_newest_iff`**: an element is among the `k` newest when fewer than `k` are newer.
-/

set_option autoImplicit false

namespace Newest

variable {α κ : Type*} [LinearOrder κ] (key : α → κ)

/-- `sorted(l, key=key)`. -/
def sortByKey (l : List α) : List α := l.insertionSort fun a b => key a ≤ key b

/-- The last `k` of the sorted list. -/
def newest (k : ℕ) (l : List α) : List α :=
  (sortByKey key l).drop ((sortByKey key l).length - k)

/-- The others. -/
def older (k : ℕ) (l : List α) : List α :=
  (sortByKey key l).take ((sortByKey key l).length - k)

variable {key} {l : List α} {a : α} {k : ℕ}

theorem sortByKey_perm (l : List α) : (sortByKey key l).Perm l := List.perm_insertionSort _ l

/-- Distinct keys are in strict order. -/
theorem sortByKey_strict (h : (l.map key).Nodup) :
    (sortByKey key l).Pairwise fun a b => key a < key b := by
  have hsorted : (sortByKey key l).Pairwise fun a b => key a ≤ key b := by
    have htotal : Std.Total fun a b : α => key a ≤ key b := ⟨fun a b => le_total (key a) (key b)⟩
    have htrans : IsTrans α fun a b => key a ≤ key b := ⟨fun _ _ _ => le_trans⟩
    exact List.pairwise_insertionSort _ l
  have hne : (sortByKey key l).Pairwise fun a b => key a ≠ key b :=
    List.pairwise_map.mp (((sortByKey_perm l).map key).nodup_iff.mpr h)
  exact hsorted.imp₂ (fun _ _ hle hne => lt_of_le_of_ne hle hne) hne

/-- The last `k` of a list in strict order are those above which fewer than `k` lie. -/
theorem mem_drop_iff (hl : l.Pairwise fun a b => key a < key b) (ha : a ∈ l) :
    a ∈ l.drop (l.length - k) ↔ l.countP (fun b => key a < key b) < k := by
  induction l with
  | nil => cases ha
  | cons b l ih =>
    obtain ⟨hb, hl⟩ := List.pairwise_cons.mp hl
    rcases List.mem_cons.mp ha with rfl | hmem
    · -- everything else lies above the first element
      have hcount : (a :: l).countP (fun b => key a < key b) = l.length := by
        rw [List.countP_cons_of_neg (by simp), List.countP_eq_length]
        exact fun b hmem => decide_eq_true (hb b hmem)
      rw [hcount]
      constructor
      · intro h
        by_contra hle
        obtain ⟨i, hi⟩ : ∃ i, (a :: l).length - k = i + 1 :=
          ⟨l.length - k, by rw [List.length_cons]; omega⟩
        rw [hi, List.drop_succ_cons] at h
        exact absurd (hb a (List.mem_of_mem_drop h)) (lt_irrefl _)
      · intro hlt
        have hzero : (a :: l).length - k = 0 := by rw [List.length_cons]; omega
        rw [hzero]
        exact List.mem_cons_self
    · have hcount : (b :: l).countP (fun c => key a < key c) =
          l.countP fun c => key a < key c :=
        List.countP_cons_of_neg (by simpa using (hb a hmem).le)
      rw [hcount]
      by_cases hk : k ≤ l.length
      · have hlength : (b :: l).length - k = l.length - k + 1 := by rw [List.length_cons]; omega
        rw [hlength, List.drop_succ_cons]
        exact ih hl hmem
      · have hzero : (b :: l).length - k = 0 := by rw [List.length_cons]; omega
        have hle := List.countP_le_length (p := fun c => decide (key a < key c)) (l := l)
        rw [hzero]
        exact iff_of_true ha (by omega)

/-- **Among the newest** are those than which fewer than `k` are newer. -/
theorem mem_newest_iff (h : (l.map key).Nodup) (ha : a ∈ l) :
    a ∈ newest key k l ↔ l.countP (fun b => key a < key b) < k := by
  have hperm : (sortByKey key l).Perm l := sortByKey_perm l
  rw [← hperm.countP_eq]
  exact mem_drop_iff (sortByKey_strict h) (hperm.mem_iff.mpr ha)

/-- What is not among the newest is among the others. -/
theorem mem_older_iff (h : (l.map key).Nodup) (ha : a ∈ l) :
    a ∈ older key k l ↔ ¬ l.countP (fun b => key a < key b) < k := by
  rw [← mem_newest_iff h ha]
  have hsplit : older key k l ++ newest key k l = sortByKey key l := List.take_append_drop _ _
  have hnodup : (sortByKey key l).Nodup := ((sortByKey_perm l).nodup_iff.mpr h.of_map)
  have hmem : a ∈ older key k l ++ newest key k l := by
    rw [hsplit]
    exact (sortByKey_perm l).mem_iff.mpr ha
  rw [← hsplit] at hnodup
  constructor
  · exact fun hold hnew => (List.nodup_append.mp hnodup).2.2 a hold a hnew rfl
  · exact fun hnew => (List.mem_append.mp hmem).resolve_right hnew

end Newest
