import Mathlib.Algebra.BigOperators.Group.Finset.Basic
import Mathlib.Algebra.Ring.Nat
import Mathlib.Data.List.MinMax
import Mathlib.Data.List.Sort

/-!
# Grouping

* `groupBy`: the rows of a list in buckets by a key, in the order in which the keys first occur;
* `firstKeys`, `members`, `groupBy_eq`: the keys in that order, and the rows of each;
* `perm_sort_groupBy`: what is made of each bucket, in any order;
* `keepFirst`, **`foldl_keepFirst`**: the first row of each key, as a loop with a set of seen keys
  keeps them;
* `prod_groupBy`: a product over the buckets is one over the keys;
* `argmax_le`, `argmax_of_const`, `max?_mono`: the greatest of more values, and of equal ones.
-/

set_option autoImplicit false

namespace Grouping

variable {A K : Type*} [DecidableEq K]

/-- `buckets.setdefault(key(a), []).append(a)`. -/
def add (key : A → K) (buckets : List (K × List A)) (a : A) : List (K × List A) :=
  if buckets.any fun b => b.1 = key a then
    buckets.map fun b => if b.1 = key a then (b.1, b.2 ++ [a]) else b
  else buckets ++ [(key a, [a])]

def groupBy (key : A → K) (l : List A) : List (K × List A) := l.foldl (add key) []

/-- The keys in the order in which they first occur. -/
def firstKeys (key : A → K) (l : List A) : List K := (l.map key).eraseDups

/-- The rows with this key. -/
def members (key : A → K) (l : List A) (k : K) : List A := l.filter fun a => key a = k

variable {key : A → K} {l : List A} {a : A} {k : K}

theorem members_append (l₁ l₂ : List A) :
    members key (l₁ ++ l₂) k = members key l₁ k ++ members key l₂ k :=
  List.filter_append ..

@[simp] theorem members_singleton_self : members key [a] (key a) = [a] := by simp [members]

theorem members_singleton_of_ne (h : k ≠ key a) : members key [a] k = [] := by
  simp [members, h.symm]

theorem members_eq_nil : members key l k = [] ↔ k ∉ l.map key := by
  simp [members, List.filter_eq_nil_iff]

theorem members_ne_nil : members key l k ≠ [] ↔ k ∈ l.map key := by
  rw [ne_eq, members_eq_nil, not_not]

theorem firstKeys_concat (key : A → K) (l : List A) (a : A) : firstKeys key (l ++ [a]) =
    if key a ∈ l.map key then firstKeys key l else firstKeys key l ++ [key a] := by
  unfold firstKeys
  rw [List.map_append, List.eraseDups_append]
  by_cases ha : key a ∈ l.map key
  · rw [if_pos ha]
    simp [List.removeAll, List.mem_map.mp ha]
  · rw [if_neg ha]
    have hnew : [key a].removeAll (l.map key) = [key a] := by simpa [List.removeAll] using ha
    rw [List.map_singleton, hnew]
    rfl

theorem firstKeys_spec (key : A → K) (l : List A) :
    (firstKeys key l).Nodup ∧ ∀ k, k ∈ firstKeys key l ↔ k ∈ l.map key := by
  induction l using List.reverseRecOn with
  | nil => simp [firstKeys]
  | append_singleton l a ih =>
    obtain ⟨hnodup, hmem⟩ := ih
    rw [firstKeys_concat]
    by_cases ha : key a ∈ l.map key
    · rw [if_pos ha]
      refine ⟨hnodup, fun k => ?_⟩
      rw [hmem, List.map_append, List.mem_append, List.map_singleton, List.mem_singleton]
      constructor
      · exact .inl
      · rintro (hk | rfl)
        · exact hk
        · exact ha
    · rw [if_neg ha]
      refine ⟨List.nodup_append.mpr ⟨hnodup, List.nodup_singleton _, ?_⟩, fun k => ?_⟩
      · intro k hk k' hk' heq
        rw [List.mem_singleton.mp hk'] at heq
        exact ha (heq ▸ (hmem k).mp hk)
      · rw [List.map_append, List.mem_append, List.mem_append, hmem, List.map_singleton]

theorem firstKeys_perm (key : A → K) (l : List A) : (firstKeys key l).Perm (l.map key).dedup := by
  obtain ⟨hnodup, hmem⟩ := firstKeys_spec key l
  refine (List.perm_ext_iff_of_nodup hnodup (List.nodup_dedup _)).mpr fun k => ?_
  rw [hmem, List.mem_dedup]

/-- **The buckets are the rows of each key.** -/
theorem groupBy_eq (key : A → K) (l : List A) :
    groupBy key l = (firstKeys key l).map fun k => (k, members key l k) := by
  induction l using List.reverseRecOn with
  | nil => rfl
  | append_singleton l a ih =>
    have hstep : groupBy key (l ++ [a]) = add key (groupBy key l) a := by simp [groupBy]
    have hany : ((groupBy key l).any fun b => b.1 = key a) = decide (key a ∈ l.map key) := by
      rw [ih, List.any_map, Bool.eq_iff_iff, List.any_eq_true, decide_eq_true_iff,
        ← (firstKeys_spec key l).2]
      simp
    rw [hstep, firstKeys_concat]
    unfold add
    rw [hany]
    by_cases ha : key a ∈ l.map key
    · rw [if_pos (by simpa using ha), if_pos ha, ih, List.map_map]
      refine List.map_congr_left fun k _ => ?_
      rw [members_append]
      by_cases hk : k = key a
      · subst hk
        simp
      · simp [hk, members_singleton_of_ne hk]
    · rw [if_neg (by simpa using ha), if_neg ha, ih, List.map_append]
      congr 1
      · refine List.map_congr_left fun k hk => ?_
        have hne : k ≠ key a := fun heq => ha (heq ▸ ((firstKeys_spec key l).2 k).mp hk)
        rw [members_append, members_singleton_of_ne hne, List.append_nil]
      · rw [List.map_singleton, members_append, members_singleton_self, members_eq_nil.mpr ha]
        rfl

theorem mem_map_firstKeys {B : Type*} {f : K → B} {b : B} :
    b ∈ (firstKeys key l).map f ↔ ∃ a ∈ l, b = f (key a) := by
  constructor
  · intro hb
    obtain ⟨k, hk, rfl⟩ := List.mem_map.mp hb
    obtain ⟨a, ha, rfl⟩ := List.mem_map.mp (((firstKeys_spec key l).2 k).mp hk)
    exact ⟨a, ha, rfl⟩
  · rintro ⟨a, ha, rfl⟩
    exact List.mem_map_of_mem (((firstKeys_spec key l).2 _).mpr (List.mem_map_of_mem ha))

/-- **Entries made of the buckets** and then sorted: one for each key. -/
theorem perm_sort_groupBy {B : Type*} (key : A → K) (l : List A) (entry : K → List A → B)
    (r : B → B → Prop) [DecidableRel r] :
    (((groupBy key l).map fun b => entry b.1 b.2).insertionSort r).Perm
      ((firstKeys key l).map fun k => entry k (members key l k)) := by
  have hsort := List.perm_insertionSort r ((groupBy key l).map fun b => entry b.1 b.2)
  rwa [groupBy_eq, List.map_map] at hsort ⊢

/-- The buckets hold all the rows. -/
theorem sum_length_members (key : A → K) (l : List A) :
    ((firstKeys key l).map fun k => (members key l k).length).sum = l.length := by
  have hcount : ∀ k, (members key l k).length = (l.map key).count k := by
    intro k
    rw [List.count_eq_countP, List.countP_map, List.countP_eq_length_filter]
    rfl
  simp only [hcount]
  rw [((firstKeys_perm key l).map _).sum_eq, List.sum_map_count_dedup_eq_length, List.length_map]

/-- The keys of some of the rows are those with such a row among their own. -/
theorem length_dedup_filter (key : A → K) (l : List A) (p : A → Prop) [DecidablePred p] :
    ((l.filter fun a => p a).map key).dedup.length =
      (l.map key).dedup.countP fun k => ∃ a ∈ members key l k, p a := by
  rw [List.countP_eq_length_filter]
  refine ((List.perm_ext_iff_of_nodup (List.nodup_dedup _)
    ((List.nodup_dedup _).filter _)).mpr fun k => ?_).length_eq
  rw [List.mem_dedup, List.mem_filter, List.mem_dedup, decide_eq_true_iff]
  constructor
  · intro hk
    obtain ⟨a, ha, rfl⟩ := List.mem_map.mp hk
    have hp : p a := by simpa using List.of_mem_filter ha
    have hal : a ∈ l := List.mem_of_mem_filter ha
    exact ⟨List.mem_map_of_mem hal, a, List.mem_filter.mpr ⟨hal, by simp⟩, hp⟩
  · rintro ⟨-, a, ha, hp⟩
    have hk : key a = k := by simpa using List.of_mem_filter ha
    rw [← hk]
    exact List.mem_map_of_mem (List.mem_filter.mpr ⟨List.mem_of_mem_filter ha, by simpa using hp⟩)

/-- A product over the buckets. -/
theorem prod_groupBy {M : Type*} [CommMonoid M] (key : A → K) (l : List A) (f : K × List A → M) :
    ((groupBy key l).map f).prod = ∏ k ∈ (l.map key).toFinset, f (k, members key l k) := by
  obtain ⟨hnodup, hmem⟩ := firstKeys_spec key l
  have hkeys : (l.map key).toFinset = (firstKeys key l).toFinset := by
    ext k
    rw [List.mem_toFinset, List.mem_toFinset, hmem]
  rw [groupBy_eq, List.map_map, hkeys, List.prod_toFinset _ hnodup]
  rfl

section

variable {B : Type*} [LinearOrder B] {f : A → B} {l' : List A} {m m' : A}

/-- The greatest of more rows is at least as great. -/
theorem argmax_le (hsub : l ⊆ l') (hm : m ∈ l.argmax f) (hm' : m' ∈ l'.argmax f) : f m ≤ f m' :=
  List.le_of_mem_argmax (hsub (List.argmax_mem hm)) hm'

theorem exists_mem_argmax (f : A → B) (h : l ≠ []) : ∃ m, m ∈ l.argmax f :=
  Option.ne_none_iff_exists'.mp (by rwa [ne_eq, List.argmax_eq_none])

/-- Where all rows are equal, the first is taken. -/
theorem argmax_of_const {b : B} (h : ∀ a ∈ l, f a = b) : l.argmax f = l.head? := by
  classical
  cases l with
  | nil => rfl
  | cons a l =>
    refine List.mem_argmax_iff.mpr ⟨List.mem_cons_self, fun c hc => ?_, fun c _ _ => ?_⟩
    · rw [h c hc, h a List.mem_cons_self]
    · rw [List.idxOf_cons_self]
      exact Nat.zero_le _

theorem max?_mono {l l' : List B} {b b' : B} (hsub : l ⊆ l') (hb : l.max? = some b)
    (hb' : l'.max? = some b') : b ≤ b' :=
  (List.max?_eq_some_iff.mp hb').2 b (hsub (List.max?_eq_some_iff.mp hb).1)

end

/-! ## The first row of each key -/

/-- The rows whose keys have not occurred before. -/
def keepFirst {A K : Type*} [DecidableEq K] (key : A → K) : List A → List A
  | [] => []
  | a :: l => a :: (keepFirst key l).filter fun b => key b ≠ key a

/-- **A loop that skips the keys it has seen** keeps the first row of each. -/
theorem foldl_keepFirst {A K : Type*} [DecidableEq K] (key : A → K) (l kept : List A) :
    l.foldl (fun kept a => if key a ∈ kept.map key then kept else kept ++ [a]) kept =
      kept ++ (keepFirst key l).filter fun a => key a ∉ kept.map key := by
  induction l generalizing kept with
  | nil => simp [keepFirst]
  | cons a l ih =>
    rw [List.foldl_cons, ih, keepFirst, List.filter_cons]
    by_cases ha : key a ∈ kept.map key
    · have hfilter : ((keepFirst key l).filter fun b => key b ≠ key a).filter
          (fun b => key b ∉ kept.map key) =
            (keepFirst key l).filter fun b => key b ∉ kept.map key := by
        rw [List.filter_filter]
        refine List.filter_congr fun b _ => ?_
        by_cases hb : key b = key a
        · simp [hb, ha]
        · simp [hb]
      rw [if_pos ha, if_neg (by simpa using ha), hfilter]
    · have hfilter : ((keepFirst key l).filter fun b => key b ≠ key a).filter
          (fun b => key b ∉ kept.map key) =
            (keepFirst key l).filter fun b => key b ∉ (kept ++ [a]).map key := by
        rw [List.filter_filter]
        refine List.filter_congr fun b _ => ?_
        simp only [List.map_append, List.map_singleton, List.mem_append, List.mem_singleton, not_or,
          Bool.decide_and]
      rw [if_neg ha, if_pos (by simpa using ha), hfilter, List.append_assoc]
      rfl

end Grouping
