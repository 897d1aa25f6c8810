import Mathlib.Algebra.Ring.Int.Defs
import Mathlib.Data.List.Basic

/-!
# JSON values

A JSON value as a Python program and a MySQL `JSON` column see it. Numbers are decimal: `num m e`
is `m * 10 ^ (-e)`. An object is a list of members in which the first member of a name counts.

* `Object.get`, `Value.truthy`, `Value.items`: the reads of a Python `dict`, `bool()` and `list()`;
* `Value.eq`, `Object.has`, `Object.update`: Python's `==`, `in` and `{**o, **p}`;
* `Value.Proper`, **`Value.eq_self`**: dictionaries without repeated names equal themselves;
* `mergePatch`: the merge of RFC 7396, which is MySQL's `JSON_MERGE_PATCH`;
* **`get_mergeMembers_of_notMem`**, **`get_mergeMembers_of_mem`**: a merge writes the members of
  the patch and keeps all the others.
-/

set_option autoImplicit false

namespace Json

inductive Value where
  | null
  | bool (b : Bool)
  | num (m : Int) (e : Nat)
  | str (s : String)
  | arr (xs : List Value)
  | obj (ms : List (String × Value))

abbrev Object := List (String × Value)

/-- `o.get(k)`. -/
def Object.get (o : Object) (k : String) : Option Value := o.lookup k

/-- `bool(v)`. -/
def Value.truthy : Value → Bool
  | .null => false
  | .bool b => b
  | .num m _ => m ≠ 0
  | .str s => s ≠ ""
  | .arr xs => !xs.isEmpty
  | .obj ms => !ms.isEmpty

/-- `list(v)`; a number, a Boolean and `None` cannot be iterated over. -/
def Value.items : Value → Option (List Value)
  | .str s => some (s.toList.map fun c => .str (String.singleton c))
  | .arr xs => some xs
  | .obj ms => some (ms.map fun m => .str m.1)
  | .null | .bool _ | .num _ _ => none

def Value.members : Value → Object
  | .obj ms => ms
  | _ => []

/-- `k in o`. -/
def Object.has (o : Object) (k : String) : Bool := (o.get k).isSome

/-- `{**o, **p}`. -/
def Object.update (o p : Object) : Object := p ++ o.filter fun m => !p.has m.1

/-- Write a member, replacing one of the same name. -/
def Object.set (o : Object) (k : String) (v : Value) : Object := (k, v) :: o.filter (·.1 ≠ k)

def Object.erase (o : Object) (k : String) : Object := o.filter (·.1 ≠ k)

@[simp] theorem get_set_self (o : Object) (k : String) (v : Value) :
    (o.set k v).get k = some v := by
  simp [Object.get, Object.set]

theorem get_erase_of_ne (o : Object) {k j : String} (h : j ≠ k) : (o.erase k).get j = o.get j := by
  induction o with
  | nil => rfl
  | cons m o ih =>
    obtain ⟨i, v⟩ := m
    by_cases hik : i = k
    · have hji : (j == i) = false := by simp [hik, h]
      simpa [Object.erase, Object.get, hik, List.lookup_cons, hji, beq_false_of_ne h] using ih
    · by_cases hji : j = i
      · simp [Object.erase, Object.get, hik, hji]
      · simpa [Object.erase, Object.get, hik, List.lookup_cons, beq_false_of_ne hji] using ih

theorem get_set_of_ne (o : Object) {k j : String} (v : Value) (h : j ≠ k) :
    (o.set k v).get j = o.get j := by
  rw [← get_erase_of_ne o h]
  simp [Object.get, Object.set, Object.erase, List.lookup_cons, beq_false_of_ne h]

@[simp] theorem get_erase_self (o : Object) (k : String) : (o.erase k).get k = none := by
  rw [Object.get, Object.erase, List.lookup_eq_none_iff]
  intro m hm
  have hne : m.1 ≠ k := by simpa using (List.mem_filter.mp hm).2
  exact bne_iff_ne.mpr hne.symm

theorem get_update (o p : Object) (k : String) :
    (o.update p).get k = (p.get k).or (o.get k) := by
  unfold Object.update
  rw [Object.get, List.lookup_append]
  cases hp : p.get k with
  | some v => rw [show p.lookup k = some v from hp]; rfl
  | none =>
    rw [show p.lookup k = none from hp]
    induction o with
    | nil => rfl
    | cons m o ih =>
      obtain ⟨j, v⟩ := m
      by_cases hjk : k = j
      · subst hjk
        have hj : p.has k = false := by simp [Object.has, hp]
        simp [hj, Object.get]
      · by_cases hj : p.has j
        · simpa [hj, Object.get, List.lookup_cons, beq_false_of_ne hjk] using ih
        · simpa [hj, Object.get, List.lookup_cons, beq_false_of_ne hjk] using ih

@[simp] theorem has_update {o p : Object} {k : String} :
    (o.update p).has k = (p.has k || o.has k) := by
  simp [Object.has, get_update, Option.isSome_or]

theorem has_set {o : Object} {k j : String} {v : Value} :
    (o.set k v).has j = (decide (j = k) || o.has j) := by
  by_cases hjk : j = k
  · simp [Object.has, hjk]
  · simp [Object.has, hjk, get_set_of_ne o v hjk]

theorem has_erase {o : Object} {k j : String} :
    (o.erase k).has j = (decide (j ≠ k) && o.has j) := by
  by_cases hjk : j = k
  · simp [Object.has, hjk]
  · simp [Object.has, hjk, get_erase_of_ne o hjk]

/-- The members of some names. -/
theorem get_filterMap {ks : List String} {doc : Object} {key : String} (hkey : key ∈ ks) :
    Object.get (ks.filterMap fun k => (doc.get k).map fun v => (k, v)) key = doc.get key := by
  induction ks with
  | nil => cases hkey
  | cons k ks ih =>
    unfold Object.get at ih ⊢
    by_cases hk : key = k
    · subst hk
      cases hget : doc.lookup key with
      | some v => simp [hget]
      | none =>
        rw [List.filterMap_cons_none (by simp [hget])]
        by_cases hmem : key ∈ ks
        · exact (ih hmem).trans hget
        · rw [List.lookup_eq_none_iff]
          intro m hm
          obtain ⟨j, hj, hjm⟩ := List.mem_filterMap.mp hm
          obtain ⟨v, -, rfl⟩ := Option.map_eq_some_iff.mp hjm
          exact bne_iff_ne.mpr fun heq => hmem (heq ▸ hj)
    · have hmem : key ∈ ks := (List.mem_cons.mp hkey).resolve_left hk
      cases hget : doc.lookup k with
      | some v =>
        rw [List.filterMap_cons_some (by rw [hget]; rfl), List.lookup_cons, beq_false_of_ne hk]
        exact ih hmem
      | none =>
        rw [List.filterMap_cons_none (by rw [hget]; rfl)]
        exact ih hmem

/-! ## Equality -/

/-- The value of a number; a Boolean is one. -/
def Value.number : Value → Option (Int × Nat)
  | .bool b => some (if b then 1 else 0, 0)
  | .num m e => some (m, e)
  | _ => none

mutual

/-- `v == w`. -/
def Value.eq : Value → Value → Bool
  | .null, .null => true
  | .str s, .str t => s = t
  | .arr xs, .arr ys => eqItems xs ys
  | .obj ms, .obj ns => ms.length = ns.length && eqMembers ms ns
  | v, w => match v.number, w.number with
    | some (m, e), some (m', e') => m * 10 ^ e' = m' * 10 ^ e
    | _, _ => false

def eqItems : List Value → List Value → Bool
  | [], [] => true
  | v :: vs, w :: ws => v.eq w && eqItems vs ws
  | _, _ => false

/-- The members of a dictionary are in another one. -/
def eqMembers : Object → Object → Bool
  | [], _ => true
  | (k, v) :: ms, ns => (match ns.get k with
    | some w => v.eq w
    | none => false) && eqMembers ms ns

end

@[simp] theorem eq_str_iff {v : Value} {s : String} : v.eq (.str s) = true ↔ v = .str s := by
  cases v <;> simp [Value.eq, Value.number]

mutual

/-- The names of the members of a dictionary are distinct. -/
def Value.Proper : Value → Prop
  | .arr xs => properItems xs
  | .obj ms => (ms.map Prod.fst).Nodup ∧ properMembers ms
  | _ => True

def properItems : List Value → Prop
  | [] => True
  | v :: vs => v.Proper ∧ properItems vs

def properMembers : Object → Prop
  | [] => True
  | (_, v) :: ms => v.Proper ∧ properMembers ms

end

theorem get_of_mem {o : Object} (ho : (o.map Prod.fst).Nodup) {m : String × Value} (hm : m ∈ o) :
    o.get m.1 = some m.2 := by
  induction o with
  | nil => cases hm
  | cons n o ih =>
    rw [List.map_cons, List.nodup_cons] at ho
    rcases List.mem_cons.mp hm with rfl | hm
    · exact List.lookup_cons_self
    · have hne : m.1 ≠ n.1 := fun heq => ho.1 (heq ▸ List.mem_map_of_mem hm)
      unfold Object.get at ih ⊢
      rw [List.lookup_cons, beq_false_of_ne hne]
      exact ih ho.2 hm

mutual

/-- **A value equals itself.** -/
theorem Value.eq_self : ∀ v : Value, v.Proper → v.eq v = true
  | .null, _ => by simp [Value.eq]
  | .bool b, _ => by simp [Value.eq, Value.number]
  | .num m e, _ => by simp [Value.eq, Value.number]
  | .str s, _ => by simp [Value.eq]
  | .arr xs, h => by
    rw [Value.Proper] at h
    rw [Value.eq, eqItems_self xs h]
  | .obj ms, h => by
    rw [Value.Proper] at h
    rw [Value.eq, eqMembers_self ms ms (fun _ hm => get_of_mem h.1 hm) h.2]
    simp

theorem eqItems_self : ∀ vs : List Value, properItems vs → eqItems vs vs = true
  | [], _ => by rw [eqItems]
  | v :: vs, h => by
    rw [properItems] at h
    rw [eqItems, v.eq_self h.1, eqItems_self vs h.2, Bool.and_self]

theorem eqMembers_self : ∀ ms ns : Object, (∀ m ∈ ms, ns.get m.1 = some m.2) →
    properMembers ms → eqMembers ms ns = true
  | [], _, _, _ => by rw [eqMembers]
  | (k, v) :: ms, ns, hget, h => by
    rw [properMembers] at h
    have hk : ns.get k = some v := hget (k, v) List.mem_cons_self
    rw [eqMembers, hk, eqMembers_self ms ns (fun m hm => hget m (List.mem_cons_of_mem _ hm)) h.2]
    simp [v.eq_self h.1]

end

/-! ## Merge patches -/

mutual

/-- RFC 7396. -/
def mergePatch (t : Value) : Value → Value
  | .obj p => .obj (mergeMembers t.members p)
  | p => p

def mergeMembers (t : Object) : Object → Object
  | [] => t
  | (k, .null) :: p => mergeMembers (t.erase k) p
  | (k, v) :: p => mergeMembers (t.set k (mergePatch ((t.get k).getD .null) v)) p

end

/-- **A merge keeps every member that the patch does not name.** -/
theorem get_mergeMembers_of_notMem {p : Object} {k : String} (h : k ∉ p.map Prod.fst)
    (t : Object) : (mergeMembers t p).get k = t.get k := by
  induction p generalizing t with
  | nil => rfl
  | cons m p ih =>
    obtain ⟨j, v⟩ := m
    simp only [List.map_cons, List.mem_cons, not_or] at h
    cases v with
    | null => rw [mergeMembers, ih h.2, get_erase_of_ne t h.1]
    | bool | num | str | arr | obj =>
      rw [mergeMembers, ih h.2, get_set_of_ne t _ h.1]
      simp

/-- **A merge writes every member of the patch**, each named once. -/
theorem get_mergeMembers_of_mem {p : Object} (hp : (p.map Prod.fst).Nodup) {k : String}
    {v : Value} (hv : v ≠ .null) (h : (k, v) ∈ p) (t : Object) :
    ∃ old, (mergeMembers t p).get k = some (mergePatch old v) := by
  induction p generalizing t with
  | nil => simp at h
  | cons m p ih =>
    simp only [List.map_cons, List.nodup_cons] at hp
    rcases List.mem_cons.mp h with rfl | hm
    · refine ⟨(t.get k).getD .null, ?_⟩
      cases v with
      | null => exact absurd rfl hv
      | bool | num | str | arr | obj =>
        rw [mergeMembers, get_mergeMembers_of_notMem hp.1, get_set_self]
        simp
    · obtain ⟨j, w⟩ := m
      cases w <;> exact ih hp.2 hm _

end Json
