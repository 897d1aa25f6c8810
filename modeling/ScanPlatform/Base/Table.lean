import Mathlib.Data.List.Basic
import Mathlib.Logic.Function.Basic

/-!
# Tables

A table has at most one row under each key. `update` is an `UPDATE … WHERE` of the row of one key:
`none` when there is no such row or the condition does not match it. A row may have an owner: along
its origin, which it may not have, or by a link that was made for it.

* `Table.set`, `Table.update`, `Table.updateAll`, `Table.delete`: the writes;
* `Table.eq_or_of_set`, `Table.set_of_fresh`, `Table.exists_set`: the rows when one is inserted;
* `Owner`, `Separate`, **`Separate.existsUnique_iff`**: the two ways to an owner, and when a row has
  exactly one.
-/

set_option autoImplicit false

abbrev Table (K V : Type*) := K → Option V

namespace Table

variable {K V : Type*} [DecidableEq K]

/-- The table with these rows. -/
def ofList (l : List (K × V)) : Table K V := fun k => l.lookup k

/-- Insert the row of a key or replace it. -/
def set (t : Table K V) (k : K) (v : V) : Table K V := Function.update t k (some v)

/-- A conditional update of the row of one key. -/
def update (t : Table K V) (k : K) (f : V → Option V) : Option (Table K V) :=
  (t k).bind fun v => (f v).map (t.set k)

/-- A conditional update of every row. -/
def updateAll (t : Table K V) (f : V → Option V) : Table K V := fun k =>
  (t k).map fun v => (f v).getD v

theorem ofList_singleton {k j : K} {v w : V} : ofList [(k, v)] j = some w ↔ j = k ∧ v = w := by
  by_cases h : j = k
  · simp [ofList, h]
  · simp [ofList, List.lookup_cons, h, beq_false_of_ne h]

@[simp] theorem set_self (t : Table K V) (k : K) (v : V) : t.set k v k = some v :=
  Function.update_self ..

@[simp] theorem set_of_ne (t : Table K V) {k j : K} (v : V) (h : j ≠ k) : t.set k v j = t j :=
  Function.update_of_ne h ..

theorem set_apply (t : Table K V) (k j : K) (v : V) :
    t.set k v j = if j = k then some v else t j :=
  Function.update_apply ..

theorem set_eq_self {t : Table K V} {k : K} {v : V} (h : t k = some v) : t.set k v = t :=
  Function.update_eq_self_iff.mpr h.symm

theorem update_eq_some {t t' : Table K V} {k : K} {f : V → Option V} :
    t.update k f = some t' ↔ ∃ v v', t k = some v ∧ f v = some v' ∧ t' = t.set k v' := by
  simp only [update, Option.bind_eq_some_iff, Option.map_eq_some_iff]
  constructor
  · rintro ⟨v, hv, v', hf, rfl⟩
    exact ⟨v, v', hv, hf, rfl⟩
  · rintro ⟨v, v', hv, hf, rfl⟩
    exact ⟨v, hv, v', hf, rfl⟩

/-- The row of a key after an update of the row of `k`, matched or not. -/
theorem update_getD_apply (t : Table K V) (k j : K) (f : V → Option V) :
    (t.update k f).getD t j = if j = k then (t j).map fun v => (f v).getD v else t j := by
  unfold update
  by_cases hjk : j = k
  · subst hjk
    cases ht : t j with
    | none => simp [ht]
    | some v => cases hf : f v <;> simp [ht, hf]
  · cases ht : t k with
    | none => simp [hjk]
    | some v => cases hf : f v <;> simp [hf, hjk]

end Table

/-! ## Rows that are deleted and inserted -/

namespace Table

variable {K V : Type*} {t : Table K V} {gone : K → V → Bool} {k : K} {v : V}

/-- `DELETE … WHERE`. -/
def delete (t : Table K V) (gone : K → V → Bool) : Table K V := fun k =>
  (t k).filter fun v => !gone k v

theorem delete_eq_some : t.delete gone k = some v ↔ t k = some v ∧ gone k v = false := by
  unfold delete
  rw [Option.filter_eq_some_iff, Bool.not_eq_true']

/-- A row stays unless it is one of those that are deleted. -/
theorem delete_of_stays (h : t k = some v) (hstays : (t k).any (gone k) = false) :
    t.delete gone k = some v := by
  rw [h, Option.any_some] at hstays
  exact delete_eq_some.mpr ⟨h, hstays⟩

variable [DecidableEq K] {j : K} {w : V}

/-- A row after one was inserted or replaced. -/
theorem eq_or_of_set (h : t.set k v j = some w) : w = v ∨ t j = some w := by
  rw [set_apply] at h
  split_ifs at h
  · exact .inl (Option.some.inj h).symm
  · exact .inr h

/-- The other rows stay when one is inserted. -/
theorem set_of_fresh (hnew : t k = none) (h : t j = some w) : t.set k v j = some w := by
  rw [set_of_ne]
  · exact h
  · rintro rfl
    rw [hnew] at h
    cases h

/-- A key that has a row has one after one was inserted or replaced. -/
theorem exists_set (h : t j = some w) : ∃ w', t.set k v j = some w' := by
  rw [set_apply]
  split_ifs
  · exact ⟨v, rfl⟩
  · exact ⟨w, h⟩

end Table

/-! ## Rows with owners -/

namespace Owners

variable {W : Type*} (origin : Option W) (links : W → Prop)

/-- The owner of the row's origin, or one that it is linked to. -/
def Owner (w : W) : Prop := origin = some w ∨ links w

/-- A row that is linked has no origin, and is linked once. -/
structure Separate : Prop where
  exclusive : ∀ w, links w → origin = none
  functional : ∀ w w', links w → links w' → w = w'

variable {origin links}

theorem Separate.unique (h : Separate origin links) {w w' : W} (hw : Owner origin links w)
    (hw' : Owner origin links w') : w = w' := by
  rcases hw with hw | hw <;> rcases hw' with hw' | hw'
  · exact Option.some.inj (hw.symm.trans hw')
  · exact absurd (hw.symm.trans (h.exclusive w' hw')) (Option.some_ne_none w)
  · exact absurd (hw'.symm.trans (h.exclusive w hw)) (Option.some_ne_none w')
  · exact h.functional w w' hw hw'

/-- **A row has exactly one owner** when it has an origin or a link. -/
theorem Separate.existsUnique_iff (h : Separate origin links) :
    (∃! w, Owner origin links w) ↔ origin.isSome ∨ ∃ w, links w := by
  constructor
  · rintro ⟨w, hw | hw, -⟩
    · exact .inl (Option.isSome_iff_exists.mpr ⟨w, hw⟩)
    · exact .inr ⟨w, hw⟩
  · rintro (horigin | ⟨w, hw⟩)
    · obtain ⟨w, hw⟩ := Option.isSome_iff_exists.mp horigin
      exact ⟨w, .inl hw, fun w' hw' => h.unique hw' (.inl hw)⟩
    · exact ⟨w, .inr hw, fun w' hw' => h.unique hw' (.inr hw)⟩

end Owners
