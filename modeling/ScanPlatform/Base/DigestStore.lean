import Mathlib.Data.List.Basic
import ScanPlatform.Base.Table

/-!
# Stores of objects and their digests

Objects under keys, the last one put under each, and references, each of which names a key and the
digest of the object that it was made for.

* `Store`, `Store.Matches`: every reference names an object of its digest;
* `Puts`: one object is put, or none, and references to it are added;
* **`Puts.matches_iff`**: when the references match afterwards.
-/

set_option autoImplicit false

namespace DigestStore

variable {K B D : Type*}

structure Store (K B D : Type*) where
  objects : Table K B
  references : List (K × D)

/-- Every reference names an object of its digest. -/
def Store.Matches (digest : B → D) (s : Store K B D) : Prop :=
  ∀ r ∈ s.references, ∃ b, s.objects r.1 = some b ∧ digest b = r.2

variable [DecidableEq K]

/-- An object is put under its key, or none is; what is referred to anew is the object. -/
structure Puts (digest : B → D) (s : Store K B D) (put : Option (K × B)) (s' : Store K B D) :
    Prop where
  objects : s'.objects = put.elim s.objects fun p => s.objects.set p.1 p.2
  references : ∃ new, s'.references = s.references ++ new ∧
    ∀ r ∈ new, ∃ p ∈ put, r = (p.1, digest p.2)

variable {digest : B → D} {s s' : Store K B D} {put : Option (K × B)}

/-- **The references match afterwards** exactly when the object that is put has the digest that each
reference to its key names. -/
theorem Puts.matches_iff (h : Puts digest s put s') (hs : s.Matches digest) :
    s'.Matches digest ↔
      ∀ p ∈ put, ∀ r ∈ s.references, r.1 = p.1 → digest p.2 = r.2 := by
  obtain ⟨new, hreferences, hnew⟩ := h.references
  constructor
  · intro hmatches p hp r hr hkey
    have hr' : r ∈ s'.references := by
      rw [hreferences]
      exact List.mem_append_left _ hr
    obtain ⟨b, hb, hdigest⟩ := hmatches r hr'
    rw [h.objects, Option.mem_def.mp hp, hkey] at hb
    obtain rfl : p.2 = b := Option.some.inj ((Table.set_self s.objects p.1 p.2).symm.trans hb)
    exact hdigest
  · intro hput r hr
    rw [hreferences] at hr
    rw [h.objects]
    rcases List.mem_append.mp hr with hr | hr
    · cases hp : put with
      | none => exact hs r hr
      | some p =>
        by_cases hkey : r.1 = p.1
        · exact ⟨p.2, by rw [hkey]; exact Table.set_self .., hput p hp r hr hkey⟩
        · obtain ⟨b, hb, hdigest⟩ := hs r hr
          exact ⟨b, (Table.set_of_ne _ _ hkey).trans hb, hdigest⟩
    · obtain ⟨p, hp, rfl⟩ := hnew r hr
      rw [Option.mem_def.mp hp]
      exact ⟨p.2, Table.set_self .., rfl⟩

end DigestStore
