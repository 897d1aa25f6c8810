import Mathlib.Data.List.Dedup

/-!
# Dictionaries of sets

A dictionary with a set under each key, which is filled with `d.setdefault(k, set()).add(v)`. A set
is a list without repetitions, in some order.

* `Holds`: the relation that a dictionary holds;
* **`Holds.counts_perm`**, `Holds.count_eq`: two dictionaries of the same relation, up to the names
  of the keys, have sets of the same sizes;
* `add`, **`holds_foldl`**: a dictionary that is filled in a loop.
-/

set_option autoImplicit false

abbrev SetDict (K V : Type*) := List (K × List V)

namespace SetDict

variable {K K' V : Type*}

/-- `{k: len(s) for k, s in d.items()}`. -/
def counts (d : SetDict K V) : List (K × ℕ) := d.map fun e => (e.1, e.2.length)

/-- The sets of the dictionary are those of the values that `R` relates the keys to. -/
structure Holds (d : SetDict K V) (R : K → V → Prop) : Prop where
  keys : (d.map Prod.fst).Nodup
  nodup : ∀ e ∈ d, e.2.Nodup
  nonempty : ∀ e ∈ d, e.2 ≠ []
  sound : ∀ e ∈ d, ∀ v, v ∈ e.2 ↔ R e.1 v
  complete : ∀ k v, R k v → k ∈ d.map Prod.fst

variable {d : SetDict K V} {R : K → V → Prop} {k : K} {v : V}

theorem holds_nil : Holds ([] : SetDict K V) fun _ _ => False :=
  ⟨List.nodup_nil, nofun, nofun, nofun, nofun⟩

theorem Holds.congr {R' : K → V → Prop} (hd : Holds d R) (h : ∀ k v, R k v ↔ R' k v) :
    Holds d R' := by
  have heq : R = R' := funext fun k => funext fun v => propext (h k v)
  rwa [← heq]

/-- **Dictionaries of the same relation have sets of the same sizes**, when the keys of the one name
those of the other. -/
theorem Holds.counts_perm {d' : SetDict K' V} {R' : K' → V → Prop} (hd : Holds d R)
    (hd' : Holds d' R') (f : K → K')
    (hf : ∀ k ∈ d.map Prod.fst, ∀ j ∈ d.map Prod.fst, f k = f j → k = j)
    (hR : ∀ k' v, R' k' v ↔ ∃ k, f k = k' ∧ R k v) :
    (d.counts.map fun e => (f e.1, e.2)).Perm d'.counts := by
  -- entries whose keys correspond have equally large sets
  have hlength : ∀ e ∈ d, ∀ e' ∈ d', e'.1 = f e.1 → e.2.length = e'.2.length := by
    intro e he e' he' hkey
    refine List.Perm.length_eq ?_
    refine (List.perm_ext_iff_of_nodup (hd.nodup e he) (hd'.nodup e' he')).mpr fun v => ?_
    rw [hd.sound e he, hd'.sound e' he', hR, hkey]
    constructor
    · exact fun h => ⟨e.1, rfl, h⟩
    · rintro ⟨k, hk, h⟩
      rwa [hf e.1 (List.mem_map_of_mem he) k (hd.complete k v h) hk.symm]
  have hkeys : ((d.counts.map fun e => (f e.1, e.2)).map Prod.fst).Nodup := by
    have hcomp : (d.counts.map fun e => (f e.1, e.2)).map Prod.fst = (d.map Prod.fst).map f := by
      simp [counts, List.map_map, Function.comp_def]
    rw [hcomp]
    exact hd.keys.map_on hf
  have hkeys' : (d'.counts.map Prod.fst).Nodup := by
    have hcomp : d'.counts.map Prod.fst = d'.map Prod.fst := by
      simp [counts, List.map_map, Function.comp_def]
    rw [hcomp]
    exact hd'.keys
  refine (List.perm_ext_iff_of_nodup hkeys.of_map hkeys'.of_map).mpr fun p => ?_
  simp only [counts, List.map_map, List.mem_map, Function.comp_apply]
  constructor
  · rintro ⟨e, he, rfl⟩
    obtain ⟨v, hv⟩ := List.exists_mem_of_ne_nil _ (hd.nonempty e he)
    have hrel : R' (f e.1) v := (hR _ v).mpr ⟨e.1, rfl, (hd.sound e he v).mp hv⟩
    obtain ⟨e', he', hkey⟩ := List.mem_map.mp (hd'.complete _ v hrel)
    exact ⟨e', he', Prod.ext hkey (hlength e he e' he' hkey).symm⟩
  · rintro ⟨e', he', rfl⟩
    obtain ⟨v, hv⟩ := List.exists_mem_of_ne_nil _ (hd'.nonempty e' he')
    obtain ⟨k, hk, hrel⟩ := (hR _ v).mp ((hd'.sound e' he' v).mp hv)
    obtain ⟨e, he, rfl⟩ := List.mem_map.mp (hd.complete k v hrel)
    exact ⟨e, he, Prod.ext hk (hlength e he e' he' hk.symm)⟩

/-- The size of a set is the number of values of its key. -/
theorem Holds.count_eq [DecidableEq V] (hd : Holds d R) {n : ℕ} (h : (k, n) ∈ d.counts) (l : List V)
    (hl : ∀ v, v ∈ l ↔ R k v) : n = l.dedup.length := by
  obtain ⟨e, he, heq⟩ := List.mem_map.mp h
  cases heq
  refine List.Perm.length_eq ?_
  refine (List.perm_ext_iff_of_nodup (hd.nodup e he) (List.nodup_dedup l)).mpr fun v => ?_
  rw [hd.sound e he, List.mem_dedup, hl]

/-! ## Filling a dictionary -/

variable [DecidableEq K] [DecidableEq V]

/-- `d.setdefault(k, set()).add(v)`. -/
def add (d : SetDict K V) (k : K) (v : V) : SetDict K V :=
  if k ∈ d.map Prod.fst then d.map fun e => if e.1 = k then (k, e.2.insert v) else e
  else d ++ [(k, [v])]

theorem keys_add (d : SetDict K V) (k : K) (v : V) : (d.add k v).map Prod.fst =
    if k ∈ d.map Prod.fst then d.map Prod.fst else d.map Prod.fst ++ [k] := by
  unfold add
  split_ifs with hk
  · rw [List.map_map]
    refine List.map_congr_left fun e _ => ?_
    by_cases he : e.1 = k
    · simp [he]
    · simp [he]
  · simp

/-- The entries are the old ones, but for the entry of the key. -/
theorem Holds.mem_add (hd : Holds d R) {e : K × List V} (he : e ∈ d.add k v) :
    e ∈ d ∧ e.1 ≠ k ∨
      e.1 = k ∧ e.2.Nodup ∧ e.2 ≠ [] ∧ ∀ v', v' ∈ e.2 ↔ R k v' ∨ v' = v := by
  unfold SetDict.add at he
  split_ifs at he with hk
  · obtain ⟨e₀, he₀, rfl⟩ := List.mem_map.mp he
    by_cases hek : e₀.1 = k
    · rw [if_pos hek]
      refine .inr ⟨rfl, (hd.nodup e₀ he₀).insert, ?_, fun v' => ?_⟩
      · exact List.ne_nil_of_mem List.mem_insert_self
      · rw [List.mem_insert_iff, hd.sound e₀ he₀, hek, or_comm]
    · rw [if_neg hek]
      exact .inl ⟨he₀, hek⟩
  · rcases List.mem_append.mp he with he | he
    · exact .inl ⟨he, fun hek => hk (hek ▸ List.mem_map_of_mem he)⟩
    · rw [List.mem_singleton.mp he]
      refine .inr ⟨rfl, List.nodup_singleton _, List.cons_ne_nil _ _, fun v' => ?_⟩
      rw [List.mem_singleton]
      exact ⟨.inr, fun h => h.resolve_left fun hR => hk (hd.complete k v' hR)⟩

/-- One more value. -/
theorem Holds.add (hd : Holds d R) (k : K) (v : V) :
    Holds (d.add k v) fun k' v' => R k' v' ∨ k' = k ∧ v' = v := by
  refine ⟨?_, fun e he => ?_, fun e he => ?_, fun e he v' => ?_, fun k' v' h => ?_⟩
  · rw [keys_add]
    split_ifs with hk
    · exact hd.keys
    · exact List.nodup_append.mpr ⟨hd.keys, List.nodup_singleton _, fun a ha b hb hab =>
        hk (List.mem_singleton.mp hb ▸ hab ▸ ha)⟩
  · rcases hd.mem_add he with ⟨hmem, -⟩ | ⟨-, hnodup, -⟩
    · exact hd.nodup e hmem
    · exact hnodup
  · rcases hd.mem_add he with ⟨hmem, -⟩ | ⟨-, -, hne, -⟩
    · exact hd.nonempty e hmem
    · exact hne
  · rcases hd.mem_add he with ⟨hmem, hek⟩ | ⟨hek, -, -, hiff⟩
    · simp [hd.sound e hmem, hek]
    · simp [hiff, hek]
  · rw [keys_add]
    rcases h with hR | ⟨rfl, -⟩
    · have hmem := hd.complete k' v' hR
      split_ifs
      · exact hmem
      · exact List.mem_append_left _ hmem
    · split_ifs with hk
      · exact hk
      · exact List.mem_append_right _ (List.mem_singleton_self _)

/-- **A dictionary that is filled in a loop** holds what the loop puts in. -/
theorem holds_foldl {A : Type*} (f : A → Option (K × V)) (l : List A) {d : SetDict K V}
    {R : K → V → Prop} (hd : Holds d R) :
    Holds (l.foldl (fun d a => (f a).elim d fun p => d.add p.1 p.2) d)
      fun k v => R k v ∨ ∃ a ∈ l, f a = some (k, v) := by
  induction l generalizing d R with
  | nil => exact hd.congr fun k v => by simp
  | cons a l ih =>
    rw [List.foldl_cons]
    cases hf : f a with
    | none => exact (ih hd).congr fun k v => by simp [hf]
    | some p =>
      refine (ih (hd.add p.1 p.2)).congr fun k v => ?_
      rw [or_assoc]
      refine or_congr_right ?_
      rw [List.exists_mem_cons_iff, hf, Option.some.injEq, Prod.ext_iff]
      exact or_congr_left (and_congr eq_comm eq_comm)

end SetDict
