import Mathlib.Data.List.Induction
import Mathlib.Data.List.Perm.Basic
import ScanPlatform.Base.Rows

/-!
# Inherited statuses

Entries under keys, each with a status. An entry that is stored for the first time takes over the
status of its ancestor, the only entry that its search finds, when that status is sticky.

* `Rules`, `Rules.Lawful`: what finds what, and what becomes of a status;
* `Rules.initial`, `Rules.store`, `Rules.storeAll`, `status`: how entries are stored;
* `settled`, **`initial_settled`**, **`storeAll_eq_settled`**: what a list of keys comes to when
  each gets the status that it would get if it were stored first;
* `Torn`, **`order_independent_iff`**: when the order of the keys does not matter.
-/

set_option autoImplicit false

namespace Inheritance

structure Rules (K St : Type) where
  /-- The search of the first key finds the second. -/
  finds : K → K → Bool
  /-- The search of the first key fails because of the second. -/
  spoils : K → K → Bool
  sticky : St → Bool
  /-- The status of a new entry that inherits nothing. -/
  fresh : St
  /-- The status of an entry that is stored again. -/
  again : St → St

structure Rules.Lawful {K St : Type} (r : Rules K St) : Prop where
  trans : ∀ k k' k'', r.finds k k' → r.finds k' k'' → r.finds k k''
  fresh : r.sticky r.fresh = false
  again : ∀ st, r.sticky (r.again st) = r.sticky st
  kept : ∀ st, r.sticky st → r.again st = st

variable {K St : Type}

/-! ## The first status -/

/-- The status of an entry that is stored for the first time. -/
def Rules.initial (r : Rules K St) (k : K) (rows : List (K × St)) : St :=
  if rows.any (r.spoils k ·.1) then r.fresh
  else match rows.filter (r.finds k ·.1) with
  | [ancestor] => if r.sticky ancestor.2 then ancestor.2 else r.fresh
  | _ => r.fresh

variable {r : Rules K St} {rows : List (K × St)} {k : K} {a : K × St}

theorem initial_of_found (hclean : rows.any (r.spoils k ·.1) = false)
    (h : rows.filter (r.finds k ·.1) = [a]) :
    r.initial k rows = if r.sticky a.2 then a.2 else r.fresh := by
  unfold Rules.initial
  rw [hclean, h]
  rfl

/-- A status that is not that of a new entry is inherited. -/
theorem inherits_of_ne (h : r.initial k rows ≠ r.fresh) : rows.any (r.spoils k ·.1) = false ∧
    ∃ a, rows.filter (r.finds k ·.1) = [a] ∧ r.sticky a.2 = true := by
  unfold Rules.initial at h
  split_ifs at h with hspoiled
  · exact absurd rfl h
  · refine ⟨eq_false_of_ne_true hspoiled, ?_⟩
    split at h
    · next ancestor heq =>
      refine ⟨ancestor, heq, ?_⟩
      by_contra hsticky
      exact h (if_neg hsticky)
    · exact absurd rfl h

/-- What has a sticky status from the beginning has found an ancestor. -/
theorem exists_found (hr : r.Lawful) (h : r.sticky (r.initial k rows) = true) :
    ∃ e ∈ rows, r.finds k e.1 := by
  have hne : r.initial k rows ≠ r.fresh := by
    intro heq
    rw [heq, hr.fresh] at h
    cases h
  obtain ⟨-, a, ha, -⟩ := inherits_of_ne hne
  have hmem : a ∈ rows.filter (r.finds k ·.1) := ha ▸ List.mem_cons_self
  exact ⟨a, (List.mem_filter.mp hmem).1, (List.mem_filter.mp hmem).2⟩

/-! ## Storing a list of keys -/

variable [DecidableEq K]

section

variable (r)

def Rules.store (rows : List (K × St)) (k : K) : List (K × St) :=
  if k ∈ rows.map Prod.fst then rows.map fun e => if e.1 = k then (e.1, r.again e.2) else e
  else rows ++ [(k, r.initial k rows)]

def Rules.storeAll (rows : List (K × St)) (ks : List K) : List (K × St) := ks.foldl r.store rows

def status (rows : List (K × St)) (k : K) : Option St := (Rows.row Prod.fst rows k).map Prod.snd

/-- An entry that was there, after keys have been stored. -/
def touch (done : List K) (e : K × St) : K × St := if e.1 ∈ done then (e.1, r.again e.2) else e

/-- The keys of a list that were not there. -/
def newKeys (rows : List (K × St)) (done : List K) : List K :=
  done.filter fun k => k ∉ rows.map Prod.fst

/-- Entries after keys have been stored, each new one with the status that it would have got if it
had been stored first. -/
def settled (rows : List (K × St)) (done : List K) : List (K × St) :=
  rows.map (touch r done) ++ (newKeys rows done).map fun k => (k, r.initial k rows)

end

variable {done : List K}

@[simp] theorem touch_fst (e : K × St) : (touch r done e).1 = e.1 := by
  unfold touch
  split_ifs <;> rfl

theorem sticky_touch (hr : r.Lawful) (e : K × St) :
    r.sticky (touch r done e).2 = r.sticky e.2 := by
  unfold touch
  split_ifs
  · exact hr.again e.2
  · rfl

theorem touch_of_sticky (hr : r.Lawful) {e : K × St} (h : r.sticky e.2 = true) :
    touch r done e = e := by
  unfold touch
  split_ifs
  · rw [hr.kept e.2 h]
  · rfl

variable (r rows done) in
theorem any_settled (p : K → Bool) : (settled r rows done).any (p ·.1) =
    (rows.any (p ·.1) || (newKeys rows done).any p) := by
  unfold settled
  rw [List.any_append, List.any_map, List.any_map]
  simp only [Function.comp_def, touch_fst]

variable (r rows done) in
theorem filter_settled (p : K → Bool) : (settled r rows done).filter (p ·.1) =
    (rows.filter (p ·.1)).map (touch r done) ++
      ((newKeys rows done).filter p).map fun k => (k, r.initial k rows) := by
  unfold settled
  rw [List.filter_append, List.filter_map, List.filter_map]
  simp only [Function.comp_def, touch_fst]

/-- A new entry that would inherit a status, and another one that takes this from it when it is
stored before. -/
structure Torn (r : Rules K St) (rows : List (K × St)) (f g : K) : Prop where
  new : f ∉ rows.map Prod.fst ∧ g ∉ rows.map Prod.fst
  ne : f ≠ g
  ancestor : ∃ a, rows.filter (r.finds f ·.1) = [a] ∧ r.sticky a.2 = true
  clean : rows.any (r.spoils f ·.1) = false
  sees : r.finds f g = true ∨ r.spoils f g = true

/-- **A new entry gets the same status later** when it is not torn. -/
theorem initial_settled (hr : r.Lawful) (hnew : k ∉ rows.map Prod.fst) (hk : k ∉ done)
    (hwhole : ∀ g ∈ done, ¬ Torn r rows k g) :
    r.initial k (settled r rows done) = r.initial k rows := by
  have hspoiled := any_settled r rows done (r.spoils k)
  have hfound := filter_settled r rows done (r.finds k)
  by_cases hinherits : rows.any (r.spoils k ·.1) = false ∧
      ∃ a, rows.filter (r.finds k ·.1) = [a] ∧ r.sticky a.2 = true
  · obtain ⟨hclean, a, ha, hsticky⟩ := hinherits
    have hunseen : ∀ g ∈ newKeys rows done, r.finds k g = false ∧ r.spoils k g = false := by
      intro g hg
      obtain ⟨hdone, hfresh⟩ := List.mem_filter.mp hg
      have hne : k ≠ g := fun heq => hk (heq ▸ hdone)
      have hnot : ¬ (r.finds k g = true ∨ r.spoils k g = true) := fun hsees =>
        hwhole g hdone ⟨⟨hnew, by simpa using hfresh⟩, hne, ⟨a, ha, hsticky⟩, hclean, hsees⟩
      simpa using hnot
    have hnone : (newKeys rows done).filter (r.finds k) = [] :=
      List.filter_eq_nil_iff.mpr fun g hg => by simp [(hunseen g hg).1]
    have hunspoiled : (newKeys rows done).any (r.spoils k) = false :=
      List.any_eq_false.mpr fun g hg => by simp [(hunseen g hg).2]
    rw [hclean, hunspoiled] at hspoiled
    rw [ha, hnone, List.map_nil, List.append_nil, List.map_singleton, touch_of_sticky hr hsticky]
      at hfound
    rw [initial_of_found hspoiled hfound, initial_of_found hclean ha]
  · have hfresh : r.initial k rows = r.fresh := by
      by_contra hne
      exact hinherits (inherits_of_ne hne)
    rw [hfresh]
    by_contra hne
    obtain ⟨hclean, a, ha, hsticky⟩ := inherits_of_ne hne
    rw [hspoiled, Bool.or_eq_false_iff] at hclean
    rw [hfound] at ha
    rcases List.append_eq_singleton_iff.mp ha with ⟨hold, hlater⟩ | ⟨hold, -⟩
    · -- it finds a new entry, whose ancestor it would find as well
      obtain ⟨g, hg, rfl⟩ := List.map_eq_singleton_iff.mp hlater
      have hmem : g ∈ (newKeys rows done).filter (r.finds k) := hg ▸ List.mem_cons_self
      obtain ⟨e, he, hfinds⟩ := exists_found hr hsticky
      have hsees : e ∈ rows.filter (r.finds k ·.1) :=
        List.mem_filter.mpr ⟨he, hr.trans k g e.1 (List.mem_filter.mp hmem).2 hfinds⟩
      rw [List.map_eq_nil_iff.mp hold] at hsees
      cases hsees
    · obtain ⟨e, he, rfl⟩ := List.map_eq_singleton_iff.mp hold
      rw [sticky_touch hr] at hsticky
      exact hinherits ⟨hclean.1, e, he, hsticky⟩

/-- One more key that is not torn. -/
theorem store_settled (hr : r.Lawful) (hk : k ∉ done)
    (hwhole : ∀ g ∈ done, ¬ Torn r rows k g) :
    r.store (settled r rows done) k = settled r rows (done ++ [k]) := by
  have hkeys : (settled r rows done).map Prod.fst = rows.map Prod.fst ++ newKeys rows done := by
    unfold settled
    rw [List.map_append, List.map_map, List.map_map]
    simp [Function.comp_def]
  unfold Rules.store
  rw [hkeys]
  by_cases hnew : k ∈ rows.map Prod.fst
  · have hlater : newKeys rows (done ++ [k]) = newKeys rows done := by
      unfold newKeys
      rw [List.filter_append, List.filter_cons_of_neg (by simpa using hnew), List.filter_nil,
        List.append_nil]
    rw [if_pos (List.mem_append_left _ hnew)]
    unfold settled
    rw [hlater, List.map_append, List.map_map, List.map_map]
    congr 1
    · refine List.map_congr_left fun e _ => ?_
      rw [Function.comp_apply, touch_fst]
      by_cases he : e.1 = k
      · simp [touch, he, hk]
      · simp [touch, he]
    · refine List.map_congr_left fun g hg => if_neg ?_
      rintro rfl
      simp [newKeys, hnew] at hg
  · have hlater : newKeys rows (done ++ [k]) = newKeys rows done ++ [k] := by
      unfold newKeys
      rw [List.filter_append, List.filter_cons_of_pos (by simpa using hnew), List.filter_nil]
    have hunstored : k ∉ rows.map Prod.fst ++ newKeys rows done := by
      rw [List.mem_append]
      exact fun h => h.elim hnew fun hmem => hk (List.mem_filter.mp hmem).1
    rw [if_neg hunstored, initial_settled hr hnew hk hwhole]
    unfold settled
    rw [hlater, List.map_append, ← List.append_assoc]
    congr 2
    refine List.map_congr_left fun e he => ?_
    have hne : e.1 ≠ k := fun heq => hnew (heq ▸ List.mem_map_of_mem he)
    simp [touch, hne]

/-- **Every new entry gets the status that it would have got first** when none is torn. -/
theorem storeAll_eq_settled (hr : r.Lawful) {ks : List K} (hnodup : ks.Nodup)
    (hwhole : ∀ f ∈ ks, ∀ g ∈ ks, ¬ Torn r rows f g) :
    r.storeAll rows ks = settled r rows ks := by
  induction ks using List.reverseRecOn with
  | nil => 
    unfold settled touch newKeys
    simp [Rules.storeAll]
  | append_singleton ks k ih =>
    obtain ⟨hks, -, hdisjoint⟩ := List.nodup_append.mp hnodup
    have hk : k ∉ ks := fun hmem => hdisjoint k hmem k List.mem_cons_self rfl
    have hbefore : r.storeAll rows ks = settled r rows ks := ih hks fun f hf g hg =>
      hwhole f (List.mem_append_left _ hf) g (List.mem_append_left _ hg)
    have hstep : r.storeAll rows (ks ++ [k]) = r.store (r.storeAll rows ks) k :=
      List.foldl_append
    rw [hstep, hbefore]
    exact store_settled hr hk fun g hg =>
      hwhole k (List.mem_append_right _ List.mem_cons_self) g (List.mem_append_left _ hg)

/-! ## The order of the keys -/

theorem not_mem_keys (h : status rows k = none) : k ∉ rows.map Prod.fst := by
  intro hmem
  obtain ⟨e, he, rfl⟩ := List.mem_map.mp hmem
  have hnone : rows.find? (fun e' => e'.1 = e.1) = none := Option.map_eq_none_iff.mp h
  simpa using List.find?_eq_none.mp hnone e he

theorem status_map (f : K → St) (ks : List K) (k : K) :
    status (ks.map fun k => (k, f k)) k = if k ∈ ks then some (f k) else none := by
  unfold status Rows.row
  induction ks with
  | nil => rfl
  | cons k' ks ih =>
    by_cases hk : k' = k
    · simp [hk]
    · rw [List.map_cons, List.find?_cons_of_neg (by simpa using hk), ih]
      simp [Ne.symm hk]

theorem status_settled (k : K) : status (settled r rows done) k =
    ((status rows k).map fun st => if k ∈ done then r.again st else st).or
      (if k ∈ done then some (r.initial k rows) else none) := by
  have hold : (Rows.row Prod.fst (rows.map (touch r done)) k).map Prod.snd =
      (status rows k).map fun st => if k ∈ done then r.again st else st := by
    unfold status
    rw [Rows.row_map touch_fst]
    cases he : Rows.row Prod.fst rows k with
    | none => rfl
    | some e =>
      have hkey : e.1 = k := Rows.row_key he
      simp only [Option.map_some, touch, hkey]
      split_ifs <;> rfl
  have hsplit : status (settled r rows done) k =
      ((Rows.row Prod.fst (rows.map (touch r done)) k).map Prod.snd).or
        (status ((newKeys rows done).map fun k => (k, r.initial k rows)) k) := by
    unfold status settled Rows.row
    rw [List.find?_append, Option.map_or]
  rw [hsplit, hold]
  cases hst : status rows k with
  | some st => rfl
  | none =>
    have hnew : k ∉ rows.map Prod.fst := not_mem_keys hst
    have hmem : k ∈ newKeys rows done ↔ k ∈ done := by
      unfold newKeys
      rw [List.mem_filter]
      exact and_iff_left (by simpa using hnew)
    rw [Option.map_none, Option.none_or, Option.none_or, status_map]
    simp only [hmem]

theorem status_store_of_ne {k' : K} (h : k ≠ k') : status (r.store rows k') k = status rows k := by
  unfold Rules.store status
  split_ifs
  · rw [Rows.row_map fun e => by split_ifs <;> rfl]
    cases he : Rows.row Prod.fst rows k with
    | none => rfl
    | some e =>
      have hkey : e.1 = k := Rows.row_key he
      rw [Option.map_some, if_neg (by rw [hkey]; exact h)]
  · rw [Rows.row_append, if_neg (Ne.symm h), Option.or_none]

theorem status_storeAll_of_not_mem {ks : List K} (h : k ∉ ks) :
    status (r.storeAll rows ks) k = status rows k := by
  induction ks generalizing rows with
  | nil => rfl
  | cons k' ks ih =>
    rw [List.mem_cons, not_or] at h
    exact (ih h.2).trans (status_store_of_ne h.1)

theorem status_store_new (h : k ∉ rows.map Prod.fst) :
    status (r.store rows k) k = some (r.initial k rows) := by
  have hnone : Rows.row Prod.fst rows k = none := by
    refine List.find?_eq_none.mpr fun e he => ?_
    have hne : e.1 ≠ k := fun heq => h (heq ▸ List.mem_map_of_mem he)
    simpa using hne
  unfold Rules.store status
  rw [if_neg h, Rows.row_append, hnone, if_pos rfl]
  rfl

omit [DecidableEq K] in
/-- A torn entry depends on the order. -/
theorem Torn.initial_ne (hr : r.Lawful) {f g : K} (h : Torn r rows f g) (st : St) :
    r.initial f (rows ++ [(g, st)]) ≠ r.initial f rows := by
  obtain ⟨a, ha, hsticky⟩ := h.ancestor
  have hfirst : r.initial f rows = a.2 := by rw [initial_of_found h.clean ha, if_pos hsticky]
  have hlater : r.initial f (rows ++ [(g, st)]) = r.fresh := by
    by_contra hne
    obtain ⟨hclean, b, hb, -⟩ := inherits_of_ne hne
    rcases h.sees with hfinds | hspoils
    · rw [List.filter_append, ha] at hb
      simp [hfinds] at hb
    · rw [List.any_append, List.any_cons, hspoils, Bool.true_or, Bool.or_true] at hclean
      cases hclean
  rw [hfirst, hlater]
  intro heq
  rw [← heq, hr.fresh] at hsticky
  cases hsticky

/-- **The order does not matter** exactly when no entry is torn. -/
theorem order_independent_iff (hr : r.Lawful) (rows : List (K × St)) {batch : List K}
    (hnodup : batch.Nodup) :
    (∀ l₁ l₂ : List K, l₁.Perm batch → l₂.Perm batch → ∀ k ∈ batch,
        status (r.storeAll rows l₁) k = status (r.storeAll rows l₂) k) ↔
      ∀ f ∈ batch, ∀ g ∈ batch, ¬ Torn r rows f g := by
  constructor
  · intro hsame f hf g hg htorn
    have hg' : g ∈ batch.erase f := (List.mem_erase_of_ne htorn.ne.symm).mpr hg
    have hperm : (f :: g :: (batch.erase f).erase g).Perm batch :=
      ((List.perm_cons_erase hg').symm.cons f).trans (List.perm_cons_erase hf).symm
    have hrest : f ∉ g :: (batch.erase f).erase g :=
      (List.nodup_cons.mp (hperm.nodup_iff.mpr hnodup)).1
    have hlast : f ∉ (batch.erase f).erase g := fun hmem => hrest (List.mem_cons_of_mem _ hmem)
    have hsecond : f ∉ (rows ++ [(g, r.initial g rows)]).map Prod.fst := by
      simpa using ⟨by simpa using htorn.new.1, htorn.ne⟩
    have hfirst : status (r.storeAll rows (f :: g :: (batch.erase f).erase g)) f =
        some (r.initial f rows) :=
      (status_storeAll_of_not_mem hrest).trans (status_store_new htorn.new.1)
    have hlater : status (r.storeAll rows (g :: f :: (batch.erase f).erase g)) f =
        some (r.initial f (rows ++ [(g, r.initial g rows)])) := by
      have hstored : r.store rows g = rows ++ [(g, r.initial g rows)] := if_neg htorn.new.2
      have hsteps : r.storeAll rows (g :: f :: (batch.erase f).erase g) =
          r.storeAll (r.store (r.store rows g) f) ((batch.erase f).erase g) := rfl
      rw [hsteps, status_storeAll_of_not_mem hlast, hstored]
      exact status_store_new hsecond
    have heq := hsame _ _ (.trans (.swap _ _ _) hperm) hperm f hf
    rw [hfirst, hlater] at heq
    exact htorn.initial_ne hr _ (Option.some.inj heq)
  · intro hwhole l₁ l₂ h₁ h₂ k _
    have hsettled : ∀ l : List K, l.Perm batch → r.storeAll rows l = settled r rows l :=
      fun l hl => storeAll_eq_settled hr (hl.nodup_iff.mpr hnodup) fun f hf g hg =>
        hwhole f (hl.mem_iff.mp hf) g (hl.mem_iff.mp hg)
    have hmem : k ∈ l₁ ↔ k ∈ l₂ := h₁.mem_iff.trans h₂.mem_iff.symm
    rw [hsettled l₁ h₁, hsettled l₂ h₂, status_settled, status_settled]
    simp only [hmem]

end Inheritance
