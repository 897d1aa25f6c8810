import Mathlib.Data.List.Nodup

/-!
# Rows under their keys

A table as a list of rows, in the order of their insertion. The row under a key is the first one
that has it.

* `row`, `mem_of_row`, `row_key`: the row under a key;
* `row_map`, `row_append`, `row_filter_ne`: what an update of the rows, an insertion and a deletion
  do to it;
* **`row_of_mem`**: every row is found under its key when the keys are distinct;
* `addNew`: an insertion unless the key is there; **`foldl_adds`**: what a loop of insertions adds;
  `exists_kept`, **`foldl_addNew_perm_iff`**: when it leaves what it inserts and nothing else;
* `upsert`, `upsertAll`: insertions that give a row under the key a new identifier; `map_upsertAll`,
  `upsertAll_old`, **`upsertAll_new`**: what they leave as it was, and the rows they number anew.
-/

set_option autoImplicit false

namespace Rows

variable {α κ : Type} [DecidableEq κ] (key : α → κ)

def row (l : List α) (k : κ) : Option α := l.find? fun a => key a = k

variable {key} {l : List α} {k : κ} {a : α}

theorem mem_of_row (h : a ∈ row key l k) : a ∈ l := List.mem_of_find?_eq_some h

theorem row_key (h : a ∈ row key l k) : key a = k := by
  simpa using List.find?_some h

/-- An update that keeps the keys. -/
theorem row_map {f : α → α} (hf : ∀ a, key (f a) = key a) (l : List α) (k : κ) :
    row key (l.map f) k = (row key l k).map f := by
  unfold row
  rw [List.find?_map]
  exact congrArg (fun p => (l.find? p).map f) (funext fun a => by simp [hf])

theorem row_append (l : List α) (a : α) (k : κ) :
    row key (l ++ [a]) k = (row key l k).or (if key a = k then some a else none) := by
  unfold row
  rw [List.find?_append]
  by_cases h : key a = k
  · simp [h]
  · simp [h]

theorem row_filter_ne (l : List α) (k k' : κ) :
    row key (l.filter fun a => key a ≠ k') k = if k = k' then none else row key l k := by
  unfold row
  rw [List.find?_filter]
  split_ifs with hk
  · refine List.find?_eq_none.mpr fun a _ => ?_
    simp [hk]
  · congr 1
    funext a
    by_cases ha : key a = k
    · simp [ha, hk]
    · simp [ha]

/-- Every row is found under its key when the keys are distinct. -/
theorem row_of_mem (hnodup : (l.map key).Nodup) (ha : a ∈ l) : row key l (key a) = some a := by
  induction l with
  | nil => cases ha
  | cons b l ih =>
    rw [List.map_cons, List.nodup_cons] at hnodup
    unfold row
    rcases List.mem_cons.mp ha with rfl | hmem
    · rw [List.find?_cons_of_pos (by simp)]
    · have hne : key b ≠ key a := fun heq => hnodup.1 (heq ▸ List.mem_map_of_mem hmem)
      rw [List.find?_cons_of_neg (by simpa using hne)]
      exact ih hnodup.2 hmem

/-- The last of the rows under a key is the only one when keys are distinct. -/
theorem row_reverse (hnodup : (l.map key).Nodup) (ha : a ∈ l) :
    row key l.reverse (key a) = some a := by
  refine row_of_mem ?_ (List.mem_reverse.mpr ha)
  rw [List.map_reverse]
  exact List.nodup_reverse.mpr hnodup

/-! ## Insertions -/

variable (key) in
/-- `if key not in rows: rows[key] = a`. -/
def addNew (l : List α) (a : α) : List α := if key a ∈ l.map key then l else l ++ [a]

theorem mem_keys_addNew : k ∈ (addNew key l a).map key ↔ k ∈ l.map key ∨ k = key a := by
  unfold addNew
  split_ifs with h
  · exact ⟨.inl, fun hk => hk.elim id fun heq => heq ▸ h⟩
  · rw [List.map_append, List.mem_append, List.map_singleton, List.mem_singleton]

theorem nodup_addNew (h : (l.map key).Nodup) (a : α) : ((addNew key l a).map key).Nodup := by
  unfold addNew
  split_ifs with hmem
  · exact h
  · rw [List.map_append, List.map_singleton]
    refine List.nodup_append.mpr ⟨h, List.nodup_singleton _, fun k hk k' hk' heq => ?_⟩
    rw [List.mem_singleton.mp hk'] at heq
    exact hmem (heq ▸ hk)

theorem mem_addNew {b : α} (h : b ∈ addNew key l a) : b ∈ l ∨ b = a := by
  unfold addNew at h
  split_ifs at h
  · exact .inl h
  · exact (List.mem_append.mp h).imp_right List.mem_singleton.mp

/-- **A loop whose turns only add** adds what its turns do, as long as each turn finds the state as
it has to be. -/
theorem foldl_adds {S A B : Type*} (step : S → A → S) (out : S → B → Prop) (added : A → B → Prop)
    (P : S → Prop) (hP : ∀ s a, P s → P (step s a))
    (hstep : ∀ s a b, P s → (out (step s a) b ↔ out s b ∨ added a b))
    (l : List A) {s : S} (hs : P s) (b : B) :
    out (l.foldl step s) b ↔ out s b ∨ ∃ a ∈ l, added a b := by
  induction l generalizing s with
  | nil => simp
  | cons a l ih =>
    rw [List.foldl_cons, ih (hP s a hs), hstep s a b hs, List.exists_mem_cons_iff, or_assoc]

/-- What the turns of a loop keep. -/
theorem foldl_keeps {S A : Type*} (step : S → A → S) (P : S → Prop)
    (hP : ∀ s a, P s → P (step s a)) (l : List A) {s : S} (hs : P s) : P (l.foldl step s) := by
  induction l generalizing s with
  | nil => exact hs
  | cons a l ih => exact ih (hP s a hs)

theorem nodup_foldl_addNew (h : (l.map key).Nodup) (as : List α) :
    ((as.foldl (addNew key) l).map key).Nodup :=
  foldl_keeps (addNew key) (fun l => (l.map key).Nodup) (fun _ a h => nodup_addNew h a) as h

theorem mem_keys_foldl_addNew (l as : List α) (k : κ) :
    k ∈ (as.foldl (addNew key) l).map key ↔ k ∈ l.map key ∨ ∃ a ∈ as, k = key a :=
  foldl_adds (addNew key) (fun l k => k ∈ l.map key) (fun a k => k = key a) (fun _ => True)
    (fun _ _ _ => trivial) (fun _ _ _ _ => mem_keys_addNew) as trivial k

theorem mem_foldl_addNew {b : α} {as : List α} (h : b ∈ as.foldl (addNew key) l) :
    b ∈ l ∨ b ∈ as := by
  induction as generalizing l with
  | nil => exact .inl h
  | cons a as ih =>
    rcases ih h with hmem | hmem
    · rcases mem_addNew hmem with hold | rfl
      · exact .inl hold
      · exact .inr List.mem_cons_self
    · exact .inr (List.mem_cons_of_mem a hmem)

theorem mem_addNew_of_mem {b : α} (h : b ∈ l) (a : α) : b ∈ addNew key l a := by
  unfold addNew
  split_ifs
  · exact h
  · exact List.mem_append_left _ h

theorem addNew_append {m : List α} (h : key a ∉ l.map key) :
    addNew key (l ++ m) a = l ++ addNew key m a := by
  unfold addNew
  by_cases hmem : key a ∈ m.map key
  · rw [if_pos hmem, if_pos (by rw [List.map_append]; exact List.mem_append_right _ hmem)]
  · rw [if_neg hmem, if_neg (by rw [List.map_append, List.mem_append, or_iff_right h]; exact hmem),
      List.append_assoc]

variable (key) in
/-- The rows that a loop inserts: of those under one key the first. -/
theorem exists_kept {β : Type} (f : β → α) (bs : List β) (l : List α) :
    ∃ kept : List β, kept.Sublist bs ∧ (bs.map f).foldl (addNew key) l = l ++ kept.map f := by
  induction bs generalizing l with
  | nil => exact ⟨[], .slnil, by simp⟩
  | cons b bs ih =>
    obtain ⟨kept, hkept, hfold⟩ := ih (addNew key l (f b))
    rw [List.map_cons, List.foldl_cons, hfold]
    unfold addNew
    split_ifs
    · exact ⟨kept, hkept.cons b, rfl⟩
    · exact ⟨b :: kept, hkept.cons_cons b, by simp⟩

/-- **What a loop of insertions leaves is what it inserts** when that was all there was before. -/
theorem foldl_addNew_perm_iff {as : List α} (hl : (l.map key).Nodup) (has : (as.map key).Nodup) :
    (as.foldl (addNew key) l).Perm as ↔ ∀ a ∈ l, a ∈ as := by
  constructor
  · intro hperm a ha
    exact hperm.mem_iff.mp
      (foldl_keeps (addNew key) (a ∈ ·) (fun _ b h => mem_addNew_of_mem h b) as ha)
  · intro hsub
    refine (List.perm_ext_iff_of_nodup (nodup_foldl_addNew hl as).of_map has.of_map).mpr fun a => ?_
    have hmem : ∀ b ∈ as.foldl (addNew key) l, b ∈ as := fun b hb =>
      (mem_foldl_addNew hb).elim (hsub b) id
    constructor
    · exact hmem a
    · intro ha
      have hkeys : key a ∈ (as.foldl (addNew key) l).map key :=
        (mem_keys_foldl_addNew l as _).mpr (.inr ⟨a, ha, rfl⟩)
      obtain ⟨b, hb, hkey⟩ := List.mem_map.mp hkeys
      exact List.inj_on_of_nodup_map has (hmem b hb) ha hkey ▸ hb

/-! ## Upserts -/

variable (key) in
/-- `INSERT … ON DUPLICATE KEY UPDATE id = VALUES(id)`, of a row and its identifier. -/
def upsert (l : List (ℕ × α)) (id : ℕ) (a : α) : List (ℕ × α) :=
  if key a ∈ l.map (key ·.2) then l.map fun r => if key r.2 = key a then (id, r.2) else r
  else l ++ [(id, a)]

variable (key) in
/-- One statement for several rows, whose identifiers follow each other. -/
def upsertAll (l : List (ℕ × α)) (id : ℕ) : List α → List (ℕ × α)
  | [] => l
  | a :: as => upsertAll (upsert key l id a) (id + 1) as

variable {r : ℕ × α} {rows : List (ℕ × α)} {id : ℕ}

theorem map_upsert (rows : List (ℕ × α)) (id : ℕ) (a : α) :
    (upsert key rows id a).map Prod.snd = addNew key (rows.map Prod.snd) a := by
  have hkeys : (rows.map Prod.snd).map key = rows.map (key ·.2) := List.map_map
  unfold upsert addNew
  rw [hkeys]
  split_ifs with h
  · rw [List.map_map]
    refine List.map_congr_left fun r _ => ?_
    rw [Function.comp_apply]
    split_ifs <;> rfl
  · rw [List.map_append]
    rfl

/-- The rows without their identifiers. -/
theorem map_upsertAll (rows : List (ℕ × α)) (id : ℕ) (as : List α) :
    (upsertAll key rows id as).map Prod.snd = as.foldl (addNew key) (rows.map Prod.snd) := by
  induction as generalizing rows id with
  | nil => rfl
  | cons a as ih => rw [upsertAll, ih, map_upsert, List.foldl_cons]

theorem exists_upsertAll {as : List α} (ha : a ∈ as) :
    ∃ r ∈ upsertAll key rows id as, key r.2 = key a := by
  have hkeys : key a ∈ (as.foldl (addNew key) (rows.map Prod.snd)).map key :=
    (mem_keys_foldl_addNew _ as _).mpr (.inr ⟨a, ha, rfl⟩)
  rw [← map_upsertAll rows id as, List.map_map] at hkeys
  exact List.mem_map.mp hkeys

theorem mem_upsert (h : r ∈ upsert key rows id a) :
    r ∈ rows ∧ key r.2 ≠ key a ∨ r.1 = id ∧ key r.2 = key a := by
  unfold upsert at h
  split_ifs at h with hmem
  · obtain ⟨r', hr', rfl⟩ := List.mem_map.mp h
    split_ifs with hkey
    · exact .inr ⟨rfl, hkey⟩
    · exact .inl ⟨hr', hkey⟩
  · rcases List.mem_append.mp h with hold | hnew
    · exact .inl ⟨hold, fun hkey => hmem (List.mem_map.mpr ⟨r, hold, hkey⟩)⟩
    · rw [List.mem_singleton.mp hnew]
      exact .inr ⟨rfl, rfl⟩

/-- A row under another key stays as it was. -/
theorem upsertAll_old {as : List α} (h : r ∈ upsertAll key rows id as)
    (hkey : key r.2 ∉ as.map key) : r ∈ rows := by
  induction as generalizing rows id with
  | nil => exact h
  | cons a as ih =>
    rw [List.map_cons, List.mem_cons, not_or] at hkey
    rcases mem_upsert (ih h hkey.2) with ⟨hold, -⟩ | ⟨-, hsame⟩
    · exact hold
    · exact absurd hsame hkey.1

/-- **A row under one of the keys has a new identifier.** -/
theorem upsertAll_new {as : List α} (h : r ∈ upsertAll key rows id as)
    (hkey : key r.2 ∈ as.map key) : id ≤ r.1 := by
  induction as generalizing rows id with
  | nil => cases hkey
  | cons a as ih =>
    by_cases hlater : key r.2 ∈ as.map key
    · exact Nat.le_of_succ_le (ih h hlater)
    · have hsame := (List.mem_cons.mp hkey).resolve_right hlater
      rcases mem_upsert (upsertAll_old h hlater) with ⟨-, hne⟩ | ⟨hid, -⟩
      · exact absurd hsame hne
      · exact Nat.le_of_eq hid.symm

theorem upsertAll_lt {as : List α} (hrows : ∀ r ∈ rows, r.1 < id)
    (h : r ∈ upsertAll key rows id as) : r.1 < id + as.length := by
  induction as generalizing rows id with
  | nil => exact hrows r h
  | cons a as ih =>
    have hstep : ∀ r ∈ upsert key rows id a, r.1 < id + 1 := fun r hr =>
      (mem_upsert hr).elim (fun hold => Nat.lt_succ_of_lt (hrows r hold.1))
        fun hnew => hnew.1 ▸ Nat.lt_succ_self id
    rw [List.length_cons, ← Nat.add_assoc, Nat.add_right_comm]
    exact ih hstep h

end Rows
