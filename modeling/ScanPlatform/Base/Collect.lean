import Mathlib.Data.Finset.Card
import Mathlib.Data.Finset.Dedup
import Mathlib.Data.List.Basic

/-!
# Collecting up to a quota

Loops that walk a list and stop as soon as they have a number of results. One walks a list of
outcomes: it skips an empty one, keeps a result, and fails with the first error that it reaches. The
other reads a list of items, each of which has a value or makes the loop fail, and keeps the values
that it has not kept before.

* `mem_of_collect`: only results of the list are collected;
* `ErrorsAfterQuota`: every error of the list comes after `n` results;
* **`collect_nonempty_iff`**: when the loop returns something;
* `firstDistinct`, `firstDistinct_map`: the loop that keeps distinct values;
* `Reached`, `reached_cons`: the items that this loop comes to;
* **`firstDistinct_isSome`**, **`mem_firstDistinct`**: when it succeeds, and what it keeps.
-/

set_option autoImplicit false

namespace Collect

variable {ε α : Type*}

def collect (n : ℕ) : List (Except ε (Option α)) → List α → Except ε (List α)
  | [], acc => .ok acc
  | .error e :: _, _ => .error e
  | .ok none :: os, acc => collect n os acc
  | .ok (some a) :: os, acc =>
    if n ≤ (acc ++ [a]).length then .ok (acc ++ [a]) else collect n os (acc ++ [a])

theorem mem_of_collect {n : ℕ} {os : List (Except ε (Option α))} {acc l : List α}
    (h : collect n os acc = .ok l) {a : α} (ha : a ∈ l) : a ∈ acc ∨ .ok (some a) ∈ os := by
  induction os generalizing acc with
  | nil => cases h; exact .inl ha
  | cons o os ih =>
    match o with
    | .error e => cases h
    | .ok none => exact (ih h).imp id (List.mem_cons_of_mem _)
    | .ok (some b) =>
      have hb : a ∈ acc ++ [b] → a ∈ acc ∨ .ok (some a) ∈ Except.ok (some b) :: os := by
        intro hab
        rcases List.mem_append.mp hab with hab | hab
        · exact .inl hab
        · rw [List.mem_singleton.mp hab]; exact .inr List.mem_cons_self
      simp only [collect] at h
      split_ifs at h
      · cases h; exact hb ha
      · exact (ih h).elim hb fun hos => .inr (List.mem_cons_of_mem _ hos)

/-- The outcome is a result. -/
def yields : Except ε (Option α) → Bool
  | .ok (some _) => true
  | .ok none | .error _ => false

/-- Every error of the list comes after `n` results, `k` of which are there already. -/
def ErrorsAfterQuota (n : ℕ) (os : List (Except ε (Option α))) (k : ℕ) : Prop :=
  ∀ pre e post, os = pre ++ .error e :: post → n ≤ k + pre.countP yields

theorem errorsAfterQuota_cons {n k : ℕ} {o : Except ε (Option α)}
    {os : List (Except ε (Option α))} :
    ErrorsAfterQuota n (o :: os) k ↔
      (∀ e, o = .error e → n ≤ k) ∧ ErrorsAfterQuota n os (k + if yields o then 1 else 0) := by
  constructor
  · intro h
    refine ⟨fun e he => by simpa using h [] e os (by rw [he]; rfl), fun pre e post hos => ?_⟩
    have hle := h (o :: pre) e post (by rw [hos]; rfl)
    rw [List.countP_cons] at hle
    omega
  · rintro ⟨ho, hos⟩ pre e post heq
    cases pre with
    | nil => cases heq; simpa using ho e rfl
    | cons o' pre =>
      cases heq
      have hle := hos pre e post rfl
      rw [List.countP_cons]
      omega

/-- **When the loop returns something**: it has or meets a result, and reaches no error before its
quota is full. -/
theorem collect_nonempty_iff {n : ℕ} {os : List (Except ε (Option α))} {acc : List α}
    (hn : acc.length < n) :
    (∃ l, collect n os acc = .ok l ∧ l ≠ []) ↔
      (acc ≠ [] ∨ ∃ a, .ok (some a) ∈ os) ∧ ErrorsAfterQuota n os acc.length := by
  induction os generalizing acc with
  | nil => simp [collect, ErrorsAfterQuota]
  | cons o os ih =>
    rw [errorsAfterQuota_cons]
    match o with
    | .error e =>
      have hk : ¬ n ≤ acc.length := by omega
      simp [collect, hk]
    | .ok none => simpa [collect, yields] using ih hn
    | .ok (some b) =>
      have hlen : (acc ++ [b]).length = acc.length + 1 := by simp
      by_cases hfull : n ≤ (acc ++ [b]).length
      · have hquota : ErrorsAfterQuota n os (acc.length + 1) :=
          fun pre e post _ => by omega
        simp only [collect, if_pos hfull]
        simpa [yields] using hquota
      · have hstep := ih (Nat.not_le.mp hfull)
        rw [hlen] at hstep
        simp only [collect, if_neg hfull]
        rw [hstep]
        simp [yields]

end Collect

namespace FirstDistinct

variable {α β : Type*} [DecidableEq β] (cap : ℕ) (f : α → Option β)

def firstDistinct : List β → List α → Option (List β)
  | kept, [] => some kept
  | kept, a :: as =>
    (f a).bind fun b =>
      if b ∈ kept then firstDistinct kept as
      else if cap ≤ (kept ++ [b]).length then some (kept ++ [b])
      else firstDistinct (kept ++ [b]) as

/-- The item comes before `cap` distinct values, with the ones that have been kept. -/
def Reached (kept : List β) (as : List α) (a : α) : Prop :=
  ∃ pre post, as = pre ++ a :: post ∧ (kept ++ pre.filterMap f).toFinset.card < cap

variable {cap f} {kept : List β} {a x : α} {as : List α} {b : β}

theorem firstDistinct_map {γ : Type*} (g : γ → α) (kept : List β) (cs : List γ) :
    firstDistinct cap f kept (cs.map g) = firstDistinct cap (f ∘ g) kept cs := by
  induction cs generalizing kept with
  | nil => rfl
  | cons c cs ih => simp only [List.map_cons, firstDistinct, ih, Function.comp_apply]

theorem not_reached (h : cap ≤ kept.toFinset.card) : ¬ Reached cap f kept as a := by
  rintro ⟨pre, post, -, hcard⟩
  have hsub : kept.toFinset ⊆ (kept ++ pre.filterMap f).toFinset := by
    rw [List.toFinset_append]
    exact Finset.subset_union_left
  have := Finset.card_le_card hsub
  omega

theorem reached_cons : Reached cap f kept (a :: as) x ↔
    x = a ∧ kept.toFinset.card < cap ∨ Reached cap f (kept ++ (f a).toList) as x := by
  have hpre : ∀ pre, kept ++ (a :: pre).filterMap f =
      kept ++ (f a).toList ++ pre.filterMap f := by
    intro pre
    cases ha : f a <;> simp [ha]
  constructor
  · rintro ⟨pre, post, heq, hcard⟩
    cases pre with
    | nil =>
      obtain ⟨rfl, -⟩ := List.cons.inj heq
      exact .inl ⟨rfl, by simpa using hcard⟩
    | cons c pre =>
      obtain ⟨rfl, rfl⟩ := List.cons.inj heq
      exact .inr ⟨pre, post, rfl, hpre pre ▸ hcard⟩
  · rintro (⟨rfl, hcard⟩ | ⟨pre, post, rfl, hcard⟩)
    · exact ⟨[], as, rfl, by simpa using hcard⟩
    · exact ⟨a :: pre, post, rfl, hpre pre ▸ hcard⟩

/-- A value that has been kept already changes nothing. -/
theorem reached_of_mem (h : b ∈ kept) :
    Reached cap f (kept ++ [b]) as x ↔ Reached cap f kept as x := by
  have hset : ∀ l : List β, (kept ++ [b] ++ l).toFinset = (kept ++ l).toFinset := by
    intro l
    ext c
    simp only [List.mem_toFinset, List.mem_append, List.mem_singleton]
    constructor
    · rintro ((hc | rfl) | hc)
      · exact .inl hc
      · exact .inl h
      · exact .inr hc
    · rintro (hc | hc)
      · exact .inl (.inl hc)
      · exact .inr hc
  unfold Reached
  simp only [hset]

theorem card_kept (h : kept.Nodup) : kept.toFinset.card = kept.length :=
  List.toFinset_card_of_nodup h

omit [DecidableEq β] in
theorem nodup_keep (h : kept.Nodup) (hb : b ∉ kept) : (kept ++ [b]).Nodup :=
  List.concat_eq_append ▸ h.concat hb

/-- **When the loop succeeds**: every item that it comes to has a value. -/
theorem firstDistinct_isSome (hkept : kept.Nodup) (hcap : kept.length < cap) (as : List α) :
    (firstDistinct cap f kept as).isSome ↔ ∀ x, Reached cap f kept as x → (f x).isSome := by
  induction as generalizing kept with
  | nil => simp [firstDistinct, Reached]
  | cons a as ih =>
    have hcard := card_kept hkept
    simp only [reached_cons, firstDistinct]
    cases ha : f a with
    | none =>
      refine ⟨fun h => by simp at h, fun h => ?_⟩
      have := h a (.inl ⟨rfl, by omega⟩)
      rw [ha] at this
      cases this
    | some b =>
      have hhead : ∀ x, x = a ∧ kept.toFinset.card < cap → (f x).isSome := by
        rintro x ⟨rfl, -⟩
        exact Option.isSome_of_eq_some ha
      have hsplit : (∀ x, x = a ∧ kept.toFinset.card < cap ∨
            Reached cap f (kept ++ [b]) as x → (f x).isSome) ↔
          ∀ x, Reached cap f (kept ++ [b]) as x → (f x).isSome :=
        ⟨fun h x hx => h x (.inr hx), fun h x hx => hx.elim (hhead x) (h x)⟩
      simp only [Option.bind_some, Option.toList_some, hsplit]
      split_ifs with hmem hfull
      · simp only [reached_of_mem hmem]
        exact ih hkept hcap
      · have hnodup := nodup_keep hkept hmem
        refine ⟨fun _ x hx => absurd hx (not_reached ?_), fun _ => rfl⟩
        rw [card_kept hnodup]
        exact hfull
      · have hnodup := nodup_keep hkept hmem
        exact ih hnodup (Nat.lt_of_not_le hfull)

/-- **What the loop keeps**: the values of the items that it comes to. -/
theorem mem_firstDistinct {bs : List β} (hkept : kept.Nodup) (hcap : kept.length < cap)
    (h : firstDistinct cap f kept as = some bs) :
    b ∈ bs ↔ b ∈ kept ∨ ∃ x, Reached cap f kept as x ∧ f x = some b := by
  induction as generalizing kept with
  | nil =>
    obtain rfl := Option.some.inj h
    simp [Reached]
  | cons a as ih =>
    obtain ⟨c, ha, h⟩ := Option.bind_eq_some_iff.mp h
    have hcard := card_kept hkept
    have hsplit : (∃ x, Reached cap f kept (a :: as) x ∧ f x = some b) ↔
        b = c ∨ ∃ x, Reached cap f (kept ++ [c]) as x ∧ f x = some b := by
      simp only [reached_cons, ha, Option.toList_some, or_and_right, exists_or]
      refine or_congr_left ⟨?_, ?_⟩
      · rintro ⟨x, ⟨rfl, -⟩, hx⟩
        exact Option.some.inj (hx.symm.trans ha)
      · rintro rfl
        exact ⟨a, ⟨rfl, by omega⟩, ha⟩
    rw [hsplit]
    split_ifs at h with hmem hfull
    · simp only [reached_of_mem hmem]
      rw [ih hkept hcap h]
      constructor
      · rintro (hb | hx)
        · exact .inl hb
        · exact .inr (.inr hx)
      · rintro (hb | rfl | hx)
        · exact .inl hb
        · exact .inl hmem
        · exact .inr hx
    · obtain rfl := Option.some.inj h
      have hnone : ¬ ∃ x, Reached cap f (kept ++ [c]) as x ∧ f x = some b := by
        rintro ⟨x, hx, -⟩
        exact not_reached (by rw [card_kept (nodup_keep hkept hmem)]; exact hfull) hx
      simp [hnone]
    · rw [ih (nodup_keep hkept hmem) (Nat.lt_of_not_le hfull) h, List.mem_append,
        List.mem_singleton, or_assoc]

end FirstDistinct
