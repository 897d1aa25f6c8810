import Mathlib.Data.List.Induction
import Mathlib.Order.Lattice

/-!
# Contests

Entries come one after the other. The best class counts: the first entry of it owns the prize, until
another one of the same class has another value; then nobody does.

* `Entry`, `Standing`, `enter`, `contest`: the entries, and who owns the prize;
* `Best`, `best_concat_of_lt`, `best_concat_of_eq`, `best_concat_of_gt`: the entries of the best
  class, and one more entry;
* `Decided`, **`decided_enter`**, `contest_cases`: what the standing says of the entries;
* **`won_iff`**, **`tied_iff`**: when somebody owns the prize, and when nobody does.
-/

set_option autoImplicit false

namespace Contest

variable {C V I : Type}

structure Entry (C V I : Type) where
  cls : C
  value : V
  owner : I

structure Standing (C V I : Type) where
  cls : C
  value : V
  owner : Option I

/-- An entry that leads. -/
def Entry.leads (e : Entry C V I) : Standing C V I := ⟨e.cls, e.value, some e.owner⟩

variable [LinearOrder C] [DecidableEq V]

def enter (s : Option (Standing C V I)) (e : Entry C V I) : Option (Standing C V I) :=
  match s with
  | none => some e.leads
  | some s =>
    if e.cls < s.cls then some e.leads
    else if e.cls = s.cls ∧ e.value ≠ s.value then some { s with owner := none }
    else some s

def contest (es : List (Entry C V I)) : Option (Standing C V I) := es.foldl enter none

theorem contest_concat (es : List (Entry C V I)) (e : Entry C V I) :
    contest (es ++ [e]) = enter (contest es) e := by
  rw [contest, List.foldl_append]
  rfl

/-! ## The best class -/

section

omit [DecidableEq V]

variable {es : List (Entry C V I)} {e x : Entry C V I}

/-- No entry is of a better class. -/
def Best (es : List (Entry C V I)) (e : Entry C V I) : Prop :=
  e ∈ es ∧ ∀ e' ∈ es, e.cls ≤ e'.cls

theorem Best.cls_eq {e' : Entry C V I} (h : Best es e) (h' : Best es e') : e.cls = e'.cls :=
  le_antisymm (h.2 e' h'.1) (h'.2 e h.1)

theorem best_singleton : Best [e] x ↔ x = e := by
  constructor
  · exact fun h => List.mem_singleton.mp h.1
  · rintro rfl
    exact ⟨List.mem_singleton_self _, fun e' he' => le_of_eq (by rw [List.mem_singleton.mp he'])⟩

variable {top : Entry C V I} (htop : Best es top)

include htop

theorem best_concat_of_lt (h : e.cls < top.cls) : Best (es ++ [e]) x ↔ x = e := by
  constructor
  · intro hx
    rcases List.mem_append.mp hx.1 with hmem | hmem
    · have hle := hx.2 e (List.mem_append_right _ (List.mem_singleton_self _))
      exact absurd (lt_of_le_of_lt hle h) (not_lt_of_ge (htop.2 x hmem))
    · exact List.mem_singleton.mp hmem
  · rintro rfl
    refine ⟨List.mem_append_right _ (List.mem_singleton_self _), fun e' he' => ?_⟩
    rcases List.mem_append.mp he' with he' | he'
    · exact le_of_lt (lt_of_lt_of_le h (htop.2 e' he'))
    · rw [List.mem_singleton.mp he']

theorem best_concat_of_eq (h : e.cls = top.cls) : Best (es ++ [e]) x ↔ Best es x ∨ x = e := by
  constructor
  · intro hx
    rcases List.mem_append.mp hx.1 with hmem | hmem
    · exact .inl ⟨hmem, fun e' he' => hx.2 e' (List.mem_append_left _ he')⟩
    · exact .inr (List.mem_singleton.mp hmem)
  · rintro (hx | rfl)
    · refine ⟨List.mem_append_left _ hx.1, fun e' he' => ?_⟩
      rcases List.mem_append.mp he' with he' | he'
      · exact hx.2 e' he'
      · rw [List.mem_singleton.mp he', h, hx.cls_eq htop]
    · refine ⟨List.mem_append_right _ (List.mem_singleton_self _), fun e' he' => ?_⟩
      rcases List.mem_append.mp he' with he' | he'
      · rw [h]
        exact htop.2 e' he'
      · rw [List.mem_singleton.mp he']

theorem best_concat_of_gt (h : top.cls < e.cls) : Best (es ++ [e]) x ↔ Best es x := by
  constructor
  · intro hx
    rcases List.mem_append.mp hx.1 with hmem | hmem
    · exact ⟨hmem, fun e' he' => hx.2 e' (List.mem_append_left _ he')⟩
    · have hle := hx.2 top (List.mem_append_left _ htop.1)
      rw [List.mem_singleton.mp hmem] at hle
      exact absurd h (not_lt_of_ge hle)
  · intro hx
    refine ⟨List.mem_append_left _ hx.1, fun e' he' => ?_⟩
    rcases List.mem_append.mp he' with he' | he'
    · exact hx.2 e' he'
    · rw [List.mem_singleton.mp he', hx.cls_eq htop]
      exact le_of_lt h

end

/-! ## The standing -/

variable {es : List (Entry C V I)} {e : Entry C V I} {s : Standing C V I}

/-- What the standing says of the entries. -/
structure Decided (es : List (Entry C V I)) (s : Standing C V I) : Prop where
  leads : ∃ e, Best es e ∧ e.cls = s.cls ∧ e.value = s.value
  owned : ∀ i, s.owner = some i →
    (∃ e, Best es e ∧ e.owner = i) ∧ ∀ e, Best es e → e.value = s.value
  tied : s.owner = none → ∃ e, Best es e ∧ e.value ≠ s.value

omit [DecidableEq V] in
theorem decided_leads (h : ∀ x, Best es x ↔ x = e) : Decided es e.leads where
  leads := ⟨e, (h e).mpr rfl, rfl, rfl⟩
  owned := by
    intro i hi
    refine ⟨⟨e, (h e).mpr rfl, Option.some.inj hi⟩, fun x hx => ?_⟩
    rw [(h x).mp hx]
    rfl
  tied hnone := by cases hnone

/-- **One more entry.** -/
theorem decided_enter (h : Decided es s) (e : Entry C V I) :
    ∃ s', enter (some s) e = some s' ∧ Decided (es ++ [e]) s' := by
  obtain ⟨top, htop, hcls, hvalue⟩ := h.leads
  unfold enter
  dsimp only
  rcases lt_trichotomy e.cls s.cls with hlt | heq | hgt
  · -- a better class: the others do not count any more
    rw [if_pos hlt]
    rw [← hcls] at hlt
    exact ⟨_, rfl, decided_leads fun x => best_concat_of_lt htop hlt⟩
  · have hbest : ∀ x, Best (es ++ [e]) x ↔ Best es x ∨ x = e := fun x =>
      best_concat_of_eq htop (heq.trans hcls.symm)
    rw [if_neg (by rw [heq]; exact lt_irrefl _)]
    by_cases hne : e.value ≠ s.value
    · rw [if_pos ⟨heq, hne⟩]
      refine ⟨_, rfl, ⟨top, (hbest top).mpr (.inl htop), hcls, hvalue⟩, ?_, fun _ => ?_⟩
      · intro i hi
        cases hi
      · exact ⟨e, (hbest e).mpr (.inr rfl), hne⟩
    · rw [if_neg fun hboth => hne hboth.2]
      rw [not_not] at hne
      refine ⟨s, rfl, ⟨top, (hbest top).mpr (.inl htop), hcls, hvalue⟩, ?_, fun hnone => ?_⟩
      · intro i hi
        obtain ⟨⟨x, hx, howner⟩, hall⟩ := h.owned i hi
        refine ⟨⟨x, (hbest x).mpr (.inl hx), howner⟩, fun y hy => ?_⟩
        rcases (hbest y).mp hy with hy | rfl
        · exact hall y hy
        · exact hne
      · obtain ⟨x, hx, hx'⟩ := h.tied hnone
        exact ⟨x, (hbest x).mpr (.inl hx), hx'⟩
  · have hbest : ∀ x, Best (es ++ [e]) x ↔ Best es x := fun x =>
      best_concat_of_gt htop (by rw [hcls]; exact hgt)
    rw [if_neg (not_lt_of_gt hgt), if_neg fun hboth => (ne_of_gt hgt) hboth.1]
    refine ⟨s, rfl, ⟨top, (hbest top).mpr htop, hcls, hvalue⟩, ?_, fun hnone => ?_⟩
    · intro i hi
      obtain ⟨⟨x, hx, howner⟩, hall⟩ := h.owned i hi
      exact ⟨⟨x, (hbest x).mpr hx, howner⟩, fun y hy => hall y ((hbest y).mp hy)⟩
    · obtain ⟨x, hx, hx'⟩ := h.tied hnone
      exact ⟨x, (hbest x).mpr hx, hx'⟩

/-- A contest without entries has no standing, and every other one is decided. -/
theorem contest_cases (es : List (Entry C V I)) :
    es = [] ∧ contest es = none ∨ es ≠ [] ∧ ∃ s, contest es = some s ∧ Decided es s := by
  induction es using List.reverseRecOn with
  | nil => exact .inl ⟨rfl, rfl⟩
  | append_singleton es e ih =>
    right
    refine ⟨by simp, ?_⟩
    rw [contest_concat]
    rcases ih with ⟨rfl, hnone⟩ | ⟨-, s, hs, hdecided⟩
    · rw [hnone]
      exact ⟨e.leads, rfl, decided_leads fun x => best_singleton⟩
    · rw [hs]
      exact decided_enter hdecided e

theorem contest_eq_none : contest es = none ↔ es = [] := by
  rcases contest_cases es with ⟨hnil, hnone⟩ | ⟨hne, s, hs, -⟩
  · exact ⟨fun _ => hnil, fun _ => hnone⟩
  · simp [hne, hs]

theorem decided_of_contest (h : contest es = some s) : Decided es s := by
  rcases contest_cases es with ⟨-, hnone⟩ | ⟨-, s', hs', hdecided⟩
  · rw [hnone] at h
    cases h
  · rw [h] at hs'
    exact Option.some.inj hs' ▸ hdecided

/-- **Somebody owns the prize** when the entries of the best class have one value. -/
theorem won_iff (h : contest es = some s) :
    s.owner.isSome ↔ ∃! v, ∃ e, Best es e ∧ e.value = v := by
  have hdecided := decided_of_contest h
  obtain ⟨top, htop, -, hvalue⟩ := hdecided.leads
  constructor
  · intro hsome
    obtain ⟨i, hi⟩ := Option.isSome_iff_exists.mp hsome
    refine ⟨s.value, ⟨top, htop, hvalue⟩, ?_⟩
    rintro v ⟨e, he, rfl⟩
    exact (hdecided.owned i hi).2 e he
  · rintro ⟨v, -, hunique⟩
    cases howner : s.owner with
    | some i => rfl
    | none =>
      obtain ⟨x, hx, hne⟩ := hdecided.tied howner
      exact absurd ((hunique _ ⟨x, hx, rfl⟩).trans (hunique _ ⟨top, htop, hvalue⟩).symm) hne

/-- **Nobody does** when they have two. -/
theorem tied_iff (h : contest es = some s) :
    s.owner = none ↔ ∃ e e', Best es e ∧ Best es e' ∧ e.value ≠ e'.value := by
  have hdecided := decided_of_contest h
  obtain ⟨top, htop, -, hvalue⟩ := hdecided.leads
  constructor
  · intro hnone
    obtain ⟨x, hx, hne⟩ := hdecided.tied hnone
    exact ⟨x, top, hx, htop, by rw [hvalue]; exact hne⟩
  · rintro ⟨x, y, hx, hy, hne⟩
    cases howner : s.owner with
    | none => rfl
    | some i =>
      have hall := (hdecided.owned i howner).2
      exact absurd ((hall x hx).trans (hall y hy).symm) hne

end Contest
