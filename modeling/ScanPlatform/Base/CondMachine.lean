import Mathlib.Data.List.Basic
import Mathlib.Data.List.Induction

/-!
# Machines of conditional updates

An action is a conditional update `step a : S → Option S`: `none` when its guard does not match, so
that nothing is written, and the written state otherwise. A **run** is a list of actions, matched
or not; the actions that took effect are kept in order by `taken`.

* `next`, `run`, `run_append`: the state after an action and after a run;
* `taken`, `taken_append`: the actions of a run that took effect;
* `Along`, `along_cons`, `along_concat`: a condition on every action of a run at the state it is
  tried in;
* **`run_invariant`**, **`run_invariant_along`**, **`Along.of_invariant`**, `along_congr`: the
  invariant rules;
* **`holds_iff_along`**, `holds_iff_along_of`, `never_iff_along`: the condition under which a
  property holds in every state, and under which one that lasts never becomes true;
* `run_kept`, **`becomes_once`**: what every step of a run keeps stays true, and becomes true once;
* `events`, **`run_events`**: what the actions of a run tell, and a part of the state that is folded
  over it;
* `LastInto`, `exists_lastInto`, **`LastInto.unique`**: the last action that made a property true;
* `exists_undone`, **`run_unless`**: an action that made one false;
* **`run_filter`**: a run beside what one owner does of it.
-/

set_option autoImplicit false

namespace CondMachine

/-- What a guarded update requires and what it writes. -/
theorem guarded_eq_some {S : Type*} {c : Prop} [Decidable c] {s s' : S} :
    (if c then some s else none) = some s' ↔ c ∧ s' = s := by
  rw [Option.ite_none_right_eq_some, Option.some.injEq, eq_comm]

variable {S A : Type*} (step : A → S → Option S)

/-- The state after an action, matched or not. -/
def next (s : S) (a : A) : S := (step a s).getD s

/-- The state after a run. -/
def run (s : S) (σ : List A) : S := σ.foldl (next step) s

/-- The actions of a run that took effect, in order. -/
def taken (s : S) : List A → List A
  | [] => []
  | a :: σ => if (step a s).isSome then a :: taken (next step s a) σ else taken (next step s a) σ

variable {step}

@[simp] theorem next_some {s s' : S} {a : A} (h : step a s = some s') : next step s a = s' := by
  simp [next, h]

@[simp] theorem next_none {s : S} {a : A} (h : step a s = none) : next step s a = s := by
  simp [next, h]

variable (step) in
/-- An action either writes a state or leaves the old one. -/
theorem next_cases (s : S) (a : A) :
    step a s = some (next step s a) ∨ step a s = none ∧ next step s a = s := by
  cases h : step a s with
  | none => exact .inr ⟨rfl, next_none h⟩
  | some s' => exact .inl (by rw [next_some h])

@[simp] theorem run_nil (s : S) : run step s [] = s := rfl

@[simp] theorem run_cons (s : S) (a : A) (σ : List A) :
    run step s (a :: σ) = run step (next step s a) σ := rfl

theorem run_append (s : S) (σ τ : List A) : run step s (σ ++ τ) = run step (run step s σ) τ :=
  List.foldl_append

theorem run_concat (s : S) (σ : List A) (a : A) :
    run step s (σ ++ [a]) = next step (run step s σ) a := by
  rw [run_append]; rfl

@[simp] theorem taken_nil (s : S) : taken step s [] = [] := rfl

theorem taken_append (s : S) (σ τ : List A) :
    taken step s (σ ++ τ) = taken step s σ ++ taken step (run step s σ) τ := by
  induction σ generalizing s with
  | nil => rfl
  | cons a σ ih =>
    simp only [List.cons_append, taken, run_cons, ih]
    split_ifs <;> rfl

theorem taken_concat_some {s s' : S} {σ : List A} {a : A} (h : step a (run step s σ) = some s') :
    taken step s (σ ++ [a]) = taken step s σ ++ [a] := by
  rw [taken_append]; simp [taken, h]

theorem taken_concat_none {s : S} {σ : List A} {a : A} (h : step a (run step s σ) = none) :
    taken step s (σ ++ [a]) = taken step s σ := by
  rw [taken_append]; simp [taken, h]

theorem taken_sublist (s : S) (σ : List A) : (taken step s σ).Sublist σ := by
  induction σ generalizing s with
  | nil => exact List.Sublist.refl _
  | cons a σ ih =>
    unfold taken
    split_ifs
    · exact (ih _).cons_cons a
    · exact (ih _).cons a

/-! ## Invariants -/

/-- **The invariant rule.** What every effective action preserves holds after every run. -/
theorem run_invariant {I : S → Prop} (hstep : ∀ s a s', I s → step a s = some s' → I s')
    {s : S} (h0 : I s) (σ : List A) : I (run step s σ) := by
  induction σ using List.reverseRecOn with
  | nil => exact h0
  | append_singleton σ a ih =>
    rw [run_concat]
    rcases next_cases step (run step s σ) a with h | ⟨-, h⟩
    · exact hstep _ _ _ ih h
    · rw [h]; exact ih

variable (step) in
/-- Every action of the run meets `P` at the state in which it is tried. -/
def Along (P : S → A → Prop) (s : S) (σ : List A) : Prop :=
  ∀ σ₁ a σ₂, σ = σ₁ ++ a :: σ₂ → P (run step s σ₁) a

theorem along_nil (P : S → A → Prop) (s : S) : Along step P s [] := by
  intro σ₁ a σ₂ h
  simp at h

theorem along_concat {P : S → A → Prop} {s : S} {σ : List A} {a : A} :
    Along step P s (σ ++ [a]) ↔ Along step P s σ ∧ P (run step s σ) a := by
  constructor
  · intro h
    refine ⟨fun σ₁ b σ₂ hσ => h σ₁ b (σ₂ ++ [a]) (by simp [hσ]), h σ a [] rfl⟩
  · rintro ⟨h, ha⟩ σ₁ b σ₂ hσ
    rcases List.eq_nil_or_concat σ₂ with rfl | ⟨τ, c, rfl⟩
    · obtain ⟨rfl, hab⟩ := List.append_inj' hσ rfl
      cases hab
      exact ha
    · have hσ' : σ ++ [a] = (σ₁ ++ b :: τ) ++ [c] := by simpa using hσ
      exact h σ₁ b τ (List.append_inj' hσ' rfl).1

theorem Along.prefix {P : S → A → Prop} {s : S} {σ τ : List A} (h : Along step P s (σ ++ τ)) :
    Along step P s σ := fun σ₁ a σ₂ hσ => h σ₁ a (σ₂ ++ τ) (by simp [hσ])

theorem Along.drop {P : S → A → Prop} {s : S} {σ τ : List A} (h : Along step P s (σ ++ τ)) :
    Along step P (run step s σ) τ := by
  intro τ₁ a τ₂ hτ
  rw [← run_append]
  exact h (σ ++ τ₁) a τ₂ (by rw [hτ, List.append_assoc])

theorem Along.cons {P : S → A → Prop} {s : S} {a : A} {σ : List A} (ha : P s a)
    (h : Along step P (next step s a) σ) : Along step P s (a :: σ) := by
  intro σ₁ b σ₂ hσ
  cases σ₁ with
  | nil => cases hσ; exact ha
  | cons c σ₁ => cases hσ; exact h σ₁ b σ₂ rfl

theorem along_cons {P : S → A → Prop} {s : S} {a : A} {σ : List A} :
    Along step P s (a :: σ) ↔ P s a ∧ Along step P (next step s a) σ :=
  ⟨fun h => ⟨h [] a σ rfl, fun σ₁ b σ₂ hσ => h (a :: σ₁) b σ₂ (congrArg (a :: ·) hσ)⟩,
    fun h => Along.cons h.1 h.2⟩

instance decidableAlong {P : S → A → Prop} [∀ s a, Decidable (P s a)] :
    (s : S) → (σ : List A) → Decidable (Along step P s σ)
  | s, [] => .isTrue (along_nil P s)
  | s, a :: σ =>
    have := decidableAlong (P := P) (next step s a) σ
    decidable_of_iff _ along_cons.symm

/-- **The invariant rule under a condition** that every action of the run meets where it is
tried. -/
theorem run_invariant_along {I : S → Prop} {P : S → A → Prop}
    (hstep : ∀ s a s', I s → P s a → step a s = some s' → I s') {s : S} (h0 : I s) {σ : List A}
    (hP : Along step P s σ) : I (run step s σ) := by
  induction σ using List.reverseRecOn with
  | nil => exact h0
  | append_singleton σ a ih =>
    obtain ⟨hσ, ha⟩ := along_concat.mp hP
    rw [run_concat]
    rcases next_cases step (run step s σ) a with h | ⟨-, h⟩
    · exact hstep _ _ _ (ih hσ) ha h
    · rw [h]; exact ih hσ

/-- **A condition that keeps an invariant** brings what the invariant has to say of each action. -/
theorem Along.of_invariant {I : S → Prop} {P Q : S → A → Prop}
    (hstep : ∀ s a s', I s → P s a → step a s = some s' → I s')
    (hQ : ∀ s a, I s → P s a → Q s a) {s : S} (h0 : I s) {σ : List A} (h : Along step P s σ) :
    Along step Q s σ := by
  rintro σ₁ a σ₂ rfl
  exact hQ _ a (run_invariant_along hstep h0 h.prefix) (h σ₁ a σ₂ rfl)

/-- Conditions that agree wherever an invariant holds agree along a run. -/
theorem along_congr {I : S → Prop} {P Q : S → A → Prop}
    (hstep : ∀ s a s', I s → step a s = some s' → I s') (hPQ : ∀ s a, I s → (P s a ↔ Q s a))
    {s : S} (h0 : I s) (σ : List A) : Along step P s σ ↔ Along step Q s σ := by
  have hinv : ∀ σ₁ a, P (run step s σ₁) a ↔ Q (run step s σ₁) a := fun σ₁ a =>
    hPQ _ a (run_invariant hstep h0 σ₁)
  constructor
  · exact fun h σ₁ a σ₂ hσ => (hinv σ₁ a).mp (h σ₁ a σ₂ hσ)
  · exact fun h σ₁ a σ₂ hσ => (hinv σ₁ a).mpr (h σ₁ a σ₂ hσ)

/-- **A property holds in every state of a run** exactly when every action meets the condition under
which it keeps the property. -/
theorem holds_iff_along {I J : S → Prop} {P : S → A → Prop}
    (hJ : ∀ s a s', J s → step a s = some s' → J s')
    (hstep : ∀ s a, J s → I s → (I (next step s a) ↔ P s a)) {s : S} (hs : J s) (h0 : I s)
    (σ : List A) :
    (∀ σ₁ σ₂, σ = σ₁ ++ σ₂ → I (run step s σ₁)) ↔ Along step P s σ := by
  constructor
  · intro h σ₁ a σ₂ hσ
    have hafter := h (σ₁ ++ [a]) σ₂ (by rw [hσ, List.append_assoc, List.singleton_append])
    rw [run_concat] at hafter
    exact (hstep _ a (run_invariant hJ hs σ₁) (h σ₁ (a :: σ₂) hσ)).mp hafter
  · rintro h σ₁ σ₂ rfl
    refine (run_invariant_along (I := fun s => J s ∧ I s) (fun s a s' hs hP hstep' => ?_)
      ⟨hs, h0⟩ h.prefix).2
    have hnext : next step s a = s' := next_some hstep'
    exact ⟨hJ s a s' hs.1 hstep', hnext ▸ (hstep s a hs.1 hs.2).mpr hP⟩

/-- The same where actions keep the property under the condition only while a further one holds,
which does along the run. -/
theorem holds_iff_along_of {I J : S → Prop} {P R : S → A → Prop}
    (hJ : ∀ s a s', J s → step a s = some s' → J s')
    (hstep : ∀ s a, R s a → J s → I s → (I (next step s a) ↔ P s a)) {s : S} (hs : J s) (h0 : I s)
    {σ : List A} (hR : Along step R s σ) :
    (∀ σ₁ σ₂, σ = σ₁ ++ σ₂ → I (run step s σ₁)) ↔ Along step P s σ := by
  classical
  have hiff := holds_iff_along (P := fun s a => if R s a then P s a else I (next step s a)) hJ
    (fun s a hJs hIs => by
      split_ifs with hRs
      · exact hstep s a hRs hJs hIs
      · exact Iff.rfl) hs h0 σ
  rw [hiff]
  constructor
  · exact fun h σ₁ a σ₂ hσ => (if_pos (hR σ₁ a σ₂ hσ)).mp (h σ₁ a σ₂ hσ)
  · exact fun h σ₁ a σ₂ hσ => (if_pos (hR σ₁ a σ₂ hσ)).mpr (h σ₁ a σ₂ hσ)

/-- **What lasts once it is true never becomes true** exactly when every action meets the condition
under which it does not. -/
theorem never_iff_along {J B : S → Prop} {P : S → A → Prop}
    (hJ : ∀ s a s', J s → step a s = some s' → J s')
    (hlasts : ∀ s a s', J s → B s → step a s = some s' → B s')
    (hstep : ∀ s a, J s → ¬ B s → (¬ B (next step s a) ↔ P s a)) {s : S} (hs : J s) (h0 : ¬ B s)
    (σ : List A) : ¬ B (run step s σ) ↔ Along step P s σ := by
  rw [← holds_iff_along (I := fun s => ¬ B s) hJ hstep hs h0]
  constructor
  · intro h σ₁ σ₂ hσ hB
    refine h ?_
    rw [hσ, run_append]
    exact (run_invariant (I := fun s => J s ∧ B s)
      (fun s a s' hs h => ⟨hJ s a s' hs.1 h, hlasts s a s' hs.1 hs.2 h⟩)
      ⟨run_invariant hJ hs σ₁, hB⟩ σ₂).2
  · exact fun h => h σ [] (List.append_nil σ).symm

/-! ## What a run tells -/

section

variable {E P : Type*} (tell : S → A → Option E)

variable (step) in
/-- What the actions of a run tell, each at the state in which it is tried. -/
def events (s : S) : List A → List E
  | [] => []
  | a :: σ => (tell s a).toList ++ events (next step s a) σ

variable {tell}

theorem events_append (s : S) (σ τ : List A) :
    events step tell s (σ ++ τ) = events step tell s σ ++ events step tell (run step s σ) τ := by
  induction σ generalizing s with
  | nil => rfl
  | cons a σ ih => rw [List.cons_append, events, events, ih, List.append_assoc, run_cons]

/-- **A part of the state is folded over what a run tells** when every action does so. -/
theorem run_events {I : S → Prop} {C : S → A → Prop} {p : S → P} {f : P → E → P}
    (hI : ∀ s a s', I s → step a s = some s' → I s')
    (hpart : ∀ s a, I s → C s a → p (next step s a) = (tell s a).toList.foldl f (p s))
    {s : S} (hs : I s) {σ : List A} (h : Along step C s σ) :
    p (run step s σ) = (events step tell s σ).foldl f (p s) := by
  induction σ using List.reverseRecOn with
  | nil => rfl
  | append_singleton σ a ih =>
    obtain ⟨hσ, ha⟩ := along_concat.mp h
    rw [run_concat, hpart _ a (run_invariant hI hs σ) ha, ih hσ, events_append, List.foldl_append]
    simp [events]

end

/-! ## What every step of a run keeps -/

/-- What every step of a run keeps stays true in it. -/
theorem run_kept {P : S → Prop} {s : S} {σ τ ρ ν : List A} (h : ∀ σ₁ a σ₂, σ = σ₁ ++ a :: σ₂ →
      P (run step s σ₁) → P (run step s (σ₁ ++ [a])))
    (hσ : σ = τ ++ ρ ++ ν) (hP : P (run step s τ)) : P (run step s (τ ++ ρ)) := by
  induction ρ using List.reverseRecOn generalizing ν with
  | nil => rwa [List.append_nil]
  | append_singleton ρ a ih =>
    have hsplit : σ = τ ++ ρ ++ a :: ν := by simpa using hσ
    rw [← List.append_assoc]
    exact h (τ ++ ρ) a ν hsplit (ih hsplit)

/-- **What every step of a run keeps becomes true once.** -/
theorem becomes_once {P : S → Prop} {s : S} {σ σ₁ σ₂ τ₁ τ₂ : List A} {a b : A}
    (h : ∀ σ₁ a σ₂, σ = σ₁ ++ a :: σ₂ → P (run step s σ₁) → P (run step s (σ₁ ++ [a])))
    (hσ : σ = σ₁ ++ a :: σ₂) (hτ : σ = τ₁ ++ b :: τ₂) (ha : P (run step s (σ₁ ++ [a])))
    (hb : P (run step s (τ₁ ++ [b]))) (hna : ¬ P (run step s σ₁)) (hnb : ¬ P (run step s τ₁)) :
    σ₁ = τ₁ := by
  have later : ∀ (μ ν ρ : List A) (c : A), σ = μ ++ c :: (ν ++ ρ) → P (run step s (μ ++ [c])) →
      P (run step s (μ ++ c :: ν)) := by
    intro μ ν ρ c hμ hc
    have hsplit : σ = μ ++ [c] ++ ν ++ ρ := by simpa using hμ
    have := run_kept h hsplit hc
    simpa using this
  rcases List.append_eq_append_iff.mp (hσ.symm.trans hτ) with ⟨ν, rfl, hν⟩ | ⟨ν, rfl, hν⟩
  · cases ν with
    | nil => exact (List.append_nil σ₁).symm
    | cons c ν =>
      obtain ⟨rfl, rfl⟩ := List.cons.inj hν
      exact absurd (later σ₁ ν _ a hσ ha) hnb
  · cases ν with
    | nil => exact List.append_nil τ₁
    | cons c ν =>
      obtain ⟨rfl, rfl⟩ := List.cons.inj hν
      exact absurd (later τ₁ ν _ b hτ hb) hna

/-! ## The last action that made a property true -/

variable (step) in
/-- `a` made `P` true in the run, and `P` has been true ever since. -/
def LastInto (P : S → Prop) (s : S) (σ : List A) (a : A) : Prop :=
  ∃ τ₁ τ₂, σ = τ₁ ++ a :: τ₂ ∧ ¬ P (run step s τ₁) ∧
    ∀ τ, τ <+: τ₂ → P (run step s (τ₁ ++ a :: τ))

theorem lastInto_concat_self {P : S → Prop} {s : S} {σ : List A} {a : A}
    (hnot : ¬ P (run step s σ)) (hP : P (run step s (σ ++ [a]))) :
    LastInto step P s (σ ++ [a]) a := by
  refine ⟨σ, [], rfl, hnot, fun τ hτ => ?_⟩
  rw [List.prefix_nil.mp hτ]
  exact hP

theorem LastInto.concat {P : S → Prop} {s : S} {σ : List A} {a b : A}
    (h : LastInto step P s σ a) (hP : P (run step s (σ ++ [b]))) :
    LastInto step P s (σ ++ [b]) a := by
  obtain ⟨τ₁, τ₂, rfl, hnot, hτ₂⟩ := h
  refine ⟨τ₁, τ₂ ++ [b], by simp, hnot, fun τ hτ => ?_⟩
  rcases List.prefix_concat_iff.mp hτ with rfl | hτ
  · simpa using hP
  · exact hτ₂ τ hτ

/-- What has become true has been made true by a last action. -/
theorem exists_lastInto {P : S → Prop} {s : S} {σ : List A} (h0 : ¬ P s) (h : P (run step s σ)) :
    ∃ a, LastInto step P s σ a := by
  induction σ using List.reverseRecOn with
  | nil => exact absurd h h0
  | append_singleton σ b ih =>
    by_cases hσ : P (run step s σ)
    · obtain ⟨a, ha⟩ := ih hσ
      exact ⟨a, ha.concat h⟩
    · exact ⟨b, lastInto_concat_self hσ h⟩

/-- What is true no longer has been made false by an action. -/
theorem exists_undone {P : S → Prop} {s : S} {σ : List A} (h0 : P s) (h : ¬ P (run step s σ)) :
    ∃ σ₁ a σ₂, σ = σ₁ ++ a :: σ₂ ∧ P (run step s σ₁) ∧ ¬ P (run step s (σ₁ ++ [a])) := by
  obtain ⟨a, σ₁, σ₂, rfl, hbefore, hafter⟩ := exists_lastInto (P := fun s => ¬ P s)
    (not_not.mpr h0) h
  exact ⟨σ₁, a, σ₂, rfl, not_not.mp hbefore, hafter [] List.nil_prefix⟩

/-- **A property stays unless an action ends it**, where an invariant tells which actions do. -/
theorem run_unless {I P : S → Prop} {Q : S → A → Prop}
    (hinv : ∀ s a s', I s → step a s = some s' → I s')
    (hends : ∀ s a s', I s → step a s = some s' → P s → ¬ P s' → Q s a) {s : S} (h0 : I s)
    (h : P s) (σ : List A) :
    P (run step s σ) ∨ ∃ σ₁ a σ₂, σ = σ₁ ++ a :: σ₂ ∧ Q (run step s σ₁) a := by
  by_contra hno
  obtain ⟨hend, hnone⟩ := not_or.mp hno
  obtain ⟨σ₁, a, σ₂, rfl, hbefore, hafter⟩ := exists_undone h hend
  refine hnone ⟨σ₁, a, σ₂, rfl, ?_⟩
  rw [run_concat] at hafter
  rcases next_cases step (run step s σ₁) a with hstep | ⟨-, hstep⟩
  · exact hends _ a _ (run_invariant hinv h0 σ₁) hstep hbefore hafter
  · rw [hstep] at hafter
    exact absurd hbefore hafter

/-- **There is one last action** that made a property true. -/
theorem LastInto.unique {P : S → Prop} {s : S} {σ : List A} {a b : A}
    (ha : LastInto step P s σ a) (hb : LastInto step P s σ b) : a = b := by
  obtain ⟨τ₁, τ₂, rfl, hnot, hτ₂⟩ := ha
  obtain ⟨ν₁, ν₂, heq, hnot', hν₂⟩ := hb
  rcases List.append_eq_append_iff.mp heq with ⟨c, rfl, hc⟩ | ⟨c, rfl, hc⟩
  · cases c with
    | nil => exact (List.cons.inj hc).1
    | cons d c =>
      obtain ⟨rfl, rfl⟩ := List.cons.inj hc
      exact absurd (hτ₂ c (List.prefix_append _ _)) hnot'
  · cases c with
    | nil => exact (List.cons.inj hc).1.symm
    | cons d c =>
      obtain ⟨rfl, rfl⟩ := List.cons.inj hc
      exact absurd (hν₂ c (List.prefix_append _ _)) hnot

/-! ## The steps of one owner -/

/-- **A run, and what of it one owner does alone**, stay related: the steps of others are not
noticed, and the owner's can be made in both. -/
theorem run_filter {R : S → S → Prop} {I : S → Prop} {own : A → Bool}
    (hI : ∀ s a s', I s → step a s = some s' → I s')
    (hother : ∀ s t a s', I s → I t → R s t → own a = false → step a s = some s' → R s' t)
    (hown : ∀ s t a s', I s → I t → R s t → own a = true → step a s = some s' →
      ∃ t', step a t = some t' ∧ R s' t') {s t : S} (hs : I s) (ht : I t) (h : R s t)
    (σ : List A) : R (run step s σ) (run step t ((taken step s σ).filter own)) := by
  induction σ generalizing s t with
  | nil => exact h
  | cons a σ ih =>
    cases hstep : step a s with
    | none =>
      have htaken : taken step s (a :: σ) = taken step s σ := by simp [taken, hstep]
      rw [htaken]
      show R (run step (next step s a) σ) _
      rw [next_none hstep]
      exact ih hs ht h
    | some s' =>
      have htaken : taken step s (a :: σ) = a :: taken step s' σ := by simp [taken, hstep]
      rw [htaken]
      show R (run step (next step s a) σ) _
      rw [next_some hstep, List.filter_cons]
      cases ha : own a with
      | false => exact ih (hI s a s' hs hstep) ht (hother s t a s' hs ht h ha hstep)
      | true =>
        obtain ⟨t', hstep', h'⟩ := hown s t a s' hs ht h ha hstep
        show R _ (run step (next step t a) _)
        rw [next_some hstep']
        exact ih (hI s a s' hs hstep) (hI t a t' ht hstep') h'

end CondMachine
