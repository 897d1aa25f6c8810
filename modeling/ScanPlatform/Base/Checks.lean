import Mathlib.Data.List.Basic

/-!
# Sequences of checks

A check is a computation in `Except`. What a sequence of checks has passed when it ends in a value.

* `bind_eq_ok`, `bind_eq_error`: two steps in a row;
* `forM_eq_ok`, `forM_eq_error`: one check for every element of a list;
* `map_eq_ok`, `toOption_eq_some`: a value that is mapped, or of which only the success counts;
* `mapM_cons_eq_ok`, `mapM_isOk`, `mem_of_mapM_eq_ok`, `mem_mapM_of_mem`: what is collected of the
  elements of a list.
-/

set_option autoImplicit false

namespace Checks

variable {ε α β : Type}

theorem bind_eq_ok {x : Except ε α} {f : α → Except ε β} {b : β} :
    (x >>= f) = .ok b ↔ ∃ a, x = .ok a ∧ f a = .ok b := by
  cases x with
  | error e => simp [bind, Except.bind]
  | ok a => simp [bind, Except.bind]

theorem bind_eq_error {x : Except ε α} {f : α → Except ε β} {e : ε} :
    (x >>= f) = .error e ↔ x = .error e ∨ ∃ a, x = .ok a ∧ f a = .error e := by
  cases x with
  | error e => simp [bind, Except.bind]
  | ok a => simp [bind, Except.bind]

theorem forM_eq_ok {l : List α} {f : α → Except ε Unit} :
    l.forM f = .ok () ↔ ∀ a ∈ l, f a = .ok () := by
  induction l with
  | nil => simp [List.forM, pure, Except.pure]
  | cons a l ih =>
    rw [List.forall_mem_cons, ← ih]
    simp only [List.forM, bind_eq_ok]
    constructor
    · rintro ⟨⟨⟩, ha, hl⟩
      exact ⟨ha, hl⟩
    · rintro ⟨ha, hl⟩
      exact ⟨(), ha, hl⟩

theorem forM_eq_error {l : List α} {f : α → Except ε Unit} {e : ε} (h : l.forM f = .error e) :
    ∃ a ∈ l, f a = .error e := by
  induction l with
  | nil => cases h
  | cons a l ih =>
    rcases bind_eq_error.mp h with ha | ⟨-, -, hl⟩
    · exact ⟨a, List.mem_cons_self, ha⟩
    · obtain ⟨a', ha', hf⟩ := ih hl
      exact ⟨a', List.mem_cons_of_mem _ ha', hf⟩

theorem map_eq_ok {x : Except ε α} {f : α → β} {b : β} :
    x.map f = .ok b ↔ ∃ a, x = .ok a ∧ f a = b := by
  cases x <;> simp [Except.map]

theorem toOption_eq_some {x : Except ε α} {a : α} : x.toOption = some a ↔ x = .ok a := by
  cases x <;> simp [Except.toOption]

theorem mapM_cons_eq_ok {f : α → Except ε β} {a : α} {l : List α} {bs : List β} :
    (a :: l).mapM f = .ok bs ↔ ∃ b bs', f a = .ok b ∧ l.mapM f = .ok bs' ∧ b :: bs' = bs := by
  rw [List.mapM_cons]
  constructor
  · intro h
    obtain ⟨b, hb, h⟩ := bind_eq_ok.mp h
    obtain ⟨bs', hbs', h⟩ := bind_eq_ok.mp h
    cases h
    exact ⟨b, bs', hb, hbs', rfl⟩
  · rintro ⟨b, bs', hb, hbs', rfl⟩
    exact bind_eq_ok.mpr ⟨b, hb, bind_eq_ok.mpr ⟨bs', hbs', rfl⟩⟩

/-- What a `mapM` collects is what the function gives of the elements. -/
theorem mem_of_mapM_eq_ok {f : α → Except ε β} {l : List α} {bs : List β}
    (h : l.mapM f = .ok bs) : ∀ b ∈ bs, ∃ a ∈ l, f a = .ok b := by
  induction l generalizing bs with
  | nil =>
    intro b hb
    cases h
    simp at hb
  | cons a l ih =>
    obtain ⟨b₀, bs₀, hb₀, hbs₀, rfl⟩ := mapM_cons_eq_ok.mp h
    intro b hb
    rcases List.mem_cons.mp hb with rfl | hb
    · exact ⟨a, List.mem_cons_self, hb₀⟩
    · obtain ⟨a', ha', hf⟩ := ih hbs₀ b hb
      exact ⟨a', List.mem_cons_of_mem _ ha', hf⟩

/-- Every element gives something that the `mapM` collects. -/
theorem mem_mapM_of_mem {f : α → Except ε β} {l : List α} {bs : List β} (h : l.mapM f = .ok bs) :
    ∀ a ∈ l, ∃ b ∈ bs, f a = .ok b := by
  induction l generalizing bs with
  | nil => exact fun a ha => absurd ha List.not_mem_nil
  | cons a l ih =>
    obtain ⟨b₀, bs₀, hb₀, hbs₀, rfl⟩ := mapM_cons_eq_ok.mp h
    intro a' ha'
    rcases List.mem_cons.mp ha' with rfl | ha'
    · exact ⟨b₀, List.mem_cons_self, hb₀⟩
    · obtain ⟨b, hb, hf⟩ := ih hbs₀ a' ha'
      exact ⟨b, List.mem_cons_of_mem _ hb, hf⟩

/-- A `mapM` succeeds when the function does at every element. -/
theorem mapM_isOk {f : α → Except ε β} {l : List α} :
    (∃ bs, l.mapM f = .ok bs) ↔ ∀ a ∈ l, ∃ b, f a = .ok b := by
  constructor
  · rintro ⟨bs, h⟩ a ha
    obtain ⟨b, -, hb⟩ := mem_mapM_of_mem h a ha
    exact ⟨b, hb⟩
  · intro h
    induction l with
    | nil => exact ⟨[], rfl⟩
    | cons a l ih =>
      obtain ⟨b, hb⟩ := h a List.mem_cons_self
      obtain ⟨bs, hbs⟩ := ih fun a' ha' => h a' (List.mem_cons_of_mem _ ha')
      refine ⟨b :: bs, ?_⟩
      rw [List.mapM_cons, hb]
      exact bind_eq_ok.mpr ⟨b, rfl, bind_eq_ok.mpr ⟨bs, hbs, rfl⟩⟩

end Checks
