import Mathlib.Data.List.Basic

/-!
# Answers that the state does not decide

A computation with a state may look things up in it and write to it. `Returns I x a` says that from
every state that satisfies the invariant `I` it answers `a`, and that `I` holds afterwards.

* `Returns.pure`, `Returns.bind`, `Returns.anyM`, `Returns.mapM`, `Returns.foldlM`: the rules;
* **`Returns.same`**: two states that satisfy the invariant give the same answer.
-/

set_option autoImplicit false

variable {σ α β : Type} {I : σ → Prop}

/-- From every state with `I` the computation answers `a`, in a state with `I`. -/
def Returns (I : σ → Prop) (x : StateM σ α) (a : α) : Prop :=
  ∀ s, I s → (x.run s).1 = a ∧ I (x.run s).2

namespace Returns

theorem pure (a : α) : Returns I (pure a) a := fun _ hs => ⟨rfl, hs⟩

theorem bind {x : StateM σ α} {f : α → StateM σ β} {a : α} {b : β} (hx : Returns I x a)
    (hf : Returns I (f a) b) : Returns I (x >>= f) b := by
  intro s hs
  obtain ⟨ha, hs'⟩ := hx s hs
  have hrun : (x >>= f).run s = (f a).run (x.run s).2 := by
    rw [← ha]
    rfl
  rw [hrun]
  exact hf _ hs'

/-- An answer of yes or no, as a proposition. -/
theorem decide {x : StateM σ Bool} {b : Bool} {P : Prop} [Decidable P] (hx : Returns I x b)
    (hb : b = true ↔ P) : Returns I x (decide P) := by
  have hdecide : Decidable.decide P = b := by
    cases b with
    | true => exact decide_eq_true (hb.mp rfl)
    | false => exact decide_eq_false fun hP => Bool.noConfusion (hb.mpr hP)
  rw [hdecide]
  exact hx

/-- An answer that is worked on afterwards. -/
theorem map {x : StateM σ α} {a : α} (f : α → β) (hx : Returns I x a) :
    Returns I (x >>= fun a => Pure.pure (f a)) (f a) := hx.bind (pure (f a))

/-- A loop that stops at the first `true`. -/
theorem anyM {p : α → StateM σ Bool} {q : α → Bool} (h : ∀ a, Returns I (p a) (q a))
    (l : List α) : Returns I (l.anyM p) (l.any q) := by
  induction l with
  | nil => exact pure false
  | cons a l ih =>
    refine (h a).bind ?_
    rw [List.any_cons]
    cases q a with
    | true => exact pure true
    | false => exact ih

theorem mapM {f : α → StateM σ β} {g : α → β} (h : ∀ a, Returns I (f a) (g a)) (l : List α) :
    Returns I (l.mapM f) (l.map g) := by
  induction l with
  | nil => exact pure []
  | cons a l ih =>
    rw [List.mapM_cons, List.map_cons]
    exact (h a).bind (ih.map (g a :: ·))

theorem foldlM {f : β → α → StateM σ β} {g : β → α → β} (h : ∀ b a, Returns I (f b a) (g b a))
    (l : List α) (b : β) : Returns I (l.foldlM f b) (l.foldl g b) := by
  induction l generalizing b with
  | nil => exact pure b
  | cons a l ih =>
    rw [List.foldlM_cons, List.foldl_cons]
    exact (h b a).bind (ih _)

/-- **The state makes no difference** to the answer. -/
theorem same {x : StateM σ α} {a : α} (h : Returns I x a) {s s' : σ} (hs : I s) (hs' : I s') :
    (x.run s).1 = (x.run s').1 := (h s hs).1.trans (h s' hs').1.symm

end Returns
