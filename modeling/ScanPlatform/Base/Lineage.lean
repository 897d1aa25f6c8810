import Mathlib.Data.List.Nodup

/-!
# Lineages

Things are made one from another, and every link is kept. How far what was made from one of them
lies below it, and what one more link changes.

* `Steps`, `Descends`: what is reached in so many links, and in any number;
* `Steps.mono`, **`Steps.of_concat`**: more links, and one more link;
* `NoFork`, **`NoFork.unique`**: below something without forks there is one thing at each depth;
* **`comparable`**: of two descendants in a lineage without any fork, one descends from the other.
-/

set_option autoImplicit false

namespace Lineage

variable {α : Type*} {links links' : List (α × α)} {a b c x y : α} {j k : ℕ}

/-- `b` is reached from `a` in `k` links. -/
def Steps (links : List (α × α)) : ℕ → α → α → Prop
  | 0, a, b => b = a
  | k + 1, a, c => ∃ b, Steps links k a b ∧ (b, c) ∈ links

def Descends (links : List (α × α)) (a b : α) : Prop := ∃ k, Steps links k a b

theorem Descends.refl (links : List (α × α)) (a : α) : Descends links a a := ⟨0, rfl⟩

theorem Steps.mono (h : Steps links k a b) (hsub : links ⊆ links') : Steps links' k a b := by
  induction k generalizing b with
  | zero => exact h
  | succ k ih =>
    obtain ⟨c, hc, hlink⟩ := h
    exact ⟨c, ih hc, hsub hlink⟩

theorem Descends.mono (h : Descends links a b) (hsub : links ⊆ links') : Descends links' a b :=
  h.imp fun _ hk => hk.mono hsub

theorem Descends.step (h : Descends links a b) (hlink : (b, c) ∈ links) : Descends links a c := by
  obtain ⟨k, hk⟩ := h
  exact ⟨k + 1, b, hk, hlink⟩

/-- What is reached through one more link has passed its beginning. -/
theorem Steps.of_concat (h : Steps (links ++ [(x, y)]) k a b) :
    Steps links k a b ∨ ∃ j < k, Steps links j a x := by
  induction k generalizing b with
  | zero => exact .inl h
  | succ k ih =>
    obtain ⟨c, hc, hlink⟩ := h
    rcases ih hc with hc | ⟨j, hj, hx⟩
    · rcases List.mem_append.mp hlink with hlink | hlink
      · exact .inl ⟨c, hc, hlink⟩
      · cases List.mem_singleton.mp hlink
        exact .inr ⟨k, k.lt_succ_self, hc⟩
    · exact .inr ⟨j, by omega, hx⟩

theorem Steps.trans (hab : Steps links j a b) (hbc : Steps links k b c) :
    Steps links (j + k) a c := by
  induction k generalizing c with
  | zero =>
    cases hbc
    exact hab
  | succ k ih =>
    obtain ⟨d, hd, hlink⟩ := hbc
    exact ⟨d, ih hd, hlink⟩

theorem Descends.trans (hab : Descends links a b) (hbc : Descends links b c) :
    Descends links a c := by
  obtain ⟨j, hj⟩ := hab
  obtain ⟨k, hk⟩ := hbc
  exact ⟨j + k, hj.trans hk⟩

/-- The two parts of a way. -/
theorem Steps.split (h : Steps links (j + k) a c) : ∃ b, Steps links j a b ∧ Steps links k b c := by
  induction k generalizing c with
  | zero => exact ⟨c, h, rfl⟩
  | succ k ih =>
    obtain ⟨d, hd, hlink⟩ := h
    obtain ⟨b, hb, hbd⟩ := ih hd
    exact ⟨b, hb, d, hbd, hlink⟩

/-- **A set that holds what is reached in up to `n` links**, and nothing else, holds everything. -/
theorem mem_of_closed {seen : List α} {n : ℕ} (hdepth : ∀ b ∈ seen, ∃ j < n, Steps links j a b)
    (hlevel : ∀ i < n, ∀ b, Steps links i a b → b ∈ seen)
    (hend : ∀ b, Steps links n a b → b ∈ seen) (h : Steps links k a b) : b ∈ seen := by
  induction k using Nat.strongRecOn with
  | _ k ih =>
    rcases Nat.lt_or_ge k n with hlt | hge
    · exact hlevel k hlt b h
    · obtain ⟨m, rfl⟩ := Nat.exists_eq_add_of_le hge
      obtain ⟨c, hc, hcb⟩ := h.split
      obtain ⟨j, hj, hjc⟩ := hdepth c (hend c hc)
      exact ih (j + m) (by omega) (hjc.trans hcb)

/-- Nothing at or below `a` has two successors. -/
def NoFork (links : List (α × α)) (a : α) : Prop :=
  ∀ b, Descends links a b → ∀ c c', (b, c) ∈ links → (b, c') ∈ links → c = c'

theorem NoFork.anti (h : NoFork links' a) (hsub : links ⊆ links') : NoFork links a :=
  fun b hb c c' hc hc' => h b (hb.mono hsub) c c' (hsub hc) (hsub hc')

/-- **One thing at each depth.** -/
theorem NoFork.unique (h : NoFork links a) (hb : Steps links k a b) (hc : Steps links k a c) :
    b = c := by
  induction k generalizing b c with
  | zero => rw [hb, hc]
  | succ k ih =>
    obtain ⟨b', hb', hlink⟩ := hb
    obtain ⟨c', hc', hlink'⟩ := hc
    obtain rfl := ih hb' hc'
    exact h b' ⟨k, hb'⟩ b c hlink hlink'

theorem noFork_of_nodup (h : (links.map Prod.fst).Nodup) (a : α) : NoFork links a := by
  intro b _ c c' hc hc'
  have hpair := List.inj_on_of_nodup_map h hc hc' rfl
  exact congrArg Prod.snd hpair

/-- The rest of the way to what lies deeper. -/
theorem NoFork.rest (h : NoFork links a) (hb : Steps links j a b) (hc : Steps links (j + k) a c) :
    Steps links k b c := by
  induction k generalizing c with
  | zero => exact h.unique hc hb
  | succ k ih =>
    obtain ⟨d, hd, hlink⟩ := hc
    exact ⟨d, ih hd, hlink⟩

/-- **Of two descendants one descends from the other**, where there is no fork. -/
theorem NoFork.comparable (h : NoFork links a) (hb : Descends links a b)
    (hc : Descends links a c) : Descends links b c ∨ Descends links c b := by
  obtain ⟨j, hj⟩ := hb
  obtain ⟨k, hk⟩ := hc
  rcases Nat.le_total j k with hle | hle
  · obtain ⟨i, rfl⟩ := Nat.exists_eq_add_of_le hle
    exact .inl ⟨i, h.rest hj hk⟩
  · obtain ⟨i, rfl⟩ := Nat.exists_eq_add_of_le hle
    exact .inr ⟨i, h.rest hk hj⟩

/-- What has a descendant other than itself has a successor. -/
theorem Descends.eq_or_link (h : Descends links a b) : b = a ∨ ∃ c, (a, c) ∈ links := by
  obtain ⟨k, hk⟩ := h
  induction k generalizing b with
  | zero => exact .inl hk
  | succ k ih =>
    obtain ⟨c, hc, hlink⟩ := hk
    rcases ih hc with rfl | hsome
    · exact .inr ⟨b, hlink⟩
    · exact .inr hsome

end Lineage
