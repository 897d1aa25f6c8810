import ScanPlatform.Base.CondMachine

/-!
# Records that close once

A record of a machine is open until a step closes it. Whether it is open is read off a part of the
state, and a counter tells how often it has been closed.

* `ClosesOnce`, `ToldOnce`: in a run, the record leaves being open once at most, and its part stays
  from then on; the counter tells of one close at most;
* `FindsOpen`: a step that closes the record finds it open;
* **`closesOnce_of_along`**, **`toldOnce_of_along`**: the runs whose steps find it open;
* **`along_of_toldOnce`**: in the others the counter tells of two closes.
-/

set_option autoImplicit false

namespace Closing

open CondMachine

variable {S A P : Type*} (step : A → S → Option S)

/-- The record leaves being open once at most, and its part stays from then on. -/
structure ClosesOnce (isOpen : S → Prop) (part : S → P) (s : S) (σ : List A) : Prop where
  leaves : ∀ τ a ρ, τ ++ a :: ρ <+: σ → isOpen (run step s τ) →
    ¬ isOpen (run step s (τ ++ [a])) → ¬ isOpen (run step s (τ ++ a :: ρ))
  kept : ∀ τ ρ, τ ++ ρ <+: σ → ¬ isOpen (run step s τ) →
    part (run step s (τ ++ ρ)) = part (run step s τ)

/-- The counter tells of one close at most. -/
structure ToldOnce (isOpen : S → Prop) (told : S → ℕ) (s : S) (σ : List A) : Prop where
  same : ∀ τ, τ <+: σ → isOpen (run step s τ) ∨ ¬ isOpen s → told (run step s τ) = told s
  once : ∀ τ, τ <+: σ → isOpen s → ¬ isOpen (run step s τ) →
    told (run step s τ) = told s + 1

/-- A step that closes the record finds it open. -/
def FindsOpen (isOpen : S → Prop) (closes : S → A → Prop) (s : S) (a : A) : Prop :=
  closes s a → isOpen s

instance (isOpen : S → Prop) (closes : S → A → Prop) (s : S) (a : A) [Decidable (closes s a)]
    [Decidable (isOpen s)] : Decidable (FindsOpen isOpen closes s a) :=
  inferInstanceAs (Decidable (closes s a → isOpen s))

section

variable {step} {J isOpen : S → Prop} {closes : S → A → Prop} {part : S → P} {told : S → ℕ} {s : S}
  {σ : List A}

/-- A record that is closed stays as it is. -/
theorem run_closed (hJ : ∀ s a s', J s → step a s = some s' → J s')
    (hquiet : ∀ s a s', J s → step a s = some s' → ¬ closes s a → part s' = part s)
    (hopen : ∀ s s', part s = part s' → isOpen s → isOpen s') (hs : J s) (hclosed : ¬ isOpen s)
    (h : Along step (FindsOpen isOpen closes) s σ) : part (run step s σ) = part s := by
  suffices hinv : J (run step s σ) ∧ part (run step s σ) = part s from hinv.2
  refine run_invariant_along (P := FindsOpen isOpen closes)
    (I := fun s' => J s' ∧ part s' = part s) ?_ ⟨hs, rfl⟩ h
  rintro s₁ a s₂ ⟨hs₁, hpart⟩ hfinds hstep
  have hcloses : ¬ closes s₁ a := fun hc => hclosed (hopen _ _ hpart (hfinds hc))
  exact ⟨hJ s₁ a s₂ hs₁ hstep, (hquiet s₁ a s₂ hs₁ hstep hcloses).trans hpart⟩

/-- **A record closes once** when every step that closes it finds it open. -/
theorem closesOnce_of_along (hJ : ∀ s a s', J s → step a s = some s' → J s')
    (hquiet : ∀ s a s', J s → step a s = some s' → ¬ closes s a → part s' = part s)
    (hopen : ∀ s s', part s = part s' → isOpen s → isOpen s') (hs : J s)
    (h : Along step (FindsOpen isOpen closes) s σ) : ClosesOnce step isOpen part s σ := by
  have hkept : ∀ τ ρ, τ ++ ρ <+: σ → ¬ isOpen (run step s τ) →
      part (run step s (τ ++ ρ)) = part (run step s τ) := by
    rintro τ ρ ⟨ν, rfl⟩ hclosed
    rw [run_append]
    exact run_closed hJ hquiet hopen (run_invariant hJ hs τ) hclosed h.prefix.drop
  refine ⟨fun τ a ρ hσ _ hclosed hreopened => ?_, hkept⟩
  have hpart := hkept (τ ++ [a]) ρ (by simpa using hσ) hclosed
  rw [List.append_assoc, List.singleton_append] at hpart
  exact hclosed (hopen _ _ hpart hreopened)

/-- **The counter tells of one close at most** when every step that closes the record finds it
open. -/
theorem toldOnce_of_along (hJ : ∀ s a s', J s → step a s = some s' → J s')
    (hquiet : ∀ s a s', J s → step a s = some s' → ¬ closes s a →
      (isOpen s' ↔ isOpen s) ∧ told s' = told s)
    (hcloses : ∀ s a, J s → closes s a →
      ¬ isOpen (next step s a) ∧ told (next step s a) = told s + 1) (hs : J s)
    (h : Along step (FindsOpen isOpen closes) s σ) : ToldOnce step isOpen told s σ := by
  have hinv : ∀ τ, τ <+: σ → J (run step s τ) ∧ (isOpen (run step s τ) → isOpen s) ∧
      ((isOpen (run step s τ) ∨ ¬ isOpen s) → told (run step s τ) = told s) ∧
      (isOpen s → ¬ isOpen (run step s τ) → told (run step s τ) = told s + 1) := by
    rintro τ ⟨ρ, rfl⟩
    refine run_invariant_along (P := FindsOpen isOpen closes) (I := fun s' => J s' ∧
      (isOpen s' → isOpen s) ∧ ((isOpen s' ∨ ¬ isOpen s) → told s' = told s) ∧
      (isOpen s → ¬ isOpen s' → told s' = told s + 1)) ?_
      ⟨hs, id, fun _ => rfl, fun ho hc => absurd ho hc⟩ h.prefix
    rintro s₁ a s₂ ⟨hs₁, hbefore, hsame, honce⟩ hfinds hstep
    refine ⟨hJ s₁ a s₂ hs₁ hstep, ?_⟩
    by_cases hc : closes s₁ a
    · -- the step closes the record, which is open and has been so from the start
      obtain ⟨hclosed, htold⟩ := hcloses s₁ a hs₁ hc
      rw [next_some hstep] at hclosed htold
      have hopen := hbefore (hfinds hc)
      refine ⟨fun ho => absurd ho hclosed, fun h => ?_, fun _ _ => ?_⟩
      · exact h.elim (fun ho => absurd ho hclosed) fun hn => absurd hopen hn
      · rw [htold, hsame (.inl (hfinds hc))]
    · obtain ⟨hiff, htold⟩ := hquiet s₁ a s₂ hs₁ hstep hc
      rw [hiff, htold]
      exact ⟨hbefore, hsame, honce⟩
  exact ⟨fun τ hτ => (hinv τ hτ).2.2.1, fun τ hτ => (hinv τ hτ).2.2.2⟩

/-- **Every step that closes the record finds it open** when the counter tells of one close at
most. -/
theorem along_of_toldOnce (hJ : ∀ s a s', J s → step a s = some s' → J s')
    (hcloses : ∀ s a, J s → closes s a →
      ¬ isOpen (next step s a) ∧ told (next step s a) = told s + 1) (hs : J s)
    (h : ToldOnce step isOpen told s σ) : Along step (FindsOpen isOpen closes) s σ := by
  intro σ₁ a σ₂ hσ hc
  by_contra hclosed
  obtain ⟨hstill, htold⟩ := hcloses _ a (run_invariant hJ hs σ₁) hc
  have hprefix₁ : σ₁ <+: σ := ⟨a :: σ₂, hσ.symm⟩
  have hprefix₂ : σ₁ ++ [a] <+: σ := ⟨σ₂, by simp [hσ]⟩
  have hafter : run step s (σ₁ ++ [a]) = next step (run step s σ₁) a := run_concat s σ₁ a
  rw [← hafter] at hstill htold
  -- the record is closed before the step and after it, and the counter has gone up
  by_cases ho : isOpen s
  · have h₁ := h.once σ₁ hprefix₁ ho hclosed
    have h₂ := h.once (σ₁ ++ [a]) hprefix₂ ho hstill
    omega
  · have h₁ := h.same σ₁ hprefix₁ (.inr ho)
    have h₂ := h.same (σ₁ ++ [a]) hprefix₂ (.inr ho)
    omega

end

end Closing
