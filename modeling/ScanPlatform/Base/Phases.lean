import ScanPlatform.Base.CondMachine
import ScanPlatform.Base.Table

/-!
# Sessions in phases

Sessions that go from phase to phase over what they share. A phase is one atomic step: it reads what
is shared, may change it, and leads to the next phase or to the end of the session.

* `System`, `Action`, `act`: the sessions in progress, and the steps that they take;
* `act_cases`, `free_of_not_called`: what a step can do, and numbers that stay free;
* `Fit`, **`Fit.act`**: what is shared keeps an invariant, and every session in progress fits it,
  when a phase changes it only as the other sessions allow for;
* `Owed`, `Owed.call`, `Owed.advance`: what sessions in progress still have to deal with.
-/

set_option autoImplicit false

namespace Phases

structure System (D S : Type) where
  db : D
  sessions : Table ℕ S

inductive Action (C I : Type) where
  | call (n : ℕ) (c : C)
  | advance (n : ℕ) (i : I)
  | drop (n : ℕ)

section

variable {C D I S : Type}

/-- Nobody has begun. -/
def System.init (db : D) : System D S := ⟨db, fun _ => none⟩

/-- A session begins under a free number, goes through a phase with an input of the moment, or is
given up. -/
def act (start : C → S) (advance : I → D → S → D × Option S) :
    Action C I → System D S → Option (System D S)
  | .call n c, s =>
    if (s.sessions n).isNone then some { s with sessions := s.sessions.set n (start c) } else none
  | .advance n i, s => (s.sessions n).map fun x =>
    ⟨(advance i s.db x).1, Function.update s.sessions n (advance i s.db x).2⟩
  | .drop n, s => some { s with sessions := Function.update s.sessions n none }

variable {start : C → S} {advance : I → D → S → D × Option S} {a : Action C I} {s s' : System D S}

/-- **What a step can do.** -/
theorem act_cases (h : act start advance a s = some s') :
    (∃ n c, a = .call n c ∧ s.sessions n = none ∧
      s' = { s with sessions := s.sessions.set n (start c) }) ∨
    (∃ n i x, a = .advance n i ∧ s.sessions n = some x ∧
      s' = ⟨(advance i s.db x).1, Function.update s.sessions n (advance i s.db x).2⟩) ∨
    ∃ n, a = .drop n ∧ s' = { s with sessions := Function.update s.sessions n none } := by
  cases a with
  | call n c =>
    obtain ⟨hfree, rfl⟩ := CondMachine.guarded_eq_some.mp h
    exact .inl ⟨n, c, rfl, Option.isNone_iff_eq_none.mp hfree, rfl⟩
  | advance n i =>
    obtain ⟨x, hx, rfl⟩ := Option.map_eq_some_iff.mp h
    exact .inr (.inl ⟨n, i, x, rfl, hx, rfl⟩)
  | drop n => exact .inr (.inr ⟨n, rfl, (Option.some.inj h).symm⟩)

/-- The phase that a session goes through. -/
theorem next_advance {n : ℕ} {x : S} (i : I) (hx : s.sessions n = some x) :
    CondMachine.next (act start advance) s (.advance n i) =
      ⟨(advance i s.db x).1, Function.update s.sessions n (advance i s.db x).2⟩ :=
  CondMachine.next_some (by rw [act, hx, Option.map_some])

/-- A free number stays free unless a session begins under it. -/
theorem free_step {n : ℕ} (h : act start advance a s = some s') (hfree : s.sessions n = none)
    (ha : ∀ c, a ≠ .call n c) : s'.sessions n = none := by
  rcases act_cases h with ⟨m, c, rfl, -, rfl⟩ | ⟨m, i, x, -, hm, rfl⟩ | ⟨m, -, rfl⟩
  · have hne : n ≠ m := fun heq => ha c (by rw [heq])
    simpa [Table.set_apply, hne] using hfree
  · have hne : n ≠ m := by
      rintro rfl
      rw [hfree] at hm
      cases hm
    simpa [Function.update_of_ne hne] using hfree
  · by_cases hne : n = m
    · simp [hne]
    · simpa [Function.update_of_ne hne] using hfree

theorem free_of_not_called {n : ℕ} (h0 : s.sessions n = none) {σ : List (Action C I)}
    (hσ : ∀ c, .call n c ∉ σ) : (CondMachine.run (act start advance) s σ).sessions n = none := by
  induction σ using List.reverseRecOn with
  | nil => exact h0
  | append_singleton σ a ih =>
    have hfree := ih fun c hc => hσ c (List.mem_append_left _ hc)
    rw [CondMachine.run_concat]
    rcases CondMachine.next_cases (act start advance) (CondMachine.run (act start advance) s σ) a
      with h | ⟨-, h⟩
    · refine free_step h hfree fun c heq => hσ c ?_
      rw [heq]
      exact List.mem_append_right _ (List.mem_singleton_self _)
    · rw [h]
      exact hfree

/-! ## Invariants -/

/-- What is shared satisfies `J`, and every session in progress fits it. -/
structure Fit (J : D → Prop) (F : D → S → Prop) (s : System D S) : Prop where
  inv : J s.db
  fits : ∀ n x, s.sessions n = some x → F s.db x

variable {J : D → Prop} {F : D → S → Prop}

theorem Fit.init {db : D} (h : J db) : Fit J F (System.init db) := ⟨h, nofun⟩

/-- **The invariant is kept** when sessions begin as they fit, a phase leads to one that fits, and
it changes what is shared as `R` says, which the other sessions allow for. -/
theorem Fit.act {R : D → D → Prop} (hs : Fit J F s) (hstart : ∀ c, F s.db (start c))
    (hadvance : ∀ n i x, a = .advance n i → s.sessions n = some x →
      J (advance i s.db x).1 ∧ R s.db (advance i s.db x).1 ∧
        ∀ x' ∈ (advance i s.db x).2, F (advance i s.db x).1 x')
    (hstable : ∀ x d, F s.db x → R s.db d → F d x)
    (h : act start advance a s = some s') : Fit J F s' := by
  rcases act_cases h with ⟨n, c, -, -, rfl⟩ | ⟨n, i, x, rfl, hx, rfl⟩ | ⟨n, -, rfl⟩
  · refine ⟨hs.inv, fun m y hy => ?_⟩
    simp only [Table.set_apply] at hy
    split_ifs at hy with hm
    · cases hy
      exact hstart c
    · exact hs.fits m y hy
  · obtain ⟨hJ, hR, hnext⟩ := hadvance n i x rfl hx
    refine ⟨hJ, fun m y hy => ?_⟩
    by_cases hm : m = n
    · simp only [hm, Function.update_self] at hy
      exact hnext y hy
    · simp only [Function.update_of_ne hm] at hy
      exact hstable y _ (hs.fits m y hy) hR
  · refine ⟨hs.inv, fun m y hy => ?_⟩
    by_cases hm : m = n
    · simp only [hm, Function.update_self] at hy
      cases hy
    · simp only [Function.update_of_ne hm] at hy
      exact hs.fits m y hy

end

/-! ## What is still to be dealt with -/

section

variable {D S K : Type} {duty : S → K → Prop} {s : System D S} {k : K}

/-- The sessions without one that is given up. -/
def System.without (s : System D S) (n : ℕ) : System D S :=
  { s with sessions := Function.update s.sessions n none }

/-- A session in progress has to deal with `k`. -/
def Owed (duty : S → K → Prop) (s : System D S) (k : K) : Prop :=
  ∃ n x, s.sessions n = some x ∧ duty x k

theorem not_owed (hquiet : ∀ n, s.sessions n = none) : ¬ Owed duty s k := by
  rintro ⟨n, x, hx, -⟩
  rw [hquiet n] at hx
  cases hx

theorem Owed.call (h : Owed duty s k) {n : ℕ} (hfree : s.sessions n = none) (x : S) :
    Owed duty { s with sessions := s.sessions.set n x } k := by
  obtain ⟨m, y, hy, hduty⟩ := h
  have hne : m ≠ n := by
    rintro rfl
    rw [hfree] at hy
    cases hy
  exact ⟨m, y, by simpa [Table.set_apply, hne] using hy, hduty⟩

/-- **What is owed stays owed** when a phase leads to one with the same duty. -/
theorem Owed.advance (h : Owed duty s k) {n : ℕ} {x : S} (hx : s.sessions n = some x)
    {next : Option S} (hkept : duty x k → ∃ x' ∈ next, duty x' k) (db : D) :
    Owed duty ⟨db, Function.update s.sessions n next⟩ k := by
  obtain ⟨m, y, hy, hduty⟩ := h
  by_cases hm : m = n
  · subst hm
    obtain rfl := Option.some.inj (hx.symm.trans hy)
    obtain ⟨x', hx', hduty'⟩ := hkept hduty
    exact ⟨m, x', by simpa using hx', hduty'⟩
  · exact ⟨m, y, by simpa [Function.update_of_ne hm] using hy, hduty⟩

end

end Phases
