import Mathlib.Data.List.Chain
import ScanPlatform.Base.CondMachine

/-!
# Versioned rows

A session reads a row and writes it later, on the condition that the row still has the version that
the session expects. Every write gives the row a higher version.

* `flush`: a column after a session has written it;
* `Behind`, **`Behind.eq_of_cas`**: what a session has read, and why its write meets what it read;
* `commits`, `commits_of_none`, `consecutive`: the values of a row along a run, and what each change
  of it writes to a log;
* **`commits_chain`**, **`log_commits`**: the rules for both; `commits_getLast?`: the last value;
* `map_eq_range'`: values that count.
-/

set_option autoImplicit false

namespace Versions

open CondMachine

/-! ## What a session writes -/

/-- A column after a flush: an assignment that does not change what was read writes nothing. -/
def flush {α : Type} [DecidableEq α] (read assigned current : α) : α :=
  if assigned = read then current else assigned

/-- An assignment arrives when what was read has not been undone. -/
theorem flush_eq_assigned {α : Type} [DecidableEq α] {read assigned current : α}
    (h : read = assigned → current = assigned) : flush read assigned current = assigned := by
  unfold flush
  split_ifs with hread
  · exact h hread.symm
  · rfl

/-- An assignment arrives when the row is as it was read. -/
@[simp] theorem flush_self {α : Type} [DecidableEq α] (read assigned : α) :
    flush read assigned read = assigned := flush_eq_assigned id

/-! ## What a session has read -/

section

variable {V : Type*} (version : V → ℕ)

/-- What was read is the row as it is, or has a lower version. -/
def Behind (read row : V) : Prop := read = row ∨ version read < version row

variable {version}

theorem Behind.refl (row : V) : Behind version row row := .inl rfl

theorem Behind.le {read row : V} (h : Behind version read row) : version read ≤ version row := by
  rcases h with rfl | h
  · exact le_rfl
  · exact h.le

/-- What was read stays behind when the row is replaced by one of a higher version. -/
theorem Behind.step {read row row' : V} (h : Behind version read row)
    (hstep : row' = row ∨ version row < version row') : Behind version read row' := by
  rcases hstep with rfl | hlt
  · exact h
  · exact .inr (lt_of_le_of_lt h.le hlt)

/-- **A compare-and-set meets the row that was read** when it expects no version beyond it. -/
theorem Behind.eq_of_cas {read row : V} (h : Behind version read row)
    (hexpected : version row ≤ version read) : read = row :=
  h.resolve_right (not_lt.mpr hexpected)

end

/-! ## The values of a row along a run -/

section

variable {S A V E : Type*} [DecidableEq V] (step : A → S → Option S) (row : S → Option V)

/-- The values that the row is given in a run, in order. -/
def commits (s : S) : List A → List V
  | [] => []
  | a :: σ =>
    if row (next step s a) = row s then commits (next step s a) σ
    else (row (next step s a)).toList ++ commits (next step s a) σ

/-- What the changes from each value to the next write. -/
def consecutive (emit : V → V → List E) : List V → List E
  | [] => []
  | [_] => []
  | v :: v' :: l => emit v v' ++ consecutive emit (v' :: l)

/-- An effective action leaves the row and the log alone, or replaces the row by a related one and
logs the change. -/
def Logged (log : S → List E) (R : V → V → Prop) (emit : V → V → List E) (s s' : S) : Prop :=
  (row s' = row s ∧ log s' = log s) ∨
    ∃ v v', row s = some v ∧ row s' = some v' ∧ v' ≠ v ∧ R v v' ∧ log s' = log s ++ emit v v'

/-- Before a row is inserted it is given no value. -/
theorem commits_of_none {s : S} (hs : row s = none) (σ : List A) :
    commits step row s σ = [] ∧ row (run step s σ) = none ∨
      ∃ σ₁ a σ₂ v, σ = σ₁ ++ a :: σ₂ ∧ row (run step s σ₁) = none ∧
        row (run step s (σ₁ ++ [a])) = some v ∧
        commits step row s σ = v :: commits step row (run step s (σ₁ ++ [a])) σ₂ := by
  induction σ generalizing s with
  | nil => exact .inl ⟨rfl, hs⟩
  | cons a σ ih =>
    simp only [commits, run_cons]
    cases hnext : row (next step s a) with
    | none =>
      rw [if_pos hs.symm]
      rcases ih hnext with hempty | ⟨σ₁, b, σ₂, v, rfl, hnone, hv, heq⟩
      · exact .inl hempty
      · exact .inr ⟨a :: σ₁, b, σ₂, v, rfl, hnone, hv, heq⟩
    | some v =>
      rw [hs, if_neg (by simp)]
      exact .inr ⟨[], a, σ, v, rfl, hs, hnext, rfl⟩

variable {step row} {I : S → Prop} {P : S → A → Prop} {R : V → V → Prop} {log : S → List E}
  {emit : V → V → List E}

omit [DecidableEq V] in
/-- An action that does not take effect changes nothing. -/
theorem next_logged (hlogged : ∀ s a s', I s → P s a → step a s = some s' →
    Logged row log R emit s s') {s : S} {a : A} (hs : I s) (ha : P s a) :
    Logged row log R emit s (next step s a) := by
  rcases next_cases step s a with h | ⟨-, h⟩
  · exact hlogged s a _ hs ha h
  · rw [h]
    exact .inl ⟨rfl, rfl⟩

theorem next_invariant (hstep : ∀ s a s', I s → P s a → step a s = some s' → I s') {s : S} {a : A}
    (hs : I s) (ha : P s a) : I (next step s a) := by
  rcases next_cases step s a with h | ⟨-, h⟩
  · exact hstep s a _ hs ha h
  · rw [h]
    exact hs

/-- **The values of the row are a chain** of related values, and the last of them is the row. -/
theorem commits_chain (hstep : ∀ s a s', I s → P s a → step a s = some s' → I s')
    (hlogged : ∀ s a s', I s → P s a → step a s = some s' → Logged row log R emit s s') {s : S}
    {v : V} (hs : I s) (hv : row s = some v) {σ : List A} (hP : Along step P s σ) :
    (v :: commits step row s σ).IsChain R := by
  induction σ generalizing s v with
  | nil => exact List.isChain_singleton v
  | cons a σ ih =>
    obtain ⟨ha, hrest⟩ := along_cons.mp hP
    have hs' := next_invariant hstep hs ha
    simp only [commits]
    rcases next_logged hlogged hs ha with ⟨hrow, -⟩ | ⟨w, v', hw, hv', hne, hR, -⟩
    · rw [if_pos hrow]
      exact ih hs' (hrow.trans hv) hrest
    · rw [hv] at hw
      cases hw
      rw [hv, hv', if_neg fun h => hne (Option.some.inj h)]
      exact List.isChain_cons_cons.mpr ⟨hR, ih hs' hv' hrest⟩

/-- The last value of the row is the row after the run. -/
theorem commits_getLast? (hstep : ∀ s a s', I s → P s a → step a s = some s' → I s')
    (hlogged : ∀ s a s', I s → P s a → step a s = some s' → Logged row log R emit s s') {s : S}
    {v : V} (hs : I s) (hv : row s = some v) {σ : List A} (hP : Along step P s σ) :
    (v :: commits step row s σ).getLast? = row (run step s σ) := by
  induction σ generalizing s v with
  | nil => exact hv.symm
  | cons a σ ih =>
    obtain ⟨ha, hrest⟩ := along_cons.mp hP
    have hs' := next_invariant hstep hs ha
    simp only [commits, run_cons]
    rcases next_logged hlogged hs ha with ⟨hrow, -⟩ | ⟨w, v', hw, hv', hne, -, -⟩
    · rw [if_pos hrow]
      exact ih hs' (hrow.trans hv) hrest
    · have hchanged : some v' ≠ some v := fun h =>
        hne ((Option.some.inj h).trans (Option.some.inj (hv.symm.trans hw)))
      rw [hv, hv', if_neg hchanged]
      exact List.getLast?_cons_cons.trans (ih hs' hv' hrest)

/-- **The log of a run** is what the changes from each value of the row to the next write. -/
theorem log_commits (hstep : ∀ s a s', I s → P s a → step a s = some s' → I s')
    (hlogged : ∀ s a s', I s → P s a → step a s = some s' → Logged row log R emit s s') {s : S}
    {v : V} (hs : I s) (hv : row s = some v) {σ : List A} (hP : Along step P s σ) :
    log (run step s σ) = log s ++ consecutive emit (v :: commits step row s σ) := by
  induction σ generalizing s v with
  | nil => exact (List.append_nil _).symm
  | cons a σ ih =>
    obtain ⟨ha, hrest⟩ := along_cons.mp hP
    have hs' := next_invariant hstep hs ha
    simp only [commits, run_cons]
    rcases next_logged hlogged hs ha with ⟨hrow, hlog⟩ | ⟨w, v', hw, hv', hne, -, hlog⟩
    · rw [if_pos hrow, ih hs' (hrow.trans hv) hrest, hlog]
    · rw [hv] at hw
      cases hw
      rw [hv, hv', if_neg fun h => hne (Option.some.inj h), ih hs' hv' hrest, hlog,
        List.append_assoc]
      rfl

end

/-- **Values that count**: a chain in which each number is the successor of the last. -/
theorem map_eq_range' {V : Type*} {version : V → ℕ} {v : V} {l : List V}
    (h : (v :: l).IsChain fun a b => version b = version a + 1) :
    (v :: l).map version = List.range' (version v) (l.length + 1) := by
  induction l generalizing v with
  | nil => rfl
  | cons w l ih =>
    obtain ⟨hw, hl⟩ := List.isChain_cons_cons.mp h
    rw [List.map_cons, ih hl, hw, List.length_cons]
    exact List.range'_succ.symm

end Versions
