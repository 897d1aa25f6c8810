import Mathlib.Data.List.Infix
import Mathlib.Data.Nat.Notation

/-!
# Loops

A `while` loop whose body may leave it or raise, with a bound on the number of its turns; and a
counter that is raised by one event and reset by the other, and may not be raised beyond a limit.

* `Turn`, `run`: what a turn does, and the loop;
* `run_rule`: what holds at the head of each turn and gives what holds at the end;
* `run_ends`: a loop with a variant ends, whatever the larger bound (`run_mono`);
* `Event`, `count`, `count_append`: the counter;
* **`count_eq_none_iff`**: it goes too far when there is a streak that is longer than the limit.
-/

set_option autoImplicit false

namespace Loop

inductive Turn (S E : Type*) where
  | again (s : S)
  | leave (s : S)
  | raised (e : E) (s : S)

variable {S E : Type*} {guard : S → Bool} {body body' : S → Option (Turn S E)}

/-- `while guard: body`, for less than `fuel` turns; `none` when it has not ended by then. The body
is `none` when a loop inside it has not ended. -/
def run (guard : S → Bool) (body : S → Option (Turn S E)) : ℕ → S → Option (S × Except E Unit)
  | 0, _ => none
  | fuel + 1, s =>
    if guard s then
      match body s with
      | none => none
      | some (.again s') => run guard body fuel s'
      | some (.leave s') => some (s', .ok ())
      | some (.raised e s') => some (s', .error e)
    else some (s, .ok ())

/-- What an invariant `I` of the turns gives at the end. -/
structure Rule (guard : S → Bool) (body : S → Option (Turn S E)) (I : S → Prop)
    (Q : S → Except E Unit → Prop) : Prop where
  exit : ∀ s, I s → guard s = false → Q s (.ok ())
  again : ∀ s s', I s → guard s = true → body s = some (.again s') → I s'
  leave : ∀ s s', I s → guard s = true → body s = some (.leave s') → Q s' (.ok ())
  raised : ∀ s e s', I s → guard s = true → body s = some (.raised e s') → Q s' (.error e)

theorem run_rule {I : S → Prop} {Q : S → Except E Unit → Prop} (h : Rule guard body I Q) :
    ∀ {fuel : ℕ} {s : S} {r : S × Except E Unit}, I s → run guard body fuel s = some r →
      Q r.1 r.2 := by
  intro fuel
  induction fuel with
  | zero => intro s r _ hr; cases hr
  | succ fuel ih =>
    intro s r hs hr
    unfold run at hr
    cases hg : guard s with
    | false =>
      rw [hg, if_neg Bool.false_ne_true] at hr
      cases hr
      exact h.exit s hs hg
    | true =>
      rw [hg, if_pos rfl] at hr
      cases hb : body s with
      | none => rw [hb] at hr; cases hr
      | some turn =>
        rw [hb] at hr
        cases turn with
        | again s' => exact ih (h.again s s' hs hg hb) hr
        | leave s' => cases hr; exact h.leave s s' hs hg hb
        | raised e s' => cases hr; exact h.raised s e s' hs hg hb

/-- A loop with a variant ends. -/
theorem run_ends {I : S → Prop} (variant : S → ℕ)
    (hbody : ∀ s, I s → guard s = true → ∃ turn, body s = some turn ∧
      ∀ s', turn = .again s' → I s' ∧ variant s' < variant s) :
    ∀ {fuel : ℕ} {s : S}, I s → variant s < fuel → ∃ r, run guard body fuel s = some r := by
  intro fuel
  induction fuel with
  | zero => intro s _ hlt; omega
  | succ fuel ih =>
    intro s hs hlt
    unfold run
    cases hg : guard s with
    | false => exact ⟨_, rfl⟩
    | true =>
      obtain ⟨turn, hb, hagain⟩ := hbody s hs hg
      rw [hb, if_pos rfl]
      cases turn with
      | again s' =>
        obtain ⟨hs', hlt'⟩ := hagain s' rfl
        exact ih hs' (by omega)
      | leave s' => exact ⟨_, rfl⟩
      | raised e s' => exact ⟨_, rfl⟩

/-- A loop that has ended is not changed by more fuel. -/
theorem run_mono (hbody : ∀ s turn, body s = some turn → body' s = some turn) :
    ∀ {fuel fuel' : ℕ} {s : S} {r : S × Except E Unit}, fuel ≤ fuel' →
      run guard body fuel s = some r → run guard body' fuel' s = some r := by
  intro fuel
  induction fuel with
  | zero => intro fuel' s r _ hr; cases hr
  | succ fuel ih =>
    intro fuel' s r hle hr
    obtain ⟨fuel', rfl⟩ : ∃ n, fuel' = n + 1 := ⟨fuel' - 1, by omega⟩
    unfold run at hr ⊢
    cases hg : guard s with
    | false => rw [hg] at hr; exact hr
    | true =>
      rw [hg, if_pos rfl] at hr
      rw [if_pos rfl]
      cases hb : body s with
      | none => rw [hb] at hr; cases hr
      | some turn =>
        rw [hb] at hr
        rw [hbody s turn hb]
        cases turn with
        | again s' => exact ih (by omega) hr
        | leave s' => exact hr
        | raised e s' => exact hr

end Loop

namespace Streak

inductive Event where
  | raise
  | reset
  deriving DecidableEq

variable {limit : ℕ}

/-- The counter, as long as it is below the limit whenever it is raised. -/
def count (limit : ℕ) : ℕ → List Event → Option ℕ
  | n, [] => some n
  | n, .raise :: es => if n < limit then count limit (n + 1) es else none
  | _, .reset :: es => count limit 0 es

theorem count_append (es es' : List Event) (n : ℕ) :
    count limit n (es ++ es') = (count limit n es).bind fun n => count limit n es' := by
  induction es generalizing n with
  | nil => rfl
  | cons e es ih =>
    cases e with
    | reset => exact ih 0
    | raise =>
      simp only [List.cons_append, count]
      split_ifs
      · exact ih _
      · rfl

/-- **A counter goes too far** exactly when there is a streak that is longer than the limit, or one
at the beginning that is longer than what is left of it. -/
theorem count_eq_none_iff {n : ℕ} (hle : n ≤ limit) (es : List Event) :
    count limit n es = none ↔
      List.replicate (limit + 1 - n) .raise <+: es ∨
        List.replicate (limit + 1) .raise <:+: es := by
  induction es generalizing n with
  | nil =>
    have hpos : limit + 1 - n ≠ 0 := by omega
    simp [count, hpos]
  | cons e es ih =>
    obtain ⟨m, hm⟩ : ∃ m, limit + 1 - n = m + 1 := ⟨limit - n, by omega⟩
    rw [List.infix_cons_iff, hm, List.replicate_succ, List.replicate_succ]
    cases e with
    | reset =>
      have hne : ∀ l : List Event, ¬ .raise :: l <+: .reset :: es := by simp
      simp only [count, ih (Nat.zero_le _), hne, false_or, List.replicate_succ, Nat.sub_zero]
      exact ⟨fun h => h.elim List.IsPrefix.isInfix id, .inr⟩
    | raise =>
      simp only [List.cons_prefix_cons, true_and]
      by_cases hlt : n < limit
      · have hm' : limit + 1 - (n + 1) = m := by omega
        rw [count, if_pos hlt, ih (Nat.succ_le_of_lt hlt), hm', List.replicate_succ]
        have hlong : List.replicate limit .raise <+: es → List.replicate m .raise <+: es := by
          refine fun h => List.IsPrefix.trans ?_ h
          rw [show limit = m + (limit - m) by omega, List.replicate_add]
          exact List.prefix_append _ _
        tauto
      · have hm' : m = 0 := by omega
        simp [count, hlt, hm']

/-- A counter that starts from zero. -/
theorem count_zero_eq_none_iff (es : List Event) :
    count limit 0 es = none ↔ List.replicate (limit + 1) .raise <:+: es := by
  rw [count_eq_none_iff (Nat.zero_le _), Nat.sub_zero]
  exact ⟨fun h => h.elim List.IsPrefix.isInfix id, .inr⟩

end Streak
