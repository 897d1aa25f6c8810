import Mathlib.Algebra.Order.Ring.Nat
import Mathlib.Data.Nat.Find
import Mathlib.Order.Monotone.Basic
import Mathlib.Tactic.Linarith

/-!
# Months

The months of the Gregorian calendar from January 1970 on, counted from 0, and the days before them.

* `monthLength`, `monthBegin`: the days of a month and the days before it;
* `monthOf`: the month of a day, **`monthOf_spec`**, `monthOf_mono`.
-/

set_option autoImplicit false

namespace Calendar

/-- The year, in the Gregorian calendar, is a leap year. -/
def isLeap (year : ℕ) : Bool := year % 4 = 0 ∧ (year % 100 ≠ 0 ∨ year % 400 = 0)

/-- The days of the `n`-th month. -/
def monthLength (n : ℕ) : ℕ :=
  match n % 12 with
  | 1 => if isLeap (1970 + n / 12) then 29 else 28
  | 3 | 5 | 8 | 10 => 30
  | _ => 31

/-- The days before the `n`-th month. -/
def monthBegin : ℕ → ℕ
  | 0 => 0
  | n + 1 => monthBegin n + monthLength n

/-- The month of a day. No month has less than 28 days. -/
def monthOf (day : ℕ) : ℕ := Nat.findGreatest (fun n => monthBegin n ≤ day) (day / 28)

theorem le_monthLength (n : ℕ) : 28 ≤ monthLength n := by
  unfold monthLength
  split
  · split_ifs <;> omega
  all_goals omega

theorem le_monthBegin (n : ℕ) : 28 * n ≤ monthBegin n := by
  induction n with
  | zero => exact le_rfl
  | succ n ih =>
    have hlength := le_monthLength n
    rw [monthBegin]
    omega

theorem monthBegin_mono : Monotone monthBegin :=
  monotone_nat_of_le_succ fun n => Nat.le_add_right (monthBegin n) (monthLength n)

/-- **A day is in its month.** -/
theorem monthOf_spec (day : ℕ) :
    monthBegin (monthOf day) ≤ day ∧ day < monthBegin (monthOf day + 1) := by
  refine ⟨?_, ?_⟩
  · have hzero : monthBegin 0 ≤ day := Nat.zero_le day
    exact Nat.findGreatest_spec (P := fun n => monthBegin n ≤ day) (Nat.zero_le _) hzero
  · by_contra hbegun
    have hle := not_lt.mp hbegun
    have hbound : monthOf day + 1 ≤ day / 28 := by
      have hdays := le_monthBegin (monthOf day + 1)
      omega
    have hgreatest := Nat.le_findGreatest (P := fun n => monthBegin n ≤ day) hbound hle
    exact Nat.not_succ_le_self _ hgreatest

theorem monthOf_mono : Monotone monthOf := fun _ _ hab =>
  Nat.findGreatest_mono (fun _ h => h.trans hab) (Nat.div_le_div_right hab)

/-- 29 February 2024 and the day after it. -/
example : monthOf (54 * 365 + 13 + 31 + 28) = 54 * 12 + 1 ∧
    monthOf (54 * 365 + 13 + 31 + 29) = 54 * 12 + 2 := by decide +kernel

end Calendar
