import Mathlib.Order.Monotone.Basic
import Mathlib.Tactic.Common

/-
  A free-running counter that goes `load, …, 1, 0, load, …`, one step at a time, and what can be
  said from samples of it. `balance`: the value, the steps taken and the wraps determine each
  other. `sample_cases`: two samples less than a period apart tell how many steps lie between
  them, and whether the counter wrapped.
-/

namespace Live2dStm32.Lib.DownCounter

variable {load v e e' : Nat}

def step (load v : Nat) : Nat := if v = 0 then load else v - 1

/-- The value after `e` steps from `v`. -/
def value (load v : Nat) : Nat → Nat
  | 0 => v
  | e + 1 => step load (value load v e)

/-- How often the counter has gone from 0 to `load` in these steps. -/
def wraps (load v : Nat) : Nat → Nat
  | 0 => 0
  | e + 1 => wraps load v e + if value load v e = 0 then 1 else 0

theorem step_le (h : v ≤ load) : step load v ≤ load := by
  unfold step
  split <;> omega

theorem value_le (h : v ≤ load) (e : Nat) : value load v e ≤ load := by
  induction e with
  | zero => exact h
  | succ e ih => exact step_le ih

theorem wraps_mono (load v : Nat) : Monotone (wraps load v) :=
  monotone_nat_of_le_succ fun _ => Nat.le_add_right _ _

/-- Steps are paid for by the value, and refunded a period at each wrap. -/
theorem balance (load v e : Nat) :
    value load v e + e = v + (load + 1) * wraps load v e := by
  induction e with
  | zero => rfl
  | succ e ih =>
    rw [value, wraps, step, Nat.mul_add]
    split <;> omega

/-- Two samples less than a period apart. -/
theorem sample_cases (h : v ≤ load) (hle : e ≤ e') (hgap : e' < e + (load + 1)) :
    (value load v e' ≤ value load v e ∧ wraps load v e' = wraps load v e ∧
      e' = e + (value load v e - value load v e')) ∨
    (value load v e < value load v e' ∧ wraps load v e' = wraps load v e + 1 ∧
      e' + value load v e' = e + value load v e + (load + 1)) := by
  have hb := balance load v e
  have hb' := balance load v e'
  have hv := value_le h e
  have hv' := value_le h e'
  obtain ⟨k, hk⟩ := Nat.exists_eq_add_of_le (wraps_mono load v hle)
  rw [hk, Nat.mul_add] at hb'
  rcases k with _ | _ | k
  · exact .inl ⟨by omega, hk, by omega⟩
  · exact .inr ⟨by omega, hk, by omega⟩
  · -- two periods do not fit between the samples
    rw [Nat.mul_add, Nat.mul_add] at hb'
    omega

/-- Half of the steps at least are not wraps, but for one period. -/
theorem two_mul_wraps_le (hload : 0 < load) (h : v ≤ load) (e : Nat) :
    2 * wraps load v e ≤ load + e := by
  have hb := balance load v e
  have hv := value_le h e
  have hmul : 2 * wraps load v e ≤ (load + 1) * wraps load v e :=
    Nat.mul_le_mul_right _ (by omega)
  omega

theorem wraps_le (load v e : Nat) : wraps load v e ≤ e := by
  induction e with
  | zero => exact Nat.le_refl _
  | succ e ih =>
    rw [wraps]
    split <;> omega

/-- The value by the phase, the steps modulo a period. -/
theorem value_eq (h : v ≤ load) (e : Nat) :
    value load v e =
      if e % (load + 1) ≤ v then v - e % (load + 1) else v + (load + 1) - e % (load + 1) := by
  have hv := value_le h e
  have hr := Nat.mod_lt e (by omega : 0 < load + 1)
  have hmod : (value load v e + e % (load + 1)) % (load + 1) = v := by
    rw [Nat.add_mod_mod, balance, Nat.add_mul_mod_self_left, Nat.mod_eq_of_lt (by omega)]
  by_cases hlt : value load v e + e % (load + 1) < load + 1
  · rw [Nat.mod_eq_of_lt hlt] at hmod
    rw [if_pos (by omega)]
    omega
  · rw [Nat.mod_eq_sub_mod (by omega), Nat.mod_eq_of_lt (by omega)] at hmod
    rw [if_neg (by omega)]
    omega

/-- Instants at which the counter is sampled, from 0 on, less than a period apart. -/
structure Sampling (load : Nat) where
  instant : Nat → Nat
  zero : instant 0 = 0
  mono : ∀ n, instant n ≤ instant (n + 1)
  gap : ∀ n, instant (n + 1) < instant n + (load + 1)

theorem Sampling.instant_mono (samples : Sampling load) : Monotone samples.instant :=
  monotone_nat_of_le_succ samples.mono

end Live2dStm32.Lib.DownCounter
