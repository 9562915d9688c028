import Mathlib.Algebra.Order.Floor.Div

/-
  A length counted in ticks and read back. There are `f` steps to the unit of length, and a tick
  is `u` steps: a length `x` counts `x * f / u` ticks, and `c` ticks are `c * u / f` long. A tick
  is at most `u ⌈/⌉ f` units long.

  `le_length_count`: what is read back is short by at most one tick. `length_wrapped`: a step
  count that wraps is short by more.
-/

namespace Live2dStm32.Lib.Quantize

variable {f u x M : Nat}

/-- The ticks of a length. -/
def count (f u x : Nat) : Nat := x * f / u

/-- The length of so many steps. -/
def length (f steps : Nat) : Nat := steps / f

theorem count_mul_le (f u x : Nat) : count f u x * u ≤ x * f := Nat.div_mul_le_self _ _

theorem lt_count_mul (hu : 0 < u) : x * f < count f u x * u + u := Nat.lt_div_mul_add hu

theorem length_count_le (f u x : Nat) : length f (count f u x * u) ≤ x :=
  Nat.div_le_of_le_mul (Nat.mul_comm x f ▸ count_mul_le f u x)

theorem le_mul_ceilDiv (hf : 0 < f) : u ≤ f * (u ⌈/⌉ f) := (ceilDiv_le_iff_le_mul hf).mp le_rfl

theorem mul_ceilDiv_le (hf : 0 < f) : f * (u ⌈/⌉ f) < u + f := by
  rw [Nat.ceilDiv_eq_add_pred_div]
  have := Nat.mul_div_le (u + f - 1) f
  omega

theorem le_length_count (hf : 0 < f) (hu : 0 < u) :
    x ≤ length f (count f u x * u) + u ⌈/⌉ f := by
  have hcount := @lt_count_mul f u x hu
  have hlength : count f u x * u < length f (count f u x * u) * f + f := Nat.lt_div_mul_add hf
  have hquantum := @le_mul_ceilDiv f u hf
  have hlt : x * f < (length f (count f u x * u) + u ⌈/⌉ f + 1) * f := by
    rw [Nat.add_mul, Nat.add_mul, Nat.mul_comm (u ⌈/⌉ f) f]
    omega
  exact Nat.le_of_lt_succ (Nat.lt_of_mul_lt_mul_right hlt)

/-- Steps counted modulo `M`, once there are as many. -/
theorem length_wrapped (hf : 0 < f) (hM : M ≤ count f u x * u) (hu : 2 * (u + f) ≤ M) :
    length f (count f u x * u % M) + 2 * (u ⌈/⌉ f) ≤ x := by
  have hcount := count_mul_le f u x
  have hmod : count f u x * u % M + M ≤ count f u x * u := by
    have hdiv := Nat.mod_add_div (count f u x * u) M
    have hone : M ≤ M * (count f u x * u / M) :=
      Nat.le_mul_of_pos_right M (Nat.div_pos hM (by omega))
    omega
  have hlength : length f (count f u x * u % M) * f ≤ count f u x * u % M :=
    Nat.div_mul_le_self _ _
  have hquantum := @mul_ceilDiv_le f u hf
  refine Nat.le_of_mul_le_mul_right ?_ hf
  rw [Nat.add_mul, Nat.mul_assoc 2, Nat.mul_comm (u ⌈/⌉ f) f]
  omega

end Live2dStm32.Lib.Quantize
