import Mathlib.Tactic.Common

/-
  The levels of a clock line and a data line, and what is seen on them: a capture is a list of
  samples, the latest first.

  A start condition is a fall of the data line under a high clock. None is added while the clock
  is held low (`starts_append_low`), or when the data line was low before.
-/

namespace Live2dStm32.Lib.TwoWire

/-- The levels of the two lines. -/
structure Lines where
  scl : Bool
  sda : Bool
  deriving DecidableEq, Repr

def IsStart (before after : Lines) : Prop := before = ⟨true, true⟩ ∧ after = ⟨true, false⟩

instance (before after : Lines) : Decidable (IsStart before after) :=
  inferInstanceAs (Decidable (_ ∧ _))

/-- How many start conditions a capture holds. -/
def starts : List Lines → Nat
  | after :: before :: capture =>
    starts (before :: capture) + if IsStart before after then 1 else 0
  | _ => 0

variable {before after : Lines} {capture : List Lines}

theorem starts_cons_start (h : IsStart before after) :
    starts (after :: before :: capture) = starts (before :: capture) + 1 := by
  rw [starts, if_pos h]

theorem starts_cons_of_scl (h : after.scl = false) :
    starts (after :: capture) = starts capture := by
  cases capture with
  | nil => rfl
  | cons before capture =>
    have hno : ¬ IsStart before after := by
      rintro ⟨-, rfl⟩
      exact absurd h (by simp)
    rw [starts, if_neg hno, Nat.add_zero]

theorem starts_cons_of_sda (h : before.sda = false) :
    starts (after :: before :: capture) = starts (before :: capture) := by
  have hno : ¬ IsStart before after := by
    rintro ⟨rfl, -⟩
    exact absurd h (by simp)
  rw [starts, if_neg hno, Nat.add_zero]

/-- While the clock is held low there are no start conditions. -/
theorem starts_append_low {samples : List Lines} (h : ∀ l ∈ samples, l.scl = false) :
    starts (samples ++ capture) = starts capture := by
  induction samples with
  | nil => rfl
  | cons l samples ih =>
    rw [List.cons_append, starts_cons_of_scl (h l List.mem_cons_self)]
    exact ih fun k hk => h k (List.mem_cons_of_mem l hk)

end Live2dStm32.Lib.TwoWire
