import Mathlib.Data.List.Basic
import Mathlib.Tactic.Common

/-
  Tilings of an interval by blocks `(start, length)`, in order. `Tiles m lo bs hi`: each block
  starts where the one before it ended, the first at `lo`, the last ends at `hi`, and every
  length lies in `1..m`. Then every index of `[lo, hi)` lies in exactly one block
  (`tiles_countP`) and no block leaves the interval (`tiles_bounds`).
-/

namespace Live2dStm32.Lib

/-- `bs` cuts `[lo, hi)` into consecutive blocks of length `1..m`. -/
def Tiles (m : Nat) : Nat → List (Nat × Nat) → Nat → Prop
  | lo, [], hi => lo = hi
  | lo, b :: bs, hi => b.1 = lo ∧ 1 ≤ b.2 ∧ b.2 ≤ m ∧ Tiles m (lo + b.2) bs hi

instance decTiles (m : Nat) : (lo : Nat) → (bs : List (Nat × Nat)) → (hi : Nat) →
    Decidable (Tiles m lo bs hi)
  | _, [], _ => inferInstanceAs (Decidable (_ = _))
  | lo, b :: bs, hi =>
      @instDecidableAnd _ _ inferInstance (@instDecidableAnd _ _ inferInstance
        (@instDecidableAnd _ _ inferInstance (decTiles m (lo + b.2) bs hi)))

/-- Index `x` lies in block `b`. -/
def covers (x : Nat) (b : Nat × Nat) : Bool := b.1 ≤ x && x < b.1 + b.2

theorem tiles_le {m : Nat} {bs : List (Nat × Nat)} {lo hi : Nat} (h : Tiles m lo bs hi) :
    lo ≤ hi := by
  induction bs generalizing lo with
  | nil => exact Nat.le_of_eq h
  | cons b bs ih =>
    have := ih h.2.2.2
    omega

/-- Every block of a tiling lies inside the interval. -/
theorem tiles_bounds {m : Nat} {bs : List (Nat × Nat)} {lo hi : Nat} (h : Tiles m lo bs hi)
    {b : Nat × Nat} (hb : b ∈ bs) : lo ≤ b.1 ∧ b.1 + b.2 ≤ hi := by
  induction bs generalizing lo with
  | nil => cases hb
  | cons c bs ih =>
    obtain ⟨hlo, -, -, ht⟩ := h
    rcases List.mem_cons.mp hb with rfl | hb
    · have := tiles_le ht
      omega
    · have := ih ht hb
      omega

/-- Every index of the interval lies in exactly one block. -/
theorem tiles_countP {m : Nat} {bs : List (Nat × Nat)} {lo hi : Nat} (h : Tiles m lo bs hi)
    {x : Nat} (hlo : lo ≤ x) (hhi : x < hi) : bs.countP (covers x) = 1 := by
  induction bs generalizing lo with
  | nil =>
    have : lo = hi := h
    omega
  | cons c bs ih =>
    obtain ⟨hc, -, -, ht⟩ := h
    by_cases hx : x < lo + c.2
    · -- the head block has it, and all later ones start above it
      have hrest : bs.countP (covers x) = 0 := by
        rw [List.countP_eq_zero]
        intro b hb
        have := tiles_bounds ht hb
        simp only [covers, Bool.and_eq_true, decide_eq_true_eq]
        omega
      rw [List.countP_cons, hrest]
      have : covers x c = true := by
        simp only [covers, Bool.and_eq_true, decide_eq_true_eq]
        omega
      simp [this]
    · rw [List.countP_cons, ih ht (by omega)]
      have : covers x c = false := by
        simp only [covers, Bool.and_eq_false_iff, decide_eq_false_iff_not]
        omega
      simp [this]

end Live2dStm32.Lib
