import Mathlib.Algebra.Group.Nat.Defs
import Mathlib.Tactic.Common

/-
  Words as registers: single bits set and cleared with `1 <<< i`, tests against a mask, and
  4-bit fields replaced at a shift. Everything is read bit by bit through `getLsbD`. Words
  limited from above or below, or counted down by one, are read as numbers.
-/

namespace Live2dStm32.Lib

variable {w : Nat}

/-! ## Single bits -/

/-- The word with only bit `i`. -/
def bit (w i : Nat) : BitVec w := 1#w <<< i

theorem getLsbD_bit (i j : Nat) : (bit w i).getLsbD j = (decide (i < w) && decide (i = j)) := by
  unfold bit
  rw [BitVec.getLsbD_shiftLeft, BitVec.getLsbD_one]
  by_cases hij : i = j
  · subst hij
    by_cases hi : i < w
    · simp [hi, Nat.pos_of_ne_zero (Nat.ne_of_gt (Nat.lt_of_le_of_lt (Nat.zero_le i) hi))]
    · simp [hi]
  · by_cases hlt : j < i
    · simp [hlt, hij]
    · have : j - i ≠ 0 := by omega
      simp [this, hij]

theorem getLsbD_or_bit (m : BitVec w) {i : Nat} (hi : i < w) (j : Nat) :
    (m ||| bit w i).getLsbD j = (m.getLsbD j || decide (i = j)) := by
  rw [BitVec.getLsbD_or, getLsbD_bit]
  simp [hi]

theorem getLsbD_and_not_bit (m : BitVec w) {i : Nat} (hi : i < w) (j : Nat) :
    (m &&& ~~~bit w i).getLsbD j = (m.getLsbD j && !decide (i = j)) := by
  rw [BitVec.getLsbD_and, BitVec.getLsbD_not, getLsbD_bit]
  by_cases hj : j < w
  · simp [hi, hj]
  · rw [BitVec.getLsbD_of_ge m j (Nat.le_of_not_lt hj)]
    rfl

theorem bit_inj {i j : Nat} (hi : i < w) (h : bit w i = bit w j) : i = j := by
  have hb := congrArg (fun x : BitVec w => x.getLsbD i) h
  simp only [getLsbD_bit, hi] at hb
  simp only [decide_true, Bool.and_self, Bool.true_eq, Bool.and_eq_true, decide_eq_true_eq] at hb
  exact hb.2.symm

theorem toNat_bit {i : Nat} (hi : i < w) : (bit w i).toNat = 2 ^ i := by
  unfold bit
  rw [BitVec.toNat_shiftLeft, BitVec.toNat_ofNat, Nat.shiftLeft_eq,
    Nat.mod_eq_of_lt (Nat.one_lt_two_pow (Nat.ne_of_gt (Nat.lt_of_le_of_lt (Nat.zero_le i) hi))),
    Nat.one_mul]
  exact Nat.mod_eq_of_lt (Nat.pow_lt_pow_right Nat.one_lt_two hi)

theorem bit_le_bit {i j : Nat} (hi : i < w) (hj : j < w) : bit w i ≤ bit w j ↔ i ≤ j := by
  rw [BitVec.le_def, toNat_bit hi, toNat_bit hj]
  exact Nat.pow_le_pow_iff_right Nat.one_lt_two

/-! ## Masks -/

/-- A mask put together bit by bit. -/
theorem getLsbD_foldl_bit (is : List Nat) (his : ∀ i ∈ is, i < w) (m : BitVec w) (j : Nat) :
    (is.foldl (fun m i => m ||| bit w i) m).getLsbD j = (m.getLsbD j || decide (j ∈ is)) := by
  induction is generalizing m with
  | nil => simp
  | cons i is ih =>
    rw [List.foldl_cons, ih fun k hk => his k (List.mem_cons_of_mem i hk),
      getLsbD_or_bit m (his i List.mem_cons_self), Bool.or_assoc]
    congr 1
    rw [← Bool.decide_or]
    simp [eq_comm]

theorem and_eq_zero_iff (m g : BitVec w) :
    m &&& g = 0 ↔ ∀ i, g.getLsbD i = true → m.getLsbD i = false := by
  constructor
  · intro h i hg
    have hb := congrArg (fun x : BitVec w => x.getLsbD i) h
    simpa [hg] using hb
  · intro h
    apply BitVec.eq_of_getLsbD_eq
    intro i _
    rw [BitVec.getLsbD_and]
    cases hg : g.getLsbD i
    · simp
    · simp [h i hg]

theorem and_bit_eq_zero_iff (m : BitVec w) {i : Nat} (hi : i < w) :
    m &&& bit w i = 0 ↔ m.getLsbD i = false := by
  rw [and_eq_zero_iff]
  constructor
  · intro h
    exact h i (by rw [getLsbD_bit]; simp [hi])
  · intro h j hj
    rw [getLsbD_bit] at hj
    simp only [Bool.and_eq_true, decide_eq_true_eq] at hj
    exact hj.2 ▸ h

/-- A word that shows a bit shows that bit under its mask. -/
theorem and_bit_of_ne_zero {m : BitVec w} {i : Nat} (h : m &&& bit w i ≠ 0) :
    m &&& bit w i = bit w i := by
  apply BitVec.eq_of_getLsbD_eq
  intro j hj
  rw [BitVec.getLsbD_and, getLsbD_bit]
  by_cases hij : i = j
  · subst hij
    have hm : m.getLsbD i = true := Bool.of_not_eq_false (mt (and_bit_eq_zero_iff m hj).mpr h)
    rw [hm, Bool.true_and]
  · simp [hij]

theorem and_or_self_right (a b : BitVec w) : a &&& (b ||| a) = a := by
  ext i
  rw [BitVec.getElem_and, BitVec.getElem_or]
  cases a[i] <;> simp

theorem and_not_or_self (a b : BitVec w) : a &&& ~~~(a ||| b) = 0 := by
  rw [BitVec.not_or, ← BitVec.and_assoc, BitVec.and_not_self]
  exact BitVec.zero_and

/-! ## Inclusion -/

/-- Every bit of `a` is one of `b`. -/
def Within (a b : BitVec w) : Prop := a &&& ~~~b = 0

instance (a b : BitVec w) : Decidable (Within a b) :=
  inferInstanceAs (Decidable (a &&& ~~~b = 0))

theorem within_iff {a b : BitVec w} :
    Within a b ↔ ∀ i, a.getLsbD i = true → b.getLsbD i = true := by
  unfold Within
  rw [BitVec.and_comm, and_eq_zero_iff]
  constructor
  · intro h i ha
    have hb := h i ha
    rw [BitVec.getLsbD_not] at hb
    simpa [BitVec.lt_of_getLsbD ha] using hb
  · intro h i ha
    rw [BitVec.getLsbD_not, h i ha]
    exact Bool.and_false _

theorem within_zero (b : BitVec w) : Within 0 b := BitVec.zero_and

theorem Within.or {a b c : BitVec w} (ha : Within a c) (hb : Within b c) :
    Within (a ||| b) c := by
  rw [within_iff] at *
  intro i h
  rw [BitVec.getLsbD_or, Bool.or_eq_true] at h
  exact h.elim (ha i) (hb i)

theorem Within.or_right {a b : BitVec w} (h : Within a b) (c : BitVec w) :
    Within a (b ||| c) := by
  rw [within_iff] at *
  intro i ha
  rw [BitVec.getLsbD_or, h i ha]
  rfl

theorem within_or_right (a b : BitVec w) : Within b (a ||| b) := by
  rw [within_iff]
  intro i hb
  rw [BitVec.getLsbD_or, hb]
  exact Bool.or_true _

theorem Within.and {a b : BitVec w} (h : Within a b) (c : BitVec w) : Within (a &&& c) b := by
  rw [within_iff] at *
  intro i ha
  rw [BitVec.getLsbD_and, Bool.and_eq_true] at ha
  exact h i ha.1

theorem Within.and_eq_zero {a b c : BitVec w} (h : Within a b) (hz : b &&& c = 0) :
    a &&& c = 0 := by
  rw [and_eq_zero_iff] at hz ⊢
  intro i hc
  refine Bool.eq_false_iff.mpr fun ha => ?_
  have hb := within_iff.mp h i ha
  rw [hz i hc] at hb
  cases hb

/-! ## As numbers -/

theorem toNat_limitAbove (x hi : BitVec w) :
    (if x > hi then hi else x).toNat = min x.toNat hi.toNat := by
  split
  case isTrue h => exact (Nat.min_eq_right (Nat.le_of_lt h)).symm
  case isFalse h => exact (Nat.min_eq_left (Nat.le_of_not_lt h)).symm

theorem toNat_limitBelow (x lo : BitVec w) :
    (if x < lo then lo else x).toNat = max lo.toNat x.toNat := by
  split
  case isTrue h => exact (Nat.max_eq_left (Nat.le_of_lt h)).symm
  case isFalse h => exact (Nat.max_eq_right (Nat.le_of_not_lt h)).symm

theorem toNat_sub_one_add_one {x : BitVec w} (hx : 0 < x.toNat) :
    (x - 1).toNat + 1 = x.toNat := by
  have hone : (1 : BitVec w).toNat = 1 := Nat.mod_eq_of_lt (Nat.lt_of_le_of_lt hx x.isLt)
  rw [BitVec.toNat_sub_of_le (BitVec.le_def.mpr (hone.symm ▸ hx)), hone]
  omega

/-! ## Fields of four bits -/

/-- The field of `x` at shift `s`. -/
def nibble (x : BitVec w) (s : Nat) : BitVec w := (x >>> s) &&& 0xF#w

/-- `x` with the field at shift `s` replaced by `v`. -/
def setNibble (x : BitVec w) (s : Nat) (v : BitVec w) : BitVec w :=
  (x &&& ~~~(0xF#w <<< s)) ||| (v <<< s)

theorem getLsbD_0xF (i : Nat) : (0xF#w).getLsbD i = (decide (i < w) && decide (i < 4)) := by
  rw [BitVec.getLsbD_ofNat, show (0xF : Nat) = 2 ^ 4 - 1 from rfl, Nat.testBit_two_pow_sub_one]

theorem getLsbD_nibble (x : BitVec w) (s i : Nat) :
    (nibble x s).getLsbD i = (x.getLsbD (s + i) && (decide (i < w) && decide (i < 4))) := by
  unfold nibble
  rw [BitVec.getLsbD_and, BitVec.getLsbD_ushiftRight, getLsbD_0xF]

theorem getLsbD_of_lt_16 {v : BitVec w} (hv : v.toNat < 16) {i : Nat} (hi : 4 ≤ i) :
    v.getLsbD i = false := by
  rw [BitVec.getLsbD]
  apply Nat.testBit_lt_two_pow
  exact Nat.lt_of_lt_of_le hv (Nat.pow_le_pow_right Nat.two_pos hi)

theorem getLsbD_setNibble {v : BitVec w} (hv : v.toNat < 16) (x : BitVec w) (s : Nat) {i : Nat}
    (hi : i < w) :
    (setNibble x s v).getLsbD i =
      if s ≤ i ∧ i < s + 4 then v.getLsbD (i - s) else x.getLsbD i := by
  unfold setNibble
  rw [BitVec.getLsbD_or, BitVec.getLsbD_and, BitVec.getLsbD_not, BitVec.getLsbD_shiftLeft,
    BitVec.getLsbD_shiftLeft, getLsbD_0xF]
  by_cases hlo : i < s
  · have : ¬ (s ≤ i ∧ i < s + 4) := by omega
    simp [hi, hlo, this]
  · by_cases hhi : i < s + 4
    · have hin : s ≤ i ∧ i < s + 4 := by omega
      have h4 : i - s < 4 := by omega
      have hw : i - s < w := by omega
      simp [hi, hlo, hin, h4, hw]
    · have hout : ¬ (s ≤ i ∧ i < s + 4) := by omega
      have h4 : ¬ i - s < 4 := by omega
      rw [getLsbD_of_lt_16 hv (Nat.le_of_not_lt h4)]
      simp [hi, hlo, hout, h4]

theorem nibble_setNibble_same {v : BitVec w} (hv : v.toNat < 16) (x : BitVec w) {s : Nat}
    (hs : s + 4 ≤ w) : nibble (setNibble x s v) s = v := by
  apply BitVec.eq_of_getLsbD_eq
  intro i hi
  rw [getLsbD_nibble]
  by_cases h4 : i < 4
  · rw [getLsbD_setNibble hv x s (by omega), if_pos ⟨by omega, by omega⟩, Nat.add_sub_cancel_left]
    simp [hi, h4]
  · rw [getLsbD_of_lt_16 hv (Nat.le_of_not_lt h4)]
    simp [h4]

theorem nibble_setNibble_ne {v : BitVec w} (hv : v.toNat < 16) (x : BitVec w) {s t : Nat}
    (h : s + 4 ≤ t ∨ t + 4 ≤ s) : nibble (setNibble x s v) t = nibble x t := by
  apply BitVec.eq_of_getLsbD_eq
  intro i hi
  rw [getLsbD_nibble, getLsbD_nibble]
  by_cases h4 : i < 4
  · by_cases hw : t + i < w
    · rw [getLsbD_setNibble hv x s hw, if_neg (by omega)]
    · rw [BitVec.getLsbD_of_ge _ _ (Nat.le_of_not_lt hw),
        BitVec.getLsbD_of_ge _ _ (Nat.le_of_not_lt hw)]
  · simp [h4]

/-- Clearing a field is writing 0 to it. -/
theorem setNibble_zero (x : BitVec w) (s : Nat) : setNibble x s 0 = x &&& ~~~(0xF#w <<< s) := by
  unfold setNibble
  simp

/-- Testing a field in place is testing its value. -/
theorem and_field_eq_iff {v : BitVec w} (hv : v.toNat < 16) (x : BitVec w) {s : Nat}
    (hs : s + 4 ≤ w) : x &&& (0xF#w <<< s) = v <<< s ↔ nibble x s = v := by
  have hbit : ∀ i, i < w → (x &&& (0xF#w <<< s)).getLsbD i =
      (x.getLsbD i && (!decide (i < s) && decide (i - s < 4))) := by
    intro i hi
    rw [BitVec.getLsbD_and, BitVec.getLsbD_shiftLeft, getLsbD_0xF]
    have : i - s < w := by omega
    simp [hi, this]
  constructor
  · intro h
    apply BitVec.eq_of_getLsbD_eq
    intro i hi
    rw [getLsbD_nibble]
    by_cases h4 : i < 4
    · have hsi : s + i < w := by omega
      have hb := hbit (s + i) hsi
      rw [h, BitVec.getLsbD_shiftLeft, Nat.add_sub_cancel_left] at hb
      simp only [hsi, h4, hi, decide_true, show ¬ s + i < s by omega, decide_false,
        Bool.not_false, Bool.and_true, Bool.true_and] at hb ⊢
      exact hb.symm
    · rw [getLsbD_of_lt_16 hv (Nat.le_of_not_lt h4)]
      simp [h4]
  · rintro rfl
    apply BitVec.eq_of_getLsbD_eq
    intro i hi
    rw [hbit i hi, BitVec.getLsbD_shiftLeft, getLsbD_nibble]
    by_cases hlo : i < s
    · simp [hlo]
    · have hw : i - s < w := by omega
      rw [Nat.add_sub_cancel' (Nat.le_of_not_lt hlo)]
      simp [hi, hlo, hw]

end Live2dStm32.Lib
