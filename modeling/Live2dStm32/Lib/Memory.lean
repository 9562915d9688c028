import Mathlib.Data.Nat.Basic
import Mathlib.Logic.Function.Basic
import Mathlib.Tactic.Common
import Mathlib.Algebra.Group.Nat.Defs

/-
  Byte memory, words little endian. A word is four bytes: to copy a word is to copy its bytes
  (`setWord_word`).
-/

namespace Live2dStm32.Lib

abbrev Memory := Nat → BitVec 8

namespace Memory

variable {m m' : Memory} {a b n x : Nat} {bs : List (BitVec 8)}

/-- The `n` bytes from `a` on. -/
def load (m : Memory) (a n : Nat) : List (BitVec 8) := (List.range n).map fun i => m (a + i)

/-- The bytes `bs` at `a`. -/
def store (m : Memory) (a : Nat) (bs : List (BitVec 8)) : Memory := fun x =>
  if a ≤ x then bs[x - a]?.getD (m x) else m x

@[simp] theorem length_load (m : Memory) (a n : Nat) : (m.load a n).length = n := by simp [load]

theorem getElem?_load {i : Nat} (h : i < n) : (m.load a n)[i]? = some (m (a + i)) := by
  simp [load, h]

theorem load_congr (h : ∀ i, i < n → m (a + i) = m' (b + i)) : m.load a n = m'.load b n :=
  List.map_congr_left fun i hi => h i (List.mem_range.mp hi)

theorem load_add (m : Memory) (a n k : Nat) :
    m.load a (n + k) = m.load a n ++ m.load (a + n) k := by
  apply List.ext_getElem? fun i => ?_
  by_cases hi : i < n
  · rw [List.getElem?_append_left (by simpa using hi), getElem?_load hi, getElem?_load (by omega)]
  · rw [List.getElem?_append_right (by simpa using hi), length_load]
    by_cases hk : i < n + k
    · rw [getElem?_load hk, getElem?_load (by omega), show a + n + (i - n) = a + i by omega]
    · rw [List.getElem?_eq_none (by simp; omega), List.getElem?_eq_none (by simp; omega)]

theorem store_of_lt (h : x < a) : m.store a bs x = m x := if_neg (Nat.not_le.mpr h)

theorem store_of_ge (h : a + bs.length ≤ x) : m.store a bs x = m x := by
  have hnone : bs[x - a]? = none := List.getElem?_eq_none (by omega)
  simp [store, hnone]

theorem store_outside (h : x < a ∨ a + bs.length ≤ x) : m.store a bs x = m x :=
  h.elim store_of_lt store_of_ge

theorem store_add {i : Nat} (h : i < bs.length) : m.store a bs (a + i) = bs[i] := by
  simp [store, h]

@[simp] theorem store_nil (m : Memory) (a : Nat) : m.store a [] = m := by
  funext x
  exact store_outside (by simp; omega)

theorem store_append (m : Memory) (a : Nat) (bs cs : List (BitVec 8)) :
    m.store a (bs ++ cs) = (m.store a bs).store (a + bs.length) cs := by
  funext x
  by_cases hlo : x < a
  · rw [store_of_lt hlo, store_of_lt (by omega), store_of_lt hlo]
  · obtain ⟨i, rfl⟩ := Nat.exists_eq_add_of_le (Nat.not_lt.mp hlo)
    by_cases hb : i < bs.length
    · have hlt : a + i < a + bs.length := Nat.add_lt_add_left hb a
      rw [store_of_lt hlt, store_add hb, store_add (by simp; omega), List.getElem_append_left hb]
    · by_cases hc : i < bs.length + cs.length
      · obtain ⟨j, rfl⟩ := Nat.exists_eq_add_of_le (Nat.not_lt.mp hb)
        rw [store_add (by simpa using hc), ← Nat.add_assoc, store_add (by omega),
          List.getElem_append_right (by omega)]
        simp
      · rw [store_of_ge (by simp; omega), store_of_ge (by omega), store_of_ge (by omega)]

theorem update_eq_store (m : Memory) (a : Nat) (v : BitVec 8) :
    Function.update m a v = m.store a [v] := by
  funext x
  by_cases hx : x = a
  · have hself : m.store a [v] (a + 0) = v := store_add Nat.zero_lt_one
    rw [hx, Function.update_self]
    exact hself.symm
  · rw [Function.update_of_ne hx, store_outside (by simp; omega)]

/-! ## Words -/

def word (m : Memory) (a : Nat) : BitVec 32 :=
  BitVec.ofNat 32 ((m a).toNat + 2 ^ 8 * (m (a + 1)).toNat + 2 ^ 16 * (m (a + 2)).toNat +
    2 ^ 24 * (m (a + 3)).toNat)

/-- Byte `k` of a value. -/
def byteOf {w : Nat} (v : BitVec w) (k : Nat) : BitVec 8 := BitVec.ofNat 8 (v.toNat / 2 ^ (8 * k))

def setWord (m : Memory) (a : Nat) (v : BitVec 32) : Memory :=
  m.store a [byteOf v 0, byteOf v 1, byteOf v 2, byteOf v 3]

theorem toNat_word (m : Memory) (a : Nat) :
    (m.word a).toNat = (m a).toNat + 2 ^ 8 * (m (a + 1)).toNat + 2 ^ 16 * (m (a + 2)).toNat +
      2 ^ 24 * (m (a + 3)).toNat := by
  have h0 := (m a).isLt
  have h1 := (m (a + 1)).isLt
  have h2 := (m (a + 2)).isLt
  have h3 := (m (a + 3)).isLt
  rw [word, BitVec.toNat_ofNat, Nat.mod_eq_of_lt (by omega)]

/-- To copy a word is to copy four bytes. -/
theorem setWord_word (m m' : Memory) (a b : Nat) :
    m.setWord a (m'.word b) = m.store a (m'.load b 4) := by
  have hbytes : [byteOf (m'.word b) 0, byteOf (m'.word b) 1, byteOf (m'.word b) 2,
      byteOf (m'.word b) 3] = [m' b, m' (b + 1), m' (b + 2), m' (b + 3)] := by
    have h0 := (m' b).isLt
    have h1 := (m' (b + 1)).isLt
    have h2 := (m' (b + 2)).isLt
    have h3 := (m' (b + 3)).isLt
    simp only [byteOf, toNat_word]
    refine congrArg₂ _ ?_ (congrArg₂ _ ?_ (congrArg₂ _ ?_ (congrArg₂ _ ?_ rfl)))
    all_goals
      apply BitVec.eq_of_toNat_eq
      rw [BitVec.toNat_ofNat]
      omega
  exact congrArg (m.store a) hbytes

end Memory

end Live2dStm32.Lib
