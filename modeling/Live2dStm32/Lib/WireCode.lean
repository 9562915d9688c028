import Live2dStm32.Lib.TwoWire
import Mathlib.Data.List.Induction

/-
  What the two lines say: start conditions, stop conditions, and bits. A bit is what the data
  line is when the clock rises, unless the data line moves before the clock falls: a fall is a
  start condition, a rise a stop condition. A decoder is fed one sample after the other.
-/

namespace Live2dStm32.Lib.TwoWire

inductive Symbol where
  | start
  | stop
  | bit (b : Bool)
  deriving DecidableEq, Repr

/-- The last sample, the bit of the clock pulse it is in, and the symbols so far, the latest
    first. -/
structure Wire where
  lines : Lines
  pending : Option Bool
  symbols : List Symbol
  deriving DecidableEq, Repr

def Wire.feed (w : Wire) (l : Lines) : Wire :=
  match w.lines.scl, l.scl with
  | false, false => { w with lines := l }
  | false, true => { w with lines := l, pending := some l.sda }
  | true, false => ⟨l, none, (w.pending.map Symbol.bit).toList ++ w.symbols⟩
  | true, true =>
    if w.lines.sda = l.sda then { w with lines := l }
    else ⟨l, none, (if l.sda then .stop else .start) :: w.symbols⟩

/-- What a capture says, from a free bus on. -/
def decode (capture : List Lines) : Wire :=
  capture.foldr (fun l w => w.feed l) ⟨⟨true, true⟩, none, []⟩

variable {w : Wire} {l : Lines}

@[simp] theorem feed_lines : (w.feed l).lines = l := by
  unfold Wire.feed
  split <;> try rfl
  split <;> rfl

/-- A low clock, low again or not. -/
theorem feed_of_low (h : w.lines.scl = false) :
    w.feed l = if l.scl then { w with lines := l, pending := some l.sda }
      else { w with lines := l } := by
  unfold Wire.feed
  cases hl : l.scl <;> simp [h]

/-- The clock falls: the bit of its pulse is one. -/
theorem feed_fall (h : w.lines.scl = true) (hl : l.scl = false) :
    w.feed l = ⟨l, none, (w.pending.map Symbol.bit).toList ++ w.symbols⟩ := by
  simp [Wire.feed, h, hl]

/-- The clock stays high. -/
theorem feed_of_high (h : w.lines.scl = true) (hl : l.scl = true) :
    w.feed l = if w.lines.sda = l.sda then { w with lines := l }
      else ⟨l, none, (if l.sda then .stop else .start) :: w.symbols⟩ := by
  simp [Wire.feed, h, hl]

/-! ## Bytes -/

/-- The low `n` bits, the highest first. -/
def lowBits (data : BitVec 8) : Nat → List Bool
  | 0 => []
  | n + 1 => data.getLsbD n :: lowBits data n

def byteBits (data : BitVec 8) : List Bool := lowBits data 8

/-- One bit more at the low end. -/
def shiftIn (data : BitVec 8) (b : Bool) : BitVec 8 := if b then (data <<< 1) ||| 1 else data <<< 1

/-- A byte out of bits, the first the highest. -/
def bitsByte (bits : List Bool) : BitVec 8 := bits.foldl shiftIn 0

theorem shiftIn_zero (data : BitVec 8) (b : Bool) : (shiftIn data b).getLsbD 0 = b := by
  cases b <;> simp [shiftIn]

theorem shiftIn_succ (data : BitVec 8) (b : Bool) {i : Nat} (h : i + 1 < 8) :
    (shiftIn data b).getLsbD (i + 1) = data.getLsbD i := by
  have hi : i < 8 := Nat.lt_of_succ_lt h
  cases b <;> simp [shiftIn, h, BitVec.getLsbD_eq_getElem hi]

theorem lowBits_shiftIn (data : BitVec 8) (b : Bool) {n : Nat} (h : n < 8) :
    lowBits (shiftIn data b) (n + 1) = lowBits data n ++ [b] := by
  induction n with
  | zero => exact congrArg (fun b => [b]) (shiftIn_zero data b)
  | succ n ih =>
    rw [lowBits, shiftIn_succ data b h, ih (Nat.lt_of_succ_lt h)]
    rfl

theorem lowBits_foldl (bits : List Bool) (data : BitVec 8) (h : bits.length ≤ 8) :
    lowBits (bits.foldl shiftIn data) bits.length = bits := by
  induction bits using List.reverseRecOn with
  | nil => rfl
  | append_singleton bits b ih =>
    rw [List.length_append] at h
    rw [List.foldl_append, List.length_append]
    exact (lowBits_shiftIn _ b h).trans (congrArg (· ++ [b]) (ih (Nat.le_of_lt h)))

theorem byteBits_bitsByte {bits : List Bool} (h : bits.length = 8) :
    byteBits (bitsByte bits) = bits := by
  have hlow := lowBits_foldl bits 0 (Nat.le_of_eq h)
  rw [h] at hlow
  exact hlow

end Live2dStm32.Lib.TwoWire
