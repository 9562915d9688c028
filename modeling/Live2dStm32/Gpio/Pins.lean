import Live2dStm32.Lib.Bits

/-
  The pin table of the GPIO driver (drivers/drv_gpio.c): `pins`, `get_pin`, `bit2bitno` and
  `pin_irq_map`, for every SoC series the file is compiled for.

  `getPin_eq`, `lookup_eq`: an argument is looked up by its low eight bits; pin `16 p + l` is
  on port `p` and EXTI line `l`.
-/

namespace Live2dStm32.Gpio

open Live2dStm32.Lib

/-! ## The chip -/

/-- The SoC series named in the drivers. -/
inductive SocSeries where
  | f0
  | f1
  | f2
  | f4
  | f7
  | g0
  | g4
  | h7
  | l0
  | l1
  | l4
  deriving DecidableEq, Repr

/-- `ports`: how many of GPIOA..GPIOK the chip has. The `#if`s of `pins` are nested, so they
    are the first ones. -/
structure Soc where
  series : SocSeries
  ports : Nat
  portsLe : ports ≤ 11
  deriving DecidableEq, Repr

/-- The chip of the board. -/
def stm32h7 : Soc := ⟨.h7, 11, Nat.le_refl _⟩

/-! ## Pins -/

structure PinIndex where
  index : Int
  gpio : Nat
  pin : BitVec 32
  deriving DecidableEq, Repr

/-- `__STM32_PIN(index, gpio, gpio_index)`. -/
def stm32Pin (i : Nat) : PinIndex := ⟨i, i / 16, bit 32 (i % 16)⟩

/-- The entries stand in order, 16 a port, with none reserved. -/
def pins (soc : Soc) : List PinIndex := (List.range (16 * soc.ports)).map stm32Pin

/-- `get_pin`: the argument is a `uint8_t`. -/
def getPin (soc : Soc) (pin : Int) : Option PinIndex :=
  match (pins soc)[(BitVec.ofInt 8 pin).toNat]? with
  | some index => if index.index = -1 then none else some index
  | none => none

/-- `bit2bitno`. -/
def bit2bitno (b : BitVec 32) : Int :=
  match (List.range 32).find? fun i => bit 32 i == b with
  | some i => i
  | none => -1

/-! ## Interrupt lines -/

inductive IrqN where
  | exti0_1
  | exti2_3
  | exti4_15
  | exti0
  | exti1
  | exti2
  | exti3
  | exti4
  | exti9_5
  | exti15_10
  deriving DecidableEq, Repr

structure PinIrqMap where
  pinbit : BitVec 16
  irqno : IrqN
  deriving DecidableEq, Repr

/-- The interrupt of EXTI line `l` on the series with three of them. -/
def irqno3 (l : Nat) : IrqN :=
  if l ≤ 1 then .exti0_1 else if l ≤ 3 then .exti2_3 else .exti4_15

/-- The interrupt of EXTI line `l` on the series with seven of them. -/
def irqno7 (l : Nat) : IrqN :=
  match l with
  | 0 => .exti0
  | 1 => .exti1
  | 2 => .exti2
  | 3 => .exti3
  | 4 => .exti4
  | _ => if l ≤ 9 then .exti9_5 else .exti15_10

/-- `#if defined(SOC_SERIES_STM32F0) || defined(SOC_SERIES_STM32L0) ||
    defined(SOC_SERIES_STM32G0)`, as before `pin_irq_map` and before the vectors. -/
def irqnoOf : SocSeries → Nat → IrqN
  | .f0 | .l0 | .g0 => irqno3
  | _ => irqno7

def pinIrqMap (series : SocSeries) (l : Nat) : PinIrqMap := ⟨bit 16 l, irqnoOf series l⟩

/-- ITEM_NUM(pin_irq_map). -/
def pinIrqMapNum : Nat := 16

def getPinIrqMap (series : SocSeries) (pinbit : BitVec 32) : Option PinIrqMap :=
  let mapindex := bit2bitno pinbit
  if mapindex < 0 ∨ pinIrqMapNum ≤ mapindex then none
  else some (pinIrqMap series mapindex.toNat)

/-- The entry and the EXTI line of a pin argument, as attach, dettach and enable find them. -/
def lookup (soc : Soc) (pin : Int) : Option (PinIndex × Nat) :=
  match getPin soc pin with
  | none => none
  | some index =>
    let irqindex := bit2bitno index.pin
    if irqindex < 0 ∨ pinIrqMapNum ≤ irqindex then none
    else some (index, irqindex.toNat)

/-! ## Looking up a pin -/

/-- The pin argument as `get_pin` receives it. -/
def pinByte (pin : Int) : Nat := (BitVec.ofInt 8 pin).toNat

/-- The pins of the chip, as arguments. -/
def IsPin (soc : Soc) (pin : Int) : Prop := pinByte pin < 16 * soc.ports

instance (soc : Soc) (pin : Int) : Decidable (IsPin soc pin) :=
  inferInstanceAs (Decidable (_ < _))

/-- The port and the EXTI line of a pin argument. -/
def portNo (pin : Int) : Nat := pinByte pin / 16

def lineNo (pin : Int) : Nat := pinByte pin % 16

theorem lineNo_lt (pin : Int) : lineNo pin < 16 := Nat.mod_lt _ (by decide)

theorem portNo_lt (pin : Int) : portNo pin < 16 := by
  have := (BitVec.ofInt 8 pin).isLt
  unfold portNo pinByte
  omega

theorem stm32Pin_byte (pin : Int) :
    stm32Pin (pinByte pin) = ⟨pinByte pin, portNo pin, bit 32 (lineNo pin)⟩ := rfl

theorem getPin_eq (soc : Soc) (pin : Int) :
    getPin soc pin =
      if IsPin soc pin then some (stm32Pin (pinByte pin)) else none := by
  unfold getPin pins
  rw [List.getElem?_map]
  change (match Option.map stm32Pin (List.range (16 * soc.ports))[pinByte pin]? with
    | some index => if index.index = -1 then none else some index
    | none => none) = _
  by_cases h : IsPin soc pin
  · rw [List.getElem?_range h, if_pos h]
    have : (pinByte pin : Int) ≠ -1 := by omega
    simp only [Option.map_some, stm32Pin, this, if_false]
  · rw [List.getElem?_eq_none (by rw [List.length_range]; exact Nat.le_of_not_lt h), if_neg h]
    rfl

theorem bit2bitno_bit {l : Nat} (hl : l < 32) : bit2bitno (bit 32 l) = l := by
  unfold bit2bitno
  have h : (List.range 32).find? (fun i => bit 32 i == bit 32 l) = some l := by
    rw [List.find?_eq_some_iff_append]
    refine ⟨beq_self_eq_true _, List.range l, (List.range' (l + 1) (31 - l)), ?_, ?_⟩
    · rw [List.range_eq_range', List.range_eq_range', ← List.range'_succ]
      have h := List.range'_append_1 (s := 0) (m := l) (n := 31 - l + 1)
      rw [Nat.zero_add, show l + (31 - l + 1) = 32 by omega] at h
      exact h.symm
    · intro i hi
      have hi : i < l := List.mem_range.mp hi
      rw [Bool.not_eq_true', beq_eq_false_iff_ne]
      intro hb
      exact absurd (bit_inj (by omega) hb) (Nat.ne_of_lt hi)
  rw [h]

theorem lookup_eq (soc : Soc) (pin : Int) :
    lookup soc pin =
      if IsPin soc pin then some (stm32Pin (pinByte pin), lineNo pin) else none := by
  unfold lookup
  rw [getPin_eq]
  by_cases h : IsPin soc pin
  · rw [if_pos h, if_pos h]
    have hl : lineNo pin < 16 := lineNo_lt pin
    have hno : bit2bitno (stm32Pin (pinByte pin)).pin = lineNo pin := bit2bitno_bit (by omega)
    dsimp only
    simp only [hno, pinIrqMapNum]
    rw [if_neg (by omega), Int.toNat_natCast]
  · rw [if_neg h, if_neg h]

theorem getPinIrqMap_bit (series : SocSeries) {l : Nat} (hl : l < 16) :
    getPinIrqMap series (bit 32 l) = some (pinIrqMap series l) := by
  unfold getPinIrqMap
  rw [bit2bitno_bit (by omega)]
  dsimp only
  rw [if_neg (by unfold pinIrqMapNum; omega), Int.toNat_natCast]

theorem setWidth_bit {l : Nat} (hl : l < 16) : (bit 16 l).setWidth 32 = bit 32 l := by
  apply BitVec.eq_of_getLsbD_eq
  intro i hi
  rw [BitVec.getLsbD_setWidth, getLsbD_bit, getLsbD_bit]
  have : l < 32 := by omega
  simp [hi, hl, this]

end Live2dStm32.Gpio
