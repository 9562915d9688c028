import Live2dStm32.I2c.Bus

/-
  The pin device of the board: the GPIO driver over the HAL and the ports of the H7 is one that
  the software I2C driver can rely on (`h7PinDev`). A pad is read off MODER, OTYPER and ODR, and
  IDR holds the levels of the wires.
-/

namespace Live2dStm32.I2c

open Live2dStm32.Lib Live2dStm32.Hal.Gpio Live2dStm32.Gpio

/-! ## The registers of a port -/

/-- A two-bit field has two bits. -/
theorem getLsbD_three (s : Nat) {j : Nat} (hj : j < 32) :
    (0x3#32 <<< s).getLsbD j = (decide (s = j) || decide (s + 1 = j)) := by
  have hsum : 0x3#32 <<< s = bit 32 s ||| bit 32 (s + 1) := by
    have hthree : 0x3#32 = bit 32 0 ||| bit 32 1 := by decide
    rw [hthree, BitVec.shiftLeft_or_distrib, bit, bit, ← BitVec.shiftLeft_add,
      ← BitVec.shiftLeft_add, Nat.zero_add, Nat.add_comm 1 s]
    rfl
  rw [hsum, BitVec.getLsbD_or, getLsbD_bit, getLsbD_bit]
  by_cases hs : s = j
  · simp [hs, hj]
  · by_cases hs1 : s + 1 = j
    · simp [hs1, hj]
    · simp [hs, hs1]

theorem moder_od (p : GpioPort) {init : GpioInit} (hmode : init.mode = gpioModeOutputOd)
    (l : Nat) {j : Nat} (hj : j < 32) :
    (initPort p init l).moder.getLsbD j =
      (p.moder.getLsbD j && !(decide (l * 2 = j) || decide (l * 2 + 1 = j)) ||
        decide (l * 2 = j)) := by
  have hfield : (init.mode &&& gpioModeField) <<< (l * 2) = bit 32 (l * 2) := by
    rw [hmode]
    rfl
  change ((p.moder &&& ~~~(0x3#32 <<< (l * 2))) |||
    ((init.mode &&& gpioModeField) <<< (l * 2))).getLsbD j = _
  rw [hfield, BitVec.getLsbD_or, BitVec.getLsbD_and, BitVec.getLsbD_not, getLsbD_three _ hj,
    getLsbD_bit]
  by_cases h : l * 2 = j
  · simp [h, hj]
  · simp [h, hj]

theorem otyper_od (p : GpioPort) {init : GpioInit} (hmode : init.mode = gpioModeOutputOd)
    {l : Nat} (hl : l < 32) (j : Nat) :
    (initPort p init l).otyper.getLsbD j = (p.otyper.getLsbD j || decide (l = j)) := by
  have hotyper : (initPort p init l).otyper = (p.otyper &&& ~~~bit 32 l) ||| bit 32 l := by
    unfold initPort
    rw [hmode]
    rfl
  rw [hotyper, getLsbD_or_bit _ hl, getLsbD_and_not_bit _ hl]
  by_cases h : l = j <;> simp [h]

theorem writeBsrr_set (odr : BitVec 32) {l : Nat} (hl : l < 16) :
    writeBsrr odr (bit 32 l) = odr ||| bit 32 l := by
  have hhalves : ∀ l < 16, bit 32 l >>> 16 = 0 ∧ bit 32 l &&& 0xFFFF = bit 32 l := by decide
  obtain ⟨hupper, hlower⟩ := hhalves l hl
  rw [writeBsrr, hupper, hlower]
  exact congrArg (· ||| bit 32 l) BitVec.and_allOnes

theorem writeBsrr_reset (odr : BitVec 32) {l : Nat} (hl : l < 16) :
    writeBsrr odr (bit 32 l <<< 16) = odr &&& ~~~bit 32 l := by
  have hhalves : ∀ l < 16, bit 32 l <<< 16 >>> 16 = bit 32 l ∧
      bit 32 l <<< 16 &&& 0xFFFF = 0 := by decide
  obtain ⟨hupper, hlower⟩ := hhalves l hl
  rw [writeBsrr, hupper, hlower]
  exact BitVec.or_zero

/-! ## The pads of the board -/

/-- The pins of the board, each under one number. -/
def OnBoard (pin : Int) : Prop := 0 ≤ pin ∧ pin < 16 * stm32h7.ports

instance (pin : Int) : Decidable (OnBoard pin) := inferInstanceAs (Decidable (_ ∧ _))

theorem pinByte_eq {pin : Int} (h : OnBoard pin) : pinByte pin = pin.toNat := by
  have hlt : pin < 176 := h.2
  unfold pinByte
  rw [BitVec.toNat_ofInt]
  have := h.1
  omega

theorem getPin_onBoard {pin : Int} (h : OnBoard pin) :
    getPin stm32h7 pin = some (stm32Pin (pinByte pin)) := by
  have hpin : IsPin stm32h7 pin := by
    unfold IsPin
    rw [pinByte_eq h]
    have hlt : pin < 176 := h.2
    change pin.toNat < 176
    omega
  rw [getPin_eq, if_pos hpin]

theorem eq_of_place {pin other : Int} (h : OnBoard pin) (hother : OnBoard other)
    (hport : portNo other = portNo pin) (hline : lineNo other = lineNo pin) : other = pin := by
  unfold portNo at hport
  unfold lineNo at hline
  rw [pinByte_eq h, pinByte_eq hother] at hport hline
  have := h.1
  have := hother.1
  omega

/-- MODER has two bits for a pin, 01 for an output. -/
def padOf (hw : PinHw) (pin : Int) : Pad where
  output :=
    let moder := (hw.gpio.port (portNo pin)).moder
    moder.getLsbD (lineNo pin * 2) && !moder.getLsbD (lineNo pin * 2 + 1)
  openDrain := (hw.gpio.port (portNo pin)).otyper.getLsbD (lineNo pin)
  out := (hw.odr (portNo pin)).getLsbD (lineNo pin)

theorem padOf_init (hw : PinHw) {pin other : Int} (h : OnBoard pin) (hother : OnBoard other)
    {init : GpioInit} (hpin : init.pin = bit 32 (lineNo pin))
    (hmode : init.mode = gpioModeOutputOd) :
    padOf { hw with gpio := halGpioInit hw.gpio (portNo pin) init } other =
      if other = pin then ⟨true, true, (padOf hw pin).out⟩ else padOf hw other := by
  have hl := lineNo_lt pin
  have hlo := lineNo_lt other
  unfold padOf
  rw [halGpioInit_port _ _ (by omega) hpin]
  by_cases hport : portNo other = portNo pin
  · rw [hport, setReg_same]
    dsimp only
    rw [moder_od _ hmode _ (show lineNo other * 2 < 32 by omega),
      moder_od _ hmode _ (show lineNo other * 2 + 1 < 32 by omega), otyper_od _ hmode (by omega)]
    by_cases hline : lineNo other = lineNo pin
    · have heq := eq_of_place h hother hport hline
      simp [heq]
    · have hne : other ≠ pin := fun heq => hline (congrArg lineNo heq)
      have h0 : lineNo pin * 2 ≠ lineNo other * 2 := by omega
      have h1 : lineNo pin * 2 + 1 ≠ lineNo other * 2 := by omega
      have h2 : lineNo pin * 2 ≠ lineNo other * 2 + 1 := by omega
      simp [hne, h0, h1, h2, Ne.symm hline]
  · have hne : other ≠ pin := fun heq => hport (congrArg portNo heq)
    rw [setReg_ne _ _ hport, if_neg hne]

theorem padOf_write (hw : PinHw) {pin other : Int} (h : OnBoard pin) (hother : OnBoard other)
    (value : Int) :
    padOf (halGpioWritePin hw (portNo pin) (bit 32 (lineNo pin)) value) other =
      if other = pin then { padOf hw pin with out := value ≠ 0 } else padOf hw other := by
  have hl := lineNo_lt pin
  unfold padOf halGpioWritePin
  dsimp only
  by_cases hport : portNo other = portNo pin
  · rw [hport, setReg_same]
    by_cases hvalue : value = 0
    · rw [if_neg (by simp [hvalue]), writeBsrr_reset _ hl, getLsbD_and_not_bit _ (by omega)]
      by_cases hline : lineNo other = lineNo pin
      · have heq := eq_of_place h hother hport hline
        simp [heq, hvalue]
      · have hne : other ≠ pin := fun heq => hline (congrArg lineNo heq)
        simp [hne, Ne.symm hline]
    · rw [if_pos hvalue, writeBsrr_set _ hl, getLsbD_or_bit _ (by omega)]
      by_cases hline : lineNo other = lineNo pin
      · have heq := eq_of_place h hother hport hline
        simp [heq, hvalue]
      · have hne : other ≠ pin := fun heq => hline (congrArg lineNo heq)
        simp [hne, Ne.symm hline]
  · have hne : other ≠ pin := fun heq => hport (congrArg portNo heq)
    rw [setReg_ne _ _ hport, if_neg hne]

/-! ## Reading a pin -/

/-- IDR of a port: the levels of its sixteen wires. -/
def idrOf (level : Int → Bool) (gpio : Nat) : BitVec 32 :=
  ((List.range 16).filter fun l => level (16 * gpio + l : Nat)).foldl
    (fun m l => m ||| bit 32 l) 0

theorem idrOf_place (level : Int → Bool) {pin : Int} (h : OnBoard pin) :
    (idrOf level (portNo pin)).getLsbD (lineNo pin) = level pin := by
  have hplace : (16 * portNo pin + lineNo pin : Nat) = pin := by
    unfold portNo lineNo
    rw [Nat.div_add_mod, pinByte_eq h]
    exact Int.toNat_of_nonneg h.1
  have hlines : ∀ l ∈ (List.range 16).filter fun l => level (16 * portNo pin + l : Nat),
      l < 32 := by
    intro l hl
    have := List.mem_range.mp (List.mem_of_mem_filter hl)
    omega
  rw [idrOf, getLsbD_foldl_bit _ hlines]
  simp only [BitVec.ofNat_eq_ofNat, BitVec.getLsbD_zero, Bool.false_or, List.mem_filter,
    List.mem_range, lineNo_lt, true_and, hplace, Bool.decide_eq_true]

theorem halGpioReadPin_place (hw : PinHw) (level : Int → Bool) {pin : Int} (h : OnBoard pin) :
    halGpioReadPin { hw with idr := idrOf level } (portNo pin) (bit 32 (lineNo pin)) =
      if level pin then pinHigh else pinLow := by
  have hl := lineNo_lt pin
  have hzero := @and_bit_eq_zero_iff 32 (idrOf level (portNo pin)) (lineNo pin) (by omega)
  rw [idrOf_place level h] at hzero
  unfold halGpioReadPin
  by_cases hlevel : level pin = true
  · rw [if_pos (by rw [ne_eq, hzero]; simp [hlevel]), if_pos hlevel]
    rfl
  · rw [if_neg (by rw [not_not, hzero]; simp [hlevel]), if_neg hlevel]
    rfl

/-! ## The device -/

theorem modeInit_od (stack : GpioInit) (pinbit : BitVec 32) :
    (modeInit stack pinbit pinModeOutputOd).mode = gpioModeOutputOd := rfl

/-- `stack` is what GPIO_InitStruct holds in `stm32_pin_mode`. -/
def h7PinDev (stack : GpioInit) : PinDev (Board PinHw) where
  pinMode b pin mode := stm32PinMode stm32h7 h7PinHal b pin mode stack
  pinWrite b pin value := stm32PinWrite stm32h7 h7PinHal b pin value
  pinRead b level pin :=
    stm32PinRead stm32h7 h7PinHal { b with hw := { b.hw with idr := idrOf level } } pin
  pad b := padOf b.hw
  IsPin := OnBoard
  pad_modeOd b pin h := by
    rw [stm32PinMode, getPin_onBoard h]
    exact (padOf_init b.hw h h rfl (modeInit_od _ _)).trans (if_pos rfl)
  pad_modeOd_ne b pin other h hother hne := by
    rw [stm32PinMode, getPin_onBoard h]
    exact (padOf_init b.hw h hother rfl (modeInit_od _ _)).trans (if_neg hne)
  pad_write b pin value h := by
    rw [stm32PinWrite, getPin_onBoard h]
    exact (padOf_write b.hw h h value).trans (if_pos rfl)
  pad_write_ne b pin other value h hother hne := by
    rw [stm32PinWrite, getPin_onBoard h]
    exact (padOf_write b.hw h hother value).trans (if_neg hne)
  pinRead_eq b level pin h := by
    rw [stm32PinRead, getPin_onBoard h]
    exact halGpioReadPin_place b.hw level h

end Live2dStm32.I2c
