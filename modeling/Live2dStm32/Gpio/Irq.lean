import Live2dStm32.Gpio.Pins
import Live2dStm32.Hal.Gpio
import Live2dStm32.Kernel.Semaphore

/-
  Pin interrupts of the GPIO driver (drivers/drv_gpio.c): the handler table with
  `pin_irq_enable_mask`, `stm32_pin_attach_irq`, `stm32_pin_dettach_irq` and
  `stm32_pin_irq_enable`.

  Only the HAL of the H7 is in the repository. The HAL is a parameter (`GpioHal`) of the
  operations, so what is proved without looking into it holds for every series.
-/

namespace Live2dStm32.Gpio

open Live2dStm32.Lib Live2dStm32.Kernel Live2dStm32.Hal.Gpio

/-! ## The state -/

/-- `struct rt_pin_irq_hdr`. -/
structure RtPinIrqHdr where
  pin : BitVec 16
  mode : BitVec 16
  hdr : BitVec 32
  args : BitVec 32
  deriving DecidableEq, Repr

/-- The free entry `{-1, 0, RT_NULL, RT_NULL}`. -/
def noHdr : RtPinIrqHdr := ⟨-1, 0, 0, 0⟩

/-- The recorded pin number. -/
def RtPinIrqHdr.pinNo (e : RtPinIrqHdr) : Int := e.pin.toInt

/-- `HAL_GPIO_Init` and `HAL_GPIO_DeInit` on hardware `H`. -/
structure GpioHal (H : Type) where
  init : H → Nat → GpioInit → H
  deInit : H → Nat → BitVec 32 → H

def h7Hal : GpioHal GpioHw := ⟨halGpioInit, halGpioDeInit⟩

variable {H : Type}

structure Board (H : Type) where
  pinIrqHdrTab : Nat → RtPinIrqHdr
  pinIrqEnableMask : BitVec 32
  nvic : IrqN → Bool
  hw : H

/-- From reset: no entry, no bit, no interrupt enabled. -/
def Board.reset (hw : H) : Board H := ⟨fun _ => noHdr, 0, fun _ => false, hw⟩

def Board.setHdr (b : Board H) (l : Nat) (e : RtPinIrqHdr) : Board H :=
  { b with pinIrqHdrTab := setReg b.pinIrqHdrTab l fun _ => e }

def halNvicEnableIRQ (nvic : IrqN → Bool) (n : IrqN) : IrqN → Bool :=
  fun k => if k = n then true else nvic k

def halNvicDisableIRQ (nvic : IrqN → Bool) (n : IrqN) : IrqN → Bool :=
  fun k => if k = n then false else nvic k

/-! ## The operations -/

def pinIrqModeRising : BitVec 16 := 0
def pinIrqModeFalling : BitVec 16 := 1
def pinIrqModeRisingFalling : BitVec 16 := 2

def pinIrqDisable : BitVec 32 := 0
def pinIrqEnable : BitVec 32 := 1

/-- The entry attach writes: pin and mode are cut to 16 bits. -/
def hdrOf (pin : Int) (mode hdr args : BitVec 32) : RtPinIrqHdr :=
  ⟨BitVec.ofInt 16 pin, mode.setWidth 16, hdr, args⟩

def stm32PinAttachIrq (soc : Soc) (b : Board H) (pin : Int) (mode hdr args : BitVec 32) :
    Board H × Int :=
  match lookup soc pin with
  | none => (b, rtEnosys)
  | some (_, irqindex) =>
    let e := b.pinIrqHdrTab irqindex
    if e.pinNo = pin ∧ e.hdr = hdr ∧ e.mode.setWidth 32 = mode ∧ e.args = args then (b, rtEok)
    else if e.pinNo ≠ -1 then (b, rtEbusy)
    else (b.setHdr irqindex (hdrOf pin mode hdr args), rtEok)

def stm32PinDettachIrq (soc : Soc) (b : Board H) (pin : Int) : Board H × Int :=
  match lookup soc pin with
  | none => (b, rtEnosys)
  | some (_, irqindex) =>
    if (b.pinIrqHdrTab irqindex).pinNo = -1 then (b, rtEok)
    else (b.setHdr irqindex noHdr, rtEok)

/-- GPIO_InitStruct as the enable branch fills it. `stack` is what the uninitialised variable
    held: the `switch` has no default, and Alternate is never set. -/
def enableInit (stack : GpioInit) (pinbit : BitVec 32) (mode : BitVec 16) : GpioInit :=
  let init := { stack with pin := pinbit, speed := gpioSpeedFreqHigh }
  if mode = pinIrqModeRising then
    { init with pull := gpioPulldown, mode := gpioModeItRising }
  else if mode = pinIrqModeFalling then
    { init with pull := gpioPullup, mode := gpioModeItFalling }
  else if mode = pinIrqModeRisingFalling then
    { init with pull := gpioNopull, mode := gpioModeItRisingFalling }
  else init

/-- GPIO_PIN_lo | … | GPIO_PIN_hi. -/
def pinRange (lo hi : Nat) : BitVec 32 :=
  (List.range' lo (hi + 1 - lo)).foldl (fun m i => m ||| bit 32 i) 0

/-- The mask the disable branch tests for a pin before it turns the interrupt off, or `none`
    where it turns it off without a test:
    `#if defined(SOC_SERIES_STM32F0) || defined(SOC_SERIES_STM32G0)`. -/
def disableGroup (series : SocSeries) (pinbit : BitVec 16) : Option (BitVec 32) :=
  let within (lo hi : Nat) : Prop := bit 16 lo ≤ pinbit ∧ pinbit ≤ bit 16 hi
  if series = .f0 ∨ series = .g0 then
    if within 0 1 then some (pinRange 0 1)
    else if within 2 3 then some (pinRange 2 3)
    else if within 4 15 then some (pinRange 4 15)
    else none
  else
    if within 5 9 then some (pinRange 5 9)
    else if within 10 15 then some (pinRange 10 15)
    else none

/-- PIN_IRQ_ENABLE of `stm32_pin_irq_enable`. -/
def irqEnable (soc : Soc) (hal : GpioHal H) (b : Board H) (pin : Int) (stack : GpioInit) :
    Board H × Int :=
  match lookup soc pin with
  | none => (b, rtEnosys)
  | some (index, irqindex) =>
    let e := b.pinIrqHdrTab irqindex
    if e.pinNo = -1 then (b, rtEnosys)
    else
      let irqmap := pinIrqMap soc.series irqindex
      ({ b with
         hw := hal.init b.hw index.gpio (enableInit stack index.pin e.mode)
         nvic := halNvicEnableIRQ b.nvic irqmap.irqno
         pinIrqEnableMask := b.pinIrqEnableMask ||| irqmap.pinbit.setWidth 32 }, rtEok)

/-- PIN_IRQ_DISABLE of `stm32_pin_irq_enable`. -/
def irqDisable (soc : Soc) (hal : GpioHal H) (b : Board H) (pin : Int) : Board H × Int :=
  match getPin soc pin with
  | none => (b, rtEnosys)
  | some index =>
    match getPinIrqMap soc.series index.pin with
    | none => (b, rtEnosys)
    | some irqmap =>
      let mask := b.pinIrqEnableMask &&& ~~~irqmap.pinbit.setWidth 32
      let off := match disableGroup soc.series irqmap.pinbit with
        | some group => decide (mask &&& group = 0)
        | none => true
      ({ b with
         hw := hal.deInit b.hw index.gpio index.pin
         pinIrqEnableMask := mask
         nvic := if off then halNvicDisableIRQ b.nvic irqmap.irqno else b.nvic }, rtEok)

def stm32PinIrqEnable (soc : Soc) (hal : GpioHal H) (b : Board H) (pin : Int)
    (enabled : BitVec 32) (stack : GpioInit) : Board H × Int :=
  match getPin soc pin with
  | none => (b, rtEnosys)
  | some _ =>
    if enabled = pinIrqEnable then irqEnable soc hal b pin stack
    else if enabled = pinIrqDisable then irqDisable soc hal b pin
    else (b, -rtEnosys)

/-- The pin recorded for the line of `pin`; -1 if there is none. -/
def Board.recorded (b : Board H) (pin : Int) : Int := (b.pinIrqHdrTab (lineNo pin)).pinNo

/-- A call into the driver. -/
inductive PinOp where
  | attach (pin : Int) (mode hdr args : BitVec 32)
  | dettach (pin : Int)
  | irqEnable (pin : Int) (enabled : BitVec 32) (stack : GpioInit)
  deriving DecidableEq, Repr

def call (soc : Soc) (hal : GpioHal H) (b : Board H) : PinOp → Board H × Int
  | .attach pin mode hdr args => stm32PinAttachIrq soc b pin mode hdr args
  | .dettach pin => stm32PinDettachIrq soc b pin
  | .irqEnable pin enabled stack => stm32PinIrqEnable soc hal b pin enabled stack

/-- The board after a call. -/
def after (soc : Soc) (hal : GpioHal H) (b : Board H) (op : PinOp) : Board H :=
  (call soc hal b op).1

/-! ## The mask the disable branch tests -/

theorem getLsbD_pinRange {lo hi : Nat} (h : hi < 32) (k : Nat) :
    (pinRange lo hi).getLsbD k = decide (lo ≤ k ∧ k ≤ hi) := by
  unfold pinRange
  rw [getLsbD_foldl_bit _ (fun i hi => by rw [List.mem_range'_1] at hi; omega)]
  rw [show (0 : BitVec 32).getLsbD k = false from BitVec.getLsbD_zero, Bool.false_or]
  apply decide_eq_decide.mpr
  rw [List.mem_range'_1]
  omega

/-- The lines 5–9 and 10–15, the sub-groups of the second part of the disable branch. -/
def SameSubgroup (l k : Nat) : Prop :=
  (5 ≤ l ∧ l ≤ 9 ∧ 5 ≤ k ∧ k ≤ 9) ∨ (10 ≤ l ∧ l ≤ 15 ∧ 10 ≤ k ∧ k ≤ 15)

instance (l k : Nat) : Decidable (SameSubgroup l k) := inferInstanceAs (Decidable (_ ∨ _))

/-- The lines whose bits keep the interrupt on when line `l` is disabled. -/
def Keeps (series : SocSeries) (l k : Nat) : Prop :=
  if series = .f0 ∨ series = .g0 then irqno3 l = irqno3 k ∧ k < 16 else SameSubgroup l k

theorem irqno3_eq_iff (l k : Nat) : irqno3 l = irqno3 k ↔
    (l ≤ 1 ∧ k ≤ 1) ∨ (2 ≤ l ∧ l ≤ 3 ∧ 2 ≤ k ∧ k ≤ 3) ∨ (4 ≤ l ∧ 4 ≤ k) := by
  unfold irqno3
  split_ifs <;> simp <;> omega

theorem irqno7_eq_iff {l k : Nat} (hl : l < 16) (hk : k < 16) :
    irqno7 l = irqno7 k ↔ l = k ∨ SameSubgroup l k := by
  have h : ∀ l k : Fin 16, irqno7 l = irqno7 k ↔ (l : Nat) = k ∨ SameSubgroup l k := by decide
  exact h ⟨l, hl⟩ ⟨k, hk⟩

theorem disableGroup_bit (series : SocSeries) {l : Nat} (hl : l < 16) :
    disableGroup series (bit 16 l) =
      if series = .f0 ∨ series = .g0 then
        if l ≤ 1 then some (pinRange 0 1) else if l ≤ 3 then some (pinRange 2 3)
        else some (pinRange 4 15)
      else if 5 ≤ l ∧ l ≤ 9 then some (pinRange 5 9)
      else if 10 ≤ l then some (pinRange 10 15)
      else none := by
  have hle : ∀ lo hi, lo < 16 → hi < 16 →
      ((bit 16 lo ≤ bit 16 l ∧ bit 16 l ≤ bit 16 hi) ↔ (lo ≤ l ∧ l ≤ hi)) := by
    intro lo hi hlo hhi
    rw [bit_le_bit hlo hl, bit_le_bit hl hhi]
  unfold disableGroup
  dsimp only
  rw [if_congr (hle 0 1 (by decide) (by decide)) rfl rfl,
    if_congr (hle 2 3 (by decide) (by decide)) rfl rfl,
    if_congr (hle 4 15 (by decide) (by decide)) rfl rfl,
    if_congr (hle 5 9 (by decide) (by decide)) rfl rfl,
    if_congr (hle 10 15 (by decide) (by decide)) rfl rfl]
  split_ifs <;> first | rfl | omega

/-- The interrupt is turned off exactly when no bit of `mask` keeps it on. -/
theorem disableGroup_off (series : SocSeries) {l : Nat} (hl : l < 16) (mask : BitVec 32) :
    (match disableGroup series (bit 16 l) with
      | some group => decide (mask &&& group = 0)
      | none => true) = true ↔ ∀ k, Keeps series l k → mask.getLsbD k = false := by
  have hrange : ∀ lo hi, hi < 16 → (∀ k, Keeps series l k ↔ lo ≤ k ∧ k ≤ hi) →
      (decide (mask &&& pinRange lo hi = 0) = true ↔
        ∀ k, Keeps series l k → mask.getLsbD k = false) := by
    intro lo hi hhi hk
    rw [decide_eq_true_iff, and_eq_zero_iff]
    simp only [getLsbD_pinRange (show hi < 32 by omega), decide_eq_true_eq, hk]
  have hkeeps : ∀ k, Keeps series l k ↔ if series = .f0 ∨ series = .g0 then
      ((l ≤ 1 ∧ k ≤ 1) ∨ (2 ≤ l ∧ l ≤ 3 ∧ 2 ≤ k ∧ k ≤ 3) ∨ (4 ≤ l ∧ 4 ≤ k)) ∧ k < 16
      else SameSubgroup l k := by
    intro k
    unfold Keeps
    rw [irqno3_eq_iff]
  unfold SameSubgroup at hkeeps
  rw [disableGroup_bit series hl]
  split_ifs with hs h1 h3 h59 h10
  · exact hrange 0 1 (by decide) fun k => by rw [hkeeps, if_pos hs]; omega
  · exact hrange 2 3 (by decide) fun k => by rw [hkeeps, if_pos hs]; omega
  · exact hrange 4 15 (by decide) fun k => by rw [hkeeps, if_pos hs]; omega
  · exact hrange 5 9 (by decide) fun k => by rw [hkeeps, if_neg hs]; omega
  · exact hrange 10 15 (by decide) fun k => by rw [hkeeps, if_neg hs]; omega
  · -- lines 0 to 4 have no group
    refine iff_of_true rfl fun k hk => ?_
    rw [hkeeps, if_neg hs] at hk
    omega

/-! ## What a call does -/

/-- The board after a successful enable. -/
def enabled (soc : Soc) (hal : GpioHal H) (b : Board H) (pin : Int) (stack : GpioInit) :
    Board H :=
  { b with
    hw := hal.init b.hw (portNo pin)
      (enableInit stack (bit 32 (lineNo pin)) (b.pinIrqHdrTab (lineNo pin)).mode)
    nvic := halNvicEnableIRQ b.nvic (irqnoOf soc.series (lineNo pin))
    pinIrqEnableMask := b.pinIrqEnableMask ||| bit 32 (lineNo pin) }

/-- What is left of the mask when line `l` is disabled. -/
def Board.maskWithout (b : Board H) (l : Nat) : BitVec 32 := b.pinIrqEnableMask &&& ~~~bit 32 l

/-- The disable branch turns the interrupt of line `l` off. -/
def TurnsOff (soc : Soc) (b : Board H) (l : Nat) : Prop :=
  ∀ k, Keeps soc.series l k → (b.maskWithout l).getLsbD k = false

/-- The board after a disable. -/
structure Disabled (soc : Soc) (hal : GpioHal H) (b : Board H) (pin : Int) (b' : Board H) :
    Prop where
  tab : b'.pinIrqHdrTab = b.pinIrqHdrTab
  mask : b'.pinIrqEnableMask = b.maskWithout (lineNo pin)
  off : TurnsOff soc b (lineNo pin) →
    b'.nvic = halNvicDisableIRQ b.nvic (irqnoOf soc.series (lineNo pin))
  on : ¬ TurnsOff soc b (lineNo pin) → b'.nvic = b.nvic
  hw : b'.hw = hal.deInit b.hw (portNo pin) (bit 32 (lineNo pin))

variable (soc : Soc) (hal : GpioHal H) (b : Board H)

theorem attach_not_pin {pin : Int} (h : ¬ IsPin soc pin) (mode hdr args : BitVec 32) :
    stm32PinAttachIrq soc b pin mode hdr args = (b, rtEnosys) := by
  unfold stm32PinAttachIrq
  rw [lookup_eq, if_neg h]

theorem attach_pin {pin : Int} (h : IsPin soc pin) (mode hdr args : BitVec 32) :
    stm32PinAttachIrq soc b pin mode hdr args =
      let e := b.pinIrqHdrTab (lineNo pin)
      if e.pinNo = pin ∧ e.hdr = hdr ∧ e.mode.setWidth 32 = mode ∧ e.args = args then (b, rtEok)
      else if b.recorded pin ≠ -1 then (b, rtEbusy)
      else (b.setHdr (lineNo pin) (hdrOf pin mode hdr args), rtEok) := by
  unfold stm32PinAttachIrq
  rw [lookup_eq, if_pos h]
  rfl

theorem dettach_not_pin {pin : Int} (h : ¬ IsPin soc pin) :
    stm32PinDettachIrq soc b pin = (b, rtEnosys) := by
  unfold stm32PinDettachIrq
  rw [lookup_eq, if_neg h]

theorem dettach_pin {pin : Int} (h : IsPin soc pin) :
    stm32PinDettachIrq soc b pin =
      if b.recorded pin = -1 then (b, rtEok)
      else (b.setHdr (lineNo pin) noHdr, rtEok) := by
  unfold stm32PinDettachIrq
  rw [lookup_eq, if_pos h]
  rfl

theorem irqEnable_not_pin {pin : Int} (h : ¬ IsPin soc pin) (enabled : BitVec 32)
    (stack : GpioInit) : stm32PinIrqEnable soc hal b pin enabled stack = (b, rtEnosys) := by
  unfold stm32PinIrqEnable
  rw [getPin_eq, if_neg h]

/-- Neither ENABLE nor DISABLE: nothing is done. -/
theorem irqEnable_other {pin : Int} (h : IsPin soc pin) {value : BitVec 32}
    (h1 : value ≠ pinIrqEnable) (h0 : value ≠ pinIrqDisable) (stack : GpioInit) :
    stm32PinIrqEnable soc hal b pin value stack = (b, -rtEnosys) := by
  unfold stm32PinIrqEnable
  rw [getPin_eq, if_pos h]
  dsimp only
  rw [if_neg h1, if_neg h0]

theorem irqEnable_enable {pin : Int} (h : IsPin soc pin) (stack : GpioInit) :
    stm32PinIrqEnable soc hal b pin pinIrqEnable stack =
      if b.recorded pin = -1 then (b, rtEnosys)
      else (enabled soc hal b pin stack, rtEok) := by
  unfold stm32PinIrqEnable irqEnable
  rw [getPin_eq, if_pos h, lookup_eq, if_pos h]
  dsimp only
  rw [if_pos rfl, pinIrqMap, setWidth_bit (lineNo_lt pin)]
  rfl

theorem irqEnable_disable {pin : Int} (h : IsPin soc pin) (stack : GpioInit) :
    ∃ b', stm32PinIrqEnable soc hal b pin pinIrqDisable stack = (b', rtEok) ∧
      Disabled soc hal b pin b' := by
  have hl : lineNo pin < 16 := lineNo_lt pin
  unfold stm32PinIrqEnable irqDisable
  rw [getPin_eq, if_pos h]
  dsimp only
  rw [if_neg (by decide), if_pos rfl, stm32Pin_byte, getPinIrqMap_bit soc.series hl]
  dsimp only [pinIrqMap]
  rw [setWidth_bit hl]
  have hoff := disableGroup_off soc.series hl (b.maskWithout (lineNo pin))
  refine ⟨_, rfl, rfl, rfl, fun ht => ?_, fun ht => ?_, rfl⟩
  · exact if_pos (hoff.mpr ht)
  · exact if_neg fun hc => ht (hoff.mp hc)

end Live2dStm32.Gpio
