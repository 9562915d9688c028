import Live2dStm32.Gpio.Validation
import Live2dStm32.Kernel.Semaphore
import Live2dStm32.Lib.TwoWire

/-
  The software I2C driver on its two wires (drivers/drv_soft_i2c.c, i2c-bit-ops.c): `PinDev`
  is what it relies on of the pin device, and `Bus` the pins with what the master did so far and
  what was seen on the wires. A wire is low if the master or the slave pulls it low. The slave
  is any function of what the master did.

  The two layers of the driver follow, from `stm32_i2c_gpio_init` to `i2c_start`, and then what
  each of them does to the pins and to the list of acts.
-/

namespace Live2dStm32.I2c

open Live2dStm32.Lib.TwoWire Live2dStm32.Kernel Live2dStm32.Gpio

def pinHigh : Int := 1

/-! ## The pin device -/

/-- How a pin drives its wire. -/
structure Pad where
  output : Bool
  openDrain : Bool
  out : Bool
  deriving DecidableEq, Repr

def Pad.low (p : Pad) : Bool := p.output && !p.out

/-- An open drain that lets the wire go. -/
def Pad.released : Pad := ⟨true, true, true⟩

/-- The pin device: its three operations, with the levels of the wires for the third, and the
    pads its state stands for. -/
structure PinDev (M : Type) where
  pinMode : M → Int → Int → M
  pinWrite : M → Int → Int → M
  pinRead : M → (Int → Bool) → Int → Int
  pad : M → Int → Pad
  IsPin : Int → Prop
  pad_modeOd : ∀ (m : M) (pin : Int), IsPin pin →
    pad (pinMode m pin pinModeOutputOd) pin = ⟨true, true, (pad m pin).out⟩
  pad_modeOd_ne : ∀ (m : M) (pin other : Int), IsPin pin → IsPin other → other ≠ pin →
    pad (pinMode m pin pinModeOutputOd) other = pad m other
  pad_write : ∀ (m : M) (pin value : Int), IsPin pin →
    pad (pinWrite m pin value) pin = { pad m pin with out := value ≠ 0 }
  pad_write_ne : ∀ (m : M) (pin other value : Int), IsPin pin → IsPin other → other ≠ pin →
    pad (pinWrite m pin value) other = pad m other
  pinRead_eq : ∀ (m : M) (level : Int → Bool) (pin : Int), IsPin pin →
    pinRead m level pin = if level pin then pinHigh else pinLow

/-! ## The wires -/

/-- What the master does. -/
inductive Act where
  | mode (pin mode : Int)
  | write (pin value : Int)
  | read (pin : Int)
  | delay (us : Nat)
  deriving DecidableEq, Repr

/-- Whether the slave lets the wire of a pin go, after what the master did. -/
abbrev Slave : Type := List Act → Int → Bool

variable {M : Type} (dev : PinDev M) (slave : Slave)

/-- The latest act and the latest sample come first. -/
structure Bus (M : Type) where
  pins : M
  acts : List Act
  wave : List (Int → Bool)

def level (b : Bus M) (pin : Int) : Bool := !(dev.pad b.pins pin).low && slave b.acts pin

/-- The bus after an act that leaves the pins as `pins`, sampled. -/
def Bus.after (b : Bus M) (act : Act) (pins : M) : Bus M :=
  let b := { b with pins := pins, acts := act :: b.acts }
  { b with wave := level dev slave b :: b.wave }

def rtPinMode (b : Bus M) (pin mode : Int) : Bus M :=
  b.after dev slave (.mode pin mode) (dev.pinMode b.pins pin mode)

def rtPinWrite (b : Bus M) (pin value : Int) : Bus M :=
  b.after dev slave (.write pin value) (dev.pinWrite b.pins pin value)

def rtPinRead (b : Bus M) (pin : Int) : Bus M × Int :=
  -- the level is the one at the read: the slave may have moved since the act before
  let b := b.after dev slave (.read pin) b.pins
  (b, dev.pinRead b.pins (level dev slave b) pin)

def stm32Udelay (b : Bus M) (us : Nat) : Bus M := b.after dev slave (.delay us) b.pins

/-! ## i2c-bit-ops.c -/

/-- The fields of struct rt_i2c_bit_ops that `i2c_start` uses. -/
structure RtI2cBitOps (β : Type) where
  setSda : β → Int → β
  setScl : β → Int → β
  udelay : β → Nat → β
  delayUs : Nat

section BitOps

variable {β : Type} (ops : RtI2cBitOps β)

def i2cDelay (b : β) : β := ops.udelay b ((ops.delayUs + 1) >>> 1)

def i2cStart (b : β) : β :=
  let b := ops.setSda b 0
  let b := i2cDelay ops b
  ops.setScl b 0

end BitOps

/-! ## drv_soft_i2c.c -/

/-- struct stm32_soft_i2c_config: two pins. -/
structure SoftI2cConfig where
  scl : Int
  sda : Int
  sclPin : dev.IsPin scl
  sdaPin : dev.IsPin sda
  sdaNe : sda ≠ scl

variable {dev} (cfg : SoftI2cConfig dev)

def stm32I2cGpioInit (b : Bus M) : Bus M :=
  let b := rtPinMode dev slave b cfg.scl pinModeOutputOd
  let b := rtPinMode dev slave b cfg.sda pinModeOutputOd
  let b := rtPinWrite dev slave b cfg.scl pinHigh
  rtPinWrite dev slave b cfg.sda pinHigh

def stm32SetSda (b : Bus M) (state : Int) : Bus M :=
  if state ≠ 0 then rtPinWrite dev slave b cfg.sda pinHigh
  else rtPinWrite dev slave b cfg.sda pinLow

def stm32SetScl (b : Bus M) (state : Int) : Bus M :=
  if state ≠ 0 then rtPinWrite dev slave b cfg.scl pinHigh
  else rtPinWrite dev slave b cfg.scl pinLow

def stm32BitOps : RtI2cBitOps (Bus M) where
  setSda := stm32SetSda slave cfg
  setScl := stm32SetScl slave cfg
  udelay := stm32Udelay dev slave
  delayUs := 1

/-- The body of the loop of `stm32_i2c_bus_unlock`. -/
def clockPulse (b : Bus M) : Bus M :=
  let b := rtPinWrite dev slave b cfg.scl pinHigh
  let b := stm32Udelay dev slave b 100
  let b := rtPinWrite dev slave b cfg.scl pinLow
  stm32Udelay dev slave b 100

/-- `while (i++ < 9)`, with `n` rounds left. -/
def clockPulses : Nat → Bus M → Bus M
  | 0, b => b
  | n + 1, b => clockPulses n (clockPulse slave cfg b)

def stm32I2cBusUnlock (b : Bus M) : Bus M × Int :=
  let first := rtPinRead dev slave b cfg.sda
  let b := if pinLow = first.2 then clockPulses slave cfg 9 first.1 else first.1
  let last := rtPinRead dev slave b cfg.sda
  if pinLow = last.2 then (last.1, -rtError) else (last.1, rtEok)

/-- The body of the loop of `rt_hw_i2c_init`: `rt_i2c_bit_add_bus` uses no pin. -/
def initBus (b : Bus M) : Bus M × Int :=
  stm32I2cBusUnlock slave cfg (stm32I2cGpioInit slave cfg b)

def rtHwI2cInit (softI2cConfig : List (SoftI2cConfig dev)) (b : Bus M) : Bus M :=
  softI2cConfig.foldl (fun b cfg => (initBus slave cfg b).1) b

/-! ## What each function does -/

variable (b : Bus M) (act : Act) (pins : M)

@[simp] theorem after_pins : (b.after dev slave act pins).pins = pins := rfl

@[simp] theorem rtPinRead_pins (pin : Int) : (rtPinRead dev slave b pin).1.pins = b.pins := rfl

@[simp] theorem rtPinRead_acts (pin : Int) :
    (rtPinRead dev slave b pin).1.acts = .read pin :: b.acts := rfl

theorem level_of_low {b : Bus M} {pin : Int} (h : (dev.pad b.pins pin).low = true) :
    level dev slave b pin = false := by
  simp [level, h]

theorem level_of_released {b : Bus M} {pin : Int} (h : dev.pad b.pins pin = .released) :
    level dev slave b pin = slave b.acts pin := by
  simp [level, h, Pad.released, Pad.low]

/-- What is read on a wire that the master lets go is what the slave does. -/
theorem level_read {b : Bus M} {pin : Int} (h : dev.pad b.pins pin = .released) :
    level dev slave (rtPinRead dev slave b pin).1 pin = slave (.read pin :: b.acts) pin :=
  @level_of_released M dev slave (b.after dev slave (.read pin) b.pins) pin h

theorem low_write {pin : Int} (hpin : dev.IsPin pin) (h : (dev.pad b.pins pin).output = true) :
    (dev.pad (rtPinWrite dev slave b pin pinLow).pins pin).low = true := by
  simp [rtPinWrite, dev.pad_write _ _ _ hpin, Pad.low, h, pinLow]

theorem pad_write_scl (value : Int) :
    dev.pad (rtPinWrite dev slave b cfg.sda value).pins cfg.scl = dev.pad b.pins cfg.scl :=
  dev.pad_write_ne _ _ _ _ cfg.sdaPin cfg.sclPin cfg.sdaNe.symm

/-- The test of a read is one of the level at the read. -/
theorem if_pinLow {β : Type} {pin : Int} (hpin : dev.IsPin pin) (x y : β) :
    (if pinLow = (rtPinRead dev slave b pin).2 then x else y) =
      if level dev slave (rtPinRead dev slave b pin).1 pin then y else x := by
  change (if pinLow = dev.pinRead _ _ pin then x else y) =
    if level dev slave (b.after dev slave (.read pin) b.pins) pin then y else x
  rw [dev.pinRead_eq _ _ _ hpin]
  by_cases h : level dev slave (b.after dev slave (.read pin) b.pins) pin = true <;>
    simp [h, pinLow, pinHigh]

/-- What `stm32_i2c_gpio_init` adds to the acts. -/
def initActs : List Act :=
  [.write cfg.sda pinHigh, .write cfg.scl pinHigh, .mode cfg.sda pinModeOutputOd,
    .mode cfg.scl pinModeOutputOd]

theorem gpioInit_acts :
    (stm32I2cGpioInit slave cfg b).acts = initActs cfg ++ b.acts := rfl

theorem gpioInit_scl :
    dev.pad (stm32I2cGpioInit slave cfg b).pins cfg.scl = .released := by
  unfold stm32I2cGpioInit
  rw [pad_write_scl]
  simp [rtPinWrite, rtPinMode, dev.pad_write _ _ _ cfg.sclPin,
    dev.pad_modeOd_ne _ _ _ cfg.sdaPin cfg.sclPin cfg.sdaNe.symm,
    dev.pad_modeOd _ _ cfg.sclPin, Pad.released, pinHigh]

theorem gpioInit_sda :
    dev.pad (stm32I2cGpioInit slave cfg b).pins cfg.sda = .released := by
  unfold stm32I2cGpioInit rtPinWrite
  simp [dev.pad_write _ _ _ cfg.sdaPin, dev.pad_write_ne _ _ _ _ cfg.sclPin cfg.sdaPin cfg.sdaNe,
    rtPinMode, dev.pad_modeOd _ _ cfg.sdaPin, Pad.released, pinHigh]

theorem gpioInit_ne {pin : Int} (hpin : dev.IsPin pin) (hscl : pin ≠ cfg.scl)
    (hsda : pin ≠ cfg.sda) :
    dev.pad (stm32I2cGpioInit slave cfg b).pins pin = dev.pad b.pins pin := by
  simp [stm32I2cGpioInit, rtPinWrite, rtPinMode, dev.pad_write_ne _ _ _ _ cfg.sclPin hpin hscl,
    dev.pad_write_ne _ _ _ _ cfg.sdaPin hpin hsda, dev.pad_modeOd_ne _ _ _ cfg.sclPin hpin hscl,
    dev.pad_modeOd_ne _ _ _ cfg.sdaPin hpin hsda]

/-- What one clock pulse adds to the acts. -/
def pulseActs : List Act :=
  [.delay 100, .write cfg.scl pinLow, .delay 100, .write cfg.scl pinHigh]

theorem clockPulse_acts : (clockPulse slave cfg b).acts = pulseActs cfg ++ b.acts := rfl

theorem clockPulse_ne {pin : Int} (hpin : dev.IsPin pin) (hne : pin ≠ cfg.scl) :
    dev.pad (clockPulse slave cfg b).pins pin = dev.pad b.pins pin := by
  simp [clockPulse, stm32Udelay, rtPinWrite, dev.pad_write_ne _ _ _ _ cfg.sclPin hpin hne]

theorem clockPulse_scl :
    dev.pad (clockPulse slave cfg b).pins cfg.scl =
      { dev.pad b.pins cfg.scl with out := false } := by
  simp [clockPulse, stm32Udelay, rtPinWrite, dev.pad_write _ _ _ cfg.sclPin, pinLow]

theorem clockPulses_acts (n : Nat) :
    (clockPulses slave cfg n b).acts =
      (List.replicate n (pulseActs cfg)).flatten ++ b.acts := by
  induction n generalizing b with
  | zero => rfl
  | succ n ih =>
    rw [clockPulses, ih, clockPulse_acts, List.replicate_succ', List.flatten_append]
    simp

theorem clockPulses_ne {pin : Int} (hpin : dev.IsPin pin) (hne : pin ≠ cfg.scl) (n : Nat) :
    dev.pad (clockPulses slave cfg n b).pins pin = dev.pad b.pins pin := by
  induction n generalizing b with
  | zero => rfl
  | succ n ih => rw [clockPulses, ih, clockPulse_ne slave cfg b hpin hne]

/-- The last pulse leaves the clock low. -/
theorem clockPulses_scl (n : Nat) :
    dev.pad (clockPulses slave cfg (n + 1) b).pins cfg.scl =
      { dev.pad b.pins cfg.scl with out := false } := by
  induction n generalizing b with
  | zero => exact clockPulse_scl slave cfg b
  | succ n ih => rw [clockPulses, ih, clockPulse_scl]

end Live2dStm32.I2c
