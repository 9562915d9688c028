import Live2dStm32.I2c.Gpio

/-
  Recovery of a locked bus (drivers/drv_soft_i2c.c): `stm32_i2c_bus_unlock` after
  `stm32_i2c_gpio_init`, for every pin device, every state of the pins before and every slave.

  `unlockOk_iff`: the bus is left as the code that follows takes it to be, unless SDA is not
  the same at the two reads. A slave that lets SDA go during the nine pulses is reported as a
  success, but the last pulse has left SCL low, and `recovered_starts`: the next `i2c_start` gives
  no start condition.
-/

namespace Live2dStm32.I2c

open Live2dStm32.Lib.TwoWire Live2dStm32.Kernel Live2dStm32.Hal.Gpio Live2dStm32.Gpio

variable {M : Type} {dev : PinDev M} (slave : Slave) (cfg : SoftI2cConfig dev)

/-! ## What unlocking is for -/

/-- What is on the two wires, and what was seen on them so far. -/
def lines (b : Bus M) : Lines := ⟨level dev slave b cfg.scl, level dev slave b cfg.sda⟩

def capture (b : Bus M) : List Lines := b.wave.map fun level => ⟨level cfg.scl, level cfg.sda⟩

/-- The bus as `i2c_start` requires it. -/
structure Idle (b : Bus M) : Prop where
  scl : dev.pad b.pins cfg.scl = .released
  sda : dev.pad b.pins cfg.sda = .released
  high : level dev slave b cfg.sda = true

/-- `i2c_start` gives a start condition, if the slave does not hold the clock then. -/
def CanStart (b : Bus M) : Prop :=
  slave b.acts cfg.scl = true → slave (.write cfg.sda pinLow :: b.acts) cfg.scl = true →
    starts (capture cfg (i2cStart (stm32BitOps slave cfg) b)) = starts (capture cfg b) + 1

/-- The acts of an unlocking that gives nine pulses, from its first read to its last. -/
def ninePulses (acts : List Act) : List Act :=
  .read cfg.sda :: ((List.replicate 9 (pulseActs cfg)).flatten ++ .read cfg.sda :: acts)

/-- A success leaves the bus idle; an error is a slave that holds SDA after nine pulses. -/
structure UnlockOk (b : Bus M) (out : Bus M × Int) : Prop where
  idle : out.2 = rtEok → Idle slave cfg out.1 ∧ CanStart slave cfg out.1
  locked : out.2 ≠ rtEok → out.1.acts = ninePulses cfg b.acts ∧
    dev.pad out.1.pins cfg.sda = .released ∧ slave out.1.acts cfg.sda = false

/-! ## Starting -/

variable {slave cfg} {b : Bus M}

theorem i2cStart_eq :
    i2cStart (stm32BitOps slave cfg) b =
      rtPinWrite dev slave
        (stm32Udelay dev slave (rtPinWrite dev slave b cfg.sda pinLow) 1) cfg.scl pinLow := by
  simp [i2cStart, i2cDelay, stm32BitOps, stm32SetSda, stm32SetScl]

/-- The three samples an `i2c_start` adds. -/
theorem i2cStart_capture :
    capture cfg (i2cStart (stm32BitOps slave cfg) b) =
      lines slave cfg (i2cStart (stm32BitOps slave cfg) b) ::
        lines slave cfg (stm32Udelay dev slave (rtPinWrite dev slave b cfg.sda pinLow) 1) ::
          lines slave cfg (rtPinWrite dev slave b cfg.sda pinLow) :: capture cfg b := by
  rw [i2cStart_eq]
  rfl

/-- The last thing `i2c_start` does is to pull the clock low. -/
theorem i2cStart_scl (h : (dev.pad b.pins cfg.scl).output = true) :
    (lines slave cfg (i2cStart (stm32BitOps slave cfg) b)).scl = false := by
  rw [i2cStart_eq]
  refine level_of_low slave (low_write slave _ cfg.sclPin ?_)
  change (dev.pad (rtPinWrite dev slave b cfg.sda pinLow).pins cfg.scl).output = true
  rw [pad_write_scl]
  exact h

theorem Idle.canStart (h : Idle slave cfg b)
    (hb : ∃ earlier, capture cfg b = lines slave cfg b :: earlier) : CanStart slave cfg b := by
  intro hscl hscl'
  obtain ⟨earlier, hb⟩ := hb
  have hopen : dev.pad (rtPinWrite dev slave b cfg.sda pinLow).pins cfg.scl = .released :=
    (pad_write_scl slave cfg b pinLow).trans h.scl
  have hsda : (lines slave cfg (rtPinWrite dev slave b cfg.sda pinLow)).sda = false :=
    level_of_low slave (low_write slave b cfg.sdaPin (by rw [h.sda]; rfl))
  have hstart : IsStart (lines slave cfg b)
      (lines slave cfg (rtPinWrite dev slave b cfg.sda pinLow)) := by
    have hbefore : (lines slave cfg b).scl = true :=
      (level_of_released slave h.scl).trans hscl
    have hafter : (lines slave cfg (rtPinWrite dev slave b cfg.sda pinLow)).scl = true :=
      (level_of_released slave hopen).trans hscl'
    exact ⟨congrArg₂ Lines.mk hbefore h.high, congrArg₂ Lines.mk hafter hsda⟩
  rw [i2cStart_capture, starts_cons_of_scl (i2cStart_scl (by rw [h.scl]; rfl)),
    starts_cons_of_sda hsda, hb, starts_cons_start hstart]

/-- While the master holds the clock, `i2c_start` gives no start condition. -/
theorem starts_i2cStart_of_scl_low (h : (dev.pad b.pins cfg.scl).low = true) :
    starts (capture cfg (i2cStart (stm32BitOps slave cfg) b)) = starts (capture cfg b) := by
  have hpad := pad_write_scl slave cfg b pinLow
  have hout : (dev.pad b.pins cfg.scl).output = true := by
    rw [Pad.low, Bool.and_eq_true] at h
    exact h.1
  rw [i2cStart_capture]
  refine @starts_append_low (capture cfg b) [_, _, _] ?_
  intro l hl
  simp only [List.mem_cons, List.not_mem_nil, or_false] at hl
  obtain rfl | rfl | rfl := hl
  · exact i2cStart_scl hout
  · exact level_of_low slave (by rw [← hpad] at h; exact h)
  · exact level_of_low slave (by rw [← hpad] at h; exact h)

/-! ## Unlocking -/

/-- The bus after the first read and, if SDA is low, the nine pulses. -/
def clocked (slave : Slave) (cfg : SoftI2cConfig dev) (b : Bus M) : Bus M :=
  let b := (rtPinRead dev slave b cfg.sda).1
  if level dev slave b cfg.sda then b else clockPulses slave cfg 9 b

theorem unlock_eq :
    stm32I2cBusUnlock slave cfg b =
      let last := (rtPinRead dev slave (clocked slave cfg b) cfg.sda).1
      if level dev slave last cfg.sda then (last, rtEok) else (last, -rtError) := by
  unfold stm32I2cBusUnlock
  dsimp only
  rw [if_pinLow slave b cfg.sdaPin, if_pinLow slave _ cfg.sdaPin]
  rfl

/-- A success is all right if the bus is idle, an error if it comes after nine pulses. -/
theorem unlockOk_ok_iff {last : Bus M}
    (hlast : ∃ earlier, capture cfg last = lines slave cfg last :: earlier) :
    UnlockOk slave cfg b (last, rtEok) ↔ Idle slave cfg last := by
  constructor
  · intro h
    exact (h.idle rfl).1
  · intro h
    exact ⟨fun _ => ⟨h, h.canStart hlast⟩, fun hne => absurd rfl hne⟩

theorem unlockOk_error_iff {last : Bus M} (hsda : dev.pad last.pins cfg.sda = .released)
    (h : slave last.acts cfg.sda = false) :
    UnlockOk slave cfg b (last, -rtError) ↔ last.acts = ninePulses cfg b.acts := by
  have hne : -rtError ≠ rtEok := by simp [rtError, rtEok]
  constructor
  · intro hok
    exact (hok.locked hne).1
  · intro hacts
    exact ⟨fun heq => absurd heq hne, fun _ => ⟨hacts, hsda, h⟩⟩

/-- A bus that is free at the first read is not clocked. -/
theorem clocked_free (hsda : dev.pad b.pins cfg.sda = .released)
    (h : slave (.read cfg.sda :: b.acts) cfg.sda = true) :
    clocked slave cfg b = (rtPinRead dev slave b cfg.sda).1 :=
  if_pos ((level_read slave hsda).trans h)

theorem clocked_locked (hsda : dev.pad b.pins cfg.sda = .released)
    (h : slave (.read cfg.sda :: b.acts) cfg.sda = false) :
    clocked slave cfg b = clockPulses slave cfg 9 (rtPinRead dev slave b cfg.sda).1 := by
  refine if_neg ?_
  rw [level_read slave hsda, h]
  simp

theorem clocked_ne {pin : Int} (hpin : dev.IsPin pin) (hne : pin ≠ cfg.scl) :
    dev.pad (clocked slave cfg b).pins pin = dev.pad b.pins pin := by
  unfold clocked
  dsimp only
  split
  · rfl
  · rw [clockPulses_ne slave cfg _ hpin hne, rtPinRead_pins]

theorem clocked_sda : dev.pad (clocked slave cfg b).pins cfg.sda = dev.pad b.pins cfg.sda :=
  clocked_ne cfg.sdaPin cfg.sdaNe

/-- The result is what the slave does at the last read. -/
theorem unlock_result (hsda : dev.pad b.pins cfg.sda = .released) :
    stm32I2cBusUnlock slave cfg b =
      let last := (rtPinRead dev slave (clocked slave cfg b) cfg.sda).1
      if slave (.read cfg.sda :: (clocked slave cfg b).acts) cfg.sda then (last, rtEok)
      else (last, -rtError) := by
  rw [unlock_eq]
  dsimp only
  rw [level_read slave (clocked_sda.trans hsda)]

theorem unlockOk_free (hscl : dev.pad b.pins cfg.scl = .released)
    (hsda : dev.pad b.pins cfg.sda = .released)
    (h : slave (.read cfg.sda :: b.acts) cfg.sda = true) :
    UnlockOk slave cfg b (stm32I2cBusUnlock slave cfg b) ↔
      slave (.read cfg.sda :: .read cfg.sda :: b.acts) cfg.sda = true := by
  rw [unlock_result hsda, clocked_free hsda h, rtPinRead_acts]
  dsimp only
  by_cases hlast : slave (.read cfg.sda :: .read cfg.sda :: b.acts) cfg.sda = true
  · rw [if_pos hlast, unlockOk_ok_iff ⟨_, rfl⟩]
    have hread := @level_read M dev slave (rtPinRead dev slave b cfg.sda).1 cfg.sda hsda
    exact ⟨fun _ => hlast, fun _ => ⟨hscl, hsda, hread.trans hlast⟩⟩
  · have hpad : dev.pad (rtPinRead dev slave (rtPinRead dev slave b cfg.sda).1
        cfg.sda).1.pins cfg.sda = .released := hsda
    rw [if_neg hlast, unlockOk_error_iff hpad (Bool.eq_false_iff.mpr hlast)]
    -- two reads are not nine pulses
    refine ⟨fun hacts => ?_, fun htrue => absurd htrue hlast⟩
    have hlength := congrArg List.length hacts
    simp [ninePulses, pulseActs] at hlength

theorem unlockOk_locked (hsda : dev.pad b.pins cfg.sda = .released)
    (h : slave (.read cfg.sda :: b.acts) cfg.sda = false) :
    UnlockOk slave cfg b (stm32I2cBusUnlock slave cfg b) ↔
      slave (ninePulses cfg b.acts) cfg.sda = false := by
  have hacts : .read cfg.sda :: (clocked slave cfg b).acts = ninePulses cfg b.acts := by
    rw [clocked_locked hsda h, clockPulses_acts, rtPinRead_acts, ninePulses]
  have hclock : dev.pad (clocked slave cfg b).pins cfg.scl ≠ .released := by
    rw [clocked_locked hsda h, clockPulses_scl]
    simp [Pad.released]
  rw [unlock_result hsda, hacts]
  dsimp only
  by_cases hlast : slave (ninePulses cfg b.acts) cfg.sda = true
  · rw [if_pos hlast, unlockOk_ok_iff ⟨_, rfl⟩]
    exact ⟨fun hidle => absurd hidle.scl hclock, fun hfalse => by simp [hlast] at hfalse⟩
  · have hfalse := Bool.eq_false_iff.mpr hlast
    have hpad : dev.pad (rtPinRead dev slave (clocked slave cfg b) cfg.sda).1.pins cfg.sda =
        .released := clocked_sda.trans hsda
    rw [if_neg hlast, unlockOk_error_iff hpad (by rw [rtPinRead_acts, hacts]; exact hfalse)]
    exact ⟨fun _ => hfalse, fun _ => hacts⟩

/-- SDA is the same at both reads of an unlocking: free at one and at the next, or held at one
    and at the one after nine pulses. -/
def SameAtReads (slave : Slave) (cfg : SoftI2cConfig dev) (acts : List Act) : Prop :=
  (slave (.read cfg.sda :: acts) cfg.sda = true ∧
    slave (.read cfg.sda :: .read cfg.sda :: acts) cfg.sda = true) ∨
  (slave (.read cfg.sda :: acts) cfg.sda = false ∧ slave (ninePulses cfg acts) cfg.sda = false)

/-- For every pin device, every slave and every state of the bus before. -/
theorem unlockOk_iff (slave : Slave) (cfg : SoftI2cConfig dev) (b : Bus M) :
    UnlockOk slave cfg (stm32I2cGpioInit slave cfg b) (initBus slave cfg b) ↔
      SameAtReads slave cfg (initActs cfg ++ b.acts) := by
  have hscl := gpioInit_scl slave cfg b
  have hsda := gpioInit_sda slave cfg b
  rw [← gpioInit_acts slave]
  unfold initBus SameAtReads
  by_cases h : slave (.read cfg.sda :: (stm32I2cGpioInit slave cfg b).acts) cfg.sda = true
  · rw [unlockOk_free hscl hsda h]
    simp [h]
  · have hfalse := Bool.eq_false_iff.mpr h
    rw [unlockOk_locked hsda hfalse]
    simp [hfalse]

/-- PB8 and PB9 of the board. -/
def pb8Pb9 : SoftI2cConfig (h7PinDev ⟨0, 0, 0, 0, 0⟩) :=
  ⟨24, 25, (by decide : OnBoard 24), (by decide : OnBoard 25), by decide⟩

def busReset : Bus (Board PinHw) := ⟨Board.reset ⟨gpioReset, fun _ => 0, fun _ => 0⟩, [], []⟩

/-- A slave that holds SDA for three pulses. -/
def heldForThree : Slave := fun acts pin => pin ≠ 25 || 3 ≤ acts.count (.write 24 pinLow)

theorem unlockOk_fails :
    ¬ UnlockOk heldForThree pb8Pb9 (stm32I2cGpioInit heldForThree pb8Pb9 busReset)
      (initBus heldForThree pb8Pb9 busReset) := by
  have hsda := gpioInit_sda heldForThree pb8Pb9 busReset
  rw [initBus, unlockOk_locked hsda (by decide)]
  decide

/-! ## After a recovery -/

theorem unlock_pins (hsda : dev.pad b.pins cfg.sda = .released) :
    (stm32I2cBusUnlock slave cfg b).1.pins = (clocked slave cfg b).pins := by
  rw [unlock_result hsda]
  dsimp only
  split <;> rfl

/-- SCL is left low by every unlocking that found SDA low. -/
theorem initBus_scl (slave : Slave) (cfg : SoftI2cConfig dev) (b : Bus M) :
    dev.pad (initBus slave cfg b).1.pins cfg.scl =
      { Pad.released with out := slave (.read cfg.sda :: (initActs cfg ++ b.acts)) cfg.sda } := by
  have hsda := gpioInit_sda slave cfg b
  rw [initBus, unlock_pins hsda, ← gpioInit_acts slave]
  by_cases h : slave (.read cfg.sda :: (stm32I2cGpioInit slave cfg b).acts) cfg.sda = true
  · rw [clocked_free hsda h, rtPinRead_pins, gpioInit_scl, h]
    rfl
  · have hfalse := Bool.eq_false_iff.mpr h
    rw [clocked_locked hsda hfalse, clockPulses_scl, rtPinRead_pins, gpioInit_scl, hfalse]

/-- A slave that lets SDA go during the pulses: the result is a success, and the `i2c_start` that
    follows gives no start condition. -/
theorem recovered_starts (slave : Slave) (cfg : SoftI2cConfig dev) (b : Bus M)
    (hheld : slave (.read cfg.sda :: (initActs cfg ++ b.acts)) cfg.sda = false)
    (hfree : slave (ninePulses cfg (initActs cfg ++ b.acts)) cfg.sda = true) :
    (initBus slave cfg b).2 = rtEok ∧
      starts (capture cfg (i2cStart (stm32BitOps slave cfg) (initBus slave cfg b).1)) =
        starts (capture cfg (initBus slave cfg b).1) := by
  constructor
  · have hsda := gpioInit_sda slave cfg b
    rw [← gpioInit_acts slave] at hheld hfree
    rw [initBus, unlock_result hsda, clocked_locked hsda hheld, clockPulses_acts, rtPinRead_acts]
    exact congrArg Prod.snd (if_pos hfree)
  · refine starts_i2cStart_of_scl_low ?_
    rw [initBus_scl, hheld]
    rfl

/-! ## The whole boot -/

/-- The pins of a bus are not touched by the initialization of the others. -/
theorem initBus_ne (b : Bus M) {pin : Int} (hpin : dev.IsPin pin) (hscl : pin ≠ cfg.scl)
    (hsda : pin ≠ cfg.sda) :
    dev.pad (initBus slave cfg b).1.pins pin = dev.pad b.pins pin := by
  rw [initBus, unlock_pins (gpioInit_sda slave cfg b), clocked_ne hpin hscl,
    gpioInit_ne slave cfg b hpin hscl hsda]

theorem rtHwI2cInit_ne (slave : Slave) (cfgs : List (SoftI2cConfig dev)) (b : Bus M) {pin : Int}
    (hpin : dev.IsPin pin) (h : ∀ cfg ∈ cfgs, pin ≠ cfg.scl ∧ pin ≠ cfg.sda) :
    dev.pad (rtHwI2cInit slave cfgs b).pins pin = dev.pad b.pins pin := by
  induction cfgs generalizing b with
  | nil => rfl
  | cons cfg cfgs ih =>
    obtain ⟨hscl, hsda⟩ := h cfg List.mem_cons_self
    change dev.pad (rtHwI2cInit slave cfgs (initBus slave cfg b).1).pins pin = _
    rw [ih _ fun c hc => h c (List.mem_cons_of_mem cfg hc), initBus_ne b hpin hscl hsda]

/-- For every list of buses: a bus whose SDA was held when its turn came is left with its clock
    low by the whole of `rt_hw_i2c_init`, if no later bus has the pin. -/
theorem rtHwI2cInit_scl (slave : Slave) (before later : List (SoftI2cConfig dev))
    (cfg : SoftI2cConfig dev) (b : Bus M)
    (h : ∀ c ∈ later, cfg.scl ≠ c.scl ∧ cfg.scl ≠ c.sda) :
    dev.pad (rtHwI2cInit slave (before ++ cfg :: later) b).pins cfg.scl =
      { Pad.released with out := slave (.read cfg.sda ::
          (initActs cfg ++ (rtHwI2cInit slave before b).acts)) cfg.sda } := by
  have hsplit : rtHwI2cInit slave (before ++ cfg :: later) b =
      rtHwI2cInit slave later (initBus slave cfg (rtHwI2cInit slave before b)).1 := by
    unfold rtHwI2cInit
    rw [List.foldl_append]
    rfl
  rw [hsplit, rtHwI2cInit_ne slave later _ cfg.sclPin h, initBus_scl]

end Live2dStm32.I2c
