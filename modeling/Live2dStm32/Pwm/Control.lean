import Live2dStm32.Tim.Clock

/-
  The PWM driver (drivers/drv_pwm.c): `drv_pwm_get` and `drv_pwm_set`.

  `drvPwmSet_registers`: for every configuration and every timer clock of 1 to 500 whole MHz the
  prescaler, the auto-reload and the compare value fit their registers, nothing is truncated on
  the way, and where no limit clamps them they are the exact quotients.
-/

namespace Live2dStm32.Pwm

open Live2dStm32.Lib Live2dStm32.Gpio Live2dStm32.Tim

def maxPeriod : BitVec 32 := 65535
def minPeriod : BitVec 32 := 3
def minPulse : BitVec 32 := 2

/-- struct rt_pwm_configuration, `period` and `pulse` in ns. -/
structure PwmConfiguration where
  channel : BitVec 32
  period : BitVec 32
  pulse : BitVec 32
  deriving DecidableEq, Repr

/-- The channel number of the HAL library. -/
def PwmConfiguration.halChannel (configuration : PwmConfiguration) : BitVec 32 :=
  0x04 * (configuration.channel - 1)

/-- `tim_clock` as the two functions choose it. -/
def timClock (chip : Chip) (rcc : Rcc) (num : Nat) : BitVec 64 :=
  if num ∈ chip.tims then (rcc.pclk2Freq * 2).setWidth 64
  else
    match chip.series with
    | .l4 | .f0 | .g0 => rcc.pclk1Freq.setWidth 64
    | _ => (rcc.pclk1Freq * 2).setWidth 64

/-- What `drv_pwm_get` makes of `tim_clock`. -/
def divideClock (htim : TimHandle) (timClock : BitVec 64) : BitVec 64 :=
  if htim.getClockdivision = clockdivisionDiv2 then timClock / 2
  else if htim.getClockdivision = clockdivisionDiv4 then timClock / 4
  else timClock

/-- `unsigned long` has 32 bits here, as the registers have. -/
def drvPwmGet (chip : Chip) (rcc : Rcc) (htim : TimHandle) (configuration : PwmConfiguration) :
    PwmConfiguration :=
  let timClock := divideClock htim (timClock chip rcc htim.num) / 1000000
  { configuration with
    period := (((htim.getAutoreload + 1) * (htim.psc + 1) * 1000).setWidth 64
      / timClock).setWidth 32
    pulse := (((htim.getCompare configuration.halChannel + 1) * (htim.psc + 1) * 1000).setWidth 64
      / timClock).setWidth 32 }

/-! ## drv_pwm_set

  The right hand sides of its assignments, each in the type it is computed in. -/

def scaledPeriod (configuration : PwmConfiguration) (timClock : BitVec 64) : BitVec 64 :=
  configuration.period.setWidth 64 * timClock / 1000

def pscOf (period : BitVec 32) : BitVec 64 := (period / maxPeriod + 1).setWidth 64

def dividedPeriod (period : BitVec 32) (psc : BitVec 64) : BitVec 64 := period.setWidth 64 / psc

def scaledPulse (configuration : PwmConfiguration) (timClock psc : BitVec 64) : BitVec 64 :=
  configuration.pulse.setWidth 64 * timClock / psc / 1000

def clampPeriod (period : BitVec 32) : BitVec 32 := if period < minPeriod then minPeriod else period

def clampPulse (pulse period : BitVec 32) : BitVec 32 :=
  if pulse < minPulse then minPulse else if pulse > period then period else pulse

def drvPwmSet (chip : Chip) (rcc : Rcc) (htim : TimHandle) (configuration : PwmConfiguration) :
    TimHandle :=
  let timClock := timClock chip rcc htim.num / 1000000
  let period := (scaledPeriod configuration timClock).setWidth 32
  let psc := pscOf period
  let period := (dividedPeriod period psc).setWidth 32
  let htim := htim.setPrescaler ((psc - 1).setWidth 32)
  let period := clampPeriod period
  let htim := htim.setAutoreload (period - 1)
  let pulse := (scaledPulse configuration timClock psc).setWidth 32
  let pulse := clampPulse pulse period
  let htim := htim.setCompare configuration.halChannel (pulse - 1)
  let htim := htim.setCounter 0
  htim.generateEvent eventsourceUpdate

/-! ## What the limits leave alone -/

/-- `period` where it is compared with MIN_PERIOD. -/
def unclampedPeriod (configuration : PwmConfiguration) (timClock : BitVec 64) : BitVec 32 :=
  let period := (scaledPeriod configuration timClock).setWidth 32
  (dividedPeriod period (pscOf period)).setWidth 32

/-- `pulse` where it is compared with MIN_PULSE. -/
def unclampedPulse (configuration : PwmConfiguration) (timClock : BitVec 64) : BitVec 32 :=
  let period := (scaledPeriod configuration timClock).setWidth 32
  (scaledPulse configuration timClock (pscOf period)).setWidth 32

def PeriodKept (configuration : PwmConfiguration) (timClock : BitVec 64) : Prop :=
  minPeriod ≤ unclampedPeriod configuration timClock

def PulseKept (configuration : PwmConfiguration) (timClock : BitVec 64) : Prop :=
  minPulse ≤ unclampedPulse configuration timClock ∧
    unclampedPulse configuration timClock ≤ clampPeriod (unclampedPeriod configuration timClock)

instance (configuration : PwmConfiguration) (timClock : BitVec 64) :
    Decidable (PeriodKept configuration timClock) := inferInstanceAs (Decidable (_ ≤ _))

instance (configuration : PwmConfiguration) (timClock : BitVec 64) :
    Decidable (PulseKept configuration timClock) := inferInstanceAs (Decidable (_ ∧ _))

/-- The 64-bit product of the period fits, and every value stored in 32 bits is below `2 ^ 32`. -/
structure NoTruncation (configuration : PwmConfiguration) (timClock : BitVec 64) : Prop where
  periodProduct : configuration.period.toNat * timClock.toNat < 2 ^ 64
  pulseProduct : configuration.pulse.toNat * timClock.toNat < 2 ^ 64
  scaledPeriod : (scaledPeriod configuration timClock).toNat < 2 ^ 32
  prescaler : (pscOf ((Pwm.scaledPeriod configuration timClock).setWidth 32) - 1).toNat < 2 ^ 32
  dividedPeriod : (dividedPeriod ((Pwm.scaledPeriod configuration timClock).setWidth 32)
    (pscOf ((Pwm.scaledPeriod configuration timClock).setWidth 32))).toNat < 2 ^ 32
  scaledPulse : (scaledPulse configuration timClock
    (pscOf ((Pwm.scaledPeriod configuration timClock).setWidth 32))).toNat < 2 ^ 32

/-! ## Exact quotients, for a clock of `f` MHz -/

/-- Ticks of the undivided timer clock in `ns`. -/
def ticks (ns : BitVec 32) (f : Nat) : Nat := ns.toNat * f / 1000

/-- PSC + 1. -/
def factor (P : Nat) : Nat := P / 65535 + 1

/-- Ticks of the divided timer clock in `ns`. -/
def dividedTicks (ns : BitVec 32) (f psc : Nat) : Nat := ns.toNat * f / psc / 1000

theorem mul_lt_of_mhz {f : Nat} (hf : f ≤ 500) (ns : BitVec 32) : ns.toNat * f < 2 ^ 31 * 1000 := by
  have hns : ns.toNat * f ≤ (2 ^ 32 - 1) * 500 := Nat.mul_le_mul (by have := ns.isLt; omega) hf
  omega

theorem ticks_lt {f : Nat} (hf : f ≤ 500) (ns : BitVec 32) : ticks ns f < 2 ^ 31 :=
  Nat.div_lt_of_lt_mul ((Nat.mul_comm _ _).symm ▸ mul_lt_of_mhz hf ns)

theorem dividedTicks_lt {f : Nat} (hf : f ≤ 500) (ns : BitVec 32) (psc : Nat) :
    dividedTicks ns f psc < 2 ^ 31 := by
  have hle : ns.toNat * f / psc ≤ ns.toNat * f := Nat.div_le_self _ _
  have hlt := mul_lt_of_mhz hf ns
  unfold dividedTicks
  omega

theorem factor_le {P : Nat} (hP : P < 2 ^ 31) : factor P ≤ 32769 := by
  unfold factor
  omega

theorem factor_pos (P : Nat) : 0 < factor P := Nat.succ_pos _

/-- The second division fits 16 bits. -/
theorem div_factor_le (P : Nat) : P / factor P ≤ 65534 := by
  have hlt : P < factor P * 65535 := by unfold factor; omega
  have := Nat.div_lt_of_lt_mul hlt
  omega

theorem three_le_div_factor {P : Nat} (hP : 3 ≤ P) : 3 ≤ P / factor P := by
  refine (Nat.le_div_iff_mul_le (factor_pos P)).mpr ?_
  unfold factor
  omega

/-! ## The values in the registers -/

section Values

variable {configuration : PwmConfiguration} {clk : BitVec 64} {f : Nat}

theorem scaledPeriod_toNat (hclk : clk.toNat = f) (hf : f ≤ 500) :
    (scaledPeriod configuration clk).toNat = ticks configuration.period f := by
  have hlt := mul_lt_of_mhz hf configuration.period
  have hns := configuration.period.isLt
  simp only [scaledPeriod, ticks, BitVec.toNat_udiv, BitVec.toNat_mul, BitVec.toNat_setWidth, hclk]
  rw [Nat.mod_eq_of_lt (by omega : configuration.period.toNat < 2 ^ 64),
    Nat.mod_eq_of_lt (by omega)]
  rfl

theorem pscOf_toNat {period : BitVec 32} {P : Nat} (hP : period.toNat = P) :
    (pscOf period).toNat = factor P := by
  have hlt := period.isLt
  have hmax : maxPeriod.toNat = 65535 := rfl
  have hone : (1 : BitVec 32).toNat = 1 := rfl
  simp only [pscOf, factor, BitVec.toNat_setWidth, BitVec.toNat_add, BitVec.toNat_udiv, hP, hmax,
    hone]
  omega

theorem dividedPeriod_toNat {period : BitVec 32} {psc : BitVec 64} :
    (dividedPeriod period psc).toNat = period.toNat / psc.toNat := by
  have hlt := period.isLt
  simp only [dividedPeriod, BitVec.toNat_udiv, BitVec.toNat_setWidth]
  rw [Nat.mod_eq_of_lt (by omega : period.toNat < 2 ^ 64)]

theorem scaledPulse_toNat {psc : BitVec 64} (hclk : clk.toNat = f) (hf : f ≤ 500) :
    (scaledPulse configuration clk psc).toNat =
      dividedTicks configuration.pulse f psc.toNat := by
  have hlt := mul_lt_of_mhz hf configuration.pulse
  have hns := configuration.pulse.isLt
  simp only [scaledPulse, dividedTicks, BitVec.toNat_udiv, BitVec.toNat_mul, BitVec.toNat_setWidth,
    hclk]
  rw [Nat.mod_eq_of_lt (by omega : configuration.pulse.toNat < 2 ^ 64),
    Nat.mod_eq_of_lt (by omega)]
  rfl

theorem clampPeriod_toNat (period : BitVec 32) :
    (clampPeriod period).toNat = max 3 period.toNat := toNat_limitBelow period minPeriod

theorem clampPulse_toNat {pulse period : BitVec 32} (hperiod : 2 ≤ period.toNat) :
    (clampPulse pulse period).toNat = min (max 2 pulse.toNat) period.toNat := by
  have htwo : minPulse.toNat = 2 := rfl
  unfold clampPulse
  split
  case isTrue h =>
    have hlt := BitVec.lt_def.mp h
    omega
  case isFalse h =>
    have hge := BitVec.le_def.mp (BitVec.not_lt.mp h)
    rw [toNat_limitAbove, Nat.max_eq_right (by omega)]

end Values

/-! ## drv_pwm_set in whole MHz -/

/-- The timer clock is `f` whole MHz. -/
def Mhz (chip : Chip) (rcc : Rcc) (htim : TimHandle) (f : Nat) : Prop :=
  1 ≤ f ∧ f ≤ 500 ∧ (timClock chip rcc htim.num).toNat = f * 1000000

section Set

variable {chip : Chip} {rcc : Rcc} {htim : TimHandle} {f : Nat}

theorem Mhz.div (h : Mhz chip rcc htim f) : (timClock chip rcc htim.num / 1000000).toNat = f := by
  have hmega : (1000000 : BitVec 64).toNat = 1000000 := rfl
  rw [BitVec.toNat_udiv, h.2.2, hmega]
  omega

variable (configuration : PwmConfiguration)

/-- `period` after its first assignment. -/
theorem period_toNat (h : Mhz chip rcc htim f) :
    ((scaledPeriod configuration (timClock chip rcc htim.num / 1000000)).setWidth 32).toNat =
      ticks configuration.period f := by
  have hlt := ticks_lt h.2.1 configuration.period
  rw [BitVec.toNat_setWidth, scaledPeriod_toNat h.div h.2.1]
  omega

theorem unclampedPeriod_toNat (h : Mhz chip rcc htim f) :
    (unclampedPeriod configuration (timClock chip rcc htim.num / 1000000)).toNat =
      ticks configuration.period f / factor (ticks configuration.period f) := by
  have hperiod := period_toNat configuration h
  have hle := div_factor_le (ticks configuration.period f)
  unfold unclampedPeriod
  rw [BitVec.toNat_setWidth, dividedPeriod_toNat, pscOf_toNat hperiod, hperiod,
    Nat.mod_eq_of_lt (by omega)]

theorem unclampedPulse_toNat (h : Mhz chip rcc htim f) :
    (unclampedPulse configuration (timClock chip rcc htim.num / 1000000)).toNat =
      dividedTicks configuration.pulse f (factor (ticks configuration.period f)) := by
  have hperiod := period_toNat configuration h
  have hlt := dividedTicks_lt h.2.1 configuration.pulse (factor (ticks configuration.period f))
  unfold unclampedPulse
  rw [BitVec.toNat_setWidth, scaledPulse_toNat h.div h.2.1, pscOf_toNat hperiod,
    Nat.mod_eq_of_lt (by omega)]

theorem drvPwmSet_psc (h : Mhz chip rcc htim f) :
    (drvPwmSet chip rcc htim configuration).psc.toNat + 1 =
      factor (ticks configuration.period f) := by
  have hfactor := pscOf_toNat (period_toNat configuration h)
  have hle := factor_le (ticks_lt h.2.1 configuration.period)
  have hsub := toNat_sub_one_add_one (hfactor ▸ factor_pos _)
  change ((pscOf _ - 1).setWidth 32).toNat + 1 = _
  rw [BitVec.toNat_setWidth]
  omega

theorem drvPwmSet_arr (h : Mhz chip rcc htim f) :
    (drvPwmSet chip rcc htim configuration).arr.toNat + 1 =
      max 3 (ticks configuration.period f / factor (ticks configuration.period f)) := by
  have hclamp := clampPeriod_toNat
    (unclampedPeriod configuration (timClock chip rcc htim.num / 1000000))
  have hpos : 0 < (clampPeriod (unclampedPeriod configuration
      (timClock chip rcc htim.num / 1000000))).toNat := by omega
  rw [unclampedPeriod_toNat configuration h] at hclamp
  exact (toNat_sub_one_add_one hpos).trans hclamp

theorem drvPwmSet_compare (h : Mhz chip rcc htim f) :
    ((drvPwmSet chip rcc htim configuration).getCompare configuration.halChannel).toNat + 1 =
      min (max 2 (dividedTicks configuration.pulse f (factor (ticks configuration.period f))))
        (max 3 (ticks configuration.period f / factor (ticks configuration.period f))) := by
  obtain ⟨clk, hclk⟩ : ∃ clk, clk = timClock chip rcc htim.num / 1000000 := ⟨_, rfl⟩
  have hperiod := clampPeriod_toNat (unclampedPeriod configuration clk)
  have hpulse := @clampPulse_toNat (unclampedPulse configuration clk)
    (clampPeriod (unclampedPeriod configuration clk)) (by omega)
  have hpos : 0 < (clampPulse (unclampedPulse configuration clk)
      (clampPeriod (unclampedPeriod configuration clk))).toNat := by omega
  have hget : (drvPwmSet chip rcc htim configuration).getCompare configuration.halChannel =
      clampPulse (unclampedPulse configuration clk)
        (clampPeriod (unclampedPeriod configuration clk)) - 1 := by
    rw [hclk]
    exact TimHandle.getCompare_setCompare _ _ _
  rw [hget, toNat_sub_one_add_one hpos, hpulse, hperiod, hclk, unclampedPulse_toNat configuration h,
    unclampedPeriod_toNat configuration h]

/-! ## The registers -/

theorem noTruncation (h : Mhz chip rcc htim f) :
    NoTruncation configuration (timClock chip rcc htim.num / 1000000) := by
  have hdiv := h.div
  have hperiod := period_toNat configuration h
  have hfactor := factor_le (ticks_lt h.2.1 configuration.period)
  have hpsc := toNat_sub_one_add_one (pscOf_toNat hperiod ▸ factor_pos _)
  constructor
  case periodProduct =>
    have := mul_lt_of_mhz h.2.1 configuration.period
    rw [hdiv]
    omega
  case pulseProduct =>
    have := mul_lt_of_mhz h.2.1 configuration.pulse
    rw [hdiv]
    omega
  case scaledPeriod =>
    have := ticks_lt h.2.1 configuration.period
    rw [scaledPeriod_toNat hdiv h.2.1]
    omega
  case prescaler =>
    rw [pscOf_toNat hperiod] at hpsc
    omega
  case dividedPeriod =>
    have := div_factor_le (ticks configuration.period f)
    rw [dividedPeriod_toNat, pscOf_toNat hperiod, hperiod]
    omega
  case scaledPulse =>
    have := dividedTicks_lt h.2.1 configuration.pulse (factor (ticks configuration.period f))
    rw [scaledPulse_toNat hdiv h.2.1, pscOf_toNat hperiod]
    omega

theorem periodKept_iff (h : Mhz chip rcc htim f) :
    PeriodKept configuration (timClock chip rcc htim.num / 1000000) ↔
      3 ≤ ticks configuration.period f / factor (ticks configuration.period f) := by
  rw [PeriodKept, BitVec.le_def, unclampedPeriod_toNat configuration h]
  exact Iff.rfl

theorem pulseKept_iff (h : Mhz chip rcc htim f) :
    PulseKept configuration (timClock chip rcc htim.num / 1000000) ↔
      2 ≤ dividedTicks configuration.pulse f (factor (ticks configuration.period f)) ∧
        dividedTicks configuration.pulse f (factor (ticks configuration.period f)) ≤
          max 3 (ticks configuration.period f / factor (ticks configuration.period f)) := by
  rw [PulseKept, BitVec.le_def, BitVec.le_def, clampPeriod_toNat,
    unclampedPulse_toNat configuration h, unclampedPeriod_toNat configuration h]
  exact Iff.rfl

end Set

/-- For every configuration and every timer clock of 1 to 500 whole MHz. -/
theorem drvPwmSet_registers {chip : Chip} {rcc : Rcc} {htim : TimHandle} {f : Nat}
    (h : Mhz chip rcc htim f) (configuration : PwmConfiguration) :
    let out := drvPwmSet chip rcc htim configuration
    let psc := out.psc.toNat
    let arr := out.arr.toNat
    let ccr := (out.getCompare configuration.halChannel).toNat
    let P := configuration.period.toNat * f / 1000
    let clk := timClock chip rcc htim.num / 1000000
    (psc ≤ 65535 ∧ 2 ≤ arr ∧ arr ≤ 65535 ∧ 1 ≤ ccr ∧ ccr ≤ arr) ∧
      NoTruncation configuration clk ∧
      (3 ≤ P → PeriodKept configuration clk ∧
        (arr + 1) * (psc + 1) ≤ P ∧ P < (arr + 2) * (psc + 1)) ∧
      (PulseKept configuration clk →
        ccr + 1 = configuration.pulse.toNat * f / (psc + 1) / 1000) := by
  intro out psc arr ccr P clk
  have hpsc : psc + 1 = factor P := drvPwmSet_psc configuration h
  have harr : arr + 1 = max 3 (P / factor P) := drvPwmSet_arr configuration h
  have hccr : ccr + 1 =
      min (max 2 (dividedTicks configuration.pulse f (factor P))) (max 3 (P / factor P)) :=
    drvPwmSet_compare configuration h
  have hfactor : factor P ≤ 32769 := factor_le (ticks_lt h.2.1 configuration.period)
  have hdiv := div_factor_le P
  refine ⟨by omega, noTruncation configuration h, ?_, ?_⟩
  · intro hP
    have hthree := three_le_div_factor hP
    have hq : arr + 1 = P / factor P := by omega
    have hlt : P < (P / factor P + 1) * factor P :=
      Nat.lt_mul_of_div_lt (Nat.lt_succ_self _) (factor_pos P)
    rw [show arr + 2 = P / factor P + 1 by omega, hq, hpsc]
    exact ⟨(periodKept_iff configuration h).mpr hthree, Nat.div_mul_le_self P (factor P), hlt⟩
  · intro hkept
    have hk : 2 ≤ dividedTicks configuration.pulse f (factor P) ∧
        dividedTicks configuration.pulse f (factor P) ≤ max 3 (P / factor P) :=
      (pulseKept_iff configuration h).mp hkept
    have heq : ccr + 1 = dividedTicks configuration.pulse f (factor P) := by omega
    rw [heq, hpsc]
    rfl

/-- TIM9 of an F7 at 216 MHz, with a period of 20 ms and a pulse of 1.5 ms. -/
def tim9 : TimHandle := ⟨9, 0, 0, 0, 0, 0, 0, fun _ => 0⟩

def servo : PwmConfiguration := ⟨1, 20000000, 1500000⟩

theorem mhz_servo : Mhz f7 rcc216 tim9 216 := by
  unfold Mhz
  decide

theorem drvPwmSet_registers_servo :
    let out := drvPwmSet f7 rcc216 tim9 servo
    let ccr := (out.getCompare servo.halChannel).toNat
    out.psc.toNat ≤ 65535 ∧ 2 ≤ out.arr.toNat ∧ out.arr.toNat ≤ 65535 ∧ 1 ≤ ccr ∧
      ccr ≤ out.arr.toNat :=
  (drvPwmSet_registers mhz_servo servo).1

end Live2dStm32.Pwm
