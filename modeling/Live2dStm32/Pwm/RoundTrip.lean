import Live2dStm32.Lib.Quantize
import Live2dStm32.Pwm.Control

/-
  `drv_pwm_get` after `drv_pwm_set`, where no limit clamps. The period and the pulse are then
  both a count of ticks of `(PSC + 1) * 1000` steps, `f` steps to the nanosecond, and `get` reads
  the count back; but it multiplies in 32 bits where `set` multiplies in 64.

  `agrees_iff`: the two agree within two ticks, with no product overflowing, exactly when
  `period * f < 4295016000`, that is for fewer than 4295016 ticks of the timer clock. From there
  on the period itself comes back wrong.
-/

namespace Live2dStm32.Pwm

open Live2dStm32.Tim Live2dStm32.Lib

/-- Less than `d` apart. -/
def Near (d a b : Nat) : Prop := a < b + d ∧ b < a + d

/-- What `drv_pwm_get` returns for the channel that was set. -/
def readBack (chip : Chip) (rcc : Rcc) (htim : TimHandle) (configuration query : PwmConfiguration) :
    PwmConfiguration :=
  drvPwmGet chip rcc (drvPwmSet chip rcc htim configuration)
    { query with channel := configuration.channel }

/-- One timer quantum in ns, rounded up. -/
def quantum (htim : TimHandle) (f : Nat) : Nat := (htim.psc.toNat + 1) * 1000 ⌈/⌉ f

/-- The product `drv_pwm_get` divides, exactly. -/
def exactProduct (htim : TimHandle) (count : BitVec 32) : Nat :=
  (count.toNat + 1) * (htim.psc.toNat + 1) * 1000

/-- Period and pulse are read back within two quanta, and no product overflows. -/
structure Agrees (chip : Chip) (rcc : Rcc) (htim : TimHandle) (f : Nat)
    (configuration query : PwmConfiguration) : Prop where
  period : Near (2 * quantum (drvPwmSet chip rcc htim configuration) f)
    (readBack chip rcc htim configuration query).period.toNat configuration.period.toNat
  pulse : Near (2 * quantum (drvPwmSet chip rcc htim configuration) f)
    (readBack chip rcc htim configuration query).pulse.toNat configuration.pulse.toNat
  periodProduct : exactProduct (drvPwmSet chip rcc htim configuration)
    (drvPwmSet chip rcc htim configuration).getAutoreload < 2 ^ 32
  pulseProduct : exactProduct (drvPwmSet chip rcc htim configuration)
    ((drvPwmSet chip rcc htim configuration).getCompare configuration.halChannel) < 2 ^ 32
  set : NoTruncation configuration (timClock chip rcc htim.num / 1000000)

/-! ## The product of drv_pwm_get -/

theorem product_toNat (a b : BitVec 32) :
    ((a + 1) * (b + 1) * 1000).toNat = (a.toNat + 1) * (b.toNat + 1) * 1000 % 2 ^ 32 := by
  have hone : (1 : BitVec 32).toNat = 1 := rfl
  have hthousand : (1000 : BitVec 32).toNat = 1000 := rfl
  simp only [BitVec.toNat_mul, BitVec.toNat_add, hone, hthousand, Nat.mod_mul_mod, Nat.mul_mod_mod]

/-- One of the two quotients of `drv_pwm_get`. -/
theorem readLength_toNat {clk : BitVec 64} {f : Nat} (hclk : clk.toNat = f) (a b : BitVec 32) :
    ((((a + 1) * (b + 1) * 1000).setWidth 64 / clk).setWidth 32).toNat =
      (a.toNat + 1) * (b.toNat + 1) * 1000 % 2 ^ 32 / f := by
  have hle := Nat.div_le_self ((a.toNat + 1) * (b.toNat + 1) * 1000 % 2 ^ 32) f
  have hlt := Nat.mod_lt ((a.toNat + 1) * (b.toNat + 1) * 1000) (Nat.two_pow_pos 32)
  rw [BitVec.toNat_setWidth, BitVec.toNat_udiv, BitVec.toNat_setWidth, product_toNat, hclk,
    Nat.mod_eq_of_lt (by omega : (a.toNat + 1) * (b.toNat + 1) * 1000 % 2 ^ 32 < 2 ^ 64),
    Nat.mod_eq_of_lt (by omega)]

/-- The ticks the divided period takes fit 32 bits after `* 1000` below 4295016 only. -/
theorem product_lt_iff (P : Nat) : P / factor P * (factor P * 1000) < 2 ^ 32 ↔ P < 4295016 := by
  have hle := Nat.div_mul_le_self P (factor P)
  have hlt : P < P / factor P * factor P + factor P := Nat.lt_div_mul_add (factor_pos P)
  have hfactor : factor P = P / 65535 + 1 := rfl
  rw [← Nat.mul_assoc]
  by_cases h66 : factor P = 66
  · rw [h66] at hle hlt ⊢
    omega
  · generalize P / factor P * factor P = Q at *
    omega

/-! ## One length -/

section Length

variable {f u x : Nat}

theorem near_of_lt (hf : 0 < f) (hu : 0 < u) (h : Quantize.count f u x * u < 2 ^ 32) :
    Near (2 * (u ⌈/⌉ f)) (Quantize.count f u x * u % 2 ^ 32 / f) x := by
  have hle : Quantize.count f u x * u / f ≤ x := Quantize.length_count_le f u x
  have hge : x ≤ Quantize.count f u x * u / f + u ⌈/⌉ f := Quantize.le_length_count hf hu
  have hpos : 0 < u ⌈/⌉ f := by
    by_contra hzero
    have := @Quantize.le_mul_ceilDiv f u hf
    rw [Nat.eq_zero_of_not_pos hzero] at this
    omega
  rw [Nat.mod_eq_of_lt h]
  unfold Near
  omega

theorem not_near_of_le (hf : 0 < f) (hu : 2 * (u + f) ≤ 2 ^ 32)
    (h : 2 ^ 32 ≤ Quantize.count f u x * u) :
    ¬ Near (2 * (u ⌈/⌉ f)) (Quantize.count f u x * u % 2 ^ 32 / f) x := by
  have hshort : Quantize.count f u x * u % 2 ^ 32 / f + 2 * (u ⌈/⌉ f) ≤ x :=
    Quantize.length_wrapped hf h hu
  unfold Near
  omega

end Length

/-! ## Set, then get -/

section RoundTrip

variable {chip : Chip} {rcc : Rcc} {htim : TimHandle} {f : Nat} {configuration : PwmConfiguration}

/-- The steps of one tick of the programmed timer. -/
def steps (configuration : PwmConfiguration) (f : Nat) : Nat :=
  factor (ticks configuration.period f) * 1000

theorem steps_pos (configuration : PwmConfiguration) (f : Nat) : 0 < steps configuration f :=
  Nat.mul_pos (factor_pos _) (by omega)

theorem quantum_set (h : Mhz chip rcc htim f) :
    quantum (drvPwmSet chip rcc htim configuration) f = steps configuration f ⌈/⌉ f := by
  rw [quantum, drvPwmSet_psc configuration h, steps]

theorem count_period (configuration : PwmConfiguration) (f : Nat) :
    Quantize.count f (steps configuration f) configuration.period.toNat =
      ticks configuration.period f / factor (ticks configuration.period f) := by
  unfold Quantize.count steps ticks
  rw [Nat.div_div_eq_div_mul, Nat.mul_comm 1000]

/-- The programmed period is the count of the requested one. -/
theorem exactProduct_arr (h : Mhz chip rcc htim f)
    (hkept : PeriodKept configuration (timClock chip rcc htim.num / 1000000)) :
    exactProduct (drvPwmSet chip rcc htim configuration)
        (drvPwmSet chip rcc htim configuration).getAutoreload =
      Quantize.count f (steps configuration f) configuration.period.toNat *
        steps configuration f := by
  have hthree := (periodKept_iff configuration h).mp hkept
  have harr := drvPwmSet_arr configuration h
  rw [exactProduct, drvPwmSet_psc configuration h, count_period, Nat.mul_assoc]
  change (BitVec.toNat (TimHandle.arr _) + 1) * _ = _
  rw [harr, Nat.max_eq_right hthree]
  rfl

/-- The programmed pulse is the count of the requested one. -/
theorem exactProduct_compare (h : Mhz chip rcc htim f)
    (hkept : PulseKept configuration (timClock chip rcc htim.num / 1000000)) :
    exactProduct (drvPwmSet chip rcc htim configuration)
        ((drvPwmSet chip rcc htim configuration).getCompare configuration.halChannel) =
      Quantize.count f (steps configuration f) configuration.pulse.toNat *
        steps configuration f := by
  have hbounds := (pulseKept_iff configuration h).mp hkept
  have hcount : Quantize.count f (steps configuration f) configuration.pulse.toNat =
      dividedTicks configuration.pulse f (factor (ticks configuration.period f)) :=
    (Nat.div_div_eq_div_mul _ _ _).symm
  rw [exactProduct, drvPwmSet_psc configuration h, drvPwmSet_compare configuration h, hcount,
    Nat.mul_assoc, Nat.max_eq_right hbounds.1, Nat.min_eq_left hbounds.2]
  rfl

/-- The compare value does not pass the auto-reload value. -/
theorem exactProduct_compare_le (h : Mhz chip rcc htim f) :
    exactProduct (drvPwmSet chip rcc htim configuration)
        ((drvPwmSet chip rcc htim configuration).getCompare configuration.halChannel) ≤
      exactProduct (drvPwmSet chip rcc htim configuration)
        (drvPwmSet chip rcc htim configuration).getAutoreload := by
  refine Nat.mul_le_mul_right _ (Nat.mul_le_mul_right _ ?_)
  change _ ≤ BitVec.toNat (TimHandle.arr _) + 1
  rw [drvPwmSet_arr configuration h, drvPwmSet_compare configuration h]
  exact Nat.min_le_right _ _

theorem divideClock_set (hdiv : htim.getClockdivision = clockdivisionDiv1) (clk : BitVec 64) :
    divideClock (drvPwmSet chip rcc htim configuration) clk = clk := by
  have hsame : (drvPwmSet chip rcc htim configuration).getClockdivision = clockdivisionDiv1 := hdiv
  unfold divideClock
  rw [hsame, if_neg (by decide), if_neg (by decide)]

theorem readBack_period (h : Mhz chip rcc htim f)
    (hdiv : htim.getClockdivision = clockdivisionDiv1) (query : PwmConfiguration) :
    (readBack chip rcc htim configuration query).period.toNat =
      exactProduct (drvPwmSet chip rcc htim configuration)
        (drvPwmSet chip rcc htim configuration).getAutoreload % 2 ^ 32 / f := by
  rw [readBack, drvPwmGet, divideClock_set hdiv]
  exact readLength_toNat h.div _ _

theorem readBack_pulse (h : Mhz chip rcc htim f)
    (hdiv : htim.getClockdivision = clockdivisionDiv1) (query : PwmConfiguration) :
    (readBack chip rcc htim configuration query).pulse.toNat =
      exactProduct (drvPwmSet chip rcc htim configuration)
        ((drvPwmSet chip rcc htim configuration).getCompare configuration.halChannel)
          % 2 ^ 32 / f := by
  rw [readBack, drvPwmGet, divideClock_set hdiv]
  exact readLength_toNat h.div _ _

/-- The product of the period fits 32 bits. -/
theorem exactProduct_arr_lt_iff (h : Mhz chip rcc htim f)
    (hkept : PeriodKept configuration (timClock chip rcc htim.num / 1000000)) :
    exactProduct (drvPwmSet chip rcc htim configuration)
        (drvPwmSet chip rcc htim configuration).getAutoreload < 2 ^ 32 ↔
      configuration.period.toNat * f < 4295016000 := by
  have hlt := product_lt_iff (ticks configuration.period f)
  have hticks : ticks configuration.period f < 4295016 ↔
      configuration.period.toNat * f < 4295016000 := Nat.div_lt_iff_lt_mul (by omega)
  rw [exactProduct_arr h hkept, count_period, ← hticks, ← hlt]
  rfl

/-- From there on the period comes back wrong. -/
theorem period_not_near (h : Mhz chip rcc htim f)
    (hdiv : htim.getClockdivision = clockdivisionDiv1)
    (hkept : PeriodKept configuration (timClock chip rcc htim.num / 1000000))
    (hlong : 4295016000 ≤ configuration.period.toNat * f) (query : PwmConfiguration) :
    ¬ Near (2 * quantum (drvPwmSet chip rcc htim configuration) f)
      (readBack chip rcc htim configuration query).period.toNat configuration.period.toNat := by
  have hfits := exactProduct_arr_lt_iff h hkept
  have hfactor := factor_le (ticks_lt h.2.1 configuration.period)
  have hsteps : steps configuration f ≤ 32769 * 1000 := Nat.mul_le_mul_right _ hfactor
  have hmhz := h.2.1
  rw [readBack_period h hdiv, quantum_set h]
  rw [exactProduct_arr h hkept] at hfits ⊢
  exact not_near_of_le h.1 (by omega) (by omega)

/-- Where nothing is clamped, whatever is in the fields `get` overwrites. -/
theorem agrees_iff (h : Mhz chip rcc htim f)
    (hdiv : htim.getClockdivision = clockdivisionDiv1)
    (hperiod : PeriodKept configuration (timClock chip rcc htim.num / 1000000))
    (hpulse : PulseKept configuration (timClock chip rcc htim.num / 1000000))
    (query : PwmConfiguration) :
    Agrees chip rcc htim f configuration query ↔
      configuration.period.toNat * f < 4295016000 := by
  have hfits := exactProduct_arr_lt_iff h hperiod
  have hle := @exactProduct_compare_le chip rcc htim f configuration h
  constructor
  · intro hagrees
    exact hfits.mp hagrees.periodProduct
  · intro hshort
    have hproduct := hfits.mpr hshort
    constructor
    case period =>
      rw [readBack_period h hdiv, quantum_set h]
      rw [exactProduct_arr h hperiod] at hproduct ⊢
      exact near_of_lt h.1 (steps_pos configuration f) hproduct
    case pulse =>
      have hcompare := Nat.lt_of_le_of_lt hle hproduct
      rw [readBack_pulse h hdiv, quantum_set h]
      rw [exactProduct_compare h hpulse] at hcompare ⊢
      exact near_of_lt h.1 (steps_pos configuration f) hcompare
    case periodProduct => exact hproduct
    case pulseProduct => exact Nat.lt_of_le_of_lt hle hproduct
    case set => exact noTruncation configuration h

end RoundTrip

/-- A period of 1 ms, and one of 20 ms as a servo takes. -/
theorem agrees_iff_millisecond :
    Agrees f7 rcc216 tim9 216 ⟨1, 1000000, 500000⟩ servo ↔
      (1000000 : BitVec 32).toNat * 216 < 4295016000 :=
  agrees_iff mhz_servo (by decide) (by decide) (by decide) servo

theorem agrees_fails_servo :
    ¬ ∀ (chip : Chip) (rcc : Rcc) (htim : TimHandle) (f : Nat)
      (configuration query : PwmConfiguration), Mhz chip rcc htim f →
        htim.getClockdivision = clockdivisionDiv1 →
        PeriodKept configuration (timClock chip rcc htim.num / 1000000) →
        PulseKept configuration (timClock chip rcc htim.num / 1000000) →
        Agrees chip rcc htim f configuration query := by
  intro hall
  have hagrees := hall f7 rcc216 tim9 216 servo servo mhz_servo (by decide) (by decide) (by decide)
  exact period_not_near mhz_servo (by decide) (by decide) (by decide) servo hagrees.period

end Live2dStm32.Pwm
