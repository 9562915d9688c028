import Mathlib.Algebra.Order.Field.Basic
import Mathlib.Data.Rat.Cast.Order
import Mathlib.Tactic.FieldSimp
import Mathlib.Tactic.Linarith
import Mathlib.Tactic.Ring
import Live2dStm32.Kernel.Semaphore
import Live2dStm32.Tim.Clock

/-
  HWTIMER_CTRL_FREQ_SET of the hardware timers: `timer_ctrl` (drivers/drv_hwtimer.c) under
  `rt_hwtimer_control` (components/drivers/hwtimer/hwtimer.c).

  `freqSet_iff`: the frequency is refused, or the prescaler is the exact quotient and the rate as
  close to the frequency as that allows, exactly when the quotient is at most 65536. It is kept
  in 16 bits, and 3000 Hz is accepted at any clock.
-/

namespace Live2dStm32.Hwtimer

open Live2dStm32.Gpio Live2dStm32.Tim Live2dStm32.Kernel

def rtEempty : Int := 4

/-- struct rt_hwtimer_info. A `freq` is compared with its two limits as `rt_uint32_t`. -/
structure RtHwtimerInfo where
  maxfreq : BitVec 32
  minfreq : BitVec 32
  maxcnt : BitVec 32
  cntmode : BitVec 8
  deriving DecidableEq

/-- TIM_DEV_INFO_CONFIG, `_info` of every timer. -/
def timDevInfoConfig : RtHwtimerInfo :=
  { maxfreq := 1000000
    minfreq := 3000
    maxcnt := 0xFFFF
    cntmode := 0x01 }

/-- `rt_hwtimer_t` with the `_ops` of the driver, as far as the frequency goes. -/
structure RtHwtimer where
  info : RtHwtimerInfo
  freq : BitVec 32
  tim : TimHandle

inductive HwtimerCtrl where
  | freqSet
  | stop
  | infoGet
  | modeSet
  deriving DecidableEq

/-- What a branch of `timer_ctrl` divides by `freq`; the `else` of the L4 assigns nothing. -/
def dividend (chip : Chip) (rcc : Rcc) (num : Nat) : Option (BitVec 32) :=
  if num ∈ chip.tims then
    match chip.series with
    | .l4 => some rcc.pclk2Freq
    | .f1 | .f2 | .f4 | .f7 => some (rcc.pclk2Freq * 2)
    | _ => none
  else
    match chip.series with
    | .f1 | .f2 | .f4 | .f7 => some (rcc.pclk1Freq * 2)
    | .f0 | .g0 => some rcc.pclk1Freq
    | _ => none

/-- `val`, which is `stack` where nothing is assigned. -/
def valOf (chip : Chip) (rcc : Rcc) (stack : BitVec 16) (num : Nat) (freq : BitVec 32) :
    BitVec 16 :=
  match dividend chip rcc num with
  | some clock => (clock / freq).setWidth 16
  | none => stack

def timerCtrl (chip : Chip) (rcc : Rcc) (stack : BitVec 16) (timer : RtHwtimer) (cmd : HwtimerCtrl)
    (arg : BitVec 32) : RtHwtimer × Int :=
  match cmd with
  | .freqSet =>
    let val := valOf chip rcc stack timer.tim.num arg
    -- `val - 1` is an `int`
    let tim := timer.tim.setPrescaler (val.setWidth 32 - 1)
    ({ timer with tim := { tim with egr := tim.egr ||| eventsourceUpdate } }, rtEok)
  | _ => (timer, -rtEnosys)

def RtHwtimerInfo.accepts (info : RtHwtimerInfo) (freq : BitVec 32) : Prop :=
  ¬ (freq > info.maxfreq ∨ freq < info.minfreq)

instance (info : RtHwtimerInfo) (freq : BitVec 32) : Decidable (info.accepts freq) :=
  inferInstanceAs (Decidable (¬ _))

/-- `rt_hwtimer_control` with HWTIMER_CTRL_FREQ_SET. -/
def rtHwtimerControl (chip : Chip) (rcc : Rcc) (stack : BitVec 16) (timer : RtHwtimer)
    (args : Option (BitVec 32)) : RtHwtimer × Int :=
  match args with
  | none => (timer, -rtEempty)
  | some freq =>
    if timer.info.accepts freq then
      let (timer, result) := timerCtrl chip rcc stack timer .freqSet freq
      if result = rtEok then ({ timer with freq := freq }, result) else (timer, result)
    else (timer, -rtError)

/-! ## The law -/

/-- The rate `C / (v + 1)` is at least `freq`, and above it by less than `freq / (C - freq)`. -/
def RateOk (C freq v : Nat) : Prop :=
  (freq : ℚ) ≤ C / (v + 1) ∧ (C / (v + 1) : ℚ) < freq * (1 + freq / (C - freq))

/-- Prescaler `v` divides `C` down to `freq`. -/
def Divides (C freq v : Nat) : Prop := v ≤ 65535 ∧ v + 1 = C / freq ∧ RateOk C freq v

/-- An error and nothing changed, or `freq` noted and the prescaler for it programmed. -/
def FreqSetOk (timer : RtHwtimer) (C freq : BitVec 32) (out : RtHwtimer × Int) : Prop :=
  (out.2 ≠ rtEok ∧ out.1.freq = timer.freq ∧ out.1.tim.prescaler = timer.tim.prescaler) ∨
    (out.2 = rtEok ∧ out.1.freq = freq ∧
      Divides C.toNat freq.toNat out.1.tim.prescaler.toNat)

/-! ## The rate -/

theorem rateOk {C freq v : Nat} (hfreq : 0 < freq) (hlt : freq < C) (hv : v + 1 = C / freq) :
    RateOk C freq v := by
  have hle : (freq : ℚ) * (v + 1) ≤ C := by
    have : freq * (v + 1) ≤ C := hv ▸ Nat.mul_div_le C freq
    exact_mod_cast this
  have hgt : (C : ℚ) - freq < freq * (v + 1) := by
    have : C < freq * (v + 1) + freq := hv ▸ Nat.lt_mul_div_self_add hfreq
    have : (C : ℚ) < freq * (v + 1) + freq := by exact_mod_cast this
    linarith
  have hC : (0 : ℚ) < C := by exact_mod_cast Nat.lt_trans hfreq hlt
  have hdiff : (0 : ℚ) < C - freq := sub_pos.mpr (by exact_mod_cast hlt)
  have hv0 : (0 : ℚ) < v + 1 := by exact_mod_cast Nat.succ_pos v
  constructor
  · exact (le_div_iff₀ hv0).mpr hle
  · have hbound : (freq : ℚ) * (1 + freq / (C - freq)) = freq * C / (C - freq) := by
      field_simp
      ring
    rw [hbound, div_lt_div_iff₀ hv0 hdiff]
    calc (C : ℚ) * (C - freq) < C * (freq * (v + 1)) := mul_lt_mul_of_pos_left hgt hC
      _ = freq * C * (v + 1) := by ring

/-! ## The prescaler -/

/-- Quotient `q` is stored in 16 bits, one is taken off, and 16 bits are left of that. -/
theorem prescaler_toNat (tim : TimHandle) (q : BitVec 32) :
    (tim.setPrescaler ((q.setWidth 16).setWidth 32 - 1)).prescaler.toNat =
      (q.toNat + 65535) % 65536 := by
  have hlt := q.isLt
  have hone : (1 : BitVec 32).toNat = 1 := rfl
  simp only [TimHandle.setPrescaler, TimHandle.prescaler, BitVec.toNat_setWidth, BitVec.toNat_sub,
    hone]
  omega

theorem prescaler_eq_iff {q : Nat} (hq : 0 < q) : (q + 65535) % 65536 + 1 = q ↔ q ≤ 65536 := by
  omega

/-! ## rt_hwtimer_control -/

section FreqSet

variable (chip : Chip) (rcc : Rcc) (stack : BitVec 16) {timer : RtHwtimer} {freq C : BitVec 32}

theorem rtHwtimerControl_refused (h : ¬ timer.info.accepts freq) :
    rtHwtimerControl chip rcc stack timer (some freq) = (timer, -rtError) := if_neg h

theorem rtHwtimerControl_accepted (h : timer.info.accepts freq) :
    let out := rtHwtimerControl chip rcc stack timer (some freq)
    out.2 = rtEok ∧ out.1.freq = freq ∧ out.1.tim.prescaler =
      (timer.tim.setPrescaler
        ((valOf chip rcc stack timer.tim.num freq).setWidth 32 - 1)).prescaler := by
  have heq : rtHwtimerControl chip rcc stack timer (some freq) =
      ({ (timerCtrl chip rcc stack timer .freqSet freq).1 with freq := freq }, rtEok) := if_pos h
  rw [heq]
  exact ⟨rfl, rfl, rfl⟩

theorem valOf_eq (hC : dividend chip rcc timer.tim.num = some C) :
    valOf chip rcc stack timer.tim.num freq = (C / freq).setWidth 16 := by
  rw [valOf, hC]

/-- For every chip and timer with a divided clock `C` of 2 MHz or more, and every frequency. -/
theorem freqSet_iff (hinfo : timer.info = timDevInfoConfig)
    (hC : dividend chip rcc timer.tim.num = some C) (hlo : 2000000 ≤ C.toNat) (freq : BitVec 32) :
    FreqSetOk timer C freq (rtHwtimerControl chip rcc stack timer (some freq)) ↔
      ¬ timer.info.accepts freq ∨ C.toNat / freq.toNat ≤ 65536 := by
  by_cases hacc : timer.info.accepts freq
  · obtain ⟨hok, hfreq, hpsc⟩ := rtHwtimerControl_accepted chip rcc stack hacc
    have hrange : 3000 ≤ freq.toNat ∧ freq.toNat ≤ 1000000 := by
      have hacc' := hacc
      simp [RtHwtimerInfo.accepts, hinfo, timDevInfoConfig, BitVec.lt_def] at hacc'
      omega
    have hq : 0 < C.toNat / freq.toNat := Nat.div_pos (by omega) (by omega)
    have hv := prescaler_toNat timer.tim (C / freq)
    rw [BitVec.toNat_udiv, ← valOf_eq chip rcc stack hC, ← hpsc] at hv
    have hiff := prescaler_eq_iff hq
    rw [← hv] at hiff
    unfold FreqSetOk Divides
    constructor
    · intro hset
      obtain ⟨herr, -⟩ | ⟨-, -, -, heq, -⟩ := hset
      · exact absurd hok herr
      · exact .inr (hiff.mp heq)
    · intro hcond
      have heq := hiff.mpr (hcond.resolve_left (not_not.mpr hacc))
      refine .inr ⟨hok, hfreq, ?_, heq, rateOk (by omega) (by omega) heq⟩
      exact Nat.le_of_lt_succ (BitVec.isLt _)
  · rw [rtHwtimerControl_refused chip rcc stack hacc]
    have herr : -rtError ≠ rtEok := by decide
    exact iff_of_true (.inl ⟨herr, rfl, rfl⟩) (.inl hacc)

end FreqSet

/-! ## TIM9 of an F7 at 216 MHz -/

def timer9 : RtHwtimer := ⟨timDevInfoConfig, 1000000, ⟨9, 0, 0, 0, 0, 215, 0, fun _ => 0⟩⟩

theorem freqSet_iff_f7 :
    FreqSetOk timer9 216000000 10000 (rtHwtimerControl f7 rcc216 0 timer9 (some 10000)) ↔
      ¬ timer9.info.accepts 10000 ∨
        (216000000 : BitVec 32).toNat / (10000 : BitVec 32).toNat ≤ 65536 :=
  freqSet_iff f7 rcc216 0 rfl (by decide) (by decide) 10000

theorem freqSet_fails_3000 :
    ¬ ∀ (chip : Chip) (rcc : Rcc) (stack : BitVec 16) (timer : RtHwtimer) (freq C : BitVec 32),
      timer.info = timDevInfoConfig → timer.info.accepts freq →
        dividend chip rcc timer.tim.num = some C → 2000000 ≤ C.toNat → C.toNat ≤ 240000000 →
        FreqSetOk timer C freq (rtHwtimerControl chip rcc stack timer (some freq)) := by
  intro hall
  have hset := hall f7 rcc216 0 timer9 3000 216000000 rfl (by decide) (by decide) (by decide)
    (by decide)
  obtain ⟨herr, -⟩ | ⟨-, -, -, heq, -⟩ := hset
  · exact absurd rfl herr
  · exact absurd heq (by decide)

end Live2dStm32.Hwtimer
