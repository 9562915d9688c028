import Mathlib.Data.Nat.Find
import Live2dStm32.Delay.Systick
import Live2dStm32.Lib.Loop

/-
  The busy wait of the board (drivers/drv_common.c): `rt_hw_us_delay`, which compares every
  sample of SysTick->VAL with its first one.

  What it sees is the phase of the time waited, so it never sees a whole period of 1 ms, and a
  sample in the clock step of the first one looks like a period. `waits_iff`: it returns, and not
  too early, exactly when `us` is 0, or the delay fits in LOAD, the clock has moved before the
  second sample and a sample falls into the window at the end of a period, or the 32-bit product
  wraps and no sample falls into its window before the time asked for, but one after it.
-/

namespace Live2dStm32.Delay.UsDelay

open Live2dStm32.Lib

def delta (start now reload : BitVec 32) : BitVec 32 :=
  if start > now then start - now else reload + start - now

def usTick (coreClock : BitVec 32) : BitVec 32 := coreClock / 1000000

/-- One round of `do … while`, with the sample it takes. -/
def round (start reload usTick us : BitVec 32) (s : Unit) (now : BitVec 32) : Round Unit Unit :=
  if delta start now reload < usTick * us then .goesOn s else .ends ()

/-- The wait ends with sample `n + 1`, sample 0 being `start`. -/
def EndsAt (systick : SysTick) (coreClock us : BitVec 32) (samples : Samples systick) (n : Nat) :
    Prop :=
  Loop.EndsAt (round (systick.val (samples.instant 0)) systick.reload (usTick coreClock) us) ()
    (fun n => systick.val (samples.instant (n + 1))) n ()

/-- The clock runs at `mhz` whole MHz and the timer is set up for it. -/
structure Clocked (systick : SysTick) (coreClock : BitVec 32) (mhz : Nat) : Prop where
  pos : 0 < mhz
  clock : coreClock.toNat = mhz * 1000000
  load : rtHwSystickInit coreClock = some systick.load

/-! ## The law -/

/-- The wait returns, and the time asked for has passed. -/
def Waits (systick : SysTick) (coreClock us : BitVec 32) (samples : Samples systick) : Prop :=
  ∃ n, EndsAt systick coreClock us samples n ∧
    us.toNat * coreClock.toNat / 1000000 ≤ samples.instant (n + 1)

/-- Phase `r` of the period looks like `T` steps or more. -/
def InWindow (load start T r : Nat) : Prop :=
  (r = 0 ∧ T ≤ load) ∨ (0 < r ∧ r ≤ start ∧ T ≤ r) ∨ (start < r ∧ T < r)

instance (load start T r : Nat) : Decidable (InWindow load start T r) :=
  inferInstanceAs (Decidable (_ ∨ _))

/-- A sample after the first one falls into the window of `T`. -/
def Hits (systick : SysTick) (samples : Samples systick) (T n : Nat) : Prop :=
  InWindow systick.load.toNat systick.start T
    (samples.instant (n + 1) % (systick.load.toNat + 1))

instance (systick : SysTick) (samples : Samples systick) (T : Nat) :
    DecidablePred (Hits systick samples T) := fun _ => inferInstanceAs (Decidable (InWindow ..))

/-! ## delta -/

section Delta

variable (systick : SysTick) {e : Nat}

theorem delta_toNat (e : Nat) :
    (delta (systick.val 0) (systick.val e) systick.reload).toNat =
      let r := e % (systick.load.toNat + 1)
      if r = 0 then systick.load.toNat else if r ≤ systick.start then r else r - 1 := by
  have hload := systick.load_lt
  have hstart := systick.startLe
  have hreload := systick.reload_toNat
  have hval : (systick.val 0).toNat = systick.start := systick.val_toNat 0
  have hval' := systick.val_toNat e
  have hcount := systick.count_le e
  have hr := Nat.mod_lt e (by omega : 0 < systick.load.toNat + 1)
  have hphase : systick.count e = _ := DownCounter.value_eq systick.startLe e
  dsimp only
  generalize e % (systick.load.toNat + 1) = r at *
  have hgt : systick.val 0 > systick.val e ↔ systick.count e < systick.start := by
    rw [gt_iff_lt, BitVec.lt_def, hval, hval']
  unfold delta
  split
  case isTrue h =>
    have hlt := hgt.mp h
    rw [BitVec.toNat_sub_of_le (BitVec.le_def.mpr (by omega)), hval, hval']
    split at hphase
    · rw [if_neg (by omega), if_pos (by omega)]
      omega
    · omega
  case isFalse h =>
    have hge : ¬ systick.count e < systick.start := fun hlt => h (hgt.mpr hlt)
    have hadd : (systick.reload + systick.val 0).toNat = systick.load.toNat + systick.start := by
      rw [BitVec.toNat_add, hreload, hval]
      omega
    rw [BitVec.toNat_sub_of_le (BitVec.le_def.mpr (by omega)), hadd, hval']
    split at hphase
    · rw [if_pos (by omega)]
      omega
    · rw [if_neg (by omega), if_neg (by omega)]
      omega

/-- The test of a round, by the phase. -/
theorem le_delta_iff (T e : Nat) :
    T ≤ (delta (systick.val 0) (systick.val e) systick.reload).toNat ↔
      InWindow systick.load.toNat systick.start T (e % (systick.load.toNat + 1)) := by
  rw [delta_toNat]
  unfold InWindow
  dsimp only
  split
  case isTrue h => omega
  case isFalse h => split <;> omega

end Delta

/-! ## The whole wait -/

section Wait

variable {systick : SysTick} {coreClock us : BitVec 32} {mhz : Nat} {samples : Samples systick}

theorem Clocked.mhz_le (h : Clocked systick coreClock mhz) : mhz ≤ 4294 := by
  have hlt := coreClock.isLt
  have hclock := h.clock
  omega

theorem Clocked.usTick (h : Clocked systick coreClock mhz) : (usTick coreClock).toNat = mhz := by
  have hmega : (1000000 : BitVec 32).toNat = 1000000 := rfl
  rw [UsDelay.usTick, BitVec.toNat_udiv, h.clock, hmega]
  omega

/-- A period of the timer is 1 ms. -/
theorem Clocked.period (h : Clocked systick coreClock mhz) :
    systick.load.toNat + 1 = mhz * 1000 := by
  have hle := h.mhz_le
  have hpos := h.pos
  have hload := h.load
  have hrate : rtTickPerSecond.toNat = 1000 := rfl
  have hticks : (coreClock / rtTickPerSecond).toNat = mhz * 1000 := by
    rw [BitVec.toNat_udiv, h.clock, hrate]
    omega
  have hsub : (coreClock / rtTickPerSecond - 1).toNat = mhz * 1000 - 1 := by
    have hone : (1 : BitVec 32).toNat = 1 := rfl
    rw [BitVec.toNat_sub_of_le (BitVec.le_def.mpr (by omega)), hticks, hone]
  unfold rtHwSystickInit sysTickConfig at hload
  split at hload
  case isTrue => simp at hload
  case isFalse =>
    rw [← Option.some.inj hload, BitVec.toNat_setWidth, hsub]
    omega

/-- The product the samples are compared with. -/
theorem target_toNat (h : Clocked systick coreClock mhz) (us : BitVec 32) :
    (UsDelay.usTick coreClock * us).toNat = us.toNat * mhz % 2 ^ 32 := by
  rw [BitVec.toNat_mul, h.usTick, Nat.mul_comm]

/-- The clock steps asked for. -/
theorem steps_eq (h : Clocked systick coreClock mhz) (us : BitVec 32) :
    us.toNat * coreClock.toNat / 1000000 = us.toNat * mhz := by
  rw [h.clock, ← Nat.mul_assoc]
  exact Nat.mul_div_cancel _ (by omega)

theorem round_eq (h : Clocked systick coreClock mhz) (us : BitVec 32) (n : Nat) :
    round (systick.val (samples.instant 0)) systick.reload (UsDelay.usTick coreClock) us ()
        (systick.val (samples.instant (n + 1))) =
      if Hits systick samples (us.toNat * mhz % 2 ^ 32) n then .ends () else .goesOn () := by
  have hdelta := le_delta_iff systick (us.toNat * mhz % 2 ^ 32) (samples.instant (n + 1))
  have htarget := target_toNat h us
  rw [samples.zero, round]
  by_cases hhits : Hits systick samples (us.toNat * mhz % 2 ^ 32) n
  · have hle := hdelta.mpr hhits
    rw [if_pos hhits, if_neg (by rw [BitVec.lt_def]; omega)]
  · have hlt : ¬ us.toNat * mhz % 2 ^ 32 ≤ _ := fun hle => hhits (hdelta.mp hle)
    rw [if_neg hhits, if_pos (by rw [BitVec.lt_def]; omega)]

/-- The wait ends with the first sample in the window. -/
theorem endsAt_iff (h : Clocked systick coreClock mhz) (us : BitVec 32) (n : Nat) :
    EndsAt systick coreClock us samples n ↔
      Hits systick samples (us.toNat * mhz % 2 ^ 32) n ∧
        ∀ m < n, ¬ Hits systick samples (us.toNat * mhz % 2 ^ 32) m := by
  exact Loop.endsAt_waiting_iff (round_eq h us)

theorem inWindow_zero (load start r : Nat) : InWindow load start 0 r := by
  unfold InWindow
  omega

/-- A window needs a target of LOAD or less. -/
theorem InWindow.le {load start T r : Nat} (h : InWindow load start T r) (hr : r ≤ load) :
    T ≤ load := by
  unfold InWindow at h
  omega

theorem Hits.le {T n : Nat} (h : Hits systick samples T n) : T ≤ systick.load.toNat := by
  have hr := Nat.mod_lt (samples.instant (n + 1)) (by omega : 0 < systick.load.toNat + 1)
  exact InWindow.le h (by omega)

/-- In its window, a sample that is later than the first one has waited long enough. -/
theorem Hits.le_instant {T n : Nat} (h : Hits systick samples T n)
    (hpos : 0 < samples.instant (n + 1)) : T ≤ samples.instant (n + 1) := by
  have hle := Nat.mod_le (samples.instant (n + 1)) (systick.load.toNat + 1)
  obtain ⟨hzero, hT⟩ | ⟨-, -, hT⟩ | ⟨-, hT⟩ := h
  · have := Nat.le_of_dvd hpos (Nat.dvd_of_mod_eq_zero hzero)
    omega
  · omega
  · omega

/-- Between a millisecond and the wrap of the product the wait never returns. -/
theorem not_endsAt_of_millisecond (h : Clocked systick coreClock mhz) (hlong : 1000 ≤ us.toNat)
    (hwrap : us.toNat * mhz < 2 ^ 32) (n : Nat) : ¬ EndsAt systick coreClock us samples n := by
  intro hends
  have hhits := ((endsAt_iff h us n).mp hends).1
  rw [Nat.mod_eq_of_lt hwrap] at hhits
  have hle := hhits.le
  have hperiod := h.period
  have hlong : 1000 * mhz ≤ us.toNat * mhz := Nat.mul_le_mul_right mhz hlong
  omega

end Wait

/-- For every clock in whole MHz, every delay, every starting phase and every series of samples
    less than a period apart. -/
theorem waits_iff {systick : SysTick} {coreClock : BitVec 32} {mhz : Nat}
    (h : Clocked systick coreClock mhz) (us : BitVec 32) (samples : Samples systick) :
    Waits systick coreClock us samples ↔
      us = 0 ∨
      (us.toNat * mhz ≤ systick.load.toNat ∧ 0 < samples.instant 1 ∧
        ∃ n, Hits systick samples (us.toNat * mhz) n) ∨
      (2 ^ 32 ≤ us.toNat * mhz ∧
        (∀ n, samples.instant (n + 1) < us.toNat * mhz →
          ¬ Hits systick samples (us.toNat * mhz % 2 ^ 32) n) ∧
        ∃ n, us.toNat * mhz ≤ samples.instant (n + 1) ∧
          Hits systick samples (us.toNat * mhz % 2 ^ 32) n) := by
  unfold Waits
  simp only [endsAt_iff h, steps_eq h]
  constructor
  · intro ⟨n, ⟨hhits, hfirst⟩, hlate⟩
    by_cases hzero : us = 0
    · exact .inl hzero
    · by_cases hwrap : 2 ^ 32 ≤ us.toNat * mhz
      · refine .inr (.inr ⟨hwrap, fun m hearly => hfirst m ?_, n, hlate, hhits⟩)
        by_contra hge
        have := samples.instant_mono (by omega : n + 1 ≤ m + 1)
        omega
      · rw [Nat.mod_eq_of_lt (by omega)] at hhits hfirst
        refine .inr (.inl ⟨hhits.le, ?_, n, hhits⟩)
        by_contra hstill
        -- the second sample looks like a period, and ends the wait
        have hone : samples.instant (0 + 1) = 0 := Nat.eq_zero_of_not_pos hstill
        have hnow : Hits systick samples (us.toNat * mhz) 0 := by
          rw [Hits, hone, Nat.zero_mod]
          exact .inl ⟨rfl, hhits.le⟩
        have hn : n = 0 := by
          by_contra hpos
          exact hfirst 0 (Nat.pos_of_ne_zero hpos) hnow
        rw [hn, hone] at hlate
        have hus : 0 < us.toNat := Nat.pos_of_ne_zero fun h0 => hzero (BitVec.eq_of_toNat_eq h0)
        have := Nat.mul_pos hus h.pos
        omega
  · intro hcond
    obtain rfl | ⟨hle, hone, hsome⟩ | ⟨-, hearly, n, -, hhits⟩ := hcond
    · refine ⟨0, ⟨?_, fun m hm => absurd hm (Nat.not_lt_zero m)⟩, ?_⟩
      · simp [Hits, inWindow_zero]
      · simp
    · have hload := systick.load_lt
      rw [Nat.mod_eq_of_lt (by omega)]
      refine ⟨Nat.find hsome, ⟨Nat.find_spec hsome, fun m hm => Nat.find_min hsome hm⟩, ?_⟩
      refine (Nat.find_spec hsome).le_instant (Nat.lt_of_lt_of_le hone ?_)
      exact samples.instant_mono (by omega)
    · have hsome : ∃ n, Hits systick samples (us.toNat * mhz % 2 ^ 32) n := ⟨n, hhits⟩
      refine ⟨Nat.find hsome, ⟨Nat.find_spec hsome, fun m hm => Nat.find_min hsome hm⟩, ?_⟩
      by_contra hlt
      exact hearly _ (Nat.lt_of_not_le hlt) (Nat.find_spec hsome)

theorem clocked240 : Clocked systick240 240000000 240 := ⟨by decide, rfl, rfl⟩

/-- Ten microseconds at 240 MHz, sampled every hundred clock steps: over after 2500 of them. -/
theorem waits_iff_240 : Waits systick240 240000000 10 everyHundred :=
  (waits_iff clocked240 10 everyHundred).mpr
    (.inr (.inl ⟨by decide, by decide, 24, by decide⟩))

theorem waits_fails_millisecond :
    ¬ ∀ (systick : SysTick) (coreClock us : BitVec 32) (mhz : Nat) (samples : Samples systick),
      Clocked systick coreClock mhz → Waits systick coreClock us samples := by
  intro hall
  obtain ⟨n, hends, -⟩ := hall systick240 240000000 1000 240 everyHundred clocked240
  exact not_endsAt_of_millisecond clocked240 (by decide) (by decide) n hends

end Live2dStm32.Delay.UsDelay
