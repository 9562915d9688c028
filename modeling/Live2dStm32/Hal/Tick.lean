import Mathlib.Algebra.Group.Nat.Defs
import Mathlib.Tactic.Common

/-
  The HAL time base: `SysTick_Handler` and `HAL_GetTick` (drivers/drv_common.c) over
  `rt_tick_increase` and `rt_tick_get` (rt-thread/src/clock.c), RT_USING_SMP not defined.

  `HAL_GetTick` is `rt_tick_get() * 1000 / RT_TICK_PER_SECOND` in 32-bit arithmetic with
  RT_TICK_PER_SECOND = 1000: the product wraps every 2^32 / 1000 ticks, about 71.6 minutes,
  long before `rt_tick` itself. `tickWindow` counts these wraps. Differences of `HAL_GetTick`
  are the elapsed ticks exactly when both instants lie in the same window.
-/

namespace Live2dStm32.Hal.Tick

/-- RT_TICK_PER_SECOND of rtconfig.h. -/
def rtTickPerSecond : BitVec 32 := 1000

/-- The time-slice fields of `struct rt_thread` that the tick handler touches. -/
structure RtThread where
  remainingTick : BitVec 32
  initTick : BitVec 32
  yield : Bool
  deriving DecidableEq, Repr

/-- The tick counters: `rt_tick` of RT-Thread and `uwTick` of the HAL. -/
structure Clock where
  rtTick : BitVec 32
  uwTick : BitVec 32
  deriving DecidableEq, Repr

/-- Both counters start at 0. -/
def boot : Clock := ⟨0, 0⟩

def rtTickGet (c : Clock) : BitVec 32 := c.rtTick

/-- `rt_tick_increase` with `self` the interrupted thread. The second result says whether
    `rt_schedule` is called. -/
def rtTickIncrease (c : Clock) (self : RtThread) : Clock × RtThread × Bool :=
  let c := { c with rtTick := c.rtTick + 1 }
  let self := { self with remainingTick := self.remainingTick - 1 }
  if self.remainingTick = 0 then
    (c, { self with remainingTick := self.initTick, yield := true }, true)
  else (c, self, false)

/-- `HAL_IncTick` with `uwTickFreq` at its default of 1 kHz. The driver's `HAL_GetTick` does
    not read `uwTick`. -/
def halIncTick (c : Clock) : Clock := { c with uwTick := c.uwTick + 1 }

def sysTickHandler (c : Clock) (self : RtThread) : Clock × RtThread × Bool :=
  rtTickIncrease (halIncTick c) self

def halGetTick (c : Clock) : BitVec 32 := rtTickGet c * 1000 / rtTickPerSecond

/-- The clock after one handler entry for each interrupted thread of the list. -/
def sysTicks (c : Clock) (selves : List RtThread) : Clock :=
  selves.foldl (fun c self => (sysTickHandler c self).1) c

/-- The timeout test of the HAL polling loops, `(HAL_GetTick() - tickstart) > Timeout`. -/
def pollExpired (tickstart now timeout : BitVec 32) : Prop := timeout < now - tickstart

instance (a b c : BitVec 32) : Decidable (pollExpired a b c) :=
  inferInstanceAs (Decidable (c < b - a))

/-! ## The tick counter counts handler entries -/

@[simp] theorem rtTickIncrease_rtTick (c : Clock) (self : RtThread) :
    (rtTickIncrease c self).1.rtTick = c.rtTick + 1 := by
  unfold rtTickIncrease
  dsimp only
  split <;> rfl

@[simp] theorem sysTickHandler_rtTick (c : Clock) (self : RtThread) :
    (sysTickHandler c self).1.rtTick = c.rtTick + 1 := by
  simp [sysTickHandler, halIncTick]

theorem sysTicks_rtTick (c : Clock) (selves : List RtThread) :
    (sysTicks c selves).rtTick = c.rtTick + BitVec.ofNat 32 selves.length := by
  induction selves generalizing c with
  | nil => simp [sysTicks]
  | cons self selves ih =>
    have h := ih (sysTickHandler c self).1
    rw [sysTickHandler_rtTick] at h
    change (sysTicks (sysTickHandler c self).1 selves).rtTick = _
    rw [h, List.length_cons, Nat.add_comm selves.length 1, BitVec.ofNat_add, BitVec.add_assoc]
    rfl

/-! ## Windows of the 32-bit product -/

/-- How often `rt_tick * 1000` has passed 2^32: the part of the product that is lost. -/
def tickWindow (c : Clock) : Nat := c.rtTick.toNat * 1000 / 2 ^ 32

theorem halGetTick_toNat (c : Clock) :
    (halGetTick c).toNat = c.rtTick.toNat * 1000 % 2 ^ 32 / 1000 := by
  simp [halGetTick, rtTickGet, rtTickPerSecond]

/-- The milliseconds that `w` wraps of the product take off the reading, rounded up. -/
def windowLoss (w : Nat) : Nat := (2 ^ 32 * w + 999) / 1000

/-- In window `w`, `HAL_GetTick` is `rt_tick` less `windowLoss w`. -/
theorem halGetTick_window (c : Clock) :
    (halGetTick c).toNat + windowLoss (tickWindow c) = c.rtTick.toNat := by
  have := c.rtTick.isLt
  rw [halGetTick_toNat]
  unfold windowLoss tickWindow
  omega

theorem halGetTick_add_loss (c : Clock) :
    halGetTick c + BitVec.ofNat 32 (windowLoss (tickWindow c)) = c.rtTick := by
  have h := halGetTick_window c
  have := c.rtTick.isLt
  apply BitVec.eq_of_toNat_eq
  rw [BitVec.toNat_add, BitVec.toNat_ofNat]
  omega

theorem tickWindow_lt (c : Clock) : tickWindow c < 1000 := by
  have := c.rtTick.isLt
  unfold tickWindow
  omega

theorem windowLoss_lt {w : Nat} (hw : w < 1000) : windowLoss w < 2 ^ 32 := by
  unfold windowLoss
  omega

/-- Different windows lose a different number of milliseconds, also modulo 2^32. -/
theorem windowLoss_inj {v w : Nat} (hv : v < 1000) (hw : w < 1000) :
    BitVec.ofNat 32 (windowLoss v) = BitVec.ofNat 32 (windowLoss w) ↔ v = w := by
  constructor
  · intro h
    have h := congrArg BitVec.toNat h
    rw [BitVec.toNat_ofNat, BitVec.toNat_ofNat, Nat.mod_eq_of_lt (windowLoss_lt hv),
      Nat.mod_eq_of_lt (windowLoss_lt hw)] at h
    unfold windowLoss at h
    omega
  · rintro rfl
    rfl

/-- The difference of two readings is the elapsed number of entries exactly when the windows
    agree. -/
theorem halGetTick_sub_iff (c : Clock) (selves : List RtThread) :
    halGetTick (sysTicks c selves) - halGetTick c = BitVec.ofNat 32 selves.length ↔
      tickWindow c = tickWindow (sysTicks c selves) := by
  rw [← windowLoss_inj (tickWindow_lt c) (tickWindow_lt _)]
  have h1 := halGetTick_add_loss c
  have h2 := halGetTick_add_loss (sysTicks c selves)
  have ht := sysTicks_rtTick c selves
  constructor
  · intro h
    grind
  · intro h
    grind

/-! ## The contract of the time base -/

/-- What every HAL timeout relies on between the instants `c` and, `selves.length` entries
    later, `sysTicks c selves`: the readings differ by the elapsed milliseconds, and no poll
    that started at `c` with a limit `timeout` has expired before `timeout` of them. -/
def TimeBase (c : Clock) (selves : List RtThread) : Prop :=
  halGetTick (sysTicks c selves) - halGetTick c = BitVec.ofNat 32 selves.length ∧
    ∀ timeout : BitVec 32,
      pollExpired (halGetTick c) (halGetTick (sysTicks c selves)) timeout →
        timeout.toNat < selves.length

theorem pollExpired_of_sub {c c' : Clock} {n : Nat}
    (h : halGetTick c' - halGetTick c = BitVec.ofNat 32 n) (timeout : BitVec 32)
    (hp : pollExpired (halGetTick c) (halGetTick c') timeout) : timeout.toNat < n := by
  unfold pollExpired at hp
  rw [h, BitVec.lt_def, BitVec.toNat_ofNat] at hp
  exact Nat.lt_of_lt_of_le hp (Nat.mod_le _ _)

/-- The time base keeps its contract between two instants of a run from boot exactly when
    `rt_tick * 1000` has not passed a multiple of 2^32 between them. -/
theorem timeBase_iff_window (before after : List RtThread) :
    TimeBase (sysTicks boot before) after ↔
      tickWindow (sysTicks boot before) = tickWindow (sysTicks (sysTicks boot before) after) := by
  unfold TimeBase
  rw [halGetTick_sub_iff]
  constructor
  · exact fun h => h.1
  · intro h
    exact ⟨h, pollExpired_of_sub ((halGetTick_sub_iff _ _).mpr h)⟩

theorem sysTicks_boot_replicate (n : Nat) (self : RtThread) :
    (sysTicks boot (List.replicate n self)).rtTick = BitVec.ofNat 32 n := by
  rw [sysTicks_rtTick, List.length_replicate]
  exact BitVec.zero_add _

/-- Just below the first wrap, one more entry changes the window. The entry count is a variable
    so that the list of that length is never unfolded. -/
theorem timeBase_fails_of_wrap {n : Nat} (hn : n = 4294967) (self : RtThread) :
    ¬ TimeBase (sysTicks boot (List.replicate n self)) [self] := by
  rw [timeBase_iff_window]
  unfold tickWindow
  rw [sysTicks_rtTick (sysTicks boot _) [_], sysTicks_boot_replicate, hn,
    List.length_singleton]
  decide

/-- 4294967 entries after boot the reading is 4294967 and one entry later it is 0: the claimed
    difference of 1 is off, and a poll with a limit of 100 ms that starts in between expires
    after 1 ms. -/
theorem timeBase_fails_at_wrap :
    ¬ TimeBase (sysTicks boot (List.replicate 4294967 ⟨0, 0, false⟩)) [⟨0, 0, false⟩] :=
  timeBase_fails_of_wrap rfl _

end Live2dStm32.Hal.Tick
