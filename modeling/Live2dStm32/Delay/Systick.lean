import Mathlib.Algebra.Group.Nat.Defs
import Live2dStm32.Lib.DownCounter

/-
  The system tick timer as the busy waits read it: SysTick->LOAD, set by `rt_hw_systick_init`
  (drivers/drv_common.c), and SysTick->VAL, sampled while it counts down.
-/

namespace Live2dStm32.Delay

open Live2dStm32.Lib

def rtTickPerSecond : BitVec 32 := 1000

/-- SysTick_Config: nothing is set when the reload value does not fit its 24 bits. -/
def sysTickConfig (ticks : BitVec 32) : Option (BitVec 24) :=
  if ticks - 1 > 0xFFFFFF then none else some ((ticks - 1).setWidth 24)

/-- `rt_hw_systick_init`; the core clock is the D1 system clock. -/
def rtHwSystickInit (coreClock : BitVec 32) : Option (BitVec 24) :=
  sysTickConfig (coreClock / rtTickPerSecond)

/-- The counter, with the value it has when a wait takes its first sample. -/
structure SysTick where
  load : BitVec 24
  start : Nat
  startLe : start ≤ load.toNat

namespace SysTick

variable (systick : SysTick)

/-- SysTick->LOAD. -/
def reload : BitVec 32 := systick.load.setWidth 32

/-- The counter after so many clock steps. -/
def count (e : Nat) : Nat := DownCounter.value systick.load.toNat systick.start e

/-- SysTick->VAL after so many clock steps. -/
def val (e : Nat) : BitVec 32 := BitVec.ofNat 32 (systick.count e)

/-- How often it has wrapped in them. -/
def wraps (e : Nat) : Nat := DownCounter.wraps systick.load.toNat systick.start e

theorem load_lt : systick.load.toNat < 2 ^ 24 := systick.load.isLt

theorem count_le (e : Nat) : systick.count e ≤ systick.load.toNat :=
  DownCounter.value_le systick.startLe e

theorem reload_toNat : systick.reload.toNat = systick.load.toNat := by
  have := systick.load_lt
  rw [reload, BitVec.toNat_setWidth]
  omega

theorem val_toNat (e : Nat) : (systick.val e).toNat = systick.count e := by
  have := systick.load_lt
  have := systick.count_le e
  rw [val, BitVec.toNat_ofNat]
  omega

end SysTick

/-- The samples of a wait: instants counted in clock steps from its first one. -/
abbrev Samples (systick : SysTick) := DownCounter.Sampling systick.load.toNat

/-- A core clock of 240 MHz, and a sample every 100 clock steps. -/
def systick240 : SysTick := ⟨239999, 0, by decide⟩

def everyHundred : Samples systick240 where
  instant n := n * 100
  zero := rfl
  mono n := by omega
  gap n := by
    have hload : systick240.load.toNat = 239999 := rfl
    omega

end Live2dStm32.Delay
