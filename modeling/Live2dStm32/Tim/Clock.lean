import Live2dStm32.Gpio.Pins

/-
  The timer peripheral as drv_pwm.c and drv_hwtimer.c use it: its registers through the macros of
  stm32h7xx_hal_tim.h, and the choice of its bus, which the two files make with the same `#if`.
-/

namespace Live2dStm32.Tim

open Live2dStm32.Gpio

/-! ## Bus -/

/-- The `#if` at the head of the clock branch: the timers its `if` names, none of them for
    `if (0)`. A series without an entry gets no `if`, and the `else` after it does not compile. -/
def apb2Tims : SocSeries → Option (List Nat)
  | .f2 | .f4 | .f7 => some [9, 10, 11]
  | .l4 => some [15, 16, 17]
  | .f1 | .f0 | .g0 => some []
  | _ => none

/-- A series the two drivers compile for. -/
structure Chip where
  series : SocSeries
  tims : List Nat
  timsEq : apb2Tims series = some tims

/-- HAL_RCC_GetPCLK1Freq and HAL_RCC_GetPCLK2Freq. -/
structure Rcc where
  pclk1Freq : BitVec 32
  pclk2Freq : BitVec 32

/-- An F7 whose APB2 timers run at 216 MHz. -/
def f7 : Chip := ⟨.f7, [9, 10, 11], rfl⟩

def rcc216 : Rcc := ⟨54000000, 108000000⟩

/-! ## Registers -/

/-- TIM_HandleTypeDef: the number of `Instance`, `Init.Period` and the registers. -/
structure TimHandle where
  num : Nat
  initPeriod : BitVec 32
  cr1 : BitVec 32
  egr : BitVec 32
  cnt : BitVec 32
  psc : BitVec 32
  arr : BitVec 32
  ccr : Fin 6 → BitVec 32

def clockdivisionDiv1 : BitVec 32 := 0
def clockdivisionDiv2 : BitVec 32 := 0x100
def clockdivisionDiv4 : BitVec 32 := 0x200

def cr1Ckd : BitVec 32 := 0x300

/-- TIM_EVENTSOURCE_UPDATE. -/
def eventsourceUpdate : BitVec 32 := 1

namespace TimHandle

def getClockdivision (htim : TimHandle) : BitVec 32 := htim.cr1 &&& cr1Ckd

def setPrescaler (htim : TimHandle) (presc : BitVec 32) : TimHandle := { htim with psc := presc }

/-- PSC has 16 bits; the upper half of the word is reserved. -/
def prescaler (htim : TimHandle) : BitVec 16 := htim.psc.setWidth 16

def setAutoreload (htim : TimHandle) (autoreload : BitVec 32) : TimHandle :=
  { htim with arr := autoreload, initPeriod := autoreload }

def getAutoreload (htim : TimHandle) : BitVec 32 := htim.arr

/-- The chain of `==` over TIM_CHANNEL_1..TIM_CHANNEL_5; whatever is left is CCR6. -/
def compareOf (channel : BitVec 32) : Fin 6 :=
  if channel = 0x0 then 0
  else if channel = 0x4 then 1
  else if channel = 0x8 then 2
  else if channel = 0xC then 3
  else if channel = 0x10 then 4
  else 5

def setCompare (htim : TimHandle) (channel compare : BitVec 32) : TimHandle :=
  { htim with ccr := Function.update htim.ccr (compareOf channel) compare }

def getCompare (htim : TimHandle) (channel : BitVec 32) : BitVec 32 :=
  htim.ccr (compareOf channel)

def setCounter (htim : TimHandle) (counter : BitVec 32) : TimHandle := { htim with cnt := counter }

/-- HAL_TIM_GenerateEvent. -/
def generateEvent (htim : TimHandle) (eventSource : BitVec 32) : TimHandle :=
  { htim with egr := eventSource }

@[simp] theorem getCompare_setCompare (htim : TimHandle) (channel compare : BitVec 32) :
    (htim.setCompare channel compare).getCompare channel = compare := by
  simp [setCompare, getCompare]

end TimHandle

end Live2dStm32.Tim
