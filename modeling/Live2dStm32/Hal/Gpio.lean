import Live2dStm32.Lib.Bits

/-
  The HAL GPIO driver of the H7 (stm32h7xx_hal_gpio.c): `HAL_GPIO_Init` and `HAL_GPIO_DeInit`
  on the registers of the ports, of SYSCFG (EXTICR) and of EXTI. Ports are numbered as
  GPIO_GET_INDEX numbers them, A = 0 to K = 10. The pending register is kept apart, with the
  edges (Gpio/Delivery).

  The last section gives the view of one EXTI line (`lineCfg`): its source port, its interrupt
  mask bit and its two triggers, and what the two calls on a single pin do to it.
-/

namespace Live2dStm32.Hal.Gpio

open Live2dStm32.Lib

/-! ## Constants -/

def gpioModeField : BitVec 32 := 0x00000003
def extiMode : BitVec 32 := 0x10000000
def gpioModeIt : BitVec 32 := 0x00010000
def gpioModeEvt : BitVec 32 := 0x00020000
def risingEdge : BitVec 32 := 0x00100000
def fallingEdge : BitVec 32 := 0x00200000
def gpioOutputType : BitVec 32 := 0x00000010

def gpioModeOutputPp : BitVec 32 := 0x00000001
def gpioModeOutputOd : BitVec 32 := 0x00000011
def gpioModeAfPp : BitVec 32 := 0x00000002
def gpioModeAfOd : BitVec 32 := 0x00000012
def gpioModeItRising : BitVec 32 := 0x11110000
def gpioModeItFalling : BitVec 32 := 0x11210000
def gpioModeItRisingFalling : BitVec 32 := 0x11310000

def gpioNopull : BitVec 32 := 0
def gpioPullup : BitVec 32 := 1
def gpioPulldown : BitVec 32 := 2
def gpioSpeedFreqHigh : BitVec 32 := 2

/-! ## Registers -/

/-- `GPIO_InitTypeDef`. -/
structure GpioInit where
  pin : BitVec 32
  mode : BitVec 32
  pull : BitVec 32
  speed : BitVec 32
  alternate : BitVec 32
  deriving DecidableEq, Repr

structure GpioPort where
  moder : BitVec 32
  otyper : BitVec 32
  ospeedr : BitVec 32
  pupdr : BitVec 32
  afr : Nat → BitVec 32

structure Exti where
  exticr : Nat → BitVec 32
  imr1 : BitVec 32
  emr1 : BitVec 32
  rtsr1 : BitVec 32
  ftsr1 : BitVec 32

structure GpioHw where
  port : Nat → GpioPort
  exti : Exti

/-- After reset: every pin analog, no line configured. -/
def gpioReset : GpioHw where
  port := fun _ => ⟨0xFFFFFFFF, 0, 0, 0, fun _ => 0⟩
  exti := ⟨fun _ => 0, 0, 0, 0, 0⟩

/-- `f` applied to the register `k` of an array of registers. -/
def setReg {β : Type} (regs : Nat → β) (k : Nat) (f : β → β) : Nat → β :=
  fun j => if j = k then f (regs j) else regs j

@[simp] theorem setReg_same {β : Type} (regs : Nat → β) (k : Nat) (f : β → β) :
    setReg regs k f k = f (regs k) := if_pos rfl

theorem setReg_ne {β : Type} (regs : Nat → β) {j k : Nat} (f : β → β) (h : j ≠ k) :
    setReg regs k f j = regs j := if_neg h

theorem setReg_self {β : Type} (regs : Nat → β) (k : Nat) :
    setReg regs k (fun _ => regs k) = regs := by
  funext j
  by_cases h : j = k
  · rw [h, setReg_same]
  · rw [setReg_ne _ _ h]

/-! ## The two calls -/

/-- The bits of `m` under `iocurrent` set or cleared: `temp &= ~iocurrent`, then
    `temp |= iocurrent` if `on`. -/
def writeBit (m iocurrent : BitVec 32) (on : Bool) : BitVec 32 :=
  if on then (m &&& ~~~iocurrent) ||| iocurrent else m &&& ~~~iocurrent

/-- The body of the loop of `HAL_GPIO_Init` on the port registers. -/
def initPort (p : GpioPort) (init : GpioInit) (position : Nat) : GpioPort :=
  let isAf := init.mode = gpioModeAfPp ∨ init.mode = gpioModeAfOd
  let isOut := init.mode = gpioModeOutputPp ∨ init.mode = gpioModeOutputOd
  let s := position * 2
  { afr := if isAf then
      setReg p.afr (position / 8) fun r => setNibble r (position % 8 * 4) init.alternate else p.afr
    moder := (p.moder &&& ~~~(0x3#32 <<< s)) ||| ((init.mode &&& gpioModeField) <<< s)
    ospeedr := if isOut ∨ isAf then
      (p.ospeedr &&& ~~~(0x3#32 <<< s)) ||| (init.speed <<< s) else p.ospeedr
    otyper := if isOut ∨ isAf then
      (p.otyper &&& ~~~bit 32 position) |||
        (((init.mode &&& gpioOutputType) >>> 4) <<< position) else p.otyper
    pupdr := (p.pupdr &&& ~~~(0x3#32 <<< s)) ||| (init.pull <<< s) }

/-- The body of the loop of `HAL_GPIO_Init` on EXTICR and EXTI. -/
def initExti (e : Exti) (gpio : Nat) (init : GpioInit) (position : Nat) : Exti :=
  let iocurrent := bit 32 position
  let has (flag : BitVec 32) : Bool := init.mode &&& flag == flag
  if has extiMode then
    { exticr := setReg e.exticr (position / 4) fun r =>
        setNibble r (4 * (position % 4)) (BitVec.ofNat 32 gpio)
      imr1 := writeBit e.imr1 iocurrent (has gpioModeIt)
      emr1 := writeBit e.emr1 iocurrent (has gpioModeEvt)
      rtsr1 := writeBit e.rtsr1 iocurrent (has risingEdge)
      ftsr1 := writeBit e.ftsr1 iocurrent (has fallingEdge) }
  else e

/-- The body of the loop of `HAL_GPIO_DeInit` on EXTICR and EXTI: nothing happens while the
    line is routed from another port. -/
def deInitExti (e : Exti) (gpio : Nat) (position : Nat) : Exti :=
  let iocurrent := bit 32 position
  let s := 4 * (position % 4)
  if e.exticr (position / 4) &&& (0xF#32 <<< s) = BitVec.ofNat 32 gpio <<< s then
    { exticr := setReg e.exticr (position / 4) fun r => r &&& ~~~(0xF#32 <<< s)
      imr1 := e.imr1 &&& ~~~iocurrent
      emr1 := e.emr1 &&& ~~~iocurrent
      rtsr1 := e.rtsr1 &&& ~~~iocurrent
      ftsr1 := e.ftsr1 &&& ~~~iocurrent }
  else e

/-- The body of the loop of `HAL_GPIO_DeInit` on the port registers. -/
def deInitPort (p : GpioPort) (position : Nat) : GpioPort :=
  let s := position * 2
  { moder := p.moder ||| (0x3#32 <<< s)
    afr := setReg p.afr (position / 8) fun r => r &&& ~~~(0xF#32 <<< (position % 8 * 4))
    ospeedr := p.ospeedr &&& ~~~(0x3#32 <<< s)
    otyper := p.otyper &&& ~~~bit 32 position
    pupdr := p.pupdr &&& ~~~(0x3#32 <<< s) }

/-- `while ((pin >> position) != 0)`: the body runs at the positions of the set bits. A word
    has 32 of them. -/
def eachPin {σ : Type} (pin : BitVec 32) (body : Nat → σ → σ) : Nat → Nat → σ → σ
  | 0, _, s => s
  | n + 1, position, s =>
    if pin >>> position = 0 then s
    else eachPin pin body n (position + 1)
      (if pin &&& bit 32 position ≠ 0 then body position s else s)

def halGpioInit (hw : GpioHw) (gpio : Nat) (init : GpioInit) : GpioHw :=
  eachPin init.pin
    (fun position hw =>
      { port := setReg hw.port gpio fun p => initPort p init position
        exti := initExti hw.exti gpio init position }) 32 0 hw

def halGpioDeInit (hw : GpioHw) (gpio : Nat) (pin : BitVec 32) : GpioHw :=
  eachPin pin
    (fun position hw =>
      { exti := deInitExti hw.exti gpio position
        port := setReg hw.port gpio fun p => deInitPort p position }) 32 0 hw

/-- A single pin has a single pass. Induction on the passes left, from any position up to the
    pin's. -/
theorem eachPin_bit {σ : Type} (body : Nat → σ → σ) {l : Nat} (hl : l < 32) (n position : Nat)
    (hle : position ≤ l) (hn : l < position + n) (s : σ) :
    eachPin (bit 32 l) body n position s = body l s := by
  induction n generalizing position s with
  | zero => omega
  | succ n ih =>
    unfold eachPin
    have hne : bit 32 l >>> position ≠ 0 := by
      intro h
      have hb := congrArg (fun x : BitVec 32 => x.getLsbD (l - position)) h
      simp only [BitVec.getLsbD_ushiftRight, Nat.add_sub_cancel' hle, getLsbD_bit] at hb
      simp [hl] at hb
    rw [if_neg hne]
    by_cases hpos : position = l
    · subst hpos
      have hand : bit 32 position &&& bit 32 position ≠ 0 := by
        rw [ne_eq, and_bit_eq_zero_iff _ hl, getLsbD_bit]
        simp [hl]
      rw [if_pos hand]
      -- past the pin the loop ends
      cases n with
      | zero => rfl
      | succ n =>
        unfold eachPin
        rw [if_pos]
        apply BitVec.eq_of_getLsbD_eq
        intro i _
        rw [BitVec.getLsbD_ushiftRight, getLsbD_bit]
        have : position ≠ position + 1 + i := by omega
        simp [this]
    · have hand : ¬ (bit 32 l &&& bit 32 position ≠ 0) := by
        rw [not_not, and_bit_eq_zero_iff _ (by omega), getLsbD_bit]
        simp [Ne.symm hpos]
      rw [if_neg hand]
      exact ih (position + 1) (by omega) (by omega) s

/-- A single pin is one pass on its port and on its line. -/
theorem halGpioInit_single (hw : GpioHw) (gpio : Nat) {init : GpioInit} {l : Nat} (hl : l < 32)
    (hpin : init.pin = bit 32 l) :
    halGpioInit hw gpio init =
      { port := setReg hw.port gpio fun p => initPort p init l
        exti := initExti hw.exti gpio init l } := by
  unfold halGpioInit
  rw [hpin, eachPin_bit _ hl 32 0 (Nat.zero_le l) (by omega)]

theorem halGpioInit_bit (hw : GpioHw) (gpio : Nat) {init : GpioInit} {l : Nat} (hl : l < 32)
    (hpin : init.pin = bit 32 l) :
    (halGpioInit hw gpio init).exti = initExti hw.exti gpio init l := by
  rw [halGpioInit_single hw gpio hl hpin]

theorem halGpioInit_port (hw : GpioHw) (gpio : Nat) {init : GpioInit} {l : Nat} (hl : l < 32)
    (hpin : init.pin = bit 32 l) :
    (halGpioInit hw gpio init).port = setReg hw.port gpio fun p => initPort p init l := by
  rw [halGpioInit_single hw gpio hl hpin]

theorem halGpioDeInit_bit (hw : GpioHw) (gpio : Nat) {l : Nat} (hl : l < 32) :
    (halGpioDeInit hw gpio (bit 32 l)).exti = deInitExti hw.exti gpio l := by
  unfold halGpioDeInit
  rw [eachPin_bit _ hl 32 0 (Nat.zero_le l) (by omega)]

/-! ## One EXTI line -/

/-- What EXTICR, IMR1, RTSR1 and FTSR1 say about one line. -/
structure LineCfg where
  source : BitVec 32
  imr : Bool
  rtsr : Bool
  ftsr : Bool
  deriving DecidableEq, Repr

def lineCfg (e : Exti) (l : Nat) : LineCfg where
  source := nibble (e.exticr (l / 4)) (4 * (l % 4))
  imr := e.imr1.getLsbD l
  rtsr := e.rtsr1.getLsbD l
  ftsr := e.ftsr1.getLsbD l

theorem getLsbD_writeBit (m : BitVec 32) (on : Bool) {i : Nat} (hi : i < 32) (j : Nat) :
    (writeBit m (bit 32 i) on).getLsbD j = if i = j then on else m.getLsbD j := by
  unfold writeBit
  cases on
  · simp only [Bool.false_eq_true, if_false]
    rw [getLsbD_and_not_bit m hi]
    by_cases h : i = j <;> simp [h]
  · simp only [if_true]
    rw [getLsbD_or_bit _ hi, getLsbD_and_not_bit m hi]
    by_cases h : i = j <;> simp [h]

theorem toNat_port {gpio : Nat} (h : gpio < 16) : (BitVec.ofNat 32 gpio).toNat < 16 := by
  rw [BitVec.toNat_ofNat]
  omega

/-- The field of a line is not touched by a write to the field of another line. -/
theorem nibble_other_line (regs : Nat → BitVec 32) {v : BitVec 32} (hv : v.toNat < 16)
    {l k : Nat} (h : k ≠ l) :
    nibble (setReg regs (l / 4) (fun r => setNibble r (4 * (l % 4)) v) (k / 4)) (4 * (k % 4)) =
      nibble (regs (k / 4)) (4 * (k % 4)) := by
  by_cases hr : k / 4 = l / 4
  · rw [hr, setReg_same]
    exact nibble_setNibble_ne hv _ (by omega)
  · rw [setReg_ne _ _ hr]

theorem lineCfg_initExti_same (e : Exti) {gpio l : Nat} (hg : gpio < 16) (hl : l < 32)
    {init : GpioInit} (hm : init.mode &&& extiMode = extiMode) :
    lineCfg (initExti e gpio init l) l =
      ⟨BitVec.ofNat 32 gpio, init.mode &&& gpioModeIt == gpioModeIt,
        init.mode &&& risingEdge == risingEdge, init.mode &&& fallingEdge == fallingEdge⟩ := by
  have hx : (init.mode &&& extiMode == extiMode) = true := beq_iff_eq.mpr hm
  unfold initExti lineCfg
  dsimp only
  rw [if_pos hx]
  dsimp only
  rw [setReg_same, nibble_setNibble_same (toNat_port hg) _ (by omega), getLsbD_writeBit _ _ hl,
    getLsbD_writeBit _ _ hl, getLsbD_writeBit _ _ hl, if_pos rfl, if_pos rfl, if_pos rfl]

theorem lineCfg_initExti_ne (e : Exti) {gpio l k : Nat} (hg : gpio < 16) (hl : l < 32)
    (init : GpioInit) (h : k ≠ l) : lineCfg (initExti e gpio init l) k = lineCfg e k := by
  unfold initExti lineCfg
  dsimp only
  split
  · dsimp only
    rw [nibble_other_line _ (toNat_port hg) h, getLsbD_writeBit _ _ hl, getLsbD_writeBit _ _ hl,
      getLsbD_writeBit _ _ hl, if_neg h.symm, if_neg h.symm, if_neg h.symm]
  · rfl

theorem lineCfg_deInitExti_same (e : Exti) {gpio l : Nat} (hg : gpio < 16) (hl : l < 32) :
    lineCfg (deInitExti e gpio l) l =
      if (lineCfg e l).source = BitVec.ofNat 32 gpio then ⟨0, false, false, false⟩
      else lineCfg e l := by
  unfold deInitExti
  dsimp only
  by_cases h : (lineCfg e l).source = BitVec.ofNat 32 gpio
  · have hs : e.exticr (l / 4) &&& (0xF#32 <<< (4 * (l % 4))) =
        BitVec.ofNat 32 gpio <<< (4 * (l % 4)) :=
      (and_field_eq_iff (toNat_port hg) _ (by omega)).mpr h
    rw [if_pos h, if_pos hs]
    unfold lineCfg
    dsimp only
    rw [setReg_same, getLsbD_and_not_bit _ hl, getLsbD_and_not_bit _ hl,
      getLsbD_and_not_bit _ hl]
    have hz := setNibble_zero (e.exticr (l / 4)) (4 * (l % 4))
    rw [← hz, nibble_setNibble_same (by decide) _ (by omega)]
    simp
  · have hs : ¬ e.exticr (l / 4) &&& (0xF#32 <<< (4 * (l % 4))) =
        BitVec.ofNat 32 gpio <<< (4 * (l % 4)) := fun hc =>
      h ((and_field_eq_iff (toNat_port hg) _ (by omega)).mp hc)
    rw [if_neg h, if_neg hs]

theorem lineCfg_deInitExti_ne (e : Exti) {gpio l k : Nat} (hl : l < 32)
    (h : k ≠ l) : lineCfg (deInitExti e gpio l) k = lineCfg e k := by
  unfold deInitExti
  dsimp only
  split
  · unfold lineCfg
    dsimp only
    rw [getLsbD_and_not_bit _ hl, getLsbD_and_not_bit _ hl, getLsbD_and_not_bit _ hl]
    have hz : ∀ r : BitVec 32, r &&& ~~~(0xF#32 <<< (4 * (l % 4))) = setNibble r (4 * (l % 4)) 0 :=
      fun r => (setNibble_zero r _).symm
    simp only [hz]
    rw [nibble_other_line _ (by decide) h]
    simp [h.symm]
  · rfl

end Live2dStm32.Hal.Gpio
