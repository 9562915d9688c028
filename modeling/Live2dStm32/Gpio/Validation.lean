import Live2dStm32.Gpio.NonInterference

/-
  What the GPIO driver does with arguments it should refuse: `stm32_pin_write`, `stm32_pin_read`
  and `stm32_pin_mode` with the three operations on pin interrupts.

  `validation`: an argument whose low byte is no pin changes nothing, and is refused where there
  is a status to refuse it with; and on a line that is attached for edges only, enable hands
  `HAL_GPIO_Init` a structure with every field it reads assigned. Larger arguments are cut to
  their low byte, and Alternate is never assigned.
-/

namespace Live2dStm32.Gpio

open Live2dStm32.Lib Live2dStm32.Kernel Live2dStm32.Hal.Gpio

/-! ## Reading, writing and the mode of a pin -/

def pinLow : Int := 0

def pinModeOutput : Int := 0x00
def pinModeInput : Int := 0x01
def pinModeInputPullup : Int := 0x02
def pinModeInputPulldown : Int := 0x03
def pinModeOutputOd : Int := 0x04

def gpioModeInput : BitVec 32 := 0

/-- With `HAL_GPIO_WritePin` and `HAL_GPIO_ReadPin`. -/
structure PinHal (H : Type) extends GpioHal H where
  writePin : H → Nat → BitVec 32 → Int → H
  readPin : H → Nat → BitVec 32 → Int

/-- The ports of the H7 with their output and input data registers. -/
structure PinHw where
  gpio : GpioHw
  odr : Nat → BitVec 32
  idr : Nat → BitVec 32

/-- A write to BSRR: the upper half resets, the lower half sets and has priority. -/
def writeBsrr (odr w : BitVec 32) : BitVec 32 := (odr &&& ~~~(w >>> 16)) ||| (w &&& 0xFFFF)

def halGpioWritePin (hw : PinHw) (gpio : Nat) (pin : BitVec 32) (pinState : Int) : PinHw :=
  let w := if pinState ≠ 0 then pin else pin <<< 16
  { hw with odr := setReg hw.odr gpio fun odr => writeBsrr odr w }

def halGpioReadPin (hw : PinHw) (gpio : Nat) (pin : BitVec 32) : Int :=
  if hw.idr gpio &&& pin ≠ 0 then 1 else 0

def h7PinHal : PinHal PinHw where
  init hw gpio init := { hw with gpio := halGpioInit hw.gpio gpio init }
  deInit hw gpio pin := { hw with gpio := halGpioDeInit hw.gpio gpio pin }
  writePin := halGpioWritePin
  readPin := halGpioReadPin

variable {H : Type}

def stm32PinWrite (soc : Soc) (hal : PinHal H) (b : Board H) (pin value : Int) : Board H :=
  match getPin soc pin with
  | none => b
  | some index => { b with hw := hal.writePin b.hw index.gpio index.pin value }

def stm32PinRead (soc : Soc) (hal : PinHal H) (b : Board H) (pin : Int) : Int :=
  match getPin soc pin with
  | none => pinLow
  | some index => hal.readPin b.hw index.gpio index.pin

/-- GPIO_InitStruct as `stm32_pin_mode` fills it; a mode it does not know is push-pull output. -/
def modeInit (stack : GpioInit) (pinbit : BitVec 32) (mode : Int) : GpioInit :=
  let init := { stack with
    pin := pinbit
    mode := gpioModeOutputPp
    pull := gpioNopull
    speed := gpioSpeedFreqHigh }
  if mode = pinModeOutput then { init with mode := gpioModeOutputPp, pull := gpioNopull }
  else if mode = pinModeInput then { init with mode := gpioModeInput, pull := gpioNopull }
  else if mode = pinModeInputPullup then { init with mode := gpioModeInput, pull := gpioPullup }
  else if mode = pinModeInputPulldown then
    { init with mode := gpioModeInput, pull := gpioPulldown }
  else if mode = pinModeOutputOd then
    { init with mode := gpioModeOutputOd, pull := gpioNopull }
  else init

def stm32PinMode (soc : Soc) (hal : PinHal H) (b : Board H) (pin mode : Int) (stack : GpioInit) :
    Board H :=
  match getPin soc pin with
  | none => b
  | some index => { b with hw := hal.init b.hw index.gpio (modeInit stack index.pin mode) }

/-- A call of one of the six operations. -/
inductive PinCall where
  | write (pin value : Int)
  | read (pin : Int)
  | mode (pin mode : Int) (stack : GpioInit)
  | irq (op : PinOp)
  deriving DecidableEq, Repr

def PinCall.pin : PinCall → Int
  | .write pin _ => pin
  | .read pin => pin
  | .mode pin _ _ => pin
  | .irq op => op.pin

/-- What a call returns: nothing, the level of the pin or a status. -/
inductive PinAnswer where
  | done
  | level (value : Int)
  | status (status : Int)
  deriving DecidableEq, Repr

/-- The board after a call, and what it returns. -/
def pinCall (soc : Soc) (hal : PinHal H) (b : Board H) : PinCall → Board H × PinAnswer
  | .write pin value => (stm32PinWrite soc hal b pin value, .done)
  | .read pin => (b, .level (stm32PinRead soc hal b pin))
  | .mode pin mode stack => (stm32PinMode soc hal b pin mode stack, .done)
  | .irq op =>
    let (b, status) := call soc hal.toGpioHal b op
    (b, .status status)

/-! ## Arguments that are no pin -/

theorem call_not_pin (soc : Soc) (hal : GpioHal H) (b : Board H) {op : PinOp}
    (h : ¬ IsPin soc op.pin) : call soc hal b op = (b, rtEnosys) := by
  cases op with
  | attach pin mode hdr args => exact attach_not_pin soc b h mode hdr args
  | dettach pin => exact dettach_not_pin soc b h
  | irqEnable pin value stack => exact irqEnable_not_pin soc hal b h value stack

/-- The answer to a call that is refused. -/
def PinCall.refusal : PinCall → PinAnswer
  | .write .. => .done
  | .read _ => .level pinLow
  | .mode .. => .done
  | .irq _ => .status rtEnosys

theorem pinCall_not_pin (soc : Soc) (hal : PinHal H) (b : Board H) {c : PinCall}
    (h : ¬ IsPin soc c.pin) : pinCall soc hal b c = (b, c.refusal) := by
  cases c with
  | write pin value =>
    have hget : getPin soc pin = none := (getPin_eq soc pin).trans (if_neg h)
    simp [pinCall, PinCall.refusal, stm32PinWrite, hget]
  | read pin =>
    have hget : getPin soc pin = none := (getPin_eq soc pin).trans (if_neg h)
    simp [pinCall, PinCall.refusal, stm32PinRead, hget]
  | mode pin mode stack =>
    have hget : getPin soc pin = none := (getPin_eq soc pin).trans (if_neg h)
    simp [pinCall, PinCall.refusal, stm32PinMode, hget]
  | irq op =>
    have hcall := call_not_pin soc hal.toGpioHal b h
    simp [pinCall, PinCall.refusal, hcall]

/-! ## The structure enable passes -/

/-- The edges: the modes the `switch` of `stm32_pin_irq_enable` knows. -/
def IsTrigger (mode : BitVec 16) : Prop :=
  mode = pinIrqModeRising ∨ mode = pinIrqModeFalling ∨ mode = pinIrqModeRisingFalling

/-- Line `l` is recorded for edges, if it is recorded. -/
def LineOk (b : Board H) (l : Nat) : Prop :=
  (b.pinIrqHdrTab l).pinNo ≠ -1 → IsTrigger (b.pinIrqHdrTab l).mode

/-- An attach to line `l` is for edges. -/
def AttachOk (l : Nat) : PinOp → Prop
  | .attach pin mode _ _ => lineNo pin = l → IsTrigger (mode.setWidth 16)
  | _ => True

theorem irqEnable_tab (soc : Soc) (hal : GpioHal H) (b : Board H) (pin : Int) (value : BitVec 32)
    (stack : GpioInit) :
    (stm32PinIrqEnable soc hal b pin value stack).1.pinIrqHdrTab = b.pinIrqHdrTab := by
  by_cases hpin : IsPin soc pin
  · by_cases h1 : value = pinIrqEnable
    · rw [h1, irqEnable_enable soc hal b hpin stack]
      split <;> rfl
    · by_cases h0 : value = pinIrqDisable
      · obtain ⟨b', heq, hdisabled⟩ := irqEnable_disable soc hal b hpin stack
        rw [h0, heq]
        exact hdisabled.tab
      · rw [irqEnable_other soc hal b hpin h1 h0 stack]
  · rw [irqEnable_not_pin soc hal b hpin value stack]

theorem lineOk_setHdr {b : Board H} {l k : Nat} {e : RtPinIrqHdr} (h : LineOk b l)
    (he : k = l → e.pinNo ≠ -1 → IsTrigger e.mode) : LineOk (b.setHdr k e) l := by
  unfold LineOk
  change (setReg b.pinIrqHdrTab k (fun _ => e) l).pinNo ≠ -1 →
    IsTrigger (setReg b.pinIrqHdrTab k (fun _ => e) l).mode
  by_cases hk : k = l
  · subst hk
    rw [setReg_same]
    exact he rfl
  · rw [setReg_ne _ _ (Ne.symm hk)]
    exact h

/-- Every call keeps a line of edges, if it attaches edges only. -/
theorem lineOk_after (soc : Soc) (hal : GpioHal H) {b : Board H} {l : Nat} (h : LineOk b l)
    {op : PinOp} (hop : AttachOk l op) : LineOk (after soc hal b op) l := by
  by_cases hpin : IsPin soc op.pin
  · cases op with
    | attach pin mode hdr args =>
      change LineOk (stm32PinAttachIrq soc b pin mode hdr args).1 l
      rw [attach_pin soc b (show IsPin soc pin from hpin)]
      dsimp only
      split
      · exact h
      · split
        · exact h
        · exact lineOk_setHdr h fun hl _ => hop hl
    | dettach pin =>
      change LineOk (stm32PinDettachIrq soc b pin).1 l
      rw [dettach_pin soc b (show IsPin soc pin from hpin)]
      split
      · exact h
      · exact lineOk_setHdr h fun _ hne => absurd rfl hne
    | irqEnable pin value stack =>
      unfold LineOk
      change (((stm32PinIrqEnable soc hal b pin value stack).1.pinIrqHdrTab) l).pinNo ≠ -1 → _
      rw [irqEnable_tab]
      intro hne
      change IsTrigger (((stm32PinIrqEnable soc hal b pin value stack).1.pinIrqHdrTab) l).mode
      rw [irqEnable_tab]
      exact h hne
  · rw [after, call_not_pin soc hal b hpin]
    exact h

theorem lineOk_run (soc : Soc) (hal : GpioHal H) (hw : H) (l : Nat) {ops : List PinOp}
    (hops : ∀ op ∈ ops, AttachOk l op) :
    LineOk (ops.foldl (after soc hal) (Board.reset hw)) l :=
  EachStep.foldl (fun b => LineOk b l) (fun _ _ hb hop => lineOk_after soc hal hb hop)
    (fun h => absurd rfl h) (eachStep_label_iff.mpr hops)

/-- A HAL that notes the structures passed to `HAL_GPIO_Init`. -/
def recordHal : GpioHal (List GpioInit) := ⟨fun log _ init => log ++ [init], fun log _ _ => log⟩

/-- For an edge every field but Alternate is assigned. -/
theorem enableInit_trigger {mode : BitVec 16} (h : IsTrigger mode) (pinbit : BitVec 32) :
    ∃ gpioMode pull, ∀ stack, enableInit stack pinbit mode =
      ⟨pinbit, gpioMode, pull, gpioSpeedFreqHigh, stack.alternate⟩ := by
  obtain rfl | rfl | rfl := h
  · exact ⟨gpioModeItRising, gpioPulldown, fun _ => rfl⟩
  · exact ⟨gpioModeItFalling, gpioPullup, fun _ => rfl⟩
  · exact ⟨gpioModeItRisingFalling, gpioNopull, fun _ => rfl⟩

/-- An enable of `pin` that succeeds passes one structure, of which only Alternate depends on
    what was on the stack. -/
def PassesAssigned (soc : Soc) (b : Board (List GpioInit)) (pin : Int) : Prop :=
  ∃ pinbit mode pull speed, ∀ stack,
    (stm32PinIrqEnable soc recordHal b pin pinIrqEnable stack).2 = rtEok →
      (stm32PinIrqEnable soc recordHal b pin pinIrqEnable stack).1.hw =
        b.hw ++ [⟨pinbit, mode, pull, speed, stack.alternate⟩]

theorem passesAssigned {soc : Soc} {b : Board (List GpioInit)} {pin : Int}
    (h : LineOk b (lineNo pin)) : PassesAssigned soc b pin := by
  have hrefused : rtEnosys ≠ rtEok := by decide
  by_cases hpin : IsPin soc pin
  · by_cases hrec : b.recorded pin = -1
    · refine ⟨0, 0, 0, 0, fun stack hok => ?_⟩
      rw [irqEnable_enable soc recordHal b hpin stack, if_pos hrec] at hok
      exact absurd hok hrefused
    · obtain ⟨gpioMode, pull, hinit⟩ := enableInit_trigger (h hrec) (bit 32 (lineNo pin))
      refine ⟨bit 32 (lineNo pin), gpioMode, pull, gpioSpeedFreqHigh, fun stack _ => ?_⟩
      rw [irqEnable_enable soc recordHal b hpin stack, if_neg hrec, ← hinit stack]
      rfl
  · refine ⟨0, 0, 0, 0, fun stack hok => ?_⟩
    rw [irqEnable_not_pin soc recordHal b hpin] at hok
    exact absurd hok hrefused

/-- For every chip, every call, and every run of attach, dettach and enable calls from reset. -/
theorem validation (soc : Soc) (hal : PinHal H) :
    (∀ (b : Board H) (c : PinCall), ¬ IsPin soc c.pin →
      (pinCall soc hal b c).1 = b ∧
        ∀ status, (pinCall soc hal b c).2 = .status status → status ≠ rtEok) ∧
    ∀ (ops : List PinOp) (pin : Int), (∀ op ∈ ops, AttachOk (lineNo pin) op) →
      PassesAssigned soc (ops.foldl (after soc recordHal) (Board.reset [])) pin := by
  constructor
  · intro b c hpin
    rw [pinCall_not_pin soc hal b hpin]
    refine ⟨rfl, fun status hs => ?_⟩
    cases c with
    | irq op =>
      cases hs
      decide
    | write | read | mode => cases hs
  · intro ops pin hops
    exact passesAssigned (lineOk_run soc recordHal [] (lineNo pin) hops)

/-- The H7, a call for pin 200, and PA0 attached for rising edges. -/
theorem validation_h7 :
    (pinCall stm32h7 h7PinHal (Board.reset ⟨gpioReset, fun _ => 0, fun _ => 0⟩)
        (.write 200 1)).1 = Board.reset ⟨gpioReset, fun _ => 0, fun _ => 0⟩ ∧
      PassesAssigned stm32h7
        ([PinOp.attach 0 0 1 0].foldl (after stm32h7 recordHal) (Board.reset [])) 0 :=
  ⟨((validation stm32h7 h7PinHal).1 _ (.write 200 1) (by decide)).1,
    (validation stm32h7 h7PinHal).2 [.attach 0 0 1 0] 0
      (fun op hop => by rw [List.mem_singleton.mp hop]; exact fun _ => .inl rfl)⟩

/-- Pin 256 is taken for PA0, and Alternate is what was on the stack. -/
theorem validation_fails_256 :
    (¬ ∀ (b : Board (List GpioInit)) (op : PinOp), ¬ (0 ≤ op.pin ∧ op.pin < 16 * stm32h7.ports) →
      (call stm32h7 recordHal b op).2 ≠ rtEok) ∧
    ¬ ∀ (ops : List PinOp) (pin : Int), (∀ op ∈ ops, AttachOk (lineNo pin) op) →
      ∀ stack stack' : GpioInit,
        let b := ops.foldl (after stm32h7 recordHal) (Board.reset [])
        (stm32PinIrqEnable stm32h7 recordHal b pin pinIrqEnable stack).1.hw =
          (stm32PinIrqEnable stm32h7 recordHal b pin pinIrqEnable stack').1.hw := by
  constructor
  · intro hall
    exact absurd rfl (hall (Board.reset []) (.attach 256 0 1 0) (by decide))
  · intro hall
    have hops : ∀ op ∈ [PinOp.attach 0 0 1 0], AttachOk (lineNo 0) op := by
      intro op hop
      rw [List.mem_singleton.mp hop]
      exact fun _ => .inl rfl
    exact absurd (hall _ 0 hops ⟨0, 0, 0, 0, 0⟩ ⟨0, 0, 0, 0, 1⟩) (by decide)

end Live2dStm32.Gpio
