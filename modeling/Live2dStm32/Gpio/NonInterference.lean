import Live2dStm32.Gpio.Irq
import Live2dStm32.Lib.Machine

/-
  Pins that share an EXTI line. While pin `p` is recorded for a line, a call for another pin
  `q` of that line should be refused and leave the line alone (`NonInterf`).

  `attach` compares the recorded pin and refuses; `dettach`, enable and disable do not compare
  and return RT_EOK. `nonInterf_iff`: in every run the law holds at each call exactly when none
  of these three is ever called for a pin other than the recorded one.
-/

namespace Live2dStm32.Gpio

open Live2dStm32.Lib Live2dStm32.Kernel Live2dStm32.Hal.Gpio

/-- The pin argument of a call. -/
def PinOp.pin : PinOp → Int
  | .attach pin _ _ _ => pin
  | .dettach pin => pin
  | .irqEnable pin _ _ => pin

/-- Another pin is recorded for the line of `pin`. -/
def Foreign {H : Type} (soc : Soc) (b : Board H) (pin : Int) : Prop :=
  IsPin soc pin ∧ b.recorded pin ≠ -1 ∧ b.recorded pin ≠ pin

/-- What a call for a foreign pin must do: fail, and leave the entry, the mask bit, the enabled
    interrupt and the routing of the line as they are. -/
def NonInterf (soc : Soc) (b : Board GpioHw) (op : PinOp) : Prop :=
  Foreign soc b op.pin →
    let l := lineNo op.pin
    let b' := after soc h7Hal b op
    (call soc h7Hal b op).2 ≠ rtEok ∧
      b'.pinIrqHdrTab l = b.pinIrqHdrTab l ∧
      b'.pinIrqEnableMask.getLsbD l = b.pinIrqEnableMask.getLsbD l ∧
      (b.nvic (irqnoOf soc.series l) = true → b'.nvic (irqnoOf soc.series l) = true) ∧
      (lineCfg b'.hw.exti l).source = (lineCfg b.hw.exti l).source

/-- The call is for attach, or its pin is not foreign. -/
def OwnPin (soc : Soc) (b : Board GpioHw) : PinOp → Prop
  | .attach .. => True
  | .dettach pin => ¬ Foreign soc b pin
  | .irqEnable pin value _ =>
    value = pinIrqEnable ∨ value = pinIrqDisable → ¬ Foreign soc b pin

/-- A call that fails and changes nothing keeps the law. -/
theorem nonInterf_of_refused {soc : Soc} {b : Board GpioHw} {op : PinOp} {r : Int}
    (hr : r ≠ rtEok) (h : call soc h7Hal b op = (b, r)) : NonInterf soc b op := by
  intro _
  dsimp only
  unfold after
  rw [h]
  exact ⟨hr, rfl, rfl, fun hn => hn, rfl⟩

/-- A call for a foreign pin that returns RT_EOK breaks it. -/
theorem not_nonInterf_of_ok {soc : Soc} {b : Board GpioHw} {op : PinOp}
    (h : (call soc h7Hal b op).2 = rtEok) (hf : Foreign soc b op.pin) : ¬ NonInterf soc b op :=
  fun hn => (hn hf).1 h

theorem nonInterf_attach (soc : Soc) (b : Board GpioHw) (pin : Int) (mode hdr args : BitVec 32) :
    NonInterf soc b (.attach pin mode hdr args) := by
  intro hf
  obtain ⟨hp, hrec, hne⟩ : Foreign soc b pin := hf
  have hbusy : call soc h7Hal b (.attach pin mode hdr args) = (b, rtEbusy) := by
    unfold call
    dsimp only
    rw [attach_pin soc b hp]
    dsimp only
    rw [if_neg fun hs => hne hs.1, if_pos hrec]
  exact nonInterf_of_refused (by decide) hbusy ⟨hp, hrec, hne⟩

theorem nonInterf_step_iff (soc : Soc) (b : Board GpioHw) (op : PinOp) :
    NonInterf soc b op ↔ OwnPin soc b op := by
  cases op with
  | attach pin mode hdr args => exact iff_of_true (nonInterf_attach soc b pin mode hdr args) trivial
  | dettach pin =>
    constructor
    · intro hn hf
      refine not_nonInterf_of_ok ?_ hf hn
      unfold call
      dsimp only
      rw [dettach_pin soc b hf.1, if_neg hf.2.1]
    · intro ho hf
      exact absurd hf ho
  | irqEnable pin value stack =>
    constructor
    · rintro hn (rfl | rfl) hf
      · refine not_nonInterf_of_ok ?_ hf hn
        unfold call
        dsimp only
        rw [irqEnable_enable soc h7Hal b hf.1, if_neg hf.2.1]
      · refine not_nonInterf_of_ok ?_ hf hn
        obtain ⟨b', he, -⟩ := irqEnable_disable soc h7Hal b hf.1 stack
        unfold call
        dsimp only
        rw [he]
    · intro ho hf
      by_cases h1 : value = pinIrqEnable
      · exact absurd hf (ho (Or.inl h1))
      by_cases h0 : value = pinIrqDisable
      · exact absurd hf (ho (Or.inr h0))
      · exact nonInterf_of_refused (by decide) (irqEnable_other soc h7Hal b hf.1 h1 h0 stack) hf

/-- Every run of calls, from any board. -/
theorem nonInterf_iff (soc : Soc) (b : Board GpioHw) (ops : List PinOp) :
    EachStep (after soc h7Hal) (NonInterf soc) b ops ↔
      EachStep (after soc h7Hal) (OwnPin soc) b ops :=
  eachStep_iff (fun _ => True) (fun b op _ => nonInterf_step_iff soc b op)
    (fun _ _ _ _ => trivial) trivial ops

/-- PA0 (pin 0) is attached; dettaching PB0 (pin 16) empties its entry and returns RT_EOK. -/
theorem nonInterf_fails_pb0 :
    ¬ ∀ ops : List PinOp,
      EachStep (after stm32h7 h7Hal) (NonInterf stm32h7) (Board.reset gpioReset) ops := by
  intro hall
  obtain ⟨-, h, -⟩ := hall [.attach 0 0 1 0, .dettach 16]
  exact (h ⟨by decide, by decide, by decide⟩).1 (by decide)

end Live2dStm32.Gpio
