import Live2dStm32.Gpio.Irq
import Live2dStm32.Lib.Machine

/-
  Delivery of pin interrupts on the H7: calls into the driver, edges on pins, and the EXTI
  vectors, in any order. An edge is latched in the pending register when its line is routed
  from its port and has its trigger set; a vector runs while its interrupt is enabled in the
  NVIC and one of its lines is latched and unmasked, and then serves every latched line of its
  group, as `HAL_GPIO_EXTI_IRQHandler` tests the pending register only.

  `attributed_of_reach`: in every run in which attach records a pin only on a line that is
  masked and has nothing latched, enable is called for the recorded pin and an edge mode, and
  the recorded pin is not disabled over a latched edge, each handler runs only for edges of its
  own pin and mode, after a successful enable. Without that it fails: `dettach` leaves the line
  routed and unmasked.
-/

namespace Live2dStm32.Gpio.Delivery

open Live2dStm32.Lib Live2dStm32.Kernel Live2dStm32.Hal.Gpio

/-! ## The system -/

/-- A rising or falling edge on a line's pin of a port. -/
structure Edge where
  port : Nat
  rising : Bool
  deriving DecidableEq, Repr

/-- A handler run: the line, the entry it was taken from, the edges it serves, and whether
    enable had succeeded for the pin since the attach, with no later disable. -/
structure Served where
  line : Nat
  entry : RtPinIrqHdr
  edges : List Edge
  armed : Bool
  deriving DecidableEq, Repr

/-- `latched l` are the edges behind the pending bit of line `l`, which is set while there are
    any. `armed` and `served` are kept for the statement only. -/
structure State where
  board : Board GpioHw
  latched : Nat → List Edge
  armed : Nat → Bool
  served : List Served

inductive Action where
  | call (op : PinOp)
  | edge (port line : Nat) (rising : Bool)
  | irq (n : IrqN)

def init : State where
  board := Board.reset gpioReset
  latched := fun _ => []
  armed := fun _ => false
  served := []

def State.cfg (s : State) (l : Nat) : LineCfg := lineCfg s.board.hw.exti l

/-- The books on enable over a call that succeeds: cleared when attach records, when dettach is
    called and when the recorded pin is disabled, set when it is enabled. -/
def armedOn (b : Board GpioHw) (armed : Nat → Bool) : PinOp → Nat → Bool
  | .attach pin _ _ _ =>
    if b.recorded pin = -1 then setReg armed (lineNo pin) fun _ => false else armed
  | .dettach pin => setReg armed (lineNo pin) fun _ => false
  | .irqEnable pin value _ =>
    if pinByte (b.recorded pin) = pinByte pin then
      setReg armed (lineNo pin) fun _ => decide (value = pinIrqEnable)
    else armed

def callStep (s : State) (op : PinOp) : State :=
  { s with
    board := after stm32h7 h7Hal s.board op
    armed := if (call stm32h7 h7Hal s.board op).2 = rtEok then armedOn s.board s.armed op
      else s.armed }

/-- The trigger of line `l` takes an edge from `port`. -/
def takes (c : LineCfg) (port : Nat) (rising : Bool) : Prop :=
  c.source = BitVec.ofNat 32 port ∧ (if rising then c.rtsr else c.ftsr) = true

instance (c : LineCfg) (port : Nat) (rising : Bool) : Decidable (takes c port rising) :=
  inferInstanceAs (Decidable (_ ∧ _))

def edgeStep (s : State) (port line : Nat) (rising : Bool) : State :=
  if takes (s.cfg line) port rising then
    { s with latched := setReg s.latched line fun es => es ++ [⟨port, rising⟩] }
  else s

/-- The pins whose handler an EXTI vector calls, in its order. -/
def vectorLines : IrqN → List Nat
  | .exti0_1 => [0, 1]
  | .exti2_3 => [2, 3]
  | .exti4_15 => [4, 5, 6, 7, 8, 9, 10, 11, 12, 13, 14, 15]
  | .exti0 => [0]
  | .exti1 => [1]
  | .exti2 => [2]
  | .exti3 => [3]
  | .exti4 => [4]
  | .exti9_5 => [5, 6, 7, 8, 9]
  | .exti15_10 => [10, 11, 12, 13, 14, 15]

/-- `HAL_GPIO_EXTI_IRQHandler` on a line, with `HAL_GPIO_EXTI_Callback` and `pin_irq_hdr`: the
    pending bit is cleared, then the handler is called if there is one. -/
def halGpioExtiIRQHandler (s : State) (l : Nat) : State :=
  if s.latched l = [] then s
  else
    let s' := { s with latched := setReg s.latched l fun _ => [] }
    let e := s.board.pinIrqHdrTab l
    if e.hdr = 0 then s'
    else { s' with served := s.served ++ [⟨l, e, s.latched l, s.armed l⟩] }

/-- The interrupt is requested and enabled. -/
def requested (s : State) (n : IrqN) : Prop :=
  s.board.nvic n = true ∧ ∃ l ∈ vectorLines n, (s.cfg l).imr = true ∧ s.latched l ≠ []

instance (s : State) (n : IrqN) : Decidable (requested s n) :=
  inferInstanceAs (Decidable (_ ∧ _))

def step (s : State) : Action → Option State
  | .call op => some (callStep s op)
  | .edge port line rising =>
    if port < stm32h7.ports ∧ line < 16 then some (edgeStep s port line rising) else none
  | .irq n =>
    if requested s n then some ((vectorLines n).foldl halGpioExtiIRQHandler s) else none

/-! ## The property and the condition -/

/-- The edge is of the mode. -/
def OfMode (mode : BitVec 16) (rising : Bool) : Prop :=
  mode = pinIrqModeRisingFalling ∨ mode = if rising then pinIrqModeRising else pinIrqModeFalling

/-- The edge is one of the recorded pin, in the recorded mode. -/
def OfEntry (l : Nat) (e : RtPinIrqHdr) (x : Edge) : Prop :=
  IsPin stm32h7 e.pinNo ∧ lineNo e.pinNo = l ∧ portNo e.pinNo = x.port ∧ OfMode e.mode x.rising

/-- A handler run for edges of its pin and mode, and since a successful enable. -/
def Attributed (c : Served) : Prop :=
  c.armed = true ∧ ∀ x ∈ c.edges, OfEntry c.line c.entry x

def EdgeMode (mode : BitVec 16) : Prop :=
  mode = pinIrqModeRising ∨ mode = pinIrqModeFalling ∨ mode = pinIrqModeRisingFalling

instance (mode : BitVec 16) : Decidable (EdgeMode mode) :=
  inferInstanceAs (Decidable (_ ∨ _ ∨ _))

/-- The condition on a call. `dettach`, and calls for other pins than the recorded one apart
    from enable, are free. -/
def Orderly (s : State) : PinOp → Prop
  | .attach pin _ _ _ =>
    s.board.recorded pin = -1 →
      (s.cfg (lineNo pin)).imr = false ∧ s.latched (lineNo pin) = []
  | .dettach _ => True
  | .irqEnable pin value _ =>
    s.board.recorded pin ≠ -1 →
      (value = pinIrqEnable → pinByte (s.board.recorded pin) = pinByte pin ∧
        EdgeMode (s.board.pinIrqHdrTab (lineNo pin)).mode) ∧
      (value = pinIrqDisable → pinByte (s.board.recorded pin) = pinByte pin →
        s.latched (lineNo pin) = [])

def Guard (s : State) : Action → Prop
  | .call op => Orderly s op
  | _ => True

instance (s : State) (a : Action) : Decidable (Guard s a) := by
  unfold Guard Orderly
  split
  · split <;> infer_instance
  · infer_instance

/-! ## The invariant, line by line -/

structure LineOk (l : Nat) (e : RtPinIrqHdr) (c : LineCfg) (latched : List Edge)
    (armed : Bool) : Prop where
  /-- A masked line has no trigger. -/
  quiet : c.imr = false → c.rtsr = false ∧ c.ftsr = false
  /-- A free entry has no handler. -/
  free : e.pinNo = -1 → e.hdr = 0
  pin : e.pinNo ≠ -1 → IsPin stm32h7 e.pinNo ∧ lineNo e.pinNo = l
  /-- A recorded and unmasked line is routed and triggered as recorded, and armed. -/
  routed : e.pinNo ≠ -1 → c.imr = true →
    c.source = BitVec.ofNat 32 (portNo e.pinNo) ∧ armed = true ∧
      (c.rtsr = true → OfMode e.mode true) ∧ (c.ftsr = true → OfMode e.mode false)
  held : e.pinNo ≠ -1 → latched ≠ [] → armed = true ∧ ∀ x ∈ latched, OfEntry l e x

structure Inv (s : State) : Prop where
  line : ∀ l < 16, LineOk l (s.board.pinIrqHdrTab l) (s.cfg l) (s.latched l) (s.armed l)
  served : ∀ c ∈ s.served, Attributed c

theorem lineOk_init (l : Nat) : LineOk l noHdr ⟨0, false, false, false⟩ [] false where
  quiet _ := ⟨rfl, rfl⟩
  free _ := rfl
  pin h := absurd (by decide) h
  routed h := absurd (by decide) h
  held h := absurd (by decide) h

/-- The line is masked. Latched edges keep it armed. -/
theorem LineOk.masked {l : Nat} {e : RtPinIrqHdr} {c : LineCfg} {latched : List Edge}
    {armed armed' : Bool} (h : LineOk l e c latched armed)
    (ha : latched = [] ∨ armed' = armed) :
    LineOk l e ⟨0, false, false, false⟩ latched armed' where
  quiet _ := ⟨rfl, rfl⟩
  free := h.free
  pin := h.pin
  routed _ hc := absurd hc Bool.false_ne_true
  held hne hlat := by
    rw [ha.resolve_left hlat]
    exact h.held hne hlat

theorem cfg_init (l : Nat) : init.cfg l = ⟨0, false, false, false⟩ := by
  unfold State.cfg lineCfg init Board.reset gpioReset
  simp [nibble]

theorem inv_init : Inv init where
  line l _ := by
    rw [cfg_init l]
    exact lineOk_init l
  served c hc := absurd hc (List.not_mem_nil)

/-- A move that touches one line only. -/
theorem Inv.update {s s' : State} (h : Inv s) {l : Nat}
    (hserved : s'.served = s.served)
    (hother : ∀ k < 16, k ≠ l → s'.board.pinIrqHdrTab k = s.board.pinIrqHdrTab k ∧
      s'.cfg k = s.cfg k ∧ s'.latched k = s.latched k ∧ s'.armed k = s.armed k)
    (hline : LineOk l (s'.board.pinIrqHdrTab l) (s'.cfg l) (s'.latched l) (s'.armed l)) :
    Inv s' where
  line k hk := by
    by_cases hkl : k = l
    · rw [hkl]
      exact hline
    · obtain ⟨h1, h2, h3, h4⟩ := hother k hk hkl
      rw [h1, h2, h3, h4]
      exact h.line k hk
  served := by
    rw [hserved]
    exact h.served

/-- A new entry for line `l`, with its books. -/
theorem Inv.setEntry {s : State} (h : Inv s) {l : Nat} {e : RtPinIrqHdr} {a : Bool}
    (hline : LineOk l e (s.cfg l) (s.latched l) a) :
    Inv { s with board := s.board.setHdr l e, armed := setReg s.armed l fun _ => a } := by
  refine h.update (l := l) rfl (fun k _ hk => ⟨?_, rfl, rfl, ?_⟩) ?_
  · exact setReg_ne s.board.pinIrqHdrTab (fun _ => e) hk
  · exact setReg_ne s.armed (fun _ => a) hk
  · dsimp only [Board.setHdr]
    rw [setReg_same, setReg_same]
    exact hline

/-- A new configuration of line `l`, with its books. -/
theorem Inv.setCfg {s : State} (h : Inv s) {l : Nat} {b : Board GpioHw} {a : Bool}
    (htab : b.pinIrqHdrTab = s.board.pinIrqHdrTab)
    (hother : ∀ k, k ≠ l → lineCfg b.hw.exti k = s.cfg k)
    (hline : LineOk l (s.board.pinIrqHdrTab l) (lineCfg b.hw.exti l) (s.latched l) a) :
    Inv { s with board := b, armed := setReg s.armed l fun _ => a } := by
  refine h.update (l := l) rfl (fun k _ hk => ⟨?_, hother k hk, rfl, ?_⟩) ?_
  · dsimp only
    rw [htab]
  · exact setReg_ne s.armed (fun _ => a) hk
  · dsimp only
    rw [htab, setReg_same]
    exact hline

/-! ## Calls -/

theorem pinByte_pinNo (pin : Int) (mode hdr args : BitVec 32) :
    pinByte (hdrOf pin mode hdr args).pinNo = pinByte pin := by
  unfold pinByte hdrOf RtPinIrqHdr.pinNo
  congr 1
  apply BitVec.eq_of_toInt_eq
  rw [BitVec.toInt_ofInt, BitVec.toInt_ofInt, BitVec.toInt_ofInt]
  exact Int.bmod_bmod_of_dvd (by decide)

/-- No pin number is recorded as -1. -/
theorem pinNo_ne {pin : Int} (h : IsPin stm32h7 pin) (mode hdr args : BitVec 32) :
    (hdrOf pin mode hdr args).pinNo ≠ -1 := by
  intro hc
  have hb := pinByte_pinNo pin mode hdr args
  rw [hc] at hb
  rw [IsPin, ← hb] at h
  exact absurd h (by decide)

/-- A call that fails leaves everything as it is. -/
theorem callStep_refused {s : State} {op : PinOp} {r : Int}
    (h : call stm32h7 h7Hal s.board op = (s.board, r)) (hr : r ≠ rtEok) : callStep s op = s := by
  unfold callStep after
  rw [h]
  dsimp only
  rw [if_neg hr]

theorem callStep_ok {s : State} {op : PinOp} {b : Board GpioHw}
    (h : call stm32h7 h7Hal s.board op = (b, rtEok)) :
    callStep s op = { s with board := b, armed := armedOn s.board s.armed op } := by
  unfold callStep after
  rw [h]
  dsimp only
  rw [if_pos rfl]

theorem inv_attach {s : State} (h : Inv s) {pin : Int} {mode hdr args : BitVec 32}
    (hg : Orderly s (.attach pin mode hdr args)) :
    Inv (callStep s (.attach pin mode hdr args)) := by
  by_cases hp : IsPin stm32h7 pin
  case neg =>
    have hcall : call stm32h7 h7Hal s.board (.attach pin mode hdr args) = (s.board, rtEnosys) :=
      attach_not_pin stm32h7 s.board hp mode hdr args
    rw [callStep_refused hcall (by decide)]
    exact h
  have hcall : call stm32h7 h7Hal s.board (.attach pin mode hdr args) = _ :=
    attach_pin stm32h7 s.board hp mode hdr args
  dsimp only at hcall
  split_ifs at hcall with hsame hrec
  · -- the same entry again
    have hne : s.board.recorded pin ≠ -1 := by
      intro hc
      rw [Board.recorded, hsame.1] at hc
      rw [hc] at hp
      exact absurd hp (by decide)
    rw [callStep_ok hcall, armedOn, if_neg hne]
    exact h
  · rw [callStep_refused hcall (by decide)]
    exact h
  · -- the pin is recorded, on a masked line with nothing latched
    have hrec : s.board.recorded pin = -1 := not_not.mp hrec
    obtain ⟨himr, hlat⟩ := hg hrec
    have hb := pinByte_pinNo pin mode hdr args
    rw [callStep_ok hcall, armedOn, if_pos hrec]
    exact h.setEntry
      { quiet := (h.line (lineNo pin) (lineNo_lt pin)).quiet
        free := fun hc => absurd hc (pinNo_ne hp mode hdr args)
        pin := fun _ => by
          unfold IsPin lineNo
          rw [hb]
          exact ⟨hp, rfl⟩
        routed := fun _ hc => by
          rw [himr] at hc
          cases hc
        held := fun _ hc => absurd hlat hc }

/-- An entry that is free, or made free, disarms its line. -/
theorem inv_freed {s : State} (h : Inv s) (pin : Int) {e : RtPinIrqHdr} (hno : e.pinNo = -1)
    (hhdr : e.hdr = 0) :
    Inv { s with
      board := s.board.setHdr (lineNo pin) e
      armed := setReg s.armed (lineNo pin) fun _ => false } :=
  h.setEntry
    { quiet := (h.line (lineNo pin) (lineNo_lt pin)).quiet
      free := fun _ => hhdr
      pin := fun hc => absurd hno hc
      routed := fun hc => absurd hno hc
      held := fun hc => absurd hno hc }

theorem setHdr_self (b : Board GpioHw) (l : Nat) : b.setHdr l (b.pinIrqHdrTab l) = b := by
  unfold Board.setHdr
  rw [setReg_self]

theorem inv_dettach {s : State} (h : Inv s) (pin : Int) : Inv (callStep s (.dettach pin)) := by
  by_cases hp : IsPin stm32h7 pin
  case neg =>
    have hcall : call stm32h7 h7Hal s.board (.dettach pin) = (s.board, rtEnosys) :=
      dettach_not_pin stm32h7 s.board hp
    rw [callStep_refused hcall (by decide)]
    exact h
  have hcall : call stm32h7 h7Hal s.board (.dettach pin) = _ := dettach_pin stm32h7 s.board hp
  split_ifs at hcall with hrec
  · have hfreed := inv_freed h pin hrec ((h.line (lineNo pin) (lineNo_lt pin)).free hrec)
    rw [setHdr_self] at hfreed
    rw [callStep_ok hcall]
    exact hfreed
  · rw [callStep_ok hcall]
    exact inv_freed h pin (by decide) rfl

/-- With an edge mode recorded the enable branch routes the line with its own edges only,
    whatever the stack held. -/
theorem enableInit_edgeMode (stack : GpioInit) (pinbit : BitVec 32) {mode : BitVec 16}
    (h : EdgeMode mode) :
    (enableInit stack pinbit mode).mode &&& extiMode = extiMode ∧
      ((enableInit stack pinbit mode).mode &&& gpioModeIt == gpioModeIt) = true ∧
      (((enableInit stack pinbit mode).mode &&& risingEdge == risingEdge) = true →
        OfMode mode true) ∧
      (((enableInit stack pinbit mode).mode &&& fallingEdge == fallingEdge) = true →
        OfMode mode false) := by
  rcases h with rfl | rfl | rfl
  · have hm : (enableInit stack pinbit pinIrqModeRising).mode = gpioModeItRising := rfl
    rw [hm]
    exact ⟨by decide, by decide, fun _ => Or.inr rfl, fun hf => absurd hf (by decide)⟩
  · have hm : (enableInit stack pinbit pinIrqModeFalling).mode = gpioModeItFalling := rfl
    rw [hm]
    exact ⟨by decide, by decide, fun hr => absurd hr (by decide), fun _ => Or.inr rfl⟩
  · have hm : (enableInit stack pinbit pinIrqModeRisingFalling).mode =
        gpioModeItRisingFalling := rfl
    rw [hm]
    exact ⟨by decide, by decide, fun _ => Or.inl rfl, fun _ => Or.inl rfl⟩

theorem enableInit_pin (stack : GpioInit) (pinbit : BitVec 32) (mode : BitVec 16) :
    (enableInit stack pinbit mode).pin = pinbit := by
  unfold enableInit
  dsimp only
  split_ifs <;> rfl

theorem inv_enable {s : State} (h : Inv s) {pin : Int} {stack : GpioInit}
    (hp : IsPin stm32h7 pin) (hg : Orderly s (.irqEnable pin pinIrqEnable stack)) :
    Inv (callStep s (.irqEnable pin pinIrqEnable stack)) := by
  have hcall : call stm32h7 h7Hal s.board (.irqEnable pin pinIrqEnable stack) = _ :=
    irqEnable_enable stm32h7 h7Hal s.board hp stack
  split_ifs at hcall with hrec
  case pos =>
    rw [callStep_refused hcall (by decide)]
    exact h
  obtain ⟨hown, hmode⟩ := (hg hrec).1 rfl
  have hl : lineNo pin < 32 := by have := lineNo_lt pin; omega
  have hexti : (enabled stm32h7 h7Hal s.board pin stack).hw.exti =
      initExti s.board.hw.exti (portNo pin) (enableInit stack (bit 32 (lineNo pin))
        (s.board.pinIrqHdrTab (lineNo pin)).mode) (lineNo pin) :=
    halGpioInit_bit s.board.hw (portNo pin) hl (enableInit_pin _ _ _)
  have hold := h.line (lineNo pin) (lineNo_lt pin)
  obtain ⟨hexm, hit, hrise, hfall⟩ := enableInit_edgeMode stack (bit 32 (lineNo pin)) hmode
  rw [callStep_ok hcall, armedOn, if_pos hown]
  refine h.setCfg rfl (fun k hk => ?_) ?_
  · rw [hexti]
    exact lineCfg_initExti_ne _ (portNo_lt pin) hl _ hk
  · rw [hexti, lineCfg_initExti_same _ (portNo_lt pin) hl hexm]
    exact
      { quiet := fun hc => by
          dsimp only at hc
          rw [hit] at hc
          cases hc
        free := hold.free
        pin := hold.pin
        routed := fun _ _ => by
          refine ⟨?_, rfl, hrise, hfall⟩
          unfold portNo
          rw [← hown]
          rfl
        held := fun hne hlat => ⟨rfl, (hold.held hne hlat).2⟩ }

theorem inv_disable {s : State} (h : Inv s) {pin : Int} {stack : GpioInit}
    (hp : IsPin stm32h7 pin) (hg : Orderly s (.irqEnable pin pinIrqDisable stack)) :
    Inv (callStep s (.irqEnable pin pinIrqDisable stack)) := by
  obtain ⟨b', hcall, hd⟩ := irqEnable_disable stm32h7 h7Hal s.board hp stack
  have hcall : call stm32h7 h7Hal s.board (.irqEnable pin pinIrqDisable stack) = (b', rtEok) :=
    hcall
  have hl : lineNo pin < 32 := by have := lineNo_lt pin; omega
  have hexti : b'.hw.exti = deInitExti s.board.hw.exti (portNo pin) (lineNo pin) := by
    rw [hd.hw]
    exact halGpioDeInit_bit s.board.hw (portNo pin) hl
  have hold := h.line (lineNo pin) (lineNo_lt pin)
  have hother : ∀ k, k ≠ lineNo pin → lineCfg b'.hw.exti k = s.cfg k := by
    intro k hk
    rw [hexti]
    exact lineCfg_deInitExti_ne _ hl hk
  have hsame : lineCfg b'.hw.exti (lineNo pin) =
      if (s.cfg (lineNo pin)).source = BitVec.ofNat 32 (portNo pin) then ⟨0, false, false, false⟩
      else s.cfg (lineNo pin) := by
    rw [hexti]
    exact lineCfg_deInitExti_same _ (portNo_lt pin) hl
  rw [callStep_ok hcall, armedOn]
  by_cases hown : pinByte (s.board.recorded pin) = pinByte pin
  · -- the recorded pin: its line is masked and has nothing latched
    have hrec : s.board.recorded pin ≠ -1 := by
      intro hc
      rw [hc] at hown
      rw [IsPin, ← hown] at hp
      exact absurd hp (by decide)
    have hlat := (hg hrec).2 rfl hown
    have hport : portNo (s.board.recorded pin) = portNo pin := by
      unfold portNo
      rw [hown]
    rw [if_pos hown]
    refine h.setCfg hd.tab hother ?_
    rw [hsame]
    split
    case isTrue => exact hold.masked (.inl hlat)
    case isFalse hsrc =>
      exact
        { quiet := hold.quiet
          free := hold.free
          pin := hold.pin
          routed := fun hne himr => by
            have hr := (hold.routed hne himr).1
            rw [show (s.board.pinIrqHdrTab (lineNo pin)).pinNo = s.board.recorded pin from rfl,
              hport] at hr
            exact absurd hr hsrc
          held := fun _ hc => absurd hlat hc }
  · -- another pin, or none recorded: at most the line is masked
    rw [if_neg hown]
    have hset := h.setCfg (a := s.armed (lineNo pin)) hd.tab hother (by
      rw [hsame]
      split
      · exact hold.masked (.inr rfl)
      · exact hold)
    rw [setReg_self] at hset
    exact hset

theorem inv_call {s : State} (h : Inv s) {op : PinOp} (hg : Orderly s op) :
    Inv (callStep s op) := by
  cases op with
  | attach pin mode hdr args => exact inv_attach h hg
  | dettach pin => exact inv_dettach h pin
  | irqEnable pin value stack =>
    by_cases hp : IsPin stm32h7 pin
    case neg =>
      have hcall : call stm32h7 h7Hal s.board (.irqEnable pin value stack) =
          (s.board, rtEnosys) := irqEnable_not_pin stm32h7 h7Hal s.board hp value stack
      rw [callStep_refused hcall (by decide)]
      exact h
    by_cases h1 : value = pinIrqEnable
    · subst h1
      exact inv_enable h hp hg
    by_cases h0 : value = pinIrqDisable
    · subst h0
      exact inv_disable h hp hg
    have hcall : call stm32h7 h7Hal s.board (.irqEnable pin value stack) =
        (s.board, -rtEnosys) := irqEnable_other stm32h7 h7Hal s.board hp h1 h0 stack
    rw [callStep_refused hcall (by decide)]
    exact h

/-! ## Edges and vectors -/

/-- An edge is latched only where the line is unmasked, so routed as recorded. -/
theorem inv_edge {s : State} (h : Inv s) {port line : Nat} {rising : Bool}
    (hport : port < 16) (hline : line < 16) : Inv (edgeStep s port line rising) := by
  unfold edgeStep
  split
  case isFalse => exact h
  case isTrue ht =>
    obtain ⟨hsrc, htrig⟩ := ht
    have hold := h.line line hline
    refine h.update (l := line) rfl (fun k _ hk => ⟨rfl, rfl, ?_, rfl⟩) ?_
    · exact setReg_ne s.latched (fun es => es ++ [⟨port, rising⟩]) hk
    · dsimp only
      rw [setReg_same]
      have himr : (s.cfg line).imr = true := by
        cases hi : (s.cfg line).imr with
        | true => rfl
        | false =>
          obtain ⟨hr, hf⟩ := hold.quiet hi
          rw [hr, hf, ite_self] at htrig
          cases htrig
      refine ⟨hold.quiet, hold.free, hold.pin, hold.routed, fun hne _ => ?_⟩
      obtain ⟨hroute, harm, hrise, hfall⟩ := hold.routed hne himr
      obtain ⟨hp, hl⟩ := hold.pin hne
      refine ⟨harm, fun x hx => ?_⟩
      rcases List.mem_append.mp hx with hx | hx
      · exact (hold.held hne (List.ne_nil_of_mem hx)).2 x hx
      · rw [List.mem_singleton] at hx
        subst hx
        refine ⟨hp, hl, ?_, ?_⟩
        · have he := congrArg BitVec.toNat (hroute.symm.trans hsrc)
          rw [BitVec.toNat_ofNat, BitVec.toNat_ofNat] at he
          have := portNo_lt (s.board.pinIrqHdrTab line).pinNo
          change portNo _ = port
          omega
        · cases rising with
          | true => exact hrise htrig
          | false => exact hfall htrig

theorem inv_served {s : State} (h : Inv s) {l : Nat} (hl : l < 16) :
    Inv (halGpioExtiIRQHandler s l) := by
  unfold halGpioExtiIRQHandler
  split
  case isTrue => exact h
  case isFalse hlat =>
    have hold := h.line l hl
    have hcleared : Inv { s with latched := setReg s.latched l fun _ => [] } := by
      refine h.update (l := l) rfl (fun k _ hk => ⟨rfl, rfl, ?_, rfl⟩) ?_
      · exact setReg_ne s.latched (fun _ => []) hk
      · dsimp only
        rw [setReg_same]
        exact ⟨hold.quiet, hold.free, hold.pin, hold.routed, fun _ hc => absurd rfl hc⟩
    dsimp only
    split
    case isTrue => exact hcleared
    case isFalse hhdr =>
      -- an entry with a handler is not free
      have hne : (s.board.pinIrqHdrTab l).pinNo ≠ -1 := fun hc => hhdr (hold.free hc)
      refine ⟨hcleared.line, fun c hc => ?_⟩
      rcases List.mem_append.mp hc with hc | hc
      · exact h.served c hc
      · rw [List.mem_singleton] at hc
        subst hc
        exact hold.held hne hlat

theorem vectorLines_lt (n : IrqN) : ∀ l ∈ vectorLines n, l < 16 := by
  cases n <;> decide

theorem inv_vector (ls : List Nat) (hls : ∀ l ∈ ls, l < 16) {s : State} (h : Inv s) :
    Inv (ls.foldl halGpioExtiIRQHandler s) := by
  induction ls generalizing s with
  | nil => exact h
  | cons l ls ih =>
    rw [List.foldl_cons]
    exact ih (fun k hk => hls k (List.mem_cons_of_mem l hk))
      (inv_served h (hls l List.mem_cons_self))

theorem inv_step {s s' : State} {a : Action} (h : Inv s) (hg : Guard s a)
    (hs : step s a = some s') : Inv s' := by
  cases a with
  | call op => exact Option.some.inj hs ▸ inv_call h hg
  | edge port line rising =>
    obtain ⟨hb, hs⟩ := Option.ite_none_right_eq_some.mp hs
    have hports : stm32h7.ports = 11 := rfl
    exact Option.some.inj hs ▸ inv_edge h (by omega) hb.2
  | irq n =>
    obtain ⟨-, hs⟩ := Option.ite_none_right_eq_some.mp hs
    exact Option.some.inj hs ▸ inv_vector _ (vectorLines_lt n) h

/-! ## Attribution -/

/-- In every orderly run each handler that ran, ran for edges of its own pin and mode, after a
    successful enable with no disable or dettach since. -/
theorem attributed_of_reach {s : State} (h : Reach step Guard init s) :
    ∀ c ∈ s.served, Attributed c :=
  (Reach.invariant Inv inv_init (fun _ _ _ hi hg hs => inv_step hi hg hs) h).served

/-- PA0 and then PB0, each attached, enabled and served; PA0 is disabled in between. -/
def handover : List Action :=
  [.call (.attach 0 0 1 0), .call (.irqEnable 0 pinIrqEnable ⟨0, 0, 0, 0, 0⟩), .edge 0 0 true,
    .irq .exti0, .call (.irqEnable 0 pinIrqDisable ⟨0, 0, 0, 0, 0⟩), .call (.dettach 0),
    .call (.attach 16 1 2 0), .edge 0 0 true, .call (.irqEnable 16 pinIrqEnable ⟨0, 0, 0, 0, 0⟩),
    .edge 1 0 false, .irq .exti0]

theorem attributed_handover :
    ∃ s, exec (guarded step Guard) init handover = some s ∧
      s.served.map (fun c => (c.entry.hdr, c.edges)) = [(1, [⟨0, true⟩]), (2, [⟨1, false⟩])] ∧
      ∀ c ∈ s.served, Attributed c := by
  obtain ⟨s, hs⟩ : ∃ s, exec (guarded step Guard) init handover = some s := ⟨_, rfl⟩
  refine ⟨s, hs, ?_, attributed_of_reach (reach_of_exec .start hs)⟩
  cases hs
  decide

/-- PA0 is dettached but not disabled, and PB0 is attached but not enabled: an edge on PA0 calls
    the handler of PB0. -/
theorem attributed_fails_dettach :
    ¬ ∀ s, Reach step Free init s → ∀ c ∈ s.served, Attributed c := by
  intro hall
  obtain ⟨s, hs⟩ : ∃ s, exec (guarded step Free) init
      [.call (.attach 0 0 1 0), .call (.irqEnable 0 pinIrqEnable ⟨0, 0, 0, 0, 0⟩),
        .call (.dettach 0), .call (.attach 16 0 2 0), .edge 0 0 true, .irq .exti0] = some s :=
    ⟨_, rfl⟩
  have hserved : s.served = [⟨0, ⟨16, 0, 2, 0⟩, [⟨0, true⟩], false⟩] := by
    cases hs
    decide
  have hc := hall s (reach_of_exec .start hs) _ (hserved ▸ List.mem_cons_self)
  exact Bool.false_ne_true hc.1

end Live2dStm32.Gpio.Delivery
