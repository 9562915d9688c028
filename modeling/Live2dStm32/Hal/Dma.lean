import Mathlib.Tactic.Common

/-
  The HAL DMA driver (stm32h7xx_hal_dma.c) for one DMA1/DMA2 stream in normal mode with one
  memory buffer: `HAL_DMA_Start_IT` and `HAL_DMA_IRQHandler`. Of the callbacks only
  XferCpltCallback is registered. The FIFO-error interrupt is never enabled and a direct-mode
  error needs the FIFO off, so TC and TE are the two interrupts the handler sees.

  The handler is cut where a preempting interrupt can tell its parts apart: `irqFlags` up to
  the callback, the callback, `irqManageError` after it. The hardware moves on its own, before,
  between and after them.

  A handle is `Quiet` when its last transfer is over and its interrupts are served, and in
  `Flight` from a start on; the lemmas at the end say where each move leads.
-/

namespace Live2dStm32.Hal.Dma

inductive HalStatus where
  | ok
  | error
  | busy
  | timeout
  deriving DecidableEq, Repr

inductive DmaState where
  | reset
  | ready
  | busy
  | error
  | abort
  deriving DecidableEq, Repr

def halDmaErrorNone : BitVec 32 := 0x0
def halDmaErrorTe : BitVec 32 := 0x1
def halDmaErrorBusy : BitVec 32 := 0x800

/-- The stream: EN and the interrupt enables of CR, the flags of ISR, the source and the
    transfer count. The source is the index of an element of the buffer. -/
structure DmaStream where
  en : Bool
  tcie : Bool
  teie : Bool
  tcif : Bool
  teif : Bool
  par : Nat
  ndtr : Nat
  deriving DecidableEq, Repr

structure DmaHandle where
  lock : Bool
  state : DmaState
  errorCode : BitVec 32
  inst : DmaStream
  deriving DecidableEq, Repr

/-- The handle `HAL_DMA_Init` leaves. -/
def halDmaInit : DmaHandle where
  lock := false
  state := .ready
  errorCode := halDmaErrorNone
  inst := ⟨false, false, false, false, false, 0, 0⟩

/-- `DMA_SetConfig`: clear the flags, load source and length. -/
def dmaSetConfig (stream : DmaStream) (srcAddress dataLength : Nat) : DmaStream :=
  { stream with tcif := false, teif := false, par := srcAddress, ndtr := dataLength }

/-- `HAL_DMA_Start_IT`. A locked handle is refused before anything is touched; the lock of an
    accepted transfer is kept until its interrupt. -/
def halDmaStartIT (hdma : DmaHandle) (srcAddress dataLength : Nat) : DmaHandle × HalStatus :=
  if hdma.lock then (hdma, .busy)
  else if hdma.state = .ready then
    let stream := dmaSetConfig { hdma.inst with en := false } srcAddress dataLength
    ({ lock := true, state := .busy, errorCode := halDmaErrorNone,
       inst := { stream with tcie := true, teie := true, en := true } }, .ok)
  else ({ hdma with lock := false, errorCode := halDmaErrorBusy }, .error)

/-! ## The interrupt handler -/

/-- Transfer error interrupt management. -/
def irqTransferError (hdma : DmaHandle) : DmaHandle :=
  if hdma.inst.teif && hdma.inst.teie then
    { hdma with
      errorCode := hdma.errorCode ||| halDmaErrorTe
      inst := { hdma.inst with teie := false, teif := false } }
  else hdma

/-- Where the handler stands: not running, at its call of XferCpltCallback, at "manage error
    case". -/
inductive IrqStage where
  | idle
  | callback
  | manageError
  deriving DecidableEq, Repr

/-- `HAL_DMA_IRQHandler` up to its call of XferCpltCallback, or without one up to "manage error
    case". After an abort it returns: no XferAbortCallback is registered. -/
def irqFlags (hdma : DmaHandle) : DmaHandle × IrqStage :=
  let hdma := irqTransferError hdma
  if hdma.inst.tcif && hdma.inst.tcie then
    if hdma.state = .abort then
      ({ hdma with
         lock := false
         state := .ready
         inst := { hdma.inst with tcie := false, teie := false, tcif := false, teif := false } },
       .idle)
    else
      ({ hdma with
         lock := false
         state := .ready
         inst := { hdma.inst with tcie := false, tcif := false } }, .callback)
  else (hdma, .manageError)

/-- The interrupt is requested while a flag and its enable are both set. -/
def irqPending (stream : DmaStream) : Bool :=
  (stream.tcif && stream.tcie) || (stream.teif && stream.teie)

/-! ## The hardware -/

/-- The last element is out: the stream stops and raises TCIF. -/
def hwComplete (hdma : DmaHandle) : DmaHandle :=
  { hdma with inst := { hdma.inst with en := false, tcif := true } }

/-- A bus error: the stream raises TEIF. `stops`: it clears EN itself. -/
def hwError (stops : Bool) (hdma : DmaHandle) : DmaHandle :=
  { hdma with inst := { hdma.inst with en := hdma.inst.en && !stops, teif := true } }

/-- How a stream answers a cleared EN: it stops, with TCIF raised for what it had begun
    (`flagged`) or without, or EN still reads 1 when the wait for it runs out. -/
inductive StopAnswer where
  | stopped
  | flagged
  | stuck
  deriving DecidableEq, Repr

/-- `__HAL_DMA_DISABLE` and the wait for EN. -/
def hwDisable (answer : StopAnswer) (stream : DmaStream) : DmaStream :=
  if stream.en then
    match answer with
    | .stopped => { stream with en := false }
    | .flagged => { stream with en := false, tcif := true }
    | .stuck => stream
  else stream

/-- "Manage error case", the end of the handler. No XferErrorCallback is registered. -/
def irqManageError (answer : StopAnswer) (hdma : DmaHandle) : DmaHandle :=
  if hdma.errorCode &&& halDmaErrorTe ≠ 0 then
    let stream := hwDisable answer hdma.inst
    { hdma with
      lock := false
      state := if stream.en then .error else .ready
      inst := stream }
  else hdma

/-! ## A handle at rest and a handle at work -/

/-- The last transfer is over, its interrupts are served, and the next start is accepted. -/
structure Quiet (hdma : DmaHandle) : Prop where
  lock : hdma.lock = false
  state : hdma.state = .ready
  en : hdma.inst.en = false
  served : irqPending hdma.inst = false

instance (hdma : DmaHandle) : Decidable (Quiet hdma) :=
  decidable_of_iff
    (hdma.lock = false ∧ hdma.state = .ready ∧ hdma.inst.en = false ∧
      irqPending hdma.inst = false)
    ⟨fun ⟨h1, h2, h3, h4⟩ => ⟨h1, h2, h3, h4⟩, fun h => ⟨h.1, h.2, h.3, h.4⟩⟩

/-- Started, and going, stopped or failed: a TCIF in it means that the stream has stopped. -/
structure Flight (hdma : DmaHandle) : Prop where
  state : hdma.state ≠ .abort
  tcif : hdma.inst.en = true → hdma.inst.tcif = false

theorem quiet_init : Quiet halDmaInit := ⟨rfl, rfl, rfl, rfl⟩

theorem Quiet.flight {hdma : DmaHandle} (h : Quiet hdma) : Flight hdma where
  state := by rw [h.state]; decide
  tcif hen := by rw [h.en] at hen; cases hen

theorem startIT_of_quiet {hdma : DmaHandle} (h : Quiet hdma) (src len : Nat) :
    ∃ hdma', halDmaStartIT hdma src len = (hdma', .ok) ∧ Flight hdma' := by
  unfold halDmaStartIT
  rw [h.lock, h.state]
  exact ⟨_, rfl, nofun, fun _ => rfl⟩

theorem flight_hwComplete {hdma : DmaHandle} (h : Flight hdma) : Flight (hwComplete hdma) :=
  ⟨h.state, nofun⟩

theorem flight_hwError {hdma : DmaHandle} (h : Flight hdma) (stops : Bool) :
    Flight (hwError stops hdma) where
  state := h.state
  tcif hen := h.tcif (Bool.and_eq_true_iff.mp hen).1

theorem irqTransferError_eq (hdma : DmaHandle) :
    (irqTransferError hdma).inst.en = hdma.inst.en ∧
      (irqTransferError hdma).inst.tcif = hdma.inst.tcif ∧
      (irqTransferError hdma).state = hdma.state := by
  unfold irqTransferError
  split <;> exact ⟨rfl, rfl, rfl⟩

/-- It leaves no transfer error requested. -/
theorem irqTransferError_served (hdma : DmaHandle) :
    ((irqTransferError hdma).inst.teif && (irqTransferError hdma).inst.teie) = false := by
  unfold irqTransferError
  split
  · rfl
  · exact Bool.not_eq_true _ ▸ ‹_›

/-- The handler finds a transfer that is complete and is at its callback, with the handle at
    rest, or finds none and is at its end, with the transfer as it was. -/
theorem irqFlags_of_flight {hdma : DmaHandle} (h : Flight hdma) :
    (∃ hdma', irqFlags hdma = (hdma', .callback) ∧ Quiet hdma') ∨
      ∃ hdma', irqFlags hdma = (hdma', .manageError) ∧ Flight hdma' := by
  obtain ⟨hen, htcif, hstate⟩ := irqTransferError_eq hdma
  have hte := irqTransferError_served hdma
  unfold irqFlags
  dsimp only
  split
  case isTrue htc =>
    left
    rw [if_neg (hstate ▸ h.state)]
    have hoff : (irqTransferError hdma).inst.en = false := by
      rw [Bool.and_eq_true_iff, htcif] at htc
      rw [hen, Bool.eq_false_iff]
      intro hon
      rw [h.tcif hon] at htc
      cases htc.1
    exact ⟨_, rfl, rfl, rfl, hoff, hte⟩
  case isFalse =>
    right
    exact ⟨_, rfl, hstate ▸ h.state, by rw [hen, htcif]; exact h.tcif⟩

/-- With EN low the end of the handler leaves a handle at rest as it is. -/
theorem quiet_irqManageError {hdma : DmaHandle} (h : Quiet hdma) (answer : StopAnswer) :
    Quiet (irqManageError answer hdma) := by
  have hoff : ¬ hdma.inst.en = true := by
    rw [h.en]
    decide
  unfold irqManageError hwDisable
  rw [if_neg hoff]
  dsimp only
  rw [if_neg hoff]
  split
  · exact ⟨rfl, rfl, h.en, h.served⟩
  · exact h

theorem flight_irqManageError {hdma : DmaHandle} (h : Flight hdma) (answer : StopAnswer) :
    Flight (irqManageError answer hdma) := by
  unfold irqManageError
  split
  case isFalse => exact h
  case isTrue =>
    refine ⟨?_, ?_⟩
    · dsimp only
      split <;> decide
    · dsimp only [hwDisable]
      split
      · cases answer with
        | stopped => exact nofun
        | flagged => exact nofun
        | stuck => exact h.tcif
      · exact h.tcif

end Live2dStm32.Hal.Dma
