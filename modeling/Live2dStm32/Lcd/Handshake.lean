import Live2dStm32.Hal.Dma
import Live2dStm32.Hal.Tick
import Live2dStm32.Lcd.Refresh
import Live2dStm32.Lib.Machine

/-
  The refresh of the LCD as a system: the thread in `drv_lcd_control`, the DMA stream, its
  interrupt and the system tick. The thread starts a block with `HAL_DMA_Start_IT` and waits on
  `lcd_lock` for at most RT_TICK_PER_SECOND / 20 ticks; `lcd_dma_tx_finish_callback` releases
  it. Neither result is looked at. The tick (priority 0) preempts the DMA vector (priority 5):
  it may come between the end of a transfer and its interrupt, and inside the handler. The
  thread moves only when no handler runs. The kernel calls run with interrupts off, so each
  label is one atomic step.

  `handshake_of_reach`: in every run in which no wait runs out before the interrupt of its
  transfer is served, every block is accepted, once and in order, and a refresh returns with
  the stream at rest and `lcd_lock` at 0. A wait that does run out earlier breaks it for good:
  the handle is locked when the next block is started, or the late callback leaves a release
  that no take waits for.
-/

namespace Live2dStm32.Lcd.Handshake

open Live2dStm32.Kernel Live2dStm32.Lib Live2dStm32.Hal.Dma

/-- RT_TICK_PER_SECOND / 20. -/
def takeTicks : Nat := (Hal.Tick.rtTickPerSecond / 20).toNat

/-! ## The system -/

/-- Where the thread is: outside the driver, or with `i` passes of the loop to go at the head
    of the loop, before its `rt_sem_take`, or suspended in it with `ticks` to go. -/
inductive Pc where
  | idle
  | loop (i : Nat) (pos last : BitVec 32)
  | take (i : Nat) (pos last : BitVec 32)
  | wait (i : Nat) (pos last : BitVec 32) (ticks : Nat)
  deriving DecidableEq, Repr

/-- `want` lists the blocks of the refreshes called so far; `accepted` and `rejected` the ones
    `HAL_DMA_Start_IT` took and refused; `overlap` is set when it took one with EN high. -/
structure State where
  pc : Pc
  isr : IrqStage
  hdma : DmaHandle
  lcdLock : RtSemaphore Unit
  want : List (Nat × Nat)
  accepted : List (Nat × Nat)
  rejected : List (Nat × Nat)
  overlap : Bool
  deriving DecidableEq, Repr

/-- RTGRAPHIC_CTRL_RECT_UPDATE is called, the thread moves; the transfer completes, it fails;
    the DMA vector is entered, its handler goes on; the tick comes. -/
inductive Action where
  | call (blkNum lastBlkSize : BitVec 32)
  | thread
  | complete
  | error (stops : Bool)
  | irq
  | isr (answer : StopAnswer)
  | tick
  deriving DecidableEq, Repr

def init : State where
  pc := .idle
  isr := .idle
  hdma := halDmaInit
  lcdLock := rtSemInit 0
  want := []
  accepted := []
  rejected := []
  overlap := false

/-- The loop body up to the start of the block. -/
def startBlock (s : State) (i : Nat) (pos last : BitVec 32) : State :=
  let pass := rectUpdatePass last (i + 1) pos
  let s' := { s with pc := .take i pass.2 last }
  match halDmaStartIT s.hdma pass.1.1 pass.1.2 with
  | (hdma, .ok) =>
    { s' with hdma, accepted := s.accepted ++ [pass.1], overlap := s.overlap || s.hdma.inst.en }
  | (hdma, _) => { s' with hdma, rejected := s.rejected ++ [pass.1] }

/-- `rt_sem_take(&_lcd.lcd_lock, RT_TICK_PER_SECOND / 20)`. -/
def takeLock (s : State) (i : Nat) (pos last : BitVec 32) : State :=
  match rtSemTake s.lcdLock () takeTicks with
  | (lcdLock, .returned _) => { s with lcdLock, pc := .loop i pos last }
  | (lcdLock, .suspended) => { s with lcdLock, pc := .wait i pos last takeTicks }

def threadStep (s : State) : Option State :=
  match s.pc with
  | .idle => none
  | .loop 0 _ _ => some { s with pc := .idle }
  | .loop (i + 1) pos last => some (startBlock s i pos last)
  | .take i pos last => some (takeLock s i pos last)
  | .wait .. => none

/-- A suspended thread goes on with the loop. -/
def Pc.resume : Pc → Pc
  | .wait i pos last _ => .loop i pos last
  | pc => pc

/-- `lcd_dma_tx_finish_callback`. -/
def lcdDmaTxFinishCallback (s : State) : State :=
  match rtSemRelease s.lcdLock with
  | (lcdLock, some _, _) => { s with lcdLock, pc := s.pc.resume }
  | (lcdLock, none, _) => { s with lcdLock }

/-- `DMA1_Stream6_IRQHandler` is entered. -/
def dma1Stream6IRQ (s : State) : State :=
  let handled := irqFlags s.hdma
  { s with hdma := handled.1, isr := handled.2 }

/-- It goes on from where it stands. -/
def isrStep (answer : StopAnswer) (s : State) : Option State :=
  match s.isr with
  | .idle => none
  | .callback => some { lcdDmaTxFinishCallback s with isr := .manageError }
  | .manageError => some { s with hdma := irqManageError answer s.hdma, isr := .idle }

/-- The tick: the timer of a suspended thread runs out with its last tick. -/
def tickStep (s : State) : State :=
  match s.pc with
  | .wait i pos last ticks =>
    if ticks ≤ 1 then
      { s with lcdLock := (rtThreadTimeout s.lcdLock ()).1, pc := .loop i pos last }
    else { s with pc := .wait i pos last (ticks - 1) }
  | _ => s

def step (s : State) : Action → Option State
  | .call blkNum lastBlkSize =>
    if s.pc = .idle ∧ s.isr = .idle then
      some { s with
        pc := .loop (rectUpdateCount blkNum) 0 lastBlkSize
        want := s.want ++ rectUpdate blkNum lastBlkSize }
    else none
  | .thread => if s.isr = .idle then threadStep s else none
  | .complete => if s.hdma.inst.en then some { s with hdma := hwComplete s.hdma } else none
  | .error stops => if s.hdma.inst.en then some { s with hdma := hwError stops s.hdma } else none
  | .irq => if s.isr = .idle ∧ irqPending s.hdma.inst then some (dma1Stream6IRQ s) else none
  | .isr answer => isrStep answer s
  | .tick => some (tickStep s)

/-! ## The property and the condition -/

structure RefreshOk (s : State) : Prop where
  accepted_all : s.rejected = []
  in_order : s.accepted <+: s.want
  no_overlap : s.overlap = false
  at_return : s.pc = .idle →
    s.hdma.inst.en = false ∧ s.lcdLock.value = 0 ∧ s.accepted = s.want

/-- This tick is the last one of a wait. -/
def Expires (s : State) : Action → Prop
  | .tick => match s.pc with
    | .wait _ _ _ ticks => ticks ≤ 1
    | _ => False
  | _ => False

instance (s : State) (a : Action) : Decidable (Expires s a) := by
  unfold Expires
  split
  · split <;> infer_instance
  · infer_instance

/-- The transfer is over and its interrupt served, the callback included. -/
def Served (s : State) : Prop := Quiet s.hdma ∧ s.isr ≠ .callback

/-- No wait runs out before the interrupt of the transfer it waits for is served. -/
def InTime (s : State) (a : Action) : Prop := Expires s a → Served s

instance (s : State) (a : Action) : Decidable (InTime s a) :=
  inferInstanceAs (Decidable (Expires s a → Quiet s.hdma ∧ s.isr ≠ .callback))

/-! ## The invariant -/

/-- The blocks the thread has still to start. -/
def Pc.remaining : Pc → List (Nat × Nat)
  | .idle => []
  | .loop i pos last | .take i pos last | .wait i pos last _ => rectUpdateFrom last i pos

/-- A transfer whose callback has not run: the handler is about to call it, or is not. -/
def Owed (hdma : DmaHandle) (isr : IrqStage) : Prop :=
  (isr = .callback → Quiet hdma) ∧ Flight hdma

/-- What the handle, the handler and the semaphore can be at each place of the thread. -/
def PcInv (hdma : DmaHandle) (isr : IrqStage) (lcdLock : RtSemaphore Unit) : Pc → Prop
  | .idle | .loop .. => (Quiet hdma ∧ isr ≠ .callback) ∧ lcdLock = ⟨0, []⟩
  | .take .. =>
    (Owed hdma isr ∧ lcdLock = ⟨0, []⟩) ∨ (Quiet hdma ∧ isr ≠ .callback) ∧ lcdLock = ⟨1, []⟩
  | .wait .. => Owed hdma isr ∧ lcdLock = ⟨0, [()]⟩

structure Inv (s : State) : Prop where
  pc : PcInv s.hdma s.isr s.lcdLock s.pc
  rejected : s.rejected = []
  overlap : s.overlap = false
  order : s.accepted ++ s.pc.remaining = s.want

theorem inv_init : Inv init := ⟨⟨⟨quiet_init, nofun⟩, rfl⟩, rfl, rfl, rfl⟩

theorem Inv.refreshOk {s : State} (h : Inv s) : RefreshOk s where
  accepted_all := h.rejected
  in_order := ⟨_, h.order⟩
  no_overlap := h.overlap
  at_return := by
    intro hpc
    have hi := h.pc
    have ho := h.order
    rw [hpc] at hi ho
    refine ⟨hi.1.1.en, by rw [hi.2], ?_⟩
    rw [← ho]
    exact (List.append_nil _).symm

/-- At rest: the callback is the handler's next move, or the transfer failed and there is none. -/
theorem owed_of_quiet {hdma : DmaHandle} {isr : IrqStage} (h : Quiet hdma) : Owed hdma isr :=
  ⟨fun _ => h, h.flight⟩

/-- A move of the hardware or of the handler, the callback apart: it keeps a handle at rest and
    keeps a transfer owed. -/
theorem PcInv.move {hdma hdma' : DmaHandle} {isr isr' : IrqStage} {lcdLock : RtSemaphore Unit}
    {pc : Pc} (h : PcInv hdma isr lcdLock pc)
    (hquiet : Quiet hdma → isr ≠ .callback → Quiet hdma' ∧ isr' ≠ .callback)
    (howed : Owed hdma isr → Owed hdma' isr') : PcInv hdma' isr' lcdLock pc := by
  cases pc with
  | idle => exact ⟨hquiet h.1.1 h.1.2, h.2⟩
  | loop i pos last => exact ⟨hquiet h.1.1 h.1.2, h.2⟩
  | take i pos last =>
    rcases h with ⟨h, hl⟩ | ⟨h, hl⟩
    · exact Or.inl ⟨howed h, hl⟩
    · exact Or.inr ⟨hquiet h.1 h.2, hl⟩
  | wait i pos last ticks => exact ⟨howed h.1, h.2⟩

/-- A handler at its callback is in the interrupt of the block the thread waits for. -/
theorem PcInv.of_callback {hdma : DmaHandle} {lcdLock : RtSemaphore Unit} {pc : Pc}
    (h : PcInv hdma .callback lcdLock pc) :
    Quiet hdma ∧ ((∃ i pos last, pc = .take i pos last ∧ lcdLock = ⟨0, []⟩) ∨
      ∃ i pos last ticks, pc = .wait i pos last ticks ∧ lcdLock = ⟨0, [()]⟩) := by
  cases pc with
  | idle => exact absurd rfl h.1.2
  | loop i pos last => exact absurd rfl h.1.2
  | take i pos last =>
    rcases h with ⟨h, hl⟩ | ⟨h, -⟩
    · exact ⟨h.1 rfl, Or.inl ⟨i, pos, last, rfl, hl⟩⟩
    · exact absurd rfl h.2
  | wait i pos last ticks => exact ⟨h.1.1 rfl, Or.inr ⟨i, pos, last, ticks, rfl, h.2⟩⟩

/-! ## Each move keeps it -/

/-- A block started on a handle at rest is accepted. -/
theorem inv_startBlock {s : State} {i : Nat} {pos last : BitVec 32}
    (h : Inv s) (hpc : s.pc = .loop (i + 1) pos last) : Inv (startBlock s i pos last) := by
  have hp := h.pc
  have ho := h.order
  rw [hpc] at hp ho
  obtain ⟨⟨hquiet, hisr⟩, hlock⟩ := hp
  obtain ⟨hdma', he, hflight⟩ := startIT_of_quiet hquiet (rectUpdatePass last (i + 1) pos).1.1
    (rectUpdatePass last (i + 1) pos).1.2
  unfold startBlock
  dsimp only
  rw [he]
  refine ⟨Or.inl ⟨⟨fun hc => absurd hc hisr, hflight⟩, hlock⟩, h.rejected, ?_, ?_⟩
  · rw [h.overlap, hquiet.en]
    rfl
  · rw [← ho, List.append_assoc]
    rfl

theorem inv_takeLock {s : State} {i : Nat} {pos last : BitVec 32}
    (h : Inv s) (hpc : s.pc = .take i pos last) : Inv (takeLock s i pos last) := by
  have hp := h.pc
  have ho := h.order
  rw [hpc] at hp ho
  unfold takeLock
  rcases hp with ⟨howed, hlock⟩ | ⟨hquiet, hlock⟩
  · -- nothing released yet: the thread is suspended
    rw [hlock]
    exact ⟨⟨howed, rfl⟩, h.rejected, h.overlap, ho⟩
  · -- the callback came before the take
    rw [hlock]
    exact ⟨⟨hquiet, rfl⟩, h.rejected, h.overlap, ho⟩

theorem inv_thread {s s' : State} (h : Inv s) (hs : threadStep s = some s') : Inv s' := by
  unfold threadStep at hs
  cases hpc : s.pc with
  | idle => simp [hpc] at hs
  | wait i pos last ticks => simp [hpc] at hs
  | take i pos last =>
    simp only [hpc, Option.some.injEq] at hs
    exact hs ▸ inv_takeLock h hpc
  | loop i pos last =>
    cases i with
    | succ i =>
      simp only [hpc, Option.some.injEq] at hs
      exact hs ▸ inv_startBlock h hpc
    | zero =>
      simp only [hpc, Option.some.injEq] at hs
      have hp := h.pc
      have ho := h.order
      rw [hpc] at hp ho
      exact hs ▸ ⟨hp, h.rejected, h.overlap, ho⟩

/-- The hardware moves only with EN high, so never under a handle at rest. -/
theorem inv_hardware {s : State} {hdma : DmaHandle} (h : Inv s) (hen : s.hdma.inst.en = true)
    (hflight : Flight s.hdma → Flight hdma) : Inv { s with hdma := hdma } := by
  have hnq : ¬ Quiet s.hdma := by
    intro hq
    rw [hq.en] at hen
    cases hen
  refine ⟨h.pc.move (fun hq => absurd hq hnq) ?_, h.rejected, h.overlap, h.order⟩
  exact fun ho => ⟨fun hc => absurd (ho.1 hc) hnq, hflight ho.2⟩

/-- The handler is entered: it is at its callback for a transfer that is complete. -/
theorem inv_irq {s : State} (h : Inv s) (hpend : irqPending s.hdma.inst = true) :
    Inv (dma1Stream6IRQ s) := by
  have hnq : ¬ Quiet s.hdma := by
    intro hq
    rw [hq.served] at hpend
    cases hpend
  refine ⟨h.pc.move (fun hq => absurd hq hnq) fun ho => ?_, h.rejected, h.overlap, h.order⟩
  change Owed (irqFlags s.hdma).1 (irqFlags s.hdma).2
  rcases irqFlags_of_flight ho.2 with ⟨hdma', he, hq⟩ | ⟨hdma', he, hf⟩
  · rw [he]
    exact owed_of_quiet hq
  · rw [he]
    exact ⟨nofun, hf⟩

theorem inv_callback {s : State} (h : Inv s) (hisr : s.isr = .callback) :
    Inv { lcdDmaTxFinishCallback s with isr := .manageError } := by
  have hp := h.pc
  have ho := h.order
  rw [hisr] at hp
  obtain ⟨hquiet, hpc⟩ := hp.of_callback
  rcases hpc with ⟨i, pos, last, hpc, hlock⟩ | ⟨i, pos, last, ticks, hpc, hlock⟩
  · -- the thread has not reached its take: the count goes to 1
    simp only [lcdDmaTxFinishCallback, hlock]
    refine ⟨?_, h.rejected, h.overlap, ho⟩
    rw [hpc]
    exact Or.inr ⟨⟨hquiet, nofun⟩, rfl⟩
  · -- the thread is woken, the count stays 0
    simp only [lcdDmaTxFinishCallback, hlock, rtSemRelease, hpc]
    rw [hpc] at ho
    exact ⟨⟨⟨hquiet, nofun⟩, rfl⟩, h.rejected, h.overlap, ho⟩

theorem inv_isr {s s' : State} {answer : StopAnswer} (h : Inv s)
    (hs : isrStep answer s = some s') : Inv s' := by
  unfold isrStep at hs
  cases hisr : s.isr with
  | idle => simp [hisr] at hs
  | callback =>
    simp only [hisr, Option.some.injEq] at hs
    exact hs ▸ inv_callback h hisr
  | manageError =>
    simp only [hisr, Option.some.injEq] at hs
    subst hs
    refine ⟨h.pc.move ?_ ?_, h.rejected, h.overlap, h.order⟩
    · exact fun hq _ => ⟨quiet_irqManageError hq answer, nofun⟩
    · exact fun ho => ⟨nofun, flight_irqManageError ho.2 answer⟩

/-- A wait may run out only over a stream at rest: that is the case of a transfer error. -/
theorem inv_tick {s : State} (h : Inv s) (hin : InTime s .tick) : Inv (tickStep s) := by
  have hp := h.pc
  have ho := h.order
  unfold tickStep
  cases hpc : s.pc with
  | wait i pos last ticks =>
    rw [hpc] at hp ho
    obtain ⟨howed, hlock⟩ := hp
    dsimp only
    split
    case isTrue ht =>
      have hserved : Served s := hin (by simp only [Expires, hpc]; exact ht)
      rw [hlock]
      exact ⟨⟨hserved, rfl⟩, h.rejected, h.overlap, ho⟩
    case isFalse =>
      exact ⟨⟨howed, hlock⟩, h.rejected, h.overlap, ho⟩
  | idle => exact h
  | loop i pos last => exact h
  | take i pos last => exact h

theorem inv_step {s s' : State} {a : Action} (h : Inv s) (hin : InTime s a)
    (hs : step s a = some s') : Inv s' := by
  cases a with
  | call blkNum lastBlkSize =>
    obtain ⟨⟨hpc, -⟩, hs⟩ := Option.ite_none_right_eq_some.mp hs
    have hp := h.pc
    have ho := h.order
    rw [hpc] at hp ho
    obtain rfl := Option.some.inj hs
    refine ⟨hp, h.rejected, h.overlap, ?_⟩
    rw [← ho]
    change s.accepted ++ rectUpdate blkNum lastBlkSize = _
    rw [Pc.remaining, List.append_nil]
  | thread =>
    obtain ⟨-, hs⟩ := Option.ite_none_right_eq_some.mp hs
    exact inv_thread h hs
  | complete =>
    obtain ⟨hen, hs⟩ := Option.ite_none_right_eq_some.mp hs
    exact Option.some.inj hs ▸ inv_hardware h hen flight_hwComplete
  | error stops =>
    obtain ⟨hen, hs⟩ := Option.ite_none_right_eq_some.mp hs
    exact Option.some.inj hs ▸ inv_hardware h hen fun hf => flight_hwError hf stops
  | irq =>
    obtain ⟨⟨-, hpend⟩, hs⟩ := Option.ite_none_right_eq_some.mp hs
    exact Option.some.inj hs ▸ inv_irq h hpend
  | isr answer => exact inv_isr h hs
  | tick => exact Option.some.inj hs ▸ inv_tick h hin

/-! ## The handshake -/

/-- In every run whose waits do not run out before the interrupt of their transfer is served,
    the handshake holds in every state reached. -/
theorem handshake_of_reach {s : State} (h : Reach step InTime init s) : RefreshOk s :=
  (Reach.invariant Inv inv_init (fun _ _ _ hi hin hs => inv_step hi hin hs) h).refreshOk

/-- The interrupt of a completed transfer: the vector, the callback, the end of the handler. -/
def serve : List Action := [.irq, .isr .stopped, .isr .stopped]

/-- Two blocks: the first completes before its take; the thread waits for the second, a tick
    comes between its end and its interrupt, and another inside the handler. -/
def twoBlocks : List Action :=
  [.call 2 5, .thread, .complete] ++ serve ++
    [.thread, .thread, .thread, .tick, .complete, .tick, .irq, .tick, .isr .stopped,
      .isr .stopped, .thread]

theorem handshake_twoBlocks :
    ∃ s, exec (guarded step InTime) init twoBlocks = some s ∧ s.pc = .idle ∧
      s.accepted = [(0, 65535), (65535, 5)] ∧ RefreshOk s := by
  obtain ⟨s, hs⟩ : ∃ s, exec (guarded step InTime) init twoBlocks = some s := ⟨_, rfl⟩
  have hr := reach_of_exec .start hs
  have hv : s.pc = .idle ∧ s.accepted = [(0, 65535), (65535, 5)] := by
    cases hs
    decide
  exact ⟨s, hs, hv.1, hv.2, handshake_of_reach hr⟩

/-- Two blocks again; the first is still going when its 50 ticks are over. -/
def lateBlock : List Action :=
  [.call 2 5, .thread, .thread] ++ List.replicate 50 .tick ++ [.thread]

set_option maxRecDepth 4000 in
/-- The second block is refused by the locked handle. -/
theorem handshake_fails_lateBlock : ¬ ∀ s, Reach step Free init s → RefreshOk s := by
  intro hall
  obtain ⟨s, hs⟩ : ∃ s, exec (guarded step Free) init lateBlock = some s := ⟨_, rfl⟩
  have hrej : s.rejected = [(65535, 5)] := by
    cases hs
    decide
  have := (hall s (reach_of_exec .start hs)).accepted_all
  rw [hrej] at this
  cases this

/-- One block, complete when its 50 ticks are over, but with its interrupt not yet served. -/
def lateInterrupt : List Action :=
  [.call 1 5, .thread, .thread] ++ List.replicate 49 .tick ++ [.complete, .tick] ++ serve ++
    [.thread]

set_option maxRecDepth 4000 in
-- The refresh returns with EN low and the count at 1.
example : (exec (guarded step Free) init lateInterrupt).map
    (fun s => (s.pc, s.hdma.inst.en, s.lcdLock.value)) = some (.idle, false, 1) := by
  decide

end Live2dStm32.Lcd.Handshake
