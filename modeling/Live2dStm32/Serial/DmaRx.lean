import Live2dStm32.Serial.DmaFifo
import Live2dStm32.Uart.RxDma

/-
  Reception by DMA from the wire to the reader: the circular DMA stores each byte in the buffer
  of the FIFO, the interrupts of drv_usart.c report how far it got, `rt_hw_serial_isr` moves
  the put index, and `_serial_dma_rx` copies out.

  `got_append_queue`: as long as the services find the DMA in its lap and the readers stay less
  than `bufsz` bytes behind it, what the readers have got and what the FIFO holds for them are
  the bytes on the wire up to the last service, in order.
-/

namespace Live2dStm32.Serial

open Live2dStm32.Lib Uart

/-- `wire`: the bytes stored since the start; `got`: what the readers have copied out. -/
structure RxPath where
  rx : RxDma
  fifo : RxFifo
  wire : List (BitVec 8)
  got : List (BitVec 8)

/-- After `stm32_dma_config` has started the DMA on the buffer of the FIFO. -/
def RxPath.start : RxPath := ⟨.start, rtSerialOpenRx, [], []⟩

/-- The events of the driver that need no byte, and a read of up to so many. -/
inductive PathEvent where
  | store (b : BitVec 8)
  | lineIdle
  | uart (rxne : Bool)
  | dmaHalf
  | dmaComplete
  | read (length : Nat)
  deriving DecidableEq, Repr

/-- The reports a service has added; each is an RX_DMADONE. -/
def newReports (old new : RxDma) : List (BitVec 32) :=
  new.reported.take (new.reported.length - old.reported.length)

/-- A service of the driver, with the events it hands on. -/
def RxPath.serve (c : RxConfig) (s : RxPath) (e : Uart.RxEvent) : RxPath :=
  let rx := Uart.step c s.rx e
  { s with
    rx := rx
    fifo := (newReports s.rx rx).foldr
      (fun recvLen f => (isrRxDmadone c.bufsz (rxDmadone recvLen) f).1) s.fifo }

def pathStep (c : RxConfig) (s : RxPath) : PathEvent → RxPath
  | .store b =>
    { s with
      rx := Uart.step c s.rx .store
      fifo := { s.fifo with
        buffer := Function.update s.fifo.buffer (s.rx.stored % c.bufsz.toNat) b }
      wire := s.wire ++ [b] }
  | .lineIdle => s.serve c .lineIdle
  | .uart rxne => s.serve c (.uart rxne)
  | .dmaHalf => s.serve c .dmaHalf
  | .dmaComplete => s.serve c .dmaComplete
  | .read length =>
    let r := serialDmaRx c.bufsz length s.fifo
    { s with fifo := r.2, got := s.got ++ r.1 }

/-- A service finds the DMA in its lap, and a byte finds fewer than `bufsz` unread. -/
def KeepsUp (c : RxConfig) (s : RxPath) : PathEvent → Prop
  | .store _ => s.wire.length - s.got.length < c.bufsz.toNat
  | .lineIdle => True
  | .uart rxne => InLap c s.rx (.uart rxne)
  | .dmaHalf => InLap c s.rx .dmaHalf
  | .dmaComplete => InLap c s.rx .dmaComplete
  | .read _ => True

instance (c : RxConfig) (s : RxPath) : (e : PathEvent) → Decidable (KeepsUp c s e)
  | .store _ => inferInstanceAs (Decidable (_ < _))
  | .uart _ => inferInstanceAs (Decidable (_ → _))
  | .dmaHalf | .dmaComplete => inferInstanceAs (Decidable (_ → _))
  | .lineIdle | .read _ => inferInstanceAs (Decidable True)

variable {c : RxConfig} {s : RxPath}

/-! ## Reports -/

/-- A service makes one report, not 0, or none. -/
theorem reported_step (s : RxDma) (e : Uart.RxEvent) :
    (Uart.step c s e).reported = s.reported ∨
      ∃ recvLen, (Uart.step c s e).reported = recvLen :: s.reported := by
  have hrep : ∀ (t : RxDma) (total recvLen : BitVec 32), t.reported = s.reported →
      (t.report total recvLen).reported = s.reported ∨
        ∃ l, (t.report total recvLen).reported = l :: s.reported := by
    intro t total recvLen ht
    unfold RxDma.report
    dsimp only
    rw [ht]
    split
    · exact .inr ⟨recvLen, rfl⟩
    · exact .inl rfl
  have hdma : ∀ t : RxDma, t.reported = s.reported →
      (dmaIsr c .dmaRx t).reported = s.reported ∨
        ∃ l, (dmaIsr c .dmaRx t).reported = l :: s.reported := by
    intro t ht
    unfold dmaIsr
    split
    · exact hrep t _ _ ht
    · exact .inl ht
  cases e with
  | store | lineIdle => exact .inl rfl
  | uart rxne =>
    change (uartIsr c .dmaRx rxne s).reported = _ ∨ ∃ _, (uartIsr c .dmaRx rxne s).reported = _
    unfold uartIsr
    split
    · exact .inl rfl
    · split
      · exact hrep s (c.bufsz.setWidth 32 - s.counter c)
          (c.bufsz.setWidth 32 - s.counter c - s.lastIndex) rfl
      · exact .inl rfl
  | dmaHalf =>
    simp only [Uart.step]
    split
    · exact hdma _ rfl
    · exact .inl rfl
  | dmaComplete =>
    simp only [Uart.step]
    split
    · exact hdma _ rfl
    · exact .inl rfl

theorem newReports_of_eq {old new : RxDma} (h : new.reported = old.reported) :
    newReports old new = [] := by
  simp [newReports, h]

theorem newReports_of_cons {old new : RxDma} {l : BitVec 32}
    (h : new.reported = l :: old.reported) : newReports old new = [l] := by
  simp [newReports, h]

/-! ## The law of the path -/

/-- Every byte not yet read is in the buffer, and the FIFO ends at the last one seen. -/
structure PathInv (c : RxConfig) (s : RxPath) : Prop where
  rx : Inv c s.rx
  wire : s.wire.length = s.rx.stored
  got : s.wire.take s.got.length = s.got
  read_le : s.got.length ≤ s.rx.seen
  room : s.wire.length - s.got.length ≤ c.bufsz.toNat
  unread : Ring.content c.bufsz.toNat s.fifo.buffer s.got.length
    (s.wire.length - s.got.length) = s.wire.drop s.got.length
  fifo : s.fifo.DmaInv c.bufsz
  put : s.fifo.putIndex.toNat = s.rx.seen % c.bufsz.toNat
  get : s.fifo.getIndex.toNat = s.got.length % c.bufsz.toNat
  count : serialFifoCalcRecvedLen c.bufsz s.fifo = s.rx.seen - s.got.length

theorem pathInv_start (c : RxConfig) : PathInv c .start where
  rx := inv_start c
  wire := rfl
  got := rfl
  read_le := Nat.le_refl 0
  room := Nat.zero_le _
  unread := rfl
  fifo := dmaInv_open c.bufsz_pos
  put := (Nat.zero_mod _).symm
  get := (Nat.zero_mod _).symm
  count := rfl

/-- What the FIFO holds: the bytes seen and not yet read. -/
theorem queue_eq (h : PathInv c s) :
    s.fifo.queue c.bufsz = (s.wire.take s.rx.seen).drop s.got.length := by
  have hseen : s.rx.seen ≤ s.wire.length := h.wire ▸ h.rx.seen_le
  rw [RxFifo.queue, h.get, Ring.content_mod, h.count,
    ← Ring.content_take (Nat.sub_le_sub_right hseen _), h.unread, List.drop_take]

theorem got_append_queue_of_inv (h : PathInv c s) :
    s.got ++ s.fifo.queue c.bufsz = s.wire.take s.rx.seen := by
  have hg : (s.wire.take s.rx.seen).take s.got.length = s.got := by
    rw [List.take_take, Nat.min_eq_left h.read_le, h.got]
  calc s.got ++ s.fifo.queue c.bufsz
      = (s.wire.take s.rx.seen).take s.got.length ++
          (s.wire.take s.rx.seen).drop s.got.length := by rw [hg, queue_eq h]
    _ = s.wire.take s.rx.seen := List.take_append_drop _ _

/-! ## Steps -/

theorem pathInv_store (h : PathInv c s) (b : BitVec 8) (hk : KeepsUp c s (.store b)) :
    PathInv c (pathStep c s (.store b)) := by
  have hroom : s.wire.length - s.got.length < c.bufsz.toNat := hk
  have hle : s.got.length ≤ s.wire.length := h.wire ▸ Nat.le_trans h.read_le h.rx.seen_le
  have hlen : (s.wire ++ [b]).length - s.got.length = s.wire.length - s.got.length + 1 := by
    rw [List.length_append, List.length_singleton]
    omega
  have hat : s.rx.stored = s.got.length + (s.wire.length - s.got.length) := by
    rw [← h.wire]
    omega
  have hacc : Inv c (Uart.step c s.rx .store) :=
    ⟨(accounted_step_iff h.rx .store).mpr trivial, seen_le_step h.rx.seen_le .store⟩
  exact {
    rx := hacc
    wire := by
      change (s.wire ++ [b]).length = s.rx.stored + 1
      rw [List.length_append, h.wire, List.length_singleton]
    got := (List.take_append_of_le_length hle).trans h.got
    read_le := h.read_le
    room := by
      change (s.wire ++ [b]).length - s.got.length ≤ _
      rw [hlen]
      exact hroom
    unread := by
      change Ring.content _ (Function.update _ _ _) s.got.length
        ((s.wire ++ [b]).length - s.got.length) = (s.wire ++ [b]).drop s.got.length
      rw [hlen, hat, Ring.content_put hroom, h.unread, List.drop_append_of_le_length hle]
    fifo := ⟨⟨h.fifo.inBuffer.put, h.fifo.inBuffer.get⟩, h.fifo.full⟩
    put := h.put
    get := h.get
    count := h.count }

theorem pathInv_read (h : PathInv c s) (hb : c.bufsz.toNat ≤ 2 ^ 15) (length : Nat) :
    PathInv c (pathStep c s (.read length)) := by
  have hseen : s.rx.seen ≤ s.wire.length := h.wire ▸ h.rx.seen_le
  have hread := h.read_le
  have hdata := serialDmaRx_data h.fifo length
  obtain ⟨hinv, hget, hcount⟩ := updateGetIndex_inv h.fifo hb (Nat.min_le_right length _)
  rw [← serialDmaRx_snd] at hinv hget hcount
  rw [h.count] at hget hcount
  have hk : (s.got ++ (serialDmaRx c.bufsz length s.fifo).1).length =
      s.got.length + min length (s.rx.seen - s.got.length) := by
    rw [List.length_append, hdata, List.length_take, length_queue, h.count]
  have hgot : s.wire.take (s.got.length + min length (s.rx.seen - s.got.length)) =
      s.got ++ (serialDmaRx c.bufsz length s.fifo).1 := by
    have hq : (s.fifo.queue c.bufsz).length = s.rx.seen - s.got.length := by
      rw [length_queue, h.count]
    have hle : s.got.length + min length (s.rx.seen - s.got.length) ≤ s.rx.seen := by omega
    have hmin := List.take_eq_take_min (l := s.fifo.queue c.bufsz) (i := length)
    rw [hdata, hmin, hq, ← Nat.min_eq_left hle, ← List.take_take, ← got_append_queue_of_inv h,
      List.take_length_add_append]
  exact {
    rx := h.rx
    wire := h.wire
    got := by
      change s.wire.take (s.got ++ (serialDmaRx c.bufsz length s.fifo).1).length = _
      rw [hk, hgot]
      rfl
    read_le := by
      change (s.got ++ (serialDmaRx c.bufsz length s.fifo).1).length ≤ s.rx.seen
      omega
    room := by
      have := h.room
      change s.wire.length - (s.got ++ (serialDmaRx c.bufsz length s.fifo).1).length ≤ _
      omega
    unread := by
      change Ring.content _ (serialDmaRx c.bufsz length s.fifo).2.buffer
        (s.got ++ (serialDmaRx c.bufsz length s.fifo).1).length (s.wire.length -
          (s.got ++ (serialDmaRx c.bufsz length s.fifo).1).length) = s.wire.drop
          (s.got ++ (serialDmaRx c.bufsz length s.fifo).1).length
      rw [hk, serialDmaRx_snd, ← Nat.sub_sub, ← List.drop_drop, ← h.unread, Ring.content_drop]
      rfl
    fifo := hinv
    put := by
      change (serialDmaRx c.bufsz length s.fifo).2.putIndex.toNat = _
      rw [serialDmaRx_snd]
      exact h.put
    get := by
      change (serialDmaRx c.bufsz length s.fifo).2.getIndex.toNat =
        (s.got ++ (serialDmaRx c.bufsz length s.fifo).1).length % _
      rw [hk, hget, h.get, Nat.mod_add_mod]
    count := by
      change _ = s.rx.seen - (s.got ++ (serialDmaRx c.bufsz length s.fifo).1).length
      rw [hk, ← Nat.sub_sub]
      exact hcount }

theorem pathInv_serve (h : PathInv c s) (hb : c.bufsz.toNat ≤ 2 ^ 15) (e : Uart.RxEvent)
    (hl : InLap c s.rx e) (he : (Uart.step c s.rx e).stored = s.rx.stored) :
    PathInv c (s.serve c e) := by
  have hacc : Inv c (Uart.step c s.rx e) :=
    ⟨(accounted_step_iff h.rx e).mpr hl, seen_le_step h.rx.seen_le e⟩
  have hstored : (Uart.step c s.rx e).stored = s.wire.length := he.trans h.wire.symm
  rcases reported_step s.rx e with hrep | ⟨recvLen, hrep⟩
  · have hseen : (Uart.step c s.rx e).seen = s.rx.seen := by
      rw [← hacc.accounted.sum, ← h.rx.accounted.sum, hrep]
    unfold RxPath.serve
    dsimp only
    rw [newReports_of_eq hrep]
    exact {
      rx := hacc
      wire := hstored.symm
      got := h.got
      read_le := hseen ▸ h.read_le
      room := h.room
      unread := h.unread
      fifo := h.fifo
      put := hseen ▸ h.put
      get := h.get
      count := hseen ▸ h.count }
  · have hseen : (Uart.step c s.rx e).seen = recvLen.toNat + s.rx.seen := by
      rw [← hacc.accounted.sum, ← h.rx.accounted.sum, hrep, List.map_cons, List.sum_cons]
    have hle : recvLen.toNat ≤ c.bufsz.toNat :=
      hacc.accounted.each recvLen (hrep ▸ List.mem_cons_self)
    have hread := h.read_le
    have hroom := h.room
    have hseen_le : s.rx.seen + recvLen.toNat ≤ s.wire.length := by
      rw [Nat.add_comm, ← hseen, ← hstored]
      exact hacc.seen_le
    have hfifo : (newReports s.rx (Uart.step c s.rx e)).foldr
        (fun recvLen f => (isrRxDmadone c.bufsz (rxDmadone recvLen) f).1) s.fifo =
          rtDmaRecvUpdatePutIndex c.bufsz recvLen.toNat s.fifo := by
      have hlt := c.bufsz.isLt
      rw [newReports_of_cons hrep, List.foldr_cons, List.foldr_nil, isrRxDmadone,
        eventLength_rxDmadone (by omega)]
    obtain ⟨hbuffer, hputIndex, hget, hcount⟩ :=
      updatePutIndex_at h.fifo hle hb h.put h.get h.count h.read_le (by omega)
    rw [Nat.add_comm, ← hseen] at hputIndex hcount
    unfold RxPath.serve
    dsimp only
    rw [hfifo]
    exact {
      rx := hacc
      wire := hstored.symm
      got := h.got
      read_le := by
        rw [hseen]
        exact Nat.le_trans hread (Nat.le_add_left _ _)
      room := hroom
      unread := by
        dsimp only
        rw [hbuffer]
        exact h.unread
      fifo := updatePutIndex_inv h.fifo hle hb
      put := hputIndex
      get := hget
      count := hcount }

theorem stored_step {s : RxDma} {e : Uart.RxEvent} (he : e ≠ .store) :
    (Uart.step c s e).stored = s.stored := by
  cases e with
  | store => exact absurd rfl he
  | lineIdle => rfl
  | uart rxne =>
    change (uartIsr c .dmaRx rxne s).stored = _
    unfold uartIsr
    split
    · rfl
    · split <;> rfl
  | dmaHalf =>
    simp only [Uart.step, dmaIsr]
    split
    · split <;> rfl
    · rfl
  | dmaComplete =>
    simp only [Uart.step, dmaIsr]
    split
    · split <;> rfl
    · rfl

theorem pathInv_step (hb : c.bufsz.toNat ≤ 2 ^ 15) (s : RxPath) (e : PathEvent)
    (h : PathInv c s) (hk : KeepsUp c s e) : PathInv c (pathStep c s e) := by
  cases e with
  | store b => exact pathInv_store h b hk
  | lineIdle => exact pathInv_serve h hb .lineIdle trivial rfl
  | uart rxne => exact pathInv_serve h hb (.uart rxne) hk (stored_step (by simp))
  | dmaHalf => exact pathInv_serve h hb .dmaHalf hk (stored_step (by simp))
  | dmaComplete => exact pathInv_serve h hb .dmaComplete hk (stored_step (by simp))
  | read length => exact pathInv_read h hb length

/-! ## Runs -/

/-- Nothing lost, doubled or out of order, for every buffer of at most 2^15 bytes and every
    interleaving of the DMA, the interrupts and the readers in which the readers keep up and every
    service of the driver comes before the DMA laps it. -/
theorem got_append_queue (c : RxConfig) (hb : c.bufsz.toNat ≤ 2 ^ 15) (events : List PathEvent)
    (hk : EachStep (pathStep c) (KeepsUp c) .start events) :
    let s := events.foldl (pathStep c) .start
    s.got ++ s.fifo.queue c.bufsz = s.wire.take s.rx.seen :=
  got_append_queue_of_inv (hk.foldl (PathInv c) (pathInv_step hb) (pathInv_start c))

/-- Five bytes around the end of a buffer of four, in two reads. -/
theorem got_append_queue_around : let c : RxConfig := ⟨4, 2, by decide⟩
    let s := [PathEvent.store 1, .store 2, .dmaHalf, .read 1, .store 3, .store 4, .dmaComplete,
      .store 5, .lineIdle, .uart false, .read 9].foldl (pathStep c) .start
    s.got ++ s.fifo.queue c.bufsz = s.wire.take s.rx.seen ∧ s.got = [1, 2, 3, 4, 5] := by
  refine ⟨got_append_queue _ (by decide) _ ?_, by decide⟩
  exact ⟨by decide, by decide, by decide, trivial, by decide, by decide, by decide, by decide,
    trivial, by decide, trivial, trivial⟩

end Live2dStm32.Serial
