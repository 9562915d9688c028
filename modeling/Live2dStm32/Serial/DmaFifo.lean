import Live2dStm32.Serial.RxFifo
import Mathlib.Algebra.Group.Nat.Defs

/-
  The receive FIFO of serial.c when a circular DMA fills its buffer (RT_SERIAL_EVENT_RX_DMADONE
  of `rt_hw_serial_isr`, and `_serial_dma_rx`). The DMA stores the bytes; the event moves the
  put index over them.

  The bytes counted are a queue of `bufsz` bytes that forgets its oldest
  (`updatePutIndex_queue`), and a read takes from its front (`serialDmaRx_queue`). The indices
  are of 16 bits, and a sum of two of them must fit.
-/

namespace Live2dStm32.Serial

open Live2dStm32.Lib

/-- RT_SERIAL_EVENT_RX_DMADONE with the length the driver packs behind it. -/
def rxDmadone (recvLen : BitVec 32) : BitVec 32 := 0x03#32 ||| (recvLen <<< 8)

/-- `length = (event & (~0xff)) >> 8`, of an `int`. -/
def eventLength (event : BitVec 32) : BitVec 32 := (event &&& ~~~0xff#32).sshiftRight 8

/-- `if (index >= bufsz) index %= bufsz;` -/
def wrap (bufsz index : BitVec 16) : BitVec 16 :=
  if index ≥ bufsz then index % bufsz else index

/-- `rt_dma_recv_update_get_index`. -/
def rtDmaRecvUpdateGetIndex (bufsz : BitVec 16) (len : Nat) (f : RxFifo) : RxFifo :=
  { f with
    isFull := if f.isFull && len != 0 then false else f.isFull
    getIndex := wrap bufsz (f.getIndex + BitVec.ofNat 16 len) }

/-- A full buffer is read from where it is written next. -/
def followPut (f : RxFifo) : RxFifo :=
  if f.isFull = true then { f with getIndex := f.putIndex } else f

/-- `rt_dma_recv_update_put_index`. -/
def rtDmaRecvUpdatePutIndex (bufsz : BitVec 16) (len : Nat) (f : RxFifo) : RxFifo :=
  let putIndex := f.putIndex + BitVec.ofNat 16 len
  followPut <|
    if f.getIndex ≤ f.putIndex then
      if putIndex ≥ bufsz then
        { f with
          putIndex := putIndex % bufsz
          isFull := if putIndex % bufsz ≥ f.getIndex then true else f.isFull }
      else { f with putIndex := putIndex }
    else if putIndex ≥ f.getIndex then
      { f with putIndex := wrap bufsz putIndex, isFull := true }
    else { f with putIndex := putIndex }

/-- RT_SERIAL_EVENT_RX_DMADONE, and what it hands to `rx_indicate`. -/
def isrRxDmadone (bufsz : BitVec 16) (event : BitVec 32) (f : RxFifo) : RxFifo × Nat :=
  let f := rtDmaRecvUpdatePutIndex bufsz (eventLength event).toNat f
  (f, serialFifoCalcRecvedLen bufsz f)

/-- `rt_memcpy` out of the buffer. -/
def memcpyFrom (buffer : Nat → BitVec 8) (start len : Nat) : List (BitVec 8) :=
  (List.range len).map fun i => buffer (start + i)

/-- `_serial_dma_rx` with a buffer: the bytes put into `data`, and the FIFO left. -/
def serialDmaRx (bufsz : BitVec 16) (length : Nat) (f : RxFifo) : List (BitVec 8) × RxFifo :=
  let fifoRecvedLen := serialFifoCalcRecvedLen bufsz f
  let recvLen := if length < fifoRecvedLen then length else fifoRecvedLen
  let getIndex := f.getIndex.toNat
  let data :=
    if getIndex + recvLen < bufsz.toNat then memcpyFrom f.buffer getIndex recvLen
    else memcpyFrom f.buffer getIndex (bufsz.toNat - getIndex) ++
      memcpyFrom f.buffer 0 (recvLen + getIndex - bufsz.toNat)
  (data, rtDmaRecvUpdateGetIndex bufsz recvLen f)

/-! ## The event -/

theorem eventLength_rxDmadone {recvLen : BitVec 32} (h : recvLen.toNat < 2 ^ 23) :
    eventLength (rxDmadone recvLen) = recvLen := by
  have hshift : (recvLen <<< 8).toNat = recvLen.toNat * 2 ^ 8 := by
    rw [BitVec.toNat_shiftLeft, Nat.shiftLeft_eq]
    exact Nat.mod_eq_of_lt (by omega)
  have hmsb : (recvLen <<< 8).msb = false := by
    rw [BitVec.msb_eq_false_iff_two_mul_lt, hshift]
    omega
  have hmsb' : (rxDmadone recvLen &&& ~~~0xff#32).msb = false := by
    rw [BitVec.msb_and, rxDmadone, BitVec.msb_or, hmsb]
    rfl
  unfold eventLength
  rw [BitVec.sshiftRight_eq_of_msb_false hmsb', BitVec.ushiftRight_and_distrib, rxDmadone,
    BitVec.ushiftRight_or_distrib]
  apply BitVec.eq_of_toNat_eq
  have hback : (recvLen <<< 8 >>> 8).toNat = recvLen.toNat := by
    rw [BitVec.toNat_ushiftRight, hshift, Nat.shiftRight_eq_div_pow]
    exact Nat.mul_div_cancel _ (by decide)
  rw [show (3#32 >>> 8) = 0#32 by decide, BitVec.zero_or, BitVec.toNat_and, hback,
    show (~~~0xff#32 >>> 8).toNat = 2 ^ 24 - 1 by decide, Nat.and_two_pow_sub_one_eq_mod]
  exact Nat.mod_eq_of_lt (by omega)

/-! ## Indices -/

variable {bufsz : BitVec 16} {f : RxFifo} {len : Nat}

/-- Both indices are in the buffer, and equal when it is full. -/
structure RxFifo.DmaInv (bufsz : BitVec 16) (f : RxFifo) : Prop where
  inBuffer : f.InBuffer bufsz
  full : f.isFull = true → f.putIndex = f.getIndex

theorem dmaInv_open (h : 0 < bufsz.toNat) : rtSerialOpenRx.DmaInv bufsz :=
  ⟨⟨h, h⟩, fun h => nomatch h⟩

theorem toNat_add_len {index : BitVec 16} (hi : index.toNat < bufsz.toNat)
    (hlen : len ≤ bufsz.toNat) (hb : bufsz.toNat ≤ 2 ^ 15) :
    (index + BitVec.ofNat 16 len).toNat = index.toNat + len := by
  rw [BitVec.toNat_add, BitVec.toNat_ofNat, Nat.add_mod_mod]
  exact Nat.mod_eq_of_lt (by omega)

theorem toNat_wrap (index : BitVec 16) :
    (wrap bufsz index).toNat = index.toNat % bufsz.toNat := by
  unfold wrap
  split
  next => exact BitVec.toNat_umod
  next h =>
    rw [ge_iff_le, BitVec.le_def] at h
    exact (Nat.mod_eq_of_lt (by omega)).symm

/-- A full FIFO has all cells taken. -/
theorem calcRecvedLen_of_full (h : f.DmaInv bufsz) (hf : f.isFull = true) :
    serialFifoCalcRecvedLen bufsz f = bufsz.toNat := by
  rw [calcRecvedLen_eq h.inBuffer, if_pos ⟨h.full hf, hf⟩]

/-- The put index moves on; the get index follows it once all cells are taken. -/
theorem updatePutIndex_eq (h : f.DmaInv bufsz) (hlen : len ≤ bufsz.toNat)
    (hb : bufsz.toNat ≤ 2 ^ 15) :
    rtDmaRecvUpdatePutIndex bufsz len f =
      let putIndex := wrap bufsz (f.putIndex + BitVec.ofNat 16 len)
      if serialFifoCalcRecvedLen bufsz f + len < bufsz.toNat then { f with putIndex := putIndex }
      else ⟨f.buffer, putIndex, putIndex, true⟩ := by
  have hput := h.inBuffer.put
  have hget := h.inBuffer.get
  have hsum := toNat_add_len hput hlen hb
  have hmod := Ring.add_mod_eq hput hlen
  unfold rtDmaRecvUpdatePutIndex followPut wrap
  simp only [ge_iff_le, BitVec.le_def, BitVec.toNat_umod, hsum, hmod]
  cases hf : f.isFull with
  | true =>
    have hle : f.getIndex.toNat ≤ f.putIndex.toNat := by
      exact Nat.le_of_eq (by rw [h.full hf])
    have hno : ¬ serialFifoCalcRecvedLen bufsz f + len < bufsz.toNat := by
      rw [calcRecvedLen_of_full h hf]
      omega
    simp only [hle, hno, if_true, if_false, ite_self]
    split <;> simp
  | false =>
    have hcount := calcRecvedLen_eq h.inBuffer
    simp only [hf, Bool.false_eq_true, and_false, if_false, Ring.distance] at hcount
    rw [hcount]
    by_cases hle : f.getIndex.toNat ≤ f.putIndex.toNat
    · by_cases hend : bufsz.toNat ≤ f.putIndex.toNat + len
      · have hlt : ¬ f.putIndex.toNat + len < bufsz.toNat := by omega
        by_cases hover : f.getIndex.toNat ≤ f.putIndex.toNat + len - bufsz.toNat
        · have hno : ¬ f.putIndex.toNat - f.getIndex.toNat + len < bufsz.toNat := by omega
          simp [hle, hend, hlt, hover, hno]
        · have hroom : f.putIndex.toNat - f.getIndex.toNat + len < bufsz.toNat := by omega
          simp [hle, hend, hlt, hover, hroom]
      · have hroom : f.putIndex.toNat - f.getIndex.toNat + len < bufsz.toNat := by omega
        simp [hle, hend, hroom]
    · by_cases hover : f.getIndex.toNat ≤ f.putIndex.toNat + len
      · have hno : ¬ bufsz.toNat - (f.getIndex.toNat - f.putIndex.toNat) + len < bufsz.toNat := by
          omega
        simp [hle, hover, hno]
      · have hend : ¬ bufsz.toNat ≤ f.putIndex.toNat + len := by omega
        have hroom : bufsz.toNat - (f.getIndex.toNat - f.putIndex.toNat) + len < bufsz.toNat := by
          omega
        simp [hle, hover, hend, hroom]

theorem updatePutIndex_inv (h : f.DmaInv bufsz) (hlen : len ≤ bufsz.toNat)
    (hb : bufsz.toNat ≤ 2 ^ 15) : (rtDmaRecvUpdatePutIndex bufsz len f).DmaInv bufsz := by
  have hput : (wrap bufsz (f.putIndex + BitVec.ofNat 16 len)).toNat < bufsz.toNat := by
    rw [toNat_wrap]
    exact Nat.mod_lt _ (Nat.zero_lt_of_lt h.inBuffer.get)
  rw [updatePutIndex_eq h hlen hb]
  dsimp only
  split
  next hroom =>
    refine ⟨⟨hput, h.inBuffer.get⟩, fun hf => ?_⟩
    rw [calcRecvedLen_of_full h hf] at hroom
    omega
  next => exact ⟨⟨hput, hput⟩, fun _ => rfl⟩

/-- The event appends the bytes the DMA has stored from the put index on. -/
theorem updatePutIndex_queue (h : f.DmaInv bufsz) (hlen : len ≤ bufsz.toNat)
    (hb : bufsz.toNat ≤ 2 ^ 15) :
    (rtDmaRecvUpdatePutIndex bufsz len f).queue bufsz =
      Ring.newest bufsz.toNat (f.queue bufsz ++
        Ring.content bufsz.toNat f.buffer f.putIndex.toNat len) := by
  have hinv := updatePutIndex_inv h hlen hb
  have hsum := toNat_add_len h.inBuffer.put hlen hb
  have hend := getIndex_add_len h.inBuffer
  have hall : f.queue bufsz ++ Ring.content bufsz.toNat f.buffer f.putIndex.toNat len =
      Ring.content bufsz.toNat f.buffer f.getIndex.toNat
        (serialFifoCalcRecvedLen bufsz f + len) := by
    rw [Ring.content_add, RxFifo.queue, ← hend, Ring.content_mod]
  rw [hall]
  rw [updatePutIndex_eq h hlen hb] at hinv ⊢
  dsimp only at hinv ⊢
  split at hinv
  case isTrue hroom =>
    rw [if_pos hroom, Ring.newest_of_le (by rw [Ring.length_content]; omega)]
    unfold RxFifo.queue
    dsimp only
    rw [calcRecvedLen_of_lt hinv.inBuffer hroom]
    · rw [toNat_wrap, hsum, ← hend, Nat.mod_add_mod, Nat.add_assoc]
    · intro hpg
      rw [Bool.eq_false_iff]
      intro hf
      rw [calcRecvedLen_of_full h hf] at hroom
      omega
  case isFalse hover =>
    rw [if_neg hover]
    unfold RxFifo.queue
    rw [calcRecvedLen_of_full hinv rfl]
    dsimp only
    -- the last turn of the bytes ends at the put index
    have hlast : f.getIndex.toNat + (serialFifoCalcRecvedLen bufsz f + len - bufsz.toNat) +
        bufsz.toNat = f.getIndex.toNat + serialFifoCalcRecvedLen bufsz f + len := by omega
    rw [Ring.newest, Ring.length_content, Ring.content_drop, toNat_wrap, hsum, ← hend,
      Nat.mod_add_mod, ← hlast, Nat.add_mod_right, Ring.content_mod]
    congr 1
    omega

/-- With the indices at places counted from the start, and no more than a turn between them. -/
theorem updatePutIndex_at {r p : Nat} (h : f.DmaInv bufsz) (hlen : len ≤ bufsz.toNat)
    (hb : bufsz.toNat ≤ 2 ^ 15) (hput : f.putIndex.toNat = p % bufsz.toNat)
    (hget : f.getIndex.toNat = r % bufsz.toNat)
    (hcount : serialFifoCalcRecvedLen bufsz f = p - r) (hle : r ≤ p)
    (hroom : p + len - r ≤ bufsz.toNat) :
    (rtDmaRecvUpdatePutIndex bufsz len f).buffer = f.buffer ∧
      (rtDmaRecvUpdatePutIndex bufsz len f).putIndex.toNat = (p + len) % bufsz.toNat ∧
      (rtDmaRecvUpdatePutIndex bufsz len f).getIndex.toNat = r % bufsz.toNat ∧
      serialFifoCalcRecvedLen bufsz (rtDmaRecvUpdatePutIndex bufsz len f) = p + len - r := by
  have hnew : (wrap bufsz (f.putIndex + BitVec.ofNat 16 len)).toNat =
      (p + len) % bufsz.toNat := by
    rw [toNat_wrap, toNat_add_len h.inBuffer.put hlen hb, hput, Nat.mod_add_mod]
  have hlen' : serialFifoCalcRecvedLen bufsz (rtDmaRecvUpdatePutIndex bufsz len f) =
      p + len - r := by
    rw [← length_queue, updatePutIndex_queue h hlen hb, Ring.length_newest,
      List.length_append, length_queue, hcount, Ring.length_content]
    omega
  refine ⟨?_, ?_, ?_, hlen'⟩
  all_goals rw [updatePutIndex_eq h hlen hb, hcount]; dsimp only
  · split <;> rfl
  · split <;> exact hnew
  · split
    next => exact hget
    next hfull =>
      have hturn : p + len = r + bufsz.toNat := by omega
      exact hnew.trans (hturn ▸ Nat.add_mod_right _ _)

theorem updateGetIndex_inv (h : f.DmaInv bufsz) (hb : bufsz.toNat ≤ 2 ^ 15)
    (hlen : len ≤ serialFifoCalcRecvedLen bufsz f) :
    (rtDmaRecvUpdateGetIndex bufsz len f).DmaInv bufsz ∧
      (rtDmaRecvUpdateGetIndex bufsz len f).getIndex.toNat =
        (f.getIndex.toNat + len) % bufsz.toNat ∧
      serialFifoCalcRecvedLen bufsz (rtDmaRecvUpdateGetIndex bufsz len f) =
        serialFifoCalcRecvedLen bufsz f - len := by
  have hle := calcRecvedLen_le h.inBuffer
  have hget : (wrap bufsz (f.getIndex + BitVec.ofNat 16 len)).toNat =
      (f.getIndex.toNat + len) % bufsz.toNat := by
    rw [toNat_wrap, toNat_add_len h.inBuffer.get (by omega) hb]
  have hlt : (f.getIndex.toNat + len) % bufsz.toNat < bufsz.toNat :=
    Nat.mod_lt _ (Nat.zero_lt_of_lt h.inBuffer.get)
  have hin : (rtDmaRecvUpdateGetIndex bufsz len f).InBuffer bufsz :=
    ⟨h.inBuffer.put, by rw [rtDmaRecvUpdateGetIndex, hget]; exact hlt⟩
  rcases Nat.eq_zero_or_pos len with rfl | hpos
  · have hsame : wrap bufsz (f.getIndex + BitVec.ofNat 16 0) = f.getIndex := by
      apply BitVec.eq_of_toNat_eq
      rw [hget, Nat.add_zero, Nat.mod_eq_of_lt h.inBuffer.get]
    have hid : rtDmaRecvUpdateGetIndex bufsz 0 f = f := by
      unfold rtDmaRecvUpdateGetIndex
      rw [hsame]
      simp
    rw [hid, Nat.add_zero, Nat.mod_eq_of_lt h.inBuffer.get, Nat.sub_zero]
    exact ⟨h, rfl, rfl⟩
  · have hfull : (rtDmaRecvUpdateGetIndex bufsz len f).isFull = false := by
      cases hf : f.isFull <;> simp [rtDmaRecvUpdateGetIndex, hf]
      omega
    refine ⟨⟨hin, fun hf => ?_⟩, hget, ?_⟩
    · rw [hfull] at hf
      cases hf
    · refine calcRecvedLen_of_lt hin (by omega) ?_ fun _ => hfull
      change f.putIndex.toNat = ((wrap bufsz (f.getIndex + BitVec.ofNat 16 len)).toNat +
        (serialFifoCalcRecvedLen bufsz f - len)) % bufsz.toNat
      rw [hget, Nat.mod_add_mod, Nat.add_assoc, Nat.add_sub_cancel' hlen,
        getIndex_add_len h.inBuffer]

/-- `recv_len` is the smaller of the two lengths. -/
theorem recvLen_eq_min (length count : Nat) :
    (if length < count then length else count) = min length count := by
  split <;> omega

theorem serialDmaRx_snd (length : Nat) : (serialDmaRx bufsz length f).2 =
    rtDmaRecvUpdateGetIndex bufsz (min length (serialFifoCalcRecvedLen bufsz f)) f := by
  unfold serialDmaRx
  dsimp only
  rw [recvLen_eq_min]

/-- A read copies from the front of the queue, around the end of the buffer or not. -/
theorem serialDmaRx_data (h : f.DmaInv bufsz) (length : Nat) :
    (serialDmaRx bufsz length f).1 = (f.queue bufsz).take length := by
  have hle := calcRecvedLen_le h.inBuffer
  have htake : (f.queue bufsz).take length = Ring.content bufsz.toNat f.buffer
      f.getIndex.toNat (min length (serialFifoCalcRecvedLen bufsz f)) := by
    rw [← Ring.content_take (Nat.min_le_right _ _), ← RxFifo.queue, ← length_queue,
      List.take_eq_take_min]
  unfold serialDmaRx memcpyFrom
  dsimp only
  rw [recvLen_eq_min, htake]
  split
  next hlt => exact (Ring.content_straight hlt).symm
  next hge =>
    rw [Ring.content_split h.inBuffer.get (by omega) (by omega)]
    simp only [Nat.zero_add]

/-- And leaves the rest. -/
theorem serialDmaRx_queue (h : f.DmaInv bufsz) (hb : bufsz.toNat ≤ 2 ^ 15) (length : Nat) :
    (serialDmaRx bufsz length f).2.queue bufsz = (f.queue bufsz).drop length := by
  obtain ⟨-, hget, hlen⟩ := updateGetIndex_inv h hb (Nat.min_le_right length _)
  rw [serialDmaRx_snd, RxFifo.queue, RxFifo.queue, hlen, hget, Ring.content_mod,
    Ring.content_drop]
  change Ring.content bufsz.toNat f.buffer _ _ = _
  rcases Nat.le_total length (serialFifoCalcRecvedLen bufsz f) with hl | hl
  · rw [Nat.min_eq_left hl]
  · rw [Nat.min_eq_right hl, Nat.sub_self, Nat.sub_eq_zero_of_le hl, Ring.content_zero,
      Ring.content_zero]

end Live2dStm32.Serial
