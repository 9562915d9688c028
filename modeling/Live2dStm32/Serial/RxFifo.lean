import Live2dStm32.Lib.Ring
import Live2dStm32.Lib.Machine

/-
  The receive FIFO of the serial framework (rt-thread/components/drivers/serial/serial.c), as
  the interrupt mode fills it (`rt_hw_serial_isr`, RT_SERIAL_EVENT_RX_IND) and
  `_serial_int_rx` drains it.

  Each byte is moved with interrupts disabled; the interrupt may come between any two rounds of
  a read. `serialIntRx_queue`: whatever the interleaving, a reader sees a queue of `bufsz - 1`
  bytes (one, when `bufsz` is 1) that forgets its oldest.
-/

namespace Live2dStm32.Serial

open Live2dStm32.Lib

/-- `struct rt_serial_rx_fifo`; `bufsz` is a field of the device's configuration. -/
structure RxFifo where
  buffer : Nat → BitVec 8
  putIndex : BitVec 16
  getIndex : BitVec 16
  isFull : Bool

/-- What `rt_serial_open` allocates, cleared. -/
def rtSerialOpenRx : RxFifo := ⟨fun _ => 0, 0, 0, false⟩

/-- `index += 1; if (index >= bufsz) index = 0;` -/
def advance (bufsz index : BitVec 16) : BitVec 16 :=
  if index + 1 ≥ bufsz then 0 else index + 1

/-- The character loop of RT_SERIAL_EVENT_RX_IND, one round. -/
def RxFifo.recv (bufsz : BitVec 16) (f : RxFifo) (ch : BitVec 32) : RxFifo :=
  let putIndex := advance bufsz f.putIndex
  let f := { f with
    buffer := Function.update f.buffer f.putIndex.toNat (ch.setWidth 8)
    putIndex := putIndex }
  if putIndex = f.getIndex then
    { f with getIndex := advance bufsz f.getIndex, isFull := true }
  else f

/-- RT_SERIAL_EVENT_RX_IND; `getc` lists what the low level answers until it has nothing. -/
def rxInd (bufsz : BitVec 16) : List (BitVec 32) → RxFifo → RxFifo
  | [], f => f
  | ch :: getc, f => if ch = -1 then f else rxInd bufsz getc (f.recv bufsz ch)

/-- One round of `_serial_int_rx`. -/
def RxFifo.take (bufsz : BitVec 16) (f : RxFifo) : Option (BitVec 8 × RxFifo) :=
  if f.getIndex = f.putIndex ∧ f.isFull = false then none
  else some (f.buffer f.getIndex.toNat,
    { f with getIndex := advance bufsz f.getIndex, isFull := false })

/-- `_serial_int_rx`: the bytes put into `data`, and the FIFO left. `isr` lists the interrupts
    that come after each round, as the characters each one finds. -/
def serialIntRx (bufsz : BitVec 16) : Nat → List (List (BitVec 32)) → RxFifo →
    List (BitVec 8) × RxFifo
  | 0, _, f => ([], f)
  | length + 1, isr, f =>
    match f.take bufsz with
    | none => ([], f)
    | some (ch, f) =>
      let rest := serialIntRx bufsz length isr.tail (rxInd bufsz (isr.headD []) f)
      (ch :: rest.1, rest.2)

/-- `_serial_fifo_calc_recved_len`. -/
def serialFifoCalcRecvedLen (bufsz : BitVec 16) (f : RxFifo) : Nat :=
  if f.putIndex = f.getIndex then
    if f.isFull = false then 0 else bufsz.toNat
  else if f.putIndex > f.getIndex then f.putIndex.toNat - f.getIndex.toNat
  else bufsz.toNat - (f.getIndex.toNat - f.putIndex.toNat)

/-- The unread bytes, oldest first. -/
def RxFifo.queue (bufsz : BitVec 16) (f : RxFifo) : List (BitVec 8) :=
  Ring.content bufsz.toNat f.buffer f.getIndex.toNat (serialFifoCalcRecvedLen bufsz f)

/-! ## The queue it stands for -/

/-- The bytes the interrupt may leave unread. -/
def intCapacity (bufsz : BitVec 16) : Nat := max 1 (bufsz.toNat - 1)

/-- The characters of one interrupt, as bytes. -/
def chars (getc : List (BitVec 32)) : List (BitVec 8) :=
  (getc.takeWhile fun ch => ch ≠ -1).map (BitVec.setWidth 8)

/-- Bytes arrive, and the oldest beyond the capacity are forgotten. -/
def arrive (bufsz : BitVec 16) (getc : List (BitVec 32)) (q : List (BitVec 8)) :
    List (BitVec 8) :=
  Ring.newest (intCapacity bufsz) (q ++ chars getc)

/-- A read of up to so many bytes from the queue, with arrivals in between. -/
def readQueue (bufsz : BitVec 16) : Nat → List (List (BitVec 32)) → List (BitVec 8) →
    List (BitVec 8) × List (BitVec 8)
  | 0, _, q => ([], q)
  | _ + 1, _, [] => ([], [])
  | length + 1, isr, ch :: q =>
    let rest := readQueue bufsz length isr.tail (arrive bufsz (isr.headD []) q)
    (ch :: rest.1, rest.2)

/-! ## Indices -/

variable {bufsz : BitVec 16} {f : RxFifo}

theorem toNat_advance {index : BitVec 16} (h : index.toNat < bufsz.toNat) :
    (advance bufsz index).toNat = (index.toNat + 1) % bufsz.toNat := by
  have hb := bufsz.isLt
  have h1 : (index + 1).toNat = index.toNat + 1 := by
    rw [BitVec.toNat_add]
    exact Nat.mod_eq_of_lt (by change index.toNat + 1 < _; omega)
  rw [← Ring.next_eq_mod h]
  unfold advance Ring.next
  simp only [ge_iff_le, BitVec.le_def, h1]
  split
  · rfl
  · exact h1

theorem advance_lt {index : BitVec 16} (h : index.toNat < bufsz.toNat) :
    (advance bufsz index).toNat < bufsz.toNat := by
  rw [toNat_advance h]
  exact Nat.mod_lt _ (Nat.zero_lt_of_lt h)

/-- Both indices are in the buffer. -/
structure RxFifo.InBuffer (bufsz : BitVec 16) (f : RxFifo) : Prop where
  put : f.putIndex.toNat < bufsz.toNat
  get : f.getIndex.toNat < bufsz.toNat

theorem calcRecvedLen_eq (h : f.InBuffer bufsz) :
    serialFifoCalcRecvedLen bufsz f =
      if f.putIndex = f.getIndex ∧ f.isFull = true then bufsz.toNat
      else Ring.distance bufsz.toNat f.getIndex.toNat f.putIndex.toNat := by
  have hput := h.put
  have hget := h.get
  unfold serialFifoCalcRecvedLen Ring.distance
  by_cases heq : f.putIndex = f.getIndex
  · cases hfull : f.isFull <;> simp [heq]
  · have hne : f.putIndex.toNat ≠ f.getIndex.toNat := fun h => heq (BitVec.eq_of_toNat_eq h)
    simp only [heq, false_and, if_false, gt_iff_lt, BitVec.lt_def]
    split <;> split <;> omega

/-- The bytes end where the next one is stored. -/
theorem getIndex_add_len (h : f.InBuffer bufsz) :
    (f.getIndex.toNat + serialFifoCalcRecvedLen bufsz f) % bufsz.toNat = f.putIndex.toNat := by
  rw [calcRecvedLen_eq h]
  split
  next hfull => rw [Nat.add_mod_right, Nat.mod_eq_of_lt h.get, hfull.1]
  next => exact Ring.add_distance_mod h.get h.put

theorem calcRecvedLen_le (h : f.InBuffer bufsz) :
    serialFifoCalcRecvedLen bufsz f ≤ bufsz.toNat := by
  rw [calcRecvedLen_eq h]
  split
  · exact Nat.le_refl _
  · exact Nat.le_of_lt (Ring.distance_lt h.put)

/-- Fewer bytes than cells are found where the put index says. -/
theorem calcRecvedLen_of_lt (h : f.InBuffer bufsz) {len : Nat} (hlen : len < bufsz.toNat)
    (hput : f.putIndex.toNat = (f.getIndex.toNat + len) % bufsz.toNat)
    (hfull : f.putIndex = f.getIndex → f.isFull = false) :
    serialFifoCalcRecvedLen bufsz f = len := by
  rw [calcRecvedLen_eq h, if_neg, hput, Ring.distance_add_mod h.get hlen]
  intro hc
  rw [hfull hc.1] at hc
  exact Bool.noConfusion hc.2

@[simp] theorem length_queue : (f.queue bufsz).length = serialFifoCalcRecvedLen bufsz f :=
  Ring.length_content

/-! ## Interrupt mode -/

/-- The flag is set only while the FIFO holds all it can. -/
structure RxFifo.IntInv (bufsz : BitVec 16) (f : RxFifo) : Prop where
  inBuffer : f.InBuffer bufsz
  full : f.isFull = true → advance bufsz f.putIndex = f.getIndex

theorem intInv_open (h : 0 < bufsz.toNat) : rtSerialOpenRx.IntInv bufsz :=
  ⟨⟨h, h⟩, fun h => nomatch h⟩

theorem recv_inv (h : f.IntInv bufsz) (ch : BitVec 32) : (f.recv bufsz ch).IntInv bufsz := by
  have hput := advance_lt h.inBuffer.put
  unfold RxFifo.recv
  dsimp only
  split
  next heq => exact ⟨⟨hput, advance_lt h.inBuffer.get⟩, fun _ => congrArg _ heq⟩
  next hne => exact ⟨⟨hput, h.inBuffer.get⟩, fun hfull => absurd (h.full hfull) hne⟩

/-- With one cell there is no other index. -/
theorem advance_of_one {index : BitVec 16} (h : index.toNat < bufsz.toNat)
    (h1 : bufsz.toNat = 1) : advance bufsz index = index := by
  have := advance_lt h
  exact BitVec.eq_of_toNat_eq (by omega)

theorem advance_ne {index : BitVec 16} (h : index.toNat < bufsz.toNat) (h1 : 1 < bufsz.toNat) :
    advance bufsz index ≠ index := by
  intro heq
  have heq := congrArg BitVec.toNat heq
  rw [toNat_advance h, Ring.add_mod_eq h (by omega)] at heq
  split at heq <;> omega

/-- The next position is taken just when all cells but one are. -/
theorem advance_eq_iff (h : f.IntInv bufsz) (h1 : 1 < bufsz.toNat) :
    advance bufsz f.putIndex = f.getIndex ↔
      serialFifoCalcRecvedLen bufsz f = bufsz.toNat - 1 := by
  have hget := h.inBuffer.get
  have hend := getIndex_add_len h.inBuffer
  constructor
  · intro heq
    have hne : f.putIndex ≠ f.getIndex := fun hpg =>
      advance_ne h.inBuffer.put h1 (heq.trans hpg.symm)
    refine calcRecvedLen_of_lt h.inBuffer (by omega) ?_ fun hpg => absurd hpg hne
    rw [← heq, toNat_advance h.inBuffer.put, Nat.mod_add_mod,
      show f.putIndex.toNat + 1 + (bufsz.toNat - 1) = f.putIndex.toNat + bufsz.toNat by omega,
      Nat.add_mod_right, Nat.mod_eq_of_lt h.inBuffer.put]
  · intro hlen
    apply BitVec.eq_of_toNat_eq
    rw [toNat_advance h.inBuffer.put, ← hend, hlen, Nat.mod_add_mod, Nat.add_assoc,
      Nat.sub_add_cancel (Nat.le_of_lt h1), Nat.add_mod_right, Nat.mod_eq_of_lt hget]

/-- The flag or not, the FIFO never holds more than all cells but one. -/
theorem calcRecvedLen_lt (h : f.IntInv bufsz) (h1 : 1 < bufsz.toNat) :
    serialFifoCalcRecvedLen bufsz f < bufsz.toNat := by
  rw [calcRecvedLen_eq h.inBuffer, if_neg]
  · exact Ring.distance_lt h.inBuffer.put
  · intro ⟨hpg, hfull⟩
    exact advance_ne h.inBuffer.put h1 ((h.full hfull).trans hpg.symm)

/-- A byte with room for it. -/
theorem recv_queue_of_ne (h : f.IntInv bufsz) (ch : BitVec 32) (h1 : 1 < bufsz.toNat)
    (hne : advance bufsz f.putIndex ≠ f.getIndex) :
    (f.recv bufsz ch).queue bufsz = f.queue bufsz ++ [ch.setWidth 8] := by
  have hinv := (recv_inv h ch).inBuffer
  have hend := getIndex_add_len h.inBuffer
  have hlt := calcRecvedLen_lt h h1
  have hroom : serialFifoCalcRecvedLen bufsz f ≠ bufsz.toNat - 1 := fun hlen =>
    hne ((advance_eq_iff h h1).mpr hlen)
  simp only [RxFifo.recv, hne, if_false] at hinv ⊢
  have hlen : serialFifoCalcRecvedLen bufsz
      { f with
        buffer := Function.update f.buffer f.putIndex.toNat (ch.setWidth 8)
        putIndex := advance bufsz f.putIndex } = serialFifoCalcRecvedLen bufsz f + 1 := by
    refine calcRecvedLen_of_lt hinv (by omega) ?_ fun hpg => absurd hpg hne
    rw [toNat_advance h.inBuffer.put, ← hend, Nat.mod_add_mod, Nat.add_assoc]
  unfold RxFifo.queue
  rw [hlen]
  dsimp only
  rw [← hend, Ring.content_put hlt]

/-- A byte that pushes the oldest out. -/
theorem recv_queue_of_eq (h : f.IntInv bufsz) (ch : BitVec 32) (h1 : 1 < bufsz.toNat)
    (heq : advance bufsz f.putIndex = f.getIndex) :
    (f.recv bufsz ch).queue bufsz = (f.queue bufsz ++ [ch.setWidth 8]).drop 1 := by
  have hget := h.inBuffer.get
  have hinv := (recv_inv h ch).inBuffer
  have hend := getIndex_add_len h.inBuffer
  have hold := (advance_eq_iff h h1).mp heq
  have hne := advance_ne hget h1
  simp only [RxFifo.recv, heq, if_true] at hinv ⊢
  have hlen : serialFifoCalcRecvedLen bufsz
      { f with
        buffer := Function.update f.buffer f.putIndex.toNat (ch.setWidth 8)
        putIndex := f.getIndex
        getIndex := advance bufsz f.getIndex
        isFull := true } = bufsz.toNat - 1 := by
    refine calcRecvedLen_of_lt hinv (by omega) ?_ fun hpg => absurd hpg.symm hne
    rw [toNat_advance hget, Nat.mod_add_mod, Nat.add_assoc,
      Nat.add_sub_cancel' (Nat.le_of_lt h1), Nat.add_mod_right, Nat.mod_eq_of_lt hget]
  rw [hold] at hend
  unfold RxFifo.queue
  rw [hlen, hold]
  dsimp only
  rw [← Ring.content_put (by omega), hend, Ring.content_drop, Nat.add_sub_cancel,
    toNat_advance hget, Ring.content_mod]

theorem recv_queue (h : f.IntInv bufsz) (ch : BitVec 32) :
    (f.recv bufsz ch).queue bufsz =
      Ring.newest (intCapacity bufsz) (f.queue bufsz ++ [ch.setWidth 8]) := by
  have hput := h.inBuffer.put
  have hget := h.inBuffer.get
  rcases Nat.lt_or_ge 1 bufsz.toNat with h1 | h1
  · have hcap : intCapacity bufsz = bufsz.toNat - 1 := by
      unfold intCapacity
      omega
    have hlt := calcRecvedLen_lt h h1
    have hlen : (f.queue bufsz ++ [ch.setWidth 8]).length =
        serialFifoCalcRecvedLen bufsz f + 1 := by simp
    by_cases heq : advance bufsz f.putIndex = f.getIndex
    · have hold := (advance_eq_iff h h1).mp heq
      rw [recv_queue_of_eq h ch h1 heq, Ring.newest, hlen, hold, hcap,
        Nat.add_sub_cancel_left]
    · have hroom : serialFifoCalcRecvedLen bufsz f ≠ bufsz.toNat - 1 := fun hlen =>
        heq ((advance_eq_iff h h1).mpr hlen)
      rw [recv_queue_of_ne h ch h1 heq, Ring.newest_of_le]
      omega
  · -- one cell, which every byte overwrites
    have h1 : bufsz.toNat = 1 := by omega
    have hg : f.getIndex.toNat = 0 := by omega
    have hp : f.putIndex.toNat = 0 := by omega
    have hpg : f.putIndex = f.getIndex := BitVec.eq_of_toNat_eq (hp.trans hg.symm)
    have hcap : intCapacity bufsz = 1 := by simp [intCapacity, h1]
    simp [RxFifo.recv, RxFifo.queue, serialFifoCalcRecvedLen, advance_of_one hget h1, hpg, h1,
      hcap, Ring.newest, Ring.content_succ, hg]

theorem calcRecvedLen_le_capacity (h : f.IntInv bufsz) :
    serialFifoCalcRecvedLen bufsz f ≤ intCapacity bufsz := by
  unfold intCapacity
  rcases Nat.lt_or_ge 1 bufsz.toNat with h1 | h1
  · have := calcRecvedLen_lt h h1
    omega
  · have := calcRecvedLen_le h.inBuffer
    omega

/-- No character leaves the queue alone. -/
theorem arrive_of_chars_eq_nil (h : f.IntInv bufsz) {getc : List (BitVec 32)}
    (hc : chars getc = []) : arrive bufsz getc (f.queue bufsz) = f.queue bufsz := by
  unfold arrive
  rw [hc, List.append_nil, Ring.newest_of_le]
  rw [length_queue]
  exact calcRecvedLen_le_capacity h

theorem chars_cons {ch : BitVec 32} {getc : List (BitVec 32)} (h : ch ≠ -1) :
    chars (ch :: getc) = ch.setWidth 8 :: chars getc := by
  unfold chars
  rw [List.takeWhile_cons, if_pos (decide_eq_true h), List.map_cons]

theorem rxInd_queue (h : f.IntInv bufsz) (getc : List (BitVec 32)) :
    (rxInd bufsz getc f).IntInv bufsz ∧
      (rxInd bufsz getc f).queue bufsz = arrive bufsz getc (f.queue bufsz) := by
  induction getc generalizing f with
  | nil => exact ⟨h, (arrive_of_chars_eq_nil h rfl).symm⟩
  | cons ch getc ih =>
    unfold rxInd
    split
    next heq =>
      refine ⟨h, (arrive_of_chars_eq_nil h ?_).symm⟩
      simp [chars, heq]
    next hne =>
      obtain ⟨hinv, hq⟩ := ih (recv_inv h ch)
      refine ⟨hinv, hq.trans ?_⟩
      unfold arrive
      rw [recv_queue h, Ring.newest_newest_append, List.append_assoc, chars_cons hne,
        List.singleton_append]

theorem take_eq_none_iff (h : f.IntInv bufsz) : f.take bufsz = none ↔ f.queue bufsz = [] := by
  have hempty : f.queue bufsz = [] ↔ serialFifoCalcRecvedLen bufsz f = 0 := by
    rw [← List.length_eq_zero_iff, length_queue]
  have hpos := Nat.zero_lt_of_lt h.inBuffer.get
  rw [hempty, calcRecvedLen_eq h.inBuffer]
  unfold RxFifo.take
  by_cases hpg : f.putIndex = f.getIndex
  · cases hf : f.isFull with
    | false => simp [hpg, Ring.distance]
    | true => simp [hpg]; omega
  · have hne : f.getIndex.toNat ≠ f.putIndex.toNat := fun heq =>
      hpg (BitVec.eq_of_toNat_eq heq.symm)
    simp [hpg, Ne.symm hpg, Ring.distance_eq_zero_iff h.inBuffer.get, hne]

/-- A round takes the oldest byte. -/
theorem take_eq_some (h : f.IntInv bufsz) {ch : BitVec 8} {g : RxFifo}
    (ht : f.take bufsz = some (ch, g)) :
    g.IntInv bufsz ∧ f.queue bufsz = ch :: g.queue bufsz := by
  have hget := h.inBuffer.get
  have hne : f.queue bufsz ≠ [] := by
    intro hq
    rw [(take_eq_none_iff h).mpr hq] at ht
    cases ht
  have hlen : 0 < serialFifoCalcRecvedLen bufsz f := by
    rw [← length_queue]
    exact List.length_pos_iff.mpr hne
  have hle := calcRecvedLen_le h.inBuffer
  have hend := getIndex_add_len h.inBuffer
  unfold RxFifo.take at ht
  split at ht
  case isTrue => cases ht
  case isFalse =>
    obtain ⟨rfl, rfl⟩ := Prod.mk.inj (Option.some.inj ht)
    have hinv : RxFifo.IntInv bufsz
        { f with getIndex := advance bufsz f.getIndex, isFull := false } :=
      ⟨⟨h.inBuffer.put, advance_lt hget⟩, fun h => nomatch h⟩
    have hlen' : serialFifoCalcRecvedLen bufsz
        { f with getIndex := advance bufsz f.getIndex, isFull := false } =
          serialFifoCalcRecvedLen bufsz f - 1 := by
      refine calcRecvedLen_of_lt hinv.inBuffer (by omega) ?_ fun _ => rfl
      dsimp only
      rw [toNat_advance hget, Nat.mod_add_mod, Nat.add_assoc, Nat.add_sub_cancel' hlen, hend]
    refine ⟨hinv, ?_⟩
    unfold RxFifo.queue
    rw [hlen']
    dsimp only
    conv_lhs => rw [← Nat.sub_add_cancel hlen, Ring.content_cons, Nat.mod_eq_of_lt hget]
    rw [toNat_advance hget, Ring.content_mod]

/-- A read, with interrupts between its rounds, is a read of the queue. -/
theorem serialIntRx_queue (h : f.IntInv bufsz) (length : Nat) (isr : List (List (BitVec 32))) :
    (serialIntRx bufsz length isr f).2.IntInv bufsz ∧
      ((serialIntRx bufsz length isr f).1, (serialIntRx bufsz length isr f).2.queue bufsz) =
        readQueue bufsz length isr (f.queue bufsz) := by
  induction length generalizing f isr with
  | zero => exact ⟨h, rfl⟩
  | succ length ih =>
    unfold serialIntRx
    split
    next ht =>
      refine ⟨h, ?_⟩
      rw [(take_eq_none_iff h).mp ht, readQueue]
    next ch g ht =>
      obtain ⟨hg, hq⟩ := take_eq_some h ht
      obtain ⟨hr, hrq⟩ := rxInd_queue hg (isr.headD [])
      obtain ⟨hinv, hread⟩ := ih hr isr.tail
      refine ⟨hinv, ?_⟩
      rw [hq, readQueue, ← hrq, ← hread]

/-! ## Runs -/

/-- An interrupt, or a read with the interrupts between its rounds. -/
inductive FifoEvent where
  | rxInd (getc : List (BitVec 32))
  | read (length : Nat) (isr : List (List (BitVec 32)))
  deriving DecidableEq, Repr

/-- The FIFO, and what the readers have got. -/
def rxStep (bufsz : BitVec 16) (s : RxFifo × List (BitVec 8)) : FifoEvent →
    RxFifo × List (BitVec 8)
  | .rxInd getc => (rxInd bufsz getc s.1, s.2)
  | .read length isr =>
    let r := serialIntRx bufsz length isr s.1
    (r.2, s.2 ++ r.1)

/-- The queue, and what the readers have got. -/
def queueStep (bufsz : BitVec 16) (s : List (BitVec 8) × List (BitVec 8)) : FifoEvent →
    List (BitVec 8) × List (BitVec 8)
  | .rxInd getc => (arrive bufsz getc s.1, s.2)
  | .read length isr =>
    let r := readQueue bufsz length isr s.1
    (r.2, s.2 ++ r.1)

theorem rxStep_queue (h : f.IntInv bufsz) (got : List (BitVec 8)) (e : FifoEvent) :
    (rxStep bufsz (f, got) e).1.IntInv bufsz ∧
      ((rxStep bufsz (f, got) e).1.queue bufsz, (rxStep bufsz (f, got) e).2) =
        queueStep bufsz (f.queue bufsz, got) e := by
  cases e with
  | rxInd getc =>
    obtain ⟨hinv, hq⟩ := rxInd_queue h getc
    exact ⟨hinv, Prod.ext hq rfl⟩
  | read length isr =>
    obtain ⟨hinv, hread⟩ := serialIntRx_queue h length isr
    refine ⟨hinv, ?_⟩
    simp only [rxStep, queueStep, ← hread]

/-- For every buffer size but 0 and every order of interrupts and reads: what the readers get, and
    what is left, is what the queue gives. -/
theorem rx_run_refines (bufsz : BitVec 16) (hpos : 0 < bufsz.toNat) (events : List FifoEvent) :
    let s := events.foldl (rxStep bufsz) (rtSerialOpenRx, [])
    (s.1.queue bufsz, s.2) = events.foldl (queueStep bufsz) ([], []) := by
  suffices hrun : ∀ (f : RxFifo) (got : List (BitVec 8)), f.IntInv bufsz →
      ((events.foldl (rxStep bufsz) (f, got)).1.queue bufsz,
        (events.foldl (rxStep bufsz) (f, got)).2) =
          events.foldl (queueStep bufsz) (f.queue bufsz, got) by
    have hopen : rtSerialOpenRx.queue bufsz = [] := rfl
    rw [← hopen]
    exact hrun rtSerialOpenRx [] (intInv_open hpos)
  induction events with
  | nil => exact fun _ _ _ => rfl
  | cons e events ih =>
    intro f got h
    obtain ⟨hinv, hq⟩ := rxStep_queue h got e
    rw [List.foldl_cons, List.foldl_cons, ← hq]
    exact ih _ _ hinv

/-- Three cells keep two bytes: the oldest of four are forgotten, and one that comes during the
    read is read. -/
theorem rx_run_refines_three :
    let events := [FifoEvent.rxInd [1, 2, 3, 4], .read 9 [[5]]]
    let s := events.foldl (rxStep 3) (rtSerialOpenRx, [])
    (s.1.queue 3, s.2) = ([], [3, 4, 5]) :=
  (rx_run_refines 3 (by decide) _).trans (by decide)

end Live2dStm32.Serial
