import Live2dStm32.Lib.Tiling
import Live2dStm32.Spi.Xfer

/-
  The memory `spixfer` hands to the HAL and to `memset`, as offsets in the caller's buffers.

  `moved_iff`: with every transfer a success, the chunks cut the buffers from the first byte to
  the last exactly when the items are bytes, or the message is a single chunk that is sent (or
  empty). The chunk address advances by the number of items, and `memset` fills that many bytes.

  `insideOk_iff`: with any transfers failing, every range stays inside the buffers exactly when
  no chunk but the last fails. A failure sets `message->length` to 0, and the next chunk is
  addressed from there: as many bytes before the buffer as are left to transfer.
-/

namespace Live2dStm32.Spi

open Live2dStm32.Lib

/-- The offset of an address in a buffer, round the address space. -/
def offset (buf ptr : BitVec 32) : Nat := (ptr - buf).toNat

/-- The `n` bytes at `ptr` are in the buffer. -/
def InBuf (buf : BitVec 32) (length : Nat) (ptr : BitVec 32) (n : Nat) : Prop :=
  offset buf ptr + n ≤ length

/-- In terms of addresses, for a buffer that ends inside the address space. -/
theorem inBuf_iff {buf ptr : BitVec 32} {length n : Nat} (hbuf : buf.toNat + length ≤ 2 ^ 32)
    (hn : 0 < n) : InBuf buf length ptr n ↔
      buf.toNat ≤ ptr.toNat ∧ ptr.toNat + n ≤ buf.toNat + length := by
  unfold InBuf offset
  rw [BitVec.toNat_sub]
  have hp := ptr.isLt
  have hb := buf.isLt
  omega

/-- What a chunk sends and receives, as offset and number of bytes. -/
def Chunk.sent (message : RtSpiMessage) (bytes : Nat) (c : Chunk) : Nat × Nat :=
  (offset message.sendBuf c.sendBuf, c.size.toNat * bytes)

def Chunk.received (message : RtSpiMessage) (bytes : Nat) (c : Chunk) : Nat × Nat :=
  (offset message.recvBuf c.recvBuf, c.size.toNat * bytes)

variable {drv : Stm32Spi} {message : RtSpiMessage} {x : Nat → HalXfer}

@[simp] theorem offset_sendBuf (y : HalXfer) (already : BitVec 32) (size : BitVec 16) :
    offset message.sendBuf (chunk drv message y already size).sendBuf = already.toNat := by
  unfold chunk offset
  rw [add_sub_self_left]

@[simp] theorem offset_recvBuf (y : HalXfer) (already : BitVec 32) (size : BitVec 16) :
    offset message.recvBuf (chunk drv message y already size).recvBuf = already.toNat := by
  unfold chunk offset
  rw [add_sub_self_left]

@[simp] theorem sent_chunk (bytes : Nat) (y : HalXfer) (already : BitVec 32) (size : BitVec 16) :
    (chunk drv message y already size).sent message bytes =
      (already.toNat, size.toNat * bytes) := by
  unfold Chunk.sent
  rw [offset_sendBuf]
  rfl

@[simp] theorem received_chunk (bytes : Nat) (y : HalXfer) (already : BitVec 32)
    (size : BitVec 16) : (chunk drv message y already size).received message bytes =
      (already.toNat, size.toNat * bytes) := by
  unfold Chunk.received
  rw [offset_recvBuf]
  rfl

/-! ## Success -/

/-- What a transfer without a failure should do. -/
structure Moved (drv : Stm32Spi) (message : RtSpiMessage) (r : SpiXfer) : Prop where
  ret : r.ret = message.length
  size : ∀ c ∈ r.chunks, 1 ≤ c.size.toNat ∧ c.size.toNat ≤ 65535
  sent : (halFn drv message).sends = true → Tiles (65535 * drv.dataSize.bytes) 0
    (r.chunks.map (·.sent message drv.dataSize.bytes))
    (message.length.toNat * drv.dataSize.bytes)
  received : (halFn drv message).receives = true → Tiles (65535 * drv.dataSize.bytes) 0
    (r.chunks.map (·.received message drv.dataSize.bytes))
    (message.length.toNat * drv.dataSize.bytes)
  filled : (halFn drv message).sends = false → ∀ c ∈ r.chunks, ∃ n,
    c.fill = some (c.recvBuf, n) ∧ c.size.toNat * drv.dataSize.bytes ≤ n

/-- The chunks of a run without a failure, in items. -/
theorem tiles_of_ok (hok : ∀ i, (x i).status = .ok) (length : BitVec 32) (i : Nat)
    (m : BitVec 32) (hm : m.toNat ≤ length.toNat) :
    Tiles 65535 (length.toNat - m.toNat)
        ((spixferFrom drv message x i m length).1.map (·.sent message 1)) length.toNat ∧
      Tiles 65535 (length.toNat - m.toNat)
        ((spixferFrom drv message x i m length).1.map (·.received message 1)) length.toNat ∧
      (spixferFrom drv message x i m length).2 = length := by
  induction hk : m.toNat using Nat.strongRecOn generalizing i m with
  | ind k ih =>
    by_cases h0 : m = 0
    · subst h0
      rw [spixferFrom_zero, ← hk]
      exact ⟨rfl, rfl, rfl⟩
    · have hlt := rest_lt h0
      have hrest := rest_toNat m
      obtain ⟨hs, hr, hl⟩ := ih (rest m).toNat (hk ▸ hlt) (i + 1) (rest m) (by omega) rfl
      have hpos : 0 < m.toNat := BitVec.toNat_pos_of_ne_zero h0
      have hoff : (length - m).toNat = length.toNat - k := by
        rw [BitVec.toNat_sub_of_le hm, hk]
      have hnext : length.toNat - k + (sendLength m).toNat * 1 =
          length.toNat - (rest m).toNat := by
        rw [sendLength_toNat, hrest]
        omega
      have hsize : 1 ≤ (sendLength m).toNat * 1 ∧ (sendLength m).toNat * 1 ≤ 65535 := by
        rw [sendLength_toNat]
        omega
      rw [spixferFrom_of_ne h0, if_neg (not_not.mpr (hok i))]
      simp only [List.map_cons, sent_chunk, received_chunk]
      exact ⟨⟨hoff, hsize.1, hsize.2, hnext ▸ hs⟩, ⟨hoff, hsize.1, hsize.2, hnext ▸ hr⟩, hl⟩

/-- Chunks are never empty, and a receive that sends nothing fills its chunk first. -/
theorem chunk_size (i : Nat) (m length : BitVec 32) :
    ∀ c ∈ (spixferFrom drv message x i m length).1, 1 ≤ c.size.toNat ∧ c.size.toNat ≤ 65535 ∧
      c.fill = if (halFn drv message).sends then none else some (c.recvBuf, c.size.toNat) := by
  induction hk : m.toNat using Nat.strongRecOn generalizing i m length with
  | ind k ih =>
    by_cases h0 : m = 0
    · subst h0
      rw [spixferFrom_zero]
      exact fun _ h => nomatch h
    · have hpos : 0 < m.toNat := BitVec.toNat_pos_of_ne_zero h0
      rw [spixferFrom_of_ne h0]
      intro c hc
      rcases List.mem_cons.mp hc with rfl | hc
      · have hsize := sendLength_toNat m
        refine ⟨?_, ?_, rfl⟩
        · change 1 ≤ (sendLength m).toNat
          omega
        · change (sendLength m).toNat ≤ 65535
          omega
      · exact ih (rest m).toNat (hk ▸ rest_lt h0) (i + 1) (rest m) _ rfl c hc

/-- A message of one chunk. -/
theorem spixfer_single (hok : ∀ i, (x i).status = .ok) (h0 : message.length ≠ 0)
    (h : message.length.toNat ≤ 65535) : (spixfer drv message x).ret = message.length ∧
      (spixfer drv message x).chunks =
        [chunk drv message (x 0) 0 (sendLength message.length)] := by
  unfold spixfer
  rw [spixferFrom_of_ne h0, rest_eq_zero_iff.mpr h, spixferFrom_zero, if_neg (not_not.mpr (hok 0)),
    BitVec.sub_self]
  exact ⟨rfl, rfl⟩

/-- A message of several chunks starts with one of 65535 items and another 65535 bytes on. -/
theorem spixfer_several (hok : ∀ i, (x i).status = .ok) (h : 65535 < message.length.toNat) :
    ∃ size chunks, (spixfer drv message x).chunks =
      chunk drv message (x 0) 0 (sendLength message.length) ::
        chunk drv message (x 1) 65535 size :: chunks := by
  have h0 : message.length ≠ 0 := fun h0 => by rw [h0] at h; exact absurd h (by decide)
  have hr : (rest message.length).toNat = message.length.toNat - 65535 := by
    rw [rest_toNat, Nat.min_eq_right (Nat.le_of_lt h)]
  have hr0 : rest message.length ≠ 0 := fun h0 => Nat.not_le.mpr h (rest_eq_zero_iff.mp h0)
  have hoff : message.length - rest message.length = 65535 := by
    apply BitVec.eq_of_toNat_eq
    have hle : rest message.length ≤ message.length := by rw [BitVec.le_def, hr]; omega
    rw [BitVec.toNat_sub_of_le hle, hr]
    change _ = 65535
    omega
  unfold spixfer
  rw [spixferFrom_of_ne h0, if_neg (not_not.mpr (hok 0)), spixferFrom_of_ne hr0, hoff,
    BitVec.sub_self]
  exact ⟨_, _, rfl⟩

theorem chunks_ne_nil (h0 : message.length ≠ 0) : ∃ c, c ∈ (spixfer drv message x).chunks := by
  unfold spixfer
  rw [spixferFrom_of_ne h0]
  exact ⟨_, List.mem_cons_self⟩

/-- Nothing to move. -/
theorem moved_zero (h0 : message.length = 0) : Moved drv message (spixfer drv message x) := by
  have hret : (spixfer drv message x).ret = 0 := by
    unfold spixfer
    rw [h0, spixferFrom_zero]
  have hchunks : (spixfer drv message x).chunks = [] := by
    unfold spixfer
    rw [h0, spixferFrom_zero]
  have hn : message.length.toNat * drv.dataSize.bytes = 0 := by
    rw [h0]
    exact Nat.zero_mul _
  constructor
  case ret => rw [hret, h0]
  case size => rw [hchunks]; exact fun _ h => nomatch h
  case sent => rw [hchunks, hn]; exact fun _ => rfl
  case received => rw [hchunks, hn]; exact fun _ => rfl
  case filled => rw [hchunks]; exact fun _ _ h => nomatch h

/-- Items of one byte. -/
theorem moved_bits8 (hd : drv.dataSize = .bits8) (hok : ∀ i, (x i).status = .ok) :
    Moved drv message (spixfer drv message x) := by
  obtain ⟨hs, hr, hl⟩ := @tiles_of_ok drv message x hok message.length 0
    message.length (Nat.le_refl _)
  rw [Nat.sub_self] at hs hr
  have hb : drv.dataSize.bytes = 1 := by rw [hd]; rfl
  have hsize := @chunk_size drv message x 0 message.length
    message.length
  refine ⟨hl, fun c hc => ⟨(hsize c hc).1, (hsize c hc).2.1⟩, fun _ => ?_, fun _ => ?_,
    fun hn c hc => ⟨c.size.toNat, ?_, ?_⟩⟩
  · rw [hb, Nat.mul_one, Nat.mul_one]
    exact hs
  · rw [hb, Nat.mul_one, Nat.mul_one]
    exact hr
  · rw [(hsize c hc).2.2, hn]
    rfl
  · rw [hb, Nat.mul_one]

/-- One chunk, of items of any size. -/
theorem moved_single (hok : ∀ i, (x i).status = .ok) (h0 : message.length ≠ 0)
    (h : message.length.toNat ≤ 65535) (hs : message.sendBuf ≠ 0) :
    Moved drv message (spixfer drv message x) := by
  obtain ⟨hret, hchunks⟩ := @spixfer_single drv message x hok h0 h
  have hpos : 0 < message.length.toNat := BitVec.toNat_pos_of_ne_zero h0
  have hsize : (sendLength message.length).toNat = message.length.toNat := by
    rw [sendLength_toNat, Nat.min_eq_left h]
  have hb : 1 ≤ drv.dataSize.bytes := by cases drv.dataSize <;> decide
  have htile : Tiles (65535 * drv.dataSize.bytes) 0
      [((0 : BitVec 32).toNat, message.length.toNat * drv.dataSize.bytes)]
      (message.length.toNat * drv.dataSize.bytes) :=
    ⟨rfl, Nat.mul_pos hpos hb, Nat.mul_le_mul_right _ h, Nat.zero_add _⟩
  constructor
  case ret => exact hret
  case size =>
    rw [hchunks]
    intro c hc
    rw [List.mem_singleton.mp hc]
    change 1 ≤ (sendLength message.length).toNat ∧ (sendLength message.length).toNat ≤ 65535
    omega
  case sent =>
    intro _
    rw [hchunks, List.map_singleton, sent_chunk, hsize]
    exact htile
  case received =>
    intro _
    rw [hchunks, List.map_singleton, received_chunk, hsize]
    exact htile
  case filled =>
    intro hn
    rw [(sends_iff drv message).mpr hs] at hn
    cases hn

/-- With items of two bytes, a message that is only received is filled half. -/
theorem sendBuf_of_moved (hd : drv.dataSize = .bits16) (h0 : message.length ≠ 0)
    (h : Moved drv message (spixfer drv message x)) : message.sendBuf ≠ 0 := by
  intro hs
  have hn : (halFn drv message).sends = false := by
    rw [← Bool.not_eq_true, sends_iff]
    exact not_not.mpr hs
  obtain ⟨c, hc⟩ := @chunks_ne_nil drv message x h0
  obtain ⟨n, hfill, hle⟩ := h.filled hn c hc
  obtain ⟨hpos, -, hsize⟩ := chunk_size 0 message.length message.length c hc
  rw [hsize, hn, if_neg Bool.false_ne_true, Option.some.injEq, Prod.mk.injEq] at hfill
  rw [← hfill.2, hd] at hle
  change c.size.toNat * 2 ≤ c.size.toNat at hle
  omega

/-- With items of two bytes, the second chunk overlaps the first. -/
theorem single_of_moved (hd : drv.dataSize = .bits16) (hok : ∀ i, (x i).status = .ok)
    (h : Moved drv message (spixfer drv message x)) : message.length.toNat ≤ 65535 := by
  by_contra hlt
  have hlt : 65535 < message.length.toNat := Nat.lt_of_not_le hlt
  obtain ⟨size, chunks, hchunks⟩ := @spixfer_several drv message x hok hlt
  have hfirst : (sendLength message.length).toNat = 65535 := by
    rw [sendLength_toNat, Nat.min_eq_right (Nat.le_of_lt hlt)]
  have hgap : (65535 : BitVec 32).toNat ≠ 0 + 65535 * DataSize.bytes .bits16 := by decide
  cases hs : (halFn drv message).sends with
  | true =>
    have ht := h.sent hs
    simp only [hchunks, List.map_cons, sent_chunk, hfirst, hd] at ht
    exact hgap ht.2.2.2.1
  | false =>
    have ht := h.received (receives_of_not_sends hs)
    simp only [hchunks, List.map_cons, received_chunk, hfirst, hd] at ht
    exact hgap ht.2.2.2.1

/-- For every message, with every transfer a success: the chunks move the message exactly when
    an item is a byte, or there is nothing to move, or one chunk of a message that is sent. -/
theorem moved_iff (drv : Stm32Spi) (message : RtSpiMessage) (x : Nat → HalXfer)
    (hok : ∀ i, (x i).status = .ok) : Moved drv message (spixfer drv message x) ↔
      drv.dataSize = .bits8 ∨ message.length = 0 ∨
        message.sendBuf ≠ 0 ∧ message.length.toNat ≤ 65535 := by
  constructor
  · intro h
    cases hd : drv.dataSize with
    | bits8 => exact Or.inl rfl
    | bits16 =>
      by_cases h0 : message.length = 0
      · exact Or.inr (Or.inl h0)
      · exact Or.inr (Or.inr ⟨sendBuf_of_moved hd h0 h, single_of_moved hd hok h⟩)
  · rintro (hd | h0 | ⟨hs, hle⟩)
    · exact moved_bits8 hd hok
    · exact moved_zero h0
    · by_cases h0 : message.length = 0
      · exact moved_zero h0
      · exact moved_single hok h0 hle hs

/-- Every transfer succeeds, and is over at the first poll. -/
def allOk : Nat → HalXfer := fun _ => ⟨.ok, fun _ => true, 0, rfl⟩

theorem moved_iff_allOk : let message : RtSpiMessage := ⟨0x20000000, 0, 70000, true, true⟩
    (∀ i, (allOk i).status = .ok) ∧
      Moved ⟨true, false, .bits8⟩ message (spixfer ⟨true, false, .bits8⟩ message allOk) :=
  ⟨fun _ => rfl, (moved_iff _ _ allOk fun _ => rfl).mpr (Or.inl rfl)⟩

/-- 65536 items of two bytes to send: the second chunk starts 65535 bytes on, inside the first,
    and the last two bytes of the message are never sent. -/
theorem moved_fails_bits16 : let message : RtSpiMessage := ⟨0x20000000, 0, 65536, true, true⟩
    (∀ i, (allOk i).status = .ok) ∧
      ¬ Moved ⟨true, false, .bits16⟩ message (spixfer ⟨true, false, .bits16⟩ message allOk) :=
  ⟨fun _ => rfl, fun h =>
    absurd (@single_of_moved ⟨true, false, .bits16⟩ _ _ rfl (fun _ => rfl) h) (by decide)⟩

/-! ## Failure -/

/-- What any transfer should do: stay in the buffers, and return 0 for a failure. -/
structure InsideOk (drv : Stm32Spi) (message : RtSpiMessage) (x : Nat → HalXfer) : Prop where
  sent : (halFn drv message).sends = true → ∀ c ∈ (spixfer drv message x).chunks,
    InBuf message.sendBuf (message.length.toNat * drv.dataSize.bytes) c.sendBuf
      (c.size.toNat * drv.dataSize.bytes)
  received : (halFn drv message).receives = true → ∀ c ∈ (spixfer drv message x).chunks,
    InBuf message.recvBuf (message.length.toNat * drv.dataSize.bytes) c.recvBuf
      (c.size.toNat * drv.dataSize.bytes)
  filled : ∀ c ∈ (spixfer drv message x).chunks, ∀ ptr n, c.fill = some (ptr, n) →
    InBuf message.recvBuf (message.length.toNat * drv.dataSize.bytes) ptr n
  ret : message.length ≠ 0 → ((spixfer drv message x).ret = 0 ↔
    ∃ k < (spixfer drv message x).chunks.length, (x k).status ≠ .ok)

/-- The end of a chunk, as offset in both buffers. -/
def EndsAt (message : RtSpiMessage) (c : Chunk) (e : Nat) : Prop :=
  offset message.sendBuf c.sendBuf + c.size.toNat = e ∧
    offset message.recvBuf c.recvBuf + c.size.toNat = e

theorem endsAt_chunk (y : HalXfer) (already : BitVec 32) (size : BitVec 16) :
    EndsAt message (chunk drv message y already size) (already.toNat + size.toNat) := by
  refine ⟨?_, ?_⟩
  · rw [offset_sendBuf]
    rfl
  · rw [offset_recvBuf]
    rfl

/-- Where items are bytes, a chunk is in the buffers when its end is. -/
theorem EndsAt.inBuf_send_iff {c : Chunk} {e length : Nat} (h : EndsAt message c e) :
    InBuf message.sendBuf (length * DataSize.bytes .bits8) c.sendBuf
      (c.size.toNat * DataSize.bytes .bits8) ↔ e ≤ length := by
  rw [InBuf, DataSize.bytes, Nat.mul_one, Nat.mul_one, h.1]

theorem EndsAt.inBuf_recv_iff {c : Chunk} {e length : Nat} (h : EndsAt message c e) :
    InBuf message.recvBuf (length * DataSize.bytes .bits8) c.recvBuf
      (c.size.toNat * DataSize.bytes .bits8) ↔ e ≤ length := by
  rw [InBuf, DataSize.bytes, Nat.mul_one, Nat.mul_one, h.2]

/-- As long as only the last chunk can fail, every chunk ends in the buffer. -/
theorem chunks_inside (length : BitVec 32) (i : Nat) (m : BitVec 32)
    (hm : m.toNat ≤ length.toNat)
    (hok : ∀ j, i ≤ j → 65535 * (j + 1 - i) < m.toNat → (x j).status = .ok) :
    ∀ c ∈ (spixferFrom drv message x i m length).1, ∃ e ≤ length.toNat, EndsAt message c e := by
  induction hk : m.toNat using Nat.strongRecOn generalizing i m with
  | ind k ih =>
    by_cases h0 : m = 0
    · subst h0
      rw [spixferFrom_zero]
      exact fun _ h => nomatch h
    · have hrest := rest_toNat m
      have hoff : (length - m).toNat = length.toNat - m.toNat := BitVec.toNat_sub_of_le hm
      rw [spixferFrom_of_ne h0]
      intro c hc
      rcases List.mem_cons.mp hc with rfl | hc
      · refine ⟨_, ?_, endsAt_chunk _ _ _⟩
        rw [hoff, sendLength_toNat]
        omega
      · by_cases hlast : m.toNat ≤ 65535
        · rw [rest_eq_zero_iff.mpr hlast, spixferFrom_zero] at hc
          exact absurd hc List.not_mem_nil
        · -- another chunk follows: this one did not fail
          rw [if_neg (not_not.mpr (hok i (Nat.le_refl i) (by omega)))] at hc
          refine ih (rest m).toNat (hk ▸ rest_lt h0) (i + 1) (rest m) (by omega) ?_ rfl c hc
          intro j hj hlt
          exact hok j (by omega) (by omega)

/-- With `message->length` at 0, the last chunk ends at the top of the address space. -/
theorem chunk_outside_zero (i : Nat) (m : BitVec 32) (h0 : m ≠ 0) :
    ∃ c ∈ (spixferFrom drv message x i m 0).1, EndsAt message c (2 ^ 32) := by
  induction hk : m.toNat using Nat.strongRecOn generalizing i m with
  | ind k ih =>
    rw [spixferFrom_of_ne h0, ite_self]
    by_cases hr : rest m = 0
    · have hle : m.toNat ≤ 65535 := rest_eq_zero_iff.mp hr
      have hpos : 0 < m.toNat := BitVec.toNat_pos_of_ne_zero h0
      have hlt : m.toNat < 2 ^ 32 := m.isLt
      have hend : (0 - m).toNat + (sendLength m).toNat = 2 ^ 32 := by
        rw [BitVec.toNat_sub, sendLength_toNat]
        change (2 ^ 32 - m.toNat + 0) % 2 ^ 32 + _ = 2 ^ 32
        omega
      exact ⟨_, List.mem_cons_self, hend ▸ endsAt_chunk _ _ _⟩
    · obtain ⟨c, hc, he⟩ := ih (rest m).toNat (hk ▸ rest_lt h0) (i + 1) (rest m) hr rfl
      exact ⟨c, List.mem_cons_of_mem _ hc, he⟩

/-- So a failure that is not the last chunk's is followed by a chunk outside. -/
theorem chunk_outside (i j : Nat) (m length : BitVec 32) (hij : i ≤ j)
    (hlt : 65535 * (j + 1 - i) < m.toNat) (hfail : (x j).status ≠ .ok) :
    ∃ c ∈ (spixferFrom drv message x i m length).1, EndsAt message c (2 ^ 32) := by
  induction hn : j - i generalizing i m length with
  | zero =>
    have hji : j = i := by omega
    subst hji
    have h0 : m ≠ 0 := fun h => by rw [h] at hlt; exact absurd hlt (Nat.not_lt_zero _)
    have hr : rest m ≠ 0 := fun h => by
      have hle : m.toNat ≤ 65535 := rest_eq_zero_iff.mp h
      omega
    obtain ⟨c, hc, he⟩ := @chunk_outside_zero drv message x (j + 1)
      (rest m) hr
    rw [spixferFrom_of_ne h0, if_pos hfail]
    exact ⟨c, List.mem_cons_of_mem _ hc, he⟩
  | succ n ih =>
    have hrest := rest_toNat m
    have h0 : m ≠ 0 := fun h => by rw [h] at hlt; exact absurd hlt (Nat.not_lt_zero _)
    obtain ⟨c, hc, he⟩ := ih (i + 1) (rest m) (if (x i).status ≠ .ok then 0 else length)
      (by omega) (by omega) (by omega)
    rw [spixferFrom_of_ne h0]
    exact ⟨c, List.mem_cons_of_mem _ hc, he⟩

/-- What is left in `message->length`: 0 after a failure. -/
theorem spixferFrom_snd_eq_zero_iff (i : Nat) (m length : BitVec 32) :
    (spixferFrom drv message x i m length).2 = 0 ↔ length = 0 ∨
      ∃ k < (spixferFrom drv message x i m length).1.length, (x (i + k)).status ≠ .ok := by
  induction hk : m.toNat using Nat.strongRecOn generalizing i m length with
  | ind k ih =>
    by_cases h0 : m = 0
    · subst h0
      rw [spixferFrom_zero]
      exact ⟨Or.inl, fun h => h.resolve_right fun ⟨_, hlt, _⟩ => absurd hlt (Nat.not_lt_zero _)⟩
    · have ih' := ih (rest m).toNat (hk ▸ rest_lt h0) (i + 1) (rest m)
        (if (x i).status ≠ .ok then 0 else length) rfl
      rw [spixferFrom_of_ne h0]
      rw [ih']
      constructor
      · rintro (hl | ⟨n, hn, hf⟩)
        · by_cases hf : (x i).status = .ok
          · rw [if_neg (not_not.mpr hf)] at hl
            exact Or.inl hl
          · exact Or.inr ⟨0, Nat.succ_pos _, hf⟩
        · refine Or.inr ⟨n + 1, Nat.succ_lt_succ hn, ?_⟩
          rwa [← Nat.add_assoc, Nat.add_right_comm]
      · rintro (hl | ⟨n, hn, hf⟩)
        · refine Or.inl ?_
          rw [hl, ite_self]
        · cases n with
          | zero => exact Or.inl (if_pos hf)
          | succ n =>
            refine Or.inr ⟨n, Nat.lt_of_succ_lt_succ hn, ?_⟩
            rwa [← Nat.add_assoc, Nat.add_right_comm] at hf

/-- `spixfer` returns 0 for a failure, whatever it did to memory. -/
theorem spixfer_ret (h0 : message.length ≠ 0) : (spixfer drv message x).ret = 0 ↔
    ∃ k < (spixfer drv message x).chunks.length, (x k).status ≠ .ok := by
  have h := @spixferFrom_snd_eq_zero_iff drv message x 0
    message.length message.length
  simp only [Nat.zero_add, or_iff_right h0] at h
  exact h

/-- For every message of bytes and every pattern of failures: the ranges stay in the buffers
    exactly when no chunk fails that another one follows. -/
theorem insideOk_iff (usingTxDma usingRxDma : Bool) (message : RtSpiMessage)
    (x : Nat → HalXfer) : InsideOk ⟨usingTxDma, usingRxDma, .bits8⟩ message x ↔
      ∀ i, 65535 * (i + 1) < message.length.toNat → (x i).status = .ok := by
  constructor
  · intro h i hlt
    by_contra hfail
    obtain ⟨c, hc, he⟩ := @chunk_outside ⟨usingTxDma, usingRxDma, .bits8⟩
      message x 0 i message.length message.length (Nat.zero_le i) hlt hfail
    have hlen : ¬ 2 ^ 32 ≤ message.length.toNat := Nat.not_le.mpr message.length.isLt
    cases hs : (halFn ⟨usingTxDma, usingRxDma, .bits8⟩ message).sends with
    | true => exact hlen (he.inBuf_send_iff.mp (h.sent hs c hc))
    | false =>
      exact hlen (he.inBuf_recv_iff.mp (h.received (receives_of_not_sends hs) c hc))
  · intro hok
    have hin := @chunks_inside ⟨usingTxDma, usingRxDma, .bits8⟩ message x
      message.length 0 message.length (Nat.le_refl _) fun j _ => hok j
    constructor
    case sent =>
      intro _ c hc
      obtain ⟨e, he, hend⟩ := hin c hc
      exact hend.inBuf_send_iff.mpr he
    case received =>
      intro _ c hc
      obtain ⟨e, he, hend⟩ := hin c hc
      exact hend.inBuf_recv_iff.mpr he
    case filled =>
      intro c hc ptr n hfill
      obtain ⟨e, he, hend⟩ := hin c hc
      have hsize := (chunk_size 0 message.length message.length c hc).2.2
      rw [hsize, Option.ite_none_left_eq_some, Option.some.injEq, Prod.mk.injEq] at hfill
      obtain ⟨-, rfl, rfl⟩ := hfill
      have hbuf := hend.inBuf_recv_iff.mpr he
      rwa [show c.size.toNat * DataSize.bytes .bits8 = c.size.toNat from Nat.mul_one _] at hbuf
    case ret => exact spixfer_ret

/-- 65536 bytes to send, the first chunk fails: the second takes its byte from the address
    before the buffer. -/
theorem insideOk_fails_first : let message : RtSpiMessage := ⟨0x20000000, 0, 65536, true, true⟩
    let x : Nat → HalXfer := fun i =>
      ⟨if i = 0 then .error else .ok, fun _ => true, 0, rfl⟩
    ¬ InsideOk ⟨false, false, .bits8⟩ message x := by
  intro message x h
  obtain ⟨c, hc, he⟩ := @chunk_outside ⟨false, false, .bits8⟩ message x 0 0 message.length
    message.length (Nat.le_refl 0) (by decide) (by decide)
  have hlen : ¬ 2 ^ 32 ≤ message.length.toNat := by decide
  exact hlen (he.inBuf_send_iff.mp (h.sent (by decide) c hc))

end Live2dStm32.Spi
