import Live2dStm32.Lib.Ring
import Live2dStm32.Lib.Memory

/-
  The ring buffer of src/rt-thread/components/drivers/src/ringbuffer.c. An index goes with a
  mirror bit that flips at each turn: equal indices mean empty or full by their mirrors.
  `Holds rb len` says where `len` bytes leave the two indices and mirrors, and
  `ringbuffer_run`: every run of calls is one of a queue of `bufferSize` bytes, which refuses what
  does not fit (`put`, `putchar`) or forgets its oldest bytes (the `force` calls).

  A size is a positive `rt_int16_t`, an index has 15 bits and a length 16, so no sum the code
  makes of them overflows an `int`, and they are natural numbers here.
-/

namespace Live2dStm32.Serial

open Lib Memory Ring

/-! ## The code -/

structure RtRingbuffer where
  buffer : Memory
  readMirror : Bool
  readIndex : Nat
  writeMirror : Bool
  writeIndex : Nat
  bufferSize : Nat

inductive RingbufferState
  | empty
  | full
  | halffull
  deriving DecidableEq

namespace RtRingbuffer

def status (rb : RtRingbuffer) : RingbufferState :=
  if rb.readIndex = rb.writeIndex then
    if rb.readMirror = rb.writeMirror then .empty else .full
  else .halffull

/-- `rt_ringbuffer_init`; the size is rounded down to words. -/
def init (pool : Memory) (size : Nat) : RtRingbuffer := ⟨pool, false, 0, false, 0, size / 4 * 4⟩

def reset (rb : RtRingbuffer) : RtRingbuffer :=
  { rb with readMirror := false, readIndex := 0, writeMirror := false, writeIndex := 0 }

def dataLen (rb : RtRingbuffer) : Nat :=
  match rb.status with
  | .empty => 0
  | .full => rb.bufferSize
  | .halffull =>
    if rb.writeIndex > rb.readIndex then rb.writeIndex - rb.readIndex
    else rb.bufferSize - (rb.readIndex - rb.writeIndex)

def spaceLen (rb : RtRingbuffer) : Nat := rb.bufferSize - rb.dataLen

/-- The copies of `rt_ringbuffer_put` and `rt_ringbuffer_put_force`, in one piece or around the
    end, and the index behind them. -/
def write (rb : RtRingbuffer) (data : List (BitVec 8)) : RtRingbuffer :=
  let room := rb.bufferSize - rb.writeIndex
  if room > data.length then
    { rb with
      buffer := rb.buffer.store rb.writeIndex data
      writeIndex := rb.writeIndex + data.length }
  else
    { rb with
      buffer := (rb.buffer.store rb.writeIndex (data.take room)).store 0 (data.drop room)
      writeMirror := !rb.writeMirror
      writeIndex := data.length - room }

def put (rb : RtRingbuffer) (data : List (BitVec 8)) : RtRingbuffer × Nat :=
  let size := rb.spaceLen
  if size = 0 then (rb, 0)
  else
    let data := if size < data.length then data.take size else data
    (rb.write data, data.length)

/-- The read index of `rt_ringbuffer_put_force` after it wrote over old bytes; `straight` if it
    did not go around the end. -/
def dropOld (straight : Bool) (rb : RtRingbuffer) : RtRingbuffer :=
  if straight then { rb with readIndex := rb.writeIndex }
  else
    { rb with
      readMirror := if rb.writeIndex ≤ rb.readIndex then !rb.readMirror else rb.readMirror
      readIndex := rb.writeIndex }

def putForce (rb : RtRingbuffer) (data : List (BitVec 8)) : RtRingbuffer × Nat :=
  let data :=
    if data.length > rb.bufferSize then data.drop (data.length - rb.bufferSize) else data
  let straight := decide (rb.bufferSize - rb.writeIndex > data.length)
  (if data.length > rb.spaceLen then dropOld straight (rb.write data) else rb.write data,
    data.length)

/-- The copies of `rt_ringbuffer_get`, and the index behind them. -/
def read (rb : RtRingbuffer) (length : Nat) : RtRingbuffer × List (BitVec 8) :=
  let rest := rb.bufferSize - rb.readIndex
  if rest > length then
    ({ rb with readIndex := rb.readIndex + length }, rb.buffer.load rb.readIndex length)
  else
    ({ rb with readMirror := !rb.readMirror, readIndex := length - rest },
      rb.buffer.load rb.readIndex rest ++ rb.buffer.load 0 (length - rest))

def get (rb : RtRingbuffer) (length : Nat) : RtRingbuffer × List (BitVec 8) :=
  let size := rb.dataLen
  if size = 0 then (rb, []) else rb.read (if size < length then size else length)

/-- The bytes of `rt_ringbuffer_peak` are those its pointer and its result give. -/
def peak (rb : RtRingbuffer) : RtRingbuffer × List (BitVec 8) :=
  let size := rb.dataLen
  if size = 0 then (rb, [])
  else
    let rest := rb.bufferSize - rb.readIndex
    if rest > size then
      ({ rb with readIndex := rb.readIndex + size }, rb.buffer.load rb.readIndex size)
    else
      ({ rb with readMirror := !rb.readMirror, readIndex := 0 },
        rb.buffer.load rb.readIndex rest)

/-- One byte at the write index, which moves on. -/
def writeByte (rb : RtRingbuffer) (ch : BitVec 8) : RtRingbuffer :=
  let buffer := Function.update rb.buffer rb.writeIndex ch
  if rb.writeIndex = rb.bufferSize - 1 then
    { rb with buffer := buffer, writeMirror := !rb.writeMirror, writeIndex := 0 }
  else { rb with buffer := buffer, writeIndex := rb.writeIndex + 1 }

def putchar (rb : RtRingbuffer) (ch : BitVec 8) : RtRingbuffer × Nat :=
  if rb.spaceLen = 0 then (rb, 0) else (rb.writeByte ch, 1)

def putcharForce (rb : RtRingbuffer) (ch : BitVec 8) : RtRingbuffer × Nat :=
  let rb' := rb.writeByte ch
  (if rb.status = .full then
      if rb.writeIndex = rb.bufferSize - 1 then
        { rb' with readMirror := !rb'.readMirror, readIndex := rb'.writeIndex }
      else { rb' with readIndex := rb'.writeIndex }
    else rb', 1)

def getchar (rb : RtRingbuffer) : RtRingbuffer × List (BitVec 8) :=
  if rb.dataLen = 0 then (rb, [])
  else
    let ch := rb.buffer rb.readIndex
    if rb.readIndex = rb.bufferSize - 1 then
      ({ rb with readMirror := !rb.readMirror, readIndex := 0 }, [ch])
    else ({ rb with readIndex := rb.readIndex + 1 }, [ch])

/-! ## Indices and mirrors -/

variable {rb : RtRingbuffer} {len : Nat} {data : List (BitVec 8)}

/-- The indices and mirrors when `len` bytes are in the ring. -/
structure Holds (rb : RtRingbuffer) (len : Nat) : Prop where
  readIndex : rb.readIndex < rb.bufferSize
  fits : len ≤ rb.bufferSize
  writeIndex : rb.writeIndex =
    if rb.readIndex + len < rb.bufferSize then rb.readIndex + len
    else rb.readIndex + len - rb.bufferSize
  mirror : rb.readMirror = rb.writeMirror ↔ rb.readIndex + len < rb.bufferSize

theorem Holds.dataLen (h : Holds rb len) : rb.dataLen = len := by
  obtain ⟨hread, hfits, hwrite, hmirror⟩ := h
  unfold RtRingbuffer.dataLen status
  by_cases heq : rb.readIndex = rb.writeIndex
  · rw [if_pos heq]
    by_cases hm : rb.readMirror = rb.writeMirror
    · rw [if_pos hm]
      rw [if_pos (hmirror.mp hm)] at hwrite
      dsimp only
      omega
    · have hge : ¬ rb.readIndex + len < rb.bufferSize := fun hlt => hm (hmirror.mpr hlt)
      rw [if_neg hm]
      rw [if_neg hge] at hwrite
      dsimp only
      omega
  · rw [if_neg heq]
    dsimp only
    split at hwrite <;> split <;> omega

theorem holds_init (pool : Memory) {size : Nat} (h : 4 ≤ size) : Holds (init pool size) 0 := by
  have hpos : 0 < size / 4 * 4 := by omega
  exact ⟨hpos, Nat.zero_le _, (if_pos hpos).symm, iff_of_true rfl hpos⟩

theorem Holds.writeIndex_lt (h : Holds rb len) : rb.writeIndex < rb.bufferSize := by
  have hread := h.readIndex
  have hle := h.fits
  rw [h.writeIndex]
  split <;> omega

theorem Holds.writeIndex_mod (h : Holds rb len) :
    rb.writeIndex = (rb.readIndex + len) % rb.bufferSize := by
  rw [h.writeIndex, add_mod_eq h.readIndex h.fits]

@[simp] theorem write_readIndex : (rb.write data).readIndex = rb.readIndex := by
  unfold write
  dsimp only
  split <;> rfl

@[simp] theorem write_bufferSize : (rb.write data).bufferSize = rb.bufferSize := by
  unfold write
  dsimp only
  split <;> rfl

@[simp] theorem write_readMirror : (rb.write data).readMirror = rb.readMirror := by
  unfold write
  dsimp only
  split <;> rfl

theorem write_writeIndex (hw : rb.writeIndex < rb.bufferSize) :
    (rb.write data).writeIndex =
      if rb.writeIndex + data.length < rb.bufferSize then rb.writeIndex + data.length
      else rb.writeIndex + data.length - rb.bufferSize := by
  unfold write
  dsimp only
  split <;> split <;> dsimp only <;> omega

theorem write_writeMirror (hw : rb.writeIndex < rb.bufferSize) :
    (rb.write data).writeMirror =
      if rb.writeIndex + data.length < rb.bufferSize then rb.writeMirror else !rb.writeMirror := by
  unfold write
  dsimp only
  split <;> split <;> first | rfl | omega

/-- What fits is behind the bytes that were there. -/
theorem Holds.write (h : Holds rb len) (hfit : len + data.length ≤ rb.bufferSize) :
    Holds (rb.write data) (len + data.length) := by
  have hw := h.writeIndex_lt
  have hread := h.readIndex
  have hwrite := h.writeIndex
  have hmirror := h.mirror
  refine ⟨by simpa using h.readIndex, by simpa using hfit, ?_, ?_⟩
  · rw [write_writeIndex hw, write_readIndex, write_bufferSize]
    split at hwrite <;> split <;> split <;> omega
  · rw [write_writeMirror hw, write_readMirror, write_readIndex, write_bufferSize]
    by_cases hlt : rb.readIndex + len < rb.bufferSize
    · rw [if_pos hlt] at hwrite
      rw [← hmirror.mpr hlt, hwrite, Nat.add_assoc]
      split
      next h => exact iff_of_true rfl h
      next h => exact iff_of_false (fun heq => (Bool.eq_not_self _).mp heq) h
    · rw [if_neg hlt] at hwrite
      rw [if_pos (by omega)]
      exact ⟨fun heq => absurd (hmirror.mp heq) hlt, fun h => absurd h (by omega)⟩

/-- Reading moves the read index over as many bytes. -/
theorem Holds.read (h : Holds rb len) {k : Nat} (hk : k ≤ len) {rb' : RtRingbuffer}
    (hw : rb'.writeIndex = rb.writeIndex) (hm : rb'.writeMirror = rb.writeMirror)
    (hn : rb'.bufferSize = rb.bufferSize)
    (hr : if rb.bufferSize - rb.readIndex > k then
        rb'.readIndex = rb.readIndex + k ∧ rb'.readMirror = rb.readMirror
      else rb'.readIndex = k - (rb.bufferSize - rb.readIndex) ∧ rb'.readMirror = !rb.readMirror) :
    Holds rb' (len - k) := by
  obtain ⟨hread, hfits, hwrite, hmirror⟩ := h
  split at hr
  next hlt =>
    obtain ⟨hri, hrm⟩ := hr
    have hsum : rb'.readIndex + (len - k) = rb.readIndex + len := by omega
    exact ⟨by omega, by omega, by rw [hw, hn, hsum, hwrite], by rw [hm, hn, hrm, hsum, hmirror]⟩
  next hge =>
    obtain ⟨hri, hrm⟩ := hr
    have hsum : rb'.readIndex + (len - k) = rb.readIndex + len - rb.bufferSize := by omega
    have hno : ¬ rb.readIndex + len < rb.bufferSize := by omega
    refine ⟨by omega, by omega, ?_, ?_⟩
    · rw [if_neg hno] at hwrite
      rw [hw, hn, hsum, hwrite, if_pos (by omega)]
    · have hne : rb.readMirror ≠ rb.writeMirror := fun heq => hno (hmirror.mp heq)
      rw [hm, hn, hrm, hsum]
      exact iff_of_true (Bool.not_eq.mpr hne) (by omega)

/-! ## Bytes -/

/-- What is in the ring, oldest first. -/
def items (rb : RtRingbuffer) : List (BitVec 8) :=
  content rb.bufferSize rb.buffer rb.readIndex rb.dataLen

theorem Holds.items (h : Holds rb len) :
    rb.items = content rb.bufferSize rb.buffer rb.readIndex len := by
  rw [RtRingbuffer.items, h.dataLen]

theorem Holds.length_items (h : Holds rb len) : rb.items.length = len := by
  rw [h.items, length_content]

/-- The cells from the write index on, around the end, are the data and then what they were. -/
theorem write_cell (hw : rb.writeIndex < rb.bufferSize) (hk : data.length ≤ rb.bufferSize)
    {i : Nat} (hi : i < rb.bufferSize) :
    (rb.write data).buffer ((rb.writeIndex + i) % rb.bufferSize) =
      data[i]?.getD (rb.buffer ((rb.writeIndex + i) % rb.bufferSize)) := by
  rw [add_mod_eq hw (Nat.le_of_lt hi)]
  unfold RtRingbuffer.write
  dsimp only
  by_cases hin : i < data.length
  · rw [List.getElem?_eq_getElem hin, Option.getD_some]
    split
    next hroom =>
      rw [if_pos (by omega)]
      exact store_add hin
    next hroom =>
      split
      next hlt =>
        have htake : i < (data.take (rb.bufferSize - rb.writeIndex)).length := by simp; omega
        dsimp only
        rw [store_of_ge (by simp; omega), store_add htake, List.getElem_take]
      next hge =>
        have hdrop : rb.writeIndex + i - rb.bufferSize <
            (data.drop (rb.bufferSize - rb.writeIndex)).length := by simp; omega
        have hat := store_add (m := rb.buffer.store rb.writeIndex
          (data.take (rb.bufferSize - rb.writeIndex))) (a := 0) hdrop
        rw [Nat.zero_add] at hat
        refine hat.trans ?_
        rw [List.getElem_drop]
        congr 1
        omega
  · rw [List.getElem?_eq_none (Nat.not_lt.mp hin), Option.getD_none]
    split
    next hroom =>
      apply store_outside
      split <;> omega
    next hroom =>
      dsimp only
      rw [if_neg (by omega), store_of_ge (by simp; omega), store_of_lt (by omega)]

theorem content_write_new (hw : rb.writeIndex < rb.bufferSize)
    (hk : data.length ≤ rb.bufferSize) :
    content rb.bufferSize (rb.write data).buffer rb.writeIndex data.length = data := by
  apply List.ext_getElem (by simp) fun i hi hi' => ?_
  have hcell := write_cell hw hk (Nat.lt_of_lt_of_le hi' hk)
  rw [List.getElem?_eq_getElem hi', Option.getD_some] at hcell
  simpa [content] using hcell

theorem content_write_old (hw : rb.writeIndex < rb.bufferSize)
    (hk : data.length ≤ rb.bufferSize) {j l : Nat} (hj : data.length ≤ j)
    (hl : j + l ≤ rb.bufferSize) :
    content rb.bufferSize (rb.write data).buffer (rb.writeIndex + j) l =
      content rb.bufferSize rb.buffer (rb.writeIndex + j) l := by
  apply content_congr fun i hi => ?_
  rw [Nat.add_assoc, write_cell hw hk (by omega), List.getElem?_eq_none (by omega),
    Option.getD_none]

/-- What fits goes behind what was there. -/
theorem write_items (h : Holds rb len) (hfit : len + data.length ≤ rb.bufferSize) :
    (rb.write data).items = rb.items ++ data := by
  have hw := h.writeIndex_lt
  have hread : (rb.writeIndex + (rb.bufferSize - len)) % rb.bufferSize = rb.readIndex := by
    rw [h.writeIndex_mod, Nat.mod_add_mod, Nat.add_assoc, Nat.add_sub_cancel' h.fits,
      Nat.add_mod_right, Nat.mod_eq_of_lt h.readIndex]
  have hold : content rb.bufferSize (rb.write data).buffer rb.readIndex len =
      content rb.bufferSize rb.buffer rb.readIndex len := by
    rw [← hread, content_mod, content_mod,
      content_write_old hw (by omega) (by omega) (by have := h.fits; omega)]
  have hnew : content rb.bufferSize (rb.write data).buffer (rb.readIndex + len) data.length =
      data := by
    rw [← content_mod, ← h.writeIndex_mod, content_write_new hw (by omega)]
  rw [(h.write hfit).items, write_bufferSize, write_readIndex, content_add, hold, h.items, hnew]

/-- What does not fit takes the place of the oldest. -/
theorem write_newest (h : Holds rb len) (hk : data.length ≤ rb.bufferSize)
    (hover : rb.bufferSize < len + data.length) :
    content rb.bufferSize (rb.write data).buffer (rb.write data).writeIndex rb.bufferSize =
      newest rb.bufferSize (rb.items ++ data) := by
  have hw := h.writeIndex_lt
  have hfits := h.fits
  have hindex : (rb.write data).writeIndex =
      (rb.writeIndex + data.length) % rb.bufferSize := by
    rw [write_writeIndex hw, add_mod_eq hw hk]
  have hsplit : rb.bufferSize = rb.bufferSize - data.length + data.length := by omega
  have hback : rb.writeIndex + data.length + (rb.bufferSize - data.length) =
      rb.writeIndex + rb.bufferSize := by omega
  have hstart : (rb.writeIndex + data.length) % rb.bufferSize =
      (rb.readIndex + (len + data.length - rb.bufferSize)) % rb.bufferSize := by
    rw [h.writeIndex_mod, Nat.mod_add_mod, ← Nat.add_mod_right (rb.readIndex + _)]
    congr 1
    omega
  have hrest : len - (len + data.length - rb.bufferSize) = rb.bufferSize - data.length := by omega
  calc content rb.bufferSize (rb.write data).buffer (rb.write data).writeIndex rb.bufferSize
      = content rb.bufferSize (rb.write data).buffer (rb.writeIndex + data.length)
          (rb.bufferSize - data.length + data.length) := by rw [hindex, content_mod, ← hsplit]
    _ = content rb.bufferSize rb.buffer (rb.writeIndex + data.length)
          (rb.bufferSize - data.length) ++ data := by
        rw [content_add, hback, content_write_old hw hk (Nat.le_refl _) (by omega),
          content_of_mod_eq (Nat.add_mod_right ..), content_write_new hw hk]
    _ = rb.items.drop (len + data.length - rb.bufferSize) ++ data := by
        rw [h.items, content_drop, hrest, content_of_mod_eq hstart]
    _ = newest rb.bufferSize (rb.items ++ data) := by
        unfold newest
        rw [List.length_append, h.length_items,
          List.drop_append_of_le_length (by rw [h.length_items]; omega)]

/-! ## The calls -/

theorem put_spec (h : Holds rb len) :
    Holds (rb.put data).1 (min (len + data.length) rb.bufferSize) ∧
      (rb.put data).1.bufferSize = rb.bufferSize ∧
      (rb.put data).1.items = rb.items ++ data.take (rb.bufferSize - len) ∧
      (rb.put data).2 = min data.length (rb.bufferSize - len) := by
  have hfits := h.fits
  have hspace : rb.spaceLen = rb.bufferSize - len := by rw [spaceLen, h.dataLen]
  have htake : (if rb.bufferSize - len < data.length then data.take (rb.bufferSize - len)
      else data) = data.take (rb.bufferSize - len) := by
    split
    · rfl
    · exact (List.take_of_length_le (by omega)).symm
  have hlen : (data.take (rb.bufferSize - len)).length = min data.length (rb.bufferSize - len) := by
    rw [List.length_take, Nat.min_comm]
  unfold put
  simp only [hspace, htake]
  split
  next hfull =>
    rw [hfull]
    refine ⟨?_, rfl, by simp, by simp⟩
    rw [show min (len + data.length) rb.bufferSize = len by omega]
    exact h
  next hroom =>
    have hfit : len + (data.take (rb.bufferSize - len)).length ≤ rb.bufferSize := by omega
    refine ⟨?_, write_bufferSize, write_items h hfit, hlen⟩
    rw [show min (len + data.length) rb.bufferSize =
      len + (data.take (rb.bufferSize - len)).length by omega]
    exact h.write hfit

/-- After a call that wrote over old bytes the ring is full. -/
theorem dropOld_holds (h : Holds rb len) (hk : data.length ≤ rb.bufferSize)
    (hover : rb.bufferSize < len + data.length) :
    Holds (dropOld (decide (rb.bufferSize - rb.writeIndex > data.length)) (rb.write data))
      rb.bufferSize := by
  have hw := h.writeIndex_lt
  have hread := h.readIndex
  have hfits := h.fits
  have hwrite := h.writeIndex
  have hmirror := h.mirror
  have hindex : (rb.write data).writeIndex = _ := write_writeIndex hw
  have hturn : (rb.write data).writeMirror = _ := write_writeMirror hw
  have hnot : ¬ (rb.write data).writeIndex + rb.bufferSize < rb.bufferSize := by omega
  have hroom : rb.bufferSize - rb.writeIndex > data.length ↔
      rb.writeIndex + data.length < rb.bufferSize := by omega
  unfold dropOld
  by_cases hstraight : rb.writeIndex + data.length < rb.bufferSize
  · rw [if_pos (decide_eq_true (hroom.mpr hstraight))]
    rw [if_pos hstraight] at hindex hturn
    have hne : ¬ rb.readIndex + len < rb.bufferSize := fun hlt => by
      rw [if_pos hlt] at hwrite
      omega
    refine ⟨?_, Nat.le_of_eq write_bufferSize.symm, ?_, ?_⟩
    · simpa [hindex] using hstraight
    · simp only [write_bufferSize]
      rw [if_neg hnot, Nat.add_sub_cancel]
    · simp only [write_readMirror, write_bufferSize, hturn]
      exact iff_of_false (fun heq => hne (hmirror.mp heq)) hnot
  · rw [if_neg (by simpa using fun h => hstraight (hroom.mp h))]
    rw [if_neg hstraight] at hindex hturn
    refine ⟨?_, Nat.le_of_eq write_bufferSize.symm, ?_, ?_⟩
    · simp only [write_bufferSize]
      omega
    · simp only [write_bufferSize]
      rw [if_neg hnot, Nat.add_sub_cancel]
    · simp only [write_readMirror, write_bufferSize, write_readIndex, hturn]
      refine iff_of_false ?_ hnot
      by_cases hlt : rb.readIndex + len < rb.bufferSize
      · rw [if_pos hlt] at hwrite
        rw [if_neg (by omega), hmirror.mpr hlt]
        exact fun heq => (Bool.eq_not_self _).mp heq
      · rw [if_neg hlt] at hwrite
        rw [if_pos (by omega)]
        exact fun heq => hlt (hmirror.mp (Bool.not_inj heq))

theorem putForce_spec (h : Holds rb len) :
    Holds (rb.putForce data).1 (min (len + data.length) rb.bufferSize) ∧
      (rb.putForce data).1.bufferSize = rb.bufferSize ∧
      (rb.putForce data).1.items = newest rb.bufferSize (rb.items ++ data) ∧
      (rb.putForce data).2 = min data.length rb.bufferSize := by
  have hfits := h.fits
  have hlast : (if data.length > rb.bufferSize then data.drop (data.length - rb.bufferSize)
      else data) = newest rb.bufferSize data := by
    split
    · rfl
    · exact (newest_of_le (by omega)).symm
  have hlen : (newest rb.bufferSize data).length = min data.length rb.bufferSize := length_newest
  have hk : (newest rb.bufferSize data).length ≤ rb.bufferSize := by omega
  have hspace : rb.spaceLen = rb.bufferSize - len := by rw [spaceLen, h.dataLen]
  unfold putForce
  simp only [hlast, hspace]
  split
  next hover =>
    have hholds := dropOld_holds h hk (by omega)
    refine ⟨?_, ?_, ?_, hlen⟩
    · rwa [show min (len + data.length) rb.bufferSize = rb.bufferSize by omega]
    · unfold dropOld
      split <;> simp
    · rw [hholds.items, ← newest_append_newest, ← write_newest h hk (by omega)]
      unfold dropOld
      split <;> simp
  next hfit =>
    have hsum : len + (newest rb.bufferSize data).length ≤ rb.bufferSize := by omega
    refine ⟨?_, write_bufferSize, ?_, hlen⟩
    · rw [show min (len + data.length) rb.bufferSize =
        len + (newest rb.bufferSize data).length by omega]
      exact h.write hsum
    · have hall : (rb.items ++ newest rb.bufferSize data).length ≤ rb.bufferSize := by
        rw [List.length_append, h.length_items]
        exact hsum
      rw [write_items h hsum, ← newest_append_newest]
      exact (newest_of_le hall).symm

theorem read_spec (h : Holds rb len) {k : Nat} (hk : k ≤ len) :
    Holds (rb.read k).1 (len - k) ∧ (rb.read k).1.bufferSize = rb.bufferSize ∧
      (rb.read k).1.items = rb.items.drop k ∧ (rb.read k).2 = rb.items.take k := by
  have hread := h.readIndex
  have hfits := h.fits
  have hsize : (rb.read k).1.bufferSize = rb.bufferSize := by
    unfold read
    dsimp only
    split <;> rfl
  have hbuffer : (rb.read k).1.buffer = rb.buffer := by
    unfold read
    dsimp only
    split <;> rfl
  have hholds : Holds (rb.read k).1 (len - k) := by
    refine h.read hk ?_ ?_ hsize ?_ <;> unfold read <;> dsimp only
    · split <;> rfl
    · split <;> rfl
    · split
      · exact ⟨rfl, rfl⟩
      · exact ⟨rfl, rfl⟩
  have hindex : (rb.read k).1.readIndex % rb.bufferSize = (rb.readIndex + k) % rb.bufferSize := by
    rw [add_mod_eq hread (by omega)]
    unfold read
    dsimp only
    split <;> dsimp only
    · rw [if_pos (by omega), Nat.mod_eq_of_lt (by omega)]
    · rw [if_neg (by omega), Nat.mod_eq_of_lt (by omega)]
      omega
  refine ⟨hholds, hsize, ?_, ?_⟩
  · rw [hholds.items, hsize, hbuffer, h.items, content_drop, content_of_mod_eq hindex]
  · rw [h.items, content_take hk]
    unfold read
    dsimp only
    split
    next hrest => exact (content_straight (by omega)).symm
    next hrest =>
      rw [content_split hread (by omega) (by omega),
        show k + rb.readIndex - rb.bufferSize = k - (rb.bufferSize - rb.readIndex) by omega]
      simp [load]

theorem get_spec (h : Holds rb len) (length : Nat) :
    Holds (rb.get length).1 (len - length) ∧ (rb.get length).1.bufferSize = rb.bufferSize ∧
      (rb.get length).1.items = rb.items.drop length ∧
      (rb.get length).2 = rb.items.take length := by
  have hlen := h.length_items
  unfold get
  rw [h.dataLen]
  dsimp only
  split
  next hzero =>
    have hnil : rb.items = [] := List.eq_nil_of_length_eq_zero (hlen.trans hzero)
    refine ⟨?_, rfl, by simp [hnil], by simp [hnil]⟩
    rwa [show len - length = len by omega]
  next hpos =>
    split
    next hless =>
      obtain ⟨hholds, hsize, hitems, hout⟩ := read_spec h (Nat.le_refl len)
      rw [List.drop_eq_nil_of_le (by omega), List.take_of_length_le (by omega)]
      rw [List.drop_eq_nil_of_le (by omega)] at hitems
      rw [List.take_of_length_le (by omega)] at hout
      rw [show len - length = len - len by omega]
      exact ⟨hholds, hsize, hitems, hout⟩
    next hle => exact read_spec h (Nat.not_lt.mp hle)

theorem peak_eq (h : Holds rb len) : rb.peak = rb.get (rb.bufferSize - rb.readIndex) := by
  unfold peak get read
  rw [h.dataLen]
  dsimp only
  by_cases hzero : len = 0
  · rw [if_pos hzero, if_pos hzero]
  rw [if_neg hzero, if_neg hzero]
  by_cases hlt : rb.bufferSize - rb.readIndex > len
  · rw [if_pos hlt, if_pos hlt, if_pos hlt]
  · rw [if_neg hlt, if_neg hlt, if_neg (Nat.lt_irrefl _), Nat.sub_self]
    simp [load]

theorem getchar_eq (h : Holds rb len) : rb.getchar = rb.get 1 := by
  have hread := h.readIndex
  unfold getchar get read
  rw [h.dataLen]
  dsimp only
  by_cases hzero : len = 0
  · rw [if_pos hzero, if_pos hzero]
  have hone : (if len < 1 then len else 1) = 1 := if_neg (by omega)
  rw [if_neg hzero, if_neg hzero, hone]
  by_cases hend : rb.readIndex = rb.bufferSize - 1
  · have hrest : rb.bufferSize - rb.readIndex = 1 := by omega
    rw [if_pos hend, hrest]
    rfl
  · rw [if_neg hend, if_pos (by omega)]
    rfl

theorem writeByte_eq (hw : rb.writeIndex < rb.bufferSize) (ch : BitVec 8) :
    rb.writeByte ch = rb.write [ch] := by
  unfold writeByte write
  rw [update_eq_store]
  dsimp only [List.length_singleton]
  by_cases hend : rb.writeIndex = rb.bufferSize - 1
  · have hroom : rb.bufferSize - rb.writeIndex = 1 := by omega
    rw [if_pos hend, hroom, if_neg (Nat.lt_irrefl 1)]
    simp
  · rw [if_neg hend, if_pos (by omega)]

theorem putchar_eq (h : Holds rb len) (ch : BitVec 8) : rb.putchar ch = rb.put [ch] := by
  unfold putchar put
  dsimp only [List.length_singleton]
  by_cases hfull : rb.spaceLen = 0
  · rw [if_pos hfull, if_pos hfull]
  · rw [if_neg hfull, if_neg hfull, if_neg (by omega), writeByte_eq h.writeIndex_lt]
    rfl

theorem status_eq_full_iff (h : Holds rb len) : rb.status = .full ↔ len = rb.bufferSize := by
  obtain ⟨hread, hfits, hwrite, hmirror⟩ := h
  unfold status
  by_cases heq : rb.readIndex = rb.writeIndex
  · rw [if_pos heq]
    by_cases hm : rb.readMirror = rb.writeMirror
    · rw [if_pos hm]
      have hlt := hmirror.mp hm
      exact ⟨fun hs => absurd hs (by decide), fun hl => by omega⟩
    · rw [if_neg hm]
      have hge : ¬ rb.readIndex + len < rb.bufferSize := fun hlt => hm (hmirror.mpr hlt)
      rw [if_neg hge] at hwrite
      exact ⟨fun _ => by omega, fun _ => rfl⟩
  · rw [if_neg heq]
    refine ⟨fun hs => absurd hs (by decide), fun hl => ?_⟩
    split at hwrite <;> omega

theorem putcharForce_eq (h : Holds rb len) (ch : BitVec 8) :
    rb.putcharForce ch = rb.putForce [ch] := by
  have hw := h.writeIndex_lt
  have hfits := h.fits
  have hspace : rb.spaceLen = rb.bufferSize - len := by rw [spaceLen, h.dataLen]
  have hone : ¬ 1 > rb.bufferSize := Nat.not_lt_of_ge (Nat.zero_lt_of_lt hw)
  unfold putcharForce putForce
  rw [writeByte_eq hw, hspace]
  dsimp only [List.length_singleton]
  rw [if_neg hone, List.length_singleton]
  by_cases hfull : len = rb.bufferSize
  · have hover : 1 > rb.bufferSize - len := by omega
    rw [if_pos ((status_eq_full_iff h).mpr hfull), if_pos hover]
    unfold dropOld
    by_cases hend : rb.writeIndex = rb.bufferSize - 1
    · have hroom : rb.bufferSize - rb.writeIndex = 1 := by omega
      have hzero : (rb.write [ch]).writeIndex = 0 := by
        rw [write_writeIndex hw, List.length_singleton, if_neg (by omega)]
        omega
      rw [if_pos hend, hroom, hzero, if_neg (by decide), if_pos (Nat.zero_le _)]
    · have hstraight : rb.bufferSize - rb.writeIndex > 1 := by omega
      rw [if_neg hend, if_pos (decide_eq_true hstraight)]
  · have hroom : ¬ 1 > rb.bufferSize - len := by omega
    rw [if_neg fun hs => hfull ((status_eq_full_iff h).mp hs), if_neg hroom]

/-! ## Runs -/

inductive RingAct
  | put (data : List (BitVec 8))
  | putForce (data : List (BitVec 8))
  | get (length : Nat)
  | peak
  | putchar (ch : BitVec 8)
  | putcharForce (ch : BitVec 8)
  | getchar
  | reset

/-- What a call read, and the number it returned. -/
structure RingOut where
  got : List (BitVec 8)
  count : Nat

/-- A call; `rt_ringbuffer_reset` returns nothing. -/
def ringStep (rb : RtRingbuffer) : RingAct → RtRingbuffer × RingOut
  | .put data => ((rb.put data).1, ⟨[], (rb.put data).2⟩)
  | .putForce data => ((rb.putForce data).1, ⟨[], (rb.putForce data).2⟩)
  | .get length => ((rb.get length).1, ⟨(rb.get length).2, (rb.get length).2.length⟩)
  | .peak => (rb.peak.1, ⟨rb.peak.2, rb.peak.2.length⟩)
  | .putchar ch => ((rb.putchar ch).1, ⟨[], (rb.putchar ch).2⟩)
  | .putcharForce ch => ((rb.putcharForce ch).1, ⟨[], (rb.putcharForce ch).2⟩)
  | .getchar => (rb.getchar.1, ⟨rb.getchar.2, rb.getchar.2.length⟩)
  | .reset => (rb.reset, ⟨[], 0⟩)

def ringRun (rb : RtRingbuffer) : List RingAct → RtRingbuffer × List RingOut
  | [] => (rb, [])
  | a :: acts =>
    let r := ringRun (rb.ringStep a).1 acts
    (r.1, (rb.ringStep a).2 :: r.2)

/-- The same call on a queue of `n` bytes, from `q` to `q'`. `peak` reads some of the oldest bytes,
    as many as the buffer has in one piece. -/
def QueueStep (n : Nat) (q q' : List (BitVec 8)) (out : RingOut) : RingAct → Prop
  | .put data => q' = q ++ data.take (n - q.length) ∧
      out = ⟨[], min data.length (n - q.length)⟩
  | .putForce data => q' = newest n (q ++ data) ∧ out = ⟨[], min data.length n⟩
  | .get length => q' = q.drop length ∧ out = ⟨q.take length, min length q.length⟩
  | .peak => q = out.got ++ q' ∧ out.count = out.got.length ∧ (q ≠ [] → out.got ≠ [])
  | .putchar ch => q' = q ++ [ch].take (n - q.length) ∧ out = ⟨[], min 1 (n - q.length)⟩
  | .putcharForce ch => q' = newest n (q ++ [ch]) ∧ out = ⟨[], 1⟩
  | .getchar => q' = q.drop 1 ∧ out = ⟨q.take 1, min 1 q.length⟩
  | .reset => q' = [] ∧ out = ⟨[], 0⟩

def QueueRun (n : Nat) : List (BitVec 8) → List RingAct → List RingOut → List (BitVec 8) → Prop
  | q, [], outs, q' => outs = [] ∧ q = q'
  | q, a :: acts, outs, q' => ∃ out rest q₁, outs = out :: rest ∧ QueueStep n q q₁ out a ∧
      QueueRun n q₁ acts rest q'

theorem ringStep_spec (h : Holds rb len) (a : RingAct) :
    (∃ len', Holds (rb.ringStep a).1 len') ∧ (rb.ringStep a).1.bufferSize = rb.bufferSize ∧
      QueueStep rb.bufferSize rb.items (rb.ringStep a).1.items (rb.ringStep a).2 a := by
  have hlen := h.length_items
  have hpos : 1 ≤ rb.bufferSize := Nat.succ_le_of_lt (Nat.zero_lt_of_lt h.readIndex)
  cases a with
  | put data =>
    obtain ⟨hholds, hsize, hitems, hret⟩ := put_spec h
    dsimp only [ringStep, QueueStep]
    rw [hlen]
    exact ⟨⟨_, hholds⟩, hsize, hitems, congrArg _ hret⟩
  | putForce data =>
    obtain ⟨hholds, hsize, hitems, hret⟩ := putForce_spec h
    exact ⟨⟨_, hholds⟩, hsize, hitems, congrArg _ hret⟩
  | get length =>
    obtain ⟨hholds, hsize, hitems, hout⟩ := get_spec h length
    dsimp only [ringStep, QueueStep]
    exact ⟨⟨_, hholds⟩, hsize, hitems, by rw [hout, List.length_take]⟩
  | peak =>
    obtain ⟨hholds, hsize, hitems, hout⟩ := get_spec h (rb.bufferSize - rb.readIndex)
    have hread := h.readIndex
    dsimp only [ringStep, QueueStep]
    rw [peak_eq h]
    refine ⟨⟨_, hholds⟩, hsize, ?_, rfl, fun hne => ?_⟩
    · rw [hitems, hout, List.take_append_drop]
    · rw [hout]
      intro hnil
      obtain hzero | hnil := List.take_eq_nil_iff.mp hnil
      · omega
      · exact hne hnil
  | putchar ch =>
    obtain ⟨hholds, hsize, hitems, hret⟩ := put_spec h
    dsimp only [ringStep, QueueStep]
    rw [putchar_eq h, hlen]
    exact ⟨⟨_, hholds⟩, hsize, hitems, congrArg _ hret⟩
  | putcharForce ch =>
    obtain ⟨hholds, hsize, hitems, hret⟩ := putForce_spec h
    dsimp only [ringStep, QueueStep]
    rw [putcharForce_eq h]
    exact ⟨⟨_, hholds⟩, hsize, hitems, congrArg _ (hret.trans (Nat.min_eq_left hpos))⟩
  | getchar =>
    obtain ⟨hholds, hsize, hitems, hout⟩ := get_spec h 1
    dsimp only [ringStep, QueueStep]
    rw [getchar_eq h]
    exact ⟨⟨_, hholds⟩, hsize, hitems, by rw [hout, List.length_take]⟩
  | reset =>
    have hreset : Holds rb.reset 0 :=
      ⟨hpos, Nat.zero_le _, (if_pos hpos).symm, iff_of_true rfl hpos⟩
    exact ⟨⟨0, hreset⟩, rfl, List.eq_nil_of_length_eq_zero hreset.length_items, rfl⟩

theorem ringRun_spec (acts : List RingAct) {rb : RtRingbuffer} {len : Nat} (h : Holds rb len) :
    (∃ len', Holds (rb.ringRun acts).1 len') ∧
      (rb.ringRun acts).1.bufferSize = rb.bufferSize ∧
      QueueRun rb.bufferSize rb.items acts (rb.ringRun acts).2 (rb.ringRun acts).1.items := by
  induction acts generalizing rb len with
  | nil => exact ⟨⟨len, h⟩, rfl, rfl, rfl⟩
  | cons a acts ih =>
    obtain ⟨⟨len', hholds⟩, hsize, hstep⟩ := ringStep_spec h a
    obtain ⟨hend, hkept, hrun⟩ := ih hholds
    exact ⟨hend, hkept.trans hsize, _, _, _, rfl, hstep, hsize ▸ hrun⟩

/-- For every size that holds a word and every run of calls, what the calls read and return and
    what is left in the ring are those of a queue of that many bytes, which is never longer. -/
theorem ringbuffer_run (pool : Memory) {size : Nat} (hsize : 4 ≤ size) (acts : List RingAct) :
    let r := (init pool size).ringRun acts
    QueueRun (size / 4 * 4) [] acts r.2 r.1.items ∧ r.1.items.length ≤ size / 4 * 4 := by
  have hinit := holds_init pool hsize
  have hnil : (init pool size).items = [] := List.eq_nil_of_length_eq_zero hinit.length_items
  obtain ⟨⟨len, hholds⟩, hkept, hrun⟩ := ringRun_spec acts hinit
  rw [hnil] at hrun
  refine ⟨hrun, ?_⟩
  calc
    ((init pool size).ringRun acts).1.items.length = len := hholds.length_items
    _ ≤ ((init pool size).ringRun acts).1.bufferSize := hholds.fits
    _ = size / 4 * 4 := hkept

theorem ringbuffer_run_six :
    let acts : List RingAct := [.put [1, 2, 3], .get 2, .putForce [4, 5, 6, 7], .getchar]
    let r := (init (fun _ => 0) 6).ringRun acts
    QueueRun 4 [] acts r.2 r.1.items ∧ r.1.items.length ≤ 4 :=
  ringbuffer_run (fun _ => 0) (by decide : 4 ≤ 6) _

end RtRingbuffer

end Live2dStm32.Serial
