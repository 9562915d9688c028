import Live2dStm32.Eth.Ring

/-
  Reception in the Ethernet driver: `rt_stm32_eth_rx` copies a frame out of the ring of buffers
  into a chain of pbufs from `pbuf_alloc`, and gives the descriptors of the frame back to the
  DMA, whether there is a chain or not.

  Invariant of the copy (`RxAt`): the reads so far are the first places of the frame in order,
  as many as bytes copied, and the position in the current buffer is that number less the full
  buffers. `rxPbuf_spec` keeps it through one pbuf, whatever its length.
-/

namespace Live2dStm32.Eth

open Live2dStm32.Lib

/-- `EthHandle.RxFrameInfos`; `buffer` is a descriptor's. -/
structure RxFrameInfos (r : Ring) where
  fsRxDesc : Fin r.nb
  segCount : BitVec 32
  length : BitVec 32
  buffer : Fin r.nb

/-- What HAL_ETH_GetReceivedFrame_IT fills in: the first segment's buffer, and a length that
    fits the segments. -/
structure ReceivedFrame (r : Ring) extends RxFrameInfos r where
  buffer_eq : buffer = fsRxDesc
  length_le : length.toNat ≤ segCount.toNat * r.size

/-- What `pbuf_alloc` gives for a length: pbufs of any lengths that add up to it. -/
structure PbufChain (len : Nat) where
  pbufs : List Pbuf
  totLen_eq : totLen pbufs = len

/-- The descriptor, the buffer, the position in it, and all places read so far in order. -/
structure RxCopy (r : Ring) where
  dmarxdesc : Fin r.nb
  buffer : Fin r.nb
  bufferoffset : Nat
  reads : List (Fin r.nb × Nat)

/-- A `memcpy` of the bytes into a payload. -/
def copyTo (payload : List (BitVec 8)) (payloadoffset : Nat) (bytes : List (BitVec 8)) :
    List (BitVec 8) :=
  payload.take payloadoffset ++ bytes ++ payload.drop (payloadoffset + bytes.length)

/-- One round of the outer loop, from the `while` on: the payload and where the copy is. -/
def rxPbuf (r : Ring) (buf : Fin r.nb × Nat → BitVec 8) (byteslefttocopy payloadoffset : Nat)
    (payload : List (BitVec 8)) (c : RxCopy r) : List (BitVec 8) × RxCopy r :=
  if _h : r.size < byteslefttocopy + c.bufferoffset then
    let n := r.size - c.bufferoffset
    let src := spot c.buffer c.bufferoffset n
    let dmarxdesc := r.next c.dmarxdesc
    rxPbuf r buf (byteslefttocopy - n) (payloadoffset + n)
      (copyTo payload payloadoffset (src.map buf))
      ⟨dmarxdesc, dmarxdesc, 0, c.reads ++ src⟩
  else
    let src := spot c.buffer c.bufferoffset byteslefttocopy
    (copyTo payload payloadoffset (src.map buf),
      { c with bufferoffset := c.bufferoffset + byteslefttocopy, reads := c.reads ++ src })
termination_by byteslefttocopy + c.bufferoffset
decreasing_by
  have hs := r.size_pos
  omega

/-- The outer loop: the payloads of the chain. -/
def rxChain (r : Ring) (buf : Fin r.nb × Nat → BitVec 8) :
    List Pbuf → RxCopy r → List (List (BitVec 8)) × RxCopy r
  | [], c => ([], c)
  | q :: p, c =>
    let (payload, c) := rxPbuf r buf q.payload.length 0 q.payload c
    let (payloads, c) := rxChain r buf p c
    (payload :: payloads, c)

/-- `for (i = 0; i < SegCount; i++)`: OWN for `n` descriptors from `d` on. -/
def releaseFrom (r : Ring) : Nat → Fin r.nb → (Fin r.nb → BitVec 32) → Fin r.nb → BitVec 32
  | 0, _, status => status
  | n + 1, d, status =>
    releaseFrom r n (r.next d) fun e => if e = d then status d ||| r.own else status e

/-- The descriptors and `RxFrameInfos` on return, the places read, and the payloads of the
    returned chain. -/
structure RxResult (r : Ring) where
  handle : DmaRing r
  infos : RxFrameInfos r
  reads : List (Fin r.nb × Nat)
  p : Option (List (List (BitVec 8)))

/-- `received` is what HAL_ETH_GetReceivedFrame_IT fills in when it returns HAL_OK; `infos` is
    what is there otherwise. -/
def rtStm32EthRx (r : Ring) (received : Option (ReceivedFrame r))
    (pbufAlloc : (len : BitVec 16) → Option (PbufChain len.toNat)) (h : DmaRing r)
    (infos : RxFrameInfos r) : RxResult r :=
  match received with
  | none => ⟨h, infos, [], none⟩
  | some f =>
    let len : BitVec 16 := f.length.setWidth 16
    let (p, reads) :=
      match if 0 < len then pbufAlloc len else none with
      | none => (none, [])
      | some chain =>
        let (payloads, c) := rxChain r h.buf chain.pbufs ⟨f.fsRxDesc, f.buffer, 0, []⟩
        (some payloads, c.reads)
    let status := releaseFrom r f.segCount.toNat f.fsRxDesc h.status
    ⟨{ h with status }.resume, { f.toRxFrameInfos with segCount := 0 }, reads, p⟩

/-! ## The copy -/

variable {r : Ring} {buf : Fin r.nb × Nat → BitVec 8} {d : Fin r.nb}

/-- Between two copies, `k` bytes into the frame and in its `j`th descriptor. -/
structure RxAt (r : Ring) (d : Fin r.nb) (k j : Nat) (c : RxCopy r) : Prop where
  reads : c.reads = places (r.desc d) r.size 0 k
  desc : c.dmarxdesc = r.desc d j
  buffer : c.buffer = r.desc d j
  off_le : c.bufferoffset ≤ r.size
  pos : j * r.size + c.bufferoffset = k

/-- The next `n` bytes, if they are in the current buffer. -/
theorem RxAt.spot_places {k j n : Nat} {c : RxCopy r} (h : RxAt r d k j c)
    (hle : c.bufferoffset + n ≤ r.size) :
    spot c.buffer c.bufferoffset n = places (r.desc d) r.size k n := by
  rw [h.buffer, spot_eq (r.desc d) hle, h.pos]

theorem RxAt.reads_add {k j : Nat} {c : RxCopy r} (h : RxAt r d k j c) (n : Nat) :
    c.reads ++ places (r.desc d) r.size k n = places (r.desc d) r.size 0 (k + n) := by
  rw [places_add, h.reads, Nat.zero_add]

/-- The rest of the current buffer read, and on to the next descriptor. -/
theorem RxAt.fill {k j n : Nat} {c : RxCopy r} (h : RxAt r d k j c)
    (hn : r.size - c.bufferoffset = n) :
    RxAt r d (k + n) (j + 1)
      ⟨r.desc d (j + 1), r.desc d (j + 1), 0, c.reads ++ places (r.desc d) r.size k n⟩ where
  reads := h.reads_add n
  desc := rfl
  buffer := rfl
  off_le := Nat.zero_le _
  pos := by
    have := h.off_le
    have := h.pos
    rw [Nat.succ_mul]
    dsimp only
    omega

/-- A copy that stays in the current buffer. -/
theorem RxAt.stay {k j n : Nat} {c : RxCopy r} (h : RxAt r d k j c)
    (hle : c.bufferoffset + n ≤ r.size) :
    RxAt r d (k + n) j
      { c with
        bufferoffset := c.bufferoffset + n
        reads := c.reads ++ places (r.desc d) r.size k n } where
  reads := h.reads_add n
  desc := h.desc
  buffer := h.buffer
  off_le := hle
  pos := by
    have := h.pos
    dsimp only
    omega

/-- The bytes `k, …, k + n - 1` of the frame. -/
def frameData (r : Ring) (buf : Fin r.nb × Nat → BitVec 8) (d : Fin r.nb) (k n : Nat) :
    List (BitVec 8) :=
  (places (r.desc d) r.size k n).map buf

@[simp] theorem length_frameData (k n : Nat) : (frameData r buf d k n).length = n := by
  rw [frameData, List.length_map, length_places]

theorem frameData_add (k m n : Nat) :
    frameData r buf d k (m + n) = frameData r buf d k m ++ frameData r buf d (k + m) n := by
  unfold frameData
  rw [places_add, List.map_append]

/-- A copy after the bytes already there. -/
theorem copyTo_append (pre bytes rest : List (BitVec 8)) : copyTo (pre ++ rest) pre.length bytes =
    pre ++ bytes ++ rest.drop bytes.length := by
  unfold copyTo
  rw [List.take_left, List.drop_length_add_append]

/-- One pbuf is filled with the next bytes of the frame. Induction on the rounds of the
    `while`; `pre` is what they have filled. -/
theorem rxPbuf_spec (left : Nat) (pre rest : List (BitVec 8)) (c : RxCopy r) {k j : Nat}
    (hleft : rest.length = left) (h : RxAt r d k j c) :
    (rxPbuf r buf left pre.length (pre ++ rest) c).1 = pre ++ frameData r buf d k left ∧
      ∃ j', RxAt r d (k + left) j' (rxPbuf r buf left pre.length (pre ++ rest) c).2 := by
  induction hm : left + c.bufferoffset using Nat.strongRecOn generalizing left pre rest c k j with
  | ind m ih =>
    have hoff := h.off_le
    rw [rxPbuf]
    by_cases hlt : r.size < left + c.bufferoffset
    · rw [dif_pos hlt]
      obtain ⟨n, hn⟩ : ∃ n, r.size - c.bufferoffset = n := ⟨_, rfl⟩
      obtain ⟨left', rfl⟩ : ∃ left', left = n + left' := ⟨left - n, by omega⟩
      have hsrc : spot c.buffer c.bufferoffset n = _ := h.spot_places (by omega)
      have hdata : (places (r.desc d) r.size k n).map buf = frameData r buf d k n := rfl
      have hdesc : r.next c.dmarxdesc = r.desc d (j + 1) := by rw [h.desc, r.next_desc]
      have hcopy : copyTo (pre ++ rest) pre.length (frameData r buf d k n) =
          pre ++ frameData r buf d k n ++ rest.drop n := by
        rw [copyTo_append, length_frameData]
      have hlen : pre.length + n = (pre ++ frameData r buf d k n).length := by
        rw [List.length_append, length_frameData]
      dsimp only
      rw [hn, hsrc, hdata, hdesc, hcopy, hlen, Nat.add_sub_cancel_left]
      obtain ⟨hpayload, j', hat⟩ := ih (left' + 0) (by have := r.size_pos; omega) left'
        (pre ++ frameData r buf d k n) (rest.drop n) _ (by rw [List.length_drop]; omega)
        (h.fill hn) rfl
      refine ⟨?_, j', ?_⟩
      · rw [hpayload, frameData_add, List.append_assoc]
      · rw [← Nat.add_assoc]
        exact hat
    · rw [dif_neg hlt]
      have hle : c.bufferoffset + left ≤ r.size := by omega
      have hsrc : spot c.buffer c.bufferoffset left = _ := h.spot_places hle
      have hdata : (places (r.desc d) r.size k left).map buf = frameData r buf d k left := rfl
      dsimp only
      rw [hsrc, hdata, copyTo_append, length_frameData, ← hleft, List.drop_length,
        List.append_nil, hleft]
      exact ⟨rfl, j, h.stay hle⟩

/-- The whole chain. -/
theorem rxChain_spec (p : List Pbuf) (c : RxCopy r) {k j : Nat} (h : RxAt r d k j c) :
    (rxChain r buf p c).1.map List.length = p.map (·.payload.length) ∧
      (rxChain r buf p c).1.flatten = frameData r buf d k (totLen p) ∧
      (rxChain r buf p c).2.reads = places (r.desc d) r.size 0 (k + totLen p) := by
  induction p generalizing c k j with
  | nil => exact ⟨rfl, rfl, h.reads⟩
  | cons q p ih =>
    obtain ⟨hq, j', hat⟩ := @rxPbuf_spec r buf d q.payload.length [] q.payload c k j rfl h
    rw [List.nil_append, List.length_nil] at hq hat
    rw [List.nil_append] at hq
    obtain ⟨hlens, hp, hreads⟩ := ih _ hat
    have htot : totLen (q :: p) = q.payload.length + totLen p := List.sum_cons
    rw [rxChain]
    dsimp only
    rw [List.map_cons, List.map_cons, List.flatten_cons, hq, hlens, hp, htot, frameData_add,
      hreads, Nat.add_assoc, length_frameData]
    exact ⟨rfl, rfl, rfl⟩

/-! ## The release -/

/-- Exactly the `n` descriptors from `d` on get OWN; nothing else changes. -/
theorem releaseFrom_eq (n : Nat) (d : Fin r.nb) (status : Fin r.nb → BitVec 32) (e : Fin r.nb) :
    releaseFrom r n d status e =
      if ∃ i < n, e = r.desc d i then status e ||| r.own else status e := by
  induction n generalizing d status with
  | zero =>
    rw [if_neg fun ⟨_, hi, _⟩ => absurd hi (Nat.not_lt_zero _)]
    rfl
  | succ n ih =>
    have hsplit : (∃ i < n + 1, e = r.desc d i) ↔ e = d ∨ ∃ i < n, e = r.desc (r.next d) i := by
      constructor
      · rintro ⟨i, hi, rfl⟩
        cases i with
        | zero => exact Or.inl (r.desc_zero d)
        | succ i => exact Or.inr ⟨i, Nat.lt_of_succ_lt_succ hi, (r.desc_next d i).symm⟩
      · rintro (rfl | ⟨i, hi, he⟩)
        · exact ⟨0, Nat.succ_pos n, (r.desc_zero e).symm⟩
        · exact ⟨i + 1, Nat.succ_lt_succ hi, he.trans (r.desc_next d i)⟩
    rw [releaseFrom, ih]
    by_cases he : e = d <;> by_cases hi : ∃ i < n, e = r.desc (r.next d) i
    · rw [if_pos hi, if_pos he, if_pos (hsplit.mpr (Or.inr hi)), he, BitVec.or_assoc,
        BitVec.or_self]
    · rw [if_neg hi, if_pos he, if_pos (hsplit.mpr (Or.inl he)), he]
    · rw [if_pos hi, if_neg he, if_pos (hsplit.mpr (Or.inr hi))]
    · rw [if_neg hi, if_neg he, if_neg fun h => (hsplit.mp h).elim he hi]

/-! ## The frame -/

/-- `uint16_t len`. -/
def ReceivedFrame.len (f : ReceivedFrame r) : BitVec 16 := f.length.setWidth 16

/-- What the reception of a frame should do. -/
structure RxOk (r : Ring) (h : DmaRing r) (f : ReceivedFrame r)
    (pbufAlloc : (len : BitVec 16) → Option (PbufChain len.toNat)) (res : RxResult r) : Prop where
  data : ∀ chain, 0 < f.len → pbufAlloc f.len = some chain →
    ∃ payloads, res.p = some payloads ∧
      payloads.map List.length = chain.pbufs.map (·.payload.length) ∧
      payloads.flatten = frameData r h.buf f.fsRxDesc 0 f.len.toNat
  noChain : ¬ 0 < f.len ∨ pbufAlloc f.len = none → res.p = none
  inside : ∀ a ∈ res.reads, a.2 < r.size ∧ ∃ i < f.segCount.toNat, a.1 = r.desc f.fsRxDesc i
  released : ∀ d, res.handle.status d =
    if ∃ i < f.segCount.toNat, d = r.desc f.fsRxDesc i then h.status d ||| r.own else h.status d
  segCount : res.infos.segCount = 0

/-- The places of a frame are in its segments. -/
theorem places_inside {n k : Nat} (hk : k ≤ n * r.size) :
    ∀ a ∈ places (r.desc d) r.size 0 k, a.2 < r.size ∧ ∃ i < n, a.1 = r.desc d i := by
  intro a ha
  obtain ⟨b, hb, rfl⟩ := List.mem_map.mp ha
  rw [List.mem_range'_1] at hb
  refine ⟨Nat.mod_lt b r.size_pos, b / r.size, ?_, rfl⟩
  apply Nat.div_lt_of_lt_mul
  rw [Nat.mul_comm]
  omega

/-- What `rt_stm32_eth_rx` gets from `pbuf_alloc`, which it calls for a length other than 0. -/
theorem alloc_eq_some_iff {len : BitVec 16}
    {pbufAlloc : (len : BitVec 16) → Option (PbufChain len.toNat)} {chain : PbufChain len.toNat} :
    (if 0 < len then pbufAlloc len else none) = some chain ↔
      0 < len ∧ pbufAlloc len = some chain :=
  Option.ite_none_right_eq_some

/-- For every frame and every chain, or none. -/
theorem rtStm32EthRx_ok (r : Ring) (f : ReceivedFrame r)
    (pbufAlloc : (len : BitVec 16) → Option (PbufChain len.toNat)) (h : DmaRing r)
    (infos : RxFrameInfos r) :
    RxOk r h f pbufAlloc (rtStm32EthRx r (some f) pbufAlloc h infos) := by
  have hreleased : ∀ d, ({ h with
      status := releaseFrom r f.segCount.toNat f.fsRxDesc h.status } : DmaRing r).resume.status d =
      if ∃ i < f.segCount.toNat, d = r.desc f.fsRxDesc i then h.status d ||| r.own
      else h.status d := by
    intro d
    rw [resume_status]
    exact releaseFrom_eq _ _ _ _
  unfold rtStm32EthRx
  dsimp only
  cases hp : if 0 < f.length.setWidth 16 then pbufAlloc (f.length.setWidth 16) else none with
  | none =>
    refine ⟨fun chain hlen hc => ?_, fun _ => rfl, fun _ h => (nomatch h), hreleased, rfl⟩
    have hsome := alloc_eq_some_iff.mpr ⟨hlen, hc⟩
    exact nomatch hp.symm.trans hsome
  | some chain =>
    obtain ⟨hpos, halloc⟩ := alloc_eq_some_iff.mp hp
    have hstart : RxAt r f.fsRxDesc 0 0 ⟨f.fsRxDesc, f.buffer, 0, []⟩ :=
      ⟨rfl, (r.desc_zero _).symm, f.buffer_eq.trans (r.desc_zero _).symm, Nat.zero_le _,
        Nat.zero_mul _⟩
    obtain ⟨hlens, hdata, hreads⟩ := @rxChain_spec r h.buf f.fsRxDesc chain.pbufs _ 0 0 hstart
    rw [chain.totLen_eq] at hdata hreads
    have hlen : (f.length.setWidth 16).toNat ≤ f.segCount.toNat * r.size := by
      rw [BitVec.toNat_setWidth]
      exact Nat.le_trans (Nat.mod_le _ _) f.length_le
    refine ⟨fun chain' _ hc => ?_, fun hno => ?_, fun a ha => ?_, hreleased, rfl⟩
    · obtain rfl := Option.some.inj (halloc.symm.trans hc)
      exact ⟨_, rfl, hlens, hdata⟩
    · exact hno.elim (absurd hpos) fun hnone => nomatch halloc.symm.trans hnone
    · dsimp only at ha
      rw [hreads, Nat.zero_add] at ha
      exact places_inside hlen a ha

/-- Ten bytes in three buffers, from the last but one on. -/
def smallFrame : ReceivedFrame smallRing where
  fsRxDesc := ⟨2, by decide⟩
  segCount := 3
  length := 10
  buffer := ⟨2, by decide⟩
  buffer_eq := rfl
  length_le := by decide

/-- One pbuf over a buffer's end, an empty one, one to a buffer's end, and the rest. -/
def smallChain : PbufChain 10 where
  pbufs := [⟨List.replicate 5 0, by decide⟩, ⟨[], by decide⟩, ⟨List.replicate 3 0, by decide⟩,
    ⟨List.replicate 2 0, by decide⟩]
  totLen_eq := rfl

/-- `pbuf_alloc` with room for that frame only. -/
def smallAlloc (len : BitVec 16) : Option (PbufChain len.toNat) :=
  if h : len = 10 then some (h ▸ smallChain) else none

/-- The bytes of each buffer count on from 16 times its number. -/
def smallBufs : DmaRing smallRing := ⟨fun _ => 0, fun a => BitVec.ofNat 8 (16 * a.1 + a.2), 0, 0⟩

theorem rtStm32EthRx_ok_small :
    RxOk smallRing smallBufs smallFrame smallAlloc
        (rtStm32EthRx smallRing (some smallFrame) smallAlloc smallBufs
          smallFrame.toRxFrameInfos) ∧
      ∃ payloads, (rtStm32EthRx smallRing (some smallFrame) smallAlloc smallBufs
          smallFrame.toRxFrameInfos).p = some payloads ∧
        payloads.map List.length = [5, 0, 3, 2] ∧
        payloads.flatten = [0x20, 0x21, 0x22, 0x23, 0x30, 0x31, 0x32, 0x33, 0x00, 0x01] := by
  have hok := rtStm32EthRx_ok smallRing smallFrame smallAlloc smallBufs smallFrame.toRxFrameInfos
  obtain ⟨payloads, hp, hlens, hdata⟩ := hok.data smallChain (by decide) rfl
  exact ⟨hok, payloads, hp, hlens, hdata⟩

end Live2dStm32.Eth
