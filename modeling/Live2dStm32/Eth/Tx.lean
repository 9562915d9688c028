import Live2dStm32.Hal.Dma
import Live2dStm32.Eth.Ring

/-
  Transmission in the Ethernet driver: `rt_stm32_eth_tx` copies a chain of pbufs into the ring
  of buffers, from the descriptor `TxDesc` on, and calls `HAL_ETH_TransmitFrame`.

  Invariant of the copy (`TxAt`): with the bytes `data` copied so far, the writes are those
  bytes in order at the first places of the ring, and the position in the current buffer is the
  number of bytes less the full buffers. `txPbuf_spec` keeps it through one pbuf, which may
  fill several buffers or none.
-/

namespace Live2dStm32.Eth

open Live2dStm32.Lib
open Live2dStm32.Hal.Dma (HalStatus)

/-- `DmaTxDesc`, the buffer it was taken to point to (a descriptor's number), the counters, and
    all writes so far in order. -/
structure TxCopy (r : Ring) where
  dmaTxDesc : Fin r.nb
  buffer : Fin r.nb
  bufferoffset : Nat
  framelength : Nat
  writes : List ((Fin r.nb × Nat) × BitVec 8)

/-- A `memcpy` of the bytes into a buffer, as writes. -/
def copyIn {r : Ring} (buffer : Fin r.nb) (bufferoffset : Nat) (bytes : List (BitVec 8)) :
    List ((Fin r.nb × Nat) × BitVec 8) :=
  (spot buffer bufferoffset bytes.length).zip bytes

/-- One round of the outer loop, from the `while` on. An error is the `goto error`. -/
def txPbuf (r : Ring) (status : Fin r.nb → BitVec 32) (payload : List (BitVec 8))
    (byteslefttocopy payloadoffset : Nat) (c : TxCopy r) : Except (TxCopy r) (TxCopy r) :=
  if _h : r.size < byteslefttocopy + c.bufferoffset then
    let n := r.size - c.bufferoffset
    let c := { c with
      writes := c.writes ++
        copyIn c.buffer c.bufferoffset ((payload.drop payloadoffset).take n)
      dmaTxDesc := r.next c.dmaTxDesc }
    if r.owned status c.dmaTxDesc then .error c
    else
      txPbuf r status payload (byteslefttocopy - n) (payloadoffset + n)
        { c with buffer := c.dmaTxDesc, framelength := c.framelength + n, bufferoffset := 0 }
  else
    .ok { c with
      writes := c.writes ++
        copyIn c.buffer c.bufferoffset ((payload.drop payloadoffset).take byteslefttocopy)
      bufferoffset := c.bufferoffset + byteslefttocopy
      framelength := c.framelength + byteslefttocopy }
termination_by byteslefttocopy + c.bufferoffset
decreasing_by
  have hs := r.size_pos
  omega

/-- The outer loop. -/
def txChain (r : Ring) (status : Fin r.nb → BitVec 32) :
    List Pbuf → TxCopy r → Except (TxCopy r) (TxCopy r)
  | [], c => .ok c
  | q :: p, c =>
    if r.owned status c.dmaTxDesc then .error c
    else
      match txPbuf r status q.payload q.payload.length 0 c with
      | .error c => .error c
      | .ok c => txChain r status p c

/-- The HAL's side of the transmission: the first poll of `Lock` that sees it free, if any, and
    what HAL_ETH_TransmitFrame does with the frame length. -/
structure HalEthTx (r : Ring) where
  unlocked : Option Nat
  transmitFrame : DmaRing r → Nat → HalStatus × DmaRing r

def ERR_OK : Int := 0

def ERR_USE : Int := -8

/-- The descriptors and buffers on return, the frame length and the state that
    HAL_ETH_TransmitFrame was called with, and `ret`, unless the driver waits for the lock for
    ever. -/
structure TxResult (r : Ring) where
  handle : DmaRing r
  writes : List ((Fin r.nb × Nat) × BitVec 8)
  transmit : Option (Nat × DmaRing r)
  ret : Option Int

/-- `h` and `txDesc` are `EthHandle`. -/
def rtStm32EthTx (r : Ring) (hal : HalEthTx r) (h : DmaRing r) (txDesc : Fin r.nb)
    (p : List Pbuf) : TxResult r :=
  match txChain r h.status p ⟨txDesc, txDesc, 0, 0, []⟩ with
  | .error c =>
    let h := { h with buf := applyWrites h.buf c.writes }
    ⟨h.resume, c.writes, none, some ERR_USE⟩
  | .ok c =>
    let h := { h with buf := applyWrites h.buf c.writes }
    match hal.unlocked with
    | none => ⟨h, c.writes, none, none⟩
    | some _ =>
      ⟨(hal.transmitFrame h c.framelength).2.resume, c.writes, some (c.framelength, h),
        some ERR_OK⟩

/-! ## The copy -/

variable {r : Ring} {status : Fin r.nb → BitVec 32} {d : Fin r.nb}

/-- The writes put `data` at the first places of the ring, into buffers of the driver's. -/
structure Filled (r : Ring) (status : Fin r.nb → BitVec 32) (d : Fin r.nb)
    (data : List (BitVec 8)) (writes : List ((Fin r.nb × Nat) × BitVec 8)) : Prop where
  eq : writes = (places (r.desc d) r.size 0 data.length).zip data
  free : ∀ w ∈ writes, r.owned status w.1.1 = false

/-- Between two copies, in the `j`th descriptor of the frame. -/
structure TxAt (r : Ring) (status : Fin r.nb → BitVec 32) (d : Fin r.nb)
    (data : List (BitVec 8)) (j : Nat) (c : TxCopy r) : Prop where
  filled : Filled r status d data c.writes
  desc : c.dmaTxDesc = r.desc d j
  buffer : c.buffer = r.desc d j
  off_le : c.bufferoffset ≤ r.size
  pos : j * r.size + c.bufferoffset = data.length
  frame : c.framelength = data.length

theorem filled_nil : Filled r status d [] [] := ⟨rfl, fun _ h => (nomatch h)⟩

/-- A copy into the rest of the current buffer. -/
theorem Filled.append {data bytes : List (BitVec 8)}
    {writes : List ((Fin r.nb × Nat) × BitVec 8)} (h : Filled r status d data writes) {j off : Nat}
    (hfree : r.owned status (r.desc d j) = false) (hpos : j * r.size + off = data.length)
    (hle : off + bytes.length ≤ r.size) :
    Filled r status d (data ++ bytes) (writes ++ copyIn (r.desc d j) off bytes) := by
  constructor
  case eq =>
    have hlen : (places (r.desc d) r.size 0 data.length).length = data.length :=
      length_places _ _ _ _
    rw [copyIn, spot_eq (r.desc d) hle, hpos, h.eq, List.length_append, places_add,
      Nat.zero_add, List.zip_append hlen]
  case free =>
    intro w hw
    rcases List.mem_append.mp hw with hw | hw
    · exact h.free w hw
    · obtain ⟨off', -, hspot⟩ := List.mem_map.mp (List.of_mem_zip hw).1
      rw [← hspot]
      exact hfree

/-- The rest of the current buffer filled, and on to the next descriptor. -/
theorem TxAt.fill {data bytes : List (BitVec 8)} {j : Nat} {c : TxCopy r}
    (h : TxAt r status d data j c) (hfree : r.owned status (r.desc d j) = false)
    (hlen : bytes.length = r.size - c.bufferoffset) :
    TxAt r status d (data ++ bytes) (j + 1)
      ⟨r.desc d (j + 1), r.desc d (j + 1), 0, c.framelength + (r.size - c.bufferoffset),
        c.writes ++ copyIn (r.desc d j) c.bufferoffset bytes⟩ where
  filled := h.filled.append hfree h.pos (by have := h.off_le; omega)
  desc := rfl
  buffer := rfl
  off_le := Nat.zero_le _
  pos := by
    have := h.off_le
    have := h.pos
    rw [List.length_append, Nat.succ_mul]
    dsimp only
    omega
  frame := by rw [List.length_append, h.frame, hlen]

/-- A copy that stays in the current buffer. -/
theorem TxAt.stay {data bytes : List (BitVec 8)} {j : Nat} {c : TxCopy r}
    (h : TxAt r status d data j c) (hfree : r.owned status (r.desc d j) = false)
    (hle : c.bufferoffset + bytes.length ≤ r.size) :
    TxAt r status d (data ++ bytes) j
      { c with
        buffer := r.desc d j
        writes := c.writes ++ copyIn (r.desc d j) c.bufferoffset bytes
        bufferoffset := c.bufferoffset + bytes.length
        framelength := c.framelength + bytes.length } where
  filled := h.filled.append hfree h.pos hle
  desc := h.desc
  buffer := rfl
  off_le := hle
  pos := by
    have := h.pos
    rw [List.length_append]
    dsimp only
    omega
  frame := by rw [List.length_append, h.frame]

/-- One pbuf, whose first buffer is the driver's: it is copied whole, or up to a descriptor of
    the DMA's. Induction on the rounds of the `while`. -/
theorem txPbuf_spec (payload : List (BitVec 8)) (left po : Nat) (c : TxCopy r)
    {data : List (BitVec 8)} {j : Nat} (hleft : (payload.drop po).length = left)
    (h : TxAt r status d data j c) (hfree : r.owned status (r.desc d j) = false) :
    match txPbuf r status payload left po c with
    | .ok c' => ∃ j', TxAt r status d (data ++ payload.drop po) j' c'
    | .error c' => ∃ data', data'.length ≤ data.length + left ∧
        Filled r status d data' c'.writes := by
  induction hk : left + c.bufferoffset using Nat.strongRecOn generalizing left po c data j with
  | ind k ih =>
    have hoff := h.off_le
    rw [txPbuf]
    by_cases hlt : r.size < left + c.bufferoffset
    · rw [dif_pos hlt]
      have hlen : ((payload.drop po).take (r.size - c.bufferoffset)).length =
          r.size - c.bufferoffset := by
        rw [List.length_take, hleft]
        omega
      have hfill := h.fill hfree hlen
      have hdesc : r.next c.dmaTxDesc = r.desc d (j + 1) := by rw [h.desc, r.next_desc]
      dsimp only
      rw [h.buffer, hdesc]
      cases how : r.owned status (r.desc d (j + 1)) with
      | true =>
        rw [if_pos rfl]
        refine ⟨_, ?_, hfill.filled⟩
        rw [List.length_append, hlen]
        omega
      | false =>
        rw [if_neg Bool.false_ne_true]
        have hdrop : (payload.drop po).take (r.size - c.bufferoffset) ++
            payload.drop (po + (r.size - c.bufferoffset)) = payload.drop po := by
          rw [← List.drop_drop, List.take_append_drop]
        have hnext := ih (left - (r.size - c.bufferoffset) + 0) (by have := r.size_pos; omega)
          (left - (r.size - c.bufferoffset)) (po + (r.size - c.bufferoffset)) _
          (by rw [← List.drop_drop, List.length_drop, hleft]) hfill how rfl
        rw [List.append_assoc, hdrop] at hnext
        split at hnext
        · exact hnext
        · obtain ⟨data', hle, hdata'⟩ := hnext
          rw [List.length_append, hlen] at hle
          exact ⟨data', by omega, hdata'⟩
    · rw [dif_neg hlt]
      have hall : (payload.drop po).take left = payload.drop po := by
        rw [← hleft, List.take_length]
      dsimp only
      rw [hall, h.buffer, ← hleft]
      exact ⟨j, h.stay hfree (by omega)⟩

/-- The whole chain. -/
theorem txChain_spec (p : List Pbuf) (c : TxCopy r) {data : List (BitVec 8)} {j : Nat}
    (h : TxAt r status d data j c) :
    match txChain r status p c with
    | .ok c' => ∃ j', TxAt r status d (data ++ p.flatMap (·.payload)) j' c'
    | .error c' => ∃ data', data'.length ≤ data.length + totLen p ∧
        Filled r status d data' c'.writes := by
  induction p generalizing c data j with
  | nil => exact ⟨j, by rwa [List.flatMap_nil, List.append_nil]⟩
  | cons q p ih =>
    rw [txChain, h.desc]
    cases how : r.owned status (r.desc d j) with
    | true =>
      rw [if_pos rfl]
      exact ⟨data, Nat.le_add_right _ _, h.filled⟩
    | false =>
      rw [if_neg Bool.false_ne_true]
      have hq := txPbuf_spec q.payload q.payload.length 0 c rfl h how
      rw [List.drop_zero] at hq
      have htot : totLen (q :: p) = q.payload.length + totLen p := List.sum_cons
      rw [htot, List.flatMap_cons, ← List.append_assoc, ← Nat.add_assoc]
      cases hc : txPbuf r status q.payload q.payload.length 0 c with
      | error c' =>
        rw [hc] at hq
        obtain ⟨data', hle, hdata'⟩ := hq
        exact ⟨data', by omega, hdata'⟩
      | ok c' =>
        rw [hc] at hq
        obtain ⟨j', hj'⟩ := hq
        have hp := ih c' hj'
        rw [List.length_append] at hp
        exact hp

/-! ## The frame -/

/-- What the transmission of a chain should do. -/
structure TxOk (r : Ring) (h : DmaRing r) (d : Fin r.nb) (p : List Pbuf) (res : TxResult r) :
    Prop where
  frame : ∀ n at', res.transmit = some (n, at') → n = totLen p ∧ at'.status = h.status ∧
    (places (r.desc d) r.size 0 n).map at'.buf = p.flatMap (·.payload)
  once : (res.writes.map Prod.fst).Nodup
  inside : ∀ w ∈ res.writes, w.1.2 < r.size
  free : ∀ w ∈ res.writes, r.owned h.status w.1.1 = false
  refused : res.transmit = none → res.ret ≠ some ERR_OK ∧ res.handle.status = h.status

theorem Filled.fst_eq {data : List (BitVec 8)} {writes : List ((Fin r.nb × Nat) × BitVec 8)}
    (h : Filled r status d data writes) :
    writes.map Prod.fst = places (r.desc d) r.size 0 data.length := by
  rw [h.eq, List.map_fst_zip (by rw [length_places])]

theorem Filled.once {data : List (BitVec 8)} {writes : List ((Fin r.nb × Nat) × BitVec 8)}
    (h : Filled r status d data writes) (hle : data.length ≤ r.nb * r.size) :
    (writes.map Prod.fst).Nodup := by
  rw [h.fst_eq]
  exact nodup_places (r.desc_inj d) (by rwa [Nat.zero_add])

theorem Filled.inside {data : List (BitVec 8)} {writes : List ((Fin r.nb × Nat) × BitVec 8)}
    (h : Filled r status d data writes) : ∀ w ∈ writes, w.1.2 < r.size := by
  intro w hw
  have hmem : w.1 ∈ places (r.desc d) r.size 0 data.length :=
    h.fst_eq ▸ List.mem_map_of_mem hw
  obtain ⟨k, -, hk⟩ := List.mem_map.mp hmem
  rw [← hk]
  exact Nat.mod_lt k r.size_pos

/-- What is in the buffers after the writes. -/
theorem Filled.buf {data : List (BitVec 8)} {writes : List ((Fin r.nb × Nat) × BitVec 8)}
    (h : Filled r status d data writes) (hle : data.length ≤ r.nb * r.size)
    (buf : Fin r.nb × Nat → BitVec 8) :
    (places (r.desc d) r.size 0 data.length).map (applyWrites buf writes) = data := by
  rw [← h.fst_eq, map_applyWrites (h.once hle), h.eq,
    List.map_snd_zip (by rw [length_places])]

/-- For every chain that fits the ring, from every descriptor, with every pattern of OWN. -/
theorem rtStm32EthTx_ok (r : Ring) (hal : HalEthTx r) (h : DmaRing r) (txDesc : Fin r.nb)
    (p : List Pbuf) (hfit : totLen p ≤ r.nb * r.size) :
    TxOk r h txDesc p (rtStm32EthTx r hal h txDesc p) := by
  have hspec := @txChain_spec r h.status txDesc p ⟨txDesc, txDesc, 0, 0, []⟩ [] 0
    ⟨filled_nil, (r.desc_zero _).symm, (r.desc_zero _).symm, Nat.zero_le _, Nat.zero_mul _, rfl⟩
  rw [List.nil_append, List.length_nil, Nat.zero_add] at hspec
  unfold rtStm32EthTx
  cases hc : txChain r h.status p ⟨txDesc, txDesc, 0, 0, []⟩ with
  | error c =>
    rw [hc] at hspec
    obtain ⟨data, hle, hfill⟩ := hspec
    exact ⟨fun _ _ hn => (nomatch hn), hfill.once (Nat.le_trans hle hfit), hfill.inside, hfill.free,
      fun _ => ⟨(by decide : some ERR_USE ≠ some ERR_OK), resume_status _⟩⟩
  | ok c =>
    rw [hc] at hspec
    obtain ⟨j, hat⟩ := hspec
    have hlen : (p.flatMap (·.payload)).length ≤ r.nb * r.size := by rwa [length_payloads]
    have hframe : c.framelength = totLen p := hat.frame.trans (length_payloads p)
    have honce := hat.filled.once hlen
    dsimp only
    cases hal.unlocked with
    | none =>
      exact ⟨fun _ _ hn => (nomatch hn), honce, hat.filled.inside, hat.filled.free,
        fun _ => ⟨fun hn => (nomatch hn), rfl⟩⟩
    | some polls =>
      refine ⟨fun n at' ht => ?_, honce, hat.filled.inside, hat.filled.free,
        fun hn => (nomatch hn)⟩
      obtain ⟨rfl, rfl⟩ := Prod.mk.inj (Option.some.inj ht)
      refine ⟨hframe, rfl, ?_⟩
      rw [hframe, ← length_payloads]
      exact hat.filled.buf hlen h.buf

/-- Without a descriptor of the DMA's in the way a pbuf is copied whole. -/
theorem txPbuf_of_free (hfree : ∀ e, r.owned status e = false) (payload : List (BitVec 8))
    (left po : Nat) (c : TxCopy r) : ∃ c', txPbuf r status payload left po c = .ok c' := by
  fun_induction txPbuf r status payload left po c with
  | case1 left po c hlt n c' howned =>
    rw [hfree] at howned
    cases howned
  | case2 left po c hlt n c' howned ih => exact ih
  | case3 left po c hlt => exact ⟨_, rfl⟩

theorem txChain_of_free (hfree : ∀ e, r.owned status e = false) (p : List Pbuf)
    (c : TxCopy r) : ∃ c', txChain r status p c = .ok c' := by
  induction p generalizing c with
  | nil => exact ⟨c, rfl⟩
  | cons q p ih =>
    obtain ⟨c', hq⟩ := txPbuf_of_free hfree q.payload q.payload.length 0 c
    rw [txChain, hfree, if_neg Bool.false_ne_true, hq]
    exact ih c'

/-- With every descriptor free, and the lock free at some poll, the chain is transmitted. -/
theorem rtStm32EthTx_of_free (hal : HalEthTx r) (h : DmaRing r) (txDesc : Fin r.nb)
    (p : List Pbuf) (hfree : ∀ e, r.owned h.status e = false)
    (hlock : hal.unlocked.isSome = true) :
    (rtStm32EthTx r hal h txDesc p).transmit.isSome = true := by
  obtain ⟨c, hc⟩ := txChain_of_free hfree p ⟨txDesc, txDesc, 0, 0, []⟩
  obtain ⟨polls, hpolls⟩ := Option.isSome_iff_exists.mp hlock
  unfold rtStm32EthTx
  rw [hc]
  dsimp only
  rw [hpolls]
  rfl

/-- Five bytes, none, and three, from the last descriptor on: two buffers, full. -/
theorem rtStm32EthTx_ok_small :
    let p : List Pbuf := [⟨[1, 2, 3, 4, 5], by decide⟩, ⟨[], by decide⟩, ⟨[6, 7, 8], by decide⟩]
    let hal : HalEthTx smallRing := ⟨some 0, fun h _ => (.ok, h)⟩
    let h : DmaRing smallRing := ⟨fun _ => 0, fun _ => 0, 0, 0⟩
    totLen p ≤ smallRing.nb * smallRing.size ∧
      TxOk smallRing h ⟨3, by decide⟩ p (rtStm32EthTx smallRing hal h ⟨3, by decide⟩ p) ∧
      ∃ at', (rtStm32EthTx smallRing hal h ⟨3, by decide⟩ p).transmit = some (8, at') ∧
        (places (smallRing.desc ⟨3, by decide⟩) smallRing.size 0 8).map at'.buf =
          [1, 2, 3, 4, 5, 6, 7, 8] := by
  intro p hal h
  have hok := rtStm32EthTx_ok smallRing hal h ⟨3, by decide⟩ p (by decide)
  have hsent := rtStm32EthTx_of_free hal h ⟨3, by decide⟩ p (by decide) rfl
  obtain ⟨⟨n, at'⟩, ht⟩ := Option.isSome_iff_exists.mp hsent
  obtain ⟨hn, -, hbuf⟩ := hok.frame n at' ht
  rw [hn] at ht hbuf
  exact ⟨by decide, hok, at', ht, hbuf⟩

end Live2dStm32.Eth
