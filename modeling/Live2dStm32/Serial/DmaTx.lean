import Live2dStm32.Serial.DataQueue

/-
  Transmission by DMA in serial.c: `_serial_dma_tx`, which pushes the buffer into the data queue
  and starts the DMA unless it is active, and RT_SERIAL_EVENT_TX_DMADONE of `rt_hw_serial_isr`,
  which pops the buffer sent and starts the next.

  A writer is between its push and its test of `activated` with interrupts enabled, and again
  between the test and `dma_transmit`. `dma_tx_run`: as long as there is one such writer at a
  time, and its buffer is not sent out before it has tested, the buffers go out once each, in
  order, one at a time, and none is left behind. `sent_twice` is a run without the second
  condition.
-/

namespace Live2dStm32.Serial

open Live2dStm32.Lib

/-- `toTest`: writers past their push; `toStart`: writers that have set `activated`. `busy` is
    what the UART sends, its `gState` otherwise ready. `started` and `completed` are what
    HAL_UART_Transmit_DMA has accepted and what `tx_complete` has been given, where `none` is a
    pointer no pop has set. -/
structure DmaTx where
  q : DataQueue
  activated : Bool
  busy : Option DataItem
  toTest : List DataItem
  toStart : List DataItem
  pushed : List DataItem
  started : List DataItem
  completed : List (Option (BitVec 32))

/-- After `rt_serial_open`: a queue of 8 with watermark 4. -/
def rtSerialOpenTx (queue : Nat → DataItem) : DmaTx :=
  ⟨rtDataQueueInit 8 4 queue, false, none, [], [], [], [], []⟩

/-- `stm32_dma_transmit`, with HAL_UART_Transmit_DMA, which takes a size of 16 bits. -/
def stm32DmaTransmit (item : DataItem) (s : DmaTx) : DmaTx :=
  if item.dataSize = 0 then s
  else if s.busy.isSome then s
  else if item.dataPtr = 0 ∨ item.dataSize.setWidth 16 = 0 then s
  else { s with busy := some item, started := s.started ++ [item] }

/-- RT_SERIAL_EVENT_TX_DMADONE; the UART is ready again. -/
def isrTxDmadone (s : DmaTx) : DmaTx :=
  let last := if s.q.isEmpty then none else some s.q.fetch.1.dataPtr
  let q := if s.q.isEmpty then s.q else s.q.fetch.2
  let s := { s with q := q, busy := none, completed := s.completed ++ [last] }
  match rtDataQueuePeek q with
  | some item => stm32DmaTransmit item { s with activated := true }
  | none => { s with activated := false }

/-- The three parts of `_serial_dma_tx`, and the interrupt. -/
inductive TxAct where
  | write (item : DataItem)
  | test (item : DataItem)
  | start (item : DataItem)
  | done
  deriving DecidableEq, Repr

/-- A writer waits while the queue is full; the interrupt comes when a buffer is sent. -/
def txStep (s : DmaTx) : TxAct → Option DmaTx
  | .write item =>
    if s.q.isFull then none
    else some { s with
      q := s.q.store item
      toTest := s.toTest ++ [item]
      pushed := s.pushed ++ [item] }
  | .test item =>
    if item ∈ s.toTest then
      if s.activated then some { s with toTest := s.toTest.erase item }
      else some { s with
        activated := true
        toTest := s.toTest.erase item
        toStart := s.toStart ++ [item] }
    else none
  | .start item =>
    if item ∈ s.toStart then
      some (stm32DmaTransmit item { s with toStart := s.toStart.erase item })
    else none
  | .done => if s.busy.isSome then some (isrTxDmadone s) else none

/-- A buffer the UART accepts. -/
def Sendable (item : DataItem) : Prop :=
  item.dataPtr ≠ 0 ∧ 0 < item.dataSize.toNat ∧ item.dataSize.toNat < 2 ^ 16

instance (item : DataItem) : Decidable (Sendable item) :=
  inferInstanceAs (Decidable (_ ∧ _))

/-- One writer at a time, and it tests before its buffer is out. -/
def OneWriter (s : DmaTx) : TxAct → Prop
  | .write item => s.toTest = [] ∧ s.toStart = [] ∧ Sendable item
  | .done => s.toTest = [] ∨ 1 < rtDataQueueLen s.q
  | _ => True

instance (s : DmaTx) : (a : TxAct) → Decidable (OneWriter s a)
  | .write _ => inferInstanceAs (Decidable (_ ∧ _))
  | .done => inferInstanceAs (Decidable (_ ∨ _))
  | .test _ | .start _ => inferInstanceAs (Decidable True)

/-! ## The law -/

/-- Where the transmission is: nothing active; a writer about to start the DMA; the DMA sending
    the head of the queue. `sent` are the buffers already out. -/
inductive TxPhase (s : DmaTx) (sent : List DataItem) : Prop where
  | idle (ha : s.activated = false) (hb : s.busy = none) (hs : s.toStart = [])
      (hq : s.q.items = s.toTest) (hst : s.started = sent)
  | starting (x : DataItem) (ha : s.activated = true) (hb : s.busy = none) (hs : s.toStart = [x])
      (ht : s.toTest = []) (hq : s.q.items = [x]) (hst : s.started = sent)
  | sending (x : DataItem) (rest : List DataItem) (ha : s.activated = true)
      (hb : s.busy = some x) (hs : s.toStart = []) (hq : s.q.items = x :: rest)
      (hst : s.started = sent ++ [x])

structure DmaTx.Inv (s : DmaTx) (sent : List DataItem) : Prop where
  ring : s.q.Inv
  sendable : ∀ item ∈ s.q.items, Sendable item
  order : s.pushed = sent ++ s.q.items
  completed : s.completed = sent.map fun item => some item.dataPtr
  one : s.toTest.length ≤ 1
  phase : TxPhase s sent

variable {s : DmaTx} {sent : List DataItem}

theorem txInv_start (queue : Nat → DataItem) : (rtSerialOpenTx queue).Inv [] where
  ring := inv_init (by decide) (by decide) 4 queue
  sendable := fun _ h => nomatch h
  order := rfl
  completed := rfl
  one := Nat.zero_le 1
  phase := .idle rfl rfl rfl rfl rfl

/-- The UART accepts the buffer when it is ready. -/
theorem dmaTransmit_eq {item : DataItem} (h : Sendable item) (hb : s.busy = none) :
    stm32DmaTransmit item s = { s with busy := some item, started := s.started ++ [item] } := by
  obtain ⟨hptr, hpos, hlt⟩ := h
  have hsize : item.dataSize ≠ 0 := by
    rintro heq
    rw [heq] at hpos
    exact Nat.lt_irrefl 0 hpos
  have hwidth : item.dataSize.setWidth 16 ≠ 0 := by
    intro heq
    have := congrArg BitVec.toNat heq
    rw [BitVec.toNat_setWidth, Nat.mod_eq_of_lt hlt] at this
    have : (0 : BitVec 16).toNat = 0 := rfl
    omega
  unfold stm32DmaTransmit
  rw [if_neg hsize, hb, if_neg (by simp), if_neg]
  rintro (h | h)
  · exact hptr h
  · exact hwidth h

theorem txInv_write (h : s.Inv sent) {item : DataItem} (hf : s.q.isFull = false)
    (ht : s.toTest = []) (hs : s.toStart = []) (hitem : Sendable item) :
    DmaTx.Inv { s with
      q := s.q.store item
      toTest := s.toTest ++ [item]
      pushed := s.pushed ++ [item] } sent where
  ring := store_inv h.ring hf item
  sendable := by
    dsimp only
    rw [store_items h.ring hf]
    intro i hi
    rcases List.mem_append.mp hi with hi | hi
    · exact h.sendable i hi
    · exact List.mem_singleton.mp hi ▸ hitem
  order := by
    dsimp only
    rw [store_items h.ring hf, h.order, List.append_assoc]
  completed := h.completed
  one := by simp [ht]
  phase := by
    have hitems := store_items h.ring hf item
    cases h.phase with
    | idle ha hb _ hq hst => exact .idle ha hb hs (by rw [hitems, hq]) hst
    | starting x _ _ hs' => exact absurd (hs.symm.trans hs') (List.cons_ne_nil _ _).symm
    | sending x rest ha hb _ hq hst =>
      exact .sending x (rest ++ [item]) ha hb hs (by rw [hitems, hq, List.cons_append]) hst

theorem txInv_test (h : s.Inv sent) {item : DataItem} (hmem : item ∈ s.toTest) :
    (if s.activated then { s with toTest := s.toTest.erase item }
      else { s with
        activated := true
        toTest := s.toTest.erase item
        toStart := s.toStart ++ [item] } : DmaTx).Inv sent := by
  have hone : s.toTest = [item] := by
    have := h.one
    match hl : s.toTest with
    | [] => rw [hl] at hmem; cases hmem
    | [w] => rw [hl] at hmem; rw [List.mem_singleton.mp hmem]
    | _ :: _ :: _ => rw [hl] at this; simp at this
  have herase : s.toTest.erase item = [] := by simp [hone]
  rw [herase]
  cases h.phase with
  | idle ha hb hs hq hst =>
    rw [if_neg (Bool.eq_false_iff.mp ha)]
    exact ⟨h.ring, h.sendable, h.order, h.completed, Nat.zero_le 1,
      .starting item rfl hb (by rw [hs]; rfl) rfl (hq.trans hone) hst⟩
  | starting x _ _ _ ht =>
    rw [ht] at hmem
    cases hmem
  | sending x rest ha hb hs hq hst =>
    rw [if_pos ha]
    exact ⟨h.ring, h.sendable, h.order, h.completed, Nat.zero_le 1,
      .sending x rest ha hb hs hq hst⟩

theorem txInv_startDma (h : s.Inv sent) {item : DataItem} (hmem : item ∈ s.toStart) :
    (stm32DmaTransmit item { s with toStart := s.toStart.erase item }).Inv sent := by
  cases h.phase with
  | idle _ _ hs => rw [hs] at hmem; cases hmem
  | sending _ _ _ _ hs => rw [hs] at hmem; cases hmem
  | starting x ha hb hs ht hq hst =>
    rw [hs, List.mem_singleton] at hmem
    subst hmem
    have hitem : Sendable item := h.sendable item (hq ▸ List.mem_singleton_self item)
    have herase : s.toStart.erase item = [] := by simp [hs]
    rw [dmaTransmit_eq (s := { s with toStart := s.toStart.erase item }) hitem hb, herase]
    exact ⟨h.ring, h.sendable, h.order, h.completed, h.one,
      .sending item [] ha rfl rfl hq (by rw [hst])⟩

/-- The head of the queue is out; the next one follows it. -/
theorem txInv_done (h : s.Inv sent) (hbusy : s.busy.isSome = true)
    (hlast : s.toTest = [] ∨ 1 < rtDataQueueLen s.q) :
    ∃ x, (isrTxDmadone s).Inv (sent ++ [x]) := by
  cases h.phase with
  | idle _ hb => rw [hb] at hbusy; cases hbusy
  | starting _ _ hb => rw [hb] at hbusy; cases hbusy
  | sending x rest ha hb hs hq hst =>
    have he : s.q.isEmpty = false := by
      rw [Bool.eq_false_iff]
      intro he
      have := (isEmpty_iff h.ring).mp he
      rw [← length_items, hq] at this
      cases this
    obtain ⟨hx, hrest⟩ := List.cons.inj (hq.symm.trans (fetch_items h.ring he))
    have hring := fetch_inv h.ring he
    have hpeek := peek_items hring
    rw [← hrest] at hpeek
    have horder : s.pushed = (sent ++ [x]) ++ s.q.fetch.2.items := by
      rw [h.order, hq, ← hrest, List.append_assoc, List.singleton_append]
    have hsend : ∀ item ∈ s.q.fetch.2.items, Sendable item := fun item hi =>
      h.sendable item (hq ▸ List.mem_cons_of_mem x (hrest ▸ hi))
    have hcomp : s.completed ++ [some s.q.fetch.1.dataPtr] =
        (sent ++ [x]).map fun item => some item.dataPtr := by
      rw [h.completed, List.map_append, ← hx]
      rfl
    refine ⟨x, ?_⟩
    unfold isrTxDmadone
    simp only [he, Bool.false_eq_true, if_false]
    rw [hpeek]
    cases rest with
    | nil =>
      have ht : s.toTest = [] := by
        rcases hlast with ht | hlen
        · exact ht
        · rw [← length_items, hq] at hlen
          exact absurd hlen (Nat.lt_irrefl 1)
      exact ⟨hring, hsend, horder, hcomp, h.one, .idle rfl rfl hs (hrest.symm.trans ht.symm) hst⟩
    | cons y rest =>
      have hy : Sendable y := hsend y (hrest ▸ List.mem_cons_self)
      dsimp only [List.head?_cons]
      rw [dmaTransmit_eq hy rfl]
      exact ⟨hring, hsend, horder, hcomp, h.one,
        .sending y rest rfl rfl hs hrest.symm (by rw [hst])⟩

theorem txInv_step (s : DmaTx) (a : TxAct) (s' : DmaTx) (h : ∃ sent, s.Inv sent)
    (hg : OneWriter s a) (hstep : txStep s a = some s') : ∃ sent, s'.Inv sent := by
  obtain ⟨sent, h⟩ := h
  cases a with
  | write item =>
    obtain ⟨hf, ⟨⟩⟩ := Option.ite_none_left_eq_some.mp hstep
    obtain ⟨ht, hs, hitem⟩ := hg
    exact ⟨sent, txInv_write h (Bool.eq_false_iff.mpr hf) ht hs hitem⟩
  | test item =>
    obtain ⟨hmem, hstep⟩ := Option.ite_none_right_eq_some.mp hstep
    have hinv := txInv_test h hmem
    split at hstep <;> cases hstep <;> rename_i ha
    · rw [if_pos ha] at hinv
      exact ⟨sent, hinv⟩
    · rw [if_neg ha] at hinv
      exact ⟨sent, hinv⟩
  | start item =>
    obtain ⟨hmem, ⟨⟩⟩ := Option.ite_none_right_eq_some.mp hstep
    exact ⟨sent, txInv_startDma h hmem⟩
  | done =>
    obtain ⟨hbusy, ⟨⟩⟩ := Option.ite_none_right_eq_some.mp hstep
    obtain ⟨x, hinv⟩ := txInv_done h hbusy hg
    exact ⟨sent ++ [x], hinv⟩

/-- For every interleaving of one writer after the other with the interrupt in which a writer tests
    `activated` before its own buffer is out, and the buffers are such as the UART accepts. -/
theorem dma_tx_run (queue : Nat → DataItem) {s : DmaTx}
    (h : Reach txStep OneWriter (rtSerialOpenTx queue) s) :
    s.started <+: s.pushed ∧
      (∃ sent, s.started = sent ++ s.busy.toList ∧
        s.completed = sent.map fun item => some item.dataPtr) ∧
      (s.busy = none → s.toTest = [] → s.toStart = [] → s.started = s.pushed) := by
  obtain ⟨sent, hinv⟩ := h.invariant (fun s => ∃ sent, s.Inv sent)
    ⟨[], txInv_start queue⟩ fun s a s' => txInv_step s a s'
  have horder := hinv.order
  cases hinv.phase with
  | idle _ hb hs hq hst =>
    refine ⟨⟨s.q.items, hst ▸ horder.symm⟩, ⟨sent, by simp [hst, hb], hinv.completed⟩, ?_⟩
    intro _ ht _
    rw [horder, hq, ht, List.append_nil, hst]
  | starting x _ hb hs _ _ hst =>
    refine ⟨⟨s.q.items, hst ▸ horder.symm⟩, ⟨sent, by simp [hst, hb], hinv.completed⟩, ?_⟩
    intro _ _ hn
    exact absurd (hs.symm.trans hn) (List.cons_ne_nil _ _)
  | sending x rest _ hb hs hq hst =>
    refine ⟨⟨rest, ?_⟩, ⟨sent, by simp [hst, hb], hinv.completed⟩, ?_⟩
    · rw [horder, hq, hst, List.append_assoc, List.singleton_append]
    · intro hn
      exact absurd (hb.symm.trans hn) (Option.some_ne_none x)

/-- Two writes, the second during the first transfer. -/
theorem dma_tx_run_two : ∃ s : DmaTx,
    (s.started <+: s.pushed ∧
      (∃ sent, s.started = sent ++ s.busy.toList ∧
        s.completed = sent.map fun item => some item.dataPtr) ∧
      (s.busy = none → s.toTest = [] → s.toStart = [] → s.started = s.pushed)) ∧
      s.started = [⟨8, 5⟩, ⟨16, 6⟩] ∧ s.completed = [some 8] := by
  have hrun : ∃ s, exec (guarded txStep OneWriter) (rtSerialOpenTx fun _ => ⟨0, 0⟩)
      [.write ⟨8, 5⟩, .test ⟨8, 5⟩, .start ⟨8, 5⟩, .write ⟨16, 6⟩, .done, .test ⟨16, 6⟩] = some s ∧
      s.started = [⟨8, 5⟩, ⟨16, 6⟩] ∧ s.completed = [some 8] := ⟨_, rfl, by decide, by decide⟩
  obtain ⟨s, hs, hstarted, hcompleted⟩ := hrun
  exact ⟨s, dma_tx_run _ (reach_of_exec .start hs), hstarted, hcompleted⟩

/-- The second buffer is started by the interrupt and is out before its writer tests: the writer
    finds nothing active and starts it again. -/
theorem sent_twice : ∃ s, exec txStep (rtSerialOpenTx fun _ => ⟨0, 0⟩)
    [.write ⟨8, 5⟩, .test ⟨8, 5⟩, .start ⟨8, 5⟩, .write ⟨16, 6⟩, .done, .done, .test ⟨16, 6⟩,
      .start ⟨16, 6⟩] = some s ∧
    s.pushed = [⟨8, 5⟩, ⟨16, 6⟩] ∧ s.started = [⟨8, 5⟩, ⟨16, 6⟩, ⟨16, 6⟩] :=
  ⟨_, rfl, by decide, by decide⟩

end Live2dStm32.Serial
