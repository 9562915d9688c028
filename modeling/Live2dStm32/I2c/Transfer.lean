import Live2dStm32.I2c.Bytes
import Live2dStm32.I2c.Unlock

/-
  Whole transfers: what `i2c_bit_xfer` does on the wires is what it does with start conditions,
  stop conditions and pulses, for some bits of a slave. The argument goes up the call tree of
  i2c-bit-ops.c, one `Follows` for each function.
-/

namespace Live2dStm32.I2c

open Live2dStm32.Lib.TwoWire Live2dStm32.Kernel Live2dStm32.Hal.Gpio Live2dStm32.Gpio

variable {M : Type} {dev : PinDev M} {slave : Slave} {cfg : SoftI2cConfig dev}
  {ops : ByteOps (Bus M)} {b : Bus M} {t : Talk}

theorem sendBytes_follows (hs : ByteSim slave cfg ops) (ignoreNack : Bool)
    (data : List (BitVec 8)) (bytes : Nat) (h : Busy slave cfg b t) :
    Follows (Busy slave cfg) (i2cSendBytes ops ignoreNack data bytes b)
      (i2cSendBytes talkByteOps ignoreNack data bytes) t := by
  induction data generalizing bytes b t with
  | nil => exact Follows.pure h
  | cons byte rest ih =>
    unfold i2cSendBytes
    refine Follows.bind (fun r =>
        if r.2 > 0 ∨ (ignoreNack = true ∧ r.2 = 0) then
          i2cSendBytes talkByteOps ignoreNack rest (bytes + 1) r.1
        else if r.2 = 0 then (r.1, 0) else r)
      (hs.writeb h byte) fun t' h' => ?_
    dsimp only
    split
    · exact ih (bytes + 1) h'
    split
    · exact Follows.pure h'
    · exact Follows.pure h'

theorem recvBytes_follows (hs : ByteSim slave cfg ops) (noReadAck : Bool) (count : Nat)
    (got : List (BitVec 8)) (h : Busy slave cfg b t) :
    Follows (Busy slave cfg) (i2cRecvBytes ops noReadAck count got b)
      (i2cRecvBytes talkByteOps noReadAck count got) t := by
  induction count generalizing got b t with
  | zero => exact Follows.pure h
  | succ count ih =>
    unfold i2cRecvBytes
    refine Follows.bind (fun r =>
        if r.2 < 0 then (r.1, got, (got.length : Int))
        else if noReadAck then
          i2cRecvBytes talkByteOps noReadAck count (got ++ [BitVec.ofInt 8 r.2]) r.1
        else
          let a := Talk.sendAckOrNack r.1 count
          if a.2 < 0 then (a.1, got ++ [BitVec.ofInt 8 r.2], a.2)
          else i2cRecvBytes talkByteOps noReadAck count (got ++ [BitVec.ofInt 8 r.2]) a.1)
      (hs.readb h) fun t' h' => ?_
    dsimp only
    split
    · exact Follows.pure h'
    split
    · exact ih _ h'
    refine Follows.bind (fun a =>
        if a.2 < 0 then (a.1, got ++ [BitVec.ofInt 8 (ops.readb b).2], a.2)
        else i2cRecvBytes talkByteOps noReadAck count
          (got ++ [BitVec.ofInt 8 (ops.readb b).2]) a.1)
      (hs.sendAckOrNack h' count) fun t₁ h₁ => ?_
    dsimp only
    split
    · exact Follows.pure h₁
    · exact ih _ h₁

theorem sendAddress_follows (hs : ByteSim slave cfg ops) (addr : BitVec 8) (retries : Nat)
    (h : Busy slave cfg b t) :
    Follows (Busy slave cfg) (i2cSendAddress ops addr retries b)
      (i2cSendAddress talkByteOps addr retries) t := by
  induction retries generalizing b t with
  | zero => exact hs.writeb h addr
  | succ retries ih =>
    unfold i2cSendAddress
    refine Follows.bind (fun r => if r.2 = 1 then r
        else i2cSendAddress talkByteOps addr retries r.1.stop.start)
      (hs.writeb h addr) fun t' h' => ?_
    dsimp only
    split
    · exact Follows.pure h'
    refine Follows.step (fun t => i2cSendAddress talkByteOps addr retries t.start)
      (hs.stop h') fun t₁ h₁ => ?_
    exact Follows.step (i2cSendAddress talkByteOps addr retries)
      (hs.start (.inr (hs.delay2 h₁))) fun t₂ h₂ => ih h₂

/-- The code of an address byte. -/
def addressCode {β : Type} (msg : RtI2cMsg) (r : β × Int) : β × Int :=
  if r.2 ≠ 1 ∧ msg.has rtI2cIgnoreNack = false then (r.1, -rtEio) else (r.1, rtEok)

theorem Follows.addressCode {r : Bus M × Int} {F : Talk → Talk × Int} (msg : RtI2cMsg)
    (h : Follows (Busy slave cfg) r F t) :
    Follows (Busy slave cfg) (addressCode msg r) (fun t => addressCode msg (F t)) t := by
  refine Follows.bind (I2c.addressCode msg) h fun t' h' => ?_
  unfold I2c.addressCode
  split
  · exact Follows.pure h'
  · exact Follows.pure h'

theorem bitSendAddress_follows (hs : ByteSim slave cfg ops) (busRetries : Nat) (msg : RtI2cMsg)
    (h : Busy slave cfg b t) :
    Follows (Busy slave cfg) (i2cBitSendAddress ops busRetries msg b)
      (i2cBitSendAddress talkByteOps busRetries msg) t := by
  unfold i2cBitSendAddress
  dsimp only
  generalize (if msg.has rtI2cIgnoreNack then 0 else busRetries) = retries
  split
  · refine Follows.bind (fun r => if r.2 ≠ 1 ∧ msg.has rtI2cIgnoreNack = false then (r.1, -rtEio)
        else
          let s := talkByteOps.writeb r.1 (msg.addr.setWidth 8)
          if s.2 ≠ 1 ∧ msg.has rtI2cIgnoreNack = false then (s.1, -rtEio)
          else if msg.has rtI2cRd then
            addressCode msg
              (i2cSendAddress talkByteOps (tenBitHead msg.addr ||| 0x01) retries s.1.restart)
          else (s.1, rtEok))
      (sendAddress_follows hs _ _ h) fun t₁ h₁ => ?_
    dsimp only
    split
    · exact Follows.pure h₁
    refine Follows.bind (fun s => if s.2 ≠ 1 ∧ msg.has rtI2cIgnoreNack = false then (s.1, -rtEio)
        else if msg.has rtI2cRd then
          addressCode msg
            (i2cSendAddress talkByteOps (tenBitHead msg.addr ||| 0x01) retries s.1.restart)
        else (s.1, rtEok))
      (hs.writeb h₁ _) fun t₂ h₂ => ?_
    dsimp only
    split
    · exact Follows.pure h₂
    split
    · exact Follows.step (fun t => addressCode msg (i2cSendAddress talkByteOps _ _ t))
        (hs.restart h₂) fun t₃ h₃ => (sendAddress_follows hs _ _ h₃).addressCode msg
    · exact Follows.pure h₂
  · exact (sendAddress_follows hs _ _ h).addressCode msg

theorem xferStart_follows (hs : ByteSim slave cfg ops) (busRetries i : Nat) (msg : RtI2cMsg)
    (h : Busy slave cfg b t ∨ i = 0 ∧ Resting slave cfg b t ∧ msg.has rtI2cNoStart = false) :
    Follows (Busy slave cfg) (xferStart ops busRetries i msg b)
      (xferStart talkByteOps busRetries i msg) t := by
  unfold xferStart
  split
  next hno =>
    refine Follows.pure (h.resolve_right fun hr => ?_)
    rw [hr.2.2] at hno
    exact Bool.false_ne_true hno
  next =>
    split
    next hi =>
      exact Follows.step (i2cBitSendAddress talkByteOps busRetries msg)
        (hs.restart (h.resolve_right fun hr => hi hr.1)) fun t₁ h₁ =>
          bitSendAddress_follows hs busRetries msg h₁
    next =>
      exact Follows.step (i2cBitSendAddress talkByteOps busRetries msg)
        (hs.start (h.imp_right fun hr => hr.2.1)) fun t₁ h₁ =>
          bitSendAddress_follows hs busRetries msg h₁

theorem xferData_follows (hs : ByteSim slave cfg ops) (msg : RtI2cMsg) (h : Busy slave cfg b t) :
    Follows (Busy slave cfg) (xferData ops msg b) (xferData talkByteOps msg) t := by
  unfold xferData
  split
  · refine Follows.bind (fun r => if r.2.2 < (msg.buf.length : Int) then
        (r.1, r.2.1, some (if r.2.2 ≥ 0 then -rtEio else r.2.2)) else (r.1, r.2.1, none))
      (recvBytes_follows hs _ _ _ h) fun t₁ h₁ => ?_
    dsimp only
    split
    · exact Follows.pure h₁
    · exact Follows.pure h₁
  · refine Follows.bind (fun r => if r.2 < (msg.buf.length : Int) then
        (r.1, [], some (if r.2 ≥ 0 then -rtError else r.2)) else (r.1, [], none))
      (sendBytes_follows hs _ _ _ h) fun t₁ h₁ => ?_
    dsimp only
    split
    · exact Follows.pure h₁
    · exact Follows.pure h₁

theorem xferMsg_follows (hs : ByteSim slave cfg ops) (busRetries i : Nat) (msg : RtI2cMsg)
    (h : Busy slave cfg b t ∨ i = 0 ∧ Resting slave cfg b t ∧ msg.has rtI2cNoStart = false) :
    Follows (Busy slave cfg) (xferMsg ops busRetries i msg b)
      (xferMsg talkByteOps busRetries i msg) t := by
  unfold xferMsg
  refine Follows.bind (fun r => if r.2 ≠ rtEok ∧ msg.has rtI2cIgnoreNack = false then
      (r.1, [], some r.2) else xferData talkByteOps msg r.1)
    (xferStart_follows hs busRetries i msg h) fun t₁ h₁ => ?_
  dsimp only
  split
  · exact Follows.pure h₁
  · exact xferData_follows hs msg h₁

theorem xferOut_follows (hs : ByteSim slave cfg ops) (msg : RtI2cMsg) (h : Busy slave cfg b t) :
    Follows (Between slave cfg) (xferOut ops msg b, ()) (fun t => (xferOut talkByteOps msg t, ()))
      t := by
  unfold xferOut
  split
  · exact Follows.pure (.inl h)
  · exact (hs.stop h).weaken fun _ _ => .inr

theorem xferMsgs_follows (hs : ByteSim slave cfg ops) (busRetries i : Nat) (msgs : List RtI2cMsg)
    (h : Busy slave cfg b t ∨ i = 0 ∧ Resting slave cfg b t ∧
      ∀ msg ∈ msgs.head?, msg.has rtI2cNoStart = false) :
    Follows (Between slave cfg) (xferMsgs ops busRetries i msgs b)
      (xferMsgs talkByteOps busRetries i msgs) t := by
  induction msgs generalizing i b t with
  | nil => exact Follows.pure (h.imp_right fun hr => hr.2.1)
  | cons msg rest ih =>
    unfold xferMsgs
    refine Follows.bind (afterMsg talkByteOps busRetries i msg rest)
      (xferMsg_follows hs busRetries i msg (h.imp_right fun hr => ⟨hr.1, hr.2.1, hr.2.2 msg rfl⟩))
      fun t₁ h₁ => ?_
    unfold afterMsg
    dsimp only
    cases (xferMsg ops busRetries i msg b).2.2 with
    | some err =>
      exact Follows.step (fun t => (t, [_], err)) (xferOut_follows hs msg h₁)
        fun t₂ h₂ => Follows.pure h₂
    | none =>
      dsimp only
      split
      · exact Follows.step (fun t => (t, [_], _)) (xferOut_follows hs msg h₁)
          fun t₂ h₂ => Follows.pure h₂
      · refine Follows.bind (fun s => (s.1, (xferMsg ops busRetries i msg b).2.1 :: s.2.1, s.2.2))
          (ih (i + 1) (.inl h₁)) fun t₂ h₂ => ?_
        exact Follows.pure h₂

/-! ## Runs of transfers -/

/-- Transfers one after the other: what each of them read, and its result. -/
def xferRun {β : Type} (ops : ByteOps β) (busRetries : Nat) :
    List (List RtI2cMsg) → β → β × List (List (List (BitVec 8)) × Int)
  | [], b => (b, [])
  | msgs :: rest, b =>
    let r := i2cBitXfer ops busRetries msgs b
    let s := xferRun ops busRetries rest r.1
    (s.1, r.2 :: s.2)

/-- A bus that nobody holds, last seen as it is. -/
structure Free (slave : Slave) (cfg : SoftI2cConfig dev) (b : Bus M) : Prop where
  tracks : Tracks cfg b
  scl : drives cfg.scl b.acts = true
  sda : drives cfg.sda b.acts = true
  lines : linesOf slave cfg b.acts = ⟨true, true⟩
  wire : (seen cfg b).lines = linesOf slave cfg b.acts

/-- The upper level of a free bus. -/
def freeTalk (cfg : SoftI2cConfig dev) (b : Bus M) : Talk := ⟨[], (seen cfg b).symbols, .idle, true⟩

theorem Free.resting (h : Free slave cfg b) : Resting slave cfg b (freeTalk cfg b) := by
  have hsda : wireOf slave cfg.sda b.acts = true := congrArg Lines.sda h.lines
  refine ⟨(if_pos hsda).symm, congrArg Lines.scl h.lines, (seen cfg b).pending,
    ⟨h.tracks, h.scl, h.sda, ?_⟩, fun hlow => absurd (hsda.symm.trans hlow) (by simp)⟩
  rw [← h.wire]
  rfl

/-- What `rt_hw_i2c_init` leaves is a free bus, if the slave lets both wires go. -/
theorem initBus_free (slave : Slave) (cfg : SoftI2cConfig dev) (b : Bus M)
    (hfirst : slave (.read cfg.sda :: (initActs cfg ++ b.acts)) cfg.sda = true)
    (hlast : ∀ pin, slave (.read cfg.sda :: .read cfg.sda :: (initActs cfg ++ b.acts)) pin = true) :
    Free slave cfg (initBus slave cfg b).1 := by
  have hscl := gpioInit_scl slave cfg b
  have hsda := gpioInit_sda slave cfg b
  have heq : (initBus slave cfg b).1 =
      (rtPinRead dev slave (rtPinRead dev slave (stm32I2cGpioInit slave cfg b) cfg.sda).1
        cfg.sda).1 := by
    rw [← gpioInit_acts slave] at hfirst
    rw [initBus, unlock_result hsda, clocked_free hsda hfirst]
    split <;> rfl
  have hds : drives cfg.scl (initActs cfg ++ b.acts) = true := by
    simp [initActs, drives, cfg.sdaNe, pinHigh]
  have hdd : drives cfg.sda (initActs cfg ++ b.acts) = true := by
    simp [initActs, drives, pinHigh]
  have htracks : Tracks cfg (stm32I2cGpioInit slave cfg b) := by
    refine ⟨hscl.trans ?_, hsda.trans ?_⟩ <;> rw [gpioInit_acts]
    · rw [hds]; rfl
    · rw [hdd]; rfl
  have hread : ∀ {b : Bus M}, Tracks cfg b →
      Tracks cfg (b.after dev slave (.read cfg.sda) b.pins) := fun ht =>
    ht.passive (passive_read cfg.sda)
  have ht := hread (hread htracks)
  rw [heq]
  refine ⟨ht, hds, hdd, ?_, ?_⟩
  · change (⟨drives cfg.scl _ && slave _ cfg.scl, drives cfg.sda _ && slave _ cfg.sda⟩ : Lines) = _
    rw [rtPinRead_acts, rtPinRead_acts, gpioInit_acts, hlast, hlast]
    change (⟨drives cfg.scl (initActs cfg ++ b.acts) && true,
      drives cfg.sda (initActs cfg ++ b.acts) && true⟩ : Lines) = _
    rw [hds, hdd]
    rfl
  · refine (congrArg Wire.lines (seen_after _ _ ht)).trans ?_
    exact feed_lines

theorem xferRun_follows (hs : ByteSim slave cfg ops) (busRetries : Nat)
    (transfers : List (List RtI2cMsg))
    (hstart : ∀ msgs ∈ transfers, ∀ msg ∈ msgs.head?, msg.has rtI2cNoStart = false)
    (h : Between slave cfg b t) :
    Follows (Between slave cfg) (xferRun ops busRetries transfers b)
      (xferRun talkByteOps busRetries transfers) t := by
  induction transfers generalizing b t with
  | nil => exact Follows.pure h
  | cons msgs rest ih =>
    refine Follows.bind (fun r => ((xferRun talkByteOps busRetries rest r.1).1,
        r.2 :: (xferRun talkByteOps busRetries rest r.1).2))
      (xferMsgs_follows hs busRetries 0 msgs
        (h.imp_right fun hr => ⟨rfl, hr, hstart msgs List.mem_cons_self⟩)) fun t₁ h₁ => ?_
    refine Follows.bind (fun s => (s.1, (i2cBitXfer ops busRetries msgs b).2 :: s.2))
      (ih (fun m hm => hstart m (List.mem_cons_of_mem msgs hm)) h₁) fun t₂ h₂ => ?_
    exact Follows.pure h₂

theorem Between.symbols (h : Between slave cfg b t) : (seen cfg b).symbols = t.symbols := by
  obtain h | h := h
  · rw [h.low.wire]
  · obtain ⟨pending, hr, -⟩ := h.released
    rw [hr.wire]

theorem Between.idle (h : Between slave cfg b t) (hidle : t.phase = .idle) :
    linesOf slave cfg b.acts = ⟨true, true⟩ := by
  obtain h | h := h
  · cases h.phase.symm.trans hidle
  · have hphase := h.phase.symm.trans hidle
    split at hphase
    next hsda => rw [linesOf, h.clock, hsda]
    next => cases hphase

/-- After a stop the data line says whether the slave held it. -/
theorem Between.sda_of_stop (h : Between slave cfg b t.stop) :
    wireOf slave cfg.sda b.acts = t.bits.headD true := by
  unfold Talk.stop at h
  cases hfree : t.bits.headD true with
  | true =>
    rw [hfree, if_pos rfl] at h
    exact congrArg Lines.sda (h.idle rfl)
  | false =>
    rw [hfree, if_neg (by simp)] at h
    have hphase := (h.resolve_left fun hb => nomatch hb.phase).phase
    split at hphase
    next => exact nomatch hphase
    next hsda => exact Bool.eq_false_iff.mpr hsda

/-- A slave that answers to no address. -/
def nobody : Slave := fun _ _ => true

end Live2dStm32.I2c
