import Live2dStm32.I2c.Talk

/-
  Bytes on the wires: with a slave that moves the data line only under a low clock and holds the
  clock for no longer than `SCL_H` waits, each of the functions of `ByteOps` does on the wires
  what its counterpart does with start conditions, stop conditions and pulses.
-/

namespace Live2dStm32.I2c

open Live2dStm32.Lib.TwoWire Live2dStm32.Kernel Live2dStm32.Hal.Gpio Live2dStm32.Gpio

variable {M : Type} {dev : PinDev M} {slave : Slave} {cfg : SoftI2cConfig dev}
  (tick : List Act → BitVec 32)

/-- The slave lets the clock go in time, whenever it holds it. -/
def Prompt (slave : Slave) (cfg : SoftI2cConfig dev) (tick : List Act → BitVec 32) : Prop :=
  ∀ b : Bus M, Tracks cfg b → (sclH (stm32I2cOps slave cfg tick) b).2 = rtEok

variable {b : Bus M} {t : Talk} {v : Bool} {symbols : List Symbol} {pending : Option Bool}

/-! ## Primitives -/

theorem passive_delay (us : Nat) : Passive cfg (.delay us) := fun _ _ h => nomatch h

theorem passive_read (pin : Int) : Passive cfg (.read pin) := fun _ _ h => nomatch h

theorem Low.setSda (h : Low slave cfg b v symbols) (value : Int) :
    Low slave cfg ((stm32I2cOps slave cfg tick).setSda b value) (decide (value ≠ 0)) symbols := by
  change Low slave cfg (stm32SetSda slave cfg b value) _ _
  unfold stm32SetSda
  split
  next hv =>
    rw [decide_eq_true hv]
    exact h.writeSda pinHigh
  next hv =>
    rw [decide_eq_false hv]
    exact h.writeSda pinLow

theorem Low.sclL (h : Low slave cfg b v symbols) :
    Low slave cfg ((stm32I2cOps slave cfg tick).setScl b 0) v symbols := h.writeScl

theorem Low.delay (h : Low slave cfg b v symbols) :
    Low slave cfg (i2cDelay (stm32I2cOps slave cfg tick).toRtI2cBitOps b) v symbols :=
  h.passive (passive_delay _)

/-- What a read of the data line gives. -/
theorem getSda_eq (h : Tracks cfg b) :
    ((stm32I2cOps slave cfg tick).getSda b).2 =
      if wireOf slave cfg.sda (.read cfg.sda :: b.acts) then 1 else 0 := by
  have ht : Tracks cfg (b.after dev slave (.read cfg.sda) b.pins) :=
    h.passive (passive_read cfg.sda)
  change dev.pinRead _ (level dev slave (b.after dev slave (.read cfg.sda) b.pins)) cfg.sda = _
  rw [dev.pinRead_eq _ _ _ cfg.sdaPin, level_of_pad ht.sda]
  rfl

theorem getScl_ne_zero_iff (h : Tracks cfg b) :
    (rtPinRead dev slave b cfg.scl).2 ≠ 0 ↔
      wireOf slave cfg.scl (.read cfg.scl :: b.acts) = true := by
  have ht : Tracks cfg (b.after dev slave (.read cfg.scl) b.pins) :=
    h.passive (passive_read cfg.scl)
  change dev.pinRead _ (level dev slave (b.after dev slave (.read cfg.scl) b.pins)) cfg.scl ≠ 0 ↔ _
  rw [dev.pinRead_eq _ _ _ cfg.sclPin, level_of_pad ht.scl]
  change (if wireOf slave cfg.scl (.read cfg.scl :: b.acts) = true then pinHigh else pinLow) ≠ 0 ↔ _
  by_cases hc : wireOf slave cfg.scl (.read cfg.scl :: b.acts) = true <;>
    simp [hc, pinHigh, pinLow]

theorem neg_etimeout_ne : -rtEtimeout ≠ rtEok := by decide

/-- The high phase of a pulse: its bit is on the data line. -/
structure High (slave : Slave) (cfg : SoftI2cConfig dev) (b : Bus M) (v : Bool)
    (symbols : List Symbol) : Prop where
  clock : wireOf slave cfg.scl b.acts = true
  released : Released slave cfg b v (some (wireOf slave cfg.sda b.acts)) symbols

theorem Rising.high (h : Rising slave cfg b v symbols)
    (hc : wireOf slave cfg.scl b.acts = true) : High slave cfg b v symbols := by
  unfold Rising at h
  rw [if_pos hc] at h
  exact ⟨hc, h⟩

theorem High.passive (hd : Device slave cfg.scl cfg.sda) (h : High slave cfg b v symbols)
    {act : Act} (ha : Passive cfg act) :
    High slave cfg (b.after dev slave act b.pins) v symbols := by
  obtain ⟨hr, hc, hline⟩ := h.released.passive hd h.clock ha
  rw [← hline] at hr
  exact ⟨hc, hr⟩

/-- The bit is the master's and the slave's. -/
theorem High.fall (h : High slave cfg b v symbols) :
    Low slave cfg ((stm32I2cOps slave cfg tick).setScl b 0) v
      (.bit (v && slave b.acts cfg.sda) :: symbols) := by
  have hline : wireOf slave cfg.sda b.acts = (v && slave b.acts cfg.sda) :=
    congrArg (· && slave b.acts cfg.sda) h.released.sda
  rw [← hline]
  exact h.released.fall h.clock

/-- The polling ends with a high clock. -/
theorem sclWait_high (hd : Device slave cfg.scl cfg.sda) (start : BitVec 32) (rounds : Nat)
    (b : Bus M) (h : Rising slave cfg b v symbols)
    (hok : (sclWait (stm32I2cOps slave cfg tick) (fun b => rtPinRead dev slave b cfg.scl) start
      rounds b).2 = rtEok) :
    High slave cfg (sclWait (stm32I2cOps slave cfg tick)
      (fun b => rtPinRead dev slave b cfg.scl) start rounds b).1 v symbols := by
  induction rounds generalizing b with
  | zero => exact absurd hok neg_etimeout_ne
  | succ rounds ih =>
    have hread := h.passive hd (passive_read cfg.scl)
    unfold sclWait at hok ⊢
    dsimp only at hok ⊢
    split at hok
    next hne =>
      rw [if_pos hne]
      exact hread.high ((getScl_ne_zero_iff h.tracks).mp hne)
    next hne =>
      rw [if_neg hne]
      split at hok
      next => exact absurd hok neg_etimeout_ne
      next hin =>
        rw [if_neg hin]
        exact ih _ (hread.passive hd (passive_delay _)) hok

theorem sclH_eq (b : Bus M) : sclH (stm32I2cOps slave cfg tick) b =
    let r := sclWait (stm32I2cOps slave cfg tick) (fun b => rtPinRead dev slave b cfg.scl)
      ((stm32I2cOps slave cfg tick).tickGet ((stm32I2cOps slave cfg tick).setScl b 1)) 4
      ((stm32I2cOps slave cfg tick).setScl b 1)
    if r.2 = rtEok then (i2cDelay (stm32I2cOps slave cfg tick).toRtI2cBitOps r.1, rtEok) else r :=
  rfl

/-- `SCL_H` ends in the high phase of a pulse. -/
theorem sclH_high (hd : Device slave cfg.scl cfg.sda) (hp : Prompt slave cfg tick)
    (h : Low slave cfg b v symbols) :
    High slave cfg (sclH (stm32I2cOps slave cfg tick) b).1 v symbols := by
  have hok := hp b h.tracks
  have hrise : Rising slave cfg ((stm32I2cOps slave cfg tick).setScl b 1) v symbols := h.release
  rw [sclH_eq] at hok ⊢
  dsimp only at hok ⊢
  split at hok
  next hwait =>
    rw [if_pos hwait]
    exact (sclWait_high tick hd _ 4 _ hrise hwait).passive hd (passive_delay _)
  next hwait => exact absurd hok hwait

/-- No code of `SCL_H` is negative then. -/
theorem sclH_not_neg (hp : Prompt slave cfg tick) (h : Tracks cfg b) :
    ¬ (sclH (stm32I2cOps slave cfg tick) b).2 < 0 := by
  rw [hp b h]
  decide

/-- A slave that never holds the clock. -/
theorem prompt_of_free (h : ∀ acts, slave acts cfg.scl = true) : Prompt slave cfg tick := by
  intro b ht
  have hhigh : wireOf slave cfg.scl
      (.read cfg.scl :: (rtPinWrite dev slave b cfg.scl pinHigh).acts) = true := by
    rw [wireOf, h, Bool.and_true]
    exact drives_write_same cfg.scl pinHigh b.acts
  have hwrite : Tracks cfg (rtPinWrite dev slave b cfg.scl pinHigh) := ht.writeScl pinHigh
  have hread := (getScl_ne_zero_iff hwrite).mpr hhigh
  have hwait : (sclWait (stm32I2cOps slave cfg tick) (fun b => rtPinRead dev slave b cfg.scl)
      ((stm32I2cOps slave cfg tick).tickGet ((stm32I2cOps slave cfg tick).setScl b 1)) 4
      ((stm32I2cOps slave cfg tick).setScl b 1)).2 = rtEok := by
    unfold sclWait
    exact congrArg Prod.snd (if_pos hread)
  rw [sclH_eq]
  dsimp only
  rw [if_pos hwait]

/-! ## Pulses -/

/-- The end of a pulse under which the master drives `v`. -/
theorem High.pulse (t : Talk) (h : High slave cfg b v t.symbols) :
    ∃ bits t', Busy slave cfg ((stm32I2cOps slave cfg tick).setScl b 0) t' ∧ t'.sda = v ∧
      ∀ rest, Talk.pulse { t with bits := bits ++ rest } v =
        ({ t' with bits := rest }, wireOf slave cfg.sda b.acts) := by
  refine ⟨[slave b.acts cfg.sda], ⟨[], .bit (v && slave b.acts cfg.sda) :: t.symbols, .busy, v⟩,
    ⟨rfl, h.fall tick⟩, rfl, fun rest => ?_⟩
  have hline : wireOf slave cfg.sda b.acts = (v && slave b.acts cfg.sda) :=
    congrArg (· && slave b.acts cfg.sda) h.released.sda
  rw [hline]
  rfl

theorem Busy.setSda (h : Busy slave cfg b t) (value : Int) :
    Busy slave cfg ((stm32I2cOps slave cfg tick).setSda b value)
      { t with sda := decide (value ≠ 0) } :=
  ⟨h.phase, h.low.setSda tick value⟩

theorem Busy.sclL (h : Busy slave cfg b t) :
    Busy slave cfg ((stm32I2cOps slave cfg tick).setScl b 0) t := ⟨h.phase, h.low.sclL tick⟩

theorem Busy.delay (h : Busy slave cfg b t) :
    Busy slave cfg (i2cDelay (stm32I2cOps slave cfg tick).toRtI2cBitOps b) t :=
  ⟨h.phase, h.low.delay tick⟩

theorem Busy.delay2 (h : Busy slave cfg b t) :
    Busy slave cfg (i2cDelay2 (stm32I2cOps slave cfg tick) b) t :=
  ⟨h.phase, h.low.passive (passive_delay _)⟩

/-- After a read of the data line the pulse goes on. -/
theorem High.getSda (hd : Device slave cfg.scl cfg.sda) (h : High slave cfg b v symbols) :
    High slave cfg ((stm32I2cOps slave cfg tick).getSda b).1 v symbols ∧
      ((stm32I2cOps slave cfg tick).getSda b).2 =
        if wireOf slave cfg.sda ((stm32I2cOps slave cfg tick).getSda b).1.acts then 1 else 0 :=
  ⟨h.passive hd (passive_read _), getSda_eq tick h.released.tracks⟩

theorem Resting.passive (hd : Device slave cfg.scl cfg.sda) (h : Resting slave cfg b t) {act : Act}
    (ha : Passive cfg act) : Resting slave cfg (b.after dev slave act b.pins) t := by
  obtain ⟨pending, hrel, hstuck⟩ := h.released
  obtain ⟨hrel', hc, hline⟩ := hrel.passive hd h.clock ha
  refine ⟨?_, hc, pending, hrel', fun hheld => hstuck (hline.symm.trans hheld)⟩
  exact h.phase.trans (congrArg (fun free => if free then Phase.idle else .stuck) hline.symm)

/-- The master lets a low data line go: a stop condition, and a bus at rest. -/
theorem High.stop (hd : Device slave cfg.scl cfg.sda) (t : Talk)
    (h : High slave cfg b false t.symbols) :
    ∃ bits t', Resting slave cfg ((stm32I2cOps slave cfg tick).setSda b 1) t' ∧
      ∀ rest, (Talk.stop { t with bits := bits ++ rest }, ()) = ({ t' with bits := rest }, ()) := by
  have hheld : wireOf slave cfg.sda b.acts = false := wireOf_of_drives h.released.sda
  obtain ⟨hc, hline, hgo⟩ := h.released.letGo hd h.clock
  by_cases hfree : slave b.acts cfg.sda = true
  · rw [if_pos hfree] at hgo
    rw [hfree] at hline
    refine ⟨[true], ⟨[], .stop :: t.symbols, .idle, true⟩, ⟨?_, hc, none, hgo, ?_⟩, fun _ => rfl⟩
    · exact (if_pos hline).symm
    · exact fun hlow => absurd (hline.symm.trans hlow) (by simp)
  · rw [if_neg hfree, hheld] at hgo
    rw [Bool.eq_false_iff.mpr hfree] at hline
    refine ⟨[false], ⟨[], t.symbols, .stuck, true⟩, ⟨?_, hc, some false, hgo, fun _ => rfl⟩,
      fun _ => rfl⟩
    exact (if_neg (Bool.eq_false_iff.mp hline)).symm

section Byte

variable (hd : Device slave cfg.scl cfg.sda) (hp : Prompt slave cfg tick)
include hd hp

/-- The bits of a byte; the last pulse is ended by what follows. -/
theorem writeBits_follows (data : BitVec 8) (n : Nat) (b : Bus M) (t : Talk)
    (h : Busy slave cfg ((stm32I2cOps slave cfg tick).setScl b 0) t) :
    (writeBits (stm32I2cOps slave cfg tick) data n b).2 = rtEok ∧
      Follows (Busy slave cfg) ((stm32I2cOps slave cfg tick).setScl
        (writeBits (stm32I2cOps slave cfg tick) data n b).1 0, ())
        (fun t => (Talk.writeBits data n t, ())) t := by
  induction n generalizing b t with
  | zero => exact ⟨rfl, Follows.pure h⟩
  | succ n ih =>
    have hset := (h.setSda tick (if data.getLsbD n then 1 else 0)).delay tick
    have hv : decide ((if data.getLsbD n then (1 : Int) else 0) ≠ 0) = data.getLsbD n := by
      cases data.getLsbD n <;> rfl
    rw [hv] at hset
    have hhigh : High slave cfg _ (data.getLsbD n) t.symbols := sclH_high tick hd hp hset.low
    obtain ⟨bits, t', hbusy, -, hpulse⟩ := hhigh.pulse tick t
    obtain ⟨hok, bits', t'', hbusy', hrest⟩ := ih _ t' hbusy
    unfold writeBits
    dsimp only
    rw [if_neg (sclH_not_neg tick hp hset.low.tracks)]
    refine ⟨hok, bits ++ bits', t'', hbusy', fun rest => ?_⟩
    rw [List.append_assoc]
    change (Talk.writeBits data n (Talk.pulse _ (data.getLsbD n)).1, ()) = _
    rw [hpulse (bits' ++ rest)]
    exact hrest rest

theorem waitack_follows (h : Busy slave cfg b t) :
    Follows (Busy slave cfg) (i2cWaitack (stm32I2cOps slave cfg tick) b)
      (fun t => ((t.pulse true).1, if (t.pulse true).2 then 0 else 1)) t := by
  have hset := (h.setSda tick 1).delay tick
  have hlow : Low slave cfg _ true t.symbols := hset.low
  obtain ⟨hhigh, hread⟩ := High.getSda tick hd (sclH_high tick hd hp hlow)
  obtain ⟨bits, t', hbusy, -, hpulse⟩ := hhigh.pulse tick t
  unfold i2cWaitack
  dsimp only
  rw [if_neg (sclH_not_neg tick hp hset.low.tracks), hread]
  refine ⟨bits, t', hbusy, fun rest => ?_⟩
  dsimp only
  rw [hpulse rest]
  split <;> simp

theorem writeb_follows (h : Busy slave cfg b t) (data : BitVec 8) :
    Follows (Busy slave cfg) (i2cWriteb (stm32I2cOps slave cfg tick) b data)
      (fun t => t.writeb data) t := by
  obtain ⟨hok, hbits⟩ := writeBits_follows tick hd hp data 8 b t (h.sclL tick)
  unfold i2cWriteb
  dsimp only
  rw [hok, if_neg (by decide)]
  obtain ⟨bits, t', hbusy, hwrite⟩ := hbits
  obtain ⟨bits', t'', hbusy', hack⟩ := waitack_follows tick hd hp (hbusy.delay tick)
  refine ⟨bits ++ bits', t'', hbusy', fun rest => ?_⟩
  rw [List.append_assoc]
  have hw := congrArg Prod.fst (hwrite (bits' ++ rest))
  dsimp only at hw
  change (((Talk.writeBits data 8 _).pulse true).1,
    if ((Talk.writeBits data 8 _).pulse true).2 then (0 : Int) else 1) = _
  rw [hw]
  exact hack rest

/-- `SCL_H` at the beginning of each round of a read. -/
theorem readBits_follows (data : BitVec 8) (n : Nat) (b : Bus M) (t : Talk)
    (h : Busy slave cfg b t) (hsda : t.sda = true) :
    Follows (fun b t => Busy slave cfg b t ∧ t.sda = true)
      (readBits (stm32I2cOps slave cfg tick) data n b) (fun t => t.readBits data n) t := by
  induction n generalizing data b t with
  | zero => exact Follows.pure ⟨h, hsda⟩
  | succ n ih =>
    have hlow := h.low
    rw [hsda] at hlow
    obtain ⟨hhigh, hread⟩ := High.getSda tick hd (sclH_high tick hd hp hlow)
    obtain ⟨bits, t', hbusy, hsda', hpulse⟩ := hhigh.pulse tick t
    unfold readBits
    dsimp only
    rw [if_neg (sclH_not_neg tick hp hlow.tracks), hread]
    obtain ⟨bits', t'', hpost, hrest⟩ := ih _ _ t' (hbusy.delay2 tick) hsda'
    refine ⟨bits ++ bits', t'', hpost, fun rest => ?_⟩
    rw [List.append_assoc]
    change Talk.readBits (if (Talk.pulse _ true).2 then (data <<< 1) ||| 1 else data <<< 1) n
      (Talk.pulse _ true).1 = _
    rw [hpulse (bits' ++ rest)]
    refine Eq.trans ?_ (hrest rest)
    dsimp only
    cases wireOf slave cfg.sda _ <;> rfl

theorem readb_follows (h : Busy slave cfg b t) :
    Follows (Busy slave cfg) (i2cReadb (stm32I2cOps slave cfg tick) b) Talk.readb t := by
  obtain ⟨bits, t', ⟨hbusy, -⟩, hread⟩ := readBits_follows tick hd hp 0 8 _ { t with sda := true }
    ((h.setSda tick 1).delay tick) rfl
  exact ⟨bits, t', hbusy, hread⟩

theorem sendAckOrNack_follows (h : Busy slave cfg b t) (ack : Nat) :
    Follows (Busy slave cfg) (i2cSendAckOrNack (stm32I2cOps slave cfg tick) b ack)
      (fun t => t.sendAckOrNack ack) t := by
  have hset : Low slave cfg (if ack ≠ 0 then (stm32I2cOps slave cfg tick).setSda b 0 else b)
      (if ack ≠ 0 then false else t.sda) t.symbols := by
    split
    · exact h.low.setSda tick 0
    · exact h.low
  have hhigh := sclH_high tick hd hp (hset.delay tick)
  obtain ⟨bits, t', hbusy, -, hpulse⟩ := hhigh.pulse tick t
  unfold i2cSendAckOrNack
  dsimp only
  rw [if_neg (sclH_not_neg tick hp (hset.delay tick).tracks)]
  refine ⟨bits, t', hbusy, fun rest => ?_⟩
  change ((Talk.pulse _ (if ack ≠ 0 then false else t.sda)).1, rtEok) = _
  rw [hpulse rest]

/-! ## Conditions -/

theorem restart_follows (h : Busy slave cfg b t) :
    Follows (Busy slave cfg) (i2cRestart (stm32I2cOps slave cfg tick) b, ())
      (fun t => (t.restart, ())) t := by
  have hlow : Low slave cfg _ true t.symbols := ((h.setSda tick 1).low)
  have hhigh := (sclH_high tick hd hp hlow).passive hd
    (passive_delay (((stm32I2cOps slave cfg tick).delayUs + 1) >>> 1))
  have hdelay := @passive_delay M dev cfg (((stm32I2cOps slave cfg tick).delayUs + 1) >>> 1)
  cases hline : wireOf slave cfg.sda _ with
  | true =>
    obtain ⟨hstart, hc⟩ := hhigh.released.start hd hhigh.clock hline
    obtain ⟨hwait, hc', -⟩ := hstart.passive hd hc hdelay
    refine ⟨[true], ⟨[], .start :: t.symbols, .busy, false⟩, ⟨rfl, hwait.fall hc'⟩, fun _ => rfl⟩
  | false =>
    have hrel := hhigh.released
    rw [hline] at hrel
    obtain ⟨hstart, hc⟩ := hrel.noStart hd hhigh.clock hline
    obtain ⟨hwait, hc', -⟩ := hstart.passive hd hc hdelay
    refine ⟨[false], ⟨[], .bit false :: t.symbols, .busy, false⟩, ⟨rfl, hwait.fall hc'⟩,
      fun _ => rfl⟩

theorem stop_follows (h : Busy slave cfg b t) :
    Follows (Resting slave cfg) (i2cStop (stm32I2cOps slave cfg tick) b, ())
      (fun t => (t.stop, ())) t := by
  have hlow : Low slave cfg _ false t.symbols := (h.setSda tick 0).low.delay tick
  have hhigh := (sclH_high tick hd hp hlow).passive hd
    (passive_delay (((stm32I2cOps slave cfg tick).delayUs + 1) >>> 1))
  obtain ⟨bits, t', hrest, hstop⟩ := hhigh.stop tick hd t
  exact ⟨bits, t', hrest.passive hd (passive_delay _), hstop⟩

end Byte

/-- `i2c_start` from a bus at rest. -/
theorem start_follows (hd : Device slave cfg.scl cfg.sda) (h : Resting slave cfg b t) :
    Follows (Busy slave cfg) (i2cStart (stm32I2cOps slave cfg tick).toRtI2cBitOps b, ())
      (fun t => (t.start, ())) t := by
  have hdelay := @passive_delay M dev cfg (((stm32I2cOps slave cfg tick).delayUs + 1) >>> 1)
  obtain ⟨pending, hrel, hstuck⟩ := h.released
  have hphase := h.phase
  by_cases hline : wireOf slave cfg.sda b.acts = true
  · obtain ⟨hstart, hc⟩ := hrel.start hd h.clock hline
    obtain ⟨hwait, hc', -⟩ := hstart.passive hd hc hdelay
    rw [if_pos hline] at hphase
    refine ⟨[], ⟨[], .start :: t.symbols, .busy, false⟩, ⟨rfl, hwait.fall hc'⟩, fun rest => ?_⟩
    simp [Talk.start, hphase]
  · obtain ⟨hstart, hc⟩ := hrel.noStart hd h.clock (Bool.eq_false_iff.mpr hline)
    obtain ⟨hwait, hc', -⟩ := hstart.passive hd hc hdelay
    rw [if_neg hline] at hphase
    rw [hstuck (Bool.eq_false_iff.mpr hline)] at hwait
    refine ⟨[], ⟨[], .bit false :: t.symbols, .busy, false⟩, ⟨rfl, hwait.fall hc'⟩,
      fun rest => ?_⟩
    simp [Talk.start, hphase]

/-- And from one in a transfer: no start condition. -/
theorem start_follows_busy (h : Busy slave cfg b t) :
    Follows (Busy slave cfg) (i2cStart (stm32I2cOps slave cfg tick).toRtI2cBitOps b, ())
      (fun t => (t.start, ())) t := by
  refine ⟨[], { t with bits := [], sda := false }, ⟨h.phase, ?_⟩, fun rest => ?_⟩
  · exact ((h.low.setSda tick 0).delay tick).sclL tick
  · simp [Talk.start, h.phase]

/-- Before and after a transfer: one whose last message has no stop condition leaves the bus in
    it. -/
def Between (slave : Slave) (cfg : SoftI2cConfig dev) (b : Bus M) (t : Talk) : Prop :=
  Busy slave cfg b t ∨ Resting slave cfg b t

/-- What the functions above the byte need of those below. -/
structure ByteSim (slave : Slave) (cfg : SoftI2cConfig dev) (ops : ByteOps (Bus M)) : Prop where
  writeb : ∀ {b t}, Busy slave cfg b t → ∀ data,
    Follows (Busy slave cfg) (ops.writeb b data) (fun t => t.writeb data) t
  readb : ∀ {b t}, Busy slave cfg b t → Follows (Busy slave cfg) (ops.readb b) Talk.readb t
  sendAckOrNack : ∀ {b t}, Busy slave cfg b t → ∀ ack,
    Follows (Busy slave cfg) (ops.sendAckOrNack b ack) (fun t => t.sendAckOrNack ack) t
  start : ∀ {b t}, Between slave cfg b t →
    Follows (Busy slave cfg) (ops.start b, ()) (fun t => (t.start, ())) t
  restart : ∀ {b t}, Busy slave cfg b t →
    Follows (Busy slave cfg) (ops.restart b, ()) (fun t => (t.restart, ())) t
  stop : ∀ {b t}, Busy slave cfg b t →
    Follows (Resting slave cfg) (ops.stop b, ()) (fun t => (t.stop, ())) t
  delay2 : ∀ {b t}, Resting slave cfg b t → Resting slave cfg (ops.delay2 b) t

theorem bit_sim (hd : Device slave cfg.scl cfg.sda) (hp : Prompt slave cfg tick) :
    ByteSim slave cfg (bitByteOps (stm32I2cOps slave cfg tick)) where
  writeb := writeb_follows tick hd hp
  readb := readb_follows tick hd hp
  sendAckOrNack := sendAckOrNack_follows tick hd hp
  start h := h.elim (start_follows_busy tick) (start_follows tick hd)
  restart := restart_follows tick hd hp
  stop := stop_follows tick hd hp
  delay2 h := h.passive hd (passive_delay _)

end Live2dStm32.I2c
