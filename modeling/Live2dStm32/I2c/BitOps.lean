import Live2dStm32.I2c.Bus

/-
  The bit-banging master (rt-thread/components/drivers/i2c/i2c-bit-ops.c), from `SCL_H` to
  `i2c_bit_xfer`, over any low-level operations. `SCL_H` polls the clock at most four times: each
  round sleeps half of the timeout, and the fourth finds it over. The logs are left out.

  From `i2c_send_bytes` on, the functions use the wires only through the seven of `ByteOps`.
-/

namespace Live2dStm32.I2c

open Live2dStm32.Kernel

/-- struct rt_i2c_bit_ops, with `rt_tick_get` and `rt_thread_delay`. -/
structure RtI2cOps (β : Type) extends RtI2cBitOps β where
  getSda : β → β × Int
  getScl : Option (β → β × Int)
  timeout : BitVec 32
  tickGet : β → BitVec 32
  threadDelay : β → Nat → β

def rtEio : Int := 8

def rtI2cRd : BitVec 16 := 0x0001
def rtI2cAddr10bit : BitVec 16 := 0x0004
def rtI2cNoStart : BitVec 16 := 0x0010
def rtI2cIgnoreNack : BitVec 16 := 0x0020
def rtI2cNoReadAck : BitVec 16 := 0x0040
def rtI2cNoStop : BitVec 16 := 0x0080

/-- struct rt_i2c_msg; `len` is the length of `buf`. -/
structure RtI2cMsg where
  addr : BitVec 16
  flags : BitVec 16
  buf : List (BitVec 8)
  deriving DecidableEq, Repr

/-- `flags & flag`. -/
def RtI2cMsg.has (msg : RtI2cMsg) (flag : BitVec 16) : Bool := msg.flags &&& flag ≠ 0

section Functions

variable {β : Type} (ops : RtI2cOps β)

def i2cDelay2 (b : β) : β := ops.udelay b ops.delayUs

/-- `while (!GET_SCL(ops))`, with so many rounds left. -/
def sclWait (get : β → β × Int) (start : BitVec 32) : Nat → β → β × Int
  | 0, b => (b, -rtEtimeout)
  | rounds + 1, b =>
    let r := get b
    if r.2 ≠ 0 then (r.1, rtEok)
    else if ops.tickGet r.1 - start > ops.timeout then (r.1, -rtEtimeout)
    else sclWait get start rounds (ops.threadDelay r.1 ((ops.timeout + 1) >>> 1).toNat)

def sclH (b : β) : β × Int :=
  let b := ops.setScl b 1
  match ops.getScl with
  | none => (i2cDelay ops.toRtI2cBitOps b, rtEok)
  | some get =>
    let r := sclWait ops get (ops.tickGet b) 4 b
    if r.2 = rtEok then (i2cDelay ops.toRtI2cBitOps r.1, rtEok) else r

def i2cRestart (b : β) : β :=
  let b := ops.setSda b 1
  let b := (sclH ops b).1
  let b := i2cDelay ops.toRtI2cBitOps b
  let b := ops.setSda b 0
  let b := i2cDelay ops.toRtI2cBitOps b
  ops.setScl b 0

def i2cStop (b : β) : β :=
  let b := ops.setSda b 0
  let b := i2cDelay ops.toRtI2cBitOps b
  let b := (sclH ops b).1
  let b := i2cDelay ops.toRtI2cBitOps b
  let b := ops.setSda b 1
  i2cDelay2 ops b

def i2cWaitack (b : β) : β × Int :=
  let b := ops.setSda b 1
  let b := i2cDelay ops.toRtI2cBitOps b
  let r := sclH ops b
  if r.2 < 0 then (r.1, -rtEtimeout)
  else
    let s := ops.getSda r.1
    (ops.setScl s.1 0, if s.2 = 0 then 1 else 0)

/-- The loop of `i2c_writeb`, with `i` below so many. -/
def writeBits (data : BitVec 8) : Nat → β → β × Int
  | 0, b => (b, rtEok)
  | i + 1, b =>
    let b := ops.setScl b 0
    let b := ops.setSda b (if data.getLsbD i then 1 else 0)
    let b := i2cDelay ops.toRtI2cBitOps b
    let r := sclH ops b
    if r.2 < 0 then (r.1, -rtEtimeout) else writeBits data i r.1

def i2cWriteb (b : β) (data : BitVec 8) : β × Int :=
  let r := writeBits ops data 8 b
  if r.2 < 0 then r
  else
    let b := ops.setScl r.1 0
    let b := i2cDelay ops.toRtI2cBitOps b
    i2cWaitack ops b

def i2cSendAckOrNack (b : β) (ack : Nat) : β × Int :=
  let b := if ack ≠ 0 then ops.setSda b 0 else b
  let b := i2cDelay ops.toRtI2cBitOps b
  let r := sclH ops b
  if r.2 < 0 then (r.1, -rtEtimeout) else (ops.setScl r.1 0, rtEok)

/-- The loop of `i2c_readb`, with so many rounds left. -/
def readBits (data : BitVec 8) : Nat → β → β × Int
  | 0, b => (b, data.toNat)
  | rounds + 1, b =>
    let r := sclH ops b
    if r.2 < 0 then (r.1, -rtEtimeout)
    else
      let s := ops.getSda r.1
      let data := if s.2 ≠ 0 then (data <<< 1) ||| 1 else data <<< 1
      let b := ops.setScl s.1 0
      readBits data rounds (i2cDelay2 ops b)

def i2cReadb (b : β) : β × Int :=
  let b := ops.setSda b 1
  let b := i2cDelay ops.toRtI2cBitOps b
  readBits ops 0 8 b

/-- The functions that the ones below call. -/
structure ByteOps (β : Type) where
  writeb : β → BitVec 8 → β × Int
  readb : β → β × Int
  sendAckOrNack : β → Nat → β × Int
  start : β → β
  restart : β → β
  stop : β → β
  delay2 : β → β

def bitByteOps : ByteOps β where
  writeb := i2cWriteb ops
  readb := i2cReadb ops
  sendAckOrNack := i2cSendAckOrNack ops
  start := i2cStart ops.toRtI2cBitOps
  restart := i2cRestart ops
  stop := i2cStop ops
  delay2 := i2cDelay2 ops

end Functions

section Transfers

variable {β : Type} (ops : ByteOps β)

/-- `i2c_send_bytes`, with the bytes left and the number sent. -/
def i2cSendBytes (ignoreNack : Bool) : List (BitVec 8) → Nat → β → β × Int
  | [], bytes, b => (b, bytes)
  | data :: rest, bytes, b =>
    let r := ops.writeb b data
    if r.2 > 0 ∨ (ignoreNack = true ∧ r.2 = 0) then i2cSendBytes ignoreNack rest (bytes + 1) r.1
    else if r.2 = 0 then (r.1, 0)
    else r

/-- `i2c_recv_bytes`: `count` bytes to go, those put into `buf`, and the result. -/
def i2cRecvBytes (noReadAck : Bool) : Nat → List (BitVec 8) → β → β × List (BitVec 8) × Int
  | 0, got, b => (b, got, got.length)
  | count + 1, got, b =>
    let r := ops.readb b
    if r.2 < 0 then (r.1, got, got.length)
    else
      let got := got ++ [BitVec.ofInt 8 r.2]
      if noReadAck then i2cRecvBytes noReadAck count got r.1
      else
        let a := ops.sendAckOrNack r.1 count
        if a.2 < 0 then (a.1, got, a.2) else i2cRecvBytes noReadAck count got a.1

/-- `i2c_send_address`, with so many rounds after this one. -/
def i2cSendAddress (addr : BitVec 8) : Nat → β → β × Int
  | 0, b => ops.writeb b addr
  | retries + 1, b =>
    let r := ops.writeb b addr
    if r.2 = 1 then r
    else i2cSendAddress addr retries (ops.start (ops.delay2 (ops.stop r.1)))

/-- `0xf0 | ((msg->addr >> 7) & 0x06)`. -/
def tenBitHead (addr : BitVec 16) : BitVec 8 := 0xf0 ||| ((addr >>> 7).setWidth 8 &&& 0x06)

/-- `msg->addr << 1`, with the direction. -/
def sevenBitHead (msg : RtI2cMsg) : BitVec 8 :=
  let addr1 := msg.addr.setWidth 8 <<< 1
  if msg.has rtI2cRd then addr1 ||| 1 else addr1

/-- `bus->retries` goes through an `rt_int32_t`; here it is a natural number, below 2^31 that is. -/
def i2cBitSendAddress (busRetries : Nat) (msg : RtI2cMsg) (b : β) : β × Int :=
  let ignoreNack := msg.has rtI2cIgnoreNack
  let retries := if ignoreNack then 0 else busRetries
  if msg.has rtI2cAddr10bit then
    let addr1 := tenBitHead msg.addr
    let r := i2cSendAddress ops addr1 retries b
    if r.2 ≠ 1 ∧ ignoreNack = false then (r.1, -rtEio)
    else
      let r := ops.writeb r.1 (msg.addr.setWidth 8)
      if r.2 ≠ 1 ∧ ignoreNack = false then (r.1, -rtEio)
      else if msg.has rtI2cRd then
        let r := i2cSendAddress ops (addr1 ||| 0x01) retries (ops.restart r.1)
        if r.2 ≠ 1 ∧ ignoreNack = false then (r.1, -rtEio) else (r.1, rtEok)
      else (r.1, rtEok)
  else
    let r := i2cSendAddress ops (sevenBitHead msg) retries b
    if r.2 ≠ 1 ∧ ignoreNack = false then (r.1, -rtEio) else (r.1, rtEok)

/-- The start of message `i` in `i2c_bit_xfer`. -/
def xferStart (busRetries i : Nat) (msg : RtI2cMsg) (b : β) : β × Int :=
  if msg.has rtI2cNoStart then (b, rtEok)
  else i2cBitSendAddress ops busRetries msg (if i ≠ 0 then ops.restart b else ops.start b)

/-- Its bytes: those read into its buffer, and the code it goes out with, if it does. -/
def xferData (msg : RtI2cMsg) (b : β) : β × List (BitVec 8) × Option Int :=
  if msg.has rtI2cRd then
    let r := i2cRecvBytes ops (msg.has rtI2cNoReadAck) msg.buf.length [] b
    if r.2.2 < msg.buf.length then
      (r.1, r.2.1, some (if r.2.2 ≥ 0 then -rtEio else r.2.2))
    else (r.1, r.2.1, none)
  else
    let r := i2cSendBytes ops (msg.has rtI2cIgnoreNack) msg.buf 0 b
    if r.2 < msg.buf.length then (r.1, [], some (if r.2 ≥ 0 then -rtError else r.2))
    else (r.1, [], none)

def xferMsg (busRetries i : Nat) (msg : RtI2cMsg) (b : β) : β × List (BitVec 8) × Option Int :=
  let r := xferStart ops busRetries i msg b
  if r.2 ≠ rtEok ∧ msg.has rtI2cIgnoreNack = false then (r.1, [], some r.2)
  else xferData ops msg r.1

/-- `out:` -/
def xferOut (msg : RtI2cMsg) (b : β) : β :=
  if msg.has rtI2cNoStop then b else ops.stop b

/-- `i2c_bit_xfer` from message `i` on: the bytes read by each message, and the result. -/
def xferMsgs (busRetries : Nat) : Nat → List RtI2cMsg → β → β × List (List (BitVec 8)) × Int
  | i, [], b => (b, [], i)
  | i, msg :: rest, b =>
    let r := xferMsg ops busRetries i msg b
    match r.2.2 with
    | some err => (xferOut ops msg r.1, [r.2.1], err)
    | none =>
      if rest.isEmpty then (xferOut ops msg r.1, [r.2.1], i + 1)
      else
        let s := xferMsgs busRetries (i + 1) rest r.1
        (s.1, r.2.1 :: s.2.1, s.2.2)

/-- What `xferMsgs` does once a message is through. -/
def afterMsg (busRetries i : Nat) (msg : RtI2cMsg) (rest : List RtI2cMsg)
    (r : β × List (BitVec 8) × Option Int) : β × List (List (BitVec 8)) × Int :=
  match r.2.2 with
  | some err => (xferOut ops msg r.1, [r.2.1], err)
  | none =>
    if rest.isEmpty then (xferOut ops msg r.1, [r.2.1], i + 1)
    else
      let s := xferMsgs ops busRetries (i + 1) rest r.1
      (s.1, r.2.1 :: s.2.1, s.2.2)

def i2cBitXfer (busRetries : Nat) (msgs : List RtI2cMsg) (b : β) :
    β × List (List (BitVec 8)) × Int :=
  xferMsgs ops busRetries 0 msgs b

end Transfers

/-! ## The operations of the board -/

variable {M : Type} {dev : PinDev M}

/-- `stm32_bit_ops_default`; `tick` is what `rt_tick_get` gives, and a tick is a millisecond. -/
def stm32I2cOps (slave : Slave) (cfg : SoftI2cConfig dev) (tick : List Act → BitVec 32) :
    RtI2cOps (Bus M) where
  toRtI2cBitOps := stm32BitOps slave cfg
  getSda b := rtPinRead dev slave b cfg.sda
  getScl := some fun b => rtPinRead dev slave b cfg.scl
  timeout := 100
  tickGet b := tick b.acts
  threadDelay b ticks := stm32Udelay dev slave b (ticks * 1000)

end Live2dStm32.I2c
