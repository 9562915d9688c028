import Mathlib.Tactic.Common
import Mathlib.Algebra.Group.Nat.Defs
import Mathlib.Data.Nat.Find
import Live2dStm32.Hal.Dma

/-
  The SPI driver (drivers/drv_spi.c): `spixfer`, which cuts a message into chunks the HAL can
  count in 16 bits. What the HAL does with each chunk is a stream of outcomes.

  The rounds of the loop end because the remaining length gets smaller (`rest_lt`). The address
  of a chunk is recomputed in each round from `message->length`: `already_send_length` is
  `message->length` less what remained before the round (`already_eq`), in 32 bits.
-/

namespace Live2dStm32.Spi

open Live2dStm32.Hal.Dma (HalStatus)

/-- SPI_DATASIZE_8BIT and SPI_DATASIZE_16BIT, the two `stm32_spi_init` sets. -/
inductive DataSize where
  | bits8
  | bits16
  deriving DecidableEq, Repr

/-- The bytes the HAL moves its pointers by for one item. -/
def DataSize.bytes : DataSize → Nat
  | .bits8 => 1
  | .bits16 => 2

/-- `spi_dma_flag` and the data size of the handle. -/
structure Stm32Spi where
  usingTxDma : Bool
  usingRxDma : Bool
  dataSize : DataSize
  deriving DecidableEq, Repr

/-- Buffers are addresses, 0 for a missing one. `length` counts items. -/
structure RtSpiMessage where
  sendBuf : BitVec 32
  recvBuf : BitVec 32
  length : BitVec 32
  csTake : Bool
  csRelease : Bool
  deriving DecidableEq, Repr

/-- What the HAL does with a chunk: the returned status, and whether each later
    `HAL_SPI_GetState` sees READY. A transfer ends. -/
structure HalXfer where
  status : HalStatus
  ready : Nat → Bool
  ends : ∃ n, ready n = true

inductive HalFn where
  | transmitReceiveDma
  | transmitReceive
  | transmitDma
  | transmit
  | receiveDma
  | receive
  deriving DecidableEq, Repr

def HalFn.sends : HalFn → Bool
  | .receiveDma | .receive => false
  | _ => true

def HalFn.receives : HalFn → Bool
  | .transmitDma | .transmit => false
  | _ => true

/-- One round: the call of the HAL with its pointers and size, the `memset` before it as address
    and number of bytes, and the polls of `HAL_SPI_GetState` that did not see READY. -/
structure Chunk where
  fn : HalFn
  sendBuf : BitVec 32
  recvBuf : BitVec 32
  size : BitVec 16
  fill : Option (BitVec 32 × Nat)
  polls : Nat
  deriving DecidableEq, Repr

/-- Which function of the HAL is called. -/
def halFn (drv : Stm32Spi) (message : RtSpiMessage) : HalFn :=
  if message.sendBuf ≠ 0 ∧ message.recvBuf ≠ 0 then
    if drv.usingTxDma && drv.usingRxDma then .transmitReceiveDma else .transmitReceive
  else if message.sendBuf ≠ 0 then
    if drv.usingTxDma then .transmitDma else .transmit
  else
    if drv.usingRxDma then .receiveDma else .receive

/-- `while (HAL_SPI_GetState(spi_handle) != HAL_SPI_STATE_READY);`. After a failure the driver
    has set the state to READY itself. -/
def HalXfer.polls (x : HalXfer) : Nat := if x.status ≠ .ok then 0 else Nat.find x.ends

/-- `send_length` and the new `message_length` of a round. -/
def sendLength (messageLength : BitVec 32) : BitVec 16 :=
  if 65535 < messageLength then 65535 else messageLength.setWidth 16

def rest (messageLength : BitVec 32) : BitVec 32 :=
  if 65535 < messageLength then messageLength - 65535 else 0

def chunk (drv : Stm32Spi) (message : RtSpiMessage) (x : HalXfer) (alreadySendLength : BitVec 32)
    (size : BitVec 16) : Chunk :=
  let sendBuf := message.sendBuf + alreadySendLength
  let recvBuf := message.recvBuf + alreadySendLength
  let fn := halFn drv message
  ⟨fn, sendBuf, recvBuf, size, if fn.sends then none else some (recvBuf, size.toNat), x.polls⟩

theorem sendLength_toNat (m : BitVec 32) : (sendLength m).toNat = min m.toNat 65535 := by
  unfold sendLength
  split
  case isTrue h =>
    have hm : 65535 < m.toNat := h
    exact (Nat.min_eq_right (Nat.le_of_lt hm)).symm
  case isFalse h =>
    have hm : ¬ 65535 < m.toNat := h
    rw [BitVec.toNat_setWidth, Nat.mod_eq_of_lt (by omega), Nat.min_eq_left (by omega)]

theorem rest_toNat (m : BitVec 32) : (rest m).toNat = m.toNat - min m.toNat 65535 := by
  unfold rest
  split
  case isTrue h =>
    have hm : 65535 < m.toNat := h
    have hle : (65535 : BitVec 32) ≤ m := Nat.le_of_lt hm
    rw [BitVec.toNat_sub_of_le hle, Nat.min_eq_right (by omega)]
    rfl
  case isFalse h =>
    have hm : ¬ 65535 < m.toNat := h
    rw [Nat.min_eq_left (by omega), Nat.sub_self]
    rfl

/-- The loop ends. -/
theorem rest_lt {m : BitVec 32} (h : m ≠ 0) : (rest m).toNat < m.toNat := by
  have hm : 0 < m.toNat := BitVec.toNat_pos_of_ne_zero h
  rw [rest_toNat]
  omega

/-- A last chunk. -/
theorem rest_eq_zero_iff {m : BitVec 32} : rest m = 0 ↔ m.toNat ≤ 65535 := by
  rw [← BitVec.toNat_inj, rest_toNat]
  change m.toNat - min m.toNat 65535 = 0 ↔ _
  omega

/-- The rounds from the `i`th on, with `messageLength` items still to go and `length` in
    `message->length`. The result has what is then in `message->length`. -/
def spixferFrom (drv : Stm32Spi) (message : RtSpiMessage) (x : Nat → HalXfer) (i : Nat)
    (messageLength length : BitVec 32) : List Chunk × BitVec 32 :=
  if _h : messageLength = 0 then ([], length)
  else
    let size := sendLength messageLength
    let alreadySendLength := length - size.setWidth 32 - rest messageLength
    let length' := if (x i).status ≠ .ok then 0 else length
    let (chunks, last) := spixferFrom drv message x (i + 1) (rest messageLength) length'
    (chunk drv message (x i) alreadySendLength size :: chunks, last)
termination_by messageLength.toNat
decreasing_by exact rest_lt _h

/-- `cs`: the levels written to the chip select. -/
structure SpiXfer where
  cs : List Bool
  chunks : List Chunk
  ret : BitVec 32
  deriving DecidableEq, Repr

def spixfer (drv : Stm32Spi) (message : RtSpiMessage) (x : Nat → HalXfer) : SpiXfer :=
  let (chunks, ret) := spixferFrom drv message x 0 message.length message.length
  ⟨(if message.csTake then [false] else []) ++ (if message.csRelease then [true] else []),
    chunks, ret⟩

/-! ## One round -/

variable {drv : Stm32Spi} {message : RtSpiMessage} {x : Nat → HalXfer}

@[simp] theorem spixferFrom_zero (i : Nat) (length : BitVec 32) :
    spixferFrom drv message x i 0 length = ([], length) := by
  rw [spixferFrom, dif_pos rfl]

theorem sendLength_add_rest (m : BitVec 32) : (sendLength m).setWidth 32 + rest m = m := by
  apply BitVec.eq_of_toNat_eq
  have hm : m.toNat < 2 ^ 32 := m.isLt
  rw [BitVec.toNat_add, BitVec.toNat_setWidth, sendLength_toNat, rest_toNat]
  omega

theorem already_eq (length m : BitVec 32) :
    length - (sendLength m).setWidth 32 - rest m = length - m := by
  have h := sendLength_add_rest m
  calc length - (sendLength m).setWidth 32 - rest m
      = length - ((sendLength m).setWidth 32 + rest m) := by bv_omega
    _ = length - m := by rw [h]

theorem spixferFrom_of_ne {i : Nat} {m length : BitVec 32} (h : m ≠ 0) :
    spixferFrom drv message x i m length =
      (chunk drv message (x i) (length - m) (sendLength m) ::
        (spixferFrom drv message x (i + 1) (rest m)
          (if (x i).status ≠ .ok then 0 else length)).1,
        (spixferFrom drv message x (i + 1) (rest m)
          (if (x i).status ≠ .ok then 0 else length)).2) := by
  rw [spixferFrom, dif_neg h]
  dsimp only
  rw [already_eq]

theorem add_sub_self_left (a b : BitVec 32) : a + b - a = b := by
  rw [BitVec.add_comm, BitVec.add_sub_cancel]

theorem sends_iff (drv : Stm32Spi) (message : RtSpiMessage) :
    (halFn drv message).sends = true ↔ message.sendBuf ≠ 0 := by
  unfold halFn
  by_cases hs : message.sendBuf = 0 <;> by_cases hr : message.recvBuf = 0 <;> simp only [hs, hr,
    ne_eq, not_true_eq_false, not_false_eq_true, and_self, and_false, false_and, if_true, if_false,
    iff_true, iff_false] <;> split <;> decide

/-- A call that does not send receives. -/
theorem receives_of_not_sends {fn : HalFn} (h : fn.sends = false) : fn.receives = true := by
  cases fn <;> first | rfl | cases h

end Live2dStm32.Spi
