import Live2dStm32.Kernel.Semaphore
import Live2dStm32.Lib.Bits

/-
  Commands of the SDIO host driver (drivers/drv_sdio.c, drv_sdio.h, mmcsd_core.h): the status
  flags, the command and data structures, and what `rthw_sdio_wait_completed` and the data
  phase of `rthw_sdio_send_command` make of what they observe.

  `sendCommand_err_ne_zero_iff`: a command ends with an error exactly when its observation
  `Fails`: no event came, the consumed status word counts as an error for the response type, or
  in the data phase the busy loop ran out or the last status word has an error flag.
-/

namespace Live2dStm32.Sdio

open Live2dStm32.Kernel Live2dStm32.Lib

abbrev Word := BitVec 32

/-! ## Status flags -/

def staCcrcfail : Word := bit 32 0
def staDcrcfail : Word := bit 32 1
def staCtimeout : Word := bit 32 2
def staDtimeout : Word := bit 32 3
def staTxunderr : Word := bit 32 4
def staRxoverr : Word := bit 32 5
def staCmdrend : Word := bit 32 6
def staCmdsent : Word := bit 32 7
def staDataend : Word := bit 32 8
def staDpsmact : Word := bit 32 12
def staAcktimeout : Word := bit 32 24
def staIdmate : Word := bit 32 27

def sdioErrors : Word :=
  staIdmate ||| staAcktimeout ||| staRxoverr ||| staTxunderr ||| staDtimeout ||| staCtimeout |||
    staDcrcfail ||| staCcrcfail

/-- The bits of MASK stand where those of STA do. -/
def sdioMaskrAll : Word :=
  staCcrcfail ||| staDcrcfail ||| staCtimeout ||| staTxunderr ||| staRxoverr ||| staCmdrend |||
    staCmdsent ||| staDataend ||| staAcktimeout

/-- The flags that stay set until they are cleared through ICR: bits 0–11 and 21–28. The others
    follow the state of the controller. -/
def icrFlags : Word := 0x1FE00FFF

def sdioTxRxCompleteTimeoutLoops : Nat := 1000000

def sdioBuffSize : Nat := 4096

/-! ## Commands -/

def respMask : Word := 0xF
def respNone : Word := 0
def respR1 : Word := 1
def respR1b : Word := 2
def respR2 : Word := 3
def respR3 : Word := 4
def respR4 : Word := 5

def dataDirWrite : Word := 1
def dataDirRead : Word := 2

/-- `struct rt_mmcsd_data`, with the bytes `buf` points to. -/
structure MmcsdData where
  blksize : Word
  blks : Word
  flags : Word
  err : Int
  buf : List (BitVec 8)
  deriving DecidableEq, Repr

/-- `data->blks * data->blksize`. -/
def MmcsdData.size (data : MmcsdData) : Nat := (data.blks * data.blksize).toNat

def MmcsdData.isRead (data : MmcsdData) : Bool := data.flags &&& dataDirRead ≠ 0

def MmcsdData.isWrite (data : MmcsdData) : Bool := data.flags &&& dataDirWrite ≠ 0

/-- Four words, of `cmd->resp` or of RESP1 to RESP4. -/
structure Resp where
  r1 : Word
  r2 : Word
  r3 : Word
  r4 : Word
  deriving DecidableEq, Repr

def Resp.zero : Resp := ⟨0, 0, 0, 0⟩

/-- `struct rt_mmcsd_cmd`. -/
structure MmcsdCmd where
  cmdCode : Word
  arg : Word
  flags : Word
  resp : Resp
  retries : Int
  err : Int
  data : Option MmcsdData
  deriving DecidableEq, Repr

/-- `resp_type(cmd)`, on the flags. -/
def respType (flags : Word) : Word := flags &&& respMask

/-! ## The pieces of `rthw_sdio_send_command` -/

/-- `cmd->resp` after the response registers are copied: all four for an R2, else the first. -/
def copyResp (flags : Word) (resp regs : Resp) : Resp :=
  if respType flags = respR2 then regs else { resp with r1 := regs.r1 }

/-- `cmd->err` from the consumed status word. -/
def classify (flags status : Word) : Int :=
  if status &&& sdioErrors ≠ 0 then
    if status &&& staCcrcfail ≠ 0 ∧ respType flags &&& (respR3 ||| respR4) ≠ 0 then rtEok
    else -rtError
  else rtEok

/-- `rthw_sdio_wait_completed`; `recv` is the status word of `rt_event_recv`, `none` if it
    timed out. -/
def waitCompleted (cmd : MmcsdCmd) (recv : Option Word) (regs : Resp) : MmcsdCmd :=
  match recv with
  | none => { cmd with err := -rtEtimeout }
  | some status =>
    { cmd with resp := copyResp cmd.flags cmd.resp regs, err := classify cmd.flags status }

/-- `while (count && (sta & DPSMACT)) count--`, over the successive reads of STA: the count
    left, and the number of reads made. -/
def busyLoop : Nat → (Nat → Word) → Nat × Nat
  | 0, _ => (0, 0)
  | count + 1, sta =>
    if sta 0 &&& staDpsmact ≠ 0 then
      let rest := busyLoop count fun i => sta (i + 1)
      (rest.1, rest.2 + 1)
    else (count + 1, 1)

/-- `cmd->err` after the check that follows the loop. -/
def dataErr (err : Int) (count : Nat) (sta : Word) : Int :=
  if count = 0 ∨ sta &&& sdioErrors ≠ 0 then -rtError else err

/-! ## A command and what it observes -/

/-- What one `rthw_sdio_send_command` sees of the world: the event, the response registers, and
    the reads of STA in the data phase. -/
structure Obs where
  recv : Option Word
  regs : Resp
  sta : Nat → Word

/-- The last read of STA. -/
def Obs.lastSta (o : Obs) : Word := o.sta (busyLoop sdioTxRxCompleteTimeoutLoops o.sta).2

/-- `rthw_sdio_send_command`, as far as the command structure goes. -/
def sendCommand (o : Obs) (cmd : MmcsdCmd) : MmcsdCmd :=
  let cmd := waitCompleted cmd o.recv o.regs
  match cmd.data with
  | none => cmd
  | some _ =>
    let count := (busyLoop sdioTxRxCompleteTimeoutLoops o.sta).1
    { cmd with err := dataErr cmd.err count o.lastSta }

/-- The wait fails: no event, or a status word that counts as an error. -/
def Obs.WaitFails (flags : Word) (o : Obs) : Prop :=
  match o.recv with
  | none => True
  | some status => classify flags status ≠ 0

instance (flags : Word) (o : Obs) : Decidable (o.WaitFails flags) := by
  unfold Obs.WaitFails
  split <;> infer_instance

/-- The data phase fails: the path stays active until the loop runs out, or an error flag is
    left at the end. -/
def Obs.DataFails (o : Obs) : Prop :=
  (∀ i < sdioTxRxCompleteTimeoutLoops, o.sta i &&& staDpsmact ≠ 0) ∨
    o.lastSta &&& sdioErrors ≠ 0

/-- The loop runs out when none of the reads it may make is idle. -/
theorem busyLoop_eq_zero_iff (n : Nat) (sta : Nat → Word) :
    (busyLoop n sta).1 = 0 ↔ ∀ i < n, sta i &&& staDpsmact ≠ 0 := by
  induction n generalizing sta with
  | zero => simp [busyLoop]
  | succ n ih =>
    unfold busyLoop
    split
    case isTrue h =>
      dsimp only
      rw [ih]
      constructor
      · intro hall i hi
        cases i with
        | zero => exact h
        | succ i => exact hall i (by omega)
      · intro hall i hi
        exact hall (i + 1) (by omega)
    case isFalse h =>
      refine iff_of_false (Nat.succ_ne_zero n) fun hall => ?_
      exact h (hall 0 (Nat.succ_pos n))

theorem dataErr_ne_zero_iff (err : Int) (count : Nat) (sta : Word) :
    dataErr err count sta ≠ 0 ↔ err ≠ 0 ∨ count = 0 ∨ sta &&& sdioErrors ≠ 0 := by
  unfold dataErr
  split
  case isTrue h => exact iff_of_true (by decide) (Or.inr h)
  case isFalse h => simp only [h, or_false]

theorem waitCompleted_err_ne_zero_iff (cmd : MmcsdCmd) (o : Obs) :
    (waitCompleted cmd o.recv o.regs).err ≠ 0 ↔ o.WaitFails cmd.flags := by
  unfold waitCompleted Obs.WaitFails
  cases o.recv with
  | none => exact iff_of_true (show -rtEtimeout ≠ 0 by decide) trivial
  | some status => exact Iff.rfl

@[simp] theorem waitCompleted_data (cmd : MmcsdCmd) (recv : Option Word) (regs : Resp) :
    (waitCompleted cmd recv regs).data = cmd.data := by
  unfold waitCompleted
  cases recv <;> rfl

/-- The observation makes the command fail. -/
def Obs.Fails (o : Obs) (flags : Word) (hasData : Bool) : Prop :=
  o.WaitFails flags ∨ (hasData = true ∧ o.DataFails)

theorem sendCommand_err_ne_zero_iff (o : Obs) (cmd : MmcsdCmd) :
    (sendCommand o cmd).err ≠ 0 ↔ o.Fails cmd.flags cmd.data.isSome := by
  unfold sendCommand Obs.Fails
  dsimp only
  rw [waitCompleted_data]
  cases cmd.data with
  | none =>
    rw [waitCompleted_err_ne_zero_iff]
    simp
  | some data =>
    dsimp only
    rw [dataErr_ne_zero_iff, waitCompleted_err_ne_zero_iff, busyLoop_eq_zero_iff]
    simp [Obs.DataFails]

/-- A command without data. -/
theorem sendCommand_err_of_noData (o : Obs) {cmd : MmcsdCmd} (h : cmd.data = none) :
    (sendCommand o cmd).err ≠ 0 ↔ o.WaitFails cmd.flags := by
  rw [sendCommand_err_ne_zero_iff]
  simp [Obs.Fails, h]

@[simp] theorem sendCommand_retries (o : Obs) (cmd : MmcsdCmd) :
    (sendCommand o cmd).retries = cmd.retries := by
  unfold sendCommand waitCompleted
  cases o.recv <;> cases cmd.data <;> rfl

@[simp] theorem sendCommand_flags (o : Obs) (cmd : MmcsdCmd) :
    (sendCommand o cmd).flags = cmd.flags := by
  unfold sendCommand waitCompleted
  cases o.recv <;> cases cmd.data <;> rfl

@[simp] theorem sendCommand_data (o : Obs) (cmd : MmcsdCmd) :
    (sendCommand o cmd).data = cmd.data := by
  unfold sendCommand waitCompleted
  cases o.recv <;> cases hd : cmd.data <;> simp

@[simp] theorem copyResp_r1 (flags : Word) (resp regs : Resp) :
    (copyResp flags resp regs).r1 = regs.r1 := by
  unfold copyResp
  split <;> rfl

/-- A command that does not time out has the first response word. -/
theorem sendCommand_resp (o : Obs) (cmd : MmcsdCmd) (h : (sendCommand o cmd).err = 0) :
    (sendCommand o cmd).resp.r1 = o.regs.r1 := by
  have hwait : ¬ o.WaitFails cmd.flags := fun hf =>
    (sendCommand_err_ne_zero_iff o cmd).mpr (Or.inl hf) h
  unfold sendCommand waitCompleted
  cases hr : o.recv with
  | none => exact absurd (show o.WaitFails cmd.flags by rw [Obs.WaitFails, hr]; trivial) hwait
  | some status => cases cmd.data <;> exact copyResp_r1 cmd.flags cmd.resp o.regs

end Live2dStm32.Sdio
