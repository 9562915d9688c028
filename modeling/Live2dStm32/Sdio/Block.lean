import Live2dStm32.Sdio.Command

/-
  A block request from the block layer to the SD host: `rt_mmcsd_req_blk` (block_dev.c) over
  `mmcsd_send_request` and `mmcsd_send_cmd` (mmcsd_core.c) over `rthw_sdio_request`. The
  controller is a stream of observations, one for each command sent (`ctl`).

  The host reports a failure in `cmd->err` only. A write then polls the card with SEND_STATUS
  in the same command structure, so the poll overwrites the error of the data command.
  `failureReported_iff`: a recorded failure comes back as -RT_ERROR exactly when the request is
  a read, or the polling ends in an error itself, or the stop command failed and the polling
  ends.
-/

namespace Live2dStm32.Sdio

open Live2dStm32.Kernel

/-! ## Requests -/

/-- `struct rt_mmcsd_req`. While a request with data is under way `cmd.data` is `data`. -/
structure MmcsdReq where
  cmd : MmcsdCmd
  data : Option MmcsdData
  stop : Option MmcsdCmd
  deriving DecidableEq, Repr

/-- `rthw_sdio_request` from the `k`-th command on: the command, then the stop command. -/
def rthwSdioRequest (ctl : Nat → Obs) (k : Nat) (req : MmcsdReq) : MmcsdReq × Nat :=
  let cmd := sendCommand (ctl k) req.cmd
  match req.stop with
  | none => ({ req with cmd }, k + 1)
  | some stop => ({ req with cmd, stop := some (sendCommand (ctl (k + 1)) stop) }, k + 2)

/-- The top of the loop body of `mmcsd_send_request`: one retry is used up, the errors are
    reset, the data is hung on the command. -/
def prepare (req : MmcsdReq) : MmcsdReq :=
  let cmd := { req.cmd with retries := req.cmd.retries - 1, err := 0 }
  match req.data with
  | none => { req with cmd }
  | some data =>
    let data := { data with err := 0 }
    { cmd := { cmd with data := some data }
      data := some data
      stop := req.stop.map fun stop => { stop with err := 0 } }

/-- The loop of `mmcsd_send_request` with at most `n` further passes. -/
def sendRequestLoop (ctl : Nat → Obs) : Nat → Nat → MmcsdReq → MmcsdReq × Nat
  | 0, k, req => rthwSdioRequest ctl k (prepare req)
  | n + 1, k, req =>
    let done := rthwSdioRequest ctl k (prepare req)
    if done.1.cmd.err ≠ 0 ∧ 0 < done.1.cmd.retries then sendRequestLoop ctl n done.2 done.1
    else done

/-- `mmcsd_send_request`: each pass uses up a retry, so there are no more than `retries`. -/
def mmcsdSendRequest (ctl : Nat → Obs) (k : Nat) (req : MmcsdReq) : MmcsdReq × Nat :=
  sendRequestLoop ctl (req.cmd.retries - 1).toNat k req

/-- `mmcsd_send_cmd`. -/
def mmcsdSendCmd (ctl : Nat → Obs) (k : Nat) (cmd : MmcsdCmd) (retries : Int) : MmcsdCmd × Nat :=
  let done := mmcsdSendRequest ctl k
    { cmd := { cmd with resp := Resp.zero, retries, data := none }, data := none, stop := none }
  (done.1.cmd, done.2)

/-! ## The block request -/

def readSingleBlock : Word := 17
def readMultipleBlock : Word := 18
def writeBlock : Word := 24
def writeMultipleBlock : Word := 25
def stopTransmission : Word := 12
def sendStatus : Word := 13

def respSpiR1 : Word := 0x40
def respSpiR1b : Word := 0x80
def cmdAc : Word := 0x00
def cmdAdtc : Word := 0x10

def r1ReadyForData : Word := 0x100

/-- `R1_CURRENT_STATE`. -/
def r1CurrentState (resp : Word) : Word := (resp &&& 0x1E00) >>> 9

def cardFlagSdhc : Word := 2

/-- What the request reads of `struct rt_mmcsd_card`. The flags of the host are those of
    `sdio_host_create`: it is not an SPI controller. -/
structure MmcsdCard where
  flags : Word
  rca : Word
  deriving DecidableEq, Repr

/-- `cmd`, `data`, `stop` and `req` as they are set up. `dir = 0` is a read. -/
def blkReq (card : MmcsdCard) (sector : Word) (buf : List (BitVec 8)) (blks : Word)
    (dir : BitVec 8) : MmcsdReq :=
  let multi := 1 < blks.toNat
  let code := if dir = 0 then if multi then readMultipleBlock else readSingleBlock
    else if multi then writeMultipleBlock else writeBlock
  { cmd :=
      { cmdCode := code
        arg := if card.flags &&& cardFlagSdhc = 0 then sector <<< 9 else sector
        flags := respSpiR1 ||| respR1 ||| cmdAdtc
        resp := Resp.zero
        retries := 0
        err := 0
        data := none }
    data := some
      { blksize := 512
        blks
        flags := if dir = 0 then dataDirRead else dataDirWrite
        err := 0
        buf }
    stop := if multi then some
        { cmdCode := stopTransmission
          arg := 0
          flags := respSpiR1b ||| respR1b ||| cmdAc
          resp := Resp.zero
          retries := 0
          err := 0
          data := none }
      else none }

/-- The SEND_STATUS command, in the structure of the data command. -/
def statusCmd (card : MmcsdCard) (cmd : MmcsdCmd) : MmcsdCmd :=
  { cmd with cmdCode := sendStatus, arg := card.rca <<< 16, flags := respR1 ||| cmdAc }

/-- The card is ready and not programming. -/
def readyResp (resp : Word) : Prop :=
  resp &&& r1ReadyForData ≠ 0 ∧ r1CurrentState resp ≠ 7

instance (resp : Word) : Decidable (readyResp resp) := inferInstanceAs (Decidable (_ ∧ _))

/-- The polling of a write, with at most `fuel` rounds; `none` when they do not suffice. -/
def pollStatus (ctl : Nat → Obs) (card : MmcsdCard) : Nat → Nat → MmcsdCmd → Option MmcsdCmd
  | 0, _, _ => none
  | fuel + 1, k, cmd =>
    let (cmd, k) := mmcsdSendCmd ctl k (statusCmd card cmd) 5
    if cmd.err ≠ 0 then some cmd
    else if readyResp cmd.resp.r1 then some cmd
    else pollStatus ctl card fuel k cmd

/-- `stop.err`; the structure is zeroed when there is no stop command. -/
def MmcsdReq.stopErr (req : MmcsdReq) : Int :=
  match req.stop with
  | none => 0
  | some stop => stop.err

/-- `data.err`. -/
def MmcsdReq.dataErr (req : MmcsdReq) : Int :=
  match req.data with
  | none => 0
  | some data => data.err

/-- The request after `mmcsd_send_request`, and the number of commands sent. -/
def blkSent (ctl : Nat → Obs) (card : MmcsdCard) (sector : Word) (buf : List (BitVec 8))
    (blks : Word) (dir : BitVec 8) : MmcsdReq × Nat :=
  mmcsdSendRequest ctl 0 (blkReq card sector buf blks dir)

/-- `rt_mmcsd_req_blk`; `none` when the polling takes more than `fuel` rounds. -/
def rtMmcsdReqBlk (ctl : Nat → Obs) (card : MmcsdCard) (sector : Word) (buf : List (BitVec 8))
    (blks : Word) (dir : BitVec 8) (fuel : Nat) : Option Int :=
  let (req, k) := blkSent ctl card sector buf blks dir
  let polled := if dir = 0 then some req.cmd else pollStatus ctl card fuel k req.cmd
  polled.map fun cmd =>
    if cmd.err ≠ 0 ∨ req.dataErr ≠ 0 ∨ req.stopErr ≠ 0 then -rtError else rtEok

/-- A recorded failure of the data command or of the stop command comes back as -RT_ERROR. -/
def FailureReported (ctl : Nat → Obs) (card : MmcsdCard) (sector : Word) (buf : List (BitVec 8))
    (blks : Word) (dir : BitVec 8) : Prop :=
  (blkSent ctl card sector buf blks dir).1.cmd.err ≠ 0 ∨
      (blkSent ctl card sector buf blks dir).1.stopErr ≠ 0 →
    ∃ fuel, rtMmcsdReqBlk ctl card sector buf blks dir fuel = some (-rtError)

/-! ## The polling, by what the controller shows -/

/-- The attempt of a SEND_STATUS command at observation `k` fails. -/
def StatusFails (ctl : Nat → Obs) (k : Nat) : Prop := (ctl k).WaitFails (respR1 ||| cmdAc)

/-- From observation `k` the command succeeds at its `j`-th attempt. -/
def StatusAt (ctl : Nat → Obs) (k j : Nat) : Prop :=
  j < 5 ∧ (∀ i < j, StatusFails ctl (k + i)) ∧ ¬ StatusFails ctl (k + j)

/-- The polling from `k` ends because a command fails five times. -/
inductive PollFails (ctl : Nat → Obs) : Nat → Prop
  | now {k : Nat} (h : ∀ i < 5, StatusFails ctl (k + i)) : PollFails ctl k
  | later {k j : Nat} (hj : StatusAt ctl k j) (hb : ¬ readyResp (ctl (k + j)).regs.r1)
      (h : PollFails ctl (k + j + 1)) : PollFails ctl k

/-- The polling from `k` ends because the card is ready. -/
inductive PollReady (ctl : Nat → Obs) : Nat → Prop
  | now {k j : Nat} (hj : StatusAt ctl k j) (hr : readyResp (ctl (k + j)).regs.r1) :
      PollReady ctl k
  | later {k j : Nat} (hj : StatusAt ctl k j) (hb : ¬ readyResp (ctl (k + j)).regs.r1)
      (h : PollReady ctl (k + j + 1)) : PollReady ctl k

theorem statusAt_unique {ctl : Nat → Obs} {k i j : Nat} (hi : StatusAt ctl k i)
    (hj : StatusAt ctl k j) : i = j := by
  rcases Nat.lt_trichotomy i j with h | h | h
  · exact absurd (hj.2.1 i h) hi.2.2
  · exact h
  · exact absurd (hi.2.1 j h) hj.2.2

/-- The retry loop on a command without data and stop, with `n + 1` attempts left: the first
    attempt that does not fail ends it, at its observation. Induction on the attempts. -/
theorem sendRequestLoop_cmd (ctl : Nat → Obs) (flags : Word) (n k : Nat) (cmd : MmcsdCmd)
    (hf : cmd.flags = flags) (hd : cmd.data = none) (hr : cmd.retries = (n : Int) + 1) :
    let done := sendRequestLoop ctl n k ⟨cmd, none, none⟩
    (∃ j ≤ n, (∀ i < j, (ctl (k + i)).WaitFails flags) ∧ ¬ (ctl (k + j)).WaitFails flags ∧
        done.1.cmd.err = 0 ∧ done.1.cmd.resp.r1 = (ctl (k + j)).regs.r1 ∧ done.2 = k + j + 1) ∨
      ((∀ i ≤ n, (ctl (k + i)).WaitFails flags) ∧ done.1.cmd.err ≠ 0) := by
  induction n generalizing k cmd with
  | zero =>
    let cmd₁ := { cmd with retries := cmd.retries - 1, err := 0 }
    have herr : (sendCommand (ctl k) cmd₁).err ≠ 0 ↔ (ctl k).WaitFails flags :=
      hf ▸ @sendCommand_err_of_noData (ctl k) cmd₁ hd
    change (∃ j ≤ 0, _ ∧ _ ∧ (sendCommand (ctl k) cmd₁).err = 0 ∧
      (sendCommand (ctl k) cmd₁).resp.r1 = _ ∧ k + 1 = _) ∨ (_ ∧ (sendCommand (ctl k) cmd₁).err ≠ 0)
    by_cases hw : (ctl k).WaitFails flags
    · right
      refine ⟨fun i hi => ?_, herr.mpr hw⟩
      rw [Nat.le_zero.mp hi]
      exact hw
    · left
      have h0 : (sendCommand (ctl k) cmd₁).err = 0 := not_not.mp fun h => hw (herr.mp h)
      exact ⟨0, Nat.le_refl _, fun i hi => absurd hi (Nat.not_lt_zero i), hw, h0,
        sendCommand_resp _ _ h0, rfl⟩
  | succ n ih =>
    let cmd₁ := { cmd with retries := cmd.retries - 1, err := 0 }
    have herr : (sendCommand (ctl k) cmd₁).err ≠ 0 ↔ (ctl k).WaitFails flags :=
      hf ▸ @sendCommand_err_of_noData (ctl k) cmd₁ hd
    have hretries : (sendCommand (ctl k) cmd₁).retries = (n : Int) + 1 := by
      rw [sendCommand_retries]
      change cmd.retries - 1 = _
      omega
    have hloop : sendRequestLoop ctl (n + 1) k ⟨cmd, none, none⟩ =
        if (sendCommand (ctl k) cmd₁).err ≠ 0 ∧ 0 < (sendCommand (ctl k) cmd₁).retries then
          sendRequestLoop ctl n (k + 1) ⟨sendCommand (ctl k) cmd₁, none, none⟩
        else (⟨sendCommand (ctl k) cmd₁, none, none⟩, k + 1) := rfl
    dsimp only
    rw [hloop]
    by_cases hw : (ctl k).WaitFails flags
    · -- this attempt fails: the rest is the loop from the next observation
      rw [if_pos ⟨herr.mpr hw, by omega⟩]
      have hrest := ih (k + 1) (sendCommand (ctl k) cmd₁)
        (by rw [sendCommand_flags]; exact hf) (by rw [sendCommand_data]; exact hd) hretries
      simp only [Nat.succ_add_eq_add_succ k] at hrest
      rcases hrest with ⟨j, hj, hall, hok, he, hresp, hk⟩ | ⟨hall, he⟩
      · left
        exact ⟨j + 1, by omega, Nat.forall_lt_succ_left.mpr ⟨hw, hall⟩, hok, he, hresp, hk⟩
      · right
        have hfails : ∀ i < n + 1 + 1, (ctl (k + i)).WaitFails flags :=
          Nat.forall_lt_succ_left.mpr ⟨hw, fun i hi => hall i (Nat.le_of_lt_succ hi)⟩
        exact ⟨fun i hi => hfails i (Nat.lt_succ_of_le hi), he⟩
    · left
      have h0 : (sendCommand (ctl k) cmd₁).err = 0 := not_not.mp fun h => hw (herr.mp h)
      rw [if_neg fun h => h.1 h0]
      exact ⟨0, Nat.zero_le _, fun i hi => absurd hi (Nat.not_lt_zero i), hw, h0,
        sendCommand_resp _ _ h0, rfl⟩

/-- A SEND_STATUS command succeeds at one of its five attempts or fails at all. -/
theorem mmcsdSendCmd_status (ctl : Nat → Obs) (card : MmcsdCard) (k : Nat) (cmd : MmcsdCmd) :
    let done := mmcsdSendCmd ctl k (statusCmd card cmd) 5
    (∃ j, StatusAt ctl k j ∧ done.1.err = 0 ∧ done.1.resp.r1 = (ctl (k + j)).regs.r1 ∧
        done.2 = k + j + 1) ∨
      ((∀ i < 5, StatusFails ctl (k + i)) ∧ done.1.err ≠ 0) := by
  have h := sendRequestLoop_cmd ctl (respR1 ||| cmdAc) 4 k
    { statusCmd card cmd with resp := Resp.zero, retries := 5, data := none } rfl rfl rfl
  rcases h with ⟨j, hj, hall, hok, he, hresp, hk⟩ | ⟨hall, he⟩
  · exact Or.inl ⟨j, ⟨by omega, hall, hok⟩, he, hresp, hk⟩
  · exact Or.inr ⟨fun i hi => hall i (by omega), he⟩

theorem pollStatus_some {ctl : Nat → Obs} {card : MmcsdCard} {fuel k : Nat} {cmd c : MmcsdCmd}
    (h : pollStatus ctl card fuel k cmd = some c) :
    (c.err ≠ 0 ∧ PollFails ctl k) ∨ (c.err = 0 ∧ PollReady ctl k) := by
  induction fuel generalizing k cmd with
  | zero => cases h
  | succ fuel ih =>
    unfold pollStatus at h
    dsimp only at h
    rcases mmcsdSendCmd_status ctl card k cmd with ⟨j, hj, he, hresp, hk⟩ | ⟨hall, he⟩
    · rw [if_neg (not_not.mpr he), hresp, hk] at h
      split at h
      case isTrue hr =>
        obtain rfl := Option.some.inj h
        exact Or.inr ⟨he, .now hj hr⟩
      case isFalse hr =>
        rcases ih h with ⟨hc, hp⟩ | ⟨hc, hp⟩
        · exact Or.inl ⟨hc, .later hj hr hp⟩
        · exact Or.inr ⟨hc, .later hj hr hp⟩
    · rw [if_pos he] at h
      obtain rfl := Option.some.inj h
      exact Or.inl ⟨he, .now hall⟩

/-- One round of the polling at a command that succeeds. -/
theorem pollStatus_round {ctl : Nat → Obs} {k j : Nat} (hj : StatusAt ctl k j) (card : MmcsdCard)
    (cmd : MmcsdCmd) :
    ∃ c, c.err = 0 ∧ ∀ fuel, pollStatus ctl card (fuel + 1) k cmd =
      if readyResp (ctl (k + j)).regs.r1 then some c
      else pollStatus ctl card fuel (k + j + 1) c := by
  rcases mmcsdSendCmd_status ctl card k cmd with ⟨i, hi, he, hresp, hk⟩ | ⟨hall, -⟩
  · obtain rfl := statusAt_unique hi hj
    refine ⟨_, he, fun fuel => ?_⟩
    rw [pollStatus]
    dsimp only
    rw [if_neg (not_not.mpr he), hresp, hk]
  · exact absurd (hall j hj.1) hj.2.2

theorem pollFails_some {ctl : Nat → Obs} {k : Nat} (h : PollFails ctl k) (card : MmcsdCard)
    (cmd : MmcsdCmd) : ∃ fuel c, pollStatus ctl card fuel k cmd = some c ∧ c.err ≠ 0 := by
  induction h generalizing cmd with
  | @now k hall =>
    rcases mmcsdSendCmd_status ctl card k cmd with ⟨j, hj, -⟩ | ⟨-, he⟩
    · exact absurd (hall j hj.1) hj.2.2
    · refine ⟨1, _, ?_, he⟩
      rw [pollStatus]
      dsimp only
      rw [if_pos he]
  | later hj hb _ ih =>
    obtain ⟨c, -, hround⟩ := pollStatus_round hj card cmd
    obtain ⟨fuel, c', h, he⟩ := ih c
    exact ⟨fuel + 1, c', by rw [hround, if_neg hb, h], he⟩

theorem pollReady_some {ctl : Nat → Obs} {k : Nat} (h : PollReady ctl k) (card : MmcsdCard)
    (cmd : MmcsdCmd) : ∃ fuel c, pollStatus ctl card fuel k cmd = some c ∧ c.err = 0 := by
  induction h generalizing cmd with
  | now hj hr =>
    obtain ⟨c, he, hround⟩ := pollStatus_round hj card cmd
    exact ⟨1, c, by rw [hround, if_pos hr], he⟩
  | later hj hb _ ih =>
    obtain ⟨c, -, hround⟩ := pollStatus_round hj card cmd
    obtain ⟨fuel, c', h, he⟩ := ih c
    exact ⟨fuel + 1, c', by rw [hround, if_neg hb, h], he⟩

/-! ## What a block request records -/

/-- The data command fails. -/
def DataCmdFails (ctl : Nat → Obs) : Prop := (ctl 0).Fails (respSpiR1 ||| respR1 ||| cmdAdtc) true

/-- There is a stop command, and it fails. -/
def StopCmdFails (ctl : Nat → Obs) (blks : Word) : Prop :=
  1 < blks.toNat ∧ (ctl 1).Fails (respSpiR1b ||| respR1b ||| cmdAc) false

/-- The observation the polling starts from. -/
def pollFrom (blks : Word) : Nat := if 1 < blks.toNat then 2 else 1

/-- A command with at most one retry left is sent once. -/
theorem mmcsdSendRequest_once (ctl : Nat → Obs) (k : Nat) {req : MmcsdReq}
    (h : req.cmd.retries ≤ 1) :
    mmcsdSendRequest ctl k req = rthwSdioRequest ctl k (prepare req) := by
  unfold mmcsdSendRequest
  rw [show (req.cmd.retries - 1).toNat = 0 by omega]
  rfl

/-- The data command has no retries, so it is sent once. -/
theorem blkSent_spec (ctl : Nat → Obs) (card : MmcsdCard) (sector : Word) (buf : List (BitVec 8))
    (blks : Word) (dir : BitVec 8) :
    let sent := blkSent ctl card sector buf blks dir
    (sent.1.cmd.err ≠ 0 ↔ DataCmdFails ctl) ∧ (sent.1.stopErr ≠ 0 ↔ StopCmdFails ctl blks) ∧
      sent.1.dataErr = 0 ∧ sent.2 = pollFrom blks := by
  unfold blkSent
  rw [mmcsdSendRequest_once ctl 0 (show (blkReq card sector buf blks dir).cmd.retries ≤ 1 from
    Int.zero_le_ofNat 1)]
  unfold StopCmdFails pollFrom
  by_cases hb : 1 < blks.toNat
  · have hstop : (blkReq card sector buf blks dir).stop = some _ := if_pos hb
    unfold rthwSdioRequest prepare MmcsdReq.stopErr
    rw [hstop, if_pos hb]
    refine ⟨sendCommand_err_ne_zero_iff _ _, ?_, rfl, rfl⟩
    rw [and_iff_right hb]
    exact sendCommand_err_ne_zero_iff _ _
  · have hstop : (blkReq card sector buf blks dir).stop = none := if_neg hb
    unfold rthwSdioRequest prepare MmcsdReq.stopErr
    rw [hstop, if_neg hb]
    refine ⟨sendCommand_err_ne_zero_iff _ _, ?_, rfl, rfl⟩
    exact iff_of_false (not_not.mpr rfl) fun h => hb h.1

section

variable (ctl : Nat → Obs) (card : MmcsdCard) (sector : Word) (buf : List (BitVec 8))
  (blks : Word)

/-- A read looks at the errors as they were recorded. -/
theorem rtMmcsdReqBlk_read (fuel : Nat) :
    rtMmcsdReqBlk ctl card sector buf blks 0 fuel =
      some (if (blkSent ctl card sector buf blks 0).1.cmd.err ≠ 0 ∨
          (blkSent ctl card sector buf blks 0).1.stopErr ≠ 0 then -rtError else rtEok) := by
  obtain ⟨-, -, hdata, -⟩ := blkSent_spec ctl card sector buf blks 0
  unfold rtMmcsdReqBlk
  dsimp only
  rw [if_pos rfl, Option.map_some, hdata]
  simp only [ne_eq, not_true_eq_false, false_or]

/-- A write looks at the error of the last poll in place of the data command's. -/
theorem rtMmcsdReqBlk_write {dir : BitVec 8} (hdir : dir ≠ 0) (fuel : Nat) :
    rtMmcsdReqBlk ctl card sector buf blks dir fuel =
      (pollStatus ctl card fuel (pollFrom blks) (blkSent ctl card sector buf blks dir).1.cmd).map
        fun cmd => if cmd.err ≠ 0 ∨ (blkSent ctl card sector buf blks dir).1.stopErr ≠ 0 then
          -rtError else rtEok := by
  obtain ⟨-, -, hdata, hk⟩ := blkSent_spec ctl card sector buf blks dir
  unfold rtMmcsdReqBlk
  dsimp only
  rw [if_neg hdir, hk, hdata]
  simp only [ne_eq, not_true_eq_false, false_or]

/-- For every block request and every controller. -/
theorem failureReported_iff (dir : BitVec 8) :
    FailureReported ctl card sector buf blks dir ↔
      dir = 0 ∨ ¬ (DataCmdFails ctl ∨ StopCmdFails ctl blks) ∨ PollFails ctl (pollFrom blks) ∨
        (StopCmdFails ctl blks ∧ PollReady ctl (pollFrom blks)) := by
  obtain ⟨hcmd, hstop, -, -⟩ := blkSent_spec ctl card sector buf blks dir
  unfold FailureReported
  by_cases hdir : dir = 0
  · subst hdir
    refine iff_of_true (fun hfail => ⟨0, ?_⟩) (Or.inl rfl)
    rw [rtMmcsdReqBlk_read, if_pos hfail]
  rw [hcmd, hstop]
  constructor
  · intro hall
    right
    by_cases hfail : DataCmdFails ctl ∨ StopCmdFails ctl blks
    case neg => exact Or.inl hfail
    right
    obtain ⟨fuel, h⟩ := hall hfail
    rw [rtMmcsdReqBlk_write ctl card sector buf blks hdir] at h
    obtain ⟨c, hc, hret⟩ := Option.map_eq_some_iff.mp h
    rcases pollStatus_some hc with ⟨-, hp⟩ | ⟨he, hp⟩
    · exact Or.inl hp
    · -- the last poll succeeded, so it was the stop command
      right
      refine ⟨?_, hp⟩
      by_contra hns
      rw [if_neg] at hret
      · exact absurd hret (by decide)
      · rintro (h | h)
        · exact h he
        · exact hns (hstop.mp h)
  · rintro (h0 | hno | hp | ⟨hs, hp⟩) hfail
    · exact absurd h0 hdir
    · exact absurd hfail hno
    · obtain ⟨fuel, c, hc, he⟩ := pollFails_some hp card
        (blkSent ctl card sector buf blks dir).1.cmd
      refine ⟨fuel, ?_⟩
      rw [rtMmcsdReqBlk_write ctl card sector buf blks hdir, hc, Option.map_some,
        if_pos (Or.inl he)]
    · obtain ⟨fuel, c, hc, -⟩ := pollReady_some hp card
        (blkSent ctl card sector buf blks dir).1.cmd
      refine ⟨fuel, ?_⟩
      rw [rtMmcsdReqBlk_write ctl card sector buf blks hdir, hc, Option.map_some,
        if_pos (Or.inr (hstop.mpr hs))]

end

/-- One block is written; the data phase ends with TXUNDERR, the status poll finds the card
    ready. -/
def lostWrite : Nat → Obs
  | 0 => ⟨some staTxunderr, Resp.zero, fun _ => 0⟩
  | _ => ⟨some staCmdrend, ⟨0x900, 0, 0, 0⟩, fun _ => 0⟩

/-- The write the host saw fail is reported as RT_EOK. -/
theorem failureReported_fails_write :
    rtMmcsdReqBlk lostWrite ⟨0, 0⟩ 0 [] 1 1 1 = some rtEok ∧
      ¬ FailureReported lostWrite ⟨0, 0⟩ 0 [] 1 1 := by
  have hok : ∀ fuel, rtMmcsdReqBlk lostWrite ⟨0, 0⟩ 0 [] 1 1 (fuel + 1) = some rtEok :=
    fun _ => rfl
  refine ⟨hok 0, fun hrep => ?_⟩
  obtain ⟨fuel, h⟩ := hrep (Or.inl (by decide))
  cases fuel with
  | zero => cases h
  | succ fuel =>
    rw [hok] at h
    exact absurd h (by decide)

end Live2dStm32.Sdio
