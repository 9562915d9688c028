import Live2dStm32.Kernel.Event
import Live2dStm32.Lib.Machine
import Live2dStm32.Sdio.Command

/-
  One SDIO host as a machine: the thread in `rthw_sdio_request`, `rthw_sdio_irq_process`, the
  kernel timer of the wait, and the controller, which latches flags, loads responses and moves
  the data path at any time (drivers/drv_sdio.c).

  The thread takes one step for each access to something another party can change: the event,
  the mask, the command register, STA, a byte of `cache_buf`. A response copied word by word is
  one step, the interrupt routine is one step. What cannot be seen from the host is left to the
  caller of the machine: the byte a load from `cache_buf` gives is an argument of the step, and
  the mutex is always free.

  `Trace` records what the controller did for the command in progress; the driver never reads it.
-/

namespace Live2dStm32.Sdio

open Live2dStm32.Kernel Live2dStm32.Lib

/-! ## Registers -/

def cmdCmdtrans : Word := bit 32 6
def cmdWaitresp0 : Word := bit 32 8
def cmdWaitresp : Word := bit 32 8 ||| bit 32 9
def cmdCpsmen : Word := bit 32 12
def dctrlDtdir : Word := bit 32 1
def idmaIdmaen : Word := bit 32 0
def hwSdioDatatimeout : Word := 0xFFFFFFFF

/-- rt_tick_from_millisecond(5000), with RT_TICK_PER_SECOND = 1000. -/
def waitTicks : Int := 5000

/-- The controller. STA is made of `flags`, which stay until they are cleared, and of `level`.
    IDMABASE0R is left out: it only ever holds the address of `cache_buf`. `awaits`: the
    command written last waits for a response. -/
structure Hw where
  flags : Word
  level : Word
  mask : Word
  resp : Resp
  arg : Word
  cmd : Word
  dtimer : Word
  dlen : Word
  dctrl : Word
  idmatrlr : Word
  awaits : Bool
  deriving DecidableEq, Repr

/-- A controller at rest. -/
def restHw : Hw := ⟨0, 0, 0, .zero, 0, 0, 0, 0, 0, 0, false⟩

def Hw.sta (hw : Hw) : Word := hw.flags ||| (hw.level &&& ~~~icrFlags)

/-- `get_order`. -/
def getOrder (data : Word) : Word :=
  match data.toNat with
  | 1 => 0
  | 2 => 1
  | 4 => 2
  | 8 => 3
  | 16 => 4
  | 32 => 5
  | 64 => 6
  | 128 => 7
  | 256 => 8
  | 512 => 9
  | 1024 => 10
  | 2048 => 11
  | 4096 => 12
  | 8192 => 13
  | 16384 => 14
  | _ => 0

/-- The value written to CMD. -/
def regCmd (cmd : MmcsdCmd) : Word :=
  let reg := cmd.cmdCode ||| cmdCpsmen
  let reg := if cmd.data.isSome then reg ||| cmdCmdtrans else reg
  if respType cmd.flags = respR2 then reg ||| cmdWaitresp
  else if respType cmd.flags ≠ respNone then reg ||| cmdWaitresp0
  else reg

/-- The data pre configuration, less the cache and the mask. -/
def Hw.configData (hw : Hw) (data : MmcsdData) : Hw :=
  { hw with
    dtimer := hwSdioDatatimeout
    dlen := data.blks * data.blksize
    dctrl := getOrder data.blksize <<< 4 ||| (if data.isRead then dctrlDtdir else 0)
    idmatrlr := idmaIdmaen }

/-! ## The host -/

/-- What `rthw_sdio_request` is given, as the core fills it: the command and the stop command,
    either of which may be missing; the buffer has room for the data, and the stop command has
    no data. -/
structure HostReq where
  cmd : Option MmcsdCmd
  stop : Option MmcsdCmd
  room : ∀ c ∈ cmd, ∀ d ∈ c.data, d.size ≤ d.buf.length
  stop_data : ∀ c ∈ stop, c.data = none

/-- A command without a stop command. -/
def HostReq.single (cmd : MmcsdCmd) (room : ∀ d ∈ cmd.data, d.size ≤ d.buf.length) : HostReq where
  cmd := some cmd
  stop := none
  room := by
    rintro c ⟨⟩
    exact room
  stop_data := nofun

/-- READ_SINGLE_BLOCK of one byte. -/
def readOne : HostReq :=
  .single ⟨17, 0, respR1, .zero, 0, 0, some ⟨1, 1, dataDirRead, 0, [0]⟩⟩ (by rintro d ⟨⟩; decide)

/-- What has happened to a command since it was written to CMD. `raised`: the flags latched;
    `raisedAt` and `raisedEnd`: those latched when the status word was consumed, and when STA
    was read for the last time. `response`: the response loaded. `word`: the status word
    consumed; `copied`: the response registers were copied; `timedOut`: the wait ran out;
    `idle`: the busy loop ended at a read without DPSMACT; `last`: STA after that loop. -/
structure Trace where
  raised : Word
  response : Option Resp
  word : Option Word
  raisedAt : Word
  copied : Bool
  timedOut : Bool
  idle : Bool
  last : Word
  raisedEnd : Word
  deriving DecidableEq, Repr

def Trace.fresh : Trace := ⟨0, none, none, 0, false, false, false, 0, 0⟩

/-- Where the thread is. `lock` is before the mutex, with `req->cmd`; `halted` is the failed
    assertion; `received` has the status word, `busy` and `check` the count of the loop,
    `copyIn` and `copyOut` the index of the byte. -/
inductive Pc where
  | idle
  | lock (first : Option MmcsdCmd)
  | halted
  | copyIn (i : Nat)
  | reset
  | openMask
  | clean
  | closeMask
  | issue
  | recv
  | wait
  | received (status : Word)
  | busy (count : Nat)
  | check (count : Nat)
  | copyOut (i : Nat)
  | postClean
  | complete
  deriving DecidableEq, Repr

/-- `cmd` is `pkg->cmd`, `stop` the part of the request still to come, `log` the commands that
    are done. -/
structure Host where
  pc : Pc
  cmd : MmcsdCmd
  stop : Option MmcsdCmd
  event : RtEvent Unit
  hw : Hw
  trace : Trace
  log : List (MmcsdCmd × Trace)
  deriving DecidableEq, Repr

/-- `sdio_host_create` on a controller in any state. -/
def init (hw : Hw) : Host where
  pc := .idle
  cmd := ⟨0, 0, 0, .zero, 0, 0, none⟩
  stop := none
  event := rtEventInit
  hw := hw
  trace := .fresh
  log := []

/-- The bytes of the data phase. -/
def Host.size (s : Host) : Nat := (s.cmd.data.map (·.size)).getD 0

/-- A command is taken up. -/
def Host.begin (s : Host) (cmd : MmcsdCmd) (pc : Pc) : Host :=
  { s with cmd, pc, trace := .fresh }

/-- The rest of `rthw_sdio_request` once a command is done: the stop command, or the end. -/
def Host.next (s : Host) : Host :=
  match s.stop with
  | none => { s with pc := .complete }
  | some cmd => { s.begin cmd .reset with stop := none }

/-- `rthw_sdio_request` from the mutex to `rthw_sdio_send_command`, or to the copy of the data
    to write. -/
def Host.start (s : Host) : Option MmcsdCmd → Host
  | none => s.next
  | some cmd =>
    match cmd.data with
    | none => s.begin cmd .reset
    | some data =>
      if data.size ≤ sdioBuffSize then
        if data.isWrite then s.begin cmd (.copyIn 0) else s.begin cmd .reset
      else s.begin cmd .halted

/-- `rthw_sdio_send_command` returns. -/
def Host.finish (s : Host) : Host := Host.next { s with log := (s.cmd, s.trace) :: s.log }

/-- The command is written to the controller. -/
def Host.issue (s : Host) : Host :=
  let hw := match s.cmd.data with
    | none => s.hw
    | some data => s.hw.configData data
  { s with
    hw := { hw with
      arg := s.cmd.arg
      cmd := regCmd s.cmd
      awaits := regCmd s.cmd &&& cmdWaitresp ≠ 0 }
    trace := .fresh
    pc := .recv }

/-- The status word reaches the thread. -/
def Host.consume (s : Host) (status : Word) : Host :=
  { s with
    trace := { s.trace with word := some status, raisedAt := s.trace.raised }
    pc := .received status }

/-- What `rthw_sdio_wait_completed` writes into the command. -/
def Host.takeStatus (s : Host) (status : Option Word) : Host :=
  { s with
    cmd := waitCompleted s.cmd status s.hw.resp
    trace := { s.trace with copied := status.isSome, timedOut := status.isNone } }

/-- `rthw_sdio_wait_completed` returns, and the data phase is waited for if there is one. -/
def Host.endWait (s : Host) (status : Option Word) : Host :=
  match s.cmd.data with
  | none => (s.takeStatus status).finish
  | some _ => { s.takeStatus status with pc := .busy sdioTxRxCompleteTimeoutLoops }

/-- `rt_event_recv` of `rthw_sdio_wait_completed`. -/
def Host.recvEvent (s : Host) : Host :=
  match rtEventRecv s.event () 0xffffffff (rtEventFlagOr ||| rtEventFlagClear) waitTicks with
  | (event, .received status) => { s with event }.consume status
  | (event, .suspended) => { s with event, pc := .wait }
  | (event, .failed _) => { s with event }.endWait none

/-- One turn of the busy loop. -/
def Host.pollBusy (s : Host) (count : Nat) : Host :=
  if count = 0 then { s with pc := .check 0 }
  else if s.hw.sta &&& staDpsmact ≠ 0 then { s with pc := .busy (count - 1) }
  else { s with trace := { s.trace with idle := true }, pc := .check count }

/-- The data post configuration, up to its copy. -/
def Host.endData (s : Host) : Host :=
  match s.cmd.data with
  | none => s.finish
  | some data => if data.isRead then { s with pc := .copyOut 0 } else s.finish

/-- The check after the loop, with its read of STA. -/
def Host.takeSta (s : Host) (count : Nat) : Host :=
  { s with
    cmd := { s.cmd with err := dataErr s.cmd.err count s.hw.sta }
    trace := { s.trace with last := s.hw.sta, raisedEnd := s.trace.raised } }

/-- One byte of `rt_memcpy(data->buf, cache_buf, ..)`. -/
def Host.copyByte (s : Host) (i : Nat) (b : BitVec 8) : Host :=
  if i < s.size then
    { s with
      cmd := { s.cmd with data := s.cmd.data.map fun d => { d with buf := d.buf.set i b } }
      pc := .copyOut (i + 1) }
  else { s with pc := .postClean }

/-- One step of the thread; `b` is what a load from `cache_buf` gives. -/
def threadStep (s : Host) (b : BitVec 8) : Option Host :=
  match s.pc with
  | .idle | .halted | .wait => none
  | .lock first => some (s.start first)
  | .copyIn i => some { s with pc := if i < s.size then .copyIn (i + 1) else .reset }
  | .reset => some { s with event := (rtEventReset s.event).1, pc := .openMask }
  | .openMask =>
    some { s with
      hw := { s.hw with mask := s.hw.mask ||| sdioMaskrAll }
      pc := if s.cmd.data.isSome then .clean else .issue }
  | .clean => some { s with pc := .closeMask }
  | .closeMask =>
    some { s with
      hw := { s.hw with mask := s.hw.mask &&& ~~~(staCmdrend ||| staCmdsent) }
      pc := .issue }
  | .issue => some s.issue
  | .recv => some s.recvEvent
  | .received status => some (s.endWait (some status))
  | .busy count => some (s.pollBusy count)
  | .check count => some (s.takeSta count).endData
  | .copyOut i => some (s.copyByte i b)
  | .postClean => some s.finish
  | .complete => some { s with pc := .idle }

/-- `rthw_sdio_irq_process`: writing `intstatus` to ICR clears the flags it shows. -/
def irqProcess (s : Host) : Host :=
  let intstatus := s.hw.sta
  let s := { s with hw := { s.hw with flags := s.hw.flags &&& ~~~intstatus } }
  match rtEventSend s.event intstatus with
  | (event, [], _) => { s with event }
  | (event, (_, status) :: _, _) => { s with event }.consume status

/-- A request arrives, the thread moves, the interrupt is taken, the timer of the wait runs
    out, the controller latches flags, shows other bits, loads a response. -/
inductive Action where
  | request (req : HostReq)
  | thread (b : BitVec 8)
  | irq
  | timeout
  | raise (f : Word)
  | level (v : Word)
  | respond (r : Resp)

def step (s : Host) : Action → Option Host
  | .request req =>
    if s.pc = .idle then some { s with pc := .lock req.cmd, stop := req.stop } else none
  | .thread b => threadStep s b
  | .irq => if s.hw.sta &&& s.hw.mask ≠ 0 then some (irqProcess s) else none
  | .timeout =>
    if s.pc = .wait then some ({ s with event := rtEventTimeout s.event () }.endWait none)
    else none
  | .raise f =>
    some { s with
      hw := { s.hw with flags := s.hw.flags ||| (f &&& icrFlags) }
      trace := { s.trace with raised := s.trace.raised ||| (f &&& icrFlags) } }
  | .level v => some { s with hw := { s.hw with level := v } }
  | .respond r =>
    if s.hw.awaits then
      some { s with
        hw := { s.hw with resp := r, awaits := false }
        trace := { s.trace with response := some r } }
    else none

/-! ## What a step of the thread does -/

/-- The steps of the thread, one for each place it can be. -/
inductive ThreadStep (s : Host) (b : BitVec 8) : Host → Prop
  | lock {first : Option MmcsdCmd} (h : s.pc = .lock first) : ThreadStep s b (s.start first)
  | copyIn {i : Nat} (h : s.pc = .copyIn i) :
      ThreadStep s b { s with pc := if i < s.size then .copyIn (i + 1) else .reset }
  | reset (h : s.pc = .reset) :
      ThreadStep s b { s with event := ⟨0, []⟩, pc := .openMask }
  | openMask (h : s.pc = .openMask) :
      ThreadStep s b { s with
        hw := { s.hw with mask := s.hw.mask ||| sdioMaskrAll }
        pc := if s.cmd.data.isSome then .clean else .issue }
  | clean (h : s.pc = .clean) : ThreadStep s b { s with pc := .closeMask }
  | closeMask (h : s.pc = .closeMask) :
      ThreadStep s b { s with
        hw := { s.hw with mask := s.hw.mask &&& ~~~(staCmdrend ||| staCmdsent) }
        pc := .issue }
  | issue (h : s.pc = .issue) : ThreadStep s b s.issue
  | recv (h : s.pc = .recv) : ThreadStep s b s.recvEvent
  | received {status : Word} (h : s.pc = .received status) :
      ThreadStep s b (s.endWait (some status))
  | busy {count : Nat} (h : s.pc = .busy count) : ThreadStep s b (s.pollBusy count)
  | check {count : Nat} (h : s.pc = .check count) : ThreadStep s b (s.takeSta count).endData
  | copyOut {i : Nat} (h : s.pc = .copyOut i) : ThreadStep s b (s.copyByte i b)
  | postClean (h : s.pc = .postClean) : ThreadStep s b s.finish
  | complete (h : s.pc = .complete) : ThreadStep s b { s with pc := .idle }

theorem threadStep_inv {s s' : Host} {b : BitVec 8} (hs : threadStep s b = some s') :
    ThreadStep s b s' := by
  unfold threadStep at hs
  cases hpc : s.pc <;> simp only [hpc, Option.some.injEq, reduceCtorEq] at hs
  case lock => exact hs ▸ .lock hpc
  case copyIn => exact hs ▸ .copyIn hpc
  case reset => exact hs ▸ .reset hpc
  case openMask => exact hs ▸ .openMask hpc
  case clean => exact hs ▸ .clean hpc
  case closeMask => exact hs ▸ .closeMask hpc
  case issue => exact hs ▸ .issue hpc
  case recv => exact hs ▸ .recv hpc
  case received => exact hs ▸ .received hpc
  case busy => exact hs ▸ .busy hpc
  case check => exact hs ▸ .check hpc
  case copyOut => exact hs ▸ .copyOut hpc
  case postClean => exact hs ▸ .postClean hpc
  case complete => exact hs ▸ .complete hpc

/-! ### The end of a command -/

theorem next_pc (s : Host) : s.next.pc = .complete ∨ s.next.pc = .reset := by
  unfold Host.next
  cases s.stop with
  | none => exact Or.inl rfl
  | some cmd => exact Or.inr rfl

@[simp] theorem next_event (s : Host) : s.next.event = s.event := by
  unfold Host.next
  cases s.stop <;> rfl

@[simp] theorem next_log (s : Host) : s.next.log = s.log := by
  unfold Host.next
  cases s.stop <;> rfl

theorem finish_pc (s : Host) : s.finish.pc = .complete ∨ s.finish.pc = .reset := next_pc _

@[simp] theorem finish_event (s : Host) : s.finish.event = s.event := next_event _

@[simp] theorem finish_log (s : Host) : s.finish.log = (s.cmd, s.trace) :: s.log := next_log _

/-- A request starts with its stop command or its end, with its command, with the copy of the
    data to write, or not at all. -/
theorem start_cases (s : Host) (first : Option MmcsdCmd) :
    s.start first = s.next ∨ ∃ cmd pc, first = some cmd ∧ s.start first = s.begin cmd pc ∧
      ((pc = .reset ∧ ∀ data, cmd.data = some data → data.isWrite = false) ∨ pc = .halted ∨
        ∃ data, cmd.data = some data ∧ data.isWrite = true ∧ pc = .copyIn 0) := by
  unfold Host.start
  cases first with
  | none => exact Or.inl rfl
  | some cmd =>
    refine Or.inr ?_
    dsimp only
    cases hd : cmd.data with
    | none => exact ⟨cmd, .reset, rfl, rfl, Or.inl ⟨rfl, fun _ h => nomatch hd.symm.trans h⟩⟩
    | some data =>
      dsimp only
      split
      · split
        case isTrue hw =>
          exact ⟨cmd, .copyIn 0, rfl, rfl, Or.inr (Or.inr ⟨data, hd, hw, rfl⟩)⟩
        case isFalse hw =>
          refine ⟨cmd, .reset, rfl, rfl, Or.inl ⟨rfl, fun data' h => ?_⟩⟩
          obtain rfl := Option.some.inj (hd.symm.trans h)
          exact Bool.eq_false_iff.mpr hw
      · exact ⟨cmd, .halted, rfl, rfl, Or.inr (Or.inl rfl)⟩

/-- The wait is over: the command is done, or the busy loop starts. -/
theorem endWait_cases (s : Host) (status : Option Word) :
    (s.cmd.data = none ∧ s.endWait status = (s.takeStatus status).finish) ∨
      (s.cmd.data.isSome = true ∧ s.endWait status =
        { s.takeStatus status with pc := .busy sdioTxRxCompleteTimeoutLoops }) := by
  unfold Host.endWait
  cases hd : s.cmd.data with
  | none => exact Or.inl ⟨rfl, rfl⟩
  | some data => exact Or.inr ⟨rfl, rfl⟩

/-- The data phase is over: the command is done, or what was read is copied. -/
theorem endData_cases (s : Host) :
    ((∀ data, s.cmd.data = some data → data.isRead = false) ∧ s.endData = s.finish) ∨
      ((∃ data, s.cmd.data = some data ∧ data.isRead = true) ∧
        s.endData = { s with pc := .copyOut 0 }) := by
  unfold Host.endData
  cases s.cmd.data with
  | none => exact Or.inl ⟨fun _ h => (nomatch h), rfl⟩
  | some data =>
    dsimp only
    split
    case isTrue hr => exact Or.inr ⟨⟨data, rfl, hr⟩, rfl⟩
    case isFalse hr =>
      refine Or.inl ⟨fun data' h => ?_, rfl⟩
      obtain rfl := Option.some.inj h
      exact Bool.eq_false_iff.mpr hr

/-! ## The event -/

/-- Only the thread of the host ever waits, and only with nothing pending. -/
def EventOk (s : Host) : Prop :=
  match s.pc with
  | .wait => s.event = ⟨0, [anyBit ()]⟩
  | _ => s.event.suspendThread = []

theorem eventOk_of_ne {s : Host} (hpc : s.pc ≠ .wait) (h : s.event.suspendThread = []) :
    EventOk s := by
  unfold EventOk
  split
  · exact absurd ‹_› hpc
  · exact h

theorem EventOk.queue {s : Host} (h : EventOk s) {pc : Pc} (hpc : s.pc = pc)
    (hne : pc ≠ .wait) : s.event.suspendThread = [] := by
  unfold EventOk at h
  split at h
  · exact absurd (hpc.symm.trans ‹_›) hne
  · exact h

theorem EventOk.wait {s : Host} (h : EventOk s) (hpc : s.pc = .wait) :
    s.event = ⟨0, [anyBit ()]⟩ := by
  unfold EventOk at h
  rw [hpc] at h
  exact h

/-- The thread consumes what is pending, or waits. -/
theorem recvEvent_cases {s : Host} (h : s.event.suspendThread = []) :
    (s.event.set ≠ 0 ∧ s.recvEvent = { s with event := ⟨0, []⟩ }.consume s.event.set) ∨
      (s.event.set = 0 ∧ s.recvEvent = { s with event := ⟨0, [anyBit ()]⟩, pc := .wait }) := by
  have hev : s.event = ⟨s.event.set, []⟩ := by rw [← h]
  unfold Host.recvEvent
  by_cases hset : s.event.set = 0
  · refine Or.inr ⟨hset, ?_⟩
    rw [hset] at hev
    rw [hev, rtEventRecv_none () [] (show waitTicks ≠ 0 by decide)]
    rfl
  · refine Or.inl ⟨hset, ?_⟩
    rw [hev, rtEventRecv_some () hset [] waitTicks]

/-- The interrupt hands its status word to the waiting thread, or adds it to the event. -/
theorem irqProcess_cases {s : Host} (h : EventOk s) (hsta : s.hw.sta ≠ 0) :
    let s' := { s with hw := { s.hw with flags := s.hw.flags &&& ~~~s.hw.sta } }
    (s.pc = .wait ∧ irqProcess s = { s' with event := ⟨0, []⟩ }.consume s.hw.sta) ∨
      (s.pc ≠ .wait ∧ irqProcess s = { s' with event := ⟨s.event.set ||| s.hw.sta, []⟩ }) := by
  intro s'
  unfold irqProcess
  dsimp only
  by_cases hpc : s.pc = .wait
  · refine Or.inl ⟨hpc, ?_⟩
    rw [h.wait hpc, rtEventSend_anyBit () 0 s.hw.sta hsta, show 0 ||| s.hw.sta = s.hw.sta from
      BitVec.zero_or]
  · refine Or.inr ⟨hpc, ?_⟩
    have hev : s.event = ⟨s.event.set, []⟩ := by rw [← h.queue rfl hpc]
    rw [hev, rtEventSend_empty s.event.set s.hw.sta hsta]

theorem eventOk_finish {s : Host} (h : s.event.suspendThread = []) : EventOk s.finish := by
  refine eventOk_of_ne ?_ (by rw [finish_event]; exact h)
  rcases finish_pc s with hpc | hpc <;> rw [hpc] <;> exact nofun

theorem eventOk_next {s : Host} (h : s.event.suspendThread = []) : EventOk s.next := by
  refine eventOk_of_ne ?_ (by rw [next_event]; exact h)
  rcases next_pc s with hpc | hpc <;> rw [hpc] <;> exact nofun

theorem eventOk_endWait {s : Host} (h : s.event.suspendThread = []) (status : Option Word) :
    EventOk (s.endWait status) := by
  rcases endWait_cases s status with ⟨-, he⟩ | ⟨-, he⟩
  · rw [he]
    exact eventOk_finish h
  · rw [he]
    exact h

theorem eventOk_thread {s s' : Host} {b : BitVec 8} (h : EventOk s)
    (hs : threadStep s b = some s') : EventOk s' := by
  cases threadStep_inv hs with
  | @lock first hpc =>
    have hq := h.queue hpc nofun
    rcases start_cases s first with he | ⟨cmd, pc, -, he, hk⟩
    · rw [he]
      exact eventOk_next hq
    · rw [he]
      rcases hk with ⟨rfl, -⟩ | rfl | ⟨data, -, -, rfl⟩ <;> exact hq
  | copyIn hpc =>
    have hq := h.queue hpc nofun
    refine eventOk_of_ne ?_ hq
    dsimp only
    split <;> exact nofun
  | reset hpc => exact rfl
  | openMask hpc =>
    have hq := h.queue hpc nofun
    refine eventOk_of_ne ?_ hq
    dsimp only
    split <;> exact nofun
  | clean hpc => exact h.queue hpc nofun
  | closeMask hpc => exact h.queue hpc nofun
  | issue hpc => exact h.queue hpc nofun
  | recv hpc =>
    rcases recvEvent_cases (h.queue hpc nofun) with ⟨-, he⟩ | ⟨-, he⟩
    · rw [he]
      exact rfl
    · rw [he]
      exact rfl
  | received hpc => exact eventOk_endWait (h.queue hpc nofun) _
  | busy hpc =>
    have hq := h.queue hpc nofun
    unfold Host.pollBusy
    split
    · exact hq
    · split <;> exact hq
  | @check count hpc =>
    have hq := h.queue hpc nofun
    rcases endData_cases (s.takeSta count) with ⟨-, he⟩ | ⟨-, he⟩
    · rw [he]
      exact eventOk_finish hq
    · rw [he]
      exact hq
  | copyOut hpc =>
    have hq := h.queue hpc nofun
    unfold Host.copyByte
    split <;> exact hq
  | postClean hpc => exact eventOk_finish (h.queue hpc nofun)
  | complete hpc => exact h.queue hpc nofun

/-- An interrupt that is enabled shows some flag. -/
theorem sta_ne_zero {hw : Hw} (h : hw.sta &&& hw.mask ≠ 0) : hw.sta ≠ 0 := by
  intro hz
  rw [hz] at h
  exact h BitVec.zero_and

/-- The environment's moves other than the interrupt and the timer leave the thread and the
    event alone. -/
theorem eventOk_step {s s' : Host} {a : Action} (h : EventOk s) (hs : step s a = some s') :
    EventOk s' := by
  cases a with
  | request req =>
    obtain ⟨hpc, hs⟩ := Option.ite_none_right_eq_some.mp hs
    obtain rfl := Option.some.inj hs
    exact h.queue hpc nofun
  | thread b => exact eventOk_thread h hs
  | irq =>
    obtain ⟨hen, hs⟩ := Option.ite_none_right_eq_some.mp hs
    obtain rfl := Option.some.inj hs
    rcases irqProcess_cases h (sta_ne_zero hen) with ⟨-, he⟩ | ⟨hpc, he⟩
    · rw [he]
      exact rfl
    · rw [he]
      exact eventOk_of_ne hpc rfl
  | timeout =>
    obtain ⟨hpc, hs⟩ := Option.ite_none_right_eq_some.mp hs
    obtain rfl := Option.some.inj hs
    refine eventOk_endWait ?_ none
    rw [h.wait hpc]
    rfl
  | raise f =>
    obtain rfl := Option.some.inj hs
    exact h
  | level v =>
    obtain rfl := Option.some.inj hs
    exact h
  | respond r =>
    obtain ⟨-, hs⟩ := Option.ite_none_right_eq_some.mp hs
    obtain rfl := Option.some.inj hs
    exact h

end Live2dStm32.Sdio
