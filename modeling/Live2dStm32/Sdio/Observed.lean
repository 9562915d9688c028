import Live2dStm32.Sdio.Host

/-
  The host against the functional `sendCommand`: whatever the interrupt, the timer and the
  controller do in between, a command that is done is what `sendCommand` makes of one
  observation, the status word it consumed, the response registers and its reads of STA
  (`observed_of_reach`). What is proved of `sendCommand` holds of the host.
-/

namespace Live2dStm32.Sdio.Observed

open Live2dStm32.Kernel Live2dStm32.Lib

/-! ## The reads of the busy loop -/

/-- A stream that starts with the reads made so far. -/
def prepend : List Word → (Nat → Word) → Nat → Word
  | [], rest, i => rest i
  | w :: _, _, 0 => w
  | _ :: ws, rest, i + 1 => prepend ws rest i

theorem prepend_append (ws vs : List Word) (rest : Nat → Word) :
    prepend (ws ++ vs) rest = prepend ws (prepend vs rest) := by
  funext i
  induction ws generalizing i with
  | nil => rfl
  | cons w ws ih =>
    cases i with
    | zero => rfl
    | succ i => exact ih i

theorem prepend_length (ws : List Word) (rest : Nat → Word) :
    prepend ws rest ws.length = rest 0 := by
  induction ws with
  | nil => rfl
  | cons w ws ih => exact ih

/-- Reads that find the path active use up the count, one each. -/
theorem busyLoop_prepend {ws : List Word} (h : ∀ w ∈ ws, w &&& staDpsmact ≠ 0) (n : Nat)
    (rest : Nat → Word) :
    busyLoop (ws.length + n) (prepend ws rest) =
      ((busyLoop n rest).1, (busyLoop n rest).2 + ws.length) := by
  induction ws with
  | nil =>
    rw [List.length_nil, Nat.zero_add]
    rfl
  | cons w ws ih =>
    have hw : prepend (w :: ws) rest 0 &&& staDpsmact ≠ 0 := h w List.mem_cons_self
    rw [List.length_cons, Nat.add_right_comm, busyLoop, if_pos hw]
    dsimp only
    rw [show (fun i => prepend (w :: ws) rest (i + 1)) = prepend ws rest from rfl,
      ih fun v hv => h v (List.mem_cons_of_mem w hv)]
    rfl

/-! ## What explains a command -/

/-- `cmd` is what `sendCommand` makes of `cmd₀` and `o`, the buffer apart, and `t` records what
    is in `o`. -/
structure Explains (o : Obs) (cmd₀ cmd : MmcsdCmd) (t : Trace) : Prop where
  flags : cmd₀.flags = cmd.flags
  data : cmd₀.data.isSome = cmd.data.isSome
  err : (sendCommand o cmd₀).err = cmd.err
  resp : (sendCommand o cmd₀).resp = cmd.resp
  word : t.word = o.recv
  timedOut : t.timedOut = o.recv.isNone
  idle : cmd.data.isSome = true →
    (t.idle = true ↔ (busyLoop sdioTxRxCompleteTimeoutLoops o.sta).1 ≠ 0)
  last : cmd.data.isSome = true → t.last = o.lastSta

def Explained (cmd : MmcsdCmd) (t : Trace) : Prop := ∃ o cmd₀, Explains o cmd₀ cmd t

/-- The wait is explained by the status word and the registers. -/
def Waited (cmd : MmcsdCmd) (t : Trace) : Prop :=
  t.timedOut = t.word.isNone ∧ ∃ cmd₀ regs, cmd = waitCompleted cmd₀ t.word regs

@[simp] theorem waitCompleted_flags (cmd : MmcsdCmd) (recv : Option Word) (regs : Resp) :
    (waitCompleted cmd recv regs).flags = cmd.flags := by
  unfold waitCompleted
  cases recv <;> rfl

/-- Without a data phase that is all. -/
theorem Waited.explained {cmd : MmcsdCmd} {t : Trace} (h : Waited cmd t)
    (hd : cmd.data = none) : Explained cmd t := by
  obtain ⟨hto, cmd₀, regs, rfl⟩ := h
  rw [waitCompleted_data] at hd
  have hno : ¬ (waitCompleted cmd₀ t.word regs).data.isSome = true := by
    rw [waitCompleted_data, hd]
    exact Bool.false_ne_true
  have hs : sendCommand ⟨t.word, regs, fun _ => 0⟩ cmd₀ = waitCompleted cmd₀ t.word regs := by
    unfold sendCommand
    dsimp only
    rw [waitCompleted_data, hd]
  exact ⟨⟨t.word, regs, fun _ => 0⟩, cmd₀, (waitCompleted_flags _ _ _).symm,
    congrArg _ (waitCompleted_data _ _ _).symm, by rw [hs], by rw [hs], rfl, hto,
    fun hd => absurd hd hno, fun hd => absurd hd hno⟩

/-- With one, the reads `ws` of STA left `count`, and `sta` is the read that follows. -/
theorem Waited.explained_sta {cmd : MmcsdCmd} {t : Trace} (h : Waited cmd t)
    (hd : cmd.data.isSome = true) {count : Nat} (hidle : t.idle = true ↔ count ≠ 0)
    {ws : List Word}
    (hws : ∀ rest, busyLoop sdioTxRxCompleteTimeoutLoops (prepend ws rest) = (count, ws.length))
    (sta raisedEnd : Word) :
    Explained { cmd with err := dataErr cmd.err count sta } { t with last := sta, raisedEnd } := by
  obtain ⟨hto, cmd₀, regs, rfl⟩ := h
  rw [waitCompleted_data] at hd
  obtain ⟨data, hd⟩ := Option.isSome_iff_exists.mp hd
  let o : Obs := ⟨t.word, regs, prepend ws fun _ => sta⟩
  have hlast : o.lastSta = sta := by
    unfold Obs.lastSta
    rw [hws]
    exact prepend_length ws _
  have hs : sendCommand o cmd₀ = { waitCompleted cmd₀ t.word regs with
      err := dataErr (waitCompleted cmd₀ t.word regs).err count sta } := by
    unfold sendCommand
    dsimp only
    rw [waitCompleted_data, hd]
    dsimp only
    rw [hlast, hws]
  refine ⟨o, cmd₀, (waitCompleted_flags _ _ _).symm, congrArg _ (waitCompleted_data _ _ _).symm,
    by rw [hs], by rw [hs], rfl, hto, fun _ => ?_, fun _ => hlast.symm⟩
  rw [show o.sta = prepend ws fun _ => sta from rfl, hws]
  exact hidle

/-! ## Every command of every run -/

/-- What explains the command so far, where the thread stands. -/
def PcInv (pc : Pc) (cmd : MmcsdCmd) (t : Trace) : Prop :=
  match pc with
  | .recv | .wait => t.word = none ∧ t.idle = false
  | .received status => t.word = some status ∧ t.idle = false
  | .busy count => Waited cmd t ∧ cmd.data.isSome = true ∧ t.idle = false ∧
      ∃ ws : List Word, (∀ w ∈ ws, w &&& staDpsmact ≠ 0) ∧
        sdioTxRxCompleteTimeoutLoops = ws.length + count
  | .check count => Waited cmd t ∧ cmd.data.isSome = true ∧ (t.idle = true ↔ count ≠ 0) ∧
      ∃ ws : List Word, ∀ rest,
        busyLoop sdioTxRxCompleteTimeoutLoops (prepend ws rest) = (count, ws.length)
  | .copyOut _ | .postClean => Explained cmd t
  | _ => True

structure Inv (s : Host) : Prop where
  event : EventOk s
  pc : PcInv s.pc s.cmd s.trace
  log : ∀ d ∈ s.log, Explained d.1 d.2

theorem Inv.at {s : Host} (h : Inv s) {pc : Pc} (hpc : s.pc = pc) : PcInv pc s.cmd s.trace :=
  hpc ▸ h.pc

/-- What is raised or loaded meanwhile explains nothing. -/
theorem pcInv_env {pc : Pc} {cmd : MmcsdCmd} {t : Trace} (h : PcInv pc cmd t) (raised : Word)
    (response : Option Resp) : PcInv pc cmd { t with raised, response } := by
  have hx : Explained cmd t → Explained cmd { t with raised, response } := by
    intro ⟨o, cmd₀, he⟩
    exact ⟨o, cmd₀, he.flags, he.data, he.err, he.resp, he.word, he.timedOut, he.idle, he.last⟩
  cases pc <;> first | exact h | exact hx h

theorem pcInv_next (s : Host) : PcInv s.next.pc s.next.cmd s.next.trace := by
  rcases next_pc s with hpc | hpc <;> rw [hpc] <;> trivial

theorem log_finish {s : Host} (h : ∀ d ∈ s.log, Explained d.1 d.2)
    (hs : Explained s.cmd s.trace) : ∀ d ∈ s.finish.log, Explained d.1 d.2 := by
  rw [finish_log]
  intro d hd
  rcases List.mem_cons.mp hd with rfl | hd
  · exact hs
  · exact h d hd

/-- The wait ends with the status word consumed, or without one. -/
theorem endWait_inv {s : Host} {status : Option Word} (hlog : ∀ d ∈ s.log, Explained d.1 d.2)
    (hword : s.trace.word = status) (hidle : s.trace.idle = false) :
    PcInv (s.endWait status).pc (s.endWait status).cmd (s.endWait status).trace ∧
      ∀ d ∈ (s.endWait status).log, Explained d.1 d.2 := by
  have hw : Waited (s.takeStatus status).cmd (s.takeStatus status).trace := by
    subst hword
    exact ⟨rfl, s.cmd, s.hw.resp, rfl⟩
  rcases endWait_cases s status with ⟨hd, he⟩ | ⟨hd, he⟩
  · rw [he]
    exact ⟨pcInv_next _, log_finish hlog (hw.explained ((waitCompleted_data _ _ _).trans hd))⟩
  · rw [he]
    refine ⟨⟨hw, (congrArg _ (waitCompleted_data _ _ _)).trans hd, hidle, [], ?_, ?_⟩, hlog⟩
    · exact fun _ hv => nomatch hv
    · exact (Nat.zero_add _).symm

/-- A read that finds the path active uses up the count; one that does not ends the loop. -/
theorem pollBusy_inv {s : Host} {count : Nat} (h : PcInv (.busy count) s.cmd s.trace) :
    PcInv (s.pollBusy count).pc (s.pollBusy count).cmd (s.pollBusy count).trace := by
  obtain ⟨hw, hd, hidle, ws, hws, hlen⟩ := h
  unfold Host.pollBusy
  split
  case isTrue hc =>
    refine ⟨hw, hd, by simp [hidle], ws, fun rest => ?_⟩
    rw [hlen, hc, busyLoop_prepend hws]
    exact congrArg (Prod.mk 0) (Nat.zero_add _)
  case isFalse hc =>
    obtain ⟨n, rfl⟩ := Nat.exists_eq_succ_of_ne_zero hc
    split
    case isTrue hb =>
      refine ⟨hw, hd, hidle, ws ++ [s.hw.sta], fun w hw => ?_, ?_⟩
      · rcases List.mem_append.mp hw with hw | hw
        · exact hws w hw
        · exact List.mem_singleton.mp hw ▸ hb
      · rw [hlen, List.length_append, List.length_singleton, Nat.succ_sub_one]
        omega
    case isFalse hb =>
      refine ⟨hw, hd, iff_of_true rfl hc, ws ++ [s.hw.sta], fun rest => ?_⟩
      rw [hlen, prepend_append, busyLoop_prepend hws, List.length_append, busyLoop,
        if_neg (show ¬ prepend [s.hw.sta] rest 0 &&& staDpsmact ≠ 0 from hb)]
      exact congrArg (Prod.mk _) (Nat.add_comm _ _)

theorem takeSta_inv {s : Host} {count : Nat} (hlog : ∀ d ∈ s.log, Explained d.1 d.2)
    (h : PcInv (.check count) s.cmd s.trace) :
    PcInv (s.takeSta count).endData.pc (s.takeSta count).endData.cmd
        (s.takeSta count).endData.trace ∧
      ∀ d ∈ (s.takeSta count).endData.log, Explained d.1 d.2 := by
  obtain ⟨hw, hd, hidle, ws, hws⟩ := h
  have hs := hw.explained_sta hd hidle hws s.hw.sta s.trace.raised
  rcases endData_cases (s.takeSta count) with ⟨-, he⟩ | ⟨-, he⟩
  · rw [he]
    exact ⟨pcInv_next _, log_finish hlog hs⟩
  · rw [he]
    exact ⟨hs, hlog⟩

theorem copyByte_inv {s : Host} {i : Nat} {b : BitVec 8} (h : Explained s.cmd s.trace) :
    PcInv (s.copyByte i b).pc (s.copyByte i b).cmd (s.copyByte i b).trace := by
  unfold Host.copyByte
  split
  · -- the buffer changes, which nothing depends on
    obtain ⟨o, cmd₀, he⟩ := h
    have hmap : (s.cmd.data.map fun d => { d with buf := d.buf.set i b }).isSome =
        s.cmd.data.isSome := Option.isSome_map
    exact ⟨o, cmd₀, he.flags, he.data.trans hmap.symm, he.err, he.resp, he.word, he.timedOut,
      fun hd => he.idle (hmap.symm.trans hd), fun hd => he.last (hmap.symm.trans hd)⟩
  · exact h

theorem inv_thread {s s' : Host} {b : BitVec 8} (h : Inv s) (hs : threadStep s b = some s') :
    Inv s' := by
  have hev := eventOk_thread h.event hs
  cases threadStep_inv hs with
  | @lock first hpc =>
    rcases start_cases s first with he | ⟨cmd, pc, -, he, hk⟩
    · rw [he] at hev ⊢
      exact ⟨hev, pcInv_next s, by rw [next_log]; exact h.log⟩
    · rw [he] at hev ⊢
      refine ⟨hev, ?_, h.log⟩
      rcases hk with ⟨rfl, -⟩ | rfl | ⟨data, -, -, rfl⟩ <;> trivial
  | copyIn hpc =>
    refine ⟨hev, ?_, h.log⟩
    dsimp only
    split <;> trivial
  | reset hpc => exact ⟨hev, trivial, h.log⟩
  | openMask hpc =>
    refine ⟨hev, ?_, h.log⟩
    dsimp only
    split <;> trivial
  | clean hpc => exact ⟨hev, trivial, h.log⟩
  | closeMask hpc => exact ⟨hev, trivial, h.log⟩
  | issue hpc => exact ⟨hev, ⟨rfl, rfl⟩, h.log⟩
  | recv hpc =>
    obtain ⟨hword, hidle⟩ := h.at hpc
    rcases recvEvent_cases (h.event.queue hpc nofun) with ⟨-, he⟩ | ⟨-, he⟩
    · rw [he] at hev ⊢
      exact ⟨hev, ⟨rfl, hidle⟩, h.log⟩
    · rw [he] at hev ⊢
      exact ⟨hev, ⟨hword, hidle⟩, h.log⟩
  | received hpc =>
    obtain ⟨hword, hidle⟩ := h.at hpc
    obtain ⟨hp, hl⟩ := endWait_inv h.log hword hidle
    exact ⟨hev, hp, hl⟩
  | busy hpc =>
    refine ⟨hev, pollBusy_inv (h.at hpc), ?_⟩
    unfold Host.pollBusy
    split
    · exact h.log
    · split <;> exact h.log
  | check hpc =>
    obtain ⟨hp, hl⟩ := takeSta_inv h.log (h.at hpc)
    exact ⟨hev, hp, hl⟩
  | copyOut hpc =>
    refine ⟨hev, copyByte_inv (h.at hpc), ?_⟩
    unfold Host.copyByte
    split <;> exact h.log
  | postClean hpc => exact ⟨hev, pcInv_next _, log_finish h.log (h.at hpc)⟩
  | complete hpc => exact ⟨hev, trivial, h.log⟩

theorem inv_step {s s' : Host} {a : Action} (h : Inv s) (hs : step s a = some s') : Inv s' := by
  have hev := eventOk_step h.event hs
  cases a with
  | request req =>
    obtain ⟨-, hs⟩ := Option.ite_none_right_eq_some.mp hs
    obtain rfl := Option.some.inj hs
    exact ⟨hev, trivial, h.log⟩
  | thread b => exact inv_thread h hs
  | irq =>
    obtain ⟨hen, hs⟩ := Option.ite_none_right_eq_some.mp hs
    obtain rfl := Option.some.inj hs
    rcases irqProcess_cases h.event (sta_ne_zero hen) with ⟨hpc, he⟩ | ⟨-, he⟩
    · rw [he] at hev ⊢
      exact ⟨hev, ⟨rfl, (h.at hpc).2⟩, h.log⟩
    · rw [he] at hev ⊢
      exact ⟨hev, h.pc, h.log⟩
  | timeout =>
    obtain ⟨hpc, hs⟩ := Option.ite_none_right_eq_some.mp hs
    obtain rfl := Option.some.inj hs
    obtain ⟨hword, hidle⟩ := h.at hpc
    obtain ⟨hp, hl⟩ := endWait_inv (s := { s with event := rtEventTimeout s.event () })
      h.log hword hidle
    exact ⟨hev, hp, hl⟩
  | raise f =>
    obtain rfl := Option.some.inj hs
    exact ⟨hev, pcInv_env h.pc _ s.trace.response, h.log⟩
  | level v =>
    obtain rfl := Option.some.inj hs
    exact ⟨hev, h.pc, h.log⟩
  | respond r =>
    obtain ⟨-, hs⟩ := Option.ite_none_right_eq_some.mp hs
    obtain rfl := Option.some.inj hs
    exact ⟨hev, pcInv_env h.pc s.trace.raised _, h.log⟩

/-- Every command of every run is what `sendCommand` makes of what it observed. -/
theorem observed_of_reach {hw : Hw} {s : Host} (h : Reach step Free (init hw) s) :
    ∀ d ∈ s.log, Explained d.1 d.2 := by
  have hinit : Inv (init hw) := ⟨rfl, trivial, fun _ hd => (nomatch hd)⟩
  exact (h.invariant Inv hinit fun _ _ _ hi _ hs => inv_step hi hs).log

end Live2dStm32.Sdio.Observed
