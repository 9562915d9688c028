import Live2dStm32.Sdio.Host

/-
  The host as `cache_buf`, the cache and the mutex see it: the phase of its data transfer, and
  the effect each step of its thread has on them. `threadStep_phase` is the simulation: a step
  of the thread is a move `PhaseStep` of the phase; every other step leaves the phase alone.
-/

namespace Live2dStm32.Sdio

open Live2dStm32.Kernel Live2dStm32.Lib

/-! ## Phases and effects -/

/-- Outside the mutex; copying the data to write into `cache_buf`; copied, not yet cleaned;
    cleaned, not yet started; the controller moves the data; copying what was read; copied, not
    yet cleaned. `quiet`: with the mutex and without data. -/
inductive Phase where
  | outside
  | quiet
  | filling (data : MmcsdData) (i : Nat)
  | filled (data : MmcsdData)
  | ready (data : MmcsdData)
  | moving (data : MmcsdData)
  | copying (data : MmcsdData) (err : Int) (i : Nat)
  | copied (data : MmcsdData) (err : Int)
  deriving DecidableEq, Repr

def Phase.isMoving : Phase → Bool
  | .moving _ => true
  | _ => false

def phaseOf (pc : Pc) (cmd : MmcsdCmd) : Phase :=
  match pc with
  | .idle | .lock _ => .outside
  | .halted | .complete => .quiet
  | pc =>
    match cmd.data with
    | none => .quiet
    | some data =>
      match pc with
      | .copyIn i => .filling data i
      | .reset | .openMask | .clean => .filled data
      | .closeMask | .issue => .ready data
      | .copyOut i => .copying data cmd.err i
      | .postClean => .copied data cmd.err
      | _ => .moving data

def Host.phase (s : Host) : Phase := phaseOf s.pc s.cmd

/-- What a step of the thread does outside the host. `start` is the write to CMD, `load` the
    byte of `cache_buf` it needs. -/
inductive Effect where
  | none
  | lock
  | store (a : Nat) (b : BitVec 8)
  | load (a : Nat)
  | cleanInvalidate
  | start
  | release
  deriving DecidableEq, Repr

def Host.effect (s : Host) : Effect :=
  match s.pc with
  | .lock _ => .lock
  | .copyIn i =>
    if i < s.size then .store i ((s.cmd.data.map fun d => d.buf.getD i 0).getD 0) else .none
  | .clean | .postClean => .cleanInvalidate
  | .issue => .start
  | .copyOut i => if i < s.size then .load i else .none
  | .complete => .release
  | _ => .none

/-- The moves between phases, with their effects. `b` is the byte loaded. -/
inductive PhaseStep (b : BitVec 8) : Phase → Effect → Phase → Prop
  | lock : PhaseStep b .outside .lock .quiet
  | lockWrite (data : MmcsdData) : PhaseStep b .outside .lock (.filling data 0)
  | lockData {data : MmcsdData} (h : data.isWrite = false) :
      PhaseStep b .outside .lock (.filled data)
  | quiet {e : Effect} (h : e = .none ∨ e = .start ∨ e = .cleanInvalidate) :
      PhaseStep b .quiet e .quiet
  | release : PhaseStep b .quiet .release .outside
  | store (data : MmcsdData) (i : Nat) :
      PhaseStep b (.filling data i) (.store i (data.buf.getD i 0)) (.filling data (i + 1))
  | filled {data : MmcsdData} {i : Nat} (h : data.size ≤ i) :
      PhaseStep b (.filling data i) .none (.filled data)
  | filledStay (data : MmcsdData) : PhaseStep b (.filled data) .none (.filled data)
  | clean (data : MmcsdData) : PhaseStep b (.filled data) .cleanInvalidate (.ready data)
  | readyStay (data : MmcsdData) : PhaseStep b (.ready data) .none (.ready data)
  | start (data : MmcsdData) : PhaseStep b (.ready data) .start (.moving data)
  | movingStay (data : MmcsdData) : PhaseStep b (.moving data) .none (.moving data)
  | movingDone {data : MmcsdData} (h : data.isRead = false) :
      PhaseStep b (.moving data) .none .quiet
  | copying (data : MmcsdData) (err : Int) :
      PhaseStep b (.moving data) .none (.copying data err 0)
  | load {data : MmcsdData} (err : Int) {i : Nat} (hi : i < data.size)
      (hbuf : i < data.buf.length) :
      PhaseStep b (.copying data err i) (.load i)
        (.copying { data with buf := data.buf.set i b } err (i + 1))
  | copied {data : MmcsdData} (err : Int) {i : Nat} (h : data.size ≤ i) :
      PhaseStep b (.copying data err i) .none (.copied data err)
  | done (data : MmcsdData) (err : Int) :
      PhaseStep b (.copied data err) .cleanInvalidate .quiet

/-! ## What the host keeps -/

/-- The buffers in hand have room, a stop command has no data, and while the controller moves
    data it is programmed for that data. -/
structure DataOk (s : Host) : Prop where
  event : EventOk s
  room : ∀ d, s.cmd.data = some d → d.size ≤ d.buf.length
  stop : ∀ c, s.stop = some c → c.data = none
  first : ∀ c, s.pc = .lock (some c) → ∀ d, c.data = some d → d.size ≤ d.buf.length
  programmed : ∀ d, s.phase = .moving d →
    s.hw.dlen.toNat = d.size ∧ (s.hw.dctrl &&& dctrlDtdir ≠ 0 ↔ d.isRead = true)

theorem phase_next {s : Host} (h : ∀ c, s.stop = some c → c.data = none) :
    s.next.phase = .quiet := by
  unfold Host.next
  cases hs : s.stop with
  | none => rfl
  | some cmd => simp [Host.begin, Host.phase, phaseOf, h cmd hs]

theorem phase_finish {s : Host} (h : ∀ c, s.stop = some c → c.data = none) :
    s.finish.phase = .quiet := phase_next h

theorem data_of_moving {s : Host} {data : MmcsdData} (h : s.phase = .moving data) :
    s.cmd.data = some data := by
  unfold Host.phase phaseOf at h
  cases hd : s.cmd.data <;> cases hpc : s.pc <;> simp [hd, hpc] at h <;> rw [h]

/-- The controller has the command. -/
def Pc.Moving : Pc → Prop
  | .recv | .wait | .received _ | .busy _ | .check _ => True
  | _ => False

def movingPhase (cmd : MmcsdCmd) : Phase := (cmd.data.map Phase.moving).getD .quiet

theorem phaseOf_moving (pc : Pc) (h : pc.Moving) (cmd : MmcsdCmd) :
    phaseOf pc cmd = movingPhase cmd := by
  unfold phaseOf movingPhase
  cases cmd.data <;> cases pc <;> first | rfl | exact h.elim

theorem effect_moving {s : Host} (h : s.pc.Moving) : s.effect = .none := by
  unfold Host.effect
  cases hpc : s.pc <;> rw [hpc] at h <;> first | rfl | exact h.elim

/-- The phase does not look at what `rthw_sdio_wait_completed` writes. -/
theorem phase_endWait {s : Host} (h : ∀ c, s.stop = some c → c.data = none)
    (status : Option Word) : (s.endWait status).phase = movingPhase s.cmd := by
  rcases endWait_cases s status with ⟨hd, he⟩ | ⟨-, he⟩
  · rw [he, movingPhase, hd]
    exact phase_finish h
  · rw [he]
    show phaseOf (.busy sdioTxRxCompleteTimeoutLoops) (s.takeStatus status).cmd = _
    rw [phaseOf_moving (.busy _) trivial]
    exact congrArg (fun data => (data.map Phase.moving).getD .quiet) (waitCompleted_data _ _ _)

/-! ## The simulation -/

theorem start_phase {s : Host} {b : BitVec 8} (h : ∀ c, s.stop = some c → c.data = none)
    (first : Option MmcsdCmd) : PhaseStep b .outside .lock (s.start first).phase := by
  rcases start_cases s first with he | ⟨cmd, pc, -, he, hk⟩
  · rw [he, phase_next h]
    exact .lock
  · rw [he]
    show PhaseStep b .outside .lock (phaseOf pc cmd)
    rcases hk with ⟨rfl, hw⟩ | rfl | ⟨data, hd, -, rfl⟩
    · cases hd : cmd.data with
      | none =>
        simp only [phaseOf, hd]
        exact .lock
      | some data =>
        simp only [phaseOf, hd]
        exact .lockData (hw data hd)
    · exact .lock
    · simp only [phaseOf, hd]
      exact .lockWrite data

/-- Nothing happens outside while the controller has the command. -/
theorem PhaseStep.movingSame {b : BitVec 8} (cmd : MmcsdCmd) :
    PhaseStep b (movingPhase cmd) .none (movingPhase cmd) := by
  unfold movingPhase
  cases cmd.data with
  | none => exact .quiet (Or.inl rfl)
  | some data => exact .movingStay data

theorem PhaseStep.moving {b : BitVec 8} (cmd : MmcsdCmd) (pc : Pc) (h : pc.Moving) :
    PhaseStep b (movingPhase cmd) .none (phaseOf pc cmd) := by
  rw [phaseOf_moving pc h]
  exact .movingSame cmd

/-- The thread has no effect while the controller has the command. -/
theorem PhaseStep.whileMoving {s : Host} {b : BitVec 8} {p : Phase} (hm : s.pc.Moving)
    (h : PhaseStep b (movingPhase s.cmd) .none p) : PhaseStep b s.phase s.effect p := by
  rw [effect_moving hm, Host.phase, phaseOf_moving _ hm]
  exact h

theorem takeSta_phase {s : Host} {b : BitVec 8} (h : ∀ c, s.stop = some c → c.data = none)
    (count : Nat) : PhaseStep b (movingPhase s.cmd) .none (s.takeSta count).endData.phase := by
  rcases endData_cases (s.takeSta count) with ⟨hr, he⟩ | ⟨⟨data, hd, -⟩, he⟩
  · rw [he, phase_finish (s := s.takeSta count) h]
    unfold movingPhase
    cases hd : s.cmd.data with
    | none => exact .quiet (Or.inl rfl)
    | some data => exact .movingDone (hr data hd)
  · rw [he]
    have hd' : s.cmd.data = some data := hd
    simp only [movingPhase, Host.phase, phaseOf, hd, hd']
    exact .copying data _

/-- Every step of the thread is a move of the phase with its effect. -/
theorem threadStep_phase {s s' : Host} {b : BitVec 8} (h : DataOk s)
    (hs : threadStep s b = some s') : PhaseStep b s.phase s.effect s'.phase := by
  cases threadStep_inv hs with
  | @lock first hpc =>
    have hp : s.phase = .outside := by simp only [Host.phase, phaseOf, hpc]
    have he : s.effect = .lock := by simp only [Host.effect, hpc]
    rw [hp, he]
    exact start_phase h.stop first
  | @copyIn i hpc =>
    cases hd : s.cmd.data with
    | none =>
      simp only [Host.phase, phaseOf, Host.effect, Host.size, hpc, hd]
      exact .quiet (Or.inl rfl)
    | some data =>
      simp only [Host.phase, phaseOf, Host.effect, Host.size, hpc, hd, Option.map_some,
        Option.getD_some]
      by_cases hi : i < data.size
      · rw [if_pos hi, if_pos hi]
        exact .store data i
      · rw [if_neg hi, if_neg hi]
        exact .filled (Nat.le_of_not_lt hi)
  | reset hpc =>
    cases hd : s.cmd.data <;> simp only [Host.phase, phaseOf, Host.effect, hpc, hd]
    · exact .quiet (Or.inl rfl)
    · exact .filledStay _
  | openMask hpc =>
    cases hd : s.cmd.data <;> simp only [Host.phase, phaseOf, Host.effect, hpc, hd]
    · exact .quiet (Or.inl rfl)
    · exact .filledStay _
  | clean hpc =>
    cases hd : s.cmd.data <;> simp only [Host.phase, phaseOf, Host.effect, hpc, hd]
    · exact .quiet (Or.inr (Or.inr rfl))
    · exact .clean _
  | closeMask hpc =>
    cases hd : s.cmd.data <;> simp only [Host.phase, phaseOf, Host.effect, hpc, hd]
    · exact .quiet (Or.inl rfl)
    · exact .readyStay _
  | issue hpc =>
    cases hd : s.cmd.data <;> simp only [Host.phase, phaseOf, Host.effect, Host.issue, hpc, hd]
    · exact .quiet (Or.inr (Or.inl rfl))
    · exact .start _
  | recv hpc =>
    refine .whileMoving (hpc ▸ trivial) ?_
    rcases recvEvent_cases (h.event.queue hpc nofun) with ⟨-, he⟩ | ⟨-, he⟩
    · rw [he]
      exact .moving s.cmd (.received s.event.set) trivial
    · rw [he]
      exact .moving s.cmd .wait trivial
  | @received status hpc =>
    refine .whileMoving (hpc ▸ trivial) ?_
    rw [phase_endWait h.stop (some status)]
    exact .movingSame s.cmd
  | @busy count hpc =>
    refine .whileMoving (hpc ▸ trivial) ?_
    unfold Host.pollBusy
    split
    · exact .moving s.cmd (.check 0) trivial
    · split
      · exact .moving s.cmd (.busy (count - 1)) trivial
      · exact .moving s.cmd (.check count) trivial
  | check hpc =>
    refine .whileMoving (hpc ▸ trivial) ?_
    exact takeSta_phase h.stop _
  | @copyOut i hpc =>
    unfold Host.copyByte
    cases hd : s.cmd.data with
    | none =>
      simp only [Host.phase, phaseOf, Host.effect, Host.size, hpc, hd, Option.map_none,
        Option.getD_none, Nat.not_lt_zero, if_false]
      exact .quiet (Or.inl rfl)
    | some data =>
      simp only [Host.phase, phaseOf, Host.effect, Host.size, hpc, hd, Option.map_some,
        Option.getD_some]
      by_cases hi : i < data.size
      · rw [if_pos hi, if_pos hi]
        exact .load _ hi (Nat.lt_of_lt_of_le hi (h.room data hd))
      · rw [if_neg hi, if_neg hi]
        simp only [hd]
        exact .copied _ (Nat.le_of_not_lt hi)
  | postClean hpc =>
    rw [phase_finish h.stop]
    cases hd : s.cmd.data <;> simp only [Host.phase, phaseOf, Host.effect, hpc, hd]
    · exact .quiet (Or.inr (Or.inr rfl))
    · exact .done _ _
  | complete hpc =>
    have hp : s.phase = .quiet := by simp only [Host.phase, phaseOf, hpc]
    have he : s.effect = .release := by simp only [Host.effect, hpc]
    rw [hp, he]
    exact .release

/-- Everything else leaves the phase alone. -/
theorem phase_env {s s' : Host} {a : Action} (h : DataOk s) (ha : ∀ b, a ≠ .thread b)
    (hs : step s a = some s') : s'.phase = s.phase := by
  cases a with
  | request req =>
    obtain ⟨hpc, hs⟩ := Option.ite_none_right_eq_some.mp hs
    obtain rfl := Option.some.inj hs
    simp only [Host.phase, phaseOf, hpc]
  | thread b => exact absurd rfl (ha b)
  | irq =>
    obtain ⟨hen, hs⟩ := Option.ite_none_right_eq_some.mp hs
    obtain rfl := Option.some.inj hs
    rcases irqProcess_cases h.event (sta_ne_zero hen) with ⟨hpc, he⟩ | ⟨-, he⟩
    · rw [he, Host.phase, Host.phase, hpc, phaseOf_moving .wait trivial]
      exact phaseOf_moving (.received _) trivial s.cmd
    · rw [he]
      rfl
  | timeout =>
    obtain ⟨hpc, hs⟩ := Option.ite_none_right_eq_some.mp hs
    obtain rfl := Option.some.inj hs
    rw [phase_endWait (s := { s with event := rtEventTimeout s.event () }) h.stop, Host.phase,
      hpc]
    exact (phaseOf_moving .wait trivial s.cmd).symm
  | raise f =>
    obtain rfl := Option.some.inj hs
    rfl
  | level v =>
    obtain rfl := Option.some.inj hs
    rfl
  | respond r =>
    obtain ⟨-, hs⟩ := Option.ite_none_right_eq_some.mp hs
    obtain rfl := Option.some.inj hs
    rfl

/-! ## `DataOk` is kept -/

/-- The direction is the second bit of DCTRL, below the block size. -/
theorem configData_dctrl (hw : Hw) (data : MmcsdData) :
    (hw.configData data).dctrl &&& dctrlDtdir ≠ 0 ↔ data.isRead = true := by
  have hshift : (getOrder data.blksize <<< 4).getLsbD 1 = false := by
    rw [BitVec.getLsbD_shiftLeft]
    rfl
  have hbit : (bit 32 1).getLsbD 1 = true := by decide
  unfold Hw.configData dctrlDtdir
  dsimp only
  rw [ne_eq, and_bit_eq_zero_iff _ (by decide), BitVec.getLsbD_or, hshift, Bool.false_or]
  cases data.isRead with
  | true =>
    rw [if_pos rfl, hbit]
    simp
  | false => simp

/-- Data starts to move with the write to CMD only. -/
theorem PhaseStep.of_moving {b : BitVec 8} {p p' : Phase} {e : Effect} {d : MmcsdData}
    (h : PhaseStep b p e p') (hm : p' = .moving d) : p = .moving d ∨ e = .start := by
  cases h with
  | start data => exact Or.inr rfl
  | movingStay data => exact Or.inl hm
  | _ => cases hm

theorem effect_ne_start {s : Host} (h : s.pc ≠ .issue) : s.effect ≠ .start := by
  unfold Host.effect
  cases hpc : s.pc <;> dsimp only
  case issue => exact absurd hpc h
  case copyIn => split <;> exact nofun
  case copyOut => split <;> exact nofun
  all_goals exact nofun

/-- A step that touches neither the data nor the data registers. -/
theorem DataOk.frame {s s' : Host} (h : DataOk s) (hev : EventOk s')
    (hdata : s'.cmd.data = s.cmd.data) (hstop : s'.stop = s.stop)
    (hpc : ∀ c, s'.pc ≠ .lock (some c))
    (hhw : s'.hw.dlen = s.hw.dlen ∧ s'.hw.dctrl = s.hw.dctrl)
    (hm : ∀ d, s'.phase = .moving d → s.phase = .moving d) : DataOk s' where
  event := hev
  room := by
    rw [hdata]
    exact h.room
  stop := by
    rw [hstop]
    exact h.stop
  first c hc := absurd hc (hpc c)
  programmed d hd := by
    rw [hhw.1, hhw.2]
    exact h.programmed d (hm d hd)

theorem dataOk_next {s : Host} (hq : s.event.suspendThread = [])
    (room : ∀ d, s.cmd.data = some d → d.size ≤ d.buf.length)
    (stop : ∀ c, s.stop = some c → c.data = none) : DataOk s.next where
  event := eventOk_next hq
  room := by
    unfold Host.next
    cases hs : s.stop with
    | none => exact room
    | some cmd =>
      intro d hd
      have hd' : cmd.data = some d := hd
      rw [stop cmd hs] at hd'
      cases hd'
  stop := by
    unfold Host.next
    cases hs : s.stop <;> exact fun c hc => nomatch (show none = some c from hc)
  first c hc := by rcases next_pc s with h | h <;> rw [h] at hc <;> cases hc
  programmed d hd := by
    rw [phase_next stop] at hd
    cases hd

theorem dataOk_finish {s : Host} (hq : s.event.suspendThread = [])
    (room : ∀ d, s.cmd.data = some d → d.size ≤ d.buf.length)
    (stop : ∀ c, s.stop = some c → c.data = none) : DataOk s.finish :=
  dataOk_next (s := { s with log := (s.cmd, s.trace) :: s.log }) hq room stop

theorem dataOk_start {s : Host} (h : DataOk s) {first : Option MmcsdCmd}
    (hpc : s.pc = .lock first) : DataOk (s.start first) := by
  have hq := h.event.queue hpc nofun
  rcases start_cases s first with he | ⟨cmd, pc, rfl, he, hk⟩
  · rw [he]
    exact dataOk_next hq h.room h.stop
  · rw [he]
    have hroom := h.first cmd hpc
    rcases hk with ⟨rfl, -⟩ | rfl | ⟨data, hd, -, rfl⟩
    · refine ⟨hq, hroom, h.stop, fun c hc => (nomatch hc), fun d hd => ?_⟩
      cases hc : cmd.data <;> simp [Host.phase, phaseOf, Host.begin, hc] at hd
    · exact ⟨hq, hroom, h.stop, fun c hc => (nomatch hc), fun d hd => (nomatch hd)⟩
    · refine ⟨hq, hroom, h.stop, fun c hc => (nomatch hc), fun d hm => ?_⟩
      simp [Host.phase, phaseOf, Host.begin, hd] at hm

theorem dataOk_issue {s : Host} (h : DataOk s) (hpc : s.pc = .issue) : DataOk s.issue where
  event := h.event.queue hpc nofun
  room := h.room
  stop := h.stop
  first c hc := nomatch hc
  programmed d hm := by
    have hd : s.cmd.data = some d := by
      cases hd : s.cmd.data <;> simp [Host.phase, Host.issue, phaseOf, hd] at hm
      exact congrArg some hm
    unfold Host.issue
    simp only [hd]
    exact ⟨rfl, configData_dctrl s.hw d⟩

theorem dataOk_endWait {s : Host} (hq : s.event.suspendThread = [])
    (room : ∀ d, s.cmd.data = some d → d.size ≤ d.buf.length)
    (stop : ∀ c, s.stop = some c → c.data = none)
    (programmed : ∀ d, s.phase = .moving d →
      s.hw.dlen.toNat = d.size ∧ (s.hw.dctrl &&& dctrlDtdir ≠ 0 ↔ d.isRead = true))
    (hm : s.pc.Moving) (status : Option Word) : DataOk (s.endWait status) := by
  have hroom : ∀ d, (s.takeStatus status).cmd.data = some d → d.size ≤ d.buf.length :=
    fun d hd => room d ((waitCompleted_data _ _ _).symm.trans hd)
  have hp := phase_endWait stop status
  rw [← phaseOf_moving _ hm] at hp
  rcases endWait_cases s status with ⟨-, he⟩ | ⟨-, he⟩
  · rw [he]
    exact dataOk_finish hq hroom stop
  · rw [he] at hp ⊢
    refine ⟨hq, hroom, stop, fun c hc => (nomatch hc), fun d hd => ?_⟩
    exact programmed d (hp.symm.trans hd)

theorem dataOk_copyByte {s : Host} (h : DataOk s) {i : Nat} (hpc : s.pc = .copyOut i)
    (b : BitVec 8) : DataOk (s.copyByte i b) := by
  have hq := h.event.queue hpc nofun
  unfold Host.copyByte
  split
  · refine ⟨hq, fun d hd => ?_, h.stop, fun c hc => (nomatch hc), fun d hm => ?_⟩
    · obtain ⟨d', hd', rfl⟩ := Option.map_eq_some_iff.mp hd
      rw [List.length_set]
      exact h.room d' hd'
    · cases hd : s.cmd.data <;> simp [Host.phase, phaseOf, hd] at hm
  · refine ⟨hq, h.room, h.stop, fun c hc => (nomatch hc), fun d hm => ?_⟩
    cases hd : s.cmd.data <;> simp [Host.phase, phaseOf, hd] at hm

theorem dataOk_thread {s s' : Host} {b : BitVec 8} (h : DataOk s)
    (hs : threadStep s b = some s') : DataOk s' := by
  have hev := eventOk_thread h.event hs
  have hph := threadStep_phase h hs
  have hm : s.pc ≠ .issue → ∀ d, s'.phase = .moving d → s.phase = .moving d :=
    fun hne d hd => (hph.of_moving hd).resolve_right (effect_ne_start hne)
  cases threadStep_inv hs with
  | lock hpc => exact dataOk_start h hpc
  | copyIn hpc =>
    refine h.frame hev rfl rfl ?_ ⟨rfl, rfl⟩ (hm (by rw [hpc]; exact nofun))
    dsimp only
    split <;> exact nofun
  | reset hpc => exact h.frame hev rfl rfl nofun ⟨rfl, rfl⟩ (hm (by rw [hpc]; exact nofun))
  | openMask hpc =>
    refine h.frame hev rfl rfl ?_ ⟨rfl, rfl⟩ (hm (by rw [hpc]; exact nofun))
    dsimp only
    split <;> exact nofun
  | clean hpc => exact h.frame hev rfl rfl nofun ⟨rfl, rfl⟩ (hm (by rw [hpc]; exact nofun))
  | closeMask hpc => exact h.frame hev rfl rfl nofun ⟨rfl, rfl⟩ (hm (by rw [hpc]; exact nofun))
  | issue hpc => exact dataOk_issue h hpc
  | recv hpc =>
    have hm := hm (by rw [hpc]; exact nofun)
    rcases recvEvent_cases (h.event.queue hpc nofun) with ⟨-, he⟩ | ⟨-, he⟩
    · rw [he] at hev hm ⊢
      exact h.frame hev rfl rfl nofun ⟨rfl, rfl⟩ hm
    · rw [he] at hev hm ⊢
      exact h.frame hev rfl rfl nofun ⟨rfl, rfl⟩ hm
  | received hpc =>
    exact dataOk_endWait (h.event.queue hpc nofun) h.room h.stop h.programmed (hpc ▸ trivial) _
  | busy hpc =>
    have hm := hm (by rw [hpc]; exact nofun)
    unfold Host.pollBusy at *
    split at hev
    case isTrue hc =>
      rw [if_pos hc] at hm ⊢
      exact h.frame hev rfl rfl nofun ⟨rfl, rfl⟩ hm
    case isFalse hc =>
      rw [if_neg hc] at hm ⊢
      split at hev
      case isTrue hb =>
        rw [if_pos hb] at hm ⊢
        exact h.frame hev rfl rfl nofun ⟨rfl, rfl⟩ hm
      case isFalse hb =>
        rw [if_neg hb] at hm ⊢
        exact h.frame hev rfl rfl nofun ⟨rfl, rfl⟩ hm
  | @check count hpc =>
    have hm := hm (by rw [hpc]; exact nofun)
    rcases endData_cases (s.takeSta count) with ⟨-, he⟩ | ⟨-, he⟩
    · rw [he]
      exact dataOk_finish (h.event.queue hpc nofun) h.room h.stop
    · rw [he] at hev hm ⊢
      exact h.frame hev rfl rfl nofun ⟨rfl, rfl⟩ hm
  | copyOut hpc => exact dataOk_copyByte h hpc b
  | postClean hpc => exact dataOk_finish (h.event.queue hpc nofun) h.room h.stop
  | complete hpc =>
    exact ⟨hev, h.room, h.stop, fun c hc => (nomatch hc), fun d hd => (nomatch hd)⟩

theorem dataOk_step {s s' : Host} {a : Action} (h : DataOk s) (hs : step s a = some s') :
    DataOk s' := by
  have hev := eventOk_step h.event hs
  cases a with
  | request req =>
    obtain ⟨hpc, hs⟩ := Option.ite_none_right_eq_some.mp hs
    obtain rfl := Option.some.inj hs
    refine ⟨hev, h.room, req.stop_data, fun c hc => ?_, fun d hd => (nomatch hd)⟩
    exact req.room c (Pc.lock.inj hc)
  | thread b => exact dataOk_thread h hs
  | irq =>
    have hp := phase_env h (by exact fun _ => nofun) hs
    obtain ⟨hen, hs⟩ := Option.ite_none_right_eq_some.mp hs
    obtain rfl := Option.some.inj hs
    have hm : ∀ d, (irqProcess s).phase = .moving d → s.phase = .moving d :=
      fun d hd => hp.symm.trans hd
    rcases irqProcess_cases h.event (sta_ne_zero hen) with ⟨-, he⟩ | ⟨-, he⟩
    · rw [he] at hev hm ⊢
      exact h.frame hev rfl rfl nofun ⟨rfl, rfl⟩ hm
    · rw [he] at hev hm ⊢
      exact ⟨hev, h.room, h.stop, h.first, h.programmed⟩
  | timeout =>
    obtain ⟨hpc, hs⟩ := Option.ite_none_right_eq_some.mp hs
    obtain rfl := Option.some.inj hs
    refine dataOk_endWait (s := { s with event := rtEventTimeout s.event () }) ?_ h.room h.stop
      h.programmed (show s.pc.Moving from hpc ▸ trivial) none
    rw [h.event.wait hpc]
    rfl
  | raise f =>
    obtain rfl := Option.some.inj hs
    exact ⟨hev, h.room, h.stop, h.first, h.programmed⟩
  | level v =>
    obtain rfl := Option.some.inj hs
    exact ⟨hev, h.room, h.stop, h.first, h.programmed⟩
  | respond r =>
    obtain ⟨-, hs⟩ := Option.ite_none_right_eq_some.mp hs
    obtain rfl := Option.some.inj hs
    exact ⟨hev, h.room, h.stop, h.first, h.programmed⟩

theorem dataOk_init (hw : Hw) : DataOk (init hw) :=
  ⟨rfl, fun _ h => (nomatch h), fun _ h => (nomatch h), fun _ h => (nomatch h),
    fun _ h => (nomatch h)⟩

end Live2dStm32.Sdio
