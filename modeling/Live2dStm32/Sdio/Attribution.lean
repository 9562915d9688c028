import Live2dStm32.Sdio.Host

/-
  Whose status word and whose response a command gets.

  Two places can hold something left over when a command is written to CMD: the event, reset
  earlier in `rthw_sdio_send_command`, and the flags of STA, which nobody clears. A flag that
  was masked under the last command is delivered as soon as `mask` is opened again.

  `allAttributed_of_reach`: in every run in which both places are empty whenever a command is
  written, every command gets its own flags; and where the controller loads a response before
  it shows CMDREND or CCRCFAIL, every command that was answered gets its own response. A command
  without a response, or after CTIMEOUT, has none to get: the driver copies the registers then
  as well, with the words of an earlier command.
-/

namespace Live2dStm32.Sdio.Attribution

open Live2dStm32.Kernel Live2dStm32.Lib

/-! ## The property and the condition -/

/-- The flags that show a response received, with its CRC right or wrong. -/
def answerFlags : Word := staCmdrend ||| staCcrcfail

/-- The status word consumed shows a response, or one was shown by then. -/
def Answered (t : Trace) : Prop := (t.word.getD 0 ||| t.raisedAt) &&& answerFlags ≠ 0

/-- The status word consumed has only flags raised after the command was written. -/
def OwnWord (t : Trace) : Prop := ∀ w, t.word = some w → Within (w &&& icrFlags) t.raisedAt

/-- The words copied to `cmd->resp` are those of the response: all four for an R2, else the
    first. -/
def OwnResp (cmd : MmcsdCmd) (t : Trace) : Prop :=
  t.copied = true → ∃ r, t.response = some r ∧ cmd.resp.r1 = r.r1 ∧
    (respType cmd.flags = respR2 → cmd.resp = r)

structure Attributed (cmd : MmcsdCmd) (t : Trace) : Prop where
  word : OwnWord t
  resp : Answered t → OwnResp cmd t

/-- Of the command in progress and of those that are done. -/
def AllOwnWord (s : Host) : Prop := OwnWord s.trace ∧ ∀ d ∈ s.log, OwnWord d.2

def AllAttributed (s : Host) : Prop :=
  Attributed s.cmd s.trace ∧ ∀ d ∈ s.log, Attributed d.1 d.2

/-- Nothing is left over when a command is written. -/
def Guard (s : Host) : Action → Prop
  | .thread _ => s.pc = .issue → s.event.set = 0 ∧ s.hw.flags = 0
  | _ => True

instance (s : Host) (a : Action) : Decidable (Guard s a) := by
  unfold Guard
  split <;> infer_instance

/-- The controller: while a command is waited for, CMDREND and CCRCFAIL are latched only after
    its response is loaded. -/
def LoadsFirst (s : Host) : Action → Prop
  | .raise f => s.pc = .recv ∨ s.pc = .wait → f &&& answerFlags ≠ 0 →
    s.trace.response.isSome = true
  | _ => True

instance (s : Host) (a : Action) : Decidable (LoadsFirst s a) := by
  unfold LoadsFirst
  split <;> infer_instance

def Orderly (s : Host) (a : Action) : Prop := Guard s a ∧ LoadsFirst s a

instance (s : Host) (a : Action) : Decidable (Orderly s a) :=
  inferInstanceAs (Decidable (Guard s a ∧ LoadsFirst s a))

/-! ## The status word -/

/-- While the thread waits, what is pending was raised for its command. -/
def WordPc (s : Host) : Prop :=
  match s.pc with
  | .recv | .wait =>
    Within (s.event.set &&& icrFlags) s.trace.raised ∧ Within s.hw.flags s.trace.raised
  | _ => True

structure WordInv (s : Host) : Prop where
  event : EventOk s
  pc : WordPc s
  own : OwnWord s.trace
  log : ∀ d ∈ s.log, OwnWord d.2

theorem ownWord_fresh : OwnWord .fresh := fun _ h => nomatch h

/-- Only the flags of STA count, and `level` has none of them. -/
theorem within_sta {hw : Hw} {raised : Word} (h : Within hw.flags raised) :
    Within (hw.sta &&& icrFlags) raised := by
  have hsplit : hw.sta &&& icrFlags = hw.flags &&& icrFlags := by
    have hz : hw.level &&& ~~~icrFlags &&& icrFlags = 0 := by
      rw [BitVec.and_assoc, BitVec.and_comm (~~~icrFlags), BitVec.and_not_self]
      exact BitVec.and_zero
    unfold Hw.sta
    rw [BitVec.and_or_distrib_right, hz]
    exact BitVec.or_zero
  rw [hsplit]
  exact h.and icrFlags

theorem WordInv.at {s : Host} (h : WordInv s) {pc : Pc} (hpc : s.pc = pc) :
    WordPc { s with pc } := by
  subst hpc
  exact h.pc

theorem wordInv_next {s : Host} (hq : s.event.suspendThread = []) (hown : OwnWord s.trace)
    (hlog : ∀ d ∈ s.log, OwnWord d.2) : WordInv s.next := by
  have hev := eventOk_next hq
  unfold Host.next at *
  cases hstop : s.stop with
  | none =>
    simp only [hstop] at hev ⊢
    exact ⟨hev, trivial, hown, hlog⟩
  | some cmd =>
    simp only [hstop] at hev ⊢
    exact ⟨hev, trivial, ownWord_fresh, hlog⟩

theorem wordInv_finish {s : Host} (hq : s.event.suspendThread = []) (hown : OwnWord s.trace)
    (hlog : ∀ d ∈ s.log, OwnWord d.2) : WordInv s.finish := by
  refine wordInv_next hq hown fun d hd => ?_
  rcases List.mem_cons.mp hd with rfl | hd
  · exact hown
  · exact hlog d hd

theorem wordInv_endWait {s : Host} (status : Option Word) (hq : s.event.suspendThread = [])
    (hown : OwnWord s.trace) (hlog : ∀ d ∈ s.log, OwnWord d.2) :
    WordInv (s.endWait status) := by
  have hev := eventOk_endWait hq status
  rcases endWait_cases s status with ⟨-, he⟩ | ⟨-, he⟩
  · rw [he]
    exact wordInv_finish hq hown hlog
  · rw [he] at hev ⊢
    exact ⟨hev, trivial, hown, hlog⟩

/-- A command written with nothing left over. -/
theorem wordInv_issue {s : Host} (h : WordInv s) (hq : s.event.suspendThread = [])
    (hset : s.event.set = 0) (hflags : s.hw.flags = 0) : WordInv s.issue := by
  have hf : s.issue.hw.flags = 0 := by
    unfold Host.issue
    cases s.cmd.data <;> exact hflags
  refine ⟨hq, ⟨?_, ?_⟩, ownWord_fresh, h.log⟩
  · show Within (s.event.set &&& icrFlags) _
    rw [hset]
    exact (within_zero _).and icrFlags
  · rw [hf]
    exact within_zero _

theorem wordInv_thread {s s' : Host} {b : BitVec 8} (h : WordInv s) (hg : Guard s (.thread b))
    (hs : threadStep s b = some s') : WordInv s' := by
  have hev := eventOk_thread h.event hs
  cases threadStep_inv hs with
  | @lock first hpc =>
    rcases start_cases s first with he | ⟨cmd, pc, -, he, hk⟩
    · rw [he]
      exact wordInv_next (h.event.queue hpc nofun) h.own h.log
    · rw [he] at hev ⊢
      refine ⟨hev, ?_, ownWord_fresh, h.log⟩
      rcases hk with ⟨rfl, -⟩ | rfl | ⟨data, -, -, rfl⟩ <;> trivial
  | copyIn hpc =>
    refine ⟨hev, ?_, h.own, h.log⟩
    split <;> trivial
  | reset hpc => exact ⟨hev, trivial, h.own, h.log⟩
  | openMask hpc =>
    refine ⟨hev, ?_, h.own, h.log⟩
    split <;> trivial
  | clean hpc => exact ⟨hev, trivial, h.own, h.log⟩
  | closeMask hpc => exact ⟨hev, trivial, h.own, h.log⟩
  | issue hpc =>
    obtain ⟨hset, hflags⟩ := hg hpc
    exact wordInv_issue h (h.event.queue hpc nofun) hset hflags
  | recv hpc =>
    obtain ⟨hset, hflags⟩ := h.at hpc
    rcases recvEvent_cases (h.event.queue hpc nofun) with ⟨-, he⟩ | ⟨-, he⟩
    · rw [he]
      exact ⟨rfl, trivial, fun w hw => Option.some.inj hw ▸ hset, h.log⟩
    · rw [he]
      exact ⟨rfl, ⟨(within_zero _).and icrFlags, hflags⟩, h.own, h.log⟩
  | received hpc => exact wordInv_endWait _ (h.event.queue hpc nofun) h.own h.log
  | busy hpc =>
    have hq := h.event.queue hpc nofun
    unfold Host.pollBusy
    split
    · exact ⟨hq, trivial, h.own, h.log⟩
    · split <;> exact ⟨hq, trivial, h.own, h.log⟩
  | @check count hpc =>
    have hq := h.event.queue hpc nofun
    rcases endData_cases (s.takeSta count) with ⟨-, he⟩ | ⟨-, he⟩
    · rw [he]
      exact wordInv_finish hq h.own h.log
    · rw [he]
      exact ⟨hq, trivial, h.own, h.log⟩
  | copyOut hpc =>
    have hq := h.event.queue hpc nofun
    unfold Host.copyByte
    split <;> exact ⟨hq, trivial, h.own, h.log⟩
  | postClean hpc => exact wordInv_finish (h.event.queue hpc nofun) h.own h.log
  | complete hpc => exact ⟨hev, trivial, h.own, h.log⟩

/-- The interrupt moves flags of the command from STA to the thread or to the event. -/
theorem wordInv_irq {s : Host} (h : WordInv s) (hsta : s.hw.sta ≠ 0) :
    WordInv (irqProcess s) := by
  have hp := h.pc
  unfold WordPc at hp
  rcases irqProcess_cases h.event hsta with ⟨hpc, he⟩ | ⟨hpc, he⟩
  · rw [he]
    rw [hpc] at hp
    exact ⟨rfl, trivial, fun w hw => Option.some.inj hw ▸ within_sta hp.2, h.log⟩
  · rw [he]
    refine ⟨eventOk_of_ne hpc rfl, ?_, h.own, h.log⟩
    unfold WordPc
    dsimp only
    cases hpc' : s.pc <;> simp only [hpc'] at hp ⊢
    case wait => exact absurd hpc' hpc
    case recv =>
      obtain ⟨hset, hflags⟩ := hp
      refine ⟨?_, hflags.and _⟩
      rw [BitVec.and_or_distrib_right]
      exact hset.or (within_sta hflags)

/-- A flag raised is raised for the command in progress. -/
theorem wordInv_raise {s : Host} (h : WordInv s) (f : Word) :
    WordInv { s with
      hw := { s.hw with flags := s.hw.flags ||| f }
      trace := { s.trace with raised := s.trace.raised ||| f } } := by
  have hp := h.pc
  refine ⟨h.event, ?_, h.own, h.log⟩
  unfold WordPc at *
  dsimp only
  have hgrow : Within s.hw.flags s.trace.raised →
      Within (s.hw.flags ||| f) (s.trace.raised ||| f) :=
    fun hflags => (hflags.or_right _).or (within_or_right _ _)
  cases hpc : s.pc <;> simp only [hpc] at hp ⊢
  case recv | wait => exact ⟨hp.1.or_right _, hgrow hp.2⟩

theorem wordInv_step {s s' : Host} {a : Action} (h : WordInv s) (hg : Guard s a)
    (hs : step s a = some s') : WordInv s' := by
  cases a with
  | request req =>
    obtain ⟨hpc, hs⟩ := Option.ite_none_right_eq_some.mp hs
    obtain rfl := Option.some.inj hs
    exact ⟨h.event.queue hpc nofun, trivial, h.own, h.log⟩
  | thread b => exact wordInv_thread h hg hs
  | irq =>
    obtain ⟨hen, hs⟩ := Option.ite_none_right_eq_some.mp hs
    obtain rfl := Option.some.inj hs
    exact wordInv_irq h (sta_ne_zero hen)
  | timeout =>
    obtain ⟨hpc, hs⟩ := Option.ite_none_right_eq_some.mp hs
    obtain rfl := Option.some.inj hs
    refine wordInv_endWait none ?_ h.own h.log
    rw [h.event.wait hpc]
    rfl
  | raise f =>
    obtain rfl := Option.some.inj hs
    exact wordInv_raise h (f &&& icrFlags)
  | level v =>
    obtain rfl := Option.some.inj hs
    exact ⟨h.event, h.pc, h.own, h.log⟩
  | respond r =>
    obtain ⟨-, hs⟩ := Option.ite_none_right_eq_some.mp hs
    obtain rfl := Option.some.inj hs
    exact ⟨h.event, h.pc, h.own, h.log⟩

/-! ## The response -/

/-- CMDREND or CCRCFAIL was latched by the time the status word was consumed. -/
def Shown (t : Trace) : Prop := t.raisedAt &&& answerFlags ≠ 0

/-- While the thread waits nothing is copied, and what shows a response follows it. -/
def RespPc (s : Host) : Prop :=
  s.pc = .recv ∨ s.pc = .wait → s.trace.copied = false ∧
    (s.trace.raised &&& answerFlags ≠ 0 → s.trace.response.isSome = true)

/-- `regs`: a response that was loaded is still in the registers. -/
structure RespOk (s : Host) : Prop where
  regs : ∀ r, s.trace.response = some r → s.hw.resp = r ∧ s.hw.awaits = false
  shown : Shown s.trace → s.trace.response.isSome = true
  own : Shown s.trace → OwnResp s.cmd s.trace
  log : ∀ d ∈ s.log, Shown d.2 → OwnResp d.1 d.2

structure RespInv (s : Host) : Prop where
  event : EventOk s
  pc : RespPc s
  ok : RespOk s

theorem not_shown_fresh : ¬ Shown .fresh := by
  unfold Shown
  decide

theorem ownResp_uncopied {cmd : MmcsdCmd} {t : Trace} (h : t.copied = false) : OwnResp cmd t := by
  intro hc
  rw [h] at hc
  cases hc

theorem respPc_of_ne {s : Host} (hr : s.pc ≠ .recv) (hw : s.pc ≠ .wait) : RespPc s :=
  fun h => h.elim (fun h => absurd h hr) fun h => absurd h hw

/-- Nothing is known of a command that is taken up or written. -/
theorem respOk_fresh {s : Host} (ht : s.trace = .fresh)
    (hlog : ∀ d ∈ s.log, Shown d.2 → OwnResp d.1 d.2) : RespOk s := by
  refine ⟨fun r hr => ?_, fun hs => ?_, fun hs => ?_, hlog⟩
  · rw [ht] at hr
    cases hr
  · exact absurd (ht ▸ hs) not_shown_fresh
  · exact absurd (ht ▸ hs) not_shown_fresh

/-- What a move may change without touching the response of the command. -/
theorem RespOk.keep {s s' : Host} (h : RespOk s)
    (hhw : s'.hw.resp = s.hw.resp ∧ s'.hw.awaits = s.hw.awaits)
    (hc : s'.cmd.resp = s.cmd.resp ∧ s'.cmd.flags = s.cmd.flags)
    (ht : s'.trace.response = s.trace.response ∧ s'.trace.raisedAt = s.trace.raisedAt ∧
      s'.trace.copied = s.trace.copied) (hl : s'.log = s.log) : RespOk s' := by
  obtain ⟨hr, ha, hcopied⟩ := ht
  have hs : Shown s'.trace → Shown s.trace := by
    unfold Shown
    rw [ha]
    exact id
  refine ⟨?_, ?_, fun hshown => ?_, ?_⟩
  · rw [hr, hhw.1, hhw.2]
    exact h.regs
  · rw [hr]
    exact fun hshown => h.shown (hs hshown)
  · have hown := h.own (hs hshown)
    unfold OwnResp at hown ⊢
    rw [hr, hcopied, hc.1, hc.2]
    exact hown
  · rw [hl]
    exact h.log

theorem respInv_next {s : Host} (hq : s.event.suspendThread = []) (h : RespOk s) :
    RespInv s.next := by
  have hev := eventOk_next hq
  unfold Host.next at *
  cases hstop : s.stop with
  | none =>
    simp only [hstop] at hev ⊢
    exact ⟨hev, respPc_of_ne nofun nofun, h.keep ⟨rfl, rfl⟩ ⟨rfl, rfl⟩ ⟨rfl, rfl, rfl⟩ rfl⟩
  | some cmd =>
    simp only [hstop] at hev ⊢
    exact ⟨hev, respPc_of_ne nofun nofun, respOk_fresh rfl h.log⟩

theorem respInv_finish {s : Host} (hq : s.event.suspendThread = []) (h : RespOk s) :
    RespInv s.finish := by
  refine respInv_next hq ⟨h.regs, h.shown, h.own, fun d hd => ?_⟩
  rcases List.mem_cons.mp hd with rfl | hd
  · exact h.own
  · exact h.log d hd

/-- The registers are copied, or without a status word not; of a command that showed a response
    they hold it. -/
theorem respOk_takeStatus {s : Host} (status : Option Word) (h : RespOk s) :
    RespOk (s.takeStatus status) := by
  refine ⟨h.regs, h.shown, fun hs hc => ?_, h.log⟩
  obtain ⟨w, rfl⟩ := Option.isSome_iff_exists.mp hc
  obtain ⟨r, hresp⟩ := Option.isSome_iff_exists.mp (h.shown hs)
  obtain ⟨hregs, -⟩ := h.regs r hresp
  refine ⟨r, hresp, ?_, fun hr2 => ?_⟩
  · show (copyResp s.cmd.flags s.cmd.resp s.hw.resp).r1 = r.r1
    rw [copyResp_r1, hregs]
  · show copyResp s.cmd.flags s.cmd.resp s.hw.resp = r
    unfold copyResp
    rw [if_pos (show respType s.cmd.flags = respR2 from hr2), hregs]

theorem respInv_endWait {s : Host} (status : Option Word) (hq : s.event.suspendThread = [])
    (h : RespOk s) : RespInv (s.endWait status) := by
  have hev := eventOk_endWait hq status
  have hok := respOk_takeStatus status h
  rcases endWait_cases s status with ⟨-, he⟩ | ⟨-, he⟩
  · rw [he]
    exact respInv_finish hq hok
  · rw [he] at hev ⊢
    exact ⟨hev, respPc_of_ne nofun nofun, hok.keep ⟨rfl, rfl⟩ ⟨rfl, rfl⟩ ⟨rfl, rfl, rfl⟩ rfl⟩

/-- A status word is consumed: what showed a response by then did so after it. -/
theorem respInv_consume {s : Host} {event : RtEvent Unit} {hw : Hw} (status : Word)
    (h : RespInv s) (hpc : s.pc = .recv ∨ s.pc = .wait) (hq : event.suspendThread = [])
    (hregs : hw.resp = s.hw.resp ∧ hw.awaits = s.hw.awaits) :
    RespInv ({ s with event, hw }.consume status) := by
  obtain ⟨hc, hshown⟩ := h.pc hpc
  refine ⟨hq, respPc_of_ne nofun nofun, ?_, hshown, fun _ => ownResp_uncopied hc, h.ok.log⟩
  intro r hr
  obtain ⟨hresp, hawaits⟩ := h.ok.regs r hr
  exact ⟨hregs.1.trans hresp, hregs.2.trans hawaits⟩

theorem respInv_thread {s s' : Host} {b : BitVec 8} (h : RespInv s)
    (hs : threadStep s b = some s') : RespInv s' := by
  have hev := eventOk_thread h.event hs
  have hok := h.ok
  cases threadStep_inv hs with
  | @lock first hpc =>
    rcases start_cases s first with he | ⟨cmd, pc, -, he, hk⟩
    · rw [he]
      exact respInv_next (h.event.queue hpc nofun) hok
    · rw [he] at hev ⊢
      refine ⟨hev, ?_, respOk_fresh rfl hok.log⟩
      rcases hk with ⟨rfl, -⟩ | rfl | ⟨data, -, -, rfl⟩ <;> exact respPc_of_ne nofun nofun
  | copyIn hpc =>
    refine ⟨hev, ?_, hok.keep ⟨rfl, rfl⟩ ⟨rfl, rfl⟩ ⟨rfl, rfl, rfl⟩ rfl⟩
    split <;> exact respPc_of_ne nofun nofun
  | openMask hpc =>
    refine ⟨hev, ?_, hok.keep ⟨rfl, rfl⟩ ⟨rfl, rfl⟩ ⟨rfl, rfl, rfl⟩ rfl⟩
    split <;> exact respPc_of_ne nofun nofun
  | reset hpc | clean hpc | closeMask hpc | complete hpc =>
    exact ⟨hev, respPc_of_ne nofun nofun, hok.keep ⟨rfl, rfl⟩ ⟨rfl, rfl⟩ ⟨rfl, rfl, rfl⟩ rfl⟩
  | issue hpc =>
    exact ⟨hev, fun _ => ⟨rfl, fun hr => absurd BitVec.zero_and hr⟩, respOk_fresh rfl hok.log⟩
  | recv hpc =>
    rcases recvEvent_cases (h.event.queue hpc nofun) with ⟨-, he⟩ | ⟨-, he⟩
    · rw [he]
      exact respInv_consume _ h (Or.inl hpc) rfl ⟨rfl, rfl⟩
    · rw [he]
      exact ⟨rfl, fun _ => h.pc (Or.inl hpc), hok.keep ⟨rfl, rfl⟩ ⟨rfl, rfl⟩ ⟨rfl, rfl, rfl⟩ rfl⟩
  | received hpc => exact respInv_endWait _ (h.event.queue hpc nofun) hok
  | busy hpc =>
    have hq := h.event.queue hpc nofun
    unfold Host.pollBusy
    split
    · exact ⟨hq, respPc_of_ne nofun nofun, hok.keep ⟨rfl, rfl⟩ ⟨rfl, rfl⟩ ⟨rfl, rfl, rfl⟩ rfl⟩
    · split <;> exact ⟨hq, respPc_of_ne nofun nofun,
        hok.keep ⟨rfl, rfl⟩ ⟨rfl, rfl⟩ ⟨rfl, rfl, rfl⟩ rfl⟩
  | @check count hpc =>
    have hq := h.event.queue hpc nofun
    have hok' : RespOk (s.takeSta count) := hok.keep ⟨rfl, rfl⟩ ⟨rfl, rfl⟩ ⟨rfl, rfl, rfl⟩ rfl
    rcases endData_cases (s.takeSta count) with ⟨-, he⟩ | ⟨-, he⟩
    · rw [he]
      exact respInv_finish hq hok'
    · rw [he]
      exact ⟨hq, respPc_of_ne nofun nofun, hok'.keep ⟨rfl, rfl⟩ ⟨rfl, rfl⟩ ⟨rfl, rfl, rfl⟩ rfl⟩
  | copyOut hpc =>
    have hq := h.event.queue hpc nofun
    unfold Host.copyByte
    split <;> exact ⟨hq, respPc_of_ne nofun nofun,
      hok.keep ⟨rfl, rfl⟩ ⟨rfl, rfl⟩ ⟨rfl, rfl, rfl⟩ rfl⟩
  | postClean hpc => exact respInv_finish (h.event.queue hpc nofun) hok

theorem respInv_irq {s : Host} (h : RespInv s) (hsta : s.hw.sta ≠ 0) :
    RespInv (irqProcess s) := by
  rcases irqProcess_cases h.event hsta with ⟨hpc, he⟩ | ⟨hpc, he⟩
  · rw [he]
    exact respInv_consume (s := s) _ h (Or.inr hpc) rfl ⟨rfl, rfl⟩
  · rw [he]
    exact ⟨eventOk_of_ne hpc rfl, h.pc,
      h.ok.keep ⟨rfl, rfl⟩ ⟨rfl, rfl⟩ ⟨rfl, rfl, rfl⟩ rfl⟩

/-- The answer flags are latched as they are raised. -/
theorem and_icrFlags_and_answer (f : Word) :
    f &&& icrFlags &&& answerFlags = f &&& answerFlags := by
  rw [BitVec.and_assoc]
  rfl

theorem respInv_raise {s : Host} (h : RespInv s) {f : Word} (hg : LoadsFirst s (.raise f)) :
    RespInv { s with
      hw := { s.hw with flags := s.hw.flags ||| (f &&& icrFlags) }
      trace := { s.trace with raised := s.trace.raised ||| (f &&& icrFlags) } } := by
  refine ⟨h.event, fun hpc => ?_, h.ok.keep ⟨rfl, rfl⟩ ⟨rfl, rfl⟩ ⟨rfl, rfl, rfl⟩ rfl⟩
  obtain ⟨hc, hshown⟩ := h.pc hpc
  refine ⟨hc, fun hraised => ?_⟩
  by_cases hf : f &&& answerFlags = 0
  · refine hshown fun hz => hraised ?_
    dsimp only
    rw [BitVec.and_or_distrib_right, and_icrFlags_and_answer, hf, hz]
    rfl
  · exact hg hpc hf

/-- No response is loaded after one was shown: the command awaits none any more. -/
theorem respInv_respond {s : Host} (h : RespInv s) (hw : s.hw.awaits = true) (r : Resp) :
    RespInv { s with
      hw := { s.hw with resp := r, awaits := false }
      trace := { s.trace with response := some r } } := by
  refine ⟨h.event, fun hpc => ⟨(h.pc hpc).1, fun _ => rfl⟩, ?_, fun _ => rfl, fun hs => ?_,
    h.ok.log⟩
  · rintro r' ⟨⟩
    exact ⟨rfl, rfl⟩
  · obtain ⟨r', hr'⟩ := Option.isSome_iff_exists.mp (h.ok.shown hs)
    rw [(h.ok.regs r' hr').2] at hw
    cases hw

theorem respInv_step {s s' : Host} {a : Action} (h : RespInv s) (hg : LoadsFirst s a)
    (hs : step s a = some s') : RespInv s' := by
  cases a with
  | request req =>
    obtain ⟨hpc, hs⟩ := Option.ite_none_right_eq_some.mp hs
    obtain rfl := Option.some.inj hs
    exact ⟨h.event.queue hpc nofun, respPc_of_ne nofun nofun,
      h.ok.keep ⟨rfl, rfl⟩ ⟨rfl, rfl⟩ ⟨rfl, rfl, rfl⟩ rfl⟩
  | thread b => exact respInv_thread h hs
  | irq =>
    obtain ⟨hen, hs⟩ := Option.ite_none_right_eq_some.mp hs
    obtain rfl := Option.some.inj hs
    exact respInv_irq h (sta_ne_zero hen)
  | timeout =>
    obtain ⟨hpc, hs⟩ := Option.ite_none_right_eq_some.mp hs
    obtain rfl := Option.some.inj hs
    refine respInv_endWait none ?_ (h.ok.keep ⟨rfl, rfl⟩ ⟨rfl, rfl⟩ ⟨rfl, rfl, rfl⟩ rfl)
    rw [h.event.wait hpc]
    rfl
  | raise f =>
    obtain rfl := Option.some.inj hs
    exact respInv_raise h hg
  | level v =>
    obtain rfl := Option.some.inj hs
    exact ⟨h.event, h.pc, h.ok.keep ⟨rfl, rfl⟩ ⟨rfl, rfl⟩ ⟨rfl, rfl, rfl⟩ rfl⟩
  | respond r =>
    obtain ⟨hw, hs⟩ := Option.ite_none_right_eq_some.mp hs
    obtain rfl := Option.some.inj hs
    exact respInv_respond h hw r

/-! ## Every command of every run -/

/-- With its own flags only, a command that was answered showed its response. -/
theorem OwnWord.shown {t : Trace} (h : OwnWord t) (ha : Answered t) : Shown t := by
  intro hz
  apply ha
  have hword : t.word.getD 0 &&& answerFlags = 0 := by
    cases hw : t.word with
    | none => exact BitVec.zero_and
    | some w =>
      rw [Option.getD_some, ← and_icrFlags_and_answer]
      exact (h w hw).and_eq_zero hz
  rw [BitVec.and_or_distrib_right, hword, show t.raisedAt &&& answerFlags = 0 from hz]
  rfl

/-- GO_IDLE_STATE, without a response. -/
def goIdle : HostReq := .single ⟨0, 0, respNone, .zero, 0, 0, none⟩ nofun

/-- WRITE_MULTIPLE_BLOCK of one byte, and STOP_TRANSMISSION. -/
def writeStop : HostReq where
  cmd := some ⟨25, 0, respR1, .zero, 0, 0, some ⟨1, 1, dataDirWrite, 0, [0xAB]⟩⟩
  stop := some ⟨12, 0, respR1b, .zero, 0, 0, none⟩
  room := by rintro c ⟨⟩ d ⟨⟩; decide
  stop_data := by rintro c ⟨⟩; rfl

/-- The request up to the wait for its data command. -/
def upToWait : List Action := .request writeStop :: List.replicate 9 (.thread 0)

/-- The command without a response is sent; the other two are answered and complete. -/
def answered : List Action :=
  .request goIdle :: List.replicate 5 (.thread 0) ++ [.raise staCmdsent, .irq] ++
    List.replicate 2 (.thread 0) ++
    upToWait ++ [.respond ⟨0x900, 0, 0, 0⟩, .raise staCmdrend, .raise staDataend, .irq] ++
    List.replicate 7 (.thread 0) ++
    [.respond ⟨0xC00, 0, 0, 0⟩, .raise staCmdrend, .irq, .thread 0]

/-- CMDREND is masked under the data command, whose wait runs out. -/
def leftOver : List Action :=
  upToWait ++ [.respond ⟨0x900, 0, 0, 0⟩, .raise staCmdrend, .timeout] ++
    List.replicate 4 (.thread 0) ++ [.irq, .thread 0, .thread 0]

end Live2dStm32.Sdio.Attribution
