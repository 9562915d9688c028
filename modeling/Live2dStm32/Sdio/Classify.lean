import Live2dStm32.Sdio.Observed

/-
  What `cmd->err` says of a command when `rthw_sdio_send_command` returns.

  It should be RT_EOK exactly for the commands that `Succeeded`. The driver looks at two words
  only, the status word of the first event and, after a data phase, STA: `Settled` is what it
  makes of them, at the end of every command of every run.

  `classified_of_reach`: in every run whose steps meet `Guard` that is right. A step breaks the
  guard when it starts a command over a left-over error flag, ends a wait with a CCRCFAIL that
  the bit test on the response type takes for an excuse, ends a command without data while an
  error flag has yet to be delivered, acknowledges an error flag of the data phase before STA is
  read, or reads in STA the CCRCFAIL of a response without a CRC.
-/

namespace Live2dStm32.Sdio.Classify

open Live2dStm32.Kernel Live2dStm32.Lib Live2dStm32.Sdio.Observed

/-! ## The property and the condition -/

/-- The flags of SDIO_ERRORS latched for a command up to its completion: to its last read of
    STA with a data phase, else to the status word it consumed. -/
def errorsRaised (cmd : MmcsdCmd) (t : Trace) : Word :=
  (if cmd.data.isSome then t.raisedEnd else t.raisedAt) &&& sdioErrors

/-- An R3 or R4 carries no CRC, so CCRCFAIL alone is no fault there. -/
def Faulty (cmd : MmcsdCmd) (t : Trace) : Prop :=
  errorsRaised cmd t ≠ 0 ∧
    ¬ (errorsRaised cmd t = staCcrcfail ∧
      (respType cmd.flags = respR3 ∨ respType cmd.flags = respR4))

def Succeeded (cmd : MmcsdCmd) (t : Trace) : Prop :=
  t.timedOut = false ∧ (cmd.data.isSome = true → t.idle = true) ∧ ¬ Faulty cmd t

def Classified (cmd : MmcsdCmd) (t : Trace) : Prop := cmd.err = rtEok ↔ Succeeded cmd t

/-- R3 and R4 carry no CRC. -/
def NoCrc (flags : Word) : Prop := respType flags = respR3 ∨ respType flags = respR4

instance (flags : Word) : Decidable (NoCrc flags) :=
  inferInstanceAs (Decidable (respType flags = respR3 ∨ respType flags = respR4))

/-- A CCRCFAIL among the flags `w` comes alone and for a response without a CRC, or the bit test
    on the response type does not excuse it. -/
def CrcOk (flags w : Word) : Prop :=
  w &&& staCcrcfail ≠ 0 → (NoCrc flags ∧ w &&& sdioErrors = staCcrcfail) ∨
    respType flags &&& (respR3 ||| respR4) = 0

instance (flags w : Word) : Decidable (CrcOk flags w) :=
  inferInstanceAs (Decidable (w &&& staCcrcfail ≠ 0 →
    (NoCrc flags ∧ w &&& sdioErrors = staCcrcfail) ∨
      respType flags &&& (respR3 ||| respR4) = 0))

/-- A command is written with no error flag pending. Where the thread consumes a status word, the
    flags raised for the command are `CrcOk`, and without a data phase none of its error flags is
    still in STA. When STA is read after a data phase, a CCRCFAIL that is no fault is not in it. -/
def ThreadGuard (s : Host) : Pc → Prop
  | .issue => (s.event.set ||| s.hw.flags) &&& sdioErrors = 0
  | .recv => s.event.set ≠ 0 →
    CrcOk s.cmd.flags s.trace.raised ∧ (s.cmd.data = none → s.hw.flags &&& sdioErrors = 0)
  | .check _ => ¬ (NoCrc s.cmd.flags ∧ s.trace.raised &&& sdioErrors = staCcrcfail ∧
    s.hw.flags &&& staCcrcfail ≠ 0)
  | _ => True

instance (s : Host) : (pc : Pc) → Decidable (ThreadGuard s pc)
  | .issue => inferInstanceAs (Decidable (_ = _))
  | .recv => inferInstanceAs (Decidable (_ → _))
  | .check _ => inferInstanceAs (Decidable (¬ _))
  | .idle | .lock _ | .halted | .copyIn _ | .reset | .openMask | .clean | .closeMask | .wait
  | .received _ | .busy _ | .copyOut _ | .postClean | .complete => inferInstanceAs (Decidable True)

/-- Where the interrupt ends the wait, the flags raised for the command are `CrcOk`. Until STA is
    read after a data phase, it acknowledges no error flag. -/
def IrqGuard (s : Host) : Pc → Prop
  | .wait => CrcOk s.cmd.flags s.trace.raised
  | .received _ | .busy _ | .check _ => s.cmd.data.isSome = true → s.hw.flags &&& sdioErrors = 0
  | _ => True

instance (s : Host) : (pc : Pc) → Decidable (IrqGuard s pc)
  | .wait => inferInstanceAs (Decidable (CrcOk _ _))
  | .received _ | .busy _ | .check _ => inferInstanceAs (Decidable (_ → _))
  | .idle | .lock _ | .halted | .copyIn _ | .reset | .openMask | .clean | .closeMask | .issue
  | .recv | .copyOut _ | .postClean | .complete => inferInstanceAs (Decidable True)

def Guard (s : Host) : Action → Prop
  | .thread _ => ThreadGuard s s.pc
  | .irq => IrqGuard s s.pc
  | _ => True

instance (s : Host) : (a : Action) → Decidable (Guard s a)
  | .thread _ => inferInstanceAs (Decidable (ThreadGuard s s.pc))
  | .irq => inferInstanceAs (Decidable (IrqGuard s s.pc))
  | .request _ | .timeout | .raise _ | .level _ | .respond _ => inferInstanceAs (Decidable True)

/-! ## What the driver computes -/

/-- The status word consumed shows no error. -/
def WordClean (t : Trace) : Prop := t.word.getD 0 &&& sdioErrors = 0

/-- The status word shows CCRCFAIL, and the response type has a bit in common with R3 or R4. -/
def Excused (cmd : MmcsdCmd) (t : Trace) : Prop :=
  t.word.getD 0 &&& staCcrcfail ≠ 0 ∧ respType cmd.flags &&& (respR3 ||| respR4) ≠ 0

/-- STA shows no error after the data phase. -/
def LastClean (cmd : MmcsdCmd) (t : Trace) : Prop :=
  cmd.data.isSome = true → t.last &&& sdioErrors = 0

/-- `cmd->err` at the end. -/
def Settled (cmd : MmcsdCmd) (t : Trace) : Prop :=
  cmd.err = rtEok ↔ t.timedOut = false ∧ (WordClean t ∨ Excused cmd t) ∧
    (cmd.data.isSome = true → t.idle = true) ∧ LastClean cmd t

theorem classify_eq_ok_iff (flags status : Word) :
    classify flags status = rtEok ↔ status &&& sdioErrors = 0 ∨
      (status &&& staCcrcfail ≠ 0 ∧ respType flags &&& (respR3 ||| respR4) ≠ 0) := by
  have hne : -rtError ≠ rtEok := by decide
  unfold classify
  by_cases he : status &&& sdioErrors = 0
  · rw [if_neg (not_not.mpr he)]
    exact iff_of_true rfl (Or.inl he)
  · rw [if_pos he]
    split
    case isTrue hx => exact iff_of_true rfl (Or.inr hx)
    case isFalse hx => exact iff_of_false hne fun h => h.elim he hx

/-- The wait fails without a status word, and for one with an error that is not excused. -/
theorem waitFails_iff {o : Obs} {cmd₀ cmd : MmcsdCmd} {t : Trace}
    (h : Explains o cmd₀ cmd t) :
    ¬ o.WaitFails cmd₀.flags ↔ t.timedOut = false ∧ (WordClean t ∨ Excused cmd t) := by
  unfold Obs.WaitFails WordClean Excused
  rw [h.timedOut, h.word, h.flags]
  cases o.recv with
  | none => simp
  | some status =>
    rw [show ¬ classify cmd.flags status ≠ 0 ↔ classify cmd.flags status = rtEok from not_not,
      classify_eq_ok_iff]
    exact (and_iff_right rfl).symm

/-- The data phase fails when the loop runs out or the last read of STA shows an error. -/
theorem dataFails_iff {o : Obs} {cmd₀ cmd : MmcsdCmd} {t : Trace}
    (h : Explains o cmd₀ cmd t) (hd : cmd.data.isSome = true) :
    ¬ o.DataFails ↔ t.idle = true ∧ t.last &&& sdioErrors = 0 := by
  unfold Obs.DataFails
  rw [← busyLoop_eq_zero_iff, h.idle hd, h.last hd, not_or, not_not]

theorem settled_of_explains {o : Obs} {cmd₀ cmd : MmcsdCmd} {t : Trace}
    (h : Explains o cmd₀ cmd t) : Settled cmd t := by
  have herr : cmd.err = rtEok ↔ ¬ o.Fails cmd₀.flags cmd₀.data.isSome := by
    rw [← sendCommand_err_ne_zero_iff, h.err]
    exact not_not.symm
  unfold Settled LastClean
  rw [herr, Obs.Fails, not_or, waitFails_iff h, h.data, not_and, and_assoc]
  refine and_congr_right fun _ => and_congr_right fun _ => ?_
  constructor
  · intro hf
    exact ⟨fun hd => ((dataFails_iff h hd).mp (hf hd)).1,
      fun hd => ((dataFails_iff h hd).mp (hf hd)).2⟩
  · rintro ⟨hidle, hlast⟩ hd
    exact (dataFails_iff h hd).mpr ⟨hidle hd, hlast hd⟩

/-- Every command of every run ends as the driver computes from the words it saw. -/
theorem settled_of_reach {hw : Hw} {s : Host} (h : Reach step Free (init hw) s) :
    ∀ d ∈ s.log, Settled d.1 d.2 := by
  intro d hd
  obtain ⟨o, cmd₀, he⟩ := observed_of_reach h d hd
  exact settled_of_explains he

/-! ## Words with the same errors -/

/-- The level bits of STA are none of SDIO_ERRORS. -/
theorem sta_errors (hw : Hw) : hw.sta &&& sdioErrors = hw.flags &&& sdioErrors := by
  have hz : hw.level &&& ~~~icrFlags &&& sdioErrors = 0 := by
    rw [BitVec.and_assoc, show ~~~icrFlags &&& sdioErrors = 0 by decide]
    exact BitVec.and_zero
  unfold Hw.sta
  rw [BitVec.and_or_distrib_right, hz]
  exact BitVec.or_zero

theorem and_errors_and_ccrcfail (w : Word) :
    w &&& sdioErrors &&& staCcrcfail = w &&& staCcrcfail := by
  rw [BitVec.and_assoc]
  rfl

theorem ccrcfail_of_errors {w : Word} (h : w &&& sdioErrors = staCcrcfail) :
    w &&& staCcrcfail ≠ 0 := by
  rw [← and_errors_and_ccrcfail, h]
  decide

/-- The part of the error flags that a word shows is as `CrcOk` as the whole. -/
theorem CrcOk.of_or {flags v w rest : Word} (h : CrcOk flags v)
    (hv : (w ||| rest) &&& sdioErrors = v &&& sdioErrors) : CrcOk flags w := by
  intro hc
  rw [BitVec.and_or_distrib_right, BitVec.or_comm] at hv
  have hw : w &&& sdioErrors = w &&& sdioErrors &&& (v &&& sdioErrors) := by
    rw [← hv, and_or_self_right]
  have hcv : v &&& staCcrcfail ≠ 0 := by
    intro hz
    apply hc
    rw [← and_errors_and_ccrcfail, hw, BitVec.and_assoc, and_errors_and_ccrcfail, hz]
    exact BitVec.and_zero
  refine (h hcv).imp_left fun ⟨hn, hev⟩ => ⟨hn, ?_⟩
  rw [hw, hev, and_errors_and_ccrcfail]
  exact and_bit_of_ne_zero hc

/-- On a word that is `CrcOk` the driver's test finds a fault where there is one. -/
theorem CrcOk.excused_iff {flags w : Word} (h : CrcOk flags w) :
    (w &&& sdioErrors = 0 ∨
        (w &&& staCcrcfail ≠ 0 ∧ respType flags &&& (respR3 ||| respR4) ≠ 0)) ↔
      w &&& sdioErrors = 0 ∨ (w &&& sdioErrors = staCcrcfail ∧ NoCrc flags) := by
  refine or_congr_right' fun _ => ⟨fun ⟨hc, hr⟩ => ?_, fun ⟨he, hn⟩ => ?_⟩
  · obtain ⟨hn, he⟩ := (h hc).resolve_right hr
    exact ⟨he, hn⟩
  · refine ⟨ccrcfail_of_errors he, ?_⟩
    rcases hn with hn | hn <;> rw [hn] <;> decide

/-- With a data phase: the errors `e` of the command are those of its status word and those
    STA adds, which are no excuse. -/
theorem CrcOk.data_iff {flags w last e : Word} (h : CrcOk flags w)
    (hall : (w ||| last) &&& sdioErrors = e)
    (hlast : ¬ (NoCrc flags ∧ e = staCcrcfail ∧ last &&& staCcrcfail ≠ 0)) :
    ((w &&& sdioErrors = 0 ∨
          (w &&& staCcrcfail ≠ 0 ∧ respType flags &&& (respR3 ||| respR4) ≠ 0)) ∧
        last &&& sdioErrors = 0) ↔ e = 0 ∨ (e = staCcrcfail ∧ NoCrc flags) := by
  rw [BitVec.and_or_distrib_right] at hall
  rw [h.excused_iff]
  have hsame : last &&& sdioErrors = 0 → w &&& sdioErrors = e := by
    intro hz
    rw [hz] at hall
    exact BitVec.or_zero.symm.trans hall
  constructor
  · rintro ⟨hw, hz⟩
    rw [← hsame hz]
    exact hw
  · intro he
    have hz : last &&& sdioErrors = 0 := by
      have hin : last &&& sdioErrors = last &&& sdioErrors &&& e := by
        rw [← hall, and_or_self_right]
      rcases he with he | ⟨he, hn⟩
      · rw [hin, he]
        exact BitVec.and_zero
      · rw [hin, he, and_errors_and_ccrcfail]
        exact not_not.mp fun hc => hlast ⟨hn, he, hc⟩
    rw [hsame hz]
    exact ⟨he, hz⟩

/-! ## What the driver has seen -/

/-- A status word that was consumed: its CCRCFAIL is `CrcOk`, and without a data phase it shows
    every error flag raised by then. -/
structure Consumed (flags : Word) (hasData : Bool) (t : Trace) (w : Word) : Prop where
  word : t.word = some w
  crc : CrcOk flags w
  all : hasData = false → w &&& sdioErrors = t.raisedAt &&& sdioErrors

/-- Of a command that is done, unless its wait ran out: with a data phase, STA shows the error
    flags that the status word does not, and no CCRCFAIL that is no fault. -/
def Seen (flags : Word) (hasData : Bool) (t : Trace) : Prop :=
  t.timedOut = true ∨ ∃ w, Consumed flags hasData t w ∧ (hasData = true →
    (w ||| t.last) &&& sdioErrors = t.raisedEnd &&& sdioErrors ∧
    ¬ (NoCrc flags ∧ t.raisedEnd &&& sdioErrors = staCcrcfail ∧ t.last &&& staCcrcfail ≠ 0))

theorem not_faulty_iff {cmd : MmcsdCmd} {t : Trace} :
    ¬ Faulty cmd t ↔ errorsRaised cmd t = 0 ∨
      (errorsRaised cmd t = staCcrcfail ∧ NoCrc cmd.flags) := by
  unfold Faulty
  rw [not_and_not_right]
  exact Decidable.imp_iff_not_or.trans (or_congr_left not_not)

/-- A command that has seen its errors is classified right. -/
theorem Settled.classified {cmd : MmcsdCmd} {t : Trace} (h : Settled cmd t)
    (hs : Seen cmd.flags cmd.data.isSome t) : Classified cmd t := by
  unfold Classified Succeeded
  rw [show cmd.err = rtEok ↔ _ from h]
  refine and_congr_right fun hto => ?_
  rcases hs with hs | ⟨w, hc, hdata⟩
  · rw [hs] at hto
    cases hto
  rw [not_faulty_iff]
  unfold WordClean Excused LastClean errorsRaised
  rw [hc.word]
  cases hd : cmd.data.isSome with
  | false =>
    simp only [Bool.false_eq_true, false_imp_iff, and_true, true_and, if_false]
    rw [← hc.all hd]
    exact hc.crc.excused_iff
  | true =>
    obtain ⟨hall, hlast⟩ := hdata hd
    simp only [true_imp_iff, if_true]
    rw [← hc.crc.data_iff hall hlast]
    exact and_left_comm

/-! ## The invariant -/

/-- The error flags raised for the command are those of `w` and those that STA still shows. -/
def Pending (s : Host) (w : Word) : Prop :=
  (w ||| s.hw.flags) &&& sdioErrors = s.trace.raised &&& sdioErrors

/-- After the wait: it ran out, or the status word is consumed. -/
def Waited (s : Host) : Prop :=
  s.trace.timedOut = true ∨
    ∃ w, Consumed s.cmd.flags true s.trace w ∧ Pending s w

/-- While the thread waits, every error flag raised is in the event or in STA; and every one is
    in the status word or in STA until STA is read. -/
def PcInv (s : Host) : Prop :=
  match s.pc with
  | .recv | .wait => Pending s s.event.set
  | .received w => Consumed s.cmd.flags s.cmd.data.isSome s.trace w ∧
      (s.cmd.data.isSome = true → Pending s w)
  | .busy _ | .check _ => s.cmd.data.isSome = true ∧ Waited s
  | .copyOut _ | .postClean => Seen s.cmd.flags s.cmd.data.isSome s.trace
  | _ => True

structure Inv (s : Host) : Prop where
  event : EventOk s
  pc : PcInv s
  log : ∀ d ∈ s.log, Seen d.1.flags d.1.data.isSome d.2

theorem Inv.at {s : Host} (h : Inv s) {pc : Pc} (hpc : s.pc = pc) : PcInv { s with pc } := by
  subst hpc
  exact h.pc

theorem Pending.raise {s : Host} {w : Word} (h : Pending s w) (f : Word) :
    Pending { s with
      hw := { s.hw with flags := s.hw.flags ||| f }
      trace := { s.trace with raised := s.trace.raised ||| f } } w := by
  have hw : (w ||| s.hw.flags) &&& sdioErrors = s.trace.raised &&& sdioErrors := h
  show (w ||| (s.hw.flags ||| f)) &&& sdioErrors = (s.trace.raised ||| f) &&& sdioErrors
  rw [← BitVec.or_assoc, BitVec.and_or_distrib_right, hw, ← BitVec.and_or_distrib_right]

/-- The interrupt clears the flags it shows. -/
theorem flags_acked (hw : Hw) : hw.flags &&& ~~~hw.sta = 0 := and_not_or_self _ _

/-- What the interrupt takes from STA it hands on. -/
theorem Pending.acked {s : Host} {w : Word} (h : Pending s w) :
    (w ||| s.hw.sta) &&& sdioErrors = s.trace.raised &&& sdioErrors := by
  rw [BitVec.and_or_distrib_right, sta_errors, ← BitVec.and_or_distrib_right]
  exact h

/-! ## Each move keeps it -/

theorem inv_next {s : Host} (hq : s.event.suspendThread = [])
    (hlog : ∀ d ∈ s.log, Seen d.1.flags d.1.data.isSome d.2) : Inv s.next := by
  refine ⟨eventOk_next hq, ?_, by rw [next_log]; exact hlog⟩
  unfold PcInv
  rcases next_pc s with hpc | hpc <;> rw [hpc] <;> trivial

theorem inv_finish {s : Host} (hq : s.event.suspendThread = [])
    (hlog : ∀ d ∈ s.log, Seen d.1.flags d.1.data.isSome d.2)
    (hs : Seen s.cmd.flags s.cmd.data.isSome s.trace) : Inv s.finish := by
  refine inv_next hq fun d hd => ?_
  rcases List.mem_cons.mp hd with rfl | hd
  · exact hs
  · exact hlog d hd

/-- The wait is over: the command is done, or its data phase is waited for. -/
theorem inv_endWait {s : Host} {status : Option Word} (hq : s.event.suspendThread = [])
    (hlog : ∀ d ∈ s.log, Seen d.1.flags d.1.data.isSome d.2)
    (hstatus : ∀ w, status = some w → Consumed s.cmd.flags s.cmd.data.isSome s.trace w ∧
      (s.cmd.data.isSome = true → Pending s w)) : Inv (s.endWait status) := by
  have hev := eventOk_endWait hq status
  have hflags : (s.takeStatus status).cmd.flags = s.cmd.flags := waitCompleted_flags _ _ _
  have hsome : (s.takeStatus status).cmd.data = s.cmd.data := waitCompleted_data _ _ _
  rcases endWait_cases s status with ⟨hd, he⟩ | ⟨hd, he⟩
  · rw [he]
    refine inv_finish hq hlog ?_
    rw [hflags, hsome, hd]
    cases status with
    | none => exact Or.inl rfl
    | some w =>
      obtain ⟨hc, -⟩ := hstatus w rfl
      rw [hd] at hc
      exact Or.inr ⟨w, ⟨hc.word, hc.crc, hc.all⟩, nofun⟩
  · rw [he] at hev ⊢
    refine ⟨hev, ⟨(congrArg _ hsome).trans hd, ?_⟩, hlog⟩
    cases status with
    | none => exact Or.inl rfl
    | some w =>
      obtain ⟨hc, hp⟩ := hstatus w rfl
      exact Or.inr ⟨w, ⟨hc.word, hflags ▸ hc.crc, nofun⟩, hp hd⟩

/-- The thread finds its status word in the event, or waits. -/
theorem inv_recvEvent {s : Host} (h : Inv s) (hpc : s.pc = .recv)
    (hg : s.event.set ≠ 0 → CrcOk s.cmd.flags s.trace.raised ∧
      (s.cmd.data = none → s.hw.flags &&& sdioErrors = 0)) : Inv s.recvEvent := by
  have hp : Pending s s.event.set := h.at hpc
  rcases recvEvent_cases (h.event.queue hpc nofun) with ⟨hne, he⟩ | ⟨hz, he⟩
  · rw [he]
    obtain ⟨hcrc, hflags⟩ := hg hne
    refine ⟨rfl, ⟨⟨rfl, hcrc.of_or hp, fun hd => ?_⟩, fun _ => hp⟩, h.log⟩
    have hall : (s.event.set ||| s.hw.flags) &&& sdioErrors = s.trace.raised &&& sdioErrors := hp
    rw [BitVec.and_or_distrib_right, hflags (Option.isNone_iff_eq_none.mp
      (Option.isSome_eq_false_iff.mp hd))] at hall
    exact BitVec.or_zero.symm.trans hall
  · rw [he]
    rw [hz] at hp
    exact ⟨rfl, hp, h.log⟩

/-- The interrupt ends the wait, keeps the flags for the wait to come, or acknowledges none
    that the data phase is checked for. -/
theorem inv_irq {s : Host} (h : Inv s) (hsta : s.hw.sta ≠ 0) (hg : Guard s .irq) :
    Inv (irqProcess s) := by
  have hp := h.pc
  unfold PcInv at hp
  have hg : IrqGuard s s.pc := hg
  rcases irqProcess_cases h.event hsta with ⟨hpc, he⟩ | ⟨hpc, he⟩
  · rw [he]
    rw [hpc] at hp hg
    dsimp only at hp
    rw [h.event.wait hpc] at hp
    have hg : CrcOk s.cmd.flags s.trace.raised := hg
    have hall : s.hw.sta &&& sdioErrors = s.trace.raised &&& sdioErrors := by
      have := hp.acked
      rwa [show (0 : Word) ||| s.hw.sta = s.hw.sta from BitVec.zero_or] at this
    have hkept : (s.hw.sta ||| (s.hw.flags &&& ~~~s.hw.sta)) &&& sdioErrors =
        s.trace.raised &&& sdioErrors := by
      rw [flags_acked, show s.hw.sta ||| 0 = s.hw.sta from BitVec.or_zero]
      exact hall
    exact ⟨rfl, ⟨⟨rfl, hg.of_or hkept, fun _ => hall⟩, fun _ => hkept⟩, h.log⟩
  · rw [he]
    refine ⟨eventOk_of_ne hpc rfl, ?_, h.log⟩
    have hdata : ∀ w, s.hw.flags &&& sdioErrors = 0 → Pending s w →
        Pending { s with hw := { s.hw with flags := s.hw.flags &&& ~~~s.hw.sta } } w := by
      intro w hz hw
      show (w ||| (s.hw.flags &&& ~~~s.hw.sta)) &&& sdioErrors = s.trace.raised &&& sdioErrors
      rw [flags_acked, ← hw, BitVec.and_or_distrib_right, BitVec.and_or_distrib_right, hz]
      rfl
    unfold PcInv
    dsimp only
    cases hpc' : s.pc <;> simp only [hpc'] at hp hg ⊢
    case wait => exact absurd hpc' hpc
    case recv =>
      show (s.event.set ||| s.hw.sta ||| (s.hw.flags &&& ~~~s.hw.sta)) &&& sdioErrors =
        s.trace.raised &&& sdioErrors
      rw [flags_acked, show s.event.set ||| s.hw.sta ||| 0 = s.event.set ||| s.hw.sta from
        BitVec.or_zero]
      exact hp.acked
    case received w => exact ⟨hp.1, fun hd => hdata w (hg hd) (hp.2 hd)⟩
    case busy count | check count =>
      exact ⟨hp.1, hp.2.imp_right fun ⟨w, hc, hw⟩ => ⟨w, hc, hdata w (hg hp.1) hw⟩⟩
    case copyOut i | postClean => exact hp

theorem inv_pollBusy {s : Host} {count : Nat} (h : Inv s) (hpc : s.pc = .busy count) :
    Inv (s.pollBusy count) := by
  have hq := h.event.queue hpc nofun
  have hp : s.cmd.data.isSome = true ∧ Waited s := h.at hpc
  unfold Host.pollBusy
  split
  · exact ⟨hq, hp, h.log⟩
  · split
    · exact ⟨hq, hp, h.log⟩
    · refine ⟨hq, ⟨hp.1, hp.2.imp_right fun ⟨w, hc, hw⟩ => ?_⟩, h.log⟩
      exact ⟨w, ⟨hc.word, hc.crc, nofun⟩, hw⟩

/-- STA is read: it shows what the status word lacks. -/
theorem inv_takeSta {s : Host} {count : Nat} (h : Inv s) (hpc : s.pc = .check count)
    (hg : ¬ (NoCrc s.cmd.flags ∧ s.trace.raised &&& sdioErrors = staCcrcfail ∧
      s.hw.flags &&& staCcrcfail ≠ 0)) : Inv (s.takeSta count).endData := by
  have hq := h.event.queue hpc nofun
  obtain ⟨hd, hw⟩ : s.cmd.data.isSome = true ∧ Waited s := h.at hpc
  have hcrc : s.hw.sta &&& staCcrcfail = s.hw.flags &&& staCcrcfail := by
    rw [← and_errors_and_ccrcfail, sta_errors, and_errors_and_ccrcfail]
  have hseen : Seen (s.takeSta count).cmd.flags (s.takeSta count).cmd.data.isSome
      (s.takeSta count).trace := by
    refine hw.imp_right fun ⟨w, hc, hpend⟩ => ⟨w, ⟨hc.word, hc.crc, ?_⟩, fun _ => ⟨?_, ?_⟩⟩
    · intro hno
      exact absurd (hno.symm.trans hd) Bool.false_ne_true
    · exact hpend.acked
    · show ¬ (_ ∧ _ ∧ s.hw.sta &&& staCcrcfail ≠ 0)
      rw [hcrc]
      exact hg
  rcases endData_cases (s.takeSta count) with ⟨-, he⟩ | ⟨-, he⟩
  · rw [he]
    exact inv_finish hq h.log hseen
  · rw [he]
    exact ⟨hq, hseen, h.log⟩

theorem inv_copyByte {s : Host} {i : Nat} {b : BitVec 8} (h : Inv s) (hpc : s.pc = .copyOut i) :
    Inv (s.copyByte i b) := by
  have hq := h.event.queue hpc nofun
  have hp : Seen s.cmd.flags s.cmd.data.isSome s.trace := h.at hpc
  unfold Host.copyByte
  split
  · refine ⟨hq, ?_, h.log⟩
    show Seen s.cmd.flags (s.cmd.data.map _).isSome s.trace
    rw [Option.isSome_map]
    exact hp
  · exact ⟨hq, hp, h.log⟩

theorem inv_thread {s s' : Host} {b : BitVec 8} (h : Inv s) (hg : Guard s (.thread b))
    (hs : threadStep s b = some s') : Inv s' := by
  have hev := eventOk_thread h.event hs
  have hg : ThreadGuard s s.pc := hg
  cases threadStep_inv hs with
  | @lock first hpc =>
    rcases start_cases s first with he | ⟨cmd, pc, -, he, hk⟩
    · rw [he]
      exact inv_next (h.event.queue hpc nofun) h.log
    · rw [he] at hev ⊢
      refine ⟨hev, ?_, h.log⟩
      rcases hk with ⟨rfl, -⟩ | rfl | ⟨data, -, -, rfl⟩ <;> trivial
  | copyIn hpc =>
    refine ⟨hev, ?_, h.log⟩
    split <;> trivial
  | reset hpc => exact ⟨hev, trivial, h.log⟩
  | openMask hpc =>
    refine ⟨hev, ?_, h.log⟩
    split <;> trivial
  | clean hpc => exact ⟨hev, trivial, h.log⟩
  | closeMask hpc => exact ⟨hev, trivial, h.log⟩
  | issue hpc =>
    rw [hpc] at hg
    have hf : s.issue.hw.flags = s.hw.flags := by
      unfold Host.issue
      cases s.cmd.data <;> rfl
    refine ⟨hev, ?_, h.log⟩
    show (s.event.set ||| s.issue.hw.flags) &&& sdioErrors = 0 &&& sdioErrors
    rw [hf, show (0 : Word) &&& sdioErrors = 0 from BitVec.zero_and]
    exact hg
  | recv hpc =>
    rw [hpc] at hg
    exact inv_recvEvent h hpc hg
  | received hpc =>
    have hp := h.at hpc
    exact inv_endWait (h.event.queue hpc nofun) h.log fun w hw => Option.some.inj hw ▸ hp
  | busy hpc => exact inv_pollBusy h hpc
  | check hpc =>
    rw [hpc] at hg
    exact inv_takeSta h hpc hg
  | copyOut hpc => exact inv_copyByte h hpc
  | postClean hpc => exact inv_finish (h.event.queue hpc nofun) h.log (h.at hpc)
  | complete hpc => exact ⟨hev, trivial, h.log⟩

/-- The controller moves: what is raised is in STA as well. -/
theorem inv_controller {s : Host} {hw : Hw} {raised : Word} {response : Option Resp} (h : Inv s)
    (hpend : ∀ w, Pending s w →
      Pending { s with hw, trace := { s.trace with raised, response } } w) :
    Inv { s with hw, trace := { s.trace with raised, response } } := by
  have hp := h.pc
  refine ⟨h.event, ?_, h.log⟩
  unfold PcInv at *
  dsimp only
  cases hpc : s.pc <;> simp only [hpc] at hp ⊢
  case recv | wait => exact hpend _ hp
  case received w =>
    exact ⟨⟨hp.1.word, hp.1.crc, hp.1.all⟩, fun hd => hpend w (hp.2 hd)⟩
  case busy count | check count =>
    refine ⟨hp.1, hp.2.imp_right fun ⟨w, hc, hw⟩ => ?_⟩
    exact ⟨w, ⟨hc.word, hc.crc, nofun⟩, hpend w hw⟩
  case copyOut i | postClean =>
    exact hp.imp_right fun ⟨w, hc, hw⟩ => ⟨w, ⟨hc.word, hc.crc, hc.all⟩, hw⟩

theorem inv_step {s s' : Host} {a : Action} (h : Inv s) (hg : Guard s a)
    (hs : step s a = some s') : Inv s' := by
  cases a with
  | request req =>
    obtain ⟨hpc, hs⟩ := Option.ite_none_right_eq_some.mp hs
    obtain rfl := Option.some.inj hs
    exact ⟨h.event.queue hpc nofun, trivial, h.log⟩
  | thread b => exact inv_thread h hg hs
  | irq =>
    obtain ⟨hen, hs⟩ := Option.ite_none_right_eq_some.mp hs
    obtain rfl := Option.some.inj hs
    exact inv_irq h (sta_ne_zero hen) hg
  | timeout =>
    obtain ⟨hpc, hs⟩ := Option.ite_none_right_eq_some.mp hs
    obtain rfl := Option.some.inj hs
    refine inv_endWait ?_ h.log nofun
    rw [h.event.wait hpc]
    rfl
  | raise f =>
    obtain rfl := Option.some.inj hs
    exact inv_controller h fun _ hw => hw.raise (f &&& icrFlags)
  | level v =>
    obtain rfl := Option.some.inj hs
    exact inv_controller h fun _ hw => hw
  | respond r =>
    obtain ⟨-, hs⟩ := Option.ite_none_right_eq_some.mp hs
    obtain rfl := Option.some.inj hs
    exact inv_controller h fun _ hw => hw

/-- In every run whose steps meet the guard, every command done is classified right. -/
theorem classified_of_reach {hw : Hw} {s : Host} (h : Reach step Guard (init hw) s) :
    ∀ d ∈ s.log, Classified d.1 d.2 := by
  have hinit : Inv (init hw) := ⟨rfl, trivial, fun _ hd => nomatch hd⟩
  have hi := h.invariant Inv hinit fun _ _ _ hi hg hs => inv_step hi hg hs
  have hfree : Reach step Free (init hw) s := h.mono fun _ _ _ => trivial
  exact fun d hd => (settled_of_reach hfree d hd).classified (hi.log d hd)

instance (cmd : MmcsdCmd) (t : Trace) : Decidable (Classified cmd t) := by
  unfold Classified Succeeded Faulty
  infer_instance

/-- SD_APP_OP_COND, with an R3. -/
def opCond : HostReq := .single ⟨41, 0, respR3, .zero, 0, 0, none⟩ nofun

/-- The CCRCFAIL of an R3; then a read whose data path times out after its first event. -/
def seenErrors : List Action :=
  .request opCond :: List.replicate 5 (.thread 0) ++ [.raise staCcrcfail, .irq] ++
    List.replicate 2 (.thread 0) ++
    .request readOne :: List.replicate 7 (.thread 0) ++ [.raise staDataend, .irq] ++
    .raise staDtimeout :: List.replicate 6 (.thread 0)

theorem classified_seenErrors :
    ∃ s, exec (guarded step Guard) (init restHw) seenErrors = some s ∧
      s.log.map (fun d => (d.1.cmdCode, d.1.err)) = [(17, -rtError), (41, rtEok)] ∧
      ∀ d ∈ s.log, Classified d.1 d.2 := by
  obtain ⟨s, hs⟩ : ∃ s, exec (guarded step Guard) (init restHw) seenErrors = some s := ⟨_, rfl⟩
  refine ⟨s, hs, ?_, classified_of_reach (reach_of_exec .start hs)⟩
  cases hs
  decide

/-- SD_APP_OP_COND, with an R3, and STOP_TRANSMISSION, with an R1. -/
def opCondStop : HostReq where
  cmd := some ⟨41, 0, respR3, .zero, 0, 0, none⟩
  stop := some ⟨12, 0, respR1, .zero, 0, 0, none⟩
  room := by rintro c ⟨⟩ d ⟨⟩
  stop_data := by rintro c ⟨⟩; rfl

/-- Both responses fail their CRC check, the first before the wait and the second in it. -/
def badCrc : List Action :=
  [.request opCondStop, .thread 0, .thread 0, .thread 0, .thread 0, .raise staCcrcfail, .irq,
    .thread 0, .thread 0, .thread 0, .thread 0, .thread 0, .thread 0, .raise staCcrcfail, .irq,
    .thread 0, .thread 0]

/-- The R1 passes for good: 1 has a bit in common with 4 ||| 5. -/
theorem classified_fails_badCrc :
    ¬ ∀ hw s, Reach step Free (init hw) s → ∀ d ∈ s.log, Classified d.1 d.2 := by
  intro hall
  obtain ⟨s, hs⟩ : ∃ s, exec (guarded step Free) (init restHw) badCrc = some s := ⟨_, rfl⟩
  have hno : ¬ ∀ d ∈ s.log, Classified d.1 d.2 := by
    cases hs
    decide
  exact hno (hall restHw s (reach_of_exec .start hs))

end Live2dStm32.Sdio.Classify
