import Live2dStm32.Lib.Loop
import Live2dStm32.Usb.Pipes

/-
  A transfer of the USB host (drivers/drv_usbh.c): `drv_pipe_xfer`, which submits a request,
  waits, and looks at the channel, round after round until something ends it.

  It compares the channel state with URB_ERROR, which is a state of the URB: as a channel state
  the same number is HC_NYET. `xferOk_iff`: every transfer ends as it should exactly when the
  URB is in error whenever the channel is at HC_NYET and only then, and the channel is in no
  error state itself.
-/

namespace Live2dStm32.Usb

open Live2dStm32.Lib

/-! ## States -/

/-- USB_OTG_URBStateTypeDef. -/
inductive UrbState where
  | idle
  | done
  | notReady
  | nyet
  | error
  | stall
  deriving DecidableEq, Repr

/-- USB_OTG_HCStateTypeDef. -/
inductive HcState where
  | idle
  | xfrc
  | halted
  | nak
  | nyet
  | stall
  | xactErr
  | bblErr
  | dataTglErr
  deriving DecidableEq, Repr

/-- The numbers of the enumerators, by which C compares them. -/
def UrbState.value : UrbState → Nat
  | .idle => 0
  | .done => 1
  | .notReady => 2
  | .nyet => 3
  | .error => 4
  | .stall => 5

def HcState.value : HcState → Nat
  | .idle => 0
  | .xfrc => 1
  | .halted => 2
  | .nak => 3
  | .nyet => 4
  | .stall => 5
  | .xactErr => 6
  | .bblErr => 7
  | .dataTglErr => 8

/-- Transaction, babble and toggle errors. -/
def HcState.isError : HcState → Bool
  | .xactErr | .bblErr | .dataTglErr => true
  | _ => false

def upipeStatusOk : BitVec 32 := 0x00
def upipeStatusStall : BitVec 32 := 0x01
def upipeStatusError : BitVec 32 := 0x02

def usbEpAttrInt : BitVec 8 := 0x03

/-- RT_TICK_PER_SECOND. -/
def rtTickPerSecond : Nat := 1000

/-- A call: the pipe with the interval of its endpoint and whether it has a callback, and the
    arguments. -/
structure XferCall where
  pipe : Upipe
  bInterval : BitVec 8
  callback : Bool
  token : BitVec 8
  nbytes : Int
  timeouts : Int

/-- `connect_status` before a request, and what the getters give after it. -/
structure Observed where
  connectStatus : Bool
  hcState : HcState
  urbState : UrbState
  xferCount : BitVec 32
  deriving DecidableEq, Repr

/-- The calls `drv_pipe_xfer` makes, apart from the getters. -/
inductive Effect where
  | submitRequest (chNum direction epType token : BitVec 8) (length : Int)
  | completionWait (timeout : Int)
  | mdelay (ms : Nat)
  | delay (ticks : Nat)
  | halt (chNum : BitVec 8)
  | init (chNum epnum devAddress speed epType : BitVec 8) (mps : BitVec 16)
  | callback (status : BitVec 32)
  deriving DecidableEq, Repr

/-- `pipe->status`, and what has been called so far. -/
structure XferState where
  status : BitVec 32
  effects : List Effect
  deriving DecidableEq, Repr

def XferState.push (s : XferState) (e : Effect) : XferState :=
  { s with effects := s.effects ++ [e] }

/-! ## drv_pipe_xfer -/

/-- Request, wait, and the delay of 1 ms. -/
def submit (call : XferCall) (s : XferState) : XferState :=
  let pipe := call.pipe
  let s := s.push (.submitRequest pipe.pipeIndex ((pipe.bEndpointAddress &&& 0x80) >>> 7)
    pipe.bmAttributes call.token call.nbytes)
  (s.push (.completionWait call.timeouts)).push (.mdelay 1)

/-- The channel answered NAK: it is halted and opened again. -/
def restart (call : XferCall) (s : XferState) : XferState :=
  let pipe := call.pipe
  let interval := call.bInterval.toNat * rtTickPerSecond / 1000
  let s := if pipe.bmAttributes = usbEpAttrInt then
    s.push (.delay (if 0 < interval then interval else 1)) else s
  (s.push (.halt pipe.pipeIndex)).push (.init pipe.pipeIndex pipe.bEndpointAddress pipe.address
    usbOtgSpeedFull pipe.bmAttributes pipe.wMaxPacketSize)

/-- `pipe->status` is set and the callback called, if there is one. -/
def report (call : XferCall) (s : XferState) (status : BitVec 32) : XferState :=
  let s := { s with status := status }
  if call.callback then s.push (.callback status) else s

/-- What is returned when the URB is done. The second test has a mask of 0. -/
def doneResult (call : XferCall) (size : BitVec 32) : Int :=
  if call.pipe.bEndpointAddress &&& 0x80 ≠ 0 then size.toInt
  else if call.pipe.bEndpointAddress &&& 0x00 ≠ 0 then size.toInt
  else call.nbytes

/-- One round of `drv_pipe_xfer`. -/
def xferRound (call : XferCall) (s : XferState) (o : Observed) :
    Round XferState (XferState × Int) :=
  if !o.connectStatus then .ends (s, -1)
  else
    let s := submit call s
    if o.hcState.value = HcState.nak.value then .goesOn (restart call s)
    else if o.hcState.value = HcState.stall.value then
      .ends (report call s upipeStatusStall, -1)
    else if o.hcState.value = UrbState.error.value then
      .ends (report call s upipeStatusError, -1)
    else if UrbState.done.value = o.urbState.value then
      .ends (report call s upipeStatusOk, doneResult call o.xferCount)
    else .goesOn s

/-! ## The law -/

/-- The callbacks among the effects. -/
def callbacks (s : XferState) : List (BitVec 32) :=
  s.effects.filterMap fun
    | .callback status => some status
    | _ => none

/-- The requests submitted. -/
def submits (s : XferState) : Nat :=
  s.effects.countP fun
    | .submitRequest .. => true
    | _ => false

/-- An error: in the URB or in the channel. -/
def Observed.Failed (o : Observed) : Prop := o.urbState = .error ∨ o.hcState.isError = true

/-- The call ends in round `n` with `status`, reported once, and returns -1. -/
def EndsWith (call : XferCall) (n : Nat) (status : BitVec 32) :
    Round XferState (XferState × Int) → Prop
  | .ends (s, ret) => s.status = status ∧ ret = -1 ∧ submits s = n + 1 ∧
      callbacks s = if call.callback then [status] else []
  | .goesOn _ => False

/-- Round `n` on a connected port treats what it observes as it should. -/
structure RoundOk (call : XferCall) (n : Nat) (o : Observed)
    (r : Round XferState (XferState × Int)) : Prop where
  ok : ∀ s ret, r = .ends (s, ret) → s.status = upipeStatusOk → o.urbState = .done
  failed : o.Failed → EndsWith call n upipeStatusError r
  stalled : o.hcState = .stall → EndsWith call n upipeStatusStall r
  noFalseError : ∀ s ret, r = .ends (s, ret) → s.status = upipeStatusError → o.Failed

/-- Every round that is reached on a connected port is treated as it should be. -/
def XferOk (call : XferCall) (status : BitVec 32) (obs : Nat → Observed) : Prop :=
  ∀ n s, Loop.Enters (xferRound call) ⟨status, []⟩ obs n s → (obs n).connectStatus = true →
    RoundOk call n (obs n) (xferRound call s (obs n))

/-- The next round is reached after this observation. -/
def Observed.GoesOn (o : Observed) : Prop :=
  o.connectStatus = true ∧ (o.hcState = .nak ∨
    o.hcState ≠ .stall ∧ o.hcState ≠ .nyet ∧ o.urbState ≠ .done)

/-- The URB is in error where the channel is at HC_NYET and nowhere else, and the channel is in
    no error state. -/
def Observed.Consistent (o : Observed) : Prop :=
  (o.urbState = .error ↔ o.hcState = .nyet) ∧ o.hcState.isError = false

/-! ## What is logged -/

@[simp] theorem submits_submit (call : XferCall) (s : XferState) :
    submits (submit call s) = submits s + 1 := by
  simp [submits, submit, XferState.push]

@[simp] theorem callbacks_submit (call : XferCall) (s : XferState) :
    callbacks (submit call s) = callbacks s := by
  simp [callbacks, submit, XferState.push]

@[simp] theorem submits_restart (call : XferCall) (s : XferState) :
    submits (restart call s) = submits s := by
  unfold restart
  dsimp only
  split <;> simp [submits, XferState.push]

@[simp] theorem callbacks_restart (call : XferCall) (s : XferState) :
    callbacks (restart call s) = callbacks s := by
  unfold restart
  dsimp only
  split <;> simp [callbacks, XferState.push]

@[simp] theorem submits_report (call : XferCall) (s : XferState) (status : BitVec 32) :
    submits (report call s status) = submits s := by
  unfold report
  dsimp only
  split <;> simp [submits, XferState.push]

@[simp] theorem callbacks_report (call : XferCall) (s : XferState) (status : BitVec 32) :
    callbacks (report call s status) =
      callbacks s ++ if call.callback then [status] else [] := by
  unfold report
  dsimp only
  split <;> simp [callbacks, XferState.push]

@[simp] theorem status_report (call : XferCall) (s : XferState) (status : BitVec 32) :
    (report call s status).status = status := by
  unfold report
  dsimp only
  split <;> rfl

/-! ## One round -/

/-- The numbers of the channel states, and the one number of the URB states they meet. -/
theorem value_eq_nak (h : HcState) : h.value = HcState.nak.value ↔ h = .nak := by
  cases h <;> decide

theorem value_eq_stall (h : HcState) : h.value = HcState.stall.value ↔ h = .stall := by
  cases h <;> decide

theorem value_eq_urbError (h : HcState) : h.value = UrbState.error.value ↔ h = .nyet := by
  cases h <;> decide

theorem done_eq_value (u : UrbState) : UrbState.done.value = u.value ↔ u = .done := by
  cases u <;> decide

/-- The five ways through a round on a connected port. -/
theorem xferRound_cases (call : XferCall) (s : XferState) {o : Observed}
    (hc : o.connectStatus = true) :
    (o.hcState = .nak ∧ xferRound call s o = .goesOn (restart call (submit call s))) ∨
    (o.hcState = .stall ∧
      xferRound call s o = .ends (report call (submit call s) upipeStatusStall, -1)) ∨
    (o.hcState = .nyet ∧
      xferRound call s o = .ends (report call (submit call s) upipeStatusError, -1)) ∨
    (o.hcState ≠ .nak ∧ o.hcState ≠ .stall ∧ o.hcState ≠ .nyet ∧
      ((o.urbState = .done ∧ xferRound call s o =
          .ends (report call (submit call s) upipeStatusOk, doneResult call o.xferCount)) ∨
        (o.urbState ≠ .done ∧ xferRound call s o = .goesOn (submit call s)))) := by
  unfold xferRound
  simp only [hc, value_eq_nak, value_eq_stall, value_eq_urbError, done_eq_value]
  by_cases hnak : o.hcState = .nak
  · simp [hnak]
  · by_cases hstall : o.hcState = .stall
    · simp [hstall]
    · by_cases hnyet : o.hcState = .nyet
      · simp [hnyet]
      · by_cases hdone : o.urbState = .done
        · simp [hnak, hstall, hnyet, hdone]
        · simp [hnak, hstall, hnyet, hdone]

theorem endsWith_report_iff {call : XferCall} {n : Nat} {s : XferState} (hs : submits s = n)
    (hcallbacks : callbacks s = []) {status wanted : BitVec 32} :
    EndsWith call n wanted (.ends (report call (submit call s) status, -1)) ↔
      status = wanted := by
  constructor
  · intro h
    exact (status_report call (submit call s) status).symm.trans h.1
  · intro h
    subst h
    refine ⟨by simp, rfl, by simp [hs], by simp [hcallbacks]⟩

theorem roundOk_goesOn_iff {call : XferCall} {n : Nat} {o : Observed} {t : XferState} :
    RoundOk call n o (.goesOn t) ↔ ¬ o.Failed ∧ o.hcState ≠ .stall := by
  constructor
  · intro h
    exact ⟨h.failed, h.stalled⟩
  · intro h
    exact ⟨fun _ _ hr => (nomatch hr), h.1, h.2, fun _ _ hr => (nomatch hr)⟩

theorem roundOk_ends_iff {call : XferCall} {n : Nat} {o : Observed} {t : XferState} {ret : Int} :
    RoundOk call n o (.ends (t, ret)) ↔
      (t.status = upipeStatusOk → o.urbState = .done) ∧
      (o.Failed → EndsWith call n upipeStatusError (.ends (t, ret))) ∧
      (o.hcState = .stall → EndsWith call n upipeStatusStall (.ends (t, ret))) ∧
      (t.status = upipeStatusError → o.Failed) := by
  constructor
  · intro h
    exact ⟨h.ok t ret rfl, h.failed, h.stalled, h.noFalseError t ret rfl⟩
  · intro h
    refine ⟨?_, h.2.1, h.2.2.1, ?_⟩
    · intro t' ret' hr
      cases hr
      exact h.1
    · intro t' ret' hr
      cases hr
      exact h.2.2.2

/-- A round is right exactly when its observation is consistent. -/
theorem roundOk_iff {call : XferCall} {n : Nat} {s : XferState} (hs : submits s = n)
    (hcallbacks : callbacks s = []) {o : Observed} (hc : o.connectStatus = true) :
    RoundOk call n o (xferRound call s o) ↔ o.Consistent := by
  unfold Observed.Consistent
  obtain ⟨hnak, hr⟩ | ⟨hstall, hr⟩ | ⟨hnyet, hr⟩ |
    ⟨hnak, hstall, hnyet, ⟨hdone, hr⟩ | ⟨hdone, hr⟩⟩ := xferRound_cases call s hc
  all_goals rw [hr]
  · -- an error of the URB is overlooked
    rw [roundOk_goesOn_iff]
    simp [Observed.Failed, hnak, HcState.isError]
  · rw [roundOk_ends_iff, endsWith_report_iff hs hcallbacks, endsWith_report_iff hs hcallbacks]
    simp [Observed.Failed, hstall, HcState.isError, upipeStatusStall, upipeStatusError,
      upipeStatusOk]
  · -- an error is reported, whether there is one or not
    rw [roundOk_ends_iff, endsWith_report_iff hs hcallbacks, endsWith_report_iff hs hcallbacks]
    simp [Observed.Failed, hnyet, HcState.isError, upipeStatusError, upipeStatusOk]
  · rw [roundOk_ends_iff]
    simp [Observed.Failed, EndsWith, hstall, hnyet, hdone, upipeStatusError, upipeStatusOk]
  · -- the request is submitted again
    rw [roundOk_goesOn_iff]
    simp [Observed.Failed, hstall, hnyet]

/-! ## The whole call -/

theorem enters_logged {call : XferCall} {status : BitVec 32} {obs : Nat → Observed} {n : Nat}
    {s : XferState} (h : Loop.Enters (xferRound call) ⟨status, []⟩ obs n s) :
    submits s = n ∧ callbacks s = [] := by
  refine h.invariant (fun n s => submits s = n ∧ callbacks s = []) ⟨rfl, rfl⟩ ?_
  intro n t u ⟨hsubmits, hcallbacks⟩ hnext
  by_cases hc : (obs n).connectStatus = true
  · obtain ⟨-, hr⟩ | ⟨-, hr⟩ | ⟨-, hr⟩ | ⟨-, -, -, ⟨-, hr⟩ | ⟨-, hr⟩⟩ := xferRound_cases call t hc
    all_goals
      rw [hr] at hnext
      cases hnext
    · simp [hsubmits, hcallbacks]
    · simp [hsubmits, hcallbacks]
  · simp [xferRound, hc] at hnext

/-- Which observations let the call go on. -/
theorem goesOn_iff (call : XferCall) (s : XferState) (o : Observed) :
    (∃ t, xferRound call s o = .goesOn t) ↔ o.GoesOn := by
  unfold Observed.GoesOn
  by_cases hc : o.connectStatus = true
  · obtain ⟨hnak, hr⟩ | ⟨hstall, hr⟩ | ⟨hnyet, hr⟩ |
        ⟨hnak, hstall, hnyet, ⟨hdone, hr⟩ | ⟨hdone, hr⟩⟩ := xferRound_cases call s hc
    · simp [hr, hc, hnak]
    · simp [hr, hstall]
    · simp [hr, hnyet]
    · simp [hr, hnak, hdone]
    · simp [hr, hc, hstall, hnyet, hdone]
  · simp [xferRound, hc]

theorem enters_iff (call : XferCall) (status : BitVec 32) (obs : Nat → Observed) (n : Nat) :
    (∃ s, Loop.Enters (xferRound call) ⟨status, []⟩ obs n s) ↔ ∀ m < n, (obs m).GoesOn := by
  induction n with
  | zero => exact iff_of_true ⟨_, Loop.enters_zero⟩ (fun m hm => absurd hm (Nat.not_lt_zero m))
  | succ n ih =>
    constructor
    · intro ⟨s, hs⟩ m hm
      obtain ⟨t, ht, hnext⟩ := Loop.enters_succ_iff.mp hs
      rcases Nat.lt_or_eq_of_le (Nat.le_of_lt_succ hm) with hlt | heq
      · exact ih.mp ⟨t, ht⟩ m hlt
      · exact heq ▸ (goesOn_iff call t (obs n)).mp ⟨s, hnext⟩
    · intro hall
      obtain ⟨t, ht⟩ := ih.mpr fun m hm => hall m (Nat.lt_succ_of_lt hm)
      obtain ⟨s, hnext⟩ := (goesOn_iff call t (obs n)).mpr (hall n (Nat.lt_succ_self n))
      exact ⟨s, Loop.enters_succ_iff.mpr ⟨t, ht, hnext⟩⟩

/-- For every call and every stream of observations. -/
theorem xferOk_iff (call : XferCall) (status : BitVec 32) (obs : Nat → Observed) :
    XferOk call status obs ↔
      ∀ n, (∀ m < n, (obs m).GoesOn) → (obs n).connectStatus = true → (obs n).Consistent := by
  constructor
  · intro hok n hbefore hc
    obtain ⟨s, hs⟩ := (enters_iff call status obs n).mpr hbefore
    obtain ⟨hsubmits, hcallbacks⟩ := enters_logged hs
    exact (roundOk_iff hsubmits hcallbacks hc).mp (hok n s hs hc)
  · intro hcond n s hs hc
    obtain ⟨hsubmits, hcallbacks⟩ := enters_logged hs
    have hbefore := (enters_iff call status obs n).mp ⟨s, hs⟩
    exact (roundOk_iff hsubmits hcallbacks hc).mpr (hcond n hbefore hc)

/-- A bulk endpoint whose transfer fails with transaction errors. -/
def bulkIn : XferCall := ⟨⟨1, 0x81, 0x02, 64, 1⟩, 0, true, 1, 64, 1000⟩

theorem xferOk_fails_xactErr :
    ¬ ∀ (call : XferCall) (status : BitVec 32) (obs : Nat → Observed), XferOk call status obs := by
  intro hall
  have hround := hall bulkIn 0 (fun _ => ⟨true, .xactErr, .error, 0⟩) 0 ⟨0, []⟩ Loop.enters_zero rfl
  have hends := hround.failed (.inl rfl)
  simp [xferRound, HcState.value, UrbState.value, EndsWith] at hends

end Live2dStm32.Usb
