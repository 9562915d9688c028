import Live2dStm32.Kernel.Semaphore

/-
  RT-Thread event sets (rt-thread/src/ipc.c): `rt_event_send`, `rt_event_recv` and the reset of
  `rt_event_control`, with FIFO queues; `τ` names threads.

  The last section is about a set with at most one thread waiting for any of its bits
  (RT_EVENT_FLAG_OR | RT_EVENT_FLAG_CLEAR), the way the SDIO driver uses it.
-/

namespace Live2dStm32.Kernel

def rtEventFlagAnd : BitVec 32 := 0x01
def rtEventFlagOr : BitVec 32 := 0x02
def rtEventFlagClear : BitVec 32 := 0x04

/-- A suspended thread, with the `event_set` and `event_info` it waits with. -/
structure EventWaiter (τ : Type) where
  thread : τ
  eventSet : BitVec 32
  eventInfo : BitVec 32
  deriving DecidableEq, Repr

structure RtEvent (τ : Type) where
  set : BitVec 32
  suspendThread : List (EventWaiter τ)
  deriving DecidableEq, Repr

variable {τ : Type}

def rtEventInit : RtEvent τ := ⟨0, []⟩

/-- RT_IPC_CMD_RESET of `rt_event_control`; the second result are the threads resumed. -/
def rtEventReset (event : RtEvent τ) : RtEvent τ × List τ :=
  (⟨0, []⟩, event.suspendThread.map (·.thread))

/-- Whether a waiter's condition holds of `set`, with the `event_set` it then has; `none` when
    it asks for neither AND nor OR. -/
def EventWaiter.received (w : EventWaiter τ) (set : BitVec 32) : Option (Option (BitVec 32)) :=
  if w.eventInfo &&& rtEventFlagAnd ≠ 0 then
    some (if w.eventSet &&& set = w.eventSet then some w.eventSet else none)
  else if w.eventInfo &&& rtEventFlagOr ≠ 0 then
    some (if w.eventSet &&& set ≠ 0 then some (w.eventSet &&& set) else none)
  else none

/-- The search of `rt_event_send` through the queue. Results: the set, the threads that keep
    waiting, the threads resumed with what they received, and the code returned. -/
def eventResume : BitVec 32 → List (EventWaiter τ) →
    BitVec 32 × List (EventWaiter τ) × List (τ × BitVec 32) × Int
  | set, [] => (set, [], [], rtEok)
  | set, w :: ws =>
    match w.received set with
    | none => (set, w :: ws, [], -rtEinval)
    | some none =>
      let (set, kept, resumed, err) := eventResume set ws
      (set, w :: kept, resumed, err)
    | some (some r) =>
      let set := if w.eventInfo &&& rtEventFlagClear ≠ 0 then set &&& ~~~r else set
      let (set, kept, resumed, err) := eventResume set ws
      (set, kept, (w.thread, r) :: resumed, err)

/-- `rt_event_send`. -/
def rtEventSend (event : RtEvent τ) (set : BitVec 32) :
    RtEvent τ × List (τ × BitVec 32) × Int :=
  if set = 0 then (event, [], -rtError)
  else
    let (set, kept, resumed, err) := eventResume (event.set ||| set) event.suspendThread
    (⟨set, kept⟩, resumed, err)

/-- How `rt_event_recv` leaves its caller: with the bits received, with an error, or
    suspended. -/
inductive EventOutcome where
  | received (recved : BitVec 32)
  | failed (err : Int)
  | suspended
  deriving DecidableEq, Repr

/-- `rt_event_recv` up to the point where the caller returns or is suspended. One of AND and OR
    is asked for, as the source asserts. -/
def rtEventRecv (event : RtEvent τ) (self : τ) (set option : BitVec 32) (timeout : Int) :
    RtEvent τ × EventOutcome :=
  if set = 0 then (event, .failed (-rtError))
  else
    let ok : Bool := if option &&& rtEventFlagAnd ≠ 0 then event.set &&& set == set
      else event.set &&& set != 0
    if ok then
      ({ event with
         set := if option &&& rtEventFlagClear ≠ 0 then event.set &&& ~~~set else event.set },
       .received (event.set &&& set))
    else if timeout = 0 then (event, .failed (-rtEtimeout))
    else ({ event with suspendThread := event.suspendThread ++ [⟨self, set, option⟩] }, .suspended)

/-- `rt_thread_timeout` takes the thread off the queue; its `rt_event_recv` then returns
    `-RT_ETIMEOUT`. -/
def rtEventTimeout [DecidableEq τ] (event : RtEvent τ) (self : τ) : RtEvent τ :=
  { event with suspendThread := event.suspendThread.filter (·.thread ≠ self) }

/-! ## One thread that waits for any bit -/

/-- The caller waits for all 32 bits with OR and CLEAR. -/
def anyBit (self : τ) : EventWaiter τ := ⟨self, 0xffffffff, rtEventFlagOr ||| rtEventFlagClear⟩

theorem allBits_and (x : BitVec 32) : (0xffffffff : BitVec 32) &&& x = x := by
  rw [show (0xffffffff : BitVec 32) = BitVec.allOnes 32 from rfl, BitVec.allOnes_and]

theorem and_allBits (x : BitVec 32) : x &&& (0xffffffff : BitVec 32) = x := by
  rw [BitVec.and_comm, allBits_and]

/-- With nobody waiting the bits are kept. -/
theorem rtEventSend_empty (old set : BitVec 32) (h : set ≠ 0) :
    rtEventSend (⟨old, []⟩ : RtEvent τ) set = (⟨old ||| set, []⟩, [], rtEok) := by
  unfold rtEventSend
  rw [if_neg h]
  rfl

/-- A thread that waits for any bit is resumed with all of them. -/
theorem rtEventSend_anyBit (self : τ) (old set : BitVec 32) (h : set ≠ 0) :
    rtEventSend ⟨old, [anyBit self]⟩ set = (⟨0, []⟩, [(self, old ||| set)], rtEok) := by
  have hne : old ||| set ≠ 0 := by
    intro hc
    apply h
    apply BitVec.eq_of_getLsbD_eq
    intro i hi
    have hb := congrArg (fun x : BitVec 32 => x.getLsbD i) hc
    simp only [BitVec.getLsbD_or] at hb
    exact (Bool.or_eq_false_iff.mp (hb.trans BitVec.getLsbD_zero)).2.trans BitVec.getLsbD_zero.symm
  have hrec : (anyBit self).received (old ||| set) = some (some (old ||| set)) := by
    unfold EventWaiter.received anyBit
    dsimp only
    rw [if_neg (by decide), if_pos (by decide), allBits_and, if_pos hne]
  unfold rtEventSend
  rw [if_neg h]
  simp only [eventResume, hrec]
  have hclear : (rtEventFlagOr ||| rtEventFlagClear) &&& rtEventFlagClear ≠ 0 := by decide
  rw [show (anyBit self).eventInfo = rtEventFlagOr ||| rtEventFlagClear from rfl, if_pos hclear]
  have hz : (old ||| set) &&& ~~~(old ||| set) = 0 := BitVec.and_not_self _
  rw [hz]
  rfl

theorem anyBit_option : ¬ (rtEventFlagOr ||| rtEventFlagClear) &&& rtEventFlagAnd ≠ 0 ∧
    (rtEventFlagOr ||| rtEventFlagClear) &&& rtEventFlagClear ≠ 0 := by decide

/-- Bits that are there are received at once. -/
theorem rtEventRecv_some (self : τ) {set : BitVec 32} (h : set ≠ 0) (ws : List (EventWaiter τ))
    (timeout : Int) :
    rtEventRecv ⟨set, ws⟩ self 0xffffffff (rtEventFlagOr ||| rtEventFlagClear) timeout =
      (⟨0, ws⟩, .received set) := by
  have hz : set &&& ~~~(0xffffffff : BitVec 32) = 0 := by
    rw [show ~~~(0xffffffff : BitVec 32) = 0#32 by decide]
    exact BitVec.and_zero
  unfold rtEventRecv
  dsimp only
  rw [if_neg (by decide), if_neg anyBit_option.1, if_pos anyBit_option.2, and_allBits, hz,
    if_pos (bne_iff_ne.mpr h)]

/-- Without bits the caller is suspended. -/
theorem rtEventRecv_none (self : τ) (ws : List (EventWaiter τ)) {timeout : Int}
    (h : timeout ≠ 0) :
    rtEventRecv ⟨0, ws⟩ self 0xffffffff (rtEventFlagOr ||| rtEventFlagClear) timeout =
      (⟨0, ws ++ [anyBit self]⟩, .suspended) := by
  unfold rtEventRecv
  dsimp only
  rw [if_neg (by decide), if_neg anyBit_option.1, and_allBits,
    if_neg (show ¬ ((0 : BitVec 32) != 0) = true by decide), if_neg h]
  rfl

end Live2dStm32.Kernel
